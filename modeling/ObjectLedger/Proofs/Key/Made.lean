import ObjectLedger.Proofs.Key.Draft
import ObjectLedger.Proofs.Key.History

/-! # The keys that can be made

A key is built from a draft of groups and then edited (`KeyRecord.Made`). Building and every edit
leave the subjects of its entries distinct, its versions increasing and the blocks of its groups
stamped (`KeyRecord.Made.regular`), so a made key is well formed unless a setter emptied a name or
chose an unusable replication (`KeyRecord.Made.wellFormed`).

The groups of a draft are taken to come from the operations on groups (`VersionGroup.Made`), which
alone set the marks of blocks. A group that were read from its plain fields, marks included, would
not have to be stamped; nothing here reads groups so, and frames hold the marks only to be set anew
(`GroupForm.made_of_group`).
-/

namespace ObjectLedger

/-! ## Entries -/

namespace AclSet

/-- Withdrawing rights drops a subject or leaves the subjects alone. -/
theorem withdrawing?_subjects {acl : Acl} {before after : List Acl}
    (changed : withdrawing? acl before = some after) :
    (after.map Acl.subject).Sublist (before.map Acl.subject) := by
  induction before generalizing after with
  | nil => cases changed
  | cons entry rest ih =>
      rw [withdrawing?] at changed
      split at changed
      · dsimp only at changed
        split at changed
        · cases changed
          exact List.sublist_cons_self _ _
        · split at changed
          · cases changed
          · split at changed
            · cases changed
              exact List.sublist_cons_self _ _
            · cases changed
              exact List.Sublist.refl _
      · obtain ⟨tail, withdrawn, rfl⟩ := Option.map_eq_some_iff.1 changed
        exact (ih withdrawn).cons_cons _

/-- Removing an entry keeps the subjects distinct. -/
theorem remove_distinct {set : AclSet} (distinct : set.Distinct) (acl : Acl) :
    (set.remove acl).1.Distinct := by
  unfold remove
  split
  · rename_i entries changed
    exact distinct.sublist (withdrawing?_subjects changed)
  · exact distinct

/-- Replacing the entries makes the subjects distinct. -/
theorem replace_distinct {set : AclSet} (distinct : set.Distinct) (acls : List Acl) :
    (set.replace acls).1.Distinct := by
  unfold replace
  dsimp only
  split
  · exact distinct
  · exact ofList_distinct acls

end AclSet

/-! ## Groups -/

namespace VersionGroup

/-- The groups that the operations on groups make. -/
inductive Made : VersionGroup → Prop
  | ofBlocks (version : UInt64) (blocks : List Block) (multipart : Bool) :
      Made (ofBlocks version blocks multipart)
  | next {group after : VersionGroup} {blocks : List Block} (made : group.Made)
      (follows : group.next blocks = .ok after) : Made after
  | append {group : VersionGroup} (made : group.Made) (blocks : List Block) :
      Made (group.append blocks)
  | addBlocks {group after : VersionGroup} {version : UInt64} {blocks : List Block}
      (made : group.Made) (added : group.addBlocks version blocks = .ok after) : Made after
  | takeBlocks {group rest : VersionGroup} {version : UInt64} {blocks : List Block}
      (made : group.Made) (taken : group.takeBlocks version = .ok (blocks, rest)) : Made rest
  | marked {group : VersionGroup} (made : group.Made) (multipart : Bool) :
      Made { group with multipart }
  | withoutPipelines {group : VersionGroup} (made : group.Made) : Made group.withoutPipelines

/-- Hiding the placement of blocks keeps their marks. -/
theorem withoutPipelines_stamped {group : VersionGroup} (stamped : group.Stamped) :
    group.withoutPipelines.Stamped := by
  intro block member
  obtain ⟨source, inside, rfl⟩ := List.mem_map.1 member
  exact stamped source inside

/-- The blocks of every group that can be made are marked with its version. -/
theorem Made.stamped {group : VersionGroup} (made : group.Made) : group.Stamped := by
  induction made with
  | ofBlocks version blocks multipart => exact ofBlocks_stamped version blocks multipart
  | next _ follows _ =>
      obtain ⟨version, _, given⟩ := bind_eq_ok_iff.1 follows
      cases given
      exact ofBlocks_stamped version _ false
  | append _ blocks ih => exact append_stamped ih blocks
  | addBlocks _ added ih =>
      obtain ⟨_, _, given⟩ := bind_eq_ok_iff.1 added
      cases given
      exact append_stamped ih _
  | takeBlocks _ taken _ =>
      obtain ⟨_, _, given⟩ := bind_eq_ok_iff.1 taken
      cases given
      exact fun block member => absurd member List.not_mem_nil
  | marked _ _ ih => exact ih
  | withoutPipelines _ ih => exact withoutPipelines_stamped ih

end VersionGroup

/-! ## Keys -/

namespace KeyRecord

/-- The keys that building and the edits of keys make. -/
inductive Made : KeyRecord → Prop
  | built {draft : KeyDraft} {now : UInt64} {key : KeyRecord}
      (groups : ∀ group ∈ draft.history, group.Made) (built : draft.build now = .ok key) : Made key
  /-- Every field but entries and history can be set to any value. -/
  | set {key other : KeyRecord} (made : key.Made) (acls : other.acls = key.acls)
      (history : other.history = key.history) : Made other
  | addAcl {key : KeyRecord} (made : key.Made) (acl : Acl) : Made (key.addAcl acl).1
  | removeAcl {key : KeyRecord} (made : key.Made) (acl : Acl) : Made (key.removeAcl acl).1
  | setAcls {key : KeyRecord} (made : key.Made) (entries : List Acl) : Made (key.setAcls entries).1
  | appendBlocks {key after : KeyRecord} {blocks : List Block} {time : Option UInt64}
      (made : key.Made) (appended : key.appendBlocks blocks time = .ok after) : Made after
  | addVersion {key after : KeyRecord} {blocks : List Block} {time : Option UInt64}
      {keepOlder : Bool} {version : UInt64} (made : key.Made)
      (added : key.addVersion blocks time keepOlder = .ok (after, version)) : Made after
  | commit {key after : KeyRecord} {reported : List Block} {options : CommitOptions}
      {outcome : Reconciliation} (made : key.Made)
      (committed : key.commit reported options = .ok (after, outcome)) : Made after

/-- What building and every edit of a key keep. -/
structure Regular (key : KeyRecord) : Prop where
  acls : key.acls.Distinct
  ascending : key.history.Pairwise (fun earlier later => earlier.version < later.version)
  stamped : ∀ group ∈ key.history, group.Stamped

variable {key after : KeyRecord}

/-- Putting a stamped group of the same version in the place of the newest one keeps a key
regular. -/
theorem Regular.replaceLatest {older : List VersionGroup} {group other : VersionGroup}
    (regular : key.Regular) (history : key.history = older ++ [group])
    (same : other.version = group.version) (own : other.Stamped) (modified : UInt64) :
    { key with history := older ++ [other], modified }.Regular where
  acls := regular.acls
  ascending := ascending_replace same (history ▸ regular.ascending)
  stamped := stamped_replace own fun member inside =>
    regular.stamped member (history ▸ List.mem_append_left _ inside)

/-- Appending blocks keeps a key regular. -/
theorem Regular.appendBlocks {blocks : List Block} {time : Option UInt64} (regular : key.Regular)
    (appended : key.appendBlocks blocks time = .ok after) : after.Regular := by
  cases newest : key.latest? with
  | none =>
      rw [KeyRecord.appendBlocks, newest] at appended
      cases appended
  | some group =>
      obtain ⟨older, history⟩ := List.getLast?_eq_some_iff.1 newest
      rw [appendBlocks_of_history history] at appended
      cases appended
      have stamped : group.Stamped := regular.stamped group (List.mem_of_getLast? newest)
      have same : (group.append blocks).version = group.version := rfl
      exact regular.replaceLatest history same (VersionGroup.append_stamped stamped blocks) _

/-- A commit keeps a key regular. -/
theorem Regular.commit {reported : List Block} {options : CommitOptions}
    {outcome : Reconciliation} (regular : key.Regular)
    (committed : key.commit reported options = .ok (after, outcome)) : after.Regular := by
  cases newest : key.latest? with
  | none =>
      rw [KeyRecord.commit, newest] at committed
      cases committed
  | some group =>
      obtain ⟨older, history⟩ := List.getLast?_eq_some_iff.1 newest
      obtain ⟨placed, _, replaced, same, stamped, -, -, -⟩ :=
        commit_of_history history reported options
      rw [replaced] at committed
      cases committed
      exact regular.replaceLatest history same stamped key.modified

/-- Adding a version keeps a key regular, whether or not the older ones are kept. -/
theorem Regular.addVersion {blocks : List Block} {time : Option UInt64} {keepOlder : Bool}
    {version : UInt64} (regular : key.Regular)
    (added : key.addVersion blocks time keepOlder = .ok (after, version)) : after.Regular := by
  obtain ⟨group, rfl, -, ascending, stamped⟩ :=
    addVersion_eq_ok regular.ascending regular.stamped added
  exact ⟨regular.acls, ascending, stamped⟩

/-- Every key that can be made is regular. -/
theorem Made.regular (made : key.Made) : key.Regular := by
  induction made with
  | built groups built =>
      have wellFormed :=
        (KeyDraft.build_eq_ok (fun group member => (groups group member).stamped) built).1
      exact ⟨wellFormed.acls, wellFormed.ascending, wellFormed.stamped⟩
  | set _ acls history ih => exact ⟨acls ▸ ih.acls, history ▸ ih.ascending, history ▸ ih.stamped⟩
  | addAcl _ acl ih => exact ⟨AclSet.add_distinct ih.acls acl, ih.ascending, ih.stamped⟩
  | removeAcl _ acl ih => exact ⟨AclSet.remove_distinct ih.acls acl, ih.ascending, ih.stamped⟩
  | setAcls _ entries ih =>
      exact ⟨AclSet.replace_distinct ih.acls entries, ih.ascending, ih.stamped⟩
  | appendBlocks _ appended ih => exact ih.appendBlocks appended
  | addVersion _ added ih => exact ih.addVersion added
  | commit _ committed ih => exact ih.commit committed

/-- A made key is well formed if its names are filled and its replication is usable. -/
theorem Made.wellFormed (made : key.Made) (volume : key.volume.isEmpty = false)
    (bucket : key.bucket.isEmpty = false) (name : key.name.isEmpty = false)
    (usable : key.replication.Usable) : key.WellFormed where
  volume := volume
  bucket := bucket
  name := name
  replication := usable
  acls := made.regular.acls
  ascending := made.regular.ascending
  stamped := made.regular.stamped

end KeyRecord

end ObjectLedger
