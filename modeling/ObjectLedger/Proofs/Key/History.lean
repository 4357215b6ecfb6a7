import ObjectLedger.Key.Draft
import ObjectLedger.Proofs.Checked
import ObjectLedger.Proofs.Codec.Record
import ObjectLedger.Proofs.Key.Reconciliation
import ObjectLedger.Store.Records

/-! # Edits of a key under a writer

A writer works on the newest version group of its private copy and leaves the older groups as
they are. Every edit is described by what it makes of a history `older ++ [group]`, and keeps
the key well formed.
-/

namespace ObjectLedger

namespace KeyRecord

/-- Two keys are stored under the same name in the same bucket. -/
structure SamePlace (key other : KeyRecord) : Prop where
  volume : key.volume = other.volume
  bucket : key.bucket = other.bucket
  name : key.name = other.name

theorem SamePlace.trans {first second third : KeyRecord} (left : first.SamePlace second)
    (right : second.SamePlace third) : first.SamePlace third :=
  ⟨left.volume.trans right.volume, left.bucket.trans right.bucket, left.name.trans right.name⟩

/-- Keys in one place have one path. -/
theorem SamePlace.path {key other : KeyRecord} (same : key.SamePlace other) :
    keyPath key.volume key.bucket key.name = keyPath other.volume other.bucket other.name := by
  rw [same.volume, same.bucket, same.name]

variable {key : KeyRecord} {older : List VersionGroup} {group : VersionGroup}

theorem latest?_of_history (history : key.history = older ++ [group]) :
    key.latest? = some group := by
  rw [latest?, history, List.getLast?_concat]

/-- The blocks of a key are those of its last group. -/
theorem latestBlocks_of_history (history : key.history = older ++ [group]) :
    key.latestBlocks = group.blocks := by
  rw [latestBlocks, latest?_of_history history]
  rfl

/-- Replacing the newest group leaves the older ones alone. -/
theorem replaceLatest_concat (older : List VersionGroup) (group other : VersionGroup) :
    replaceLatest (older ++ [group]) other = older ++ [other] := by
  rw [replaceLatest, List.dropLast_concat]

/-- Versions still increase if the newest group is replaced by one of the same version. -/
theorem ascending_replace {other : VersionGroup} (same : other.version = group.version)
    (ascending : (older ++ [group]).Pairwise (fun earlier later =>
      earlier.version < later.version)) :
    (older ++ [other]).Pairwise (fun earlier later => earlier.version < later.version) := by
  obtain ⟨increasing, _, below⟩ := List.pairwise_append.1 ascending
  refine List.pairwise_append.2 ⟨increasing, List.pairwise_singleton _ _, ?_⟩
  intro earlier member later last
  cases List.mem_singleton.1 last
  rw [same]
  exact below earlier member group List.mem_cons_self

/-- Versions still increase with a group above the newest one. -/
theorem ascending_next {last : VersionGroup} (newest : older.getLast? = some last)
    (above : last.version < group.version)
    (ascending : older.Pairwise (fun earlier later => earlier.version < later.version)) :
    (older ++ [group]).Pairwise (fun earlier later => earlier.version < later.version) := by
  obtain ⟨front, rfl⟩ := List.getLast?_eq_some_iff.1 newest
  refine List.pairwise_append.2 ⟨ascending, List.pairwise_singleton _ _, ?_⟩
  intro earlier member later final
  cases List.mem_singleton.1 final
  rcases List.mem_append.1 member with before | here
  · exact UInt64.lt_trans
      ((List.pairwise_append.1 ascending).2.2 earlier before last List.mem_cons_self) above
  · exact List.mem_singleton.1 here ▸ above

/-- Replacing the newest group by a stamped one keeps the groups stamped. -/
theorem stamped_replace {other : VersionGroup} (stamped : other.Stamped)
    (others : ∀ member ∈ older, member.Stamped) :
    ∀ member ∈ older ++ [other], member.Stamped := by
  intro member inside
  rcases List.mem_append.1 inside with old | last
  · exact others member old
  · exact List.mem_singleton.1 last ▸ stamped

/-- Replacing the newest group by a stamped one of the same version keeps a key well formed. -/
theorem WellFormed.replaceLatest (wellFormed : key.WellFormed) (other : VersionGroup)
    (history : key.history = older ++ [group])
    (same : other.version = group.version) (stamped : other.Stamped) :
    { key with history := older ++ [other] }.WellFormed where
  volume := wellFormed.volume
  bucket := wellFormed.bucket
  name := wellFormed.name
  replication := wellFormed.replication
  acls := wellFormed.acls
  ascending := ascending_replace same (history ▸ wellFormed.ascending)
  stamped := stamped_replace stamped fun member inside =>
    wellFormed.stamped member (history ▸ List.mem_append_left _ inside)

/-- A commit replaces the newest group by one with the committed blocks. A matched report accounts
for the allocated blocks among these and the ones left over, and any other report is taken as it
is. -/
theorem commit_of_history (history : key.history = older ++ [group]) (reported : List Block)
    (options : CommitOptions) :
    ∃ (committed : VersionGroup) (outcome : Reconciliation),
      key.commit reported options = .ok ({ key with history := older ++ [committed] }, outcome) ∧
      committed.version = group.version ∧ committed.Stamped ∧
      outcome.committed = committed.blocks ∧
      (options.unchecked = false → ∀ id, (committed.blocks.map (·.id)).count id +
        (outcome.uncommitted.map (·.id)).count id = (group.blocks.map (·.id)).count id) ∧
      (options.unchecked = true →
        committed.blocks.map (·.id) = reported.map (·.id) ∧ outcome.uncommitted = []) := by
  unfold commit
  simp only [latest?_of_history history, history, replaceLatest_concat]
  refine ⟨_, _, rfl, rfl, VersionGroup.ofBlocks_stamped _ _ _, rfl, fun matched id => ?_,
    fun unchecked => ?_⟩
  · rw [VersionGroup.ids_ofBlocks]
    simp only [matched, Bool.false_eq_true, ↓reduceIte]
    exact Reconciliation.count_ofReport key.name group.version group.blocks reported id
  · rw [VersionGroup.ids_ofBlocks]
    simp only [unchecked, ↓reduceIte, and_self]

/-- More blocks are stamped into the newest group. -/
theorem appendBlocks_of_history (history : key.history = older ++ [group]) (blocks : List Block)
    (time : Option UInt64) :
    key.appendBlocks blocks time =
      .ok { key with
        history := older ++ [group.append blocks], modified := time.getD key.modified } := by
  unfold appendBlocks
  simp only [latest?_of_history history, history, replaceLatest_concat]
  rfl

/-- A new version follows the kept history, or is the only one. -/
theorem addVersion_eq_ok {blocks : List Block} {time : Option UInt64} {keepOlder : Bool}
    {after : KeyRecord} {version : UInt64}
    (ascending : key.history.Pairwise (fun earlier later => earlier.version < later.version))
    (stamped : ∀ member ∈ key.history, member.Stamped)
    (added : key.addVersion blocks time keepOlder = .ok (after, version)) :
    ∃ group, after = { key with
        history := (if keepOlder then key.history else []) ++ [group]
        modified := time.getD key.modified } ∧
      group.blocks.map (·.id) = blocks.map (·.id) ∧
      after.history.Pairwise (fun earlier later => earlier.version < later.version) ∧
      ∀ member ∈ after.history, member.Stamped := by
  have keptAscending : (if keepOlder then key.history else []).Pairwise
      (fun earlier later => earlier.version < later.version) := by
    split
    · exact ascending
    · exact .nil
  have keptStamped : ∀ member ∈ (if keepOlder then key.history else []), member.Stamped := by
    intro member inside
    split at inside
    · exact stamped member inside
    · cases inside
  revert added keptAscending keptStamped
  unfold addVersion
  generalize (if keepOlder then key.history else []) = older
  intro added keptAscending keptStamped
  cases newest : older.getLast? with
  | none =>
      cases List.getLast?_eq_none_iff.1 newest
      cases added
      exact ⟨_, rfl, VersionGroup.ids_ofBlocks .., List.pairwise_singleton _ _,
        stamped_replace (VersionGroup.ofBlocks_stamped _ _ _) keptStamped⟩
  | some last =>
      simp only [newest] at added
      obtain ⟨group, follows, added⟩ := bind_eq_ok_iff.1 added
      obtain ⟨next, counted, given⟩ := bind_eq_ok_iff.1 follows
      cases given
      cases added
      have above : last.version < next := by
        rw [UInt64.lt_iff_toNat_lt, ← Word.add_ok_iff.1 counted]
        exact Nat.lt_succ_self _
      exact ⟨_, rfl, VersionGroup.ids_ofBlocks .., ascending_next newest above keptAscending,
        stamped_replace (VersionGroup.ofBlocks_stamped _ _ _) keptStamped⟩

/-- Appending changes only the history and the time of the last change. -/
theorem eq_of_appendBlocks {blocks : List Block} {time : Option UInt64} {after : KeyRecord}
    (appended : key.appendBlocks blocks time = .ok after) :
    after = { key with history := after.history, modified := after.modified } := by
  unfold appendBlocks at appended
  split at appended
  · cases appended
  · cases appended
    rfl

/-- A new version changes only the history and the time of the last change. -/
theorem eq_of_addVersion {blocks : List Block} {time : Option UInt64} {keepOlder : Bool}
    {after : KeyRecord} {version : UInt64}
    (added : key.addVersion blocks time keepOlder = .ok (after, version)) :
    after = { key with history := after.history, modified := after.modified } := by
  unfold addVersion at added
  dsimp only at added
  generalize (if keepOlder then key.history else []) = older at added
  cases newest : older.getLast? with
  | none =>
      rw [newest] at added
      cases added
      rfl
  | some last =>
      rw [newest] at added
      obtain ⟨group, -, given⟩ := bind_eq_ok_iff.1 added
      cases given
      rfl

/-- A new version leaves the generation. -/
theorem addVersion_generation {blocks : List Block} {time : Option UInt64} {keepOlder : Bool}
    {after : KeyRecord} {version : UInt64}
    (added : key.addVersion blocks time keepOlder = .ok (after, version)) :
    after.generation = key.generation := by
  rw [eq_of_addVersion added]

/-- A commit changes only the history of its key. -/
theorem eq_of_commit {written : KeyRecord} {reported : List Block} {options : CommitOptions}
    {outcome : Reconciliation} (built : key.commit reported options = .ok (written, outcome)) :
    written = { key with history := written.history } := by
  unfold commit at built
  split at built
  · cases built
  · cases built
    rfl

end KeyRecord

end ObjectLedger
