import Mathlib.Data.Fintype.Basic
import Mathlib.Logic.Function.Basic
import ObjectLedger.Proofs.Codec.Decoded
import ObjectLedger.Proofs.Key.Made

/-! # What a set of entries grants

A set of entries stands for a map from subjects to the rights that they hold, each right being a bit
of a word (`AclSet.grants`, `Rights.held`). Adding an entry joins rights at its subject, removing
one takes rights away from it, and replacing the entries forgets all that was held
(`AclCall.apply`). Since no two entries have the same subject, the first entry of a subject is its
only one, and every sequence of calls does to the map what the calls say
(`AclSet.refines_of_calls`).
-/

namespace ObjectLedger

/-! ## Rights as sets -/

namespace Rights

/-- The rights of a set, each by the place of its bit. -/
def held (rights : Rights) : Finset (Fin 16) :=
  Finset.univ.filter fun right => rights.bits.toBitVec.getLsbD right

/-- The rights that are held are those whose bits are set. -/
theorem mem_held_iff (rights : Rights) (right : Fin 16) :
    right ∈ rights.held ↔ rights.bits.toBitVec.getLsbD right = true := by
  rw [held, Finset.mem_filter, and_iff_right (Finset.mem_univ right)]

/-- Rights are the same if the same ones are held. -/
theorem held_inj {rights other : Rights} : rights.held = other.held ↔ rights = other := by
  constructor
  · intro same
    have bits : rights.bits = other.bits := by
      apply UInt16.toBitVec_inj.1
      apply BitVec.eq_of_getLsbD_eq
      intro place inside
      have agree := Finset.ext_iff.1 same ⟨place, inside⟩
      rw [mem_held_iff, mem_held_iff] at agree
      exact Bool.eq_iff_iff.2 agree
    cases rights
    cases other
    rwa [Rights.mk.injEq]
  · rintro rfl
    rfl

theorem held_empty : empty.held = ∅ := by
  decide

/-- A union holds what either of its parts does. -/
theorem held_union (rights other : Rights) :
    (rights.union other).held = rights.held ∪ other.held := by
  ext right
  rw [Finset.mem_union, mem_held_iff, mem_held_iff, mem_held_iff, ← Bool.or_eq_true,
    ← BitVec.getLsbD_or]
  rfl

/-- A difference holds what the second part does not take away. -/
theorem held_difference (rights other : Rights) :
    (rights.difference other).held = rights.held \ other.held := by
  ext right
  have inside : decide (right.val < 16) = true := decide_eq_true right.isLt
  rw [Finset.mem_sdiff, mem_held_iff, mem_held_iff, mem_held_iff, difference]
  simp only [UInt16.toBitVec_and, UInt16.toBitVec_not, BitVec.getLsbD_and, BitVec.getLsbD_not,
    inside, Bool.true_and, Bool.and_eq_true, Bool.not_eq_true', Bool.not_eq_true]

/-- A set contains another one if it holds all of its rights. -/
theorem contains_iff (rights other : Rights) :
    rights.contains other = true ↔ other.held ⊆ rights.held := by
  have common : held ⟨rights.bits &&& other.bits⟩ = rights.held ∩ other.held := by
    ext right
    rw [Finset.mem_inter, mem_held_iff, mem_held_iff, mem_held_iff, ← Bool.and_eq_true,
      ← BitVec.getLsbD_and]
    rfl
  rw [contains, beq_iff_eq, ← Finset.inter_eq_right, ← common, held_inj]
  cases other
  rw [Rights.mk.injEq]

/-- Rights are empty if none is held. -/
theorem isEmpty_iff (rights : Rights) : rights.isEmpty = true ↔ rights.held = ∅ := by
  rw [isEmpty, beq_iff_eq, ← held_empty, held_inj]
  cases rights
  rw [empty, Rights.mk.injEq]

end Rights

/-! ## Maps of grants -/

/-- An identity in a scope. -/
abbrev Subject := IdentityKind × String × Scope

/-- The rights that subjects hold, where they have an entry. -/
abbrev Grants := Subject → Option (Finset (Fin 16))

/-- The rights that remain of some rights when others are taken away. Nothing remains if exactly
what is held is taken away, or the last of it. -/
def remaining (held taken : Finset (Fin 16)) : Option (Finset (Fin 16)) :=
  if held = taken then none
  else if held.Nonempty ∧ held \ taken = ∅ then none
  else some (held \ taken)

/-- What the entries of a list grant: to each of their subjects, every right of one of its
entries. -/
def granted (acls : List Acl) : Grants := fun subject =>
  if subject ∈ acls.map Acl.subject then
    some (Finset.univ.filter fun right =>
      ∃ acl ∈ acls, acl.subject = subject ∧ right ∈ acl.rights.held)
  else none

/-- The order of a list takes no part in what it grants. -/
theorem granted_perm {acls other : List Acl} (same : acls.Perm other) :
    granted acls = granted other := by
  funext subject
  unfold granted
  simp only [(same.map Acl.subject).mem_iff, same.mem_iff]

/-- The rights of a subject joined with those of an entry. -/
def Grants.join (grants : Grants) (acl : Acl) : Grants :=
  Function.update grants acl.subject
    (some ((grants acl.subject).getD ∅ ∪ acl.rights.held))

/-- What remains of the rights of a subject without those of an entry. -/
def Grants.cut (grants : Grants) (acl : Acl) : Grants :=
  Function.update grants acl.subject
    ((grants acl.subject).bind fun held => remaining held acl.rights.held)

/-- A right is granted to a subject if some entry for the subject holds it. -/
theorem mem_granted_iff (acls : List Acl) (subject : Subject) (right : Fin 16) :
    right ∈ (granted acls subject).getD ∅ ↔
      ∃ acl ∈ acls, acl.subject = subject ∧ right ∈ acl.rights.held := by
  unfold granted
  split
  · rw [Option.getD_some, Finset.mem_filter, and_iff_right (Finset.mem_univ right)]
  · rename_i absent
    refine iff_of_false (Finset.notMem_empty right) ?_
    rintro ⟨acl, member, same, -⟩
    exact absent (same ▸ List.mem_map_of_mem member)

/-- One more entry joins its rights with those of its subject. -/
theorem granted_concat (acls : List Acl) (acl : Acl) :
    granted (acls ++ [acl]) = (granted acls).join acl := by
  funext subject
  unfold Grants.join
  by_cases own : subject = acl.subject
  · subst own
    have named : acl.subject ∈ (acls ++ [acl]).map Acl.subject :=
      List.mem_map_of_mem (List.mem_append_right _ List.mem_cons_self)
    rw [Function.update_self, granted, if_pos named, Option.some.injEq]
    ext right
    rw [Finset.mem_filter, and_iff_right (Finset.mem_univ right), Finset.mem_union,
      mem_granted_iff]
    simp only [List.mem_append, List.mem_singleton, or_and_right, exists_or, exists_eq_left,
      true_and]
  · rw [Function.update_of_ne own]
    unfold granted
    simp only [List.map_append, List.map_singleton, List.mem_append, List.mem_singleton, own,
      or_false, or_and_right, exists_or, exists_eq_left, Ne.symm own, false_and]

namespace AclSet

/-- What the first entry of each subject grants. -/
def firstGrants (entries : List Acl) : Grants := fun subject =>
  (entries.find? fun entry => entry.subject = subject).map fun entry => entry.rights.held

/-- The rights that subjects hold by a set of entries. -/
def grants (set : AclSet) : Grants := firstGrants set.entries

/-- The subjects of a set, in the order of their entries. -/
def subjects (set : AclSet) : List Subject := set.entries.map Acl.subject

theorem firstGrants_nil : firstGrants [] = fun _ => none := rfl

theorem firstGrants_cons (entry : Acl) (rest : List Acl) :
    firstGrants (entry :: rest) =
      Function.update (firstGrants rest) entry.subject (some entry.rights.held) := by
  funext subject
  unfold firstGrants
  by_cases own : subject = entry.subject
  · subst own
    simp only [List.find?_cons, decide_true, Option.map_some, Function.update_self]
  · simp only [List.find?_cons, Ne.symm own, decide_false, Function.update_of_ne own]

/-- A subject without an entry holds nothing. -/
theorem firstGrants_of_absent {entries : List Acl} {subject : Subject}
    (absent : subject ∉ entries.map Acl.subject) : firstGrants entries subject = none := by
  unfold firstGrants
  rw [List.find?_eq_none.2, Option.map_none]
  intro entry member same
  exact absent (of_decide_eq_true same ▸ List.mem_map_of_mem member)

/-- Entries are equivalent if they are for one subject. -/
theorem isEquivalent_iff {entry acl : Acl} :
    entry.isEquivalent acl = true ↔ entry.subject = acl.subject :=
  beq_iff_eq

/-! ## Adding -/

/-- A change of the rest of a list is a change behind its first entry. -/
theorem getD_map_cons (entry : Acl) (changed : Option (List Acl)) (rest : List Acl) :
    (changed.map (entry :: ·)).getD (entry :: rest) = entry :: changed.getD rest := by
  cases changed with
  | none => rfl
  | some after => rfl

/-- Adding changes the entries only where there is something to grant. -/
theorem entries_add (set : AclSet) (acl : Acl) :
    (set.add acl).1.entries = (granting? acl set.entries).getD set.entries := by
  unfold add
  cases granting? acl set.entries with
  | none => rfl
  | some entries => rfl

/-- A grant joins its rights with those of its subject. -/
theorem firstGrants_granting? (acl : Acl) (entries : List Acl) :
    firstGrants ((granting? acl entries).getD entries) = (firstGrants entries).join acl := by
  induction entries with
  | nil =>
      rw [granting?, Option.getD_some, firstGrants_cons, firstGrants_nil, Grants.join,
        Option.getD_none, Finset.empty_union]
  | cons entry rest ih =>
      rw [granting?]
      split
      · rename_i same
        rw [isEquivalent_iff] at same
        rw [Grants.join, firstGrants_cons, same, Function.update_self, Option.getD_some,
          Function.update_idem]
        split
        · rename_i covered
          rw [Option.getD_none, firstGrants_cons, same,
            Finset.union_eq_left.2 ((Rights.contains_iff ..).1 covered)]
        · rw [Option.getD_some, firstGrants_cons, Rights.held_union]
          exact congrArg (Function.update _ · _) same
      · rename_i differs
        rw [isEquivalent_iff] at differs
        rw [getD_map_cons, firstGrants_cons, firstGrants_cons, ih, Grants.join, Grants.join,
          Function.update_of_ne (Ne.symm differs), Function.update_comm differs]

/-- Adding an entry joins its rights to those of its subject. -/
theorem grants_add (set : AclSet) (acl : Acl) :
    (set.add acl).1.grants = set.grants.join acl := by
  rw [grants, entries_add, firstGrants_granting?, grants]

/-- A grant that changes the entries does not leave them as they are. -/
theorem ne_of_granting? {acl : Acl} {before after : List Acl}
    (changed : granting? acl before = some after) : after ≠ before := by
  induction before generalizing after with
  | nil =>
      cases changed
      exact List.cons_ne_nil _ _
  | cons entry rest ih =>
      rw [granting?] at changed
      split at changed
      · split at changed
        · cases changed
        · rename_i uncovered
          cases changed
          intro same
          have rights := congrArg (fun acl => acl.rights.held) (List.cons.inj same).1
          rw [Rights.held_union, Finset.union_eq_left] at rights
          exact uncovered ((Rights.contains_iff ..).2 rights)
      · obtain ⟨tail, granted, rfl⟩ := Option.map_eq_some_iff.1 changed
        exact fun same => ih granted (List.cons.inj same).2

/-- Adding reports a change exactly if there was one. -/
theorem add_reports (set : AclSet) (acl : Acl) :
    (set.add acl).2 = true ↔ (set.add acl).1 ≠ set := by
  unfold add
  split
  · rename_i changed
    refine iff_of_true rfl fun same => ne_of_granting? changed ?_
    rw [← same]
  · exact iff_of_false Bool.false_ne_true (not_not_intro rfl)

/-! ## Removing -/

/-- Removing changes the entries only where there is something to withdraw. -/
theorem entries_remove (set : AclSet) (acl : Acl) :
    (set.remove acl).1.entries = (withdrawing? acl set.entries).getD set.entries := by
  unfold remove
  cases withdrawing? acl set.entries with
  | none => rfl
  | some entries => rfl

/-- Withdrawing rights from the only entry of a subject leaves what remains of them. -/
theorem firstGrants_withdrawing?_own {entry acl : Acl} {rest : List Acl}
    (same : entry.subject = acl.subject) (alone : acl.subject ∉ rest.map Acl.subject) :
    firstGrants ((withdrawing? acl (entry :: rest)).getD (entry :: rest)) =
      Function.update (firstGrants rest) acl.subject
        (remaining entry.rights.held acl.rights.held) := by
  have dropped : firstGrants rest = Function.update (firstGrants rest) acl.subject none := by
    rw [← firstGrants_of_absent alone, Function.update_eq_self]
  have holding : ∀ rights : Rights, firstGrants ({ entry with rights := rights } :: rest) =
      Function.update (firstGrants rest) acl.subject (some rights.held) := by
    intro rights
    rw [firstGrants_cons]
    exact congrArg (Function.update _ · _) same
  rw [withdrawing?, if_pos (isEquivalent_iff.2 same), remaining, ← Rights.held_difference]
  dsimp only
  split
  · rename_i exact_match
    rw [exact_match, if_pos rfl, Option.getD_some]
    exact dropped
  · rename_i differs
    have apart : entry.rights.held ≠ acl.rights.held := by
      rw [Ne, Rights.held_inj]
      intro equal
      apply differs
      obtain ⟨kind, name, rights, scope⟩ := entry
      cases same
      cases equal
      rfl
    rw [if_neg apart]
    split
    · rename_i untouched
      rw [untouched, if_neg fun lost => lost.1.ne_empty lost.2]
      exact holding entry.rights
    · rename_i touched
      have some_held : entry.rights.held.Nonempty := by
        rw [Finset.nonempty_iff_ne_empty]
        intro none_held
        apply touched
        rw [← Rights.held_inj, Rights.held_difference, none_held, Finset.empty_sdiff]
      split
      · rename_i lost
        rw [if_pos ⟨some_held, (Rights.isEmpty_iff _).1 lost⟩]
        exact dropped
      · rename_i left
        rw [if_neg fun lost => left ((Rights.isEmpty_iff _).2 lost.2)]
        exact holding (entry.rights.difference acl.rights)

/-- If no two entries have the same subject, withdrawing takes the rights from its subject. -/
theorem firstGrants_withdrawing? (acl : Acl) {entries : List Acl}
    (distinct : (entries.map Acl.subject).Nodup) :
    firstGrants ((withdrawing? acl entries).getD entries) = (firstGrants entries).cut acl := by
  induction entries with
  | nil =>
      rw [withdrawing?, Option.getD_none, firstGrants_nil, Grants.cut, Option.bind_none]
      exact (Function.update_eq_self ..).symm
  | cons entry rest ih =>
      obtain ⟨alone, distinct⟩ := List.nodup_cons.1 distinct
      by_cases same : entry.subject = acl.subject
      · rw [firstGrants_withdrawing?_own same (same ▸ alone), Grants.cut, firstGrants_cons, same,
          Function.update_self, Option.bind_some, Function.update_idem]
      · rw [withdrawing?, if_neg (mt isEquivalent_iff.1 same), getD_map_cons, firstGrants_cons,
          firstGrants_cons, ih distinct, Grants.cut, Grants.cut,
          Function.update_of_ne (Ne.symm same), Function.update_comm same]

/-- Removing an entry cuts its rights from those of its subject, which goes when none is left. -/
theorem grants_remove {set : AclSet} (distinct : set.Distinct) (acl : Acl) :
    (set.remove acl).1.grants = set.grants.cut acl := by
  rw [grants, entries_remove, firstGrants_withdrawing? acl distinct, grants]

/-- A withdrawal that changes the entries does not leave them as they are. -/
theorem ne_of_withdrawing? {acl : Acl} {before after : List Acl}
    (changed : withdrawing? acl before = some after) : after ≠ before := by
  induction before generalizing after with
  | nil => cases changed
  | cons entry rest ih =>
      rw [withdrawing?] at changed
      dsimp only at changed
      split at changed
      · split at changed
        · cases changed
          exact (List.cons_ne_self entry rest).symm
        · split at changed
          · cases changed
          · rename_i touched
            split at changed
            · cases changed
              exact (List.cons_ne_self entry rest).symm
            · cases changed
              exact fun same => touched (congrArg Acl.rights (List.cons.inj same).1)
      · obtain ⟨tail, withdrawn, rfl⟩ := Option.map_eq_some_iff.1 changed
        exact fun same => ih withdrawn (List.cons.inj same).2

theorem remove_reports (set : AclSet) (acl : Acl) :
    (set.remove acl).2 = true ↔ (set.remove acl).1 ≠ set := by
  unfold remove
  split
  · rename_i changed
    refine iff_of_true rfl fun same => ne_of_withdrawing? changed ?_
    rw [← same]
  · exact iff_of_false Bool.false_ne_true (not_not_intro rfl)

/-! ## Replacing -/

/-- A set built from a list grants what the entries of the list grant. -/
theorem grants_ofList (acls : List Acl) : (ofList acls).grants = granted acls := by
  induction acls using List.reverseRecOn with
  | nil => rfl
  | append_singleton acls acl ih =>
      rw [granted_concat, ← ih, ← grants_add, ofList, ofList, List.foldl_append, List.foldl_cons,
        List.foldl_nil]

/-- Replacing gives the set of the new entries, changed or not. -/
theorem replace_eq (set : AclSet) (acls : List Acl) : (set.replace acls).1 = ofList acls := by
  unfold replace
  dsimp only
  split
  · assumption
  · rfl

theorem replace_reports (set : AclSet) (acls : List Acl) :
    (set.replace acls).2 = true ↔ (set.replace acls).1 ≠ set := by
  rw [replace_eq]
  unfold replace
  dsimp only
  split
  · rename_i same
    exact iff_of_false Bool.false_ne_true (not_not_intro same.symm)
  · rename_i differs
    exact iff_of_true rfl (Ne.symm differs)

/-! ## Calls -/

/-- A subject holds the rights of its entry, the only one for it. -/
theorem firstGrants_eq_some_iff {entries : List Acl} (distinct : (entries.map Acl.subject).Nodup)
    (subject : Subject) (held : Finset (Fin 16)) :
    firstGrants entries subject = some held ↔
      ∃ entry ∈ entries, entry.subject = subject ∧ entry.rights.held = held := by
  induction entries with
  | nil => simp [firstGrants_nil]
  | cons entry rest ih =>
      obtain ⟨alone, distinct⟩ := List.nodup_cons.1 distinct
      rw [firstGrants_cons]
      by_cases own : subject = entry.subject
      · subst own
        have elsewhere : ∀ other ∈ rest, other.subject ≠ entry.subject :=
          fun other member same => alone (same ▸ List.mem_map_of_mem member)
        rw [Function.update_self, Option.some.injEq]
        constructor
        · exact fun same => ⟨entry, List.mem_cons_self, rfl, same⟩
        · rintro ⟨other, member, same, holds⟩
          cases List.mem_cons.1 member with
          | inl first => exact first ▸ holds
          | inr later => exact absurd same (elsewhere other later)
      · rw [Function.update_of_ne own, ih distinct]
        simp only [List.mem_cons, or_and_right, exists_or, exists_eq_left, Ne.symm own,
          false_and, false_or]

/-- What a set contains is what the subject of an entry holds. -/
theorem contains_iff {set : AclSet} (distinct : set.Distinct) (acl : Acl) :
    set.contains acl = true ↔
      ∃ held, set.grants acl.subject = some held ∧ acl.rights.held ⊆ held := by
  rw [contains, List.any_eq_true]
  simp only [grants, firstGrants_eq_some_iff distinct, Bool.and_eq_true, isEquivalent_iff,
    Rights.contains_iff]
  constructor
  · rintro ⟨entry, member, same, covers⟩
    exact ⟨_, ⟨entry, member, same, rfl⟩, covers⟩
  · rintro ⟨held, ⟨entry, member, same, rfl⟩, covers⟩
    exact ⟨entry, member, same, covers⟩

end AclSet

/-- A call that can change a set of entries. -/
inductive AclCall where
  | add (acl : Acl)
  | remove (acl : Acl)
  | replace (acls : List Acl)

namespace AclCall

/-- What a call does to the rights of the subjects. -/
def apply : AclCall → Grants → Grants
  | add acl, grants => grants.join acl
  | remove acl, grants => grants.cut acl
  | replace acls, _ => granted acls

/-- What a call does to the order of the subjects: an added one comes last, and the others stay in
their order when one is removed. -/
def Orders : AclCall → List Subject → List Subject → Prop
  | add _, before, after => before <+: after
  | remove _, before, after => after.Sublist before
  | replace _, _, _ => True

end AclCall

namespace AclSet

/-- The set after a call, and the answer of the call. -/
def serve (set : AclSet) : AclCall → AclSet × Bool
  | .add acl => set.add acl
  | .remove acl => set.remove acl
  | .replace acls => set.replace acls

/-- The set after a sequence of calls. -/
def serveAll (set : AclSet) (calls : List AclCall) : AclSet :=
  calls.foldl (fun set call => (set.serve call).1) set

/-- A set of entries stands for a map from subjects to rights. -/
structure StandsFor (set : AclSet) (grants : Grants) : Prop where
  /-- No two entries are for the same subject. -/
  apart : set.entries.Pairwise fun entry other => entry.isEquivalent other = false
  same : set.grants = grants
  contains : ∀ acl, set.contains acl = true ↔
    ∃ held, grants acl.subject = some held ∧ acl.rights.held ⊆ held
  snapshot : ofList set.entries = set

/-- A set answers a call by doing to its map what the call says. -/
structure Answers (set : AclSet) (grants : Grants) (call : AclCall) : Prop where
  result : (set.serve call).1.StandsFor (call.apply grants)
  ordered : call.Orders set.subjects (set.serve call).1.subjects
  reported : (set.serve call).2 = true ↔ (set.serve call).1 ≠ set

/-- No call makes two entries for one subject. -/
theorem Distinct.serve {set : AclSet} (distinct : set.Distinct) (call : AclCall) :
    (set.serve call).1.Distinct := by
  cases call with
  | add acl => exact add_distinct distinct acl
  | remove acl => exact remove_distinct distinct acl
  | replace acls => exact replace_distinct distinct acls

/-- Every call does to the set what it does to the map of rights. -/
theorem grants_serve {set : AclSet} (distinct : set.Distinct) (call : AclCall) :
    (set.serve call).1.grants = call.apply set.grants := by
  cases call with
  | add acl => exact grants_add set acl
  | remove acl => exact grants_remove distinct acl
  | replace acls => exact (congrArg grants (replace_eq set acls)).trans (grants_ofList acls)

/-- Every call reports a change exactly if there was one. -/
theorem serve_reports (set : AclSet) (call : AclCall) :
    (set.serve call).2 = true ↔ (set.serve call).1 ≠ set := by
  cases call with
  | add acl => exact add_reports set acl
  | remove acl => exact remove_reports set acl
  | replace acls => exact replace_reports set acls

/-- Every call keeps the order of the subjects that stay. -/
theorem serve_orders (set : AclSet) (call : AclCall) :
    call.Orders set.subjects (set.serve call).1.subjects := by
  cases call with
  | add acl =>
      rw [serve, AclCall.Orders, subjects, subjects, entries_add]
      cases changed : granting? acl set.entries with
      | none => exact List.prefix_rfl
      | some entries =>
          rcases granting?_subjects changed with same | ⟨-, added⟩
          · exact same ▸ List.prefix_rfl
          · exact ⟨[acl.subject], added.symm⟩
  | remove acl =>
      rw [serve, AclCall.Orders, subjects, subjects, entries_remove]
      cases changed : withdrawing? acl set.entries with
      | none => exact List.Sublist.refl _
      | some entries => exact withdrawing?_subjects changed
  | replace acls => trivial

/-- A set without repeated subjects stands for its map of rights. -/
theorem Distinct.standsFor {set : AclSet} (distinct : set.Distinct) :
    set.StandsFor set.grants where
  apart := distinct.apart
  same := rfl
  contains := contains_iff distinct
  snapshot := ofList_entries distinct

/-- A set without repeated subjects answers every call for its map of rights. -/
theorem Distinct.answers {set : AclSet} (distinct : set.Distinct) (call : AclCall) :
    set.Answers set.grants call where
  result := grants_serve distinct call ▸ (distinct.serve call).standsFor
  ordered := serve_orders set call
  reported := serve_reports set call

/-- Every sequence of calls does to the map of a set what the calls say. -/
theorem Distinct.serveAll {set : AclSet} (distinct : set.Distinct) (calls : List AclCall) :
    (set.serveAll calls).Distinct ∧
      (set.serveAll calls).grants =
        calls.foldl (fun grants call => call.apply grants) set.grants := by
  induction calls generalizing set with
  | nil => exact ⟨distinct, rfl⟩
  | cons call calls ih =>
      rw [List.foldl_cons, ← grants_serve distinct call]
      exact ih (distinct.serve call)

/-- A set that was built from a list and then changed by any calls stands for the map that the
calls make of the rights in the list, and answers any call accordingly. The order of the list takes
no part in the map. -/
theorem refines_of_calls (acls : List Acl) (calls : List AclCall) :
    let set := (ofList acls).serveAll calls
    let grants := calls.foldl (fun grants call => call.apply grants) (granted acls)
    set.StandsFor grants ∧ (∀ call, set.Answers grants call) ∧
      ∀ other, other.Perm acls → (ofList other).grants = (ofList acls).grants := by
  intro set grants
  obtain ⟨distinct, same⟩ := (ofList_distinct acls).serveAll calls
  have reached : set.grants = grants := by rw [same, grants_ofList]
  refine ⟨reached ▸ distinct.standsFor, fun call => reached ▸ distinct.answers call, ?_⟩
  intro other permuted
  rw [grants_ofList, grants_ofList, granted_perm permuted]

end AclSet
end ObjectLedger
