import ObjectLedger.Acl.Basic

/-! # Sets of access-control entries

A set lists its entries in the order in which their subjects arrived. Granting
rights to a subject that already has an entry widens that entry, so a set built
from a list holds one entry for each subject (`AclSet.ofList_distinct`). A change
that leaves the entries as they are reports that nothing changed.
-/

namespace ObjectLedger

/-- An ordered set of access-control entries. -/
structure AclSet where
  entries : List Acl
deriving DecidableEq, Repr

namespace AclSet

/-- The entries after a grant, or nothing if the grant was held already. -/
def granting? (acl : Acl) : List Acl → Option (List Acl)
  | [] => some [acl]
  | entry :: rest =>
    if entry.isEquivalent acl then
      if entry.rights.contains acl.rights then none
      else some ({ entry with rights := entry.rights.union acl.rights } :: rest)
    else (granting? acl rest).map (entry :: ·)

/-- The entries after withdrawing rights, or nothing if none of them was held. An
entry goes when it is withdrawn exactly or loses its last right. -/
def withdrawing? (acl : Acl) : List Acl → Option (List Acl)
  | [] => none
  | entry :: rest =>
    if entry.isEquivalent acl then
      let remaining := entry.rights.difference acl.rights
      if entry = acl then some rest
      else if remaining = entry.rights then none
      else if remaining.isEmpty then some rest
      else some ({ entry with rights := remaining } :: rest)
    else (withdrawing? acl rest).map (entry :: ·)

/-- The set with a grant, and whether it changed. -/
def add (set : AclSet) (acl : Acl) : AclSet × Bool :=
  match granting? acl set.entries with
  | some entries => (⟨entries⟩, true)
  | none => (set, false)

/-- The set without the rights of an entry, and whether it changed. -/
def remove (set : AclSet) (acl : Acl) : AclSet × Bool :=
  match withdrawing? acl set.entries with
  | some entries => (⟨entries⟩, true)
  | none => (set, false)

/-- The set that grants what the entries of a list grant. -/
def ofList (acls : List Acl) : AclSet :=
  acls.foldl (fun set acl => (set.add acl).1) ⟨[]⟩

/-- The set of a list in place of this one, and whether they differ. -/
def replace (set : AclSet) (acls : List Acl) : AclSet × Bool :=
  let next := ofList acls
  if set = next then (set, false) else (next, true)

/-- Whether an entry's subject holds all of its rights. -/
def contains (set : AclSet) (acl : Acl) : Bool :=
  set.entries.any fun entry => entry.isEquivalent acl && entry.rights.contains acl.rights

def size (set : AclSet) : Nat := set.entries.length

def isEmpty (set : AclSet) : Bool := set.entries.isEmpty

/-- No two entries have the same subject. -/
def Distinct (set : AclSet) : Prop := (set.entries.map Acl.subject).Nodup

/-- A grant adds its subject at the end or leaves the subjects alone. -/
theorem granting?_subjects {acl : Acl} {before after : List Acl}
    (changed : granting? acl before = some after) :
    after.map Acl.subject = before.map Acl.subject ∨
      (acl.subject ∉ before.map Acl.subject ∧
        after.map Acl.subject = before.map Acl.subject ++ [acl.subject]) := by
  induction before generalizing after with
  | nil =>
    simp only [granting?, Option.some.injEq] at changed
    subst changed
    exact .inr ⟨List.not_mem_nil, rfl⟩
  | cons entry rest ih =>
    rw [granting?] at changed
    split at changed
    · split at changed
      · cases changed
      · simp only [Option.some.injEq] at changed
        subst changed
        exact .inl rfl
    · rename_i differs
      obtain ⟨tail, granted, rfl⟩ := Option.map_eq_some_iff.1 changed
      have other : acl.subject ≠ entry.subject := by
        intro same
        exact differs (by simp [Acl.isEquivalent, same])
      rcases ih granted with same | ⟨absent, added⟩
      · exact .inl (by simp [same])
      · exact .inr ⟨by simpa [other] using absent, by simp [added]⟩

/-- Adding an entry keeps the subjects distinct. -/
theorem add_distinct {set : AclSet} (distinct : set.Distinct) (acl : Acl) :
    (set.add acl).1.Distinct := by
  unfold add
  split
  · rename_i entries changed
    rcases granting?_subjects changed with same | ⟨absent, added⟩
    · simpa [Distinct, same] using distinct
    · rw [Distinct, added]
      exact List.nodup_append.2 ⟨distinct, by simp, fun left member right only equal =>
        absent (List.mem_singleton.1 only ▸ equal ▸ member)⟩
  · exact distinct

/-- A set made from any list has distinct subjects. -/
theorem ofList_distinct (acls : List Acl) : (ofList acls).Distinct := by
  have grows : ∀ (acls : List Acl) (set : AclSet), set.Distinct →
      (acls.foldl (fun set acl => (set.add acl).1) set).Distinct := by
    intro acls
    induction acls with
    | nil => exact fun _ distinct => distinct
    | cons acl rest ih => exact fun set distinct => ih _ (add_distinct distinct acl)
  exact grows acls ⟨[]⟩ List.nodup_nil

end AclSet

end ObjectLedger
