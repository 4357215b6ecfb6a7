/-! # Dictionaries keyed by text

A dictionary lists its entries in strictly increasing order of their keys, so it
is determined by what it holds under each key (`Dictionary.ext_get?`). The order
of texts is the order of their characters, which is also the order of their
UTF-8 bytes.
-/

namespace ObjectLedger

/-- Entries in strictly increasing order of their keys. -/
structure Dictionary (α : Type) where
  entries : List (String × α)
  ascending : entries.Pairwise (fun left right => left.1 < right.1)
deriving DecidableEq

namespace Dictionary

variable {α : Type}

def empty : Dictionary α := ⟨[], .nil⟩

instance : Inhabited (Dictionary α) := ⟨empty⟩

def size (d : Dictionary α) : Nat := d.entries.length

def keys (d : Dictionary α) : List String := d.entries.map (·.1)

/-- The keys from the first one on that is not below a text. -/
def keysFrom (d : Dictionary α) (first : String) : List String := d.keys.dropWhile (· < first)

/-- The value of the first entry with a key. -/
def findEntry (key : String) : List (String × α) → Option α
  | [] => none
  | entry :: rest => if key = entry.1 then some entry.2 else findEntry key rest

/-- The value under a key. -/
def get? (d : Dictionary α) (key : String) : Option α := findEntry key d.entries

def contains (d : Dictionary α) (key : String) : Bool := (d.get? key).isSome

/-- The entries with one more, in place of an entry with the same key. -/
def insertEntry (key : String) (value : α) : List (String × α) → List (String × α)
  | [] => [(key, value)]
  | entry :: rest =>
    if key < entry.1 then (key, value) :: entry :: rest
    else if key = entry.1 then (key, value) :: rest
    else entry :: insertEntry key value rest

/-- What an insertion leaves is the new entry and entries that were there. -/
theorem mem_insertEntry {key : String} {value : α} {entry : String × α}
    {entries : List (String × α)} (member : entry ∈ insertEntry key value entries) :
    entry = (key, value) ∨ entry ∈ entries := by
  induction entries with
  | nil => simpa [insertEntry] using member
  | cons head rest ih =>
    rw [insertEntry] at member
    split at member
    · simpa using member
    · split at member
      · rcases List.mem_cons.1 member with here | there
        · exact .inl here
        · exact .inr (List.mem_cons_of_mem _ there)
      · rcases List.mem_cons.1 member with here | there
        · exact .inr (here ▸ List.mem_cons_self)
        · exact (ih there).imp_right (List.mem_cons_of_mem _)

/-- An insertion keeps the keys in order. -/
theorem insertEntry_ascending (key : String) (value : α) {entries : List (String × α)}
    (ascending : entries.Pairwise (fun left right => left.1 < right.1)) :
    (insertEntry key value entries).Pairwise (fun left right => left.1 < right.1) := by
  induction entries with
  | nil => simp [insertEntry]
  | cons head rest ih =>
    obtain ⟨first, others⟩ := List.pairwise_cons.1 ascending
    rw [insertEntry]
    split
    · rename_i before
      refine List.pairwise_cons.2 ⟨fun entry member => ?_, ascending⟩
      rcases List.mem_cons.1 member with here | there
      · exact here ▸ before
      · exact String.lt_trans before (first entry there)
    · split
      · rename_i same
        exact List.pairwise_cons.2 ⟨fun entry member => same ▸ first entry member, others⟩
      · rename_i notBefore notSame
        refine List.pairwise_cons.2 ⟨fun entry member => ?_, ih others⟩
        rcases mem_insertEntry member with here | there
        · subst here
          exact Std.lt_of_le_of_ne (Std.not_lt.1 notBefore) (Ne.symm notSame)
        · exact first entry there

/-- The dictionary with the value under the key. -/
def insert (d : Dictionary α) (key : String) (value : α) : Dictionary α :=
  ⟨insertEntry key value d.entries, insertEntry_ascending key value d.ascending⟩

/-- The dictionary without the key. -/
def erase (d : Dictionary α) (key : String) : Dictionary α :=
  ⟨d.entries.filter (·.1 ≠ key), d.ascending.filter _⟩

/-- The dictionary of a list of entries, the last one of each key. -/
def ofList (entries : List (String × α)) : Dictionary α :=
  entries.foldl (fun d entry => d.insert entry.1 entry.2) empty

/-- An inserted entry is found under its key, and the others as before. -/
theorem findEntry_insertEntry (key wanted : String) (value : α) (entries : List (String × α)) :
    findEntry wanted (insertEntry key value entries) =
      if wanted = key then some value else findEntry wanted entries := by
  induction entries with
  | nil => simp [insertEntry, findEntry]
  | cons head rest ih =>
    rw [insertEntry]
    split
    · simp [findEntry]
    · split
      · rename_i same
        by_cases found : wanted = key <;> simp [findEntry, ← same, found]
      · rename_i other
        by_cases found : wanted = head.1
        · simp [findEntry, found, Ne.symm other]
        · simp [findEntry, found, ih]

@[simp] theorem get?_insert (d : Dictionary α) (key wanted : String) (value : α) :
    (d.insert key value).get? wanted = if wanted = key then some value else d.get? wanted :=
  findEntry_insertEntry key wanted value d.entries

@[simp] theorem get?_erase (d : Dictionary α) (key wanted : String) :
    (d.erase key).get? wanted = if wanted = key then none else d.get? wanted := by
  change findEntry wanted (d.entries.filter (·.1 ≠ key)) = _
  unfold get?
  induction d.entries with
  | nil => simp [findEntry]
  | cons head rest ih =>
    by_cases gone : head.1 = key
    · by_cases found : wanted = key <;> simp_all [findEntry]
    · by_cases found : wanted = head.1 <;> simp_all [findEntry]

/-- An entry is what its key holds. -/
theorem mem_entries_iff (d : Dictionary α) (key : String) (value : α) :
    (key, value) ∈ d.entries ↔ d.get? key = some value := by
  obtain ⟨entries, ascending⟩ := d
  unfold get?
  induction entries with
  | nil => simp [findEntry]
  | cons head rest ih =>
    obtain ⟨first, others⟩ := List.pairwise_cons.1 ascending
    by_cases same : key = head.1
    · have absent : (key, value) ∉ rest := by
        intro member
        have above := first _ member
        rw [← same] at above
        exact String.lt_irrefl _ above
      rw [List.mem_cons, or_iff_left absent, findEntry, if_pos same, Option.some.injEq,
        Prod.ext_iff]
      simp only [same, true_and, eq_comm]
    · have other : (key, value) ≠ head := fun equal => same (congrArg Prod.fst equal)
      rw [List.mem_cons, or_iff_right other, findEntry, if_neg same]
      exact ih others

/-- Dictionaries that hold the same under each key are equal. -/
theorem ext_get? {left right : Dictionary α}
    (same : ∀ key, left.get? key = right.get? key) : left = right := by
  obtain ⟨first, firstAscending⟩ := left
  obtain ⟨second, secondAscending⟩ := right
  have members : ∀ entry, entry ∈ first ↔ entry ∈ second := by
    intro entry
    have left := mem_entries_iff ⟨first, firstAscending⟩ entry.1 entry.2
    have right := mem_entries_iff ⟨second, secondAscending⟩ entry.1 entry.2
    exact left.trans (same entry.1 ▸ right.symm)
  have distinct {entries : List (String × α)}
      (ascending : entries.Pairwise (fun left right => left.1 < right.1)) : entries.Nodup := by
    refine ascending.imp fun {left right} below equal => ?_
    subst equal
    exact String.lt_irrefl _ below
  congr
  refine List.Perm.eq_of_pairwise (fun a b _ _ ab ba => ?_) firstAscending secondAscending ?_
  · exact (String.lt_irrefl _ (String.lt_trans ab ba)).elim
  · exact (List.perm_ext_iff_of_nodup (distinct firstAscending) (distinct secondAscending)).2
      members

end Dictionary

end ObjectLedger
