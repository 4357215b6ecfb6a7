import ObjectLedger.Dictionary

/-! # The entries of dictionaries

A dictionary is determined by its entries, and taking them in turn gives it back
(`Dictionary.ofList_entries`).
-/

namespace ObjectLedger.Dictionary

variable {α : Type}

/-- Inserting ascending entries one after the other puts them at the end. -/
theorem insertEntry_append {key : String} {value : α} {entries : List (String × α)}
    (above : ∀ entry ∈ entries, entry.1 < key) :
    insertEntry key value entries = entries ++ [(key, value)] := by
  induction entries with
  | nil => rfl
  | cons head rest ih =>
      have first := above head List.mem_cons_self
      have notBefore : ¬ key < head.1 := String.lt_asymm first
      have notSame : key ≠ head.1 := fun same => String.lt_irrefl _ (same ▸ first)
      rw [insertEntry, if_neg notBefore, if_neg notSame,
        ih fun entry member => above entry (List.mem_cons_of_mem _ member), List.cons_append]

/-- Inserting entries in the order of their keys puts each one behind the others. -/
theorem foldl_insert_entries (later : List (String × α)) (d : Dictionary α)
    (ascending : (d.entries ++ later).Pairwise (fun left right => left.1 < right.1)) :
    (later.foldl (fun d entry => d.insert entry.1 entry.2) d).entries = d.entries ++ later := by
  induction later generalizing d with
  | nil => rw [List.foldl_nil, List.append_nil]
  | cons entry later ih =>
      have above : ∀ earlier ∈ d.entries, earlier.1 < entry.1 := fun earlier member =>
        (List.pairwise_append.1 ascending).2.2 earlier member entry List.mem_cons_self
      have entries : (d.insert entry.1 entry.2).entries = d.entries ++ [entry] :=
        insertEntry_append above
      have moved : (d.insert entry.1 entry.2).entries ++ later = d.entries ++ entry :: later := by
        rw [entries, List.append_assoc, List.singleton_append]
      rw [List.foldl_cons, ih _ (moved ▸ ascending), moved]

theorem eq_of_entries {left right : Dictionary α} (same : left.entries = right.entries) :
    left = right := by
  cases left
  cases right
  cases same
  rfl

/-- A dictionary is the dictionary of its entries. -/
theorem ofList_entries (d : Dictionary α) : ofList d.entries = d :=
  eq_of_entries (foldl_insert_entries d.entries empty d.ascending)

/-- The keys of a dictionary are those with a value. -/
theorem mem_keys_iff (d : Dictionary α) (key : String) : key ∈ d.keys ↔ (d.get? key).isSome := by
  rw [Option.isSome_iff_exists, keys, List.mem_map]
  constructor
  · rintro ⟨entry, inside, rfl⟩
    exact ⟨entry.2, (d.mem_entries_iff entry.1 entry.2).1 inside⟩
  · rintro ⟨value, found⟩
    exact ⟨(key, value), (d.mem_entries_iff key value).2 found, rfl⟩

/-- Putting back what a key held undoes an insertion. -/
theorem insert_insert_of_get? {d : Dictionary α} {key : String} {value other : α}
    (held : d.get? key = some value) : (d.insert key other).insert key value = d := by
  apply ext_get?
  intro wanted
  by_cases same : wanted = key
  · subst same
    rw [get?_insert, if_pos rfl, held]
  · rw [get?_insert, if_neg same, get?_insert, if_neg same]

/-- Erasing a key that was absent undoes an insertion. -/
theorem erase_insert_of_get? {d : Dictionary α} {key : String} {value : α}
    (absent : d.get? key = none) : (d.insert key value).erase key = d := by
  apply ext_get?
  intro wanted
  by_cases same : wanted = key
  · subst same
    rw [get?_erase, if_pos rfl, absent]
  · rw [get?_erase, if_neg same, get?_insert, if_neg same]

/-! ## What a change does to the entries -/

/-- A key that holds nothing is not erased from anything. -/
theorem erase_of_absent {d : Dictionary α} {key : String} (absent : d.get? key = none) :
    d.erase key = d := by
  apply ext_get?
  intro wanted
  by_cases same : wanted = key
  · rw [get?_erase, if_pos same, same, absent]
  · rw [get?_erase, if_neg same]

/-- No entry occurs twice. -/
theorem nodup_entries (d : Dictionary α) : d.entries.Nodup := by
  refine d.ascending.imp fun {left right} below equal => ?_
  subst equal
  exact String.lt_irrefl _ below

/-- Dictionaries with the same members have the same entries up to their order. -/
theorem perm_of_mem_iff {left : Dictionary α} {right : List (String × α)} (distinct : right.Nodup)
    (same : ∀ key value, left.get? key = some value ↔ (key, value) ∈ right) :
    left.entries.Perm right :=
  (List.perm_ext_iff_of_nodup left.nodup_entries distinct).2 fun entry =>
    (left.mem_entries_iff entry.1 entry.2).trans (same entry.1 entry.2)

/-- An entry that takes the place of an erased one occurs once. -/
theorem nodup_cons_erase (d : Dictionary α) (key : String) (value : α) :
    ((key, value) :: (d.erase key).entries).Nodup := by
  refine List.nodup_cons.2 ⟨fun member => ?_, nodup_entries _⟩
  have found := ((d.erase key).mem_entries_iff key value).1 member
  rw [get?_erase, if_pos rfl] at found
  cases found

/-- The entries of a dictionary are the one under a key and those without the key. -/
theorem entries_perm_of_get? {d : Dictionary α} {key : String} {value : α}
    (held : d.get? key = some value) : d.entries.Perm ((key, value) :: (d.erase key).entries) := by
  refine perm_of_mem_iff (nodup_cons_erase d key value) fun wanted found => ?_
  rw [List.mem_cons, mem_entries_iff, get?_erase, Prod.ext_iff]
  by_cases same : wanted = key
  · rw [if_pos same, same, held]
    simp [eq_comm]
  · rw [if_neg same]
    simp [same]

/-- Inserting puts an entry in the place of the one with its key. -/
theorem entries_insert_perm (d : Dictionary α) (key : String) (value : α) :
    (d.insert key value).entries.Perm ((key, value) :: (d.erase key).entries) := by
  refine perm_of_mem_iff (nodup_cons_erase d key value) fun wanted found => ?_
  rw [List.mem_cons, mem_entries_iff, get?_erase, get?_insert, Prod.ext_iff]
  by_cases same : wanted = key
  · rw [if_pos same, if_pos same, same]
    simp [eq_comm]
  · rw [if_neg same, if_neg same]
    simp [same]

end ObjectLedger.Dictionary
