/-! # Fields of a separated text

A text cut at every separator, or only at the first one. The fields joined by
the separator are the text again (`joinFields_fields`).
-/

namespace ObjectLedger.Text

/-- The fields between the separators; a text without separator is one field. -/
def fields (separator : Char) : List Char → List (List Char)
  | [] => [[]]
  | c :: rest =>
    if c = separator then [] :: fields separator rest
    else
      match fields separator rest with
      | [] => [[c]]
      | field :: others => (c :: field) :: others

/-- What stands before and after the first separator, if there is one. -/
def cut? (separator : Char) : List Char → Option (List Char × List Char)
  | [] => none
  | c :: rest =>
    if c = separator then some ([], rest)
    else (cut? separator rest).map fun (before, after) => (c :: before, after)

/-- The last field of a text. -/
def lastField (separator : Char) (cs : List Char) : List Char :=
  (fields separator cs).getLastD []

theorem fields_ne_nil (separator : Char) (cs : List Char) : fields separator cs ≠ [] := by
  cases cs with
  | nil => simp [fields]
  | cons c rest =>
    rw [fields]
    split
    · simp
    · split <;> simp

/-- The text with the given fields. -/
def joinFields (separator : Char) : List (List Char) → List Char
  | [] => []
  | [field] => field
  | field :: next :: others => field ++ separator :: joinFields separator (next :: others)

/-- The fields of a text, joined again, are the text. -/
theorem joinFields_fields (separator : Char) (cs : List Char) :
    joinFields separator (fields separator cs) = cs := by
  induction cs with
  | nil => rfl
  | cons c rest ih =>
    rw [fields]
    have nonempty := fields_ne_nil separator rest
    split
    · rename_i same
      cases whole : fields separator rest with
      | nil => exact (nonempty whole).elim
      | cons field others => rw [joinFields, List.nil_append, ← whole, ih, same]
    · cases whole : fields separator rest with
      | nil => exact (nonempty whole).elim
      | cons field others =>
        rw [whole] at ih
        cases others with
        | nil => simpa [joinFields] using ih
        | cons next others => simpa [joinFields] using ih

/-- No field contains the separator. -/
theorem separator_notMem_of_mem_fields {separator : Char} {cs field : List Char}
    (member : field ∈ fields separator cs) : separator ∉ field := by
  induction cs generalizing field with
  | nil =>
    rw [List.mem_singleton.1 member]
    exact List.not_mem_nil
  | cons c rest ih =>
    rw [fields] at member
    split at member
    · rcases List.mem_cons.1 member with rfl | later
      · exact List.not_mem_nil
      · exact ih later
    · rename_i other
      cases whole : fields separator rest with
      | nil => exact (fields_ne_nil separator rest whole).elim
      | cons first others =>
        rw [whole] at member ih
        rcases List.mem_cons.1 member with rfl | later
        · exact List.not_mem_cons_of_ne_of_not_mem (Ne.symm other) (ih List.mem_cons_self)
        · exact ih (List.mem_cons_of_mem _ later)

/-- A text is cut at its first separator. -/
theorem cut?_eq_some {separator : Char} {cs before after : List Char}
    (found : cut? separator cs = some (before, after)) :
    cs = before ++ separator :: after ∧ separator ∉ before := by
  induction cs generalizing before with
  | nil => simp [cut?] at found
  | cons c rest ih =>
    rw [cut?] at found
    split at found
    · rename_i same
      simp only [Option.some.injEq, Prod.mk.injEq] at found
      obtain ⟨rfl, rfl⟩ := found
      simp [same]
    · rename_i other
      obtain ⟨⟨inner, _⟩, inside, equal⟩ := Option.map_eq_some_iff.1 found
      simp only [Prod.mk.injEq] at equal
      obtain ⟨rfl, rfl⟩ := equal
      obtain ⟨rfl, absent⟩ := ih inside
      simp [absent, Ne.symm other]

/-- Characters of different classes differ. -/
theorem ne_of_class {kind : Char → Bool} {c separator : Char} (own : kind c)
    (other : kind separator = false) : c ≠ separator := by
  intro same
  rw [same, other] at own
  cases own

/-- Texts that begin with characters of different classes differ. -/
theorem cons_ne_of_class {kind : Char → Bool} {c separator : Char} (own : kind c)
    (other : kind separator = false) (rest more : List Char) : c :: rest ≠ separator :: more :=
  fun same => ne_of_class own other (List.cons.inj same).1

/-- A text of one class contains no separator of another one. -/
theorem notMem_of_class {kind : Char → Bool} {separator : Char} {cs : List Char}
    (each : ∀ c ∈ cs, kind c) (other : kind separator = false) : separator ∉ cs :=
  fun member => ne_of_class (each separator member) other rfl

/-- A text without the separator is one field. -/
theorem fields_of_notMem {separator : Char} {cs : List Char} (absent : separator ∉ cs) :
    fields separator cs = [cs] := by
  induction cs with
  | nil => rfl
  | cons c rest ih =>
    have other := List.ne_of_not_mem_cons absent
    rw [fields, if_neg (Ne.symm other), ih (List.not_mem_of_not_mem_cons absent)]

/-- A field ends at the first separator behind it. -/
theorem fields_append {separator : Char} {field : List Char} (absent : separator ∉ field)
    (rest : List Char) :
    fields separator (field ++ separator :: rest) = field :: fields separator rest := by
  induction field with
  | nil => rw [List.nil_append, fields, if_pos rfl]
  | cons c others ih =>
    have other := List.ne_of_not_mem_cons absent
    rw [List.cons_append, fields, if_neg (Ne.symm other),
      ih (List.not_mem_of_not_mem_cons absent)]

/-- There is one field more than separators. -/
theorem length_fields (separator : Char) (cs : List Char) :
    (fields separator cs).length = cs.count separator + 1 := by
  induction cs with
  | nil => rfl
  | cons c rest ih =>
    rw [fields]
    by_cases same : c = separator
    · rw [if_pos same, same, List.length_cons, ih, List.count_cons_self]
    · rw [if_neg same, List.count_cons_of_ne same, ← ih]
      cases whole : fields separator rest with
      | nil => exact (fields_ne_nil separator rest whole).elim
      | cons field others => rfl

theorem cut?_of_notMem {separator : Char} {cs : List Char} (absent : separator ∉ cs) :
    cut? separator cs = none := by
  induction cs with
  | nil => rfl
  | cons c rest ih =>
    have other := List.ne_of_not_mem_cons absent
    rw [cut?, if_neg (Ne.symm other), ih (List.not_mem_of_not_mem_cons absent)]
    rfl

/-- The cut falls before the first separator, whatever follows. -/
theorem cut?_append {separator : Char} {before : List Char} (absent : separator ∉ before)
    (after : List Char) : cut? separator (before ++ separator :: after) = some (before, after) := by
  induction before with
  | nil => rw [List.nil_append, cut?, if_pos rfl]
  | cons c rest ih =>
    have other := List.ne_of_not_mem_cons absent
    rw [List.cons_append, cut?, if_neg (Ne.symm other), ih (List.not_mem_of_not_mem_cons absent)]
    rfl

/-- A text that is not cut has no separator. -/
theorem notMem_of_cut? {separator : Char} {cs : List Char} (whole : cut? separator cs = none) :
    separator ∉ cs := by
  induction cs with
  | nil => exact List.not_mem_nil
  | cons c rest ih =>
    rw [cut?] at whole
    by_cases same : c = separator
    · rw [if_pos same] at whole
      cases whole
    · rw [if_neg same, Option.map_eq_none_iff] at whole
      exact List.not_mem_cons_of_ne_of_not_mem (Ne.symm same) (ih whole)

end ObjectLedger.Text
