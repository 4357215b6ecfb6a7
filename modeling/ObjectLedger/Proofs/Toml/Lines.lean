import ObjectLedger.Proofs.Toml.Plain

/-! # Documents of plain lines

A document with one line for each entry is read back: what it holds is what the lines give
(`read?_written`). A line is a bare key, an equality sign and a plain value. One line is read after
the other (`readLines?_written`), and each name is free when its line comes.
-/

namespace ObjectLedger.Toml

open Text

/-! ## Lines -/

theorem dropWhile_isSpace_of_class {kind : Char → Bool} (space : kind ' ' = false)
    (tab : kind '\t' = false) {first : Char} (own : kind first) (rest : List Char) :
    (first :: rest).dropWhile isSpace = first :: rest := by
  apply List.dropWhile_cons_of_neg
  unfold isSpace
  rw [decide_eq_false (ne_of_class own space), decide_eq_false (ne_of_class own tab)]
  exact Bool.false_ne_true

/-- No plain value begins with a space. -/
theorem dropWhile_isSpace_written {value : Value} (plain : value.Plain) (rest : List Char) :
    (value.written ++ rest).dropWhile isSpace = value.written ++ rest := by
  cases value with
  | integer number =>
      cases digits : decimal number.toNat with
      | nil => exact (decimal_ne_nil _ digits).elim
      | cons first others =>
          have digit : first.isDigit := isDigit_of_mem_decimal (digits ▸ List.mem_cons_self)
          rw [Value.written, digits]
          exact dropWhile_isSpace_of_class rfl rfl digit _
  | truth holds =>
      cases holds with
      | true => rfl
      | false => rfl
  | text value => rfl
  | other => exact plain.elim

section Line

variable {first : Char} {others : List Char}

/-- What stands before a space and an equality sign is a key, if keys may contain its characters. -/
theorem takeKeys?_bare (each : ∀ c ∈ first :: others, isKeyChar c) (depth : Nat)
    (rest : List Char) :
    takeKeys? (depth + 1) (first :: others ++ ' ' :: '=' :: rest) =
      some ([String.ofList (first :: others)], '=' :: rest) := by
  have own := each first List.mem_cons_self
  have key : takeKey? (first :: others ++ ' ' :: '=' :: rest) =
      some (String.ofList (first :: others), ' ' :: '=' :: rest) := by
    unfold takeKey?
    split
    · rename_i quoted
      exact (cons_ne_of_class own rfl _ _ quoted).elim
    · rename_i quoted
      exact (cons_ne_of_class own rfl _ _ quoted).elim
    · rw [List.takeWhile_append_of_pos each, List.dropWhile_append_of_pos each,
        List.takeWhile_cons_of_neg (by decide), List.dropWhile_cons_of_neg (by decide),
        List.append_nil]
      rfl
  unfold takeKeys?
  rw [List.cons_append, dropWhile_isSpace_of_class rfl rfl own, ← List.cons_append, key]
  rfl

/-- What begins with a key does not end a line. -/
theorem endLine?_key (own : isKeyChar first) (rest : List Char) :
    endLine? (first :: rest) = none := by
  have comment : skipComment (first :: rest) = first :: rest := by
    unfold skipComment
    split
    · rename_i marked
      exact (cons_ne_of_class own rfl _ _ marked).elim
    · rfl
  unfold endLine?
  rw [dropWhile_isSpace_of_class rfl rfl own, comment]
  dsimp only
  unfold afterLine?
  split
  · rename_i broken
    exact (cons_ne_of_class own rfl _ _ broken).elim
  · rename_i broken
    exact (cons_ne_of_class own rfl _ _ broken).elim
  · rfl

/-- Reading a line adds its value to the holdings. -/
theorem readLines?_line (each : ∀ c ∈ first :: others, isKeyChar c) {value : Value}
    (plain : value.Plain) (fuel : Nat) (holdings : Holdings) (rest : List Char) :
    readLines? (fuel + 1) holdings []
        (first :: others ++ ' ' :: '=' :: ' ' :: (value.written ++ '\n' :: rest)) =
      (holdings.setValue [] [String.ofList (first :: others)] value).bind fun holdings =>
        readLines? fuel holdings [] rest := by
  have own := each first List.mem_cons_self
  have keys := takeKeys?_bare each 78 (' ' :: (value.written ++ '\n' :: rest))
  have space : (' ' :: (value.written ++ '\n' :: rest)).dropWhile isSpace =
      value.written ++ '\n' :: rest := by
    rw [List.dropWhile_cons_of_pos (by decide), dropWhile_isSpace_written plain]
  rw [List.cons_append] at keys ⊢
  rw [readLines?, dropWhile_isSpace_of_class rfl rfl own]
  split
  · rename_i none
    cases none
  · rename_i header
    exact (cons_ne_of_class own rfl _ _ header).elim
  · rename_i header
    exact (cons_ne_of_class own rfl _ _ header).elim
  · rw [endLine?_key own]
    dsimp only [depthLimit]
    rw [keys]
    simp only [Option.bind_eq_bind, Option.bind_some, after?, ↓reduceIte, space]
    rw [takeValue?_written plain, Option.bind_some]
    have ended : endLine? ('\n' :: rest) = some rest := rfl
    simp only [ended, Option.bind_some]

end Line

/-! ## Documents -/

/-- A document with a line for each entry: its name, an equality sign and its value. -/
def written (entries : List (String × Value)) : List Char :=
  entries.flatMap fun entry =>
    entry.1.toList ++ ' ' :: '=' :: ' ' :: (entry.2.written ++ ['\n'])

/-- An entry can stand on a line of its own. -/
def Stands (entry : String × Value) : Prop :=
  entry.1 ≠ "" ∧ entry.1.toList.all isKeyChar ∧ entry.2.Plain

namespace Holdings

/-- What a document holds that has a line for each entry. The last line stands first. -/
def ofEntries : List (String × Value) → Holdings
  | [] => []
  | entry :: later => ofEntries later ++ [([.name entry.1], .value entry.2)]

/-- Earlier holdings go before later ones. -/
theorem find?_append (holdings more : Holdings) (path : Path) :
    find? (holdings ++ more) path = (holdings.find? path).or (more.find? path) := by
  unfold find?
  rw [List.find?_append, Option.map_or]

theorem find?_singleton (path other : Path) (holding : Holding) :
    find? [(other, holding)] path = if other = path then some holding else none := by
  unfold find?
  by_cases same : other = path
  · rw [List.find?_cons_of_pos (by rwa [decide_eq_true_eq]), if_pos same]
    rfl
  · rw [List.find?_cons_of_neg (by rwa [decide_eq_true_eq]), if_neg same]
    rfl

/-- Paths of one name each are the same if the names are. -/
theorem name_inj {name other : String} : ([Step.name other] = [Step.name name]) ↔ other = name := by
  simp only [List.cons.injEq, Step.name.injEq, and_true]

/-- What no line names is not held. -/
theorem find?_ofEntries_of_notMem {entries : List (String × Value)} {name : String}
    (absent : name ∉ entries.map (·.1)) : (ofEntries entries).find? [.name name] = none := by
  induction entries with
  | nil => rfl
  | cons entry later ih =>
      rw [List.map_cons] at absent
      have differs := List.ne_of_not_mem_cons absent
      rw [ofEntries, find?_append, ih (List.not_mem_of_not_mem_cons absent), find?_singleton,
        if_neg (name_inj.not.2 differs.symm), Option.none_or]

/-- What a line gives is held under its name, if no other line has that name. -/
theorem find?_ofEntries {entries : List (String × Value)} {name : String} {value : Value}
    (distinct : (entries.map (·.1)).Nodup) (member : (name, value) ∈ entries) :
    (ofEntries entries).find? [.name name] = some (.value value) := by
  induction entries with
  | nil => cases member
  | cons entry later ih =>
      rw [List.map_cons, List.nodup_cons] at distinct
      rw [ofEntries, find?_append]
      rcases List.mem_cons.1 member with here | there
      · rw [← here] at distinct ⊢
        rw [find?_ofEntries_of_notMem distinct.1, find?_singleton, if_pos rfl, Option.none_or]
      · rw [ih distinct.2 there, Option.some_or]

/-- A name that is not held yet can be given a value. -/
theorem setValue_of_fresh {holdings : Holdings} {name : String}
    (fresh : holdings.find? [.name name] = none) (value : Value) :
    holdings.setValue [] [name] value = some (([.name name], .value value) :: holdings) := by
  have free : (holdings.find? [.name name]).isSome = false := by rw [fresh, Option.isSome_none]
  simp only [setValue, List.getLast?_singleton, List.dropLast_singleton, descend,
    Option.bind_eq_bind, Option.bind_some, ne_eq, not_true, false_and, ↓reduceIte,
    List.nil_append, free, Bool.false_eq_true]

end Holdings

/-- A document begins with the line of its first entry. -/
theorem written_cons {entry : String × Value} (stands : Stands entry)
    (later : List (String × Value)) : ∃ first others,
      String.ofList (first :: others) = entry.1 ∧ (∀ c ∈ first :: others, isKeyChar c) ∧
      written (entry :: later) =
        first :: others ++ ' ' :: '=' :: ' ' :: (entry.2.written ++ '\n' :: written later) := by
  obtain ⟨named, each, plain⟩ := stands
  cases characters : entry.1.toList with
  | nil => exact (named (String.toList_inj.1 characters)).elim
  | cons first others =>
      refine ⟨first, others, ?_, characters ▸ List.all_eq_true.1 each, ?_⟩
      · rw [← characters, String.ofList_toList]
      · simp only [written, List.flatMap_cons, characters, List.append_assoc, List.cons_append,
          List.nil_append]

/-- Reading a document of lines adds what each of them gives to the holdings. -/
theorem readLines?_written {entries : List (String × Value)}
    (stand : ∀ entry ∈ entries, Stands entry) (distinct : (entries.map (·.1)).Nodup)
    {holdings : Holdings}
    (fresh : ∀ entry ∈ entries, holdings.find? [.name entry.1] = none) {fuel : Nat}
    (enough : entries.length < fuel) :
    readLines? fuel holdings [] (written entries) = some (.ofEntries entries ++ holdings) := by
  induction entries generalizing holdings fuel with
  | nil =>
      cases fuel with
      | zero => cases enough
      | succ fuel => rfl
  | cons entry later ih =>
      cases fuel with
      | zero => cases enough
      | succ fuel =>
          have stands := stand entry List.mem_cons_self
          rw [List.map_cons, List.nodup_cons] at distinct
          obtain ⟨first, others, name, each, lines⟩ := written_cons stands later
          rw [lines, readLines?_line each stands.2.2, name,
            Holdings.setValue_of_fresh (fresh entry List.mem_cons_self), Option.bind_some, ih]
          · rw [Holdings.ofEntries, List.append_assoc]
            rfl
          · exact fun entry member => stand entry (List.mem_cons_of_mem _ member)
          · exact distinct.2
          · intro other member
            have differs : entry.1 ≠ other.1 := fun same =>
              distinct.1 (same ▸ List.mem_map_of_mem member)
            rw [← List.singleton_append, Holdings.find?_append, Holdings.find?_singleton,
              if_neg (Holdings.name_inj.not.2 differs), Option.none_or]
            exact fresh other (List.mem_cons_of_mem _ member)
          · exact Nat.lt_of_succ_lt_succ enough

/-- Every entry takes up at least one character. -/
theorem length_le_written (entries : List (String × Value)) :
    entries.length ≤ (written entries).length := by
  induction entries with
  | nil => exact Nat.le_refl 0
  | cons entry later ih =>
      unfold written at ih ⊢
      simp only [List.flatMap_cons, List.length_append, List.length_cons]
      omega

/-- A document of lines holds what its lines give. -/
theorem read?_written {entries : List (String × Value)} (stand : ∀ entry ∈ entries, Stands entry)
    (distinct : (entries.map (·.1)).Nodup) {text : String} (lines : text.toList = written entries) :
    read? text = some (.ofEntries entries) := by
  have enough : entries.length < (written entries).length + 1 :=
    Nat.lt_succ_of_le (length_le_written entries)
  have fresh : ∀ entry ∈ entries, Holdings.find? [] [.name entry.1] = none := fun _ _ => rfl
  have all := readLines?_written stand distinct fresh enough
  rw [List.append_nil] at all
  have unmarked : ∀ rest, written entries ≠ '\uFEFF' :: rest := by
    intro rest marked
    cases entries with
    | nil => cases marked
    | cons entry later =>
        obtain ⟨first, others, -, each, lines⟩ :=
          written_cons (stand entry List.mem_cons_self) later
        rw [lines] at marked
        exact cons_ne_of_class (each first List.mem_cons_self) rfl _ _ marked
  unfold read?
  rw [lines]
  dsimp only
  split
  · rename_i rest marked
    exact (unmarked rest marked).elim
  · exact all

end ObjectLedger.Toml
