import ObjectLedger.Acl.Text
import ObjectLedger.Proofs.Acl.Grants
import ObjectLedger.Proofs.Checked

/-! # Entries are read as they are written

A text of rights gives what its letters stand for together, whatever their order and however often
they stand in it (`Rights.ofText_eq_ok_iff`), so named rights are read as they are written. An entry
is written without escapes. Its name stands between the first two colons and before the first
bracket, if it contains neither. A name with a bracket cuts the text too early, and what is left
behind is no scope; a name with a colon makes too many fields. So both are refused
(`Acl.ofText_text_of_mem`), and no entry is read as another one.
-/

namespace ObjectLedger

open Text

/-! ## Kinds of identity -/

namespace IdentityKind

/-- A kind is read from its name in any case. -/
theorem ofText_of_lower {kind : IdentityKind} {text : String}
    (spelled : text.toList.map Char.toLower = kind.name.toList) : ofText text = .ok kind := by
  unfold ofText
  dsimp only
  rw [spelled]
  cases kind with
  | user => rfl
  | group => rfl
  | world => rfl
  | anonymous => rfl

/-- The names of kinds are written in lower case. -/
theorem lower_name (kind : IdentityKind) :
    kind.name.toList.map Char.toLower = kind.name.toList := by
  cases kind with
  | user => rfl
  | group => rfl
  | world => rfl
  | anonymous => rfl

theorem isLower_of_mem_name (kind : IdentityKind) :
    ∀ letter ∈ kind.name.toList, letter.isLower := by
  cases kind with
  | user => exact List.all_eq_true.1 rfl
  | group => exact List.all_eq_true.1 rfl
  | world => exact List.all_eq_true.1 rfl
  | anonymous => exact List.all_eq_true.1 rfl

/-- In any case, the name of a kind contains letters only. -/
theorem notMem_of_lower {kind : IdentityKind} {text : String}
    (spelled : text.toList.map Char.toLower = kind.name.toList) {mark : Char}
    (other : mark.toLower.isLower = false) : mark ∉ text.toList := by
  intro member
  apply notMem_of_class kind.isLower_of_mem_name other
  rw [← spelled]
  exact List.mem_map_of_mem member

end IdentityKind

/-! ## Rights -/

namespace Rights

/-- A right is among those that a letter stands for. -/
def StandsFor (letter : Char) (right : Fin 16) : Prop :=
  ∃ rights, ofLetter? letter = some rights ∧ right ∈ rights.held

/-- The rights after one more letter. -/
def readLetter (text : String) (rights : Rights) (letter : Char) : Except AclError Rights :=
  match ofLetter? letter with
  | some right => .ok (rights.union right)
  | none => .error (.unknownRight letter text)

/-- Reading a letter adds the rights that it stands for. -/
theorem readLetter_eq_ok_iff {text : String} {before after : Rights} {letter : Char} :
    readLetter text before letter = .ok after ↔
      ∃ right, ofLetter? letter = some right ∧ before.union right = after := by
  unfold readLetter
  cases ofLetter? letter with
  | none => exact ⟨nofun, nofun⟩
  | some right =>
      simp only [Except.ok.injEq, Option.some.injEq, exists_eq_left']

/-- A letter stands for the rights that it is read as. -/
theorem standsFor_iff {letter : Char} {rights : Rights} (given : ofLetter? letter = some rights)
    {right : Fin 16} : StandsFor letter right ↔ right ∈ rights.held := by
  unfold StandsFor
  simp only [given, Option.some.injEq, exists_eq_left']

/-- Letters add what they stand for to the rights before them. -/
theorem foldlM_readLetter {text : String} {letters : List Char} {before after : Rights} :
    letters.foldlM (readLetter text) before = .ok after ↔
      (∀ letter ∈ letters, (ofLetter? letter).isSome) ∧
      ∀ right, right ∈ after.held ↔
        right ∈ before.held ∨ ∃ letter ∈ letters, StandsFor letter right := by
  induction letters generalizing before with
  | nil =>
      simp only [List.not_mem_nil, false_and, exists_false, or_false]
      constructor
      · intro read
        cases read
        exact ⟨nofun, fun right => Iff.rfl⟩
      · intro ⟨_, same⟩
        exact congrArg Except.ok (held_inj.1 (Finset.ext same)).symm
  | cons letter later ih =>
      simp only [List.foldlM_cons, bind_eq_ok_iff, List.forall_mem_cons,
        List.exists_mem_cons_iff]
      constructor
      · intro ⟨middle, first, rest⟩
        obtain ⟨own, given, sum⟩ := readLetter_eq_ok_iff.1 first
        obtain ⟨each, held⟩ := ih.1 rest
        refine ⟨⟨Option.isSome_of_eq_some given, each⟩, fun right => ?_⟩
        rw [held, ← sum, held_union, Finset.mem_union, standsFor_iff given, or_assoc]
      · intro ⟨⟨first, each⟩, held⟩
        obtain ⟨own, given⟩ := Option.isSome_iff_exists.1 first
        refine ⟨before.union own, readLetter_eq_ok_iff.2 ⟨own, given, rfl⟩, ih.2 ⟨each, ?_⟩⟩
        intro right
        rw [held, held_union, Finset.mem_union, standsFor_iff given, or_assoc]

/-- A text gives the rights that its letters stand for together. -/
theorem ofText_eq_ok_iff {text : String} {rights : Rights} :
    ofText text = .ok rights ↔
      (∀ letter ∈ text.toList, (ofLetter? letter).isSome) ∧
      ∀ right, right ∈ rights.held ↔ ∃ letter ∈ text.toList, StandsFor letter right := by
  have read : text.toList.foldlM (readLetter text) empty = .ok rights ↔ _ := foldlM_readLetter
  simp only [held_empty, Finset.notMem_empty, false_or] at read
  exact read

/-- Letters that are read stand for rights. -/
theorem notMem_of_ofText {text : String} {rights : Rights} (read : ofText text = .ok rights)
    {mark : Char} (unknown : ofLetter? mark = none) : mark ∉ text.toList := by
  intro member
  have known := (ofText_eq_ok_iff.1 read).1 mark member
  rw [unknown] at known
  cases known

/-- No right is added by the letter for none. -/
theorem not_standsFor_none (right : Fin 16) : ¬ StandsFor 'n' right := by
  have given : ofLetter? 'n' = some empty := rfl
  rw [standsFor_iff given, held_empty]
  exact Finset.notMem_empty right

/-- Two texts of the same letters give the same rights, wherever the letter for none stands. -/
theorem ofText_of_same_letters {text other : String} {rights : Rights}
    (same : ∀ letter ≠ 'n', letter ∈ other.toList ↔ letter ∈ text.toList)
    (read : ofText text = .ok rights) : ofText other = .ok rights := by
  obtain ⟨each, held⟩ := ofText_eq_ok_iff.1 read
  have given : ∀ {text other : String} {right : Fin 16},
      (∀ letter ≠ 'n', letter ∈ text.toList → letter ∈ other.toList) →
      (∃ letter ∈ text.toList, StandsFor letter right) →
        ∃ letter ∈ other.toList, StandsFor letter right := by
    intro text other right more ⟨letter, member, stands⟩
    have own : letter ≠ 'n' := fun none => not_standsFor_none right (none ▸ stands)
    exact ⟨letter, more letter own member, stands⟩
  apply ofText_eq_ok_iff.2
  constructor
  · intro letter member
    by_cases none : letter = 'n'
    · rw [none]
      rfl
    · exact each letter ((same letter none).1 member)
  · intro right
    rw [held]
    exact ⟨given fun letter own => (same letter own).2, given fun letter own => (same letter own).1⟩

/-- Every letter of the table is read as its right. -/
theorem ofLetter?_of_mem_letters :
    ∀ entry ∈ letters, ofLetter? entry.1 = some entry.2 := by
  decide

/-- A letter stands for named rights only. -/
theorem contains_of_ofLetter? {letter : Char} {rights : Rights}
    (given : ofLetter? letter = some rights) : all.contains rights := by
  have named : ∀ entry ∈ letters, all.contains entry.2 := by decide
  unfold ofLetter? at given
  split at given
  · cases given
    decide
  · split at given
    · cases given
      decide
    · obtain ⟨entry, found, rfl⟩ := Option.map_eq_some_iff.1 given
      exact named entry (List.mem_of_find?_eq_some found)

/-- Rights that are read are named. -/
theorem contains_of_ofText {text : String} {rights : Rights} (read : ofText text = .ok rights) :
    all.contains rights := by
  rw [contains_iff]
  intro right member
  obtain ⟨letter, -, own, given, held⟩ := ((ofText_eq_ok_iff.1 read).2 right).1 member
  exact (contains_iff all own).1 (contains_of_ofLetter? given) held

/-- The letter for all rights gives all of them, whatever stands beside it. -/
theorem eq_all_of_mem {text : String} {rights : Rights} (read : ofText text = .ok rights)
    (every : 'a' ∈ text.toList) : rights = all := by
  apply held_inj.1
  apply Finset.Subset.antisymm
  · exact (contains_iff all rights).1 (contains_of_ofText read)
  · intro right member
    exact ((ofText_eq_ok_iff.1 read).2 right).2 ⟨'a', every, all, rfl, member⟩

/-- Every named right has a letter of its own. -/
theorem exists_letter : ∀ right ∈ all.held, ∃ entry ∈ letters, entry.2.held = {right} := by
  decide

/-- Named rights are read as they are written. -/
theorem ofText_text {rights : Rights} (named : all.contains rights) :
    ofText rights.text = .ok rights := by
  unfold text
  split
  · rename_i every
    rw [every]
    rfl
  · split
    · rename_i none
      rw [isEmpty_iff, ← held_empty, held_inj] at none
      rw [none]
      rfl
    · rw [ofText_eq_ok_iff, String.toList_ofList]
      constructor
      · intro letter member
        obtain ⟨entry, written, rfl⟩ := List.mem_map.1 member
        rw [ofLetter?_of_mem_letters entry (List.mem_filter.1 written).1]
        rfl
      · intro right
        constructor
        · intro member
          obtain ⟨entry, letter, own⟩ :=
            exists_letter right ((contains_iff all rights).1 named member)
          have contained : rights.contains entry.2 := by
            rw [contains_iff, own, Finset.singleton_subset_iff]
            exact member
          refine ⟨entry.1, List.mem_map_of_mem (List.mem_filter.2 ⟨letter, contained⟩), ?_⟩
          rw [standsFor_iff (ofLetter?_of_mem_letters entry letter), own, Finset.mem_singleton]
        · intro ⟨letter, member, stands⟩
          obtain ⟨entry, written, rfl⟩ := List.mem_map.1 member
          obtain ⟨known, contained⟩ := List.mem_filter.1 written
          rw [standsFor_iff (ofLetter?_of_mem_letters entry known)] at stands
          exact (contains_iff rights entry.2).1 contained stands

/-- Rights are written with letters only, named or not. -/
theorem isLower_of_mem_text {rights : Rights} : ∀ letter ∈ rights.text.toList, letter.isLower := by
  have names : ∀ entry ∈ letters, entry.1.isLower := by decide
  unfold text
  split
  · exact List.all_eq_true.1 rfl
  · split
    · exact List.all_eq_true.1 rfl
    · intro letter member
      rw [String.toList_ofList] at member
      obtain ⟨entry, written, rfl⟩ := List.mem_map.1 member
      exact names entry (List.mem_filter.1 written).1

end Rights

/-! ## Entries -/

namespace Acl

/-- What stands before the bracket, of whatever pieces. -/
def body (kind name rights : List Char) : List Char :=
  kind ++ ':' :: (name ++ ':' :: rights)

/-- The text of an entry before its scope is three fields between colons. -/
theorem toList_body (kind name rights : String) :
    (kind ++ ":" ++ name ++ ":" ++ rights).toList =
      body kind.toList name.toList rights.toList := by
  unfold body
  simp only [String.toList_append, List.append_assoc]
  rfl

/-- The scope is written in brackets behind the rest. -/
theorem toList_bracketed (front : String) (scope : Scope) :
    (front ++ "[" ++ scope.name ++ "]").toList =
      front.toList ++ '[' :: (scope.name.toList ++ [']']) := by
  simp only [String.toList_append, List.append_assoc]
  rfl

/-- The text of an entry is its three fields and its scope. -/
theorem toList_text (acl : Acl) :
    acl.text.toList = body acl.kind.name.toList acl.name.toList acl.rights.text.toList ++
      '[' :: (acl.scope.name.toList ++ [']']) := by
  unfold text
  rw [toList_bracketed, toList_body]

section Body

variable {kind name rights : List Char}

/-- The pieces of a body contain no bracket if none of them does. -/
theorem bracket_notMem_body (first : '[' ∉ kind) (second : '[' ∉ name) (third : '[' ∉ rights) :
    '[' ∉ body kind name rights := by
  unfold body
  simp only [List.mem_append, List.mem_cons, first, second, third, Char.reduceEq, or_self,
    not_false_eq_true]

/-- The three fields are found again if none of them holds a colon. -/
theorem fields_body (first : ':' ∉ kind) (second : ':' ∉ name) (third : ':' ∉ rights) :
    fields ':' (body kind name rights) = [kind, name, rights] := by
  unfold body
  rw [fields_append first, fields_append second, fields_of_notMem third]

/-- A colon in the name makes a field too many. -/
theorem length_fields_body (kind rights : List Char) (colon : ':' ∈ name) :
    4 ≤ (fields ':' (body kind name rights)).length := by
  have some := List.count_pos_iff.2 colon
  unfold body
  rw [length_fields, List.count_append, List.count_cons_self, List.count_append,
    List.count_cons_self]
  omega

end Body

/-- Without a bracket the scope is access. -/
theorem readScope?_of_notMem {cs : List Char} (absent : '[' ∉ cs) :
    readScope? cs = some (cs, .access) := by
  unfold readScope?
  rw [cut?_of_notMem absent]

/-- A scope is read from its name between brackets. -/
theorem readScope?_append {cs : List Char} (absent : '[' ∉ cs) (scope : Scope) :
    readScope? (cs ++ '[' :: (scope.name.toList ++ [']'])) = some (cs, scope) := by
  unfold readScope?
  rw [cut?_append absent]
  cases scope with
  | access => rfl
  | default => rfl

/-- A colon behind the first bracket is no part of a scope. -/
theorem readScope?_of_colon {before after : List Char} (absent : '[' ∉ before)
    (colon : ':' ∈ after) : readScope? (before ++ '[' :: after) = none := by
  have other : ∀ scope : List Char, ':' ∉ scope → after ≠ scope := fun scope free same =>
    free (same ▸ colon)
  unfold readScope?
  rw [cut?_append absent]
  dsimp only
  rw [if_neg (other _ (by decide)), if_neg (other _ (by decide))]

/-- An entry is read from its kind in any case, its name and the letters of its rights. -/
theorem ofText_of_body {input : String} {kind : IdentityKind} {kindText name letters : String}
    {rights : Rights} {scope : Scope}
    (spelled : kindText.toList.map Char.toLower = kind.name.toList) (colon : ':' ∉ name.toList)
    (read : Rights.ofText letters = .ok rights)
    (parted : readScope? input.toList =
      some (body kindText.toList name.toList letters.toList, scope)) :
    ofText input = .ok ⟨kind, name, rights, scope⟩ := by
  have fields := fields_body (IdentityKind.notMem_of_lower spelled rfl) colon
    (Rights.notMem_of_ofText read rfl)
  unfold ofText
  rw [parted]
  dsimp only
  rw [fields]
  dsimp only
  rw [String.ofList_toList, String.ofList_toList, String.ofList_toList,
    IdentityKind.ofText_of_lower spelled, read]
  rfl

/-- An entry is read as it is written, if its rights are named and its name contains neither a colon
nor a bracket. -/
theorem ofText_text {acl : Acl} (named : Rights.all.contains acl.rights)
    (colon : ':' ∉ acl.name.toList) (bracket : '[' ∉ acl.name.toList) :
    ofText acl.text = .ok acl := by
  have kind := acl.kind.lower_name
  have rights := Rights.ofText_text named
  have pieces := bracket_notMem_body (IdentityKind.notMem_of_lower kind rfl) bracket
    (Rights.notMem_of_ofText rights rfl)
  apply ofText_of_body kind colon rights
  rw [toList_text, readScope?_append pieces]

/-- An entry whose name contains a colon or a bracket is written, but what is written is refused. -/
theorem ofText_text_of_mem {acl : Acl}
    (separated : ':' ∈ acl.name.toList ∨ '[' ∈ acl.name.toList) :
    ofText acl.text = .error (.malformed acl.text) := by
  have kind : '[' ∉ acl.kind.name.toList := notMem_of_class acl.kind.isLower_of_mem_name rfl
  have rights : '[' ∉ acl.rights.text.toList := notMem_of_class Rights.isLower_of_mem_text rfl
  by_cases bracket : '[' ∈ acl.name.toList
  · obtain ⟨before, after, name, first⟩ := List.eq_append_cons_of_mem bracket
    have early : acl.text.toList = (acl.kind.name.toList ++ ':' :: before) ++
        '[' :: (after ++ ':' :: (acl.rights.text.toList ++
          '[' :: (acl.scope.name.toList ++ [']']))) := by
      rw [toList_text, name]
      unfold body
      simp only [List.append_assoc, List.cons_append]
    have front : '[' ∉ acl.kind.name.toList ++ ':' :: before := by
      simp only [List.mem_append, List.mem_cons, kind, first, Char.reduceEq, or_self,
        not_false_eq_true]
    have colon : ∀ rest, ':' ∈ after ++ ':' :: rest := fun rest =>
      List.mem_append_right _ List.mem_cons_self
    unfold ofText
    rw [early, readScope?_of_colon front (colon _)]
  · have colon := separated.resolve_right bracket
    have many := length_fields_body acl.kind.name.toList acl.rights.text.toList colon
    unfold ofText
    rw [toList_text, readScope?_append (bracket_notMem_body kind bracket rights)]
    dsimp only
    split
    · rename_i three
      rw [three] at many
      exact (Nat.not_succ_le_self 3 many).elim
    · rfl

/-- What is read as the body of an entry contains no bracket. -/
theorem bracket_notMem_of_readScope? {cs body : List Char} {scope : Scope}
    (parted : readScope? cs = some (body, scope)) : '[' ∉ body := by
  unfold readScope? at parted
  split at parted
  · rename_i whole
    cases parted
    exact notMem_of_cut? whole
  · rename_i front back cut
    have absent := (cut?_eq_some cut).2
    split at parted
    · cases parted
      exact absent
    · split at parted
      · cases parted
        exact absent
      · cases parted

/-- An entry that is read has named rights, and a name without colons and brackets. -/
theorem written_of_ofText {input : String} {acl : Acl} (read : ofText input = .ok acl) :
    Rights.all.contains acl.rights ∧ ':' ∉ acl.name.toList ∧ '[' ∉ acl.name.toList := by
  unfold ofText at read
  split at read
  · cases read
  · rename_i front scope parted
    split at read
    · rename_i kind name letters pieces
      obtain ⟨_, -, read⟩ := bind_eq_ok_iff.1 read
      obtain ⟨rights, given, read⟩ := bind_eq_ok_iff.1 read
      cases read
      have field : name ∈ fields ':' front := by
        rw [pieces]
        exact List.mem_cons_of_mem _ List.mem_cons_self
      have bracket : '[' ∉ name := by
        intro member
        have whole : body kind name letters = front := by
          rw [← joinFields_fields ':' front, pieces]
          rfl
        apply bracket_notMem_of_readScope? parted
        rw [← whole]
        exact List.mem_append_right _ (List.mem_cons_of_mem _ (List.mem_append_left _ member))
      rw [String.toList_ofList]
      exact ⟨Rights.contains_of_ofText given, separator_notMem_of_mem_fields field, bracket⟩
    · cases read

/-- An entry with named rights is read as it is written if its name contains neither a colon nor a
bracket, and refused if it contains one, so it is never read as another entry. Whatever is read is
read again from its own text. Kinds are read in any case, rights from their letters in any order and
number, and where no scope is given it is access. -/
theorem text_unambiguous :
    (∀ acl : Acl, Rights.all.contains acl.rights →
      (':' ∉ acl.name.toList ∧ '[' ∉ acl.name.toList → ofText acl.text = .ok acl) ∧
      (':' ∈ acl.name.toList ∨ '[' ∈ acl.name.toList →
        ∃ cause, ofText acl.text = .error cause) ∧
      ∀ read, ofText acl.text = .ok read → read = acl) ∧
    (∀ (input : String) (acl : Acl), ofText input = .ok acl → ofText acl.text = .ok acl) ∧
    ∀ (kind : IdentityKind) (kindText name letters other : String) (rights : Rights),
      kindText.toList.map Char.toLower = kind.name.toList →
      ':' ∉ name.toList → '[' ∉ name.toList → Rights.ofText letters = .ok rights →
      (∀ letter ≠ 'n', letter ∈ other.toList ↔ letter ∈ letters.toList) →
        ('a' ∈ letters.toList → rights = .all) ∧
        ofText (kindText ++ ":" ++ name ++ ":" ++ other) = .ok ⟨kind, name, rights, .access⟩ ∧
        ∀ scope : Scope,
          ofText (kindText ++ ":" ++ name ++ ":" ++ other ++ "[" ++ scope.name ++ "]") =
            .ok ⟨kind, name, rights, scope⟩ := by
  refine ⟨?_, ?_, ?_⟩
  · intro acl named
    refine ⟨fun free => ofText_text named free.1 free.2,
      fun separated => ⟨_, ofText_text_of_mem separated⟩, ?_⟩
    intro read found
    by_cases separated : ':' ∈ acl.name.toList ∨ '[' ∈ acl.name.toList
    · rw [ofText_text_of_mem separated] at found
      cases found
    · rw [not_or] at separated
      rw [ofText_text named separated.1 separated.2] at found
      exact (Except.ok.inj found).symm
  · intro input acl read
    obtain ⟨named, colon, bracket⟩ := written_of_ofText read
    exact ofText_text named colon bracket
  · intro kind kindText name letters other rights spelled colon bracket read same
    have given := Rights.ofText_of_same_letters same read
    have pieces := bracket_notMem_body (IdentityKind.notMem_of_lower spelled rfl) bracket
      (Rights.notMem_of_ofText given rfl)
    refine ⟨Rights.eq_all_of_mem read, ?_, ?_⟩
    · apply ofText_of_body spelled colon given
      rw [toList_body, readScope?_of_notMem pieces]
    · intro scope
      apply ofText_of_body spelled colon given
      rw [toList_bracketed, toList_body, readScope?_append pieces]

/-- An entry for a user is read as it is written and as no other. In another spelling and without a
scope it is the same entry, and a name that imitates the end of an entry is refused. -/
theorem text_unambiguous_alice :
    ofText (user "alice" (.union .read .write)).text = .ok (user "alice" (.union .read .write)) ∧
      (∀ read, ofText (user "alice" (.union .read .write)).text = .ok read →
        read = user "alice" (.union .read .write)) ∧
      (∃ cause, ofText (user "alice:a[ACCESS]" .read).text = .error cause) ∧
      ofText "USER:alice:wrrn" = .ok (user "alice" (.union .read .write)) ∧
      ofText "USER:alice:wrrn[DEFAULT]" = .ok ⟨.user, "alice", .union .read .write, .default⟩ ∧
      ofText (user "alice" .all).text = .ok (user "alice" .all) := by
  obtain ⟨written, read, spelled⟩ := text_unambiguous
  obtain ⟨own, -, only⟩ := written (user "alice" (.union .read .write)) (by decide)
  obtain ⟨-, refused, -⟩ := written (user "alice:a[ACCESS]" .read) (by decide)
  have same : ∀ letter ≠ 'n', letter ∈ "wrrn".toList ↔ letter ∈ "rw".toList := by
    intro letter other
    simp only [String.reduceToList, List.mem_cons, List.not_mem_nil, other, or_false, or_self]
    exact or_comm
  obtain ⟨-, access, scopes⟩ := spelled .user "USER" "alice" "rw" "wrrn" _ rfl (by decide)
    (by decide) rfl same
  exact ⟨own ⟨by decide, by decide⟩, only, refused (.inl (by decide)), access, scopes .default,
    read "user:alice:a" _ rfl⟩

end Acl

end ObjectLedger
