import ObjectLedger.Proofs.Checked
import ObjectLedger.Proofs.Replication.Text
import ObjectLedger.Proofs.Toml.Lines
import ObjectLedger.Settings.Text

/-! # Settings round trip

The text of settings is a document of plain lines, one for each setting (`Settings.toList_text`), so
every setting is found under its name again (`Settings.read?_text`). Only the replication is a text
inside the text: it is read by `Replication.ofText`, and settings with an unusable replication are
written but not read back (`Settings.ofDocument_ofEntries`). So the form in which settings are kept
is the text form of replications, whatever reads the document around it.
-/

namespace ObjectLedger

open Text Toml

namespace Settings

variable {settings : Settings} {saved : String}

/-! ## The lines of a text -/

/-- What settings are written as, line by line. -/
def entries (settings : Settings) : List (String × Value) :=
  [("block_size", .integer settings.blockSize.toNat),
    ("preallocate_blocks", .integer settings.preallocated.toNat),
    ("max_preallocate_blocks", .integer settings.maxPreallocated.toNat),
    ("default_replication", .text settings.defaultReplication.text),
    ("enforce_quota", .truth settings.enforceQuota),
    ("allow_skip_block_id_check", .truth settings.allowUnchecked),
    ("allocator_containers", .integer settings.containers.toNat),
    ("bucket_update_retries", .integer settings.usageAttempts.toNat)]

/-- Every setting has a line of its own. -/
theorem nodup_names (settings : Settings) : (settings.entries.map (·.1)).Nodup := by
  unfold entries
  simp only [List.map_cons, List.map_nil]
  decide

/-- Numbers are shown in decimal. -/
theorem toList_toString (n : Nat) : (toString n).toList = decimal n := by
  rw [Nat.toString_eq_ofList_toDigits, String.toList_ofList]
  rfl

set_option maxRecDepth 1024 in
/-- The saved text is that of the entries. -/
theorem toList_text (written : settings.text = .ok saved) :
    saved.toList = Toml.written settings.entries := by
  have word : ∀ word : UInt64, (toString word).toList = decimal word.toNat := fun word =>
    toList_toString word.toNat
  have count : ∀ count : UInt32, (toString count).toList = decimal count.toNat := fun count =>
    toList_toString count.toNat
  unfold text at written
  dsimp only at written
  split at written
  · cases written
  · rw [← Except.ok.inj written]
    simp only [String.toList_append, word, count, List.append_assoc, Toml.written, entries,
      List.flatMap_cons, List.flatMap_nil, Value.written, Int.toNat_natCast, List.cons_append,
      List.nil_append, List.append_nil, String.reduceToList]

/-- Settings are written if their words are signed words. -/
theorem le_maxValue_of_text (written : settings.text = .ok saved) :
    ∀ word ∈ [settings.blockSize, settings.preallocated, settings.maxPreallocated,
      settings.containers], (word.toNat : Int) ≤ Int64.maxValue.toInt := by
  intro word member
  unfold text at written
  dsimp only at written
  split at written
  · cases written
  · rename_i small
    apply Int.not_lt.1
    intro large
    exact small (List.any_eq_true.2 ⟨word, member, decide_eq_true large⟩)

/-- The text of a replication needs no escapes. -/
theorem plain_replication (replication : Replication) : (Value.text replication.text).Plain := by
  constructor
  · exact replication.text_ne_empty
  · intro c member
    have range := range_of_isReplicationChar (Replication.isReplicationChar_of_mem_text member)
    have away : ∀ mark : Char, (mark.toNat < 45 ∨ 57 < mark.toNat ∧ mark.toNat < 97 ∨
        122 < mark.toNat) → c ≠ mark := by
      intro mark outside same
      rw [same] at range
      omega
    have printable : ' ' ≤ c := by
      change 32 ≤ c.toNat
      omega
    refine ⟨?_, away '\x22' (by decide), away '\\' (by decide)⟩
    unfold isLineChar
    rw [decide_eq_true printable, decide_eq_true (away '\x7f' (by decide)), Bool.and_self,
      Bool.or_true]

/-- Each setting stands on its line. -/
theorem stands_of_mem_entries (written : settings.text = .ok saved) :
    ∀ entry ∈ settings.entries, Stands entry := by
  have words := le_maxValue_of_text written
  simp only [List.forall_mem_cons] at words
  obtain ⟨block, initial, most, containers, -⟩ := words
  have attempts : (settings.usageAttempts.toNat : Int) ≤ Int64.maxValue.toInt := by
    have small := settings.usageAttempts.toNat_lt
    have largest : Int64.maxValue.toInt = 2 ^ 63 - 1 := rfl
    rw [largest]
    omega
  have number : ∀ {n : Nat}, (n : Int) ≤ Int64.maxValue.toInt → (Value.integer n).Plain :=
    fun small => ⟨Int.natCast_nonneg _, small⟩
  have names : ∀ entry ∈ settings.entries, entry.1 ≠ "" ∧ entry.1.toList.all isKeyChar := by
    unfold entries
    simp only [List.forall_mem_cons]
    decide
  have values : ∀ entry ∈ settings.entries, entry.2.Plain := by
    unfold entries
    simp only [List.forall_mem_cons]
    exact ⟨number block, number initial, number most, plain_replication _, trivial, trivial,
      number containers, number attempts, nofun⟩
  exact fun entry member => ⟨(names entry member).1, (names entry member).2, values entry member⟩

/-- The text of settings holds every setting under its name. -/
theorem read?_text (written : settings.text = .ok saved) :
    Toml.read? saved = some (.ofEntries settings.entries) :=
  read?_written (stands_of_mem_entries written) (nodup_names settings)
    (toList_text written)

/-! ## Reading the lines -/

section Given

variable {name : String}

/-- An entry gives its name its value. -/
theorem given?_ofEntries {value : Value} (member : (name, value) ∈ settings.entries) :
    given? (.ofEntries settings.entries) name = some value := by
  unfold given?
  rw [Holdings.find?_ofEntries (nodup_names settings) member]

/-- A number that is small enough is read back from its entry. -/
theorem readNumber?_ofEntries {n : Nat} (member : (name, .integer n) ∈ settings.entries)
    {bound : Nat} (small : n < bound) (default : Nat) :
    readNumber? (.ofEntries settings.entries) name bound default = some n := by
  have range : 0 ≤ (n : Int) ∧ (n : Int) < bound := by omega
  unfold readNumber?
  rw [given?_ofEntries member]
  dsimp only
  rw [if_pos range, Int.toNat_natCast]

/-- A truth value is read back from its entry. -/
theorem readTruth?_ofEntries {holds : Bool} (member : (name, .truth holds) ∈ settings.entries)
    (default : Bool) : readTruth? (.ofEntries settings.entries) name default = some holds := by
  unfold readTruth?
  rw [given?_ofEntries member]

end Given

/-- The default replication is given as its text. -/
theorem given?_replication (settings : Settings) :
    given? (.ofEntries settings.entries) "default_replication" =
      some (.text settings.defaultReplication.text) := by
  apply given?_ofEntries
  simp only [entries, List.mem_cons, true_or, or_true]

/-- The lines of settings give them back, if their replication is usable. -/
theorem ofHoldings?_ofEntries (settings : Settings) :
    ofHoldings? (.ofEntries settings.entries) =
      if settings.defaultReplication.Usable then some settings else none := by
  have line : ∀ (place : Nat) {entry : String × Value}, settings.entries[place]? = some entry →
      entry ∈ settings.entries := fun place entry found => List.mem_of_getElem? found
  have word : ∀ {name : String} {word : UInt64}, (name, .integer word.toNat) ∈ settings.entries →
      ∀ default : UInt64, (readNumber? (.ofEntries settings.entries) name UInt64.size
        default.toNat).map UInt64.ofNat = some word := by
    intro name word member default
    rw [readNumber?_ofEntries member word.toNat_lt_size, Option.map_some, UInt64.ofNat_toNat]
  have attempts := settings.usageAttempts.toNat_lt_size
  unfold ofHoldings? readReplication?
  dsimp only
  rw [word (line 0 rfl), word (line 1 rfl), word (line 2 rfl), given?_replication,
    readTruth?_ofEntries (line 4 rfl), readTruth?_ofEntries (line 5 rfl), word (line 6 rfl),
    readNumber?_ofEntries (line 7 rfl) attempts]
  dsimp only
  by_cases usable : settings.defaultReplication.Usable
  · rw [Replication.ofText_of_usable usable, if_pos usable]
    simp only [Except.toOption, Option.bind_eq_bind, Option.bind_some, Option.pure_def,
      UInt32.ofNat_toNat]
  · obtain ⟨cause, -, refused⟩ := Replication.ofText_of_not_usable usable
    rw [refused, if_neg usable]
    simp only [Except.toOption, Option.bind_eq_bind, Option.bind_some, Option.bind_none]

/-- What a document holds is validated. -/
theorem ofDocument_some (holdings : Holdings) : ofDocument (some holdings) =
    (ofHoldings? holdings).elim (.error .unreadable) fun settings =>
      settings.validate.map fun _ => settings := by
  unfold ofDocument
  rw [Option.bind_some]
  cases ofHoldings? holdings with
  | none => rfl
  | some settings =>
      dsimp only [Option.elim_some]
      cases settings.validate with
      | ok passed => rfl
      | error cause => rfl

/-- Settings are read as they are written, if they pass validation. A replication that is not usable
is not even read. -/
theorem ofDocument_ofEntries (settings : Settings) :
    ofDocument (some (.ofEntries settings.entries)) =
      if settings.defaultReplication.Usable then settings.validate.map fun _ => settings
      else .error .unreadable := by
  rw [ofDocument_some, ofHoldings?_ofEntries]
  by_cases usable : settings.defaultReplication.Usable
  · rw [if_pos usable, if_pos usable, Option.elim_some]
  · rw [if_neg usable, if_neg usable, Option.elim_none]

/-- Settings that are read take their replication from its own setting. -/
theorem readReplication?_of_ofHoldings? {holdings : Holdings}
    (found : ofHoldings? holdings = some settings) :
    readReplication? holdings "default_replication" .usual = some settings.defaultReplication := by
  unfold ofHoldings? at found
  simp only [Option.bind_eq_bind, Option.bind_eq_some_iff, Option.pure_def, Option.some.injEq]
    at found
  obtain ⟨_, -, _, -, _, -, replication, read, _, -, _, -, _, -, _, -, rfl⟩ := found
  exact read

/-- A document gives a replication if the text under its name does, or if it names none and the
replication is the usual one. -/
def Gives (holdings : Holdings) (replication : Replication) : Prop :=
  match given? holdings "default_replication" with
  | none => replication = .usual
  | some (.text text) => Replication.ofText text = .ok replication
  | some _ => False

/-- A replication that is read was given as one of its texts, or is the usual one. -/
theorem gives_of_readReplication? {holdings : Holdings} {replication : Replication}
    (read : readReplication? holdings "default_replication" .usual = some replication) :
    Gives holdings replication := by
  unfold readReplication? at read
  unfold Gives
  cases given : given? holdings "default_replication" with
  | none =>
      rw [given] at read
      exact (Option.some.inj read).symm
  | some value =>
      rw [given] at read
      cases value with
      | text text => exact toOption_eq_some_iff.1 read
      | integer number => cases read
      | truth holds => cases read
      | other => cases read

/-- Settings that are read have the replication that the document gives. -/
theorem gives_of_ofDocument {document : Option Holdings}
    (read : ofDocument document = .ok settings) :
    ∃ holdings, document = some holdings ∧ Gives holdings settings.defaultReplication := by
  have found : document.bind ofHoldings? = some settings := by
    unfold ofDocument at read
    split at read
    · cases read
    · split at read
      · cases read
        assumption
      · cases read
  obtain ⟨holdings, same, found⟩ := Option.bind_eq_some_iff.1 found
  exact ⟨holdings, same, gives_of_readReplication? (readReplication?_of_ofHoldings? found)⟩

end Settings

namespace Replication

/-- A usable replication is read as it is written, and the text of any other is refused. Whatever is
read is usable and is read again from its own text. Settings keep their replication in this form:
written settings are a document that holds its text; whatever reads a document, the settings that
it holds are read back just when the replication and the rest pass validation, and settings that
are read have the replication that the text in the document gives, or the usual one where it has
none. -/
theorem text_exact :
    (∀ replication : Replication,
      (replication.Usable → ofText replication.text = .ok replication) ∧
      (¬ replication.Usable → ∃ cause, ofText replication.text = .error cause)) ∧
    (∀ (input : String) (replication : Replication), ofText input = .ok replication →
      replication.Usable ∧ ofText replication.text = .ok replication) ∧
    (∀ (settings : Settings) (saved : String), settings.text = .ok saved →
      Toml.read? saved = some (.ofEntries settings.entries) ∧
      Settings.ofText saved = Settings.ofDocument (some (.ofEntries settings.entries))) ∧
    (∀ settings : Settings,
      Settings.given? (.ofEntries settings.entries) "default_replication" =
        some (.text settings.defaultReplication.text) ∧
      Settings.ofDocument (some (.ofEntries settings.entries)) =
        if settings.defaultReplication.Usable then settings.validate.map fun _ => settings
        else .error .unreadable) ∧
    ∀ (document : Option Holdings) (settings : Settings),
      Settings.ofDocument document = .ok settings →
        ∃ holdings, document = some holdings ∧
          Settings.Gives holdings settings.defaultReplication := by
  refine ⟨?_, ?_, ?_, ?_, ?_⟩
  · intro replication
    refine ⟨ofText_of_usable, fun unusable => ?_⟩
    obtain ⟨cause, -, refused⟩ := ofText_of_not_usable unusable
    exact ⟨cause, refused⟩
  · intro input replication read
    have usable := usable_of_ofText read
    exact ⟨usable, ofText_of_usable usable⟩
  · intro settings saved written
    have document := Settings.read?_text written
    exact ⟨document, congrArg Settings.ofDocument document⟩
  · intro settings
    exact ⟨settings.given?_replication, settings.ofDocument_ofEntries⟩
  · intro document settings read
    exact Settings.gives_of_ofDocument read

/-- Half a kibibyte is written in bytes, and a code of no data chunks is refused. The usual settings
are written and read back. -/
theorem text_exact_half_kibibyte :
    ofText (erasureCoded ⟨.xor, 2, 1, 512⟩).text = .ok (erasureCoded ⟨.xor, 2, 1, 512⟩) ∧
      (∃ cause, ofText (erasureCoded ⟨.xor, 0, 1, 512⟩).text = .error cause) ∧
      ofText " RS-6-3-1024K\n" = .ok (erasureCoded ⟨.reedSolomon, 6, 3, 1048576⟩) ∧
      ofText (erasureCoded ⟨.reedSolomon, 6, 3, 1048576⟩).text =
        .ok (erasureCoded ⟨.reedSolomon, 6, 3, 1048576⟩) ∧
      ∃ saved holdings, Settings.text {} = .ok saved ∧ Settings.ofText saved = .ok {} ∧
        Toml.read? saved = some holdings ∧ Settings.Gives holdings .usual := by
  obtain ⟨written, read, saved, kept, loaded⟩ := text_exact
  have spelled : ofText " RS-6-3-1024K\n" = .ok (erasureCoded ⟨.reedSolomon, 6, 3, 1048576⟩) := rfl
  obtain ⟨document, text⟩ := saved {} _ rfl
  have back := (kept {}).2.trans (if_pos (by decide))
  obtain ⟨holdings, same, gives⟩ := loaded _ {} back
  rw [← document] at same
  rw [← text] at back
  exact ⟨(written _).1 (by decide), (written _).2 (by decide), spelled, (read _ _ spelled).2,
    _, holdings, rfl, back, same, gives⟩

end Replication

end ObjectLedger
