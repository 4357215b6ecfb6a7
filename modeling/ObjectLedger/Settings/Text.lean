import ObjectLedger.Replication.Text
import ObjectLedger.Settings.Basic
import ObjectLedger.Toml.Document

/-! # The text form of settings

Settings are a TOML document with one line for each setting. Reading takes the default of
a setting that is not given, ignores what is no setting, and validates the result.
-/

namespace ObjectLedger

def SettingsError.message : SettingsError → String
  | .notPositive field => field ++ " must be positive"
  | .replication cause => cause.message
  | .unreadable => "unreadable settings"
  | .unwritable => "unwritable settings"
  | .noContainer => "allocator needs at least one container"
  | .noBlock => "allocator returned no block"
  | .uncheckedCommit => "committing without block id check is disabled"
  | .refused reason => reason

namespace Settings

open Toml

/-- The value of a setting, if it is given. A table in place of a value is some other value. -/
def given? (holdings : Holdings) (name : String) : Option Value :=
  match holdings.find? [.name name] with
  | some (.value value) => some value
  | some _ => some .other
  | none => none

/-- A setting below a bound, or its default. -/
def readNumber? (holdings : Holdings) (name : String) (bound default : Nat) : Option Nat :=
  match given? holdings name with
  | none => some default
  | some (.integer value) => if 0 ≤ value ∧ value < bound then some value.toNat else none
  | some _ => none

/-- A truth value, or its default. -/
def readTruth? (holdings : Holdings) (name : String) (default : Bool) : Option Bool :=
  match given? holdings name with
  | none => some default
  | some (.truth value) => some value
  | some _ => none

/-- A replication, or its default. -/
def readReplication? (holdings : Holdings) (name : String) (default : Replication) :
    Option Replication :=
  match given? holdings name with
  | none => some default
  | some (.text text) => (Replication.ofText text).toOption
  | some _ => none

/-- The settings that a document gives, before they are validated. -/
def ofHoldings? (holdings : Holdings) : Option Settings := do
  let standard : Settings := {}
  let word (name : String) (default : UInt64) : Option UInt64 :=
    (readNumber? holdings name UInt64.size default.toNat).map UInt64.ofNat
  let blockSize ← word "block_size" standard.blockSize
  let preallocated ← word "preallocate_blocks" standard.preallocated
  let maxPreallocated ← word "max_preallocate_blocks" standard.maxPreallocated
  let defaultReplication ←
    readReplication? holdings "default_replication" standard.defaultReplication
  let enforceQuota ← readTruth? holdings "enforce_quota" standard.enforceQuota
  let allowUnchecked ← readTruth? holdings "allow_skip_block_id_check" standard.allowUnchecked
  let containers ← word "allocator_containers" standard.containers
  let usageAttempts ←
    readNumber? holdings "bucket_update_retries" UInt32.size standard.usageAttempts.toNat
  pure
    { blockSize, preallocated, maxPreallocated, defaultReplication, enforceQuota,
      allowUnchecked, containers, usageAttempts := UInt32.ofNat usageAttempts }

/-- The settings of a document, if it can be read. -/
def ofDocument (document : Option Holdings) : Except SettingsError Settings :=
  match document.bind ofHoldings? with
  | none => .error .unreadable
  | some settings =>
    match settings.validate with
    | .ok () => .ok settings
    | .error cause => .error cause

/-- The settings of a text. -/
def ofText (text : String) : Except SettingsError Settings := ofDocument (read? text)

/-- The text of settings. Integers are written up to the largest signed word. -/
def text (settings : Settings) : Except SettingsError String :=
  let words := [settings.blockSize, settings.preallocated, settings.maxPreallocated,
    settings.containers]
  if words.any fun word => Int64.maxValue.toInt < word.toNat then .error .unwritable
  else
    .ok <|
      "block_size = " ++ toString settings.blockSize ++
      "\npreallocate_blocks = " ++ toString settings.preallocated ++
      "\nmax_preallocate_blocks = " ++ toString settings.maxPreallocated ++
      "\ndefault_replication = \x22" ++ settings.defaultReplication.text ++
      "\x22\nenforce_quota = " ++ toString settings.enforceQuota ++
      "\nallow_skip_block_id_check = " ++ toString settings.allowUnchecked ++
      "\nallocator_containers = " ++ toString settings.containers ++
      "\nbucket_update_retries = " ++ toString settings.usageAttempts ++ "\n"

end Settings

end ObjectLedger
