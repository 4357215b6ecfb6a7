import ObjectLedger.Replication.Text

/-! # Errors of records

Why a record is refused when it is put together, and why an operation on a record
fails. The reports are fixed by `Malformation.message` and `RecordError.message`.
-/

namespace ObjectLedger

/-- What is wrong with the fields of a record. -/
inductive Malformation where
  | missing (field : String)
  | empty (field : String)
  | missingOrEmpty (field : String)
  | replication (cause : ReplicationError)
  /-- A version is not above the one before it. -/
  | versionOrder (earlier later : UInt64)
  /-- The announced latest version is not the last one of the history. -/
  | historyTail (announced tail : Int64)
deriving DecidableEq, Repr

def Malformation.message : Malformation → String
  | .missing field => "missing " ++ field
  | .empty field => "empty " ++ field
  | .missingOrEmpty field => "missing or empty " ++ field
  | .replication cause => cause.message
  | .versionOrder earlier later =>
    s!"version history not strictly increasing: {earlier} then {later}"
  | .historyTail announced tail =>
    s!"latest version {announced} does not match history tail {tail}"

/-- A field that has to be there and not empty. -/
def Malformation.required (field : String) : Option String → Except Malformation String
  | none => .error (.missing field)
  | some value => if value.isEmpty then .error (.empty field) else .ok value

/-- A replication has to be usable. -/
def Malformation.checkReplication (replication : Replication) : Except Malformation Unit :=
  match replication.validate with
  | .ok () => .ok ()
  | .error cause => .error (.replication cause)

/-- A name that has to be there and not empty. -/
def Malformation.named (field : String) : Option String → Except Malformation String
  | none => .error (.missingOrEmpty field)
  | some value => if value.isEmpty then .error (.missingOrEmpty field) else .ok value

/-- What a quota limits. -/
inductive QuotaKind where
  /-- The replicated bytes of a bucket. -/
  | bytes
  /-- The number of keys of a bucket. -/
  | keys
deriving DecidableEq, Repr

def QuotaKind.name : QuotaKind → String
  | .bytes => "bytes"
  | .keys => "namespace"

/-- Why an operation on a record fails. -/
inductive RecordError where
  /-- Blocks were appended to a key without versions. -/
  | noVersion (key : String)
  /-- An edit named another version than the group's own. -/
  | versionMismatch (group requested : UInt64)
  | malformed (cause : Malformation)
  /-- The requested growth leaves the quota. -/
  | quotaExceeded (bucket : String) (kind : QuotaKind) (used requested quota : Int64)
  /-- The requested generation lies before the current one. -/
  | generationRegression (current requested : UInt64)
deriving DecidableEq, Repr

def RecordError.message : RecordError → String
  | .noVersion key => "appending new blocks to " ++ key ++ ", but no version exists"
  | .versionMismatch group requested =>
    s!"version {requested} does not match location group version {group}"
  | .malformed cause => "malformed record: " ++ cause.message
  | .quotaExceeded bucket kind used requested quota =>
    "quota exceeded on " ++ bucket ++ ": " ++ kind.name ++
      s!" used {used} + {requested} > quota {quota}"
  | .generationRegression current requested =>
    s!"generation regression: current {current}, requested {requested}"

end ObjectLedger
