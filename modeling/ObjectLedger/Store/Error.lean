import ObjectLedger.CodecError
import ObjectLedger.Settings.Text
import ObjectLedger.Word

/-! # Errors of the service

Why the store, the allocator or an operation of the service fails. Only a concurrent
modification is worth trying again. An operation can also end in an overflow, which is no
error that a caller may handle (`Fault`).
-/

namespace ObjectLedger

/-- Why an operation of the service fails. -/
inductive StoreError where
  /-- The stored record is not the one that the writer started from. -/
  | concurrent (name : String) (expected actual : Option UInt64)
  | keyNotFound (volume bucket key : String)
  | bucketNotFound (volume bucket : String)
  | bucketExists (volume bucket : String)
  /-- A link leads to another link. -/
  | unresolvedLink (volume bucket : String)
  | codec (cause : CodecError)
  | record (cause : RecordError)
  | settings (cause : SettingsError)
  /-- A file cannot be read as text. -/
  | file
deriving DecidableEq, Repr

/-- Whether trying the whole operation again may succeed. -/
def StoreError.isRetryable : StoreError → Bool
  | .concurrent .. => true
  | _ => false

/-- The written form of a generation that may be absent. -/
def StoreError.generationText : Option UInt64 → String
  | some generation => "Some(" ++ toString generation ++ ")"
  | none => "None"

def StoreError.message : StoreError → String
  | .concurrent name expected actual =>
    "concurrent modification of " ++ name ++ ": expected generation " ++
      generationText expected ++ ", found " ++ generationText actual
  | .keyNotFound volume bucket key =>
    "key not found: /" ++ volume ++ "/" ++ bucket ++ "/" ++ key
  | .bucketNotFound volume bucket => "bucket not found: /" ++ volume ++ "/" ++ bucket
  | .bucketExists volume bucket => "bucket already exists: /" ++ volume ++ "/" ++ bucket
  | .unresolvedLink volume bucket =>
    "bucket link /" ++ volume ++ "/" ++ bucket ++ " does not resolve to a bucket"
  | .codec cause => cause.message
  | .record cause => cause.message
  | .settings cause => "configuration error: " ++ cause.message
  | .file => "I/O error"

/-- How an operation ends without a result. -/
inductive Fault where
  | error (cause : StoreError)
  | overflow (cause : Overflow)
deriving DecidableEq, Repr

end ObjectLedger
