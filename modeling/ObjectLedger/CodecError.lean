import ObjectLedger.RecordError

/-! # Errors of encoding and decoding

A frame names the form of the record that it carries. Decoding a frame fails if the
frame is cut, names another form, is damaged, or carries no well-formed record.
-/

namespace ObjectLedger

/-- The kind of record in a frame, and whether it is stored or sent. -/
inductive Form where
  | persistedKey
  | networkKey
  | persistedBucket
  | networkBucket
deriving DecidableEq, Repr

namespace Form

/-- The byte that stands for a form. -/
def tag : Form → UInt8
  | .persistedKey => 0x01
  | .networkKey => 0x02
  | .persistedBucket => 0x11
  | .networkBucket => 0x12

/-- The form that a byte stands for. -/
def ofTag? (byte : UInt8) : Option Form :=
  [persistedKey, networkKey, persistedBucket, networkBucket].find? (·.tag = byte)

def name : Form → String
  | .persistedKey => "PersistedKey"
  | .networkKey => "NetworkKey"
  | .persistedBucket => "PersistedBucket"
  | .networkBucket => "NetworkBucket"

/-- A form is found again by its tag. -/
theorem ofTag?_tag (form : Form) : ofTag? form.tag = some form := by
  cases form <;> rfl

end Form

/-- Why bytes do not begin with one whole frame. -/
inductive FramingError where
  /-- There are fewer bytes than a header has. -/
  | short (size : Nat)
  /-- The announced length does not cover the header. -/
  | length (announced : Nat)
  /-- There are fewer bytes than announced. -/
  | incomplete (size announced : Nat)
  /-- There are bytes after the frame. -/
  | trailing (size : Nat)
deriving DecidableEq, Repr

/-- Why a record cannot be encoded or decoded. -/
inductive CodecError where
  | framing (cause : FramingError)
  | tooLarge (size : Nat)
  | damaged (expected actual : UInt32)
  | otherForm (expected : Form) (actual : UInt8)
  /-- The payload is not the written form of any fields. -/
  | unreadable
  | malformed (cause : Malformation)
deriving DecidableEq, Repr

/-- The number of bytes before the payload: length, form and check value. -/
def Frame.headerSize : Nat := 9

/-- The largest payload: sixteen mebibytes. -/
def Frame.payloadLimit : Nat := 16777216

def FramingError.message : FramingError → String
  | .short size => s!"too short: {size} bytes, header needs {Frame.headerSize}"
  | .length announced => s!"frame length {announced} below header"
  | .incomplete size announced => s!"incomplete: have {size}, need {announced}"
  | .trailing size => s!"{size} trailing bytes after record"

/-- A number in hexadecimal after its mark. -/
def CodecError.hex (width n : Nat) : String := "0x" ++ String.ofList (Text.hexadecimal width n)

def CodecError.message : CodecError → String
  | .framing cause => "framing error: " ++ cause.message
  | .tooLarge size => s!"payload too large: {size} bytes (max {Frame.payloadLimit})"
  | .damaged expected actual =>
    "checksum mismatch: expected " ++ hex 8 expected.toNat ++ ", got " ++ hex 8 actual.toNat
  | .otherForm expected actual =>
    "wrong record form: expected " ++ expected.name ++ ", got tag " ++ hex 2 actual.toNat
  | .unreadable => "deserialization error"
  | .malformed cause => "malformed record: " ++ cause.message

end ObjectLedger
