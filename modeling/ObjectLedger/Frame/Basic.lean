import ObjectLedger.CodecError
import ObjectLedger.Frame.Crc32

/-! # Frames

A frame is a payload behind a header: the number of bytes after the length field,
the byte of the form, and the check value of the payload. Numbers in the header have
their most significant byte first.
-/

namespace ObjectLedger.Frame

/-- The four bytes of a half word, most significant first. -/
def bigEndian (n : UInt32) : List UInt8 :=
  [(n >>> 24).toUInt8, (n >>> 16).toUInt8, (n >>> 8).toUInt8, n.toUInt8]

/-- The half word of four bytes, most significant first. -/
def ofBigEndian (a b c d : UInt8) : UInt32 :=
  (a.toUInt32 <<< 24) ||| (b.toUInt32 <<< 16) ||| (c.toUInt32 <<< 8) ||| d.toUInt32

/-- The frame of a payload, if the payload is not too large. -/
def wrap (form : Form) (payload : List UInt8) : Except CodecError (List UInt8) :=
  if payloadLimit < payload.length then .error (.tooLarge payload.length)
  else
    .ok (bigEndian (UInt32.ofNat (5 + payload.length)) ++ form.tag ::
      bigEndian (Crc32.ofBytes payload) ++ payload)

/-- The payload of the frame at the start of some bytes, and the size of the frame. The
length is checked before the form, and the form before the check value. -/
def unwrap (form : Form) : List UInt8 → Except CodecError (List UInt8 × Nat)
  | l₀ :: l₁ :: l₂ :: l₃ :: tag :: c₀ :: c₁ :: c₂ :: c₃ :: rest =>
    let announced := (ofBigEndian l₀ l₁ l₂ l₃).toNat
    let size := announced - 5
    let expected := ofBigEndian c₀ c₁ c₂ c₃
    let payload := rest.take size
    let actual := Crc32.ofBytes payload
    if announced < 5 then .error (.framing (.length announced))
    else if payloadLimit < size then .error (.tooLarge size)
    else if rest.length < size then
      .error (.framing (.incomplete (headerSize + rest.length) (4 + announced)))
    else if tag ≠ form.tag then .error (.otherForm form tag)
    else if actual ≠ expected then .error (.damaged expected actual)
    else .ok (payload, 4 + announced)
  | bytes => .error (.framing (.short bytes.length))

end ObjectLedger.Frame
