/-! # The CRC-32 check value

The check value of the IEEE polynomial in reflected form. The register starts with
all bits set, absorbs one byte after the other, and is inverted at the end.
-/

namespace ObjectLedger.Crc32

/-- The reflected polynomial. -/
def polynomial : UInt32 := 0xedb88320

/-- The register after one bit. -/
@[inline] def shift (register : UInt32) : UInt32 :=
  if register &&& 1 = 1 then (register >>> 1) ^^^ polynomial else register >>> 1

/-- The register after one byte. -/
def absorb (register : UInt32) (byte : UInt8) : UInt32 :=
  shift (shift (shift (shift (shift (shift (shift (shift (register ^^^ byte.toUInt32))))))))

/-- The check value of a list of bytes. -/
def ofBytes (bytes : List UInt8) : UInt32 :=
  ~~~ bytes.foldl absorb 0xffffffff

end ObjectLedger.Crc32
