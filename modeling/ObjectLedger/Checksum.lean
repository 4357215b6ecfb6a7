import ObjectLedger.Text.Numeral

/-! # Checksums of whole objects -/

namespace ObjectLedger

/-- The polynomial of a cyclic redundancy check. -/
inductive CrcKind where
  | crc32
  | crc32c
deriving DecidableEq, Repr

def CrcKind.name : CrcKind → String
  | .crc32 => "CRC32"
  | .crc32c => "CRC32C"

/-- The checksum of a whole object. -/
inductive Checksum where
  /-- A digest over the digests of each block's check values. -/
  | digest (crc : CrcKind) (bytesPerCrc : UInt32) (crcPerBlock : UInt64) (md5 : Vector UInt8 16)
  /-- One check value composed from those of all chunks. -/
  | composite (crc : CrcKind) (bytesPerCrc : UInt32) (value : UInt32)
deriving DecidableEq

namespace Checksum

/-- The value of a checksum in hexadecimal. -/
def hex : Checksum → String
  | .digest _ _ _ md5 => Text.hexBytes md5.toList
  | .composite _ _ value => String.ofList (Text.hexadecimal 8 value.toNat)

/-- The written form of a checksum: algorithm and value. -/
def text (checksum : Checksum) : String :=
  match checksum with
  | .digest crc _ _ _ => "MD5-of-MD5-of-" ++ crc.name ++ ":" ++ checksum.hex
  | .composite crc _ _ => "COMPOSITE-" ++ crc.name ++ ":" ++ checksum.hex

end Checksum

end ObjectLedger
