import ObjectLedger.Replication.Basic
import ObjectLedger.Text.Blank
import ObjectLedger.Text.Fields
import ObjectLedger.Text.Numeral

/-! # The text form of replications

Copies are written `ratis/3` or `standalone/1`, and erasure codes `rs-6-3-1024k`:
codec, data chunks, parity chunks and chunk size. A chunk size that is a whole
number of kibibytes ends with a `k`. Reading ignores blanks at both ends and the
case of ASCII letters, and accepts usable replications only.
-/

namespace ObjectLedger

open Text

def ErasureCodec.name : ErasureCodec → String
  | .reedSolomon => "rs"
  | .xor => "xor"

/-- The text of an erasure code. -/
def ErasureCode.text (code : ErasureCode) : String :=
  let size := code.chunkSize.toNat
  let sizeText := if size % 1024 = 0 then decimal (size / 1024) ++ ['k'] else decimal size
  code.codec.name ++ "-" ++ String.ofList (decimal code.data.toNat) ++ "-" ++
    String.ofList (decimal code.parity.toNat) ++ "-" ++ String.ofList sizeText

def ReplicationError.message : ReplicationError → String
  | .unreadable text => "invalid replication config: " ++ text
  | .ratisFactor factor =>
    s!"invalid replication config: ratis factor must be 1 or 3, got {factor}"
  | .noCopy => "invalid replication config: standalone factor must be positive"
  | .emptyCode code =>
    "invalid replication config: ec data, parity and chunk size must be positive: " ++ code.text

namespace Replication

/-- The text of a replication. -/
def text : Replication → String
  | .ratis factor => "ratis/" ++ String.ofList (decimal factor.toNat)
  | .standalone factor => "standalone/" ++ String.ofList (decimal factor.toNat)
  | .erasureCoded code => code.text

/-- The number of copies of a text, at most 255. -/
def readFactor? (cs : List Char) : Option UInt8 :=
  (readDecimal? UInt8.size cs).map UInt8.ofNat

/-- A number of chunks or bytes. -/
def readCount? (cs : List Char) : Option UInt32 :=
  (readDecimal? UInt32.size cs).map UInt32.ofNat

/-- A chunk size in bytes, or in kibibytes before a `k`. -/
def readChunkSize? (cs : List Char) : Option UInt32 :=
  if cs.getLast? = some 'k' then
    (readDecimal? UInt32.size cs.dropLast).bind fun kibibytes =>
      if kibibytes * 1024 < UInt32.size then some (UInt32.ofNat (kibibytes * 1024)) else none
  else readCount? cs

/-- The codec of a name. -/
def readCodec? (cs : List Char) : Option ErasureCodec :=
  if cs = ['r', 's'] then some .reedSolomon
  else if cs = ['x', 'o', 'r'] then some .xor
  else none

/-- The replication of a text in lower case without blanks around, usable or not. -/
def readPlain? (cs : List Char) : Option Replication :=
  match cut? '/' cs with
  | some (kind, factorText) => do
    let factor ← readFactor? factorText
    if kind = "ratis".toList then some (.ratis factor)
    else if kind = "standalone".toList then some (.standalone factor)
    else none
  | none =>
    match fields '-' cs with
    | [codecText, dataText, parityText, sizeText] => do
      let codec ← readCodec? codecText
      let data ← readCount? dataText
      let parity ← readCount? parityText
      let chunkSize ← readChunkSize? sizeText
      some (.erasureCoded ⟨codec, data, parity, chunkSize⟩)
    | _ => none

/-- The usable replication of a text. -/
def ofText (input : String) : Except ReplicationError Replication :=
  match readPlain? ((trim input.toList).map Char.toLower) with
  | none => .error (.unreadable input)
  | some replication =>
    match replication.validate with
    | .ok () => .ok replication
    | .error cause => .error cause

end Replication

end ObjectLedger
