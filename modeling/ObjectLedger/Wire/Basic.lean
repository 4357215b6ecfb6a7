import ObjectLedger.Dictionary

/-! # Wire forms

A wire form writes values as bytes and reads a value from the front of some bytes.
Numbers have a fixed width and their least significant byte first. An optional value
follows a byte that tells whether it is there, and texts, lists and dictionaries
follow the number of their parts. The parts of a record follow each other with
nothing between.
-/

namespace ObjectLedger

/-- A writer and a reader of values as bytes. The reader gives the bytes that follow
the value. -/
structure Wire (α : Type) where
  put : α → List UInt8
  get : List UInt8 → Option (α × List UInt8)

namespace Wire

variable {α β : Type}

/-- The lowest bytes of a number, least significant first. -/
def littleEndian : (width n : Nat) → List UInt8
  | 0, _ => []
  | width + 1, n => UInt8.ofNat n :: littleEndian width (n / 256)

/-- The number of a few bytes, least significant first. -/
def takeNumber : (width : Nat) → List UInt8 → Option (Nat × List UInt8)
  | 0, bytes => some (0, bytes)
  | _ + 1, [] => none
  | width + 1, byte :: bytes =>
    (takeNumber width bytes).map fun (n, rest) => (byte.toNat + 256 * n, rest)

/-- A list of a given number of bytes. -/
def takeBytes (count : Nat) (bytes : List UInt8) : Option (List UInt8 × List UInt8) :=
  if count ≤ bytes.length then some (bytes.take count, bytes.drop count) else none

/-- Numbers of a fixed width. -/
def number (width : Nat) : Wire Nat := ⟨littleEndian width, takeNumber width⟩

/-- Values that are written as others, as far as those stand for values. -/
def refine (wire : Wire α) (toWritten : β → α) (ofWritten? : α → Option β) : Wire β where
  put value := wire.put (toWritten value)
  get bytes := do
    let (written, rest) ← wire.get bytes
    let value ← ofWritten? written
    pure (value, rest)

/-- Values that are written as others. -/
def map (wire : Wire α) (toWritten : β → α) (ofWritten : α → β) : Wire β :=
  wire.refine toWritten (some ∘ ofWritten)

/-- A value and then another. -/
def pair (first : Wire α) (second : Wire β) : Wire (α × β) where
  put value := first.put value.1 ++ second.put value.2
  get bytes := do
    let (left, bytes) ← first.get bytes
    let (right, rest) ← second.get bytes
    pure ((left, right), rest)

def byte : Wire UInt8 := (number 1).map UInt8.toNat UInt8.ofNat

/-- Quarter words as numbers. -/
def quarter : Wire UInt16 := (number 2).map UInt16.toNat UInt16.ofNat

def half : Wire UInt32 := (number 4).map UInt32.toNat UInt32.ofNat

def word : Wire UInt64 := (number 8).map UInt64.toNat UInt64.ofNat

/-- Signed words in two's complement. -/
def signed : Wire Int64 := word.map Int64.toUInt64 UInt64.toInt64

/-- Truth values as 0 and 1. -/
def truth : Wire Bool :=
  byte.refine (fun value => if value then 1 else 0) fun written =>
    if written = 0 then some false else if written = 1 then some true else none

/-- A value that may be absent. -/
def optional (wire : Wire α) : Wire (Option α) where
  put
    | none => truth.put false
    | some value => truth.put true ++ wire.put value
  get bytes := do
    let (there, bytes) ← truth.get bytes
    if there then
      let (value, rest) ← wire.get bytes
      pure (some value, rest)
    else pure (none, bytes)

/-- The number of the parts that follow. -/
def count : Wire Nat := number 8

/-- Bytes after their number. -/
def bytes : Wire (List UInt8) where
  put value := count.put value.length ++ value
  get bytes := do
    let (size, bytes) ← count.get bytes
    takeBytes size bytes

/-- A fixed number of bytes. -/
def exactly (size : Nat) : Wire (Vector UInt8 size) where
  put value := value.toList
  get bytes := do
    let (taken, rest) ← takeBytes size bytes
    if same : taken.length = size then
      pure (⟨taken.toArray, by simpa using same⟩, rest)
    else none

/-- A fixed number of bytes after their number. -/
def counted (size : Nat) : Wire (Vector UInt8 size) :=
  bytes.refine Vector.toList fun taken =>
    if same : taken.length = size then some ⟨taken.toArray, by simpa using same⟩ else none

/-- A text in UTF-8. -/
def text : Wire String :=
  bytes.refine (fun value => value.toUTF8.data.toList) fun taken =>
    String.fromUTF8? ⟨taken.toArray⟩

/-- A given number of values. -/
def takeMany (wire : Wire α) : (count : Nat) → List UInt8 → Option (List α × List UInt8)
  | 0, bytes => some ([], bytes)
  | count + 1, bytes => do
    let (value, bytes) ← wire.get bytes
    let (values, rest) ← takeMany wire count bytes
    pure (value :: values, rest)

/-- Values after their number. -/
def list (wire : Wire α) : Wire (List α) where
  put values := count.put values.length ++ values.flatMap wire.put
  get bytes := do
    let (size, bytes) ← count.get bytes
    takeMany wire size bytes

/-- The entries of a dictionary after their number, in the order of their keys. Reading
takes entries in any order, and the last one of each key. -/
def dictionary (wire : Wire α) : Wire (Dictionary α) :=
  (text.pair wire).list.map Dictionary.entries Dictionary.ofList

/-- One of a few values, as its place among them. -/
def oneOf [DecidableEq α] (values : List α) : Wire α :=
  half.refine (fun value => UInt32.ofNat (values.idxOf value)) fun place => values[place.toNat]?

end Wire

end ObjectLedger
