import ObjectLedger.Word

/-! # Replication of an object's blocks

An object is kept as full copies or erasure coded. The replicated size of an
object is what the storage nodes hold for it, and is what a bucket's quota is
charged for. A replication that passes `Replication.validate` has copies, or at
least one data chunk and one parity chunk of positive size.
-/

namespace ObjectLedger

/-- The code that computes parity chunks. -/
inductive ErasureCodec where
  | reedSolomon
  | xor
deriving DecidableEq, Repr

/-- Stripes of data chunks, each completed by parity chunks of the same size. -/
structure ErasureCode where
  codec : ErasureCodec
  data : UInt32
  parity : UInt32
  chunkSize : UInt32
deriving DecidableEq, Repr

/-- The bytes of user data in one full stripe. -/
def ErasureCode.stripeSize (code : ErasureCode) : UInt64 :=
  code.data.toUInt64 * code.chunkSize.toUInt64

/-- How the blocks of an object are replicated. -/
inductive Replication where
  /-- Copies kept equal by consensus. -/
  | ratis (factor : UInt8)
  /-- Copies on independent nodes. -/
  | standalone (factor : UInt8)
  /-- Stripes of an erasure code. -/
  | erasureCoded (code : ErasureCode)
deriving DecidableEq, Repr

/-- Why a replication is refused. -/
inductive ReplicationError where
  /-- The text describes no replication. -/
  | unreadable (text : String)
  /-- Consensus works with one or three copies. -/
  | ratisFactor (factor : UInt8)
  /-- There has to be a copy. -/
  | noCopy
  /-- An erasure code has an empty dimension. -/
  | emptyCode (code : ErasureCode)
deriving DecidableEq, Repr

namespace Replication

/-- Three copies by consensus are the usual replication. -/
def usual : Replication := .ratis 3

instance : Inhabited Replication := ⟨usual⟩

/-- A replication passes if blocks can be laid out by it. -/
def validate : Replication → Except ReplicationError Unit
  | .ratis factor => if factor = 1 ∨ factor = 3 then .ok () else .error (.ratisFactor factor)
  | .standalone factor => if factor = 0 then .error .noCopy else .ok ()
  | .erasureCoded code =>
    if code.data = 0 ∨ code.parity = 0 ∨ code.chunkSize = 0 then .error (.emptyCode code)
    else .ok ()

/-- A usable replication passes validation. -/
def Usable (replication : Replication) : Prop := replication.validate = .ok ()

instance (replication : Replication) : Decidable replication.Usable :=
  match passed : replication.validate with
  | .ok () => .isTrue passed
  | .error _ => .isFalse (by simp [Usable, passed])

/-- Whether blocks are erasure coded. -/
def isErasureCoded : Replication → Bool
  | .erasureCoded _ => true
  | _ => false

/-- The size of a full stripe of an erasure code. -/
def stripeSize? : Replication → Option UInt64
  | .erasureCoded code => some code.stripeSize
  | _ => none

/-- The number of nodes that one block group occupies. -/
def requiredNodes : Replication → Except Overflow UInt32
  | .ratis factor | .standalone factor => .ok factor.toUInt32
  | .erasureCoded code => Word.addHalf code.data code.parity

/-- The parity bytes for an object: a whole stripe has parity chunks of full
size, and the parity chunks of a last partial stripe are as long as its first
data chunk. -/
def parityBytes (code : ErasureCode) (size : UInt64) : Except Overflow UInt64 := do
  let stripe := code.stripeSize
  let chunk := code.chunkSize.toUInt64
  let parity := code.parity.toUInt64
  let chunks ← Word.mul (size / stripe) parity
  let whole ← Word.mul chunks chunk
  let part ← Word.mul (min chunk (size % stripe)) parity
  Word.add whole part

/-- The bytes that storage nodes hold for an object of the given size, clamped to
the largest word. -/
def replicatedSize (replication : Replication) (size : UInt64) : Except Overflow UInt64 :=
  match replication with
  | .ratis factor | .standalone factor => .ok (Word.clamp (size.toNat * factor.toNat))
  | .erasureCoded code =>
    if code.stripeSize = 0 then .ok size
    else do
      let overhead ← parityBytes code size
      pure (Word.clamp (size.toNat + overhead.toNat))

end Replication

end ObjectLedger
