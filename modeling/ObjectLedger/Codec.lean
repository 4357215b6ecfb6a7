import ObjectLedger.Bucket.Wire
import ObjectLedger.Frame.Basic
import ObjectLedger.Key.Wire
import ObjectLedger.Key.History

/-! # Encoded records

A stored record leaves out where its blocks are placed, because pipelines change
under it. A record that is sent keeps the placement, announces its newest version, and
may be cut to that version or sent under another name. Decoding accepts one whole
frame of the right form, and checks the fields as building a record does.
-/

namespace ObjectLedger

namespace Codec

/-- The frame of some fields. -/
def encode {α : Type} (form : Form) (wire : Wire α) (fields : α) :
    Except CodecError (List UInt8) :=
  Frame.wrap form (wire.put fields)

/-- The fields of one whole frame. -/
def decode {α : Type} (form : Form) (wire : Wire α) (bytes : List UInt8) :
    Except CodecError α := do
  let (payload, size) ← Frame.unwrap form bytes
  if size ≠ bytes.length then
    throw (.framing (.trailing (bytes.length - size)))
  match wire.get payload with
  | some (fields, _) => pure fields
  | none => throw .unreadable

end Codec

namespace KeyRecord

/-- The frame of a record that is stored. -/
def persist (key : KeyRecord) : Except CodecError (List UInt8) :=
  Codec.encode .persistedKey Wire.keyForm
    (KeyForm.ofRecord key (key.history.map (GroupForm.ofGroup false)))

/-- The record of a stored frame. -/
def ofPersisted (bytes : List UInt8) (now : UInt64) : Except CodecError KeyRecord := do
  let form ← Codec.decode .persistedKey Wire.keyForm bytes
  (form.record now).mapError .malformed

/-- How a record is sent. -/
structure SendOptions where
  /-- Only the newest version is sent. -/
  latestOnly : Bool := false
  /-- The name to send in place of the record's own. -/
  fullName : Option String := none
deriving DecidableEq, Repr

/-- The announcement of a newest version: its number, or -1. -/
def announce (version : Option UInt64) : Int64 :=
  match version with
  | some version => version.toInt64
  | none => -1

/-- The groups of a history that are sent. -/
def sentHistory (key : KeyRecord) (options : SendOptions) : List VersionGroup :=
  if options.latestOnly then key.latest?.toList else key.history

/-- The frame of a record that is sent. -/
def send (key : KeyRecord) (options : SendOptions) : Except CodecError (List UInt8) :=
  let form := KeyForm.ofRecord key ((key.sentHistory options).map (GroupForm.ofGroup true))
  Codec.encode .networkKey Wire.keyForm
    { form with
      name := some (options.fullName.getD key.name)
      latest := some (announce key.latestVersion?) }

/-- The announced newest version has to be the last one of the history. -/
def checkAnnounced (form : KeyForm) : Except Malformation Unit :=
  let tail := announce (form.history.getLast?.bind (·.version))
  match form.latest with
  | none => .error (.missing "latest version")
  | some announced => if announced = tail then .ok () else .error (.historyTail announced tail)

/-- The record of a frame that was sent. -/
def ofSent (bytes : List UInt8) (now : UInt64) : Except CodecError KeyRecord := do
  let form ← Codec.decode .networkKey Wire.keyForm bytes
  (checkAnnounced form).mapError .malformed
  (form.record now).mapError .malformed

end KeyRecord

namespace BucketRecord

/-- The frame of a bucket in a form for buckets. -/
def encode (form : Form) (bucket : BucketRecord) : Except CodecError (List UInt8) :=
  Codec.encode form Wire.bucketForm (.ofRecord bucket)

/-- The bucket of a frame in a form for buckets. -/
def decode (form : Form) (bytes : List UInt8) (now : UInt64) :
    Except CodecError BucketRecord := do
  let fields ← Codec.decode form Wire.bucketForm bytes
  (fields.record now).mapError .malformed

/-- The frame of a bucket that is stored. -/
def persist (bucket : BucketRecord) : Except CodecError (List UInt8) :=
  bucket.encode .persistedBucket

/-- The bucket of a stored frame. -/
def ofPersisted (bytes : List UInt8) (now : UInt64) : Except CodecError BucketRecord :=
  decode .persistedBucket bytes now

/-- The frame of a bucket that is sent. -/
def send (bucket : BucketRecord) : Except CodecError (List UInt8) :=
  bucket.encode .networkBucket

/-- The bucket of a frame that was sent. -/
def ofSent (bytes : List UInt8) (now : UInt64) : Except CodecError BucketRecord :=
  decode .networkBucket bytes now

end BucketRecord

end ObjectLedger
