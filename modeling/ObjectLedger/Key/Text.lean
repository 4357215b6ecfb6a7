import ObjectLedger.Key.History
import ObjectLedger.Text.Quoted

/-! # Written forms of key records -/

namespace ObjectLedger

open Text

def ErasureCodec.debugText : ErasureCodec → String
  | .reedSolomon => "Rs"
  | .xor => "Xor"

def Replication.debugText : Replication → String
  | .ratis factor => "Ratis \x7b factor: " ++ toString factor ++ " \x7d"
  | .standalone factor => "Standalone \x7b factor: " ++ toString factor ++ " \x7d"
  | .erasureCoded code =>
    "ErasureCoded(EcConfig \x7b codec: " ++ code.codec.debugText ++
      ", data: " ++ toString code.data ++ ", parity: " ++ toString code.parity ++
      ", chunk_size: " ++ toString code.chunkSize ++ " \x7d)"

namespace KeyRecord

/-- The one-line form of a key record. -/
def text (key : KeyRecord) : String :=
  "KeyRecord\x7bvolume='" ++ key.volume ++ "', bucket='" ++ key.bucket ++
    "', key='" ++ key.name ++ "', dataSize='" ++ toString key.size ++
    "', objectID='" ++ toString key.objectId ++ "', parentID='" ++ toString key.parentId ++
    "', replication='" ++ key.replication.text ++ "'\x7d"

def debugText (key : KeyRecord) : String :=
  "KeyRecord \x7b volume: " ++ quoted key.volume ++ ", bucket: " ++ quoted key.bucket ++
    ", key: " ++ quoted key.name ++ ", data_size: " ++ toString key.size ++
    ", replication: " ++ key.replication.debugText ++
    ", object_id: " ++ toString key.objectId ++
    ", parent_object_id: " ++ toString key.parentId ++
    ", generation: " ++ toString key.generation ++
    ", versions: " ++ toString key.history.length ++ ", .. \x7d"

/-- The fields of a key record that an audit log shows. -/
def audit (key : KeyRecord) : Labels :=
  .ofList <|
    [("volume", key.volume), ("bucket", key.bucket), ("key", key.name),
      ("dataSize", toString key.size), ("replicationConfig", key.replication.text),
      ("objectID", toString key.objectId), ("generation", toString key.generation)] ++
    (key.owner.map ("owner", ·)).toList

end KeyRecord

end ObjectLedger
