import ObjectLedger.Proofs.Checked
import ObjectLedger.Proofs.Codec.Record
import ObjectLedger.Store.Records

/-! # What a sound store holds

A store is sound if under each path stands the frame of a well-formed record whose name forms
the path, beside the generation or update identifier of that record (`Records.Sound`). A sound
store is seen as a map from paths to records (`Records.keyAt`, `Records.bucketAt`); reading
gives that record, and never fails.
-/

namespace ObjectLedger

/-- A condition agrees with what is stored under a name. -/
def Precondition.Holds (condition : Precondition) (current : Option Stored) : Prop :=
  match condition with
  | .unconditional => True
  | .absent => current = none
  | .generation expected => current.map (·.generation) = some expected

/-- The check of a condition passes exactly if the condition holds. -/
theorem Precondition.check_eq_ok_iff (condition : Precondition) (name : String)
    (current : Option Stored) :
    condition.check name current = .ok () ↔ condition.Holds current := by
  cases condition with
  | unconditional => exact ⟨fun _ => trivial, fun _ => rfl⟩
  | absent =>
      cases current with
      | none => exact ⟨fun _ => rfl, fun _ => rfl⟩
      | some stored => simp [check, Holds]
  | generation expected =>
      by_cases same : current.map (·.generation) = some expected
      · simp [check, Holds, same]
      · simp [check, Holds, same]

/-- What is stored under the path of a well-formed key, in the form in which it is read. -/
structure Stored.HoldsKey (stored : Stored) (path : String) (key : KeyRecord) : Prop where
  wellFormed : key.WellFormed
  settled : key.asStored = key
  persisted : key.persist = .ok stored.bytes
  generation : stored.generation = key.generation
  path : path = keyPath key.volume key.bucket key.name

/-- What is stored under the path of a well-formed bucket. -/
structure Stored.HoldsBucket (stored : Stored) (path : String) (bucket : BucketRecord) :
    Prop where
  wellFormed : bucket.WellFormed
  persisted : bucket.persist = .ok stored.bytes
  updateId : stored.generation = bucket.updateId
  path : path = bucketPath bucket.volume bucket.name

/-- The frame of a key is read as the key, at any time. -/
theorem Stored.HoldsKey.ofPersisted {stored : Stored} {path : String} {key : KeyRecord}
    (holds : stored.HoldsKey path key) (now : UInt64) :
    KeyRecord.ofPersisted stored.bytes now = .ok key := by
  rw [KeyRecord.ofPersisted_of_persist holds.wellFormed holds.persisted, holds.settled]

theorem Stored.HoldsBucket.ofPersisted {stored : Stored} {path : String} {bucket : BucketRecord}
    (holds : stored.HoldsBucket path bucket) (now : UInt64) :
    BucketRecord.ofPersisted stored.bytes now = .ok bucket :=
  BucketRecord.ofPersisted_of_persist holds.wellFormed holds.persisted now

/-- What is stored for a well-formed key holds the key as it is read. -/
theorem Stored.holdsKey_asStored {key : KeyRecord} (wellFormed : key.WellFormed)
    {bytes : List UInt8} (persisted : key.persist = .ok bytes) :
    Stored.HoldsKey ⟨key.generation, bytes⟩ (keyPath key.volume key.bucket key.name)
      key.asStored where
  wellFormed := wellFormed.asStored
  settled := key.asStored_asStored
  persisted := key.persist_asStored.trans persisted
  generation := rfl
  path := rfl

namespace Records

variable {records after : Records}

/-- The record that the frame under a path decodes to. -/
def keyAt (records : Records) (path : String) : Option KeyRecord :=
  (records.keys.get? path).bind fun stored => (KeyRecord.ofPersisted stored.bytes 0).toOption

/-- The bucket that the frame under a path decodes to. -/
def bucketAt (records : Records) (path : String) : Option BucketRecord :=
  (records.buckets.get? path).bind fun stored =>
    (BucketRecord.ofPersisted stored.bytes 0).toOption

/-- Under every path of a bucket stands the frame of a well-formed bucket of that path. -/
structure BucketsSound (records : Records) : Prop where
  buckets : ∀ path stored, records.buckets.get? path = some stored →
    ∃ bucket, stored.HoldsBucket path bucket

/-- Under every path stands the frame of a well-formed record of that path. -/
structure Sound (records : Records) : Prop extends records.BucketsSound where
  keys : ∀ path stored, records.keys.get? path = some stored →
    ∃ key, stored.HoldsKey path key

theorem sound_empty : empty.Sound where
  keys path stored found := by cases found
  buckets path stored found := by cases found

/-- The key of a path is what its frame holds. -/
theorem keyAt_of_holds {path : String} {stored : Stored} {key : KeyRecord}
    (found : records.keys.get? path = some stored) (holds : stored.HoldsKey path key) :
    records.keyAt path = some key := by
  rw [keyAt, found, Option.bind_some, holds.ofPersisted]
  rfl

theorem bucketAt_of_holds {path : String} {stored : Stored} {bucket : BucketRecord}
    (found : records.buckets.get? path = some stored) (holds : stored.HoldsBucket path bucket) :
    records.bucketAt path = some bucket := by
  rw [bucketAt, found, Option.bind_some, holds.ofPersisted]
  rfl

theorem keyAt_of_absent {path : String} (absent : records.keys.get? path = none) :
    records.keyAt path = none := by
  rw [keyAt, absent, Option.bind_none]

/-- Every frame under the path of a key holds one. -/
theorem Sound.holdsKey (sound : records.Sound) {path : String} {stored : Stored}
    (found : records.keys.get? path = some stored) :
    ∃ key, records.keyAt path = some key ∧ stored.HoldsKey path key := by
  obtain ⟨key, holds⟩ := sound.keys path stored found
  exact ⟨key, keyAt_of_holds found holds, holds⟩

/-- Every frame under the path of a bucket holds one. -/
theorem BucketsSound.holdsBucket (sound : records.BucketsSound) {path : String} {stored : Stored}
    (found : records.buckets.get? path = some stored) :
    ∃ bucket, records.bucketAt path = some bucket ∧ stored.HoldsBucket path bucket := by
  obtain ⟨bucket, holds⟩ := sound.buckets path stored found
  exact ⟨bucket, bucketAt_of_holds found holds, holds⟩

/-- A key that is seen is held by a frame. -/
theorem Sound.stored_of_keyAt (sound : records.Sound) {path : String} {key : KeyRecord}
    (seen : records.keyAt path = some key) :
    ∃ stored, records.keys.get? path = some stored ∧ stored.HoldsKey path key := by
  cases found : records.keys.get? path with
  | none => rw [keyAt_of_absent found] at seen; cases seen
  | some stored =>
      obtain ⟨other, same, holds⟩ := sound.holdsKey found
      cases seen.symm.trans same
      exact ⟨stored, rfl, holds⟩

/-- A bucket that is seen is held by a frame. -/
theorem BucketsSound.stored_of_bucketAt (sound : records.BucketsSound) {path : String}
    {bucket : BucketRecord} (seen : records.bucketAt path = some bucket) :
    ∃ stored, records.buckets.get? path = some stored ∧ stored.HoldsBucket path bucket := by
  cases found : records.buckets.get? path with
  | none => rw [bucketAt, found, Option.bind_none] at seen; cases seen
  | some stored =>
      obtain ⟨other, same, holds⟩ := sound.holdsBucket found
      cases seen.symm.trans same
      exact ⟨stored, rfl, holds⟩

/-- The generation beside a frame is that of the key it holds. -/
theorem Sound.generation_keyAt (sound : records.Sound) (path : String) :
    (records.keyAt path).map (·.generation) =
      (records.keys.get? path).map (·.generation) := by
  cases found : records.keys.get? path with
  | none => rw [keyAt_of_absent found, Option.map_none, Option.map_none]
  | some stored =>
      obtain ⟨key, seen, holds⟩ := sound.holdsKey found
      rw [seen, Option.map_some, Option.map_some, holds.generation]

/-- There is a key exactly where there is a frame. -/
theorem Sound.isSome_keyAt (sound : records.Sound) (path : String) :
    (records.keyAt path).isSome = (records.keys.get? path).isSome := by
  have generations := congrArg Option.isSome (sound.generation_keyAt path)
  rwa [Option.isSome_map, Option.isSome_map] at generations

/-- Reading a key of a sound store gives what stands under its path. -/
theorem Sound.readKey (sound : records.Sound) (now : UInt64) (volume bucket name : String) :
    records.readKey now volume bucket name = .ok (records.keyAt (keyPath volume bucket name)) := by
  unfold Records.readKey
  cases found : records.keys.get? (keyPath volume bucket name) with
  | none => simp only [keyAt_of_absent found]
  | some stored =>
      obtain ⟨key, seen, holds⟩ := sound.holdsKey found
      simp only [holds.ofPersisted, seen]
      rfl

/-- Reading a bucket of a sound store gives what stands under its path. -/
theorem BucketsSound.readBucket (sound : records.BucketsSound) (now : UInt64)
    (volume name : String) :
    records.readBucket now volume name = .ok (records.bucketAt (bucketPath volume name)) := by
  unfold Records.readBucket
  cases found : records.buckets.get? (bucketPath volume name) with
  | none => simp only [bucketAt, found, Option.bind_none]
  | some stored =>
      obtain ⟨bucket, seen, holds⟩ := sound.holdsBucket found
      simp only [holds.ofPersisted, seen]
      rfl

/-! ## Writing -/

/-- The store with a frame under the path of a key. -/
def putKey (records : Records) (key : KeyRecord) (bytes : List UInt8) : Records :=
  { records with
    keys := records.keys.insert (keyPath key.volume key.bucket key.name)
      ⟨key.generation, bytes⟩ }

/-- The store with a frame under the path of a bucket. -/
def putBucket (records : Records) (bucket : BucketRecord) (bytes : List UInt8) : Records :=
  { records with
    buckets := records.buckets.insert (bucketPath bucket.volume bucket.name)
      ⟨bucket.updateId, bytes⟩ }

/-- A key is written if it has a frame and the condition holds. -/
theorem writeKey_eq_ok_iff {key : KeyRecord} {condition : Precondition} :
    records.writeKey key condition = .ok after ↔ ∃ bytes, key.persist = .ok bytes ∧
      condition.Holds (records.keys.get? (keyPath key.volume key.bucket key.name)) ∧
        after = records.putKey key bytes := by
  unfold writeKey
  constructor
  · intro changed
    obtain ⟨bytes, persisted, checked⟩ := bind_eq_ok_iff.1 changed
    obtain ⟨_, holds, same⟩ := bind_eq_ok_iff.1 checked
    exact ⟨bytes, mapError_eq_ok_iff.1 persisted, (condition.check_eq_ok_iff _ _).1 holds,
      (Except.ok.inj same).symm⟩
  · rintro ⟨bytes, persisted, holds, rfl⟩
    refine bind_eq_ok_iff.2 ⟨bytes, mapError_eq_ok_iff.2 persisted, ?_⟩
    exact bind_eq_ok_iff.2 ⟨(), (condition.check_eq_ok_iff _ _).2 holds, rfl⟩

/-- Writing a bucket succeeds if it fits a frame and the condition holds. -/
theorem writeBucket_eq_ok_iff {bucket : BucketRecord} {condition : Precondition} :
    records.writeBucket bucket condition = .ok after ↔ ∃ bytes, bucket.persist = .ok bytes ∧
      condition.Holds (records.buckets.get? (bucketPath bucket.volume bucket.name)) ∧
        after = records.putBucket bucket bytes := by
  unfold writeBucket
  constructor
  · intro changed
    obtain ⟨bytes, persisted, checked⟩ := bind_eq_ok_iff.1 changed
    obtain ⟨_, holds, same⟩ := bind_eq_ok_iff.1 checked
    exact ⟨bytes, mapError_eq_ok_iff.1 persisted, (condition.check_eq_ok_iff _ _).1 holds,
      (Except.ok.inj same).symm⟩
  · rintro ⟨bytes, persisted, holds, rfl⟩
    refine bind_eq_ok_iff.2 ⟨bytes, mapError_eq_ok_iff.2 persisted, ?_⟩
    exact bind_eq_ok_iff.2 ⟨(), (condition.check_eq_ok_iff _ _).2 holds, rfl⟩

/-- Creating a bucket succeeds if it fits a frame and its path is free. -/
theorem createBucket_eq_ok_iff {bucket : BucketRecord} :
    records.createBucket bucket = .ok after ↔ ∃ bytes, bucket.persist = .ok bytes ∧
      records.buckets.get? (bucketPath bucket.volume bucket.name) = none ∧
        after = records.putBucket bucket bytes := by
  unfold createBucket
  constructor
  · intro changed
    obtain ⟨bytes, persisted, checked⟩ := bind_eq_ok_iff.1 changed
    dsimp only at checked
    split at checked
    · cases checked
    · rename_i absent
      exact ⟨bytes, mapError_eq_ok_iff.1 persisted, by simpa [Dictionary.contains] using absent,
        (Except.ok.inj checked).symm⟩
  · rintro ⟨bytes, persisted, free, rfl⟩
    refine bind_eq_ok_iff.2 ⟨bytes, mapError_eq_ok_iff.2 persisted, ?_⟩
    dsimp only
    rw [Dictionary.contains, free]
    rfl

/-- The store without what stands under the path of a key. -/
def dropKey (records : Records) (path : String) : Records :=
  { records with keys := records.keys.erase path }

/-- A key is taken if the condition holds. -/
theorem takeKey_eq_ok_iff {volume bucket name : String} {condition : Precondition}
    {current : Option Stored} :
    records.takeKey volume bucket name condition = .ok (current, after) ↔
      condition.Holds (records.keys.get? (keyPath volume bucket name)) ∧
        current = records.keys.get? (keyPath volume bucket name) ∧
          after = records.dropKey (keyPath volume bucket name) := by
  unfold takeKey
  constructor
  · intro changed
    obtain ⟨_, holds, same⟩ := bind_eq_ok_iff.1 changed
    obtain ⟨removed, left⟩ := Prod.mk.inj (Except.ok.inj same)
    exact ⟨(condition.check_eq_ok_iff _ _).1 holds, removed.symm, left.symm⟩
  · rintro ⟨holds, rfl, rfl⟩
    exact bind_eq_ok_iff.2 ⟨(), (condition.check_eq_ok_iff _ _).2 holds, rfl⟩

/-! ## What is seen after a change -/

/-- A written key is seen under its own path, and nothing else changes. -/
theorem keyAt_putKey {key : KeyRecord} (wellFormed : key.WellFormed) {bytes : List UInt8}
    (persisted : key.persist = .ok bytes) (path : String) :
    (records.putKey key bytes).keyAt path =
      if path = keyPath key.volume key.bucket key.name then some key.asStored
      else records.keyAt path := by
  unfold keyAt putKey
  rw [Dictionary.get?_insert]
  split
  · rw [Option.bind_some, (Stored.holdsKey_asStored wellFormed persisted).ofPersisted]
    rfl
  · rfl

/-- A written bucket is seen under its own path, and nothing else changes. -/
theorem bucketAt_putBucket {bucket : BucketRecord} (wellFormed : bucket.WellFormed)
    {bytes : List UInt8} (persisted : bucket.persist = .ok bytes) (path : String) :
    (records.putBucket bucket bytes).bucketAt path =
      if path = bucketPath bucket.volume bucket.name then some bucket
      else records.bucketAt path := by
  unfold bucketAt putBucket
  rw [Dictionary.get?_insert]
  split
  · rw [Option.bind_some, BucketRecord.ofPersisted_of_persist wellFormed persisted]
    rfl
  · rfl

/-- Removing a key leaves every other one. -/
theorem keyAt_dropKey (dropped path : String) :
    (records.dropKey dropped).keyAt path =
      if path = dropped then none else records.keyAt path := by
  unfold keyAt dropKey
  rw [Dictionary.get?_erase]
  split <;> rfl

/-- Writing a well-formed key keeps the store sound. -/
theorem Sound.putKey (sound : records.Sound) {key : KeyRecord} (wellFormed : key.WellFormed)
    {bytes : List UInt8} (persisted : key.persist = .ok bytes) :
    (records.putKey key bytes).Sound where
  keys path stored found := by
    unfold Records.putKey at found
    rw [Dictionary.get?_insert] at found
    split at found
    · rename_i here
      cases found
      exact ⟨key.asStored, here ▸ Stored.holdsKey_asStored wellFormed persisted⟩
    · exact sound.keys path stored found
  buckets := sound.buckets

/-- Writing a well-formed bucket keeps the buckets readable. -/
theorem BucketsSound.putBucket (sound : records.BucketsSound) {bucket : BucketRecord}
    (wellFormed : bucket.WellFormed) {bytes : List UInt8}
    (persisted : bucket.persist = .ok bytes) :
    (records.putBucket bucket bytes).BucketsSound where
  buckets path stored found := by
    unfold Records.putBucket at found
    rw [Dictionary.get?_insert] at found
    split at found
    · rename_i here
      cases found
      exact ⟨bucket, wellFormed, persisted, rfl, here⟩
    · exact sound.buckets path stored found

/-- Writing a well-formed bucket keeps the store sound. -/
theorem Sound.putBucket (sound : records.Sound) {bucket : BucketRecord}
    (wellFormed : bucket.WellFormed) {bytes : List UInt8}
    (persisted : bucket.persist = .ok bytes) : (records.putBucket bucket bytes).Sound where
  toBucketsSound := sound.toBucketsSound.putBucket wellFormed persisted
  keys := sound.keys

/-- Removing a key keeps the store sound. -/
theorem Sound.dropKey (sound : records.Sound) (path : String) : (records.dropKey path).Sound where
  keys other stored found := by
    unfold Records.dropKey at found
    rw [Dictionary.get?_erase] at found
    split at found
    · cases found
    · exact sound.keys other stored found
  buckets := sound.buckets

/-! ## Undoing a write -/

/-- Writing back the key that stood under a path undoes a write to that path. -/
theorem putKey_putKey_of_holds {path : String} {stored : Stored} {old key : KeyRecord}
    (found : records.keys.get? path = some stored) (holds : stored.HoldsKey path old)
    (same : keyPath key.volume key.bucket key.name = path) (bytes : List UInt8) :
    (records.putKey key bytes).putKey old stored.bytes = records := by
  have generation : (⟨old.generation, stored.bytes⟩ : Stored) = stored := by
    rw [← holds.generation]
  unfold Records.putKey
  rw [same, ← holds.path, generation, Dictionary.insert_insert_of_get? found]

/-- Dropping a key undoes its write to a path where nothing stood. -/
theorem dropKey_putKey_of_absent {key : KeyRecord}
    (absent : records.keys.get? (keyPath key.volume key.bucket key.name) = none)
    (bytes : List UInt8) :
    (records.putKey key bytes).dropKey (keyPath key.volume key.bucket key.name) = records := by
  unfold Records.putKey Records.dropKey
  rw [Dictionary.erase_insert_of_get? absent]

end Records

end ObjectLedger
