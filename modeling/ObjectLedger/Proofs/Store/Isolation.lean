import ObjectLedger.Proofs.Key.Made
import ObjectLedger.Proofs.Store.Listing
import ObjectLedger.Proofs.Store.Path
import ObjectLedger.Proofs.Store.Registry

/-! # Names are isolated from each other

A store represents a registry if reading it under plain names gives what the registry holds
(`Records.Represents`). Serving a request keeps this, and the response is the registry's
(`Records.Represents.serve`), so that over all requests the store is a map from names to records
(`Records.isolated`). Without plain names, two names share one path (`Records.not_isolated`).
-/

namespace ObjectLedger

/-- A key that was built from a draft. -/
def KeyRecord.Built (key : KeyRecord) : Prop :=
  ∃ draft now, (∀ group ∈ draft.history, group.Made) ∧ KeyDraft.build draft now = .ok key

/-- A bucket that was built from a draft. -/
def BucketRecord.Built (bucket : BucketRecord) : Prop :=
  ∃ draft now, BucketDraft.build draft now = .ok bucket

/-- A key that is built is well formed. -/
theorem KeyRecord.Built.wellFormed {key : KeyRecord} (built : key.Built) : key.WellFormed := by
  obtain ⟨draft, now, groups, built⟩ := built
  exact (KeyDraft.build_eq_ok (fun group member => (groups group member).stamped) built).1

theorem BucketRecord.Built.wellFormed {bucket : BucketRecord} (built : bucket.Built) :
    bucket.WellFormed := by
  obtain ⟨draft, now, built⟩ := built
  exact (BucketDraft.build_eq_ok built).1

namespace Request

/-- A request about built records whose path tells its names apart. -/
def Admissible : Request → Prop
  | .readKey volume bucket _ | .deleteKey volume bucket _ _ | .listKeys volume bucket _ =>
    Plain volume ∧ Plain bucket
  | .writeKey key _ => key.Built ∧ Plain key.volume ∧ Plain key.bucket
  | .readBucket volume _ => Plain volume
  | .writeBucket bucket _ | .createBucket bucket => bucket.Built ∧ Plain bucket.volume

/-- The key that a request may change. -/
def key? : Request → Option (String × String × String)
  | .writeKey key _ => some (key.volume, key.bucket, key.name)
  | .deleteKey volume bucket name _ => some (volume, bucket, name)
  | _ => none

/-- The bucket that a request may change. -/
def bucket? : Request → Option (String × String)
  | .writeBucket bucket _ | .createBucket bucket => some (bucket.volume, bucket.name)
  | _ => none

end Request

/-! ## The store and the registry -/

namespace Records

variable {records : Records}

/-- Under plain names, the store holds what the registry holds. -/
structure Represents (records : Records) (registry : Registry) : Prop where
  sound : records.Sound
  keys : ∀ volume bucket name, Plain volume → Plain bucket →
    records.keyAt (keyPath volume bucket name) = registry.keyNamed volume bucket name
  buckets : ∀ volume name, Plain volume →
    records.bucketAt (bucketPath volume name) = registry.buckets (volume, name)

theorem represents_empty : empty.Represents .empty where
  sound := sound_empty
  keys _ _ _ _ _ := rfl
  buckets _ _ _ := rfl

variable {registry : Registry}

/-- Writing a key represents filing it under its names. -/
theorem Represents.putKey (represents : records.Represents registry) {key : KeyRecord}
    (wellFormed : key.WellFormed) {bytes : List UInt8} (persisted : key.persist = .ok bytes)
    (plain : Plain key.volume) (plainBucket : Plain key.bucket) :
    (records.putKey key bytes).Represents (registry.putKey key.asStored) where
  sound := represents.sound.putKey wellFormed persisted
  keys volume bucket name plain' plainBucket' := by
    rw [keyAt_putKey wellFormed persisted, Registry.keyNamed_putKey,
      represents.keys volume bucket name plain' plainBucket']
    refine if_congr ⟨?_, ?_⟩ rfl rfl
    · exact keyPath_inj plain' plain plainBucket' plainBucket
    · rintro ⟨rfl, rfl, rfl⟩
      rfl
  buckets := represents.buckets

/-- Removing a key represents striking it under its names. -/
theorem Represents.dropKey (represents : records.Represents registry) {volume bucket : String}
    (name : String) (plain : Plain volume) (plainBucket : Plain bucket) :
    (records.dropKey (keyPath volume bucket name)).Represents
      (registry.dropKey volume bucket name) where
  sound := represents.sound.dropKey _
  keys volume' bucket' name' plain' plainBucket' := by
    rw [keyAt_dropKey, Registry.keyNamed_dropKey,
      represents.keys volume' bucket' name' plain' plainBucket']
    refine if_congr ⟨?_, ?_⟩ rfl rfl
    · exact keyPath_inj plain' plain plainBucket' plainBucket
    · rintro ⟨rfl, rfl, rfl⟩
      rfl
  buckets := represents.buckets

/-- Writing a bucket represents filing it under its names. -/
theorem Represents.putBucket (represents : records.Represents registry) {bucket : BucketRecord}
    (wellFormed : bucket.WellFormed) {bytes : List UInt8}
    (persisted : bucket.persist = .ok bytes) (plain : Plain bucket.volume) :
    (records.putBucket bucket bytes).Represents (registry.putBucket bucket) where
  sound := represents.sound.putBucket wellFormed persisted
  keys := represents.keys
  buckets volume name plain' := by
    rw [bucketAt_putBucket wellFormed persisted, represents.buckets volume name plain']
    unfold Registry.putBucket
    by_cases here : (volume, name) = (bucket.volume, bucket.name)
    · obtain ⟨rfl, rfl⟩ := Prod.mk.inj here
      simp only [Function.update_self, ↓reduceIte]
    · have other : bucketPath volume name ≠ bucketPath bucket.volume bucket.name := by
        intro same
        obtain ⟨sameVolume, sameName⟩ := bucketPath_inj plain' plain same
        exact here (Prod.ext sameVolume sameName)
      simp only [Function.update_of_ne here, if_neg other]

/-- The listed names are those that the registry holds. -/
theorem Represents.listKeys (represents : records.Represents registry) {volume bucket : String}
    (start : String) (plain : Plain volume) (plainBucket : Plain bucket) :
    records.listKeys volume bucket start =
      (registry.keys (volume, bucket)).keys.filter fun name =>
        start.toList.isPrefixOf name.toList := by
  have names : (registry.keys (volume, bucket)).keys.Pairwise (· < ·) :=
    List.pairwise_map.2 (registry.keys (volume, bucket)).ascending
  refine eq_of_ascending (listKeys_ascending ..) (names.filter _) fun name => ?_
  rw [mem_listKeys_iff, ← represents.sound.isSome_keyAt,
    represents.keys volume bucket name plain plainBucket, List.mem_filter,
    List.isPrefixOf_iff_prefix, and_comm, Registry.keyNamed, Dictionary.mem_keys_iff]

/-! ## Serving -/

/-- The update identifier beside a frame is that of the bucket it holds. -/
theorem Sound.updateId_bucketAt (sound : records.Sound) (path : String) :
    (records.bucketAt path).map (·.updateId) =
      (records.buckets.get? path).map (·.generation) := by
  cases found : records.buckets.get? path with
  | none => rw [bucketAt, found, Option.bind_none, Option.map_none, Option.map_none]
  | some stored =>
      obtain ⟨bucket, seen, holds⟩ := sound.holdsBucket found
      rw [seen, Option.map_some, Option.map_some, holds.updateId]

/-- What is stored under a path is decoded to the key that is seen there. -/
theorem Sound.mapM_ofPersisted (sound : records.Sound) (path : String) (now : UInt64) :
    ((records.keys.get? path).mapM fun stored =>
      (KeyRecord.ofPersisted stored.bytes now).mapError StoreError.codec) =
        .ok (records.keyAt path) := by
  cases found : records.keys.get? path with
  | none =>
      rw [keyAt_of_absent found]
      rfl
  | some stored =>
      obtain ⟨key, seen, holds⟩ := sound.holdsKey found
      rw [Option.mapM_some, holds.ofPersisted, seen]
      rfl

/-- The store and the registry answer the same, and the one still represents the other. -/
structure Agrees (served : Response × Records) (expected : Response × Registry) : Prop where
  response : served.1 = expected.1
  represents : served.2.Represents expected.2

/-- A record that does not fit a frame is refused on both sides. -/
theorem Represents.framed (represents : records.Represents registry)
    {frame : Except CodecError (List UInt8)} {change : List UInt8 → Except StoreError Records}
    {accepted : Response × Registry}
    (agrees : ∀ bytes, frame = .ok bytes →
      Agrees (records.respond (change bytes) fun after => (.done, after)) accepted) :
    Agrees (records.respond (frame.mapError .codec >>= change) fun after => (.done, after))
      (registry.framed frame accepted) := by
  cases frame with
  | error cause => exact ⟨rfl, represents⟩
  | ok bytes => exact agrees bytes rfl

/-- A condition that is not met is reported on both sides. -/
theorem Represents.guarded {α : Type} (represents : records.Represents registry)
    {condition : Precondition} {path : String} {current : Option Stored}
    {generation : Option UInt64} (same : generation = current.map (·.generation)) {result : α}
    {accept : α → Response × Records} {accepted : Response × Registry}
    (agrees : Agrees (accept result) accepted) :
    Agrees (records.respond (condition.check path current >>= fun _ => pure result) accept)
      (registry.guarded condition path generation accepted) := by
  subst same
  rw [condition.check_eq, Registry.guarded]
  split
  · exact agrees
  · exact ⟨rfl, represents⟩

/-- A request is answered as by the registry, which the store represents after it again. -/
theorem Represents.serve (represents : records.Represents registry) {request : Request}
    (admissible : request.Admissible) (now : UInt64) :
    Agrees (records.serve now request) (registry.serve request) := by
  have sound := represents.sound
  cases request with
  | readKey volume bucket name =>
      obtain ⟨plain, plainBucket⟩ := admissible
      rw [Records.serve, sound.readKey, represents.keys volume bucket name plain plainBucket]
      exact ⟨rfl, represents⟩
  | writeKey key condition =>
      obtain ⟨built, plain, plainBucket⟩ := admissible
      refine represents.framed fun bytes persisted => represents.guarded ?_ ?_
      · rw [← represents.keys _ _ _ plain plainBucket, sound.generation_keyAt]
      · exact ⟨rfl, represents.putKey built.wellFormed persisted plain plainBucket⟩
  | deleteKey volume bucket name condition =>
      obtain ⟨plain, plainBucket⟩ := admissible
      have held := represents.keys volume bucket name plain plainBucket
      refine represents.guarded ?_ ?_
      · rw [← held, sound.generation_keyAt]
      · dsimp only
        rw [sound.mapM_ofPersisted, held]
        exact ⟨rfl, represents.dropKey name plain plainBucket⟩
  | listKeys volume bucket start =>
      obtain ⟨plain, plainBucket⟩ := admissible
      exact ⟨congrArg Response.names (represents.listKeys start plain plainBucket), represents⟩
  | readBucket volume name =>
      rw [Records.serve, sound.readBucket, represents.buckets volume name admissible]
      exact ⟨rfl, represents⟩
  | writeBucket bucket condition =>
      obtain ⟨built, plain⟩ := admissible
      refine represents.framed fun bytes persisted => represents.guarded ?_ ?_
      · rw [← represents.buckets _ _ plain, sound.updateId_bucketAt]
      · exact ⟨rfl, represents.putBucket built.wellFormed persisted plain⟩
  | createBucket bucket =>
      obtain ⟨built, plain⟩ := admissible
      refine represents.framed fun bytes persisted => ?_
      have taken : records.buckets.contains (bucketPath bucket.volume bucket.name) =
          (registry.buckets (bucket.volume, bucket.name)).isSome := by
        have same := congrArg Option.isSome
          (sound.updateId_bucketAt (bucketPath bucket.volume bucket.name))
        rw [Option.isSome_map, Option.isSome_map, represents.buckets _ _ plain] at same
        exact same.symm
      rw [taken]
      split
      · exact ⟨rfl, represents⟩
      · exact ⟨rfl, represents.putBucket built.wellFormed persisted plain⟩

/-- Over all requests the responses are those of the registry. -/
theorem Represents.serveAll (represents : records.Represents registry)
    {requests : List (UInt64 × Request)}
    (admissible : ∀ request ∈ requests, request.2.Admissible) :
    (records.serveAll requests).1 = (registry.serveAll (requests.map (·.2))).1 ∧
      (records.serveAll requests).2.Represents (registry.serveAll (requests.map (·.2))).2 := by
  induction requests generalizing records registry with
  | nil => exact ⟨rfl, represents⟩
  | cons request rest ih =>
      have first := represents.serve (admissible request List.mem_cons_self) request.1
      obtain ⟨responses, last⟩ := ih first.represents fun other later =>
        admissible other (List.mem_cons_of_mem _ later)
      exact ⟨congrArg₂ List.cons first.response responses, last⟩

/-- A request leaves the store alone, or changes what stands under the path of its record. -/
theorem serve_cases (records : Records) (now : UInt64) (request : Request) :
    (records.serve now request).2 = records ∨
    (∃ key condition bytes, request = .writeKey key condition ∧
      (records.serve now request).2 = records.putKey key bytes) ∨
    (∃ volume bucket name condition, request = .deleteKey volume bucket name condition ∧
      (records.serve now request).2 = records.dropKey (keyPath volume bucket name)) ∨
    ∃ bucket bytes, request.bucket? = some (bucket.volume, bucket.name) ∧
      (request.Admissible → Plain bucket.volume) ∧
      (records.serve now request).2 = records.putBucket bucket bytes := by
  cases request with
  | readKey volume bucket name =>
      rw [serve]
      cases records.readKey now volume bucket name <;> exact .inl rfl
  | readBucket volume name =>
      rw [serve]
      cases records.readBucket now volume name <;> exact .inl rfl
  | listKeys => exact .inl rfl
  | writeKey key condition =>
      rw [serve]
      cases written : records.writeKey key condition with
      | error cause => exact .inl rfl
      | ok after =>
          obtain ⟨bytes, _, _, rfl⟩ := writeKey_eq_ok_iff.1 written
          exact .inr (.inl ⟨key, condition, bytes, rfl, rfl⟩)
  | deleteKey volume bucket name condition =>
      rw [serve]
      cases removed : records.takeKey volume bucket name condition with
      | error cause => exact .inl rfl
      | ok taken =>
          obtain ⟨current, after⟩ := taken
          obtain ⟨_, rfl, rfl⟩ := takeKey_eq_ok_iff.1 removed
          refine .inr (.inr (.inl ⟨volume, bucket, name, condition, rfl, ?_⟩))
          dsimp only [respond]
          split <;> rfl
  | writeBucket bucket condition =>
      rw [serve]
      cases written : records.writeBucket bucket condition with
      | error cause => exact .inl rfl
      | ok after =>
          obtain ⟨bytes, _, _, rfl⟩ := writeBucket_eq_ok_iff.1 written
          exact .inr (.inr (.inr ⟨bucket, bytes, rfl, And.right, rfl⟩))
  | createBucket bucket =>
      rw [serve]
      cases written : records.createBucket bucket with
      | error cause => exact .inl rfl
      | ok after =>
          obtain ⟨bytes, _, _, rfl⟩ := createBucket_eq_ok_iff.1 written
          exact .inr (.inr (.inr ⟨bucket, bytes, rfl, And.right, rfl⟩))

/-- A request leaves alone what stands under the names of other keys. -/
theorem keys_serve_of_ne {request : Request} (admissible : request.Admissible)
    {volume bucket name : String} (plain : Plain volume) (plainBucket : Plain bucket)
    (other : request.key? ≠ some (volume, bucket, name)) (now : UInt64) :
    (records.serve now request).2.keys.get? (keyPath volume bucket name) =
      records.keys.get? (keyPath volume bucket name) := by
  rcases records.serve_cases now request with same | ⟨key, condition, bytes, rfl, after⟩ |
    ⟨volume', bucket', name', condition, rfl, after⟩ | ⟨changed, bytes, -, -, after⟩
  · rw [same]
  · obtain ⟨-, plain', plainBucket'⟩ := admissible
    rw [after, putKey, Dictionary.get?_insert, if_neg]
    intro same
    obtain ⟨rfl, rfl, rfl⟩ := keyPath_inj plain plain' plainBucket plainBucket' same
    exact other rfl
  · obtain ⟨plain', plainBucket'⟩ := admissible
    rw [after, dropKey, Dictionary.get?_erase, if_neg]
    intro same
    obtain ⟨rfl, rfl, rfl⟩ := keyPath_inj plain plain' plainBucket plainBucket' same
    exact other rfl
  · rw [after, putBucket]

/-- A request leaves alone what stands under the names of other buckets. -/
theorem buckets_serve_of_ne {request : Request} (admissible : request.Admissible)
    {volume name : String} (plain : Plain volume) (other : request.bucket? ≠ some (volume, name))
    (now : UInt64) :
    (records.serve now request).2.buckets.get? (bucketPath volume name) =
      records.buckets.get? (bucketPath volume name) := by
  rcases records.serve_cases now request with same | ⟨key, condition, bytes, rfl, after⟩ |
    ⟨volume', bucket', name', condition, rfl, after⟩ | ⟨changed, bytes, named, plain', after⟩
  · rw [same]
  · rw [after, putKey]
  · rw [after, dropKey]
  · rw [after, putBucket, Dictionary.get?_insert, if_neg]
    intro same
    obtain ⟨rfl, rfl⟩ := bucketPath_inj plain (plain' admissible) same
    exact other named

/-- Under plain names the store is a map from names to records: every response is the
registry's, a request changes nothing under another name, and a key is read under its own. -/
theorem isolated (requests : List (UInt64 × Request))
    (admissible : ∀ request ∈ requests, request.2.Admissible) :
    (empty.serveAll requests).1 = (Registry.empty.serveAll (requests.map (·.2))).1 ∧
    (∀ (now : UInt64) (request : Request), request.Admissible →
      (∀ volume bucket name, Plain volume → Plain bucket →
        request.key? ≠ some (volume, bucket, name) →
        ((empty.serveAll requests).2.serve now request).2.keys.get?
            (keyPath volume bucket name) =
          (empty.serveAll requests).2.keys.get? (keyPath volume bucket name)) ∧
      ∀ volume bucket, Plain volume → request.bucket? ≠ some (volume, bucket) →
        ((empty.serveAll requests).2.serve now request).2.buckets.get? (bucketPath volume bucket) =
          (empty.serveAll requests).2.buckets.get? (bucketPath volume bucket)) ∧
    ∀ now volume bucket name key, Plain volume → Plain bucket →
      (empty.serveAll requests).2.readKey now volume bucket name = .ok (some key) →
      key.volume = volume ∧ key.bucket = bucket ∧ key.name = name := by
  obtain ⟨responses, represents⟩ := represents_empty.serveAll admissible
  refine ⟨responses, fun now request allowed => ⟨?_, ?_⟩, ?_⟩
  · intro volume bucket name plain plainBucket other
    exact keys_serve_of_ne allowed plain plainBucket other now
  · intro volume bucket plain other
    exact buckets_serve_of_ne allowed plain other now
  · intro now volume bucket name key plain plainBucket read
    rw [represents.sound.readKey, represents.keys volume bucket name plain plainBucket] at read
    exact Registry.named_empty.serveAll _ _ _ _ _ (Except.ok.inj read)

/-- A draft of a key under given names. -/
def draftOf (volume bucket name : String) : KeyDraft :=
  { volume := some volume, bucket := some bucket, name := some name
    created := some 5, replication := some (.ratis 1) }

/-- A key that is built from such a draft. -/
def keyOf (volume bucket name : String) : KeyRecord :=
  { volume, bucket, name, fileName := "", owner := none, size := 0, created := 5, modified := 5
    replication := .ratis 1, encryption := none, checksum := none, isFile := false, acls := ⟨[]⟩
    metadata := .empty, tags := .empty, objectId := 0, parentId := 0, generation := 0
    expected := none, history := [] }

/-- Two keys of one bucket, of which the one is removed. -/
def filing : List (UInt64 × Request) :=
  [(1, .writeKey (keyOf "v" "b" "x") .absent), (2, .writeKey (keyOf "v" "b" "x/y") .absent),
    (3, .deleteKey "v" "b" "x" (.generation 0))]

set_option maxRecDepth 20000 in
/-- A key with a separator in its own name is read back under it. -/
theorem isolated_filing : ∃ key,
    (empty.serveAll filing).2.readKey 4 "v" "b" "x/y" = .ok (some key) ∧
      key.volume = "v" ∧ key.bucket = "b" ∧ key.name = "x/y" ∧
      (empty.serveAll filing).1 = (Registry.empty.serveAll (filing.map (·.2))).1 := by
  have built : ∀ name, name = "x" ∨ name = "x/y" → (keyOf "v" "b" name).Built := by
    rintro _ (rfl | rfl)
    · exact ⟨draftOf "v" "b" "x", 0, fun _ member => absurd member List.not_mem_nil, rfl⟩
    · exact ⟨draftOf "v" "b" "x/y", 0, fun _ member => absurd member List.not_mem_nil, rfl⟩
  have plain : Plain "v" ∧ Plain "b" := by decide
  have admissible : ∀ request ∈ filing, request.2.Admissible := by
    simp only [filing, List.forall_mem_cons]
    exact ⟨⟨built _ (.inl rfl), plain⟩, ⟨built _ (.inr rfl), plain⟩, plain,
      fun _ member => absurd member List.not_mem_nil⟩
  obtain ⟨responses, -, named⟩ := isolated filing admissible
  have found : ((empty.serveAll filing).2.readKey 4 "v" "b" "x/y").toOption =
      some (some { keyOf "v" "b" "x/y" with fileName := "y" }) := by
    decide +kernel
  cases read : (empty.serveAll filing).2.readKey 4 "v" "b" "x/y" with
  | error cause =>
      rw [read] at found
      cases found
  | ok key =>
      rw [read] at found
      cases found
      obtain ⟨volume, bucket, name⟩ := named 4 "v" "b" "x/y" _ plain.1 plain.2 read
      exact ⟨_, rfl, volume, bucket, name, responses⟩

set_option maxRecDepth 20000 in
/-- A key that was written in one bucket is read in another one, where it stands in the way of a
key of that bucket: both names have one path. -/
theorem not_isolated :
    (keyOf "a/b" "c" "d").Built ∧ (keyOf "a" "b" "c/d").Built ∧
    (empty.serveAll
      [(1, .writeKey (keyOf "a/b" "c" "d") .absent), (2, .readKey "a" "b" "c/d"),
        (3, .writeKey (keyOf "a" "b" "c/d") .absent)]).1 =
      [.done, .key (some { keyOf "a/b" "c" "d" with fileName := "d" }),
        .refused (.concurrent "/a/b/c/d" none (some 0))] ∧
    (Registry.empty.serveAll
      [.writeKey (keyOf "a/b" "c" "d") .absent, .readKey "a" "b" "c/d",
        .writeKey (keyOf "a" "b" "c/d") .absent]).1 = [.done, .key none, .done] := by
  refine ⟨⟨draftOf "a/b" "c" "d", 0, fun _ member => absurd member List.not_mem_nil, rfl⟩,
    ⟨draftOf "a" "b" "c/d", 0, fun _ member => absurd member List.not_mem_nil, rfl⟩, ?_, ?_⟩
  · decide +kernel
  · decide +kernel

end Records

end ObjectLedger
