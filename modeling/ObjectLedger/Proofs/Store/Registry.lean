import Mathlib.Logic.Function.Basic
import ObjectLedger.Proofs.Store.Records

/-! # Requests to the store and the registry they stand for

A store serves requests one after the other (`Records.serveAll`). The registry says what the
responses have to be: it holds the keys of each bucket by their names and the buckets by volume and
name, and knows of no paths (`Registry.serve`).
-/

namespace ObjectLedger

/-- A request to the store. -/
inductive Request where
  | readKey (volume bucket name : String)
  | writeKey (key : KeyRecord) (condition : Precondition)
  | deleteKey (volume bucket name : String) (condition : Precondition)
  | listKeys (volume bucket start : String)
  | readBucket (volume name : String)
  | writeBucket (bucket : BucketRecord) (condition : Precondition)
  | createBucket (bucket : BucketRecord)

/-- What a request is answered. -/
inductive Response where
  | done
  | key (found : Option KeyRecord)
  | names (names : List String)
  | bucket (found : Option BucketRecord)
  | refused (cause : StoreError)
deriving DecidableEq

/-! ## The store -/

namespace Records

/-- A result that is accepted, or the refusal that leaves the store alone. -/
def respond {α : Type} (records : Records) (result : Except StoreError α)
    (accept : α → Response × Records) : Response × Records :=
  match result with
  | .ok value => accept value
  | .error cause => (.refused cause, records)

/-- The response to a request at a time, and the store after it. -/
def serve (records : Records) (now : UInt64) : Request → Response × Records
  | .readKey volume bucket name =>
    records.respond (records.readKey now volume bucket name) fun found => (.key found, records)
  | .writeKey key condition =>
    records.respond (records.writeKey key condition) fun after => (.done, after)
  | .deleteKey volume bucket name condition =>
    records.respond (records.takeKey volume bucket name condition) fun (removed, after) =>
      after.respond
        (removed.mapM fun stored => (KeyRecord.ofPersisted stored.bytes now).mapError .codec)
        fun found => (.key found, after)
  | .listKeys volume bucket start => (.names (records.listKeys volume bucket start), records)
  | .readBucket volume name =>
    records.respond (records.readBucket now volume name) fun found => (.bucket found, records)
  | .writeBucket bucket condition =>
    records.respond (records.writeBucket bucket condition) fun after => (.done, after)
  | .createBucket bucket =>
    records.respond (records.createBucket bucket) fun after => (.done, after)

/-- The responses to requests at their times, and the store after them. -/
def serveAll (records : Records) : List (UInt64 × Request) → List Response × Records
  | [] => ([], records)
  | (now, request) :: rest =>
    let (response, after) := records.serve now request
    let (responses, last) := after.serveAll rest
    (response :: responses, last)

end Records

/-! ## The registry -/

/-- A condition admits a generation, or the absence of one. -/
def Precondition.Admits (condition : Precondition) (generation : Option UInt64) : Prop :=
  match condition with
  | .unconditional => True
  | .absent => generation = none
  | .generation expected => generation = some expected

instance (condition : Precondition) : DecidablePred condition.Admits := fun generation =>
  match condition with
  | .unconditional => inferInstanceAs (Decidable True)
  | .absent => inferInstanceAs (Decidable (generation = none))
  | .generation expected => inferInstanceAs (Decidable (generation = some expected))

/-- The generation that a condition names. -/
def Precondition.expected? : Precondition → Option UInt64
  | .generation expected => some expected
  | _ => none

/-- A check goes through exactly if the condition admits what is stored. -/
theorem Precondition.check_eq (condition : Precondition) (name : String)
    (current : Option Stored) :
    condition.check name current =
      if condition.Admits (current.map (·.generation)) then .ok ()
      else .error (.concurrent name condition.expected? (current.map (·.generation))) := by
  cases condition with
  | unconditional => rfl
  | absent => rfl
  | generation expected => rfl

/-- Keys and buckets by their names. -/
structure Registry where
  /-- The keys of the bucket of a volume and a name. -/
  keys : String × String → Dictionary KeyRecord
  buckets : String × String → Option BucketRecord

namespace Registry

def empty : Registry := ⟨fun _ => .empty, fun _ => none⟩

def keyNamed (registry : Registry) (volume bucket name : String) : Option KeyRecord :=
  (registry.keys (volume, bucket)).get? name

def putKey (registry : Registry) (key : KeyRecord) : Registry :=
  { registry with
    keys := Function.update registry.keys (key.volume, key.bucket)
      ((registry.keys (key.volume, key.bucket)).insert key.name key) }

def dropKey (registry : Registry) (volume bucket name : String) : Registry :=
  { registry with
    keys := Function.update registry.keys (volume, bucket)
      ((registry.keys (volume, bucket)).erase name) }

def putBucket (registry : Registry) (bucket : BucketRecord) : Registry :=
  { registry with
    buckets := Function.update registry.buckets (bucket.volume, bucket.name) (some bucket) }

/-- A change that needs a frame of its record. -/
def framed (registry : Registry) (frame : Except CodecError (List UInt8))
    (accepted : Response × Registry) : Response × Registry :=
  match frame with
  | .ok _ => accepted
  | .error cause => (.refused (.codec cause), registry)

/-- A change that goes through exactly if its condition admits what is there. -/
def guarded (registry : Registry) (condition : Precondition) (path : String)
    (current : Option UInt64) (accepted : Response × Registry) : Response × Registry :=
  if condition.Admits current then accepted
  else (.refused (.concurrent path condition.expected? current), registry)

/-- The response to a request, and the registry after it. A key is kept as it is stored. -/
def serve (registry : Registry) : Request → Response × Registry
  | .readKey volume bucket name => (.key (registry.keyNamed volume bucket name), registry)
  | .writeKey key condition =>
    registry.framed key.persist <|
      registry.guarded condition (keyPath key.volume key.bucket key.name)
        ((registry.keyNamed key.volume key.bucket key.name).map (·.generation))
        (.done, registry.putKey key.asStored)
  | .deleteKey volume bucket name condition =>
    registry.guarded condition (keyPath volume bucket name)
      ((registry.keyNamed volume bucket name).map (·.generation))
      (.key (registry.keyNamed volume bucket name), registry.dropKey volume bucket name)
  | .listKeys volume bucket start =>
    (.names ((registry.keys (volume, bucket)).keys.filter fun name =>
      start.toList.isPrefixOf name.toList), registry)
  | .readBucket volume name => (.bucket (registry.buckets (volume, name)), registry)
  | .writeBucket bucket condition =>
    registry.framed bucket.persist <|
      registry.guarded condition (bucketPath bucket.volume bucket.name)
        ((registry.buckets (bucket.volume, bucket.name)).map (·.updateId))
        (.done, registry.putBucket bucket)
  | .createBucket bucket =>
    registry.framed bucket.persist <|
      if (registry.buckets (bucket.volume, bucket.name)).isSome then
        (.refused (.bucketExists bucket.volume bucket.name), registry)
      else (.done, registry.putBucket bucket)

/-- The responses to requests, and the registry after them. -/
def serveAll (registry : Registry) : List Request → List Response × Registry
  | [] => ([], registry)
  | request :: rest =>
    let (response, after) := registry.serve request
    let (responses, last) := after.serveAll rest
    (response :: responses, last)

variable {registry : Registry}

/-- Filing a key changes the entry under its names, and no other. -/
theorem keyNamed_putKey (key : KeyRecord) (volume bucket name : String) :
    (registry.putKey key).keyNamed volume bucket name =
      if volume = key.volume ∧ bucket = key.bucket ∧ name = key.name then some key
      else registry.keyNamed volume bucket name := by
  unfold keyNamed putKey
  by_cases here : (volume, bucket) = (key.volume, key.bucket)
  · obtain ⟨rfl, rfl⟩ := Prod.mk.inj here
    simp only [Function.update_self, Dictionary.get?_insert, true_and]
  · have other : ¬ (volume = key.volume ∧ bucket = key.bucket ∧ name = key.name) :=
      fun same => here (Prod.ext same.1 same.2.1)
    simp only [Function.update_of_ne here, if_neg other]

/-- Striking a key clears the entry under its names, and no other. -/
theorem keyNamed_dropKey (volume' bucket' name' volume bucket name : String) :
    (registry.dropKey volume' bucket' name').keyNamed volume bucket name =
      if volume = volume' ∧ bucket = bucket' ∧ name = name' then none
      else registry.keyNamed volume bucket name := by
  unfold keyNamed dropKey
  by_cases here : (volume, bucket) = (volume', bucket')
  · obtain ⟨rfl, rfl⟩ := Prod.mk.inj here
    simp only [Function.update_self, Dictionary.get?_erase, true_and]
  · have other : ¬ (volume = volume' ∧ bucket = bucket' ∧ name = name') :=
      fun same => here (Prod.ext same.1 same.2.1)
    simp only [Function.update_of_ne here, if_neg other]

/-- Every key stands under its own name. -/
def Named (registry : Registry) : Prop :=
  ∀ volume bucket name key, registry.keyNamed volume bucket name = some key →
    key.volume = volume ∧ key.bucket = bucket ∧ key.name = name

theorem named_empty : empty.Named := by
  intro volume bucket name key found
  cases found

/-- A key is filed under its own names. -/
theorem Named.putKey (named : registry.Named) (key : KeyRecord) : (registry.putKey key).Named := by
  intro volume bucket name found seen
  rw [keyNamed_putKey] at seen
  split at seen
  · rename_i here
    cases seen
    exact ⟨here.1.symm, here.2.1.symm, here.2.2.symm⟩
  · exact named volume bucket name found seen

theorem Named.dropKey (named : registry.Named) (volume bucket name : String) :
    (registry.dropKey volume bucket name).Named := by
  intro volume' bucket' name' found seen
  rw [keyNamed_dropKey] at seen
  split at seen
  · cases seen
  · exact named volume' bucket' name' found seen

theorem Named.framed {frame : Except CodecError (List UInt8)} {accepted : Response × Registry}
    (named : registry.Named) (after : accepted.2.Named) :
    (registry.framed frame accepted).2.Named := by
  unfold Registry.framed
  split
  · exact after
  · exact named

theorem Named.guarded {condition : Precondition} {path : String} {current : Option UInt64}
    {accepted : Response × Registry} (named : registry.Named) (after : accepted.2.Named) :
    (registry.guarded condition path current accepted).2.Named := by
  unfold Registry.guarded
  split
  · exact after
  · exact named

/-- A request leaves every key under its own name. -/
theorem Named.serve (named : registry.Named) (request : Request) :
    (registry.serve request).2.Named := by
  cases request with
  | readKey | listKeys | readBucket => exact named
  | writeKey key condition => exact named.framed (named.guarded (named.putKey key.asStored))
  | deleteKey volume bucket name condition => exact named.guarded (named.dropKey volume bucket name)
  | writeBucket bucket condition =>
      have put : (registry.putBucket bucket).Named := named
      exact named.framed (named.guarded put)
  | createBucket bucket =>
      refine named.framed ?_
      split
      · exact named
      · exact named

/-- No requests misfile anything. -/
theorem Named.serveAll (named : registry.Named) (requests : List Request) :
    (registry.serveAll requests).2.Named := by
  induction requests generalizing registry with
  | nil => exact named
  | cons request rest ih => exact ih (named.serve request)

end Registry

end ObjectLedger
