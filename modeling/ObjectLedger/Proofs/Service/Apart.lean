import ObjectLedger.Proofs.Service.Call
import ObjectLedger.Service.Commit

/-! # What has nothing to do with quotas

Only the check of a commit compares anything with a quota. Every other action fails for a quota
only if a call is refused with such an error, and of the actions that make up an operation only
those that create or charge a bucket write one (`Action.Apart`). That an action is apart follows
from its parts being apart.
-/

namespace ObjectLedger

/-- An error that reports growth beyond a quota. -/
def StoreError.OfQuota : StoreError → Prop
  | .record (.quotaExceeded ..) => True
  | _ => False

/-- Some call is refused with an error. -/
def Outages.Injects (outages : Outages) (cause : StoreError) : Prop :=
  ∃ method call, outages.schedule method call = .fail cause

/-- A fault reports no quota, unless some call is refused with the report. -/
def Fault.Apart (fault : Fault) (outages : Outages) : Prop :=
  ∀ cause, fault = .error cause → cause.OfQuota → outages.Injects cause

/-- An error that reports no quota is apart under every schedule. -/
theorem Fault.apart_of_not {cause : StoreError} (plain : ¬ cause.OfQuota) (outages : Outages) :
    (Fault.error cause).Apart outages := by
  rintro _ ⟨⟩ ofQuota
  exact (plain ofQuota).elim

/-- Only the schedule of the outages matters, not how far it was followed. -/
theorem Fault.Apart.of_schedule {fault : Fault} {outages other : Outages}
    (apart : fault.Apart outages) (same : outages.schedule = other.schedule) :
    fault.Apart other := by
  intro cause failed ofQuota
  obtain ⟨method, call, injected⟩ := apart cause failed ofQuota
  exact ⟨method, call, same ▸ injected⟩

/-- The schedule of outages is the same, and if buckets are kept, all that is stored of them. -/
structure Service.Apart (keeps : Prop) (before after : Service) : Prop where
  schedule : after.outages.schedule = before.outages.schedule
  buckets : keeps → after.records.buckets = before.records.buckets

theorem Service.Apart.refl (keeps : Prop) (service : Service) : service.Apart keeps service :=
  ⟨rfl, fun _ => rfl⟩

theorem Service.Apart.trans {keeps : Prop} {before middle after : Service}
    (first : before.Apart keeps middle) (second : middle.Apart keeps after) :
    before.Apart keeps after :=
  ⟨second.schedule.trans first.schedule,
    fun kept => (second.buckets kept).trans (first.buckets kept)⟩

/-- Where the records stand still, the buckets are kept. -/
theorem Service.Still.apart {before after : Service} (still : before.Still after) (keeps : Prop) :
    before.Apart keeps after :=
  ⟨still.schedule, fun _ => congrArg Records.buckets still.records⟩

namespace Records

/-! ## Errors of the store -/

/-- A condition that is not met is reported as a conflict. -/
theorem check_plain {condition : Precondition} {name : String} {current : Option Stored}
    {cause : StoreError} (failed : condition.check name current = .error cause) :
    ¬ cause.OfQuota := by
  cases condition with
  | unconditional => cases failed
  | absent =>
      simp only [Precondition.check] at failed
      split at failed <;> cases failed
      exact id
  | generation expected =>
      simp only [Precondition.check] at failed
      split at failed <;> cases failed
      exact id

/-- Frames that cannot be read or written are reported as such. -/
theorem codec_plain {α : Type} {result : Except CodecError α} {cause : StoreError}
    (failed : result.mapError .codec = .error cause) : ¬ cause.OfQuota := by
  cases result with
  | ok value => cases failed
  | error other =>
      cases failed
      exact id

theorem readKey_plain {records : Records} {now : UInt64} {volume bucket key : String}
    {cause : StoreError} (failed : records.readKey now volume bucket key = .error cause) :
    ¬ cause.OfQuota := by
  unfold readKey at failed
  split at failed
  · cases failed
  · rename_i stored _
    cases decoded : KeyRecord.ofPersisted stored.bytes now with
    | ok record => rw [decoded] at failed; cases failed
    | error other =>
        rw [decoded] at failed
        cases failed
        exact id

theorem readBucket_plain {records : Records} {now : UInt64} {volume bucket : String}
    {cause : StoreError} (failed : records.readBucket now volume bucket = .error cause) :
    ¬ cause.OfQuota := by
  unfold readBucket at failed
  split at failed
  · cases failed
  · rename_i stored _
    cases decoded : BucketRecord.ofPersisted stored.bytes now with
    | ok record => rw [decoded] at failed; cases failed
    | error other =>
        rw [decoded] at failed
        cases failed
        exact id

/-- Writing a key compares nothing with a quota, which is left to its commit. -/
theorem writeKey_plain {records : Records} {key : KeyRecord} {condition : Precondition}
    {cause : StoreError} (failed : records.writeKey key condition = .error cause) :
    ¬ cause.OfQuota := by
  unfold writeKey at failed
  rcases bind_eq_error_iff.1 failed with unwritten | ⟨bytes, -, rest⟩
  · exact codec_plain unwritten
  · rcases bind_eq_error_iff.1 rest with refused | ⟨_, -, never⟩
    · exact check_plain refused
    · cases never

/-- A bucket is written whatever its usage and its quotas say. -/
theorem writeBucket_plain {records : Records} {bucket : BucketRecord} {condition : Precondition}
    {cause : StoreError} (failed : records.writeBucket bucket condition = .error cause) :
    ¬ cause.OfQuota := by
  unfold writeBucket at failed
  rcases bind_eq_error_iff.1 failed with unwritten | ⟨bytes, -, rest⟩
  · exact codec_plain unwritten
  · rcases bind_eq_error_iff.1 rest with refused | ⟨_, -, never⟩
    · exact check_plain refused
    · cases never

theorem takeKey_plain {records : Records} {volume bucket key : String} {condition : Precondition}
    {cause : StoreError} (failed : records.takeKey volume bucket key condition = .error cause) :
    ¬ cause.OfQuota := by
  unfold takeKey at failed
  rcases bind_eq_error_iff.1 failed with refused | ⟨_, -, never⟩
  · exact check_plain refused
  · cases never

end Records

/-- An allocation fails for its replication, or overflows. -/
theorem Allocator.allocate_apart {allocator after : Allocator} {replication : Replication}
    {count : Nat} {size : UInt64} {fault : Fault}
    (failed : allocator.allocate replication count size = (.error fault, after))
    (outages : Outages) : fault.Apart outages := by
  unfold allocate at failed
  split at failed
  · cases failed
    exact Fault.apart_of_not id outages
  · split at failed <;> cases failed
    exact nofun

namespace Action

open Service

variable {α β : Type} {keeps : Prop}

/-- Wherever an action is run, the schedule stays, and the buckets if they are kept, and a fault
reports no quota. -/
def Apart (keeps : Prop) (action : Action α) : Prop :=
  ∀ before, action.Ensures before (fun _ after => before.Apart keeps after)
    (fun fault after => before.Apart keeps after ∧ fault.Apart before.outages)

/-- What is done next is apart from where it started. -/
theorem Apart.after {action : Action α} (apart : action.Apart keeps) {before middle : Service}
    (first : before.Apart keeps middle) :
    action.Ensures middle (fun _ after => before.Apart keeps after)
      (fun fault after => before.Apart keeps after ∧ fault.Apart before.outages) :=
  (apart middle).mono (fun _ _ second => first.trans second) fun _ _ known =>
    ⟨first.trans known.1, known.2.of_schedule first.schedule⟩

/-- Actions that are apart can be run one after the other. -/
theorem Apart.bind {first : Action α} {next : α → Action β} (apart : first.Apart keeps)
    (follows : ∀ value, (next value).Apart keeps) : (first >>= next).Apart keeps :=
  fun before => (apart before).bind fun value _ known => (follows value).after known

/-! ## Parts of actions -/

theorem apart_pure (value : α) : (pure value : Action α).Apart keeps := Apart.refl keeps

/-- Failing is apart unless the error reports a quota. -/
theorem apart_fail {cause : StoreError} (plain : ¬ cause.OfQuota) :
    (fail cause : Action α).Apart keeps :=
  fun before => ⟨Apart.refl keeps before, Fault.apart_of_not plain before.outages⟩

/-- An answer of the store is apart if none of its errors reports a quota. -/
theorem apart_ofStore {result : Except StoreError α}
    (plain : ∀ cause, result = .error cause → ¬ cause.OfQuota) : (ofStore result).Apart keeps := by
  cases result with
  | ok value => exact apart_pure value
  | error cause => exact apart_fail (plain cause rfl)

/-- A result of editing a record is apart if none of its errors reports a quota. -/
theorem apart_ofRecord {result : Except RecordError α}
    (plain : ∀ cause, result = .error cause → ¬ (StoreError.record cause).OfQuota) :
    (ofRecord result).Apart keeps := by
  cases result with
  | ok value => exact apart_pure value
  | error cause => exact apart_fail (plain cause rfl)

/-- An overflow is no error. -/
theorem apart_ofWord (result : Except Overflow α) : (ofWord result).Apart keeps := by
  cases result with
  | ok value => exact apart_pure value
  | error cause => exact fun before => ⟨Apart.refl keeps before, nofun⟩

theorem apart_now : now.Apart keeps := fun _ => ⟨rfl, fun _ => rfl⟩

theorem apart_takeSession : takeSession.Apart keeps := fun _ => ⟨rfl, fun _ => rfl⟩

theorem apart_takeObjectId : takeObjectId.Apart keeps := fun _ => ⟨rfl, fun _ => rfl⟩

theorem apart_get : (get : Action Service).Apart keeps := Apart.refl keeps

/-- A call is apart if what it does when it goes through is. -/
theorem apart_call {method : Method} {action : Action α} (apart : action.Apart keeps) :
    (call method action).Apart keeps := by
  intro before
  have counted : before.Apart keeps (before.counted method) := ⟨rfl, fun _ => rfl⟩
  refine ensures_call (fun cause refused => ⟨counted, ?_⟩) (apart.after counted)
  rintro _ ⟨⟩ -
  exact ⟨method, _, refused⟩

/-- A change of the records is apart if it keeps the buckets and its errors report no quota. -/
theorem apart_changeRecords {change : Records → Except StoreError Records}
    (kept : keeps → ∀ records after, change records = .ok after → after.buckets = records.buckets)
    (plain : ∀ records cause, change records = .error cause → ¬ cause.OfQuota) :
    (changeRecords change).Apart keeps := by
  refine fun before => ensures_changeRecords.mono ?_ ?_
  · rintro _ after ⟨records, changed, rfl⟩
    exact ⟨rfl, fun keeping => kept keeping _ _ changed⟩
  · rintro fault after ⟨rfl, cause, rfl, failed⟩
    exact ⟨Apart.refl keeps _, Fault.apart_of_not (plain _ _ failed) _⟩

/-! ## Calls -/

theorem apart_readKey (volume bucket key : String) : (readKey volume bucket key).Apart keeps :=
  apart_call <| apart_now.bind fun _ => apart_get.bind fun _ =>
    apart_ofStore fun _ failed => Records.readKey_plain failed

theorem apart_readBucket (volume bucket : String) : (readBucket volume bucket).Apart keeps :=
  apart_call <| apart_now.bind fun _ => apart_get.bind fun _ =>
    apart_ofStore fun _ failed => Records.readBucket_plain failed

theorem apart_writeKey (key : KeyRecord) (condition : Precondition) :
    (writeKey key condition).Apart keeps := by
  refine apart_call (apart_changeRecords (fun _ records after written => ?_)
    fun _ _ failed => Records.writeKey_plain failed)
  obtain ⟨bytes, -, -, rfl⟩ := Records.writeKey_eq_ok_iff.1 written
  rfl

/-- Writing a bucket reports no quota. -/
theorem apart_writeBucket (bucket : BucketRecord) (condition : Precondition) :
    (writeBucket bucket condition).Apart False :=
  apart_call (apart_changeRecords False.elim fun _ _ failed => Records.writeBucket_plain failed)

theorem apart_deleteKey (volume bucket key : String) (condition : Precondition) :
    (deleteKey volume bucket key condition).Apart keeps := by
  refine apart_call fun before => ensures_get_bind <| ensures_ofStore_bind (fun taken took => ?_)
    fun cause failed =>
      ⟨Apart.refl keeps before, Fault.apart_of_not (Records.takeKey_plain failed) _⟩
  obtain ⟨removed, records⟩ := taken
  obtain ⟨-, -, rfl⟩ := Records.takeKey_eq_ok_iff.1 took
  have decoded : ∀ time, (removed.mapM fun stored : Stored =>
      ofStore ((KeyRecord.ofPersisted stored.bytes time).mapError .codec)).Apart keeps := by
    intro time
    cases removed with
    | none => exact apart_pure none
    | some stored =>
        exact (apart_ofStore fun _ failed => Records.codec_plain failed).bind
          fun record => apart_pure (some record)
  exact ensures_set_bind ((apart_now.bind decoded).after ⟨rfl, fun _ => rfl⟩)

/-- Asking for blocks keeps the buckets, whatever the allocator answers. -/
theorem apart_allocateBlocks (replication : Replication) (count : Nat) (size : UInt64) :
    (allocateBlocks replication count size).Apart keeps := by
  intro before
  have asked : (verdict .allocateBlocks).Ensures before
      (fun answer after => after = before.counted .allocateBlocks ∧
        answer = before.outages.next .allocateBlocks)
      (fun fault after => before.Apart keeps after ∧ fault.Apart before.outages) := ⟨rfl, rfl⟩
  have counted : before.Apart keeps (before.counted .allocateBlocks) := ⟨rfl, fun _ => rfl⟩
  refine asked.bind fun answer middle known => ?_
  obtain ⟨rfl, given⟩ := known
  cases answer with
  | fail cause =>
      refine ensures_fail ⟨counted, ?_⟩
      rintro _ ⟨⟩ -
      exact ⟨.allocateBlocks, _, given.symm⟩
  | empty => exact counted
  | pass =>
      refine ensures_get_bind ?_
      rcases allocated : (before.counted .allocateBlocks).allocator.allocate replication count
        size with ⟨fault | blocks, allocator⟩
      · exact ⟨⟨rfl, fun _ => rfl⟩, Allocator.allocate_apart allocated _⟩
      · exact ⟨rfl, fun _ => rfl⟩

theorem apart_deleteBlocks (blocks : List Block) : (deleteBlocks blocks).Apart keeps :=
  apart_call fun _ => ⟨rfl, fun _ => rfl⟩

/-! ## Operations on buckets and keys -/

/-- A bucket that must be there is read, or reported as missing. -/
theorem apart_requireBucket (volume bucket : String) :
    (requireBucket volume bucket).Apart keeps := by
  refine (apart_readBucket volume bucket).bind fun found => ?_
  cases found with
  | some record => exact apart_pure record
  | none => exact apart_fail id

/-- A link is followed by reading buckets alone. -/
theorem apart_resolveBucket (volume bucket : String) :
    (resolveBucket volume bucket).Apart keeps := by
  refine (apart_requireBucket volume bucket).bind fun record => ?_
  cases record.source? with
  | none => exact apart_pure record
  | some target =>
      refine (apart_requireBucket target.1 target.2).bind fun source => ?_
      cases source.isLink with
      | true => exact apart_fail id
      | false => exact apart_pure source

/-- Drawing a generation moves the counter, or overflows. -/
theorem apart_generationAbove (current : UInt64) : (generationAbove current).Apart keeps := by
  have taken : takeGeneration.Apart keeps := fun _ => ⟨rfl, fun _ => rfl⟩
  refine taken.bind fun candidate => (apart_ofWord _).bind fun above =>
    (apart_ofWord _).bind fun following => ?_
  exact fun _ => ⟨rfl, fun _ => rfl⟩

/-- Making up a key for a request writes nothing. -/
theorem apart_newKey (request : OpenRequest) (bucket : BucketRecord) (replication : Replication) :
    (newKey request bucket replication).Apart keeps := by
  refine apart_takeObjectId.bind fun objectId => apart_now.bind fun time => ?_
  dsimp only
  split
  · exact apart_fail id
  · exact apart_pure _

/-- Opening goes on with a private copy of the key that was found, or of a new one. -/
theorem apart_privateCopy_bind (request : OpenRequest) (bucket : BucketRecord)
    (replication : Replication) (previous : Option KeyRecord) {next : KeyRecord → Action α}
    (follows : ∀ key, (next key).Apart keeps) :
    Apart keeps (match previous with
      | some existing => pure (reopened existing replication request.acls) >>= next
      | none => newKey request bucket replication >>= next) := by
  cases previous with
  | some existing => exact (apart_pure _).bind follows
  | none => exact (apart_newKey _ _ _).bind follows

/-- Opening a key checks no quota and writes no bucket. -/
theorem apart_openKey (settings : Settings) (request : OpenRequest) :
    (openKey settings request).Apart keeps := by
  refine (apart_resolveBucket _ _).bind fun bucket => (apart_readKey _ _ _).bind fun previous => ?_
  refine apart_privateCopy_bind request bucket _ previous fun copy => ?_
  exact (apart_allocateBlocks _ _ _).bind fun blocks => apart_now.bind fun time =>
    (apart_ofWord _).bind fun added => apart_takeSession.bind fun id => apart_pure _

/-- Allocating one more block to a session checks no quota and writes no bucket. -/
theorem apart_allocateBlock (settings : Settings) (session : Session) :
    (allocateBlock settings session).Apart keeps := by
  refine (apart_allocateBlocks _ _ _).bind fun blocks => ?_
  cases blocks.getLast? with
  | none => exact apart_fail id
  | some block =>
      refine apart_now.bind fun time => (apart_ofRecord fun cause failed => ?_).bind
        fun key => apart_pure _
      unfold KeyRecord.appendBlocks at failed
      split at failed <;> cases failed
      exact id

/-- Moving a key on to a new generation writes nothing. -/
theorem apart_advanced (key : KeyRecord) : (advanced key).Apart keeps := by
  refine (apart_generationAbove _).bind fun generation =>
    (apart_ofRecord fun cause failed => ?_).bind fun key => apart_pure _
  unfold KeyRecord.advanceGeneration at failed
  split at failed <;> cases failed
  exact id

/-- Undoing the write of a key writes no bucket. -/
theorem apart_rollBack (key : KeyRecord) (previous : Option KeyRecord) :
    (rollBack key previous).Apart keeps := by
  cases previous with
  | some old => exact apart_writeKey old _
  | none => exact (apart_deleteKey _ _ _ _).bind fun _ => apart_pure ()

/-! ## Charging a bucket -/

/-- What an attempt of an action fails with reports no quota. -/
theorem Apart.attempt {action : Action α} (apart : action.Apart keeps) (before : Service) :
    (Action.attempt action).Ensures before
      (fun result after => before.Apart keeps after ∧
        ∀ cause, result = .error cause → (Fault.error cause).Apart before.outages)
      (fun fault after => before.Apart keeps after ∧ fault.Apart before.outages) := by
  refine (apart before).attempt _ (fun _ _ known => ⟨known, nofun⟩) ?_ fun _ _ known => known
  rintro cause after ⟨known, plain⟩
  refine ⟨known, ?_⟩
  rintro _ ⟨⟩
  exact plain

/-- One attempt to charge a bucket is apart, and so is the error that it is given up with. -/
theorem apart_tryUsage (volume bucket : String) (bytes keys : Int64) (before : Service) :
    (tryUsage volume bucket bytes keys).Ensures before
      (fun result after => before.Apart False after ∧
        ∀ cause, result = .error cause → (Fault.error cause).Apart before.outages)
      (fun fault after => before.Apart False after ∧ fault.Apart before.outages) := by
  refine ((apart_resolveBucket volume bucket) before).bind fun record first known => ?_
  refine ((apart_generationAbove record.updateId).after known).bind fun updateId second known => ?_
  refine (apart_now.after known).bind fun time third known => ?_
  refine ((apart_writeBucket _ _).attempt third).mono (fun result after written => ?_)
    fun fault after failed => ⟨known.trans failed.1, failed.2.of_schedule known.schedule⟩
  exact ⟨known.trans written.1, fun cause failed =>
    (written.2 cause failed).of_schedule known.schedule⟩

/-- However often charging a bucket is attempted, no quota is checked. -/
theorem apart_updateUsage (volume bucket : String) (bytes keys : Int64) (more : Nat) :
    (updateUsage volume bucket bytes keys more).Apart False := by
  induction more with
  | zero =>
      refine fun before => (apart_tryUsage volume bucket bytes keys before).bind
        fun result after known => ?_
      cases result with
      | ok _ => exact known.1
      | error cause => exact ⟨known.1, known.2 cause rfl⟩
  | succ more ih =>
      refine fun before => (apart_tryUsage volume bucket bytes keys before).bind
        fun result middle known => ?_
      cases result with
      | ok _ => exact known.1
      | error cause =>
          dsimp only
          split
          · exact ih.after known.1
          · exact ensures_fail ⟨known.1, known.2 cause rfl⟩

/-- Charging a bucket checks no quota: the commit has done so before it wrote its key. -/
theorem apart_chargeUsage (settings : Settings) (volume bucket : String) (bytes keys : Int64) :
    (chargeUsage settings volume bucket bytes keys).Apart False :=
  apart_updateUsage volume bucket bytes keys _

end Action

end ObjectLedger
