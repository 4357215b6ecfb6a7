import ObjectLedger.Proofs.Bucket.RoundTrip
import ObjectLedger.Proofs.Service.Bucket
import ObjectLedger.Proofs.Store.Registry

/-! # Attempts at an update of usage

An update of usage calls the store to write the bucket once in every attempt, and nothing else that
it does writes a bucket (`Action.Quiet`). An attempt ends with the one write that goes through, or
with the cause for which the write was refused (`Action.ensures_tryUsage_write`). So an update makes
no more write calls than it is allowed attempts, every call but the last one is refused for a
conflict, and the usage is moved once if the update succeeds and not at all otherwise
(`Action.chargeUsage_once`).
-/

namespace ObjectLedger

/-- Valid settings allow an attempt. -/
theorem Settings.attempts_pos {settings : Settings} (valid : settings.validate = .ok ()) :
    0 < settings.usageAttempts.toNat := by
  refine Nat.pos_of_ne_zero fun none => ?_
  have zero : settings.usageAttempts = 0 := UInt32.toNat_inj.1 none
  unfold validate at valid
  simp only [zero, ↓reduceIte] at valid
  iterate 3
    split at valid
    · cases valid
  cases valid

/-! ## Stores that requests lead to -/

/-- The bucket that a request stores. -/
def Request.stored? : Request → Option BucketRecord
  | .writeBucket bucket _ | .createBucket bucket => some bucket
  | _ => none

namespace Records

variable {records : Records}

/-- What is answered does not touch the store, or stores what was accepted. -/
theorem respond_cases {α : Type} (holds : Records → Prop) (start : holds records)
    (result : Except StoreError α) (accept : α → Response × Records)
    (accepted : ∀ value, result = .ok value → holds (accept value).2) :
    holds (records.respond result accept).2 := by
  cases result with
  | ok value => exact accepted value rfl
  | error cause => exact start

/-- A request about a bucket that can be made keeps the buckets of a store sound. -/
theorem BucketsSound.serve (sound : records.BucketsSound) (now : UInt64) {request : Request}
    (made : ∀ bucket, request.stored? = some bucket → bucket.Made) :
    (records.serve now request).2.BucketsSound := by
  cases request with
  | readKey | readBucket => exact respond_cases BucketsSound sound _ _ fun _ _ => sound
  | listKeys => exact sound
  | writeKey key condition =>
      refine respond_cases BucketsSound sound _ _ fun after written => ?_
      obtain ⟨bytes, -, -, rfl⟩ := writeKey_eq_ok_iff.1 written
      exact ⟨sound.buckets⟩
  | deleteKey volume bucket name condition =>
      refine respond_cases BucketsSound sound _ _ fun (current, after) took => ?_
      obtain ⟨-, -, rfl⟩ := takeKey_eq_ok_iff.1 took
      have kept : (records.dropKey (keyPath volume bucket name)).BucketsSound := ⟨sound.buckets⟩
      exact respond_cases BucketsSound kept _ _ fun _ _ => kept
  | writeBucket bucket condition =>
      refine respond_cases BucketsSound sound _ _ fun after written => ?_
      obtain ⟨bytes, persisted, -, rfl⟩ := writeBucket_eq_ok_iff.1 written
      exact sound.putBucket (made bucket rfl).wellFormed persisted
  | createBucket bucket =>
      refine respond_cases BucketsSound sound _ _ fun after created => ?_
      obtain ⟨bytes, persisted, -, rfl⟩ := createBucket_eq_ok_iff.1 created
      exact sound.putBucket (made bucket rfl).wellFormed persisted

/-- Requests that store made buckets only keep the buckets readable. -/
theorem BucketsSound.serveAll (sound : records.BucketsSound) {requests : List (UInt64 × Request)}
    (made : ∀ entry ∈ requests, ∀ bucket, entry.2.stored? = some bucket → bucket.Made) :
    (records.serveAll requests).2.BucketsSound := by
  induction requests generalizing records with
  | nil => exact sound
  | cons entry rest ih =>
      obtain ⟨now, request⟩ := entry
      exact ih (sound.serve now (made _ List.mem_cons_self))
        fun other later => made other (List.mem_cons_of_mem _ later)

/-- The usage of the bucket that a name leads to was moved by deltas in one later update, and
nothing else was changed. -/
structure Charges (before after : Records) (volume name : String) (bytes keys : Int64)
    (home next : BucketRecord) : Prop where
  leads : before.resolve? volume name = some home
  stood : before.bucketAt (bucketPath home.volume home.name) = some home
  stands : after.bucketAt (bucketPath home.volume home.name) = some next
  moved : next = { home with
    usedBytes := home.usedBytes + bytes
    usedKeys := home.usedKeys + keys
    updateId := next.updateId
    modified := next.modified }
  later : home.updateId < next.updateId
  others : ∀ path, path ≠ bucketPath home.volume home.name →
    after.buckets.get? path = before.buckets.get? path
  keys : after.keys = before.keys

/-- A home that is written back with its counters moved is charged. -/
theorem BucketsSound.charges (sound : records.BucketsSound) {volume name : String}
    {home : BucketRecord} (leads : records.resolve? volume name = some home) (bytes keys : Int64)
    {updateId : UInt64} (above : home.updateId < updateId) (time : UInt64) {frame : List UInt8}
    (persisted : (home.moved bytes keys updateId time).persist = .ok frame) :
    records.Charges (records.putBucket (home.moved bytes keys updateId time) frame) volume name
      bytes keys home (home.moved bytes keys updateId time) where
  leads := leads
  stood := (sound.home_of_resolve leads).seen
  stands := by
    have wellFormed := ((sound.home_of_resolve leads).wellFormed sound).moved bytes keys updateId
    exact (bucketAt_putBucket (wellFormed time) persisted _).trans (if_pos rfl)
  moved := rfl
  later := above
  others path other := by
    unfold Records.putBucket
    rw [Dictionary.get?_insert]
    exact if_neg other
  keys := rfl

end Records

/-! ## Calls that write a bucket -/

instance (outages : Outages) (method : Method) (call : Nat) :
    Decidable (outages.Refuses method call) :=
  match given : outages.schedule method call with
  | .fail cause => .isTrue ⟨cause, given⟩
  | .pass => .isFalse fun ⟨_, refused⟩ => nomatch given.symm.trans refused
  | .empty => .isFalse fun ⟨_, refused⟩ => nomatch given.symm.trans refused

namespace Service

/-- The number of calls to write a bucket. -/
def writes (service : Service) : Nat := service.outages.calls .writeBucket

/-- The calls to write a bucket that were made between two states and not refused. -/
def effects (before after : Service) : List Nat :=
  (List.range' before.writes (after.writes - before.writes)).filter fun call =>
    ¬ before.outages.Refuses .writeBucket call

end Service

namespace Action

open Service

variable {α β : Type}

/-- An action that writes no bucket, wherever it starts. -/
def Quiet (action : Action α) : Prop :=
  ∀ before, action.Ensures before (fun _ after => after.writes = before.writes)
    (fun _ after => after.writes = before.writes)

/-- Actions that write no bucket write none one after the other. -/
theorem Quiet.bind {first : Action α} {next : α → Action β} (quiet : first.Quiet)
    (follows : ∀ value, (next value).Quiet) : (first >>= next).Quiet := by
  intro before
  refine (quiet before).bind fun value middle same => ?_
  exact (follows value middle).mono (fun _ _ kept => kept.trans same)
    fun _ _ kept => kept.trans same

theorem quiet_pure (value : α) : (pure value : Action α).Quiet := fun _ => rfl

theorem quiet_fail (cause : StoreError) : (fail cause : Action α).Quiet := fun _ => rfl

theorem quiet_ofStore (result : Except StoreError α) : (ofStore result).Quiet := by
  cases result with
  | ok value => exact quiet_pure value
  | error cause => exact quiet_fail cause

theorem quiet_ofWord (result : Except Overflow α) : (ofWord result).Quiet := by
  cases result with
  | ok value => exact quiet_pure value
  | error cause => exact fun _ => rfl

theorem quiet_get : (get : Action Service).Quiet := fun _ => rfl

theorem quiet_now : now.Quiet := fun _ => rfl

theorem quiet_takeGeneration : takeGeneration.Quiet := fun _ => rfl

/-- A call to another method writes no bucket if what is called does not. -/
theorem quiet_call {method : Method} (other : method ≠ .writeBucket) {action : Action α}
    (quiet : action.Quiet) : (call method action).Quiet := by
  intro before
  have counted : (before.counted method).writes = before.writes :=
    calls_counted_of_ne (Ne.symm other) before
  refine ensures_call (fun _ _ => counted) ?_
  exact (quiet _).mono (fun _ _ kept => kept.trans counted) fun _ _ kept => kept.trans counted

theorem quiet_readBucket (volume bucket : String) : (readBucket volume bucket).Quiet := by
  have other : Method.readBucket ≠ .writeBucket := nofun
  exact quiet_call other <| quiet_now.bind fun _ => quiet_get.bind fun _ => quiet_ofStore _

theorem quiet_requireBucket (volume bucket : String) : (requireBucket volume bucket).Quiet := by
  refine (quiet_readBucket volume bucket).bind fun found => ?_
  cases found with
  | none => exact quiet_fail _
  | some record => exact quiet_pure record

theorem quiet_resolveBucket (volume bucket : String) : (resolveBucket volume bucket).Quiet := by
  refine (quiet_requireBucket volume bucket).bind fun record => ?_
  cases record.source? with
  | none => exact quiet_pure record
  | some source =>
      refine (quiet_requireBucket source.1 source.2).bind fun found => ?_
      split
      · exact quiet_fail _
      · exact quiet_pure found

theorem quiet_generationAbove (current : UInt64) : (generationAbove current).Quiet := by
  refine quiet_takeGeneration.bind fun candidate => ?_
  refine (quiet_ofWord _).bind fun above => ?_
  refine (quiet_ofWord _).bind fun following => ?_
  exact fun _ => rfl

/-! ## Attempts -/

variable {before : Service} {volume bucket : String} {bytes keys : Int64}

/-- A write of a bucket goes through unless it is refused or the store does not accept it. -/
theorem ensures_writeBucket_of_accepted {record : BucketRecord} {condition : Precondition}
    {records : Records}
    (accepted : before.records.writeBucket record condition = .ok records) :
    (writeBucket record condition).Ensures before
      (fun _ after => ¬ before.outages.RefusesNext .writeBucket ∧
        after = { before.counted .writeBucket with records })
      (fun fault after => after = before.counted .writeBucket ∧ ∃ cause, fault = .error cause ∧
        before.outages.next .writeBucket = .fail cause) := by
  refine ensures_call_of_next (fun cause refused => ⟨rfl, cause, rfl, refused⟩) fun passing => ?_
  refine ensures_changeRecords.mono ?_ ?_
  · rintro _ after ⟨changed, given, rfl⟩
    cases accepted.symm.trans given
    exact ⟨passing, rfl⟩
  · rintro fault after ⟨-, cause, -, failed⟩
    cases accepted.symm.trans failed

/-- What one attempt does: the usage is moved by a write that goes through, or the write is refused
and the result is the cause. -/
def Attempt (before : Service) (volume bucket : String) (bytes keys : Int64)
    (result : Except StoreError Unit) (after : Service) : Prop :=
  after.writes = before.writes + 1 ∧ after.outages.schedule = before.outages.schedule ∧
    match result with
    | .ok () => ¬ before.outages.RefusesNext .writeBucket ∧
        ∃ home next, before.records.Charges after.records volume bucket bytes keys home next
    | .error cause => after.records = before.records ∧
        before.outages.next .writeBucket = .fail cause

/-- An attempt makes one write with the usage moved, or stops before it and changes no record. -/
theorem ensures_tryUsage_write (sound : before.records.BucketsSound) (volume bucket : String)
    (bytes keys : Int64) : (tryUsage volume bucket bytes keys).Ensures before
    (Attempt before volume bucket bytes keys)
    (fun _ after => after.writes = before.writes ∧ after.records = before.records) := by
  refine (((ensures_resolveBucket sound volume bucket).and
    (quiet_resolveBucket volume bucket before)).mono (fun _ _ known => known)
    fun fault after known => ⟨known.2, known.1.1.records⟩).bind fun home first known => ?_
  obtain ⟨⟨found, resolved, -⟩, quietFirst⟩ := known
  refine (((ensures_generationAbove home.updateId).and
    (quiet_generationAbove home.updateId first)).mono (fun _ _ known => known) ?_).bind
    fun updateId second known => ?_
  · rintro fault after ⟨⟨-, halted⟩, quiet⟩
    exact ⟨quiet.trans quietFirst, halted.records.trans found.records⟩
  obtain ⟨⟨drawn, -, above, -⟩, quietSecond⟩ := known
  refine ((ensures_now.and (quiet_now second)).mono (fun _ _ known => known)
    fun _ _ (never : False ∧ _) => never.1.elim).bind fun time third known => ?_
  obtain ⟨ticked, quietThird⟩ := known
  have idle := (found.trans drawn).trans ticked
  have quiet : third.writes = before.writes :=
    (quietThird.trans quietSecond).trans quietFirst
  have counted : (third.counted .writeBucket).writes = before.writes + 1 :=
    (calls_counted_self third .writeBucket).trans (congrArg (· + 1) quiet)
  have verdict : third.outages.next .writeBucket = before.outages.next .writeBucket := by
    unfold Outages.next
    rw [idle.schedule]
    exact congrArg _ quiet
  rw [home.advanceUpdate_charge bytes keys above time]
  obtain ⟨frame, persisted, accepted⟩ :=
    (sound.home_of_resolve resolved).writeBucket sound bytes keys updateId time
  rw [← idle.records] at accepted
  refine (ensures_writeBucket_of_accepted accepted).attempt _ ?_ ?_ ?_
  · rintro _ after ⟨passing, rfl⟩
    refine ⟨counted, idle.schedule, ?_, home, home.moved bytes keys updateId time, ?_⟩
    · rintro ⟨cause, refused⟩
      exact passing ⟨cause, verdict.trans refused⟩
    · rw [idle.records]
      exact sound.charges resolved bytes keys above time persisted
  · rintro cause after ⟨rfl, _, ⟨⟩, refused⟩
    exact ⟨counted, idle.schedule, idle.records, verdict.symm.trans refused⟩
  · rintro cause after ⟨rfl, _, ⟨⟩, -⟩

/-- What the attempts between two states have in common, which are no more than a limit: all but the
last of their writes are refused for a conflict. -/
structure Tried (limit : Nat) (before after : Service) : Prop where
  onward : before.writes ≤ after.writes
  few : after.writes ≤ before.writes + limit
  conflicts : ∀ call, before.writes ≤ call → call + 1 < after.writes →
    ∃ cause, before.outages.schedule .writeBucket call = .fail cause ∧ cause.isRetryable = true

/-- The usage was moved in the last of some attempts. -/
structure Succeeded (limit : Nat) (volume bucket : String) (bytes keys : Int64)
    (before after : Service) : Prop extends Tried limit before after where
  last : ∃ call, before.writes ≤ call ∧ after.writes = call + 1 ∧
    ¬ before.outages.Refuses .writeBucket call
  charges : ∃ home next, before.records.Charges after.records volume bucket bytes keys home next

/-- All attempts failed. -/
structure Failed (limit : Nat) (before after : Service) : Prop extends
    Tried limit before after where
  refused : ∀ call, before.writes ≤ call → call < after.writes →
    before.outages.Refuses .writeBucket call
  records : after.records = before.records

variable {middle after : Service} {limit : Nat}

/-- No write has an effect where every call is refused. -/
theorem effects_eq_nil {first last : Nat} (refused : ∀ call, first ≤ call → call < last →
      before.outages.Refuses .writeBucket call) :
    (List.range' first (last - first)).filter
      (fun call => ¬ before.outages.Refuses .writeBucket call) = [] := by
  refine List.filter_eq_nil_iff.2 fun call inside => ?_
  obtain ⟨late, early⟩ := List.mem_range'_1.1 inside
  simpa using refused call late (by omega)

/-- No write of an update that fails has an effect. -/
theorem Failed.effects (failed : Failed limit before after) : before.effects after = [] :=
  effects_eq_nil failed.refused

/-- Exactly the last write of an update that succeeds has an effect. -/
theorem Succeeded.effects (succeeded : Succeeded limit volume bucket bytes keys before after) :
    (before.effects after).length = 1 := by
  obtain ⟨call, late, last, passing⟩ := succeeded.last
  have refused : ∀ earlier, before.writes ≤ earlier → earlier < call →
      before.outages.Refuses .writeBucket earlier := by
    intro earlier after before
    obtain ⟨cause, refused, -⟩ := succeeded.conflicts earlier after (by omega)
    exact ⟨cause, refused⟩
  have calls : after.writes - before.writes = (call - before.writes) + 1 := by omega
  have final : before.writes + (call - before.writes) = call := by omega
  rw [Service.effects, calls, List.range'_1_concat, List.filter_append, effects_eq_nil refused,
    final, List.nil_append]
  simp [passing]

/-- Stopping before any write is a failure within every limit. -/
theorem Failed.of_quiet (quiet : after.writes = before.writes)
    (records : after.records = before.records) (limit : Nat) : Failed limit before after where
  onward := Nat.le_of_eq quiet.symm
  few := quiet ▸ Nat.le_add_right _ limit
  conflicts call late early := by omega
  refused call late early := by omega
  records := records

/-- A single attempt whose write goes through. -/
theorem Attempt.succeeded (attempt : Attempt before volume bucket bytes keys (.ok ()) after)
    (limit : Nat) : Succeeded (limit + 1) volume bucket bytes keys before after := by
  obtain ⟨writes, -, passing, charges⟩ := attempt
  exact
    { onward := by omega
      few := by omega
      conflicts := fun call late early => by omega
      last := ⟨before.writes, Nat.le_refl _, writes, passing⟩
      charges }

/-- A single attempt whose write is refused. -/
theorem Attempt.failed {cause : StoreError}
    (attempt : Attempt before volume bucket bytes keys (.error cause) after) (limit : Nat) :
    Failed (limit + 1) before after := by
  obtain ⟨writes, -, records, refused⟩ := attempt
  exact
    { onward := by omega
      few := by omega
      conflicts := fun call late early => by omega
      refused := fun call late early => by
        obtain rfl : call = before.writes := by omega
        exact ⟨cause, refused⟩
      records }

/-- After a conflict, further attempts are counted with the first one. -/
theorem Attempt.tried {cause : StoreError}
    (attempt : Attempt before volume bucket bytes keys (.error cause) middle)
    (retryable : cause.isRetryable = true) (tried : Tried limit middle after) :
    Tried (limit + 1) before after := by
  obtain ⟨writes, schedule, -, refused⟩ := attempt
  obtain ⟨onward, few, conflicts⟩ := tried
  refine ⟨by omega, by omega, fun call late early => ?_⟩
  by_cases first : call = before.writes
  · subst first
    exact ⟨cause, refused, retryable⟩
  · rw [← schedule]
    exact conflicts call (by omega) early

/-- After a conflict, an update succeeds if it does in further attempts. -/
theorem Attempt.succeeded_later {cause : StoreError}
    (attempt : Attempt before volume bucket bytes keys (.error cause) middle)
    (retryable : cause.isRetryable = true)
    (succeeded : Succeeded limit volume bucket bytes keys middle after) :
    Succeeded (limit + 1) volume bucket bytes keys before after := by
  have tried := attempt.tried retryable succeeded.toTried
  obtain ⟨writes, schedule, records, -⟩ := attempt
  obtain ⟨call, late, last, passing⟩ := succeeded.last
  refine ⟨tried, ⟨call, by omega, last, fun refuses => ?_⟩, records ▸ succeeded.charges⟩
  exact passing (refuses.of_schedule schedule.symm)

/-- After a conflict, an update fails if all further attempts do. -/
theorem Attempt.failed_later {cause : StoreError}
    (attempt : Attempt before volume bucket bytes keys (.error cause) middle)
    (retryable : cause.isRetryable = true) (failed : Failed limit middle after) :
    Failed (limit + 1) before after := by
  have tried := attempt.tried retryable failed.toTried
  obtain ⟨writes, schedule, records, refused⟩ := attempt
  refine ⟨tried, fun call late early => ?_, failed.records.trans records⟩
  by_cases first : call = before.writes
  · subst first
    exact ⟨cause, refused⟩
  · exact (failed.refused call (by omega) early).of_schedule schedule

/-- An update of usage succeeds in the last of its attempts, or all of them fail. -/
theorem ensures_updateUsage_attempts (sound : before.records.BucketsSound) (volume bucket : String)
    (bytes keys : Int64) (more : Nat) : (updateUsage volume bucket bytes keys more).Ensures before
    (fun _ after => Succeeded (more + 1) volume bucket bytes keys before after)
    (fun _ after => Failed (more + 1) before after) := by
  induction more generalizing before with
  | zero =>
      refine ((ensures_tryUsage_write sound volume bucket bytes keys).mono (fun _ _ known => known)
        fun _ after known => Failed.of_quiet known.1 known.2 1).bind fun result after known => ?_
      cases result with
      | ok _ => exact known.succeeded 0
      | error cause => exact known.failed 0
  | succ more ih =>
      refine ((ensures_tryUsage_write sound volume bucket bytes keys).mono (fun _ _ known => known)
        fun _ after known => Failed.of_quiet known.1 known.2 _).bind fun result middle known => ?_
      cases result with
      | ok _ => exact known.succeeded _
      | error cause =>
          dsimp only
          split
          · rename_i retryable
            have kept : middle.records.BucketsSound := known.2.2.1.symm ▸ sound
            exact (ih kept).mono (fun _ _ succeeded => known.succeeded_later retryable succeeded)
              fun _ _ failed => known.failed_later retryable failed
          · exact ensures_fail (known.failed _)

/-- Over buckets that can be made, whatever calls are refused, an update of usage makes at most as
many write calls as the settings allow attempts, and tries again only after a conflict. If it
succeeds, one write had an effect, and it moved the usage of the bucket that the name leads to. If
it fails, no write had one. -/
theorem chargeUsage_once {settings : Settings} (valid : settings.validate = .ok ())
    {requests : List (UInt64 × Request)}
    (made : ∀ entry ∈ requests, ∀ bucket, entry.2.stored? = some bucket → bucket.Made)
    (reached : before.records = (Records.empty.serveAll requests).2) (volume bucket : String)
    (bytes keys : Int64) : (chargeUsage settings volume bucket bytes keys).Ensures before
    (fun _ after => Tried settings.usageAttempts.toNat before after ∧
      (before.effects after).length = 1 ∧
      ∃ home next, before.records.Charges after.records volume bucket bytes keys home next)
    (fun _ after => Tried settings.usageAttempts.toNat before after ∧
      before.effects after = [] ∧ after.records = before.records) := by
  have sound : before.records.BucketsSound := by
    rw [reached]
    exact Records.sound_empty.toBucketsSound.serveAll made
  have allowed : settings.usageAttempts.toNat - 1 + 1 = settings.usageAttempts.toNat :=
    Nat.sub_add_cancel (Settings.attempts_pos valid)
  refine (allowed ▸ ensures_updateUsage_attempts sound volume bucket bytes keys
    (settings.usageAttempts.toNat - 1)).mono ?_ ?_
  · intro _ after succeeded
    exact ⟨succeeded.toTried, succeeded.effects, succeeded.charges⟩
  · intro _ after failed
    exact ⟨failed.toTried, failed.effects, failed.records⟩

end Action

/-- Requests for a bucket with counters at their limits, and for a link to it. -/
def Request.linked : List (UInt64 × Request) :=
  let link : BucketDraft :=
    { volume := some "v", name := some "l", medium := some .disk
      sourceVolume := some "v", sourceBucket := some "b" }
  [BucketRecord.halfLinked, link].filterMap fun draft =>
    (draft.build 1).toOption.map fun bucket => (1, .createBucket bucket)

/-- A service over that bucket and that link, whose first write of a bucket meets a conflict. -/
def Service.conflicting : Service :=
  { Service.start ⟨1, 0, 1, fun _ => ⟨.replicate 16 0⟩, 0, [], []⟩ ⟨fun _ => 0, 0⟩
      (Outages.never.during .writeBucket 0 1 (.fail (.concurrent "/v/b" none none))) with
    records := (Records.empty.serveAll Request.linked).2 }

set_option maxRecDepth 20000 in
/-- A bucket behind a link is charged after a conflict, and its counter wraps. -/
theorem Action.chargeUsage_once_conflicting :
    ∃ after, (chargeUsage {} "v" "l" 5 (-1)).exec .conflicting = (.ok (), after) ∧
      after.writes = 2 ∧
      (after.records.bucketAt "/v/b").map (·.usedBytes) = some (Int64.minValue + 4) ∧
      (Service.conflicting.effects after).length = 1 := by
  have made : ∀ entry ∈ Request.linked, ∀ bucket, entry.2.stored? = some bucket → bucket.Made := by
    intro entry member bucket stored
    obtain ⟨draft, -, given⟩ := List.mem_filterMap.1 member
    obtain ⟨built, found, rfl⟩ := Option.map_eq_some_iff.1 given
    cases stored
    exact .built (toOption_eq_some_iff.1 found)
  have runs : ((chargeUsage {} "v" "l" 5 (-1)).exec .conflicting).1.toOption = some () ∧
      ((chargeUsage {} "v" "l" 5 (-1)).exec .conflicting).2.writes = 2 ∧
      (((chargeUsage {} "v" "l" 5 (-1)).exec .conflicting).2.records.bucketAt "/v/b").map
        (·.usedBytes) = some (Int64.minValue + 4) := by
    decide +kernel
  have valid : Settings.validate {} = .ok () := rfl
  have reached : Service.conflicting.records = (Records.empty.serveAll Request.linked).2 := rfl
  rcases ends : (chargeUsage {} "v" "l" 5 (-1)).exec .conflicting with ⟨result, after⟩
  rw [ends] at runs
  obtain ⟨succeeds, writes, moved⟩ := runs
  cases toOption_eq_some_iff.1 succeeds
  -- The update must not be run again where it is only spoken of.
  generalize Service.conflicting = before at ends reached ⊢
  have once := (chargeUsage_once valid made reached "v" "l" 5 (-1)).of_exec_ok ends
  exact ⟨after, rfl, writes, moved, once.2.1⟩

end ObjectLedger
