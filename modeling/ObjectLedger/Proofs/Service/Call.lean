import ObjectLedger.Proofs.Service.Action
import ObjectLedger.Proofs.Store.Records

/-! # What calls to the store and the allocator ensure

A call that the schedule of outages refuses has no effect but being counted. Steps that only
read or keep the books leave the records, the allocator and the number of calls of lasting
effect alone (`Service.Still`), and the counter of generations does not fall
(`Service.Idle`) unless it passes its largest value, which stops the operation
(`Service.Halted`).

A schedule may refuse calls that are never made. That a call was made and refused is said of the
states before and after it (`Service.Refused`), and what is said of a part of an operation holds of
all of it (`Service.Refused.of_calls`).
-/

namespace ObjectLedger

/-- A call to a method is refused by a schedule. -/
def Outages.Refuses (outages : Outages) (method : Method) (call : Nat) : Prop :=
  ∃ cause, outages.schedule method call = .fail cause

/-- The next call to a method is refused. -/
def Outages.RefusesNext (outages : Outages) (method : Method) : Prop :=
  outages.Refuses method (outages.calls method)

/-- No call is refused. -/
def Outages.Silent (outages : Outages) : Prop := ∀ method call, ¬ outages.Refuses method call

/-- Where nothing ever fails, no call is refused. -/
theorem Outages.silent_never : Outages.never.Silent := by
  rintro method call ⟨cause, same⟩
  cases same

/-- Which calls are refused is read off the schedule alone. -/
theorem Outages.Refuses.of_schedule {outages other : Outages} {method : Method} {call : Nat}
    (refused : outages.Refuses method call) (same : outages.schedule = other.schedule) :
    other.Refuses method call := by
  unfold Refuses at refused ⊢
  rwa [same] at refused

theorem Outages.Silent.of_schedule {outages other : Outages} (silent : outages.Silent)
    (same : other.schedule = outages.schedule) : other.Silent :=
  fun method call refused => silent method call (refused.of_schedule same)

/-- An outage of one method refuses no call to another. -/
theorem Outages.refuses_during {outages : Outages} {method other : Method} {skip times call : Nat}
    {verdict : Verdict} (refused : (outages.during method skip times verdict).Refuses other call)
    (different : other ≠ method) : outages.Refuses other call := by
  obtain ⟨cause, refused⟩ := refused
  simp only [during, different, ne_eq, not_false_eq_true, ↓reduceIte] at refused
  exact ⟨cause, refused⟩

/-- Allocations fail, or give the blocks asked for. -/
def Outages.Faithful (outages : Outages) : Prop :=
  ∀ call, outages.schedule .allocateBlocks call ≠ .empty

/-- Calls to the store are never refused; calls to the allocator may be. -/
def Outages.SparesStore (outages : Outages) : Prop :=
  ∀ method call, outages.Refuses method call → method = .allocateBlocks ∨ method = .deleteBlocks

/-- If no call is refused, none to the store is. -/
theorem Outages.Silent.sparesStore {outages : Outages} (silent : outages.Silent) :
    outages.SparesStore :=
  fun method call refused => (silent method call refused).elim

/-- The methods whose calls are told apart: those that put or remove keys or blocks. -/
def Method.Lasting (method : Method) : Prop :=
  method ≠ .readKey ∧ method ≠ .readBucket ∧ method ≠ .writeBucket

namespace Service

/-- The state with one call to a method counted. -/
def counted (service : Service) (method : Method) : Service :=
  { service with outages := service.outages.count method }

variable {before middle after : Service}

/-- Neither the records nor the allocator has changed, and no call of lasting effect was made. -/
structure Still (before after : Service) : Prop where
  records : after.records = before.records
  allocator : after.allocator = before.allocator
  schedule : after.outages.schedule = before.outages.schedule
  calls : ∀ method : Method, method.Lasting →
    after.outages.calls method = before.outages.calls method
  onward : ∀ method, before.outages.calls method ≤ after.outages.calls method

/-- Nothing has changed but the books, and the counter of generations did not fall. -/
structure Idle (before after : Service) : Prop extends Still before after where
  generation : before.nextGeneration ≤ after.nextGeneration

/-- Nothing has changed but the books, and the counter of generations fell only to zero. -/
structure Halted (before after : Service) : Prop extends Still before after where
  generation : after.nextGeneration = 0 ∨ before.nextGeneration ≤ after.nextGeneration

theorem Still.refl (service : Service) : service.Still service :=
  ⟨rfl, rfl, rfl, fun _ _ => rfl, fun _ => Nat.le_refl _⟩

theorem Still.trans (first : before.Still middle) (second : middle.Still after) :
    before.Still after where
  records := second.records.trans first.records
  allocator := second.allocator.trans first.allocator
  schedule := second.schedule.trans first.schedule
  calls method lasting := (second.calls method lasting).trans (first.calls method lasting)
  onward method := Nat.le_trans (first.onward method) (second.onward method)

theorem Idle.refl (service : Service) : service.Idle service :=
  ⟨Still.refl service, UInt64.le_refl _⟩

theorem Idle.trans (first : before.Idle middle) (second : middle.Idle after) :
    before.Idle after :=
  ⟨first.toStill.trans second.toStill, UInt64.le_trans first.generation second.generation⟩

/-- Idle steps also count as halted, with a counter that did not fall. -/
theorem Idle.halted (idle : before.Idle after) : before.Halted after :=
  ⟨idle.toStill, .inr idle.generation⟩

/-- What halts after idle steps halts the whole of them. -/
theorem Idle.trans_halted (first : before.Idle middle) (second : middle.Halted after) :
    before.Halted after :=
  ⟨first.toStill.trans second.toStill,
    second.generation.imp_right (UInt64.le_trans first.generation)⟩

/-- Counting a call to a method raises its number by one. -/
theorem calls_counted_self (service : Service) (method : Method) :
    (service.counted method).outages.calls method = service.outages.calls method + 1 :=
  if_pos rfl

/-- Counting a call leaves the number of calls to other methods alone. -/
theorem calls_counted_of_ne {method other : Method} (different : other ≠ method)
    (service : Service) :
    (service.counted method).outages.calls other = service.outages.calls other :=
  if_neg different

/-- Counting a call lowers no number of calls. -/
theorem onward_counted (service : Service) (method other : Method) :
    service.outages.calls other ≤ (service.counted method).outages.calls other := by
  by_cases same : other = method
  · subst same
    rw [calls_counted_self]
    exact Nat.le_succ _
  · exact Nat.le_of_eq (calls_counted_of_ne same service).symm

/-- A call to a method was refused, and made by the time of a later state. -/
def Refused (before after : Service) (method : Method) (call : Nat) : Prop :=
  before.outages.Refuses method call ∧ call < after.outages.calls method

/-- The next call to a method was made, and refused. -/
def RefusedNext (before after : Service) (method : Method) : Prop :=
  before.Refused after method (before.outages.calls method)

/-- A call that reads or writes a bucket was made and refused, leaving out so many calls of each
method. -/
def RefusedBucketFrom (before after : Service) (reads writes : Nat) : Prop :=
  (∃ call, reads ≤ call ∧ before.Refused after .readBucket call) ∨
    ∃ call, writes ≤ call ∧ before.Refused after .writeBucket call

/-- A call that reads or writes a bucket was made and refused on the way to a later state. -/
def RefusedBucket (before after : Service) : Prop :=
  before.RefusedBucketFrom after (before.outages.calls .readBucket)
    (before.outages.calls .writeBucket)

/-- The records and the allocator that an operation leaves, the books aside. -/
structure Leaves (before after : Service) (records : Records) (allocator : Allocator) : Prop where
  records : after.records = records
  allocator : after.allocator = allocator
  schedule : after.outages.schedule = before.outages.schedule
  generation : after.nextGeneration = 0 ∨ before.nextGeneration ≤ after.nextGeneration

/-- What halts leaves the records and the allocator of the start. -/
theorem Halted.leaves (halted : before.Halted after) :
    before.Leaves after before.records before.allocator :=
  ⟨halted.records, halted.allocator, halted.schedule, halted.generation⟩

/-- An error leaves everything but the books, and an overflow may also have used up the
counter of generations. -/
def Ended (before after : Service) : Fault → Prop
  | .error _ => before.Idle after
  | .overflow _ => before.Halted after

/-- Idle steps may end in any fault. -/
theorem Idle.ended (idle : before.Idle after) (fault : Fault) : before.Ended after fault := by
  cases fault with
  | error cause => exact idle
  | overflow cause => exact idle.halted

/-- Whatever the fault is, records and allocator are left alone. -/
theorem Ended.halted {fault : Fault} (ended : before.Ended after fault) : before.Halted after := by
  cases fault with
  | error cause => exact Idle.halted ended
  | overflow cause => exact ended

/-- A fault after idle steps ends the whole of them. -/
theorem Idle.trans_ended {fault : Fault} (first : before.Idle middle)
    (second : middle.Ended after fault) : before.Ended after fault := by
  cases fault with
  | error cause => exact first.trans second
  | overflow cause => exact first.trans_halted second

/-- Idleness does not depend on what the store holds. -/
theorem Idle.withRecords (idle : before.Idle after) (records : Records) :
    { before with records }.Idle { after with records } where
  records := rfl
  allocator := idle.allocator
  schedule := idle.schedule
  calls := idle.calls
  onward := idle.onward
  generation := idle.generation

/-- Idleness does not depend on the calls counted before. -/
theorem Idle.counted (idle : before.Idle after) (method : Method) :
    (before.counted method).Idle (after.counted method) where
  records := idle.records
  allocator := idle.allocator
  schedule := idle.schedule
  calls other lasting := by
    by_cases same : other = method
    · subst same
      rw [calls_counted_self, calls_counted_self, idle.calls other lasting]
    · rw [calls_counted_of_ne same, calls_counted_of_ne same, idle.calls other lasting]
  onward other := by
    by_cases same : other = method
    · subst same
      rw [calls_counted_self, calls_counted_self]
      exact Nat.succ_le_succ (idle.onward other)
    · rw [calls_counted_of_ne same, calls_counted_of_ne same]
      exact idle.onward other
  generation := idle.generation

/-- Counting a call without lasting effect changes nothing but the books. -/
theorem idle_counted {method : Method} (passing : ¬ method.Lasting) (service : Service) :
    service.Idle (service.counted method) := by
  refine ⟨⟨rfl, rfl, rfl, fun other lasting => ?_, service.onward_counted method⟩,
    UInt64.le_refl _⟩
  have different : other ≠ method := fun same => passing (same ▸ lasting)
  exact if_neg different

/-! ## Refused calls -/

section Refused

variable {method other : Method} {call : Nat}

/-- What was refused later was refused before, and stays refused. -/
theorem Refused.of_calls {last : Service} (refused : middle.Refused last method call)
    (schedule : middle.outages.schedule = before.outages.schedule)
    (onward : last.outages.calls method ≤ after.outages.calls method) :
    before.Refused after method call :=
  ⟨refused.1.of_schedule schedule, Nat.lt_of_lt_of_le refused.2 onward⟩

/-- A call that is refused is counted. -/
theorem refusedNext_counted (refused : before.outages.RefusesNext method) :
    before.RefusedNext (before.counted method) method :=
  ⟨refused, calls_counted_self before method ▸ Nat.lt_succ_self _⟩

/-- What is refused next does not depend on the calls to other methods. -/
theorem Idle.refusedNext (idle : before.Idle middle) (lasting : method.Lasting)
    (refused : middle.RefusedNext after method) : before.RefusedNext after method := by
  unfold RefusedNext at refused ⊢
  rw [idle.calls method lasting] at refused
  exact Refused.of_calls refused idle.schedule (Nat.le_refl _)

/-- Counting a call to another method does not change which call is the next one. -/
theorem refusedNext_of_counted (different : method ≠ other)
    (refused : (before.counted other).RefusedNext after method) :
    before.RefusedNext after method := by
  unfold RefusedNext at refused ⊢
  rw [calls_counted_of_ne different] at refused
  exact Refused.of_calls refused rfl (Nat.le_refl _)

variable {reads writes reads' writes' : Nat}

/-- A bucket call that was refused later was refused before, and stays refused. -/
theorem RefusedBucketFrom.of_calls {last : Service}
    (refused : middle.RefusedBucketFrom last reads writes)
    (schedule : middle.outages.schedule = before.outages.schedule)
    (onward : ∀ method, last.outages.calls method ≤ after.outages.calls method)
    (fewerReads : reads' ≤ reads) (fewerWrites : writes' ≤ writes) :
    before.RefusedBucketFrom after reads' writes' := by
  rcases refused with ⟨call, late, refused⟩ | ⟨call, late, refused⟩
  · exact .inl ⟨call, Nat.le_trans fewerReads late, refused.of_calls schedule (onward _)⟩
  · exact .inr ⟨call, Nat.le_trans fewerWrites late, refused.of_calls schedule (onward _)⟩

/-- A store that takes every call refuses none that has to do with buckets. -/
theorem RefusedBucketFrom.not_sparesStore (refused : before.RefusedBucketFrom after reads writes) :
    ¬ before.outages.SparesStore := by
  intro spares
  rcases refused with ⟨call, -, refused⟩ | ⟨call, -, refused⟩
  · rcases spares _ _ refused.1 with same | same <;> cases same
  · rcases spares _ _ refused.1 with same | same <;> cases same

/-- What is refused later on the way is refused on the whole of it. -/
theorem Still.refusedBucket (still : before.Still middle) (refused : middle.RefusedBucket after) :
    before.RefusedBucket after :=
  refused.of_calls still.schedule (fun _ => Nat.le_refl _) (still.onward _) (still.onward _)

/-- What was refused stays refused, whatever follows. -/
theorem RefusedBucket.onward (refused : before.RefusedBucket middle) (still : middle.Still after) :
    before.RefusedBucket after :=
  refused.of_calls rfl still.onward (Nat.le_refl _) (Nat.le_refl _)

/-- A refused read of a bucket is a refused bucket call. -/
theorem RefusedNext.bucket_read (refused : before.RefusedNext after .readBucket) :
    before.RefusedBucket after :=
  .inl ⟨_, Nat.le_refl _, refused⟩

theorem RefusedNext.bucket_write (refused : before.RefusedNext after .writeBucket) :
    before.RefusedBucket after :=
  .inr ⟨_, Nat.le_refl _, refused⟩

end Refused

end Service

namespace Action

open Service

variable {α : Type} {before : Service} {ok : α → Service → Prop} {bad : Fault → Service → Prop}

theorem ensures_now : now.Ensures before (fun _ after => before.Idle after) bad :=
  ⟨⟨rfl, rfl, rfl, fun _ _ => rfl, fun _ => Nat.le_refl _⟩, UInt64.le_refl _⟩

theorem ensures_takeSession : takeSession.Ensures before (fun _ after => before.Idle after) bad :=
  ⟨⟨rfl, rfl, rfl, fun _ _ => rfl, fun _ => Nat.le_refl _⟩, UInt64.le_refl _⟩

theorem ensures_takeObjectId :
    takeObjectId.Ensures before (fun _ after => before.Idle after) bad :=
  ⟨⟨rfl, rfl, rfl, fun _ _ => rfl, fun _ => Nat.le_refl _⟩, UInt64.le_refl _⟩

/-- A call is refused, or it is counted and goes through, as its verdict says. -/
theorem ensures_call_of_next {method : Method} {action : Action α}
    (refused : ∀ cause, before.outages.next method = .fail cause →
      bad (.error cause) (before.counted method))
    (passed : ¬ before.outages.RefusesNext method →
      action.Ensures (before.counted method) ok bad) :
    (call method action).Ensures before ok bad := by
  have asked : (verdict method).Ensures before
      (fun answer after => after = before.counted method ∧ answer = before.outages.next method)
      bad := ⟨rfl, rfl⟩
  refine asked.bind fun answer middle known => ?_
  obtain ⟨rfl, given⟩ := known
  have passing : (∀ cause, answer ≠ .fail cause) → ¬ before.outages.RefusesNext method :=
    fun other => fun ⟨cause, same⟩ => other cause (given.trans same)
  cases answer with
  | fail cause => exact ensures_fail (refused cause given.symm)
  | pass => exact passed (passing fun _ => nofun)
  | empty => exact passed (passing fun _ => nofun)

/-- A call is refused, or it is counted and goes through. -/
theorem ensures_call {method : Method} {action : Action α}
    (refused : ∀ cause, before.outages.next method = .fail cause →
      bad (.error cause) (before.counted method))
    (passed : action.Ensures (before.counted method) ok bad) :
    (call method action).Ensures before ok bad :=
  ensures_call_of_next refused fun _ => passed

/-- A change of the records succeeds as the store says, or fails and changes nothing. -/
theorem ensures_changeRecords {change : Records → Except StoreError Records} :
    (changeRecords change).Ensures before
      (fun _ after => ∃ records, change before.records = .ok records ∧
        after = { before with records })
      (fun fault after => after = before ∧
        ∃ cause, fault = .error cause ∧ change before.records = .error cause) :=
  ensures_get_bind <| ensures_ofStore_bind (fun records changed => ⟨records, changed, rfl⟩)
    fun cause failed => ⟨rfl, cause, rfl, failed⟩

/-- Taking a generation gives the next one and moves the counter, which may wrap. -/
theorem ensures_takeGeneration : takeGeneration.Ensures before
    (fun value after => value = before.nextGeneration ∧
      after = { before with nextGeneration := before.nextGeneration + 1 }) bad :=
  ⟨rfl, rfl⟩

/-- The counter falls only from its largest value, and then to zero. -/
theorem halted_take (service : Service) :
    service.Halted { service with nextGeneration := service.nextGeneration + 1 } := by
  refine ⟨⟨rfl, rfl, rfl, fun _ _ => rfl, fun _ => Nat.le_refl _⟩, ?_⟩
  change service.nextGeneration + 1 = 0 ∨ service.nextGeneration ≤ service.nextGeneration + 1
  grind

/-- A new generation is the next one of the counter or the one after the current one of a record,
whichever is larger, and the counter moves just beyond it, unless that does not fit a word. -/
theorem ensures_generationAbove_exact (current : UInt64) (before : Service) :
    (generationAbove current).Ensures before
      (fun generation after =>
        generation.toNat = max before.nextGeneration.toNat (current.toNat + 1) ∧
          generation.toNat + 1 < UInt64.size ∧
          after = { before with nextGeneration := generation + 1 })
      (fun fault after => (∃ cause, fault = .overflow cause) ∧
        UInt64.size ≤ max before.nextGeneration.toNat (current.toNat + 1) + 1 ∧
        after = { before with nextGeneration := before.nextGeneration + 1 }) := by
  have one : (1 : UInt64).toNat = 1 := rfl
  refine ensures_takeGeneration.bind fun candidate middle taken => ?_
  obtain ⟨rfl, rfl⟩ := taken
  refine ensures_ofWord_bind (fun above added => ?_) fun cause failed => ?_
  · have least := Word.add_ok_iff.1 added
    have drawn := Word.toNat_max before.nextGeneration above
    refine ensures_ofWord_bind (fun following counted => ?_) fun cause failed => ?_
    · have beyond := Word.add_ok_iff.1 counted
      have small := following.toNat_lt_size
      have fits : (max before.nextGeneration above).toNat + 1 < UInt64.size := by omega
      refine ⟨by omega, fits, ?_⟩
      change { before with nextGeneration := max (before.nextGeneration + 1) following } = _
      congr 1
      have counter := Word.toNat_succ (a := before.nextGeneration) (by omega)
      rw [← UInt64.toNat_inj, Word.toNat_max, Word.toNat_succ fits]
      omega
    · have large := Word.size_le_of_add_error failed
      exact ⟨⟨cause, rfl⟩, by omega, rfl⟩
  · have large := Word.size_le_of_add_error failed
    exact ⟨⟨cause, rfl⟩, by omega, rfl⟩

/-- A new generation lies above the current one of a record and above all given out before,
and the counter moves beyond it. -/
theorem ensures_generationAbove (current : UInt64) : (generationAbove current).Ensures before
    (fun generation after => before.Idle after ∧ before.nextGeneration ≤ generation ∧
      current < generation ∧ generation < after.nextGeneration)
    (fun fault after => (∃ cause, fault = .overflow cause) ∧ before.Halted after) := by
  refine (ensures_generationAbove_exact current before).mono ?_ ?_
  · rintro generation after ⟨drawn, fits, rfl⟩
    have counter := Word.toNat_succ fits
    have fromCounter : before.nextGeneration ≤ generation := UInt64.le_iff_toNat_le.2 (by omega)
    have fromCurrent : current < generation := UInt64.lt_iff_toNat_lt.2 (by omega)
    have passed : generation < generation + 1 := UInt64.lt_iff_toNat_lt.2 (by omega)
    exact ⟨⟨⟨rfl, rfl, rfl, fun _ _ => rfl, fun _ => Nat.le_refl _⟩,
      UInt64.le_of_lt (UInt64.lt_of_le_of_lt fromCounter passed)⟩, fromCounter, fromCurrent, passed⟩
  · rintro fault after ⟨overflow, -, rfl⟩
    exact ⟨overflow, halted_take before⟩

/-! ## Reading -/

/-- A key is read as the store holds it, or the call is refused; nothing changes either way. -/
theorem ensures_readKey (sound : before.records.Sound) (volume bucket key : String) :
    (readKey volume bucket key).Ensures before
      (fun found after => before.Idle after ∧
        found = before.records.keyAt (keyPath volume bucket key))
      (fun fault after => before.Idle after ∧ ∃ cause, fault = .error cause) := by
  have counted : before.Idle (before.counted .readKey) :=
    idle_counted (fun lasting => lasting.1 rfl) before
  refine ensures_call (fun cause _ => ⟨counted, cause, rfl⟩) ?_
  refine ensures_now.bind fun time middle ticked => ?_
  have idle := counted.trans ticked
  refine ensures_get_bind ?_
  rw [idle.records, sound.readKey]
  exact ⟨idle, rfl⟩

/-- A bucket is read as the store holds it, unless the call is refused. Each read is counted. -/
theorem ensures_readBucket (sound : before.records.BucketsSound) (volume bucket : String) :
    (readBucket volume bucket).Ensures before
      (fun found after => before.Idle after ∧
        before.outages.calls .readBucket < after.outages.calls .readBucket ∧
        found = before.records.bucketAt (bucketPath volume bucket))
      (fun fault after => before.Idle after ∧ (∃ cause, fault = .error cause) ∧
        before.RefusedNext after .readBucket) := by
  have counted : before.Idle (before.counted .readBucket) :=
    idle_counted (fun lasting => lasting.2.1 rfl) before
  refine ensures_call (fun cause refused =>
    ⟨counted, ⟨cause, rfl⟩, refusedNext_counted ⟨cause, refused⟩⟩) ?_
  refine ensures_now.bind fun time middle ticked => ?_
  have idle := counted.trans ticked
  refine ensures_get_bind ?_
  rw [idle.records, sound.readBucket]
  refine ⟨idle, Nat.lt_of_lt_of_le ?_ (ticked.onward _), rfl⟩
  rw [calls_counted_self]
  exact Nat.lt_succ_self _

/-! ## Calls of lasting effect -/

/-- A key is written as the store says, or the call is refused or rejected and only counted. -/
theorem ensures_writeKey (key : KeyRecord) (condition : Precondition) :
    (writeKey key condition).Ensures before
      (fun _ after => ∃ records, before.records.writeKey key condition = .ok records ∧
        after = { before.counted .writeKey with records })
      (fun fault after => after = before.counted .writeKey ∧ ∃ cause, fault = .error cause ∧
        (before.RefusedNext after .writeKey ∨
          before.records.writeKey key condition = .error cause)) :=
  ensures_call
    (fun cause refused => ⟨rfl, cause, rfl, .inl (refusedNext_counted ⟨cause, refused⟩)⟩) <|
    ensures_changeRecords.mono (fun _ _ changed => changed) fun _ _ failed =>
      ⟨failed.1, failed.2.imp fun _ known => ⟨known.1, .inr known.2⟩⟩

/-- A bucket is created as the store says, or the call fails and is only counted. -/
theorem ensures_storeBucket (bucket : BucketRecord) : (storeBucket bucket).Ensures before
    (fun _ after => ∃ records, before.records.createBucket bucket = .ok records ∧
      after = { before.counted .createBucket with records })
    (fun fault after => after = before.counted .createBucket ∧ ∃ cause, fault = .error cause) :=
  ensures_call (fun cause _ => ⟨rfl, cause, rfl⟩) <|
    ensures_changeRecords.mono (fun _ _ changed => changed) fun _ _ failed =>
      ⟨failed.1, failed.2.imp fun _ known => known.1⟩

/-- A bucket is written as the store says, or the call is refused or rejected and only counted. -/
theorem ensures_writeBucket (bucket : BucketRecord) (condition : Precondition) :
    (writeBucket bucket condition).Ensures before
      (fun _ after => ∃ records, before.records.writeBucket bucket condition = .ok records ∧
        after = { before.counted .writeBucket with records })
      (fun fault after => after = before.counted .writeBucket ∧ ∃ cause, fault = .error cause ∧
        (before.RefusedNext after .writeBucket ∨
          before.records.writeBucket bucket condition = .error cause)) :=
  ensures_call
    (fun cause refused => ⟨rfl, cause, rfl, .inl (refusedNext_counted ⟨cause, refused⟩)⟩) <|
    ensures_changeRecords.mono (fun _ _ changed => changed) fun _ _ failed =>
      ⟨failed.1, failed.2.imp fun _ known => ⟨known.1, .inr known.2⟩⟩

/-- A key is removed if the condition holds, and read as it stood. -/
theorem ensures_deleteKey (sound : before.records.Sound) (volume bucket key : String)
    (condition : Precondition) : (deleteKey volume bucket key condition).Ensures before
    (fun removed after => removed = before.records.keyAt (keyPath volume bucket key) ∧
      condition.Holds (before.records.keys.get? (keyPath volume bucket key)) ∧
      Idle { before.counted .deleteKey with
        records := before.records.dropKey (keyPath volume bucket key) } after)
    (fun fault after => after = before.counted .deleteKey ∧ (∃ cause, fault = .error cause) ∧
      (before.RefusedNext after .deleteKey ∨
        ¬ condition.Holds (before.records.keys.get? (keyPath volume bucket key)))) := by
  refine ensures_call (fun cause refused =>
    ⟨rfl, ⟨cause, rfl⟩, .inl (refusedNext_counted ⟨cause, refused⟩)⟩) ?_
  refine ensures_get_bind <| ensures_ofStore_bind (fun taken took => ?_) fun cause failed => ?_
  · obtain ⟨current, records⟩ := taken
    obtain ⟨holds, same, rfl⟩ := Records.takeKey_eq_ok_iff.1 took
    change current = before.records.keys.get? _ at same
    refine ensures_set_bind <| ensures_now.bind fun time final ticked => ?_
    cases found : before.records.keys.get? (keyPath volume bucket key) with
    | none =>
        rw [found] at same
        subst same
        exact ⟨(Records.keyAt_of_absent found).symm, found ▸ holds, ticked⟩
    | some stored =>
        rw [found] at same
        subst same
        obtain ⟨record, seen, stands⟩ := sound.holdsKey found
        change (some <$> ofStore _ : Action (Option KeyRecord)).Ensures final _ _
        rw [stands.ofPersisted time]
        exact ⟨seen.symm, found ▸ holds, ticked⟩
  · refine ⟨rfl, ⟨cause, rfl⟩, .inr fun holds => ?_⟩
    have taken := Records.takeKey_eq_ok_iff.2 ⟨holds, rfl, rfl⟩
    cases failed.symm.trans taken

/-- An allocation gives blocks, or fails and at most takes numbers. -/
theorem ensures_allocateBlocks (faithful : before.outages.Faithful) (replication : Replication)
    (count : Nat) (size : UInt64) : (allocateBlocks replication count size).Ensures before
    (fun blocks after => ∃ allocator,
      before.allocator.allocate replication count size = (.ok blocks, allocator) ∧
        after = { before.counted .allocateBlocks with allocator })
    (fun _ after => ∃ allocator, (allocator = before.allocator ∨ ∃ fault,
      before.allocator.allocate replication count size = (.error fault, allocator)) ∧
        after = { before.counted .allocateBlocks with allocator }) := by
  have asked : (verdict .allocateBlocks).Ensures before
      (fun answer after => after = before.counted .allocateBlocks ∧
        answer = before.outages.next .allocateBlocks)
      (fun _ _ => False) := ⟨rfl, rfl⟩
  refine (asked.mono (fun _ _ known => known) fun _ _ never => never.elim).bind
    fun answer middle known => ?_
  obtain ⟨rfl, given⟩ := known
  cases answer with
  | fail cause => exact ensures_fail ⟨before.allocator, .inl rfl, rfl⟩
  | empty => exact (faithful _ given.symm).elim
  | pass =>
      refine ensures_get_bind ?_
      have same : (before.counted .allocateBlocks).allocator.allocate replication count size =
          before.allocator.allocate replication count size := rfl
      rcases allocated : before.allocator.allocate replication count size with
        ⟨fault | blocks, allocator⟩
      · simp only [same, allocated]
        exact ⟨allocator, .inr ⟨fault, rfl⟩, rfl⟩
      · simp only [same, allocated]
        exact ⟨allocator, rfl, rfl⟩

/-- Blocks are handed back, or the call is refused and only counted. -/
theorem ensures_deleteBlocks (blocks : List Block) : (deleteBlocks blocks).Ensures before
    (fun _ after => after =
      { before.counted .deleteBlocks with allocator := before.allocator.delete blocks })
    (fun fault after => after = before.counted .deleteBlocks ∧
      (∃ cause, fault = .error cause) ∧ before.RefusedNext after .deleteBlocks) :=
  ensures_call
    (fun cause refused => ⟨rfl, ⟨cause, rfl⟩, refusedNext_counted ⟨cause, refused⟩⟩) rfl

/-- Where no call is refused, blocks are handed back. -/
theorem ensures_deleteBlocks_of_silent (silent : before.outages.Silent) (blocks : List Block) :
    (deleteBlocks blocks).Ensures before
      (fun _ after => after =
        { before.counted .deleteBlocks with allocator := before.allocator.delete blocks }) bad :=
  (ensures_deleteBlocks blocks).mono (fun _ _ known => known)
    fun _ _ known => (silent _ _ known.2.2.1).elim

/-- Blocks are handed back before an operation fails. -/
theorem ensures_deleteBlocks_fail {blocks : List Block} {cause : StoreError}
    (released : bad (.error cause)
      { before.counted .deleteBlocks with allocator := before.allocator.delete blocks })
    (refused : ∀ other, before.RefusedNext (before.counted .deleteBlocks) .deleteBlocks →
      bad (.error other) (before.counted .deleteBlocks)) :
    (deleteBlocks blocks >>= fun _ => fail cause : Action α).Ensures before ok bad := by
  refine ((ensures_deleteBlocks blocks).mono (fun _ _ known => known) ?_).bind
    fun _ after known => ?_
  · rintro fault after ⟨rfl, ⟨other, rfl⟩, next⟩
    exact refused other next
  · subst known
    exact ensures_fail released

end Action

end ObjectLedger
