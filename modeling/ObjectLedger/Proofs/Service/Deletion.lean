import ObjectLedger.Proofs.Service.Bucket
import ObjectLedger.Service.Commit

/-! # How far a deletion comes

A deletion removes the key before it moves the usage of the bucket and hands the blocks back.
It does not undo the removal when it stops in between (`DeleteEffect`).
-/

namespace ObjectLedger.Action

open Service

variable {before : Service}

/-- How far the deletion of a key comes, and the records and the allocator that it leaves. -/
inductive DeleteEffect (before : Service) (volume bucket name : String) :
    Except Fault KeyRecord → Service → Prop
  /-- Nothing was done. A key that is stored under the name was not reached. -/
  | untouched {fault : Fault} {after : Service}
      (leaves : before.Leaves after before.records before.allocator)
      (reason : ∀ home record, before.records.resolve? volume bucket = some home →
        before.records.keyAt (keyPath home.volume home.name name) = some record →
          before.RefusedBucket after ∨ before.RefusedNext after .deleteKey) :
      DeleteEffect before volume bucket name (.error fault) after
  /-- The key was removed, but its bucket was not charged. -/
  | dropped {fault : Fault} {after : Service} {home : BucketRecord} {record : KeyRecord}
      (stands : before.records.Home home.volume home.name home)
      (seen : before.records.keyAt (keyPath home.volume home.name name) = some record)
      (reason : ∀ cause, fault = .error cause → before.RefusedBucketFrom after
        (before.outages.calls .readBucket + before.records.reads volume bucket)
        (before.outages.calls .writeBucket))
      (leaves : before.Leaves after
        (before.records.dropKey (keyPath home.volume home.name name)) before.allocator)
      (leads : before.records.resolve? volume bucket = some home) :
      DeleteEffect before volume bucket name (.error fault) after
  /-- The key was removed and its bucket charged. -/
  | settled {result : Except Fault KeyRecord} {after : Service} {home : BucketRecord}
      {record : KeyRecord} {freed : Int64} {records : Records} {allocator : Allocator}
      (stands : before.records.Home home.volume home.name home)
      (seen : before.records.keyAt (keyPath home.volume home.name name) = some record)
      (charge : record.replication.charge record.allBlocks = .ok freed)
      (moves : (before.records.dropKey (keyPath home.volume home.name name)).Moves home.volume
        home.name (-freed) (-1) records)
      (released : result = .ok { record with encryption := none } ∧
          allocator = before.allocator.delete record.allBlocks ∨
        (∃ fault, result = .error fault) ∧ allocator = before.allocator ∧
          before.RefusedNext after .deleteBlocks)
      (leaves : before.Leaves after records allocator)
      (leads : before.records.resolve? volume bucket = some home) :
      DeleteEffect before volume bucket name result after

/-- What is not lost by dropping keys and moving usage is kept, however far a deletion comes. -/
theorem DeleteEffect.keeps {volume bucket name : String} {result : Except Fault KeyRecord}
    {after : Service} (effect : DeleteEffect before volume bucket name result after)
    {holds : Records → Prop} (stable : Records.Stable holds) (here : holds before.records) :
    holds after.records := by
  cases effect with
  | untouched leaves => exact leaves.records ▸ here
  | dropped stands seen reason leaves => exact leaves.records ▸ stable.dropKey here _
  | settled stands seen charge moves released leaves =>
      exact leaves.records ▸ stable.moves (stable.dropKey here _) moves

/-- The records stay sound, however far a deletion comes. -/
theorem DeleteEffect.sound {volume bucket name : String} {result : Except Fault KeyRecord}
    {after : Service} (effect : DeleteEffect before volume bucket name result after)
    (sound : before.records.Sound) : after.records.Sound :=
  effect.keeps Records.stable_sound sound

/-- A stored key is deleted, unless a call is refused or an exact result overflows. -/
theorem DeleteEffect.deleted {volume bucket name : String} {result : Except Fault KeyRecord}
    {after : Service} (effect : DeleteEffect before volume bucket name result after)
    {home : BucketRecord} (leads : before.records.resolve? volume bucket = some home)
    {record : KeyRecord}
    (seen : before.records.keyAt (keyPath home.volume home.name name) = some record)
    (reaches : ¬ before.RefusedBucket after) (removes : ¬ before.RefusedNext after .deleteKey)
    (releases : ¬ before.RefusedNext after .deleteBlocks)
    (fits : ∀ cause, result ≠ .error (.overflow cause)) :
    result = .ok { record with encryption := none } := by
  cases effect with
  | untouched leaves reason => exact ((reason home record leads seen).elim reaches removes).elim
  | @dropped fault _ _ _ _ _ reason =>
      cases fault with
      | error cause =>
          exact (reaches ((reason cause rfl).of_calls rfl (fun _ => Nat.le_refl _)
            (Nat.le_add_right ..) (Nat.le_refl _))).elim
      | overflow cause => exact (fits cause rfl).elim
  | settled _ there _ _ released _ same =>
      rcases released with ⟨rfl, -⟩ | ⟨-, -, refused⟩
      · obtain rfl := Option.some.inj (leads.symm.trans same)
        obtain rfl := Option.some.inj (seen.symm.trans there)
        rfl
      · exact (releases refused).elim

/-- A deletion has one of the effects above. -/
theorem ensures_deleteKeyOf (sound : before.records.Sound) (settings : Settings)
    (volume bucket name : String) : (deleteKeyOf settings volume bucket name).Ensures before
    (fun record after => DeleteEffect before volume bucket name (.ok record) after)
    (fun fault after => DeleteEffect before volume bucket name (.error fault) after) := by
  refine ((ensures_resolveBucket sound.toBucketsSound volume bucket).mono (fun _ _ known => known)
    fun _ _ known => .untouched known.1.halted.leaves fun home _ leads _ =>
      .inl (known.2.2 (leads ▸ rfl))).bind fun home first known => ?_
  obtain ⟨resolved, leads, read⟩ := known
  have stands := sound.home_of_resolve leads
  have soundFirst : first.records.Sound := resolved.records.symm ▸ sound
  refine ((ensures_deleteKey soundFirst home.volume home.name name .unconditional).mono
    (fun _ _ known => known) ?_).bind fun removed second known => ?_
  · rintro fault after ⟨rfl, -, refused | unmet⟩
    · have lasting : Method.deleteKey.Lasting := by simp [Method.Lasting]
      exact .untouched ⟨resolved.records, resolved.allocator, resolved.schedule,
        .inr resolved.generation⟩ fun _ _ _ _ => .inr (resolved.refusedNext lasting refused)
    · exact (unmet trivial).elim
  obtain ⟨rfl, -, idle⟩ := known
  rw [resolved.records] at idle
  have generation := UInt64.le_trans resolved.generation idle.generation
  cases seen : before.records.keyAt (keyPath home.volume home.name name) with
  | none =>
      rw [resolved.records, seen]
      have absent : before.records.keys.get? (keyPath home.volume home.name name) = none := by
        cases found : before.records.keys.get? (keyPath home.volume home.name name) with
        | none => rfl
        | some stored =>
            obtain ⟨record, other, -⟩ := sound.holdsKey found
            cases seen.symm.trans other
      refine ensures_fail (.untouched ⟨idle.records.trans ?_, idle.allocator.trans
        resolved.allocator, idle.schedule.trans resolved.schedule, .inr generation⟩
          fun other record same there => ?_)
      · change before.records.dropKey _ = _
        unfold Records.dropKey
        rw [Dictionary.erase_of_absent absent]
      · obtain rfl := Option.some.inj (leads.symm.trans same)
        cases seen.symm.trans there
  | some record =>
      rw [resolved.records, seen]
      dsimp only
      have dropped : before.Leaves second
          (before.records.dropKey (keyPath home.volume home.name name)) before.allocator :=
        ⟨idle.records, idle.allocator.trans resolved.allocator,
          idle.schedule.trans resolved.schedule, .inr generation⟩
      have soundSecond : second.records.Sound := idle.records.symm ▸ sound.dropKey _
      -- What is refused from here on is refused after the calls that led to the bucket.
      have later : ∀ method, first.outages.calls method ≤ second.outages.calls method :=
        fun method => Nat.le_trans (first.onward_counted .deleteKey method) (idle.onward method)
      refine ensures_ofWord_bind (fun freed charge => ?_)
        fun _ _ => .dropped stands seen (fun _ same => by cases same) dropped leads
      refine ((ensures_chargeUsage soundSecond.toBucketsSound settings home.volume home.name
        (-freed) (-1)).mono (fun _ _ known => known) ?_).bind fun _ third known => ?_
      · rintro fault after ⟨ended, reason⟩
        refine .dropped stands seen (fun cause same => ?_)
          ⟨ended.halted.records.trans idle.records, ended.halted.allocator.trans dropped.allocator,
            ended.halted.schedule.trans dropped.schedule,
            ended.halted.generation.imp_right (UInt64.le_trans generation)⟩ leads
        have refused := reason cause same home (by rw [idle.records]; exact stands.dropKey _)
        exact refused.of_calls dropped.schedule (fun _ => Nat.le_refl _)
          (Nat.le_trans read (later _)) (Nat.le_trans (resolved.onward _) (later _))
      · obtain ⟨records, moves, moved⟩ := known
        rw [idle.records] at moves
        have allocator : third.allocator = before.allocator :=
          moved.allocator.trans dropped.allocator
        have counted := UInt64.le_trans generation moved.generation
        have lasting : Method.deleteBlocks.Lasting := by simp [Method.Lasting]
        refine ((ensures_deleteBlocks _).mono (fun _ _ known => known) ?_).bind
          fun _ after known => ?_
        · rintro fault after ⟨rfl, ⟨cause, rfl⟩, refused⟩
          have handed : second.RefusedNext (third.counted .deleteBlocks) .deleteBlocks :=
            moved.refusedNext lasting refused
          have next : first.RefusedNext (third.counted .deleteBlocks) .deleteBlocks :=
            refusedNext_of_counted (by decide) (idle.refusedNext lasting handed)
          exact .settled stands seen charge moves
            (.inr ⟨⟨_, rfl⟩, rfl, resolved.refusedNext lasting next⟩)
            ⟨moved.records, allocator, moved.schedule.trans dropped.schedule, .inr counted⟩ leads
        · subst known
          refine ensures_pure (.settled stands seen charge moves (.inl ⟨rfl, rfl⟩)
            ⟨moved.records, ?_, moved.schedule.trans dropped.schedule, .inr counted⟩ leads)
          change third.allocator.delete _ = _
          rw [allocator]
          rfl

end ObjectLedger.Action
