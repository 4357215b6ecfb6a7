import ObjectLedger.Proofs.Key.Draft
import ObjectLedger.Proofs.Service.Call
import ObjectLedger.Proofs.Service.Run

/-! # Numbers drawn from the counter of generations

Generations of records and update identifiers of new buckets are drawn from one counter
(`Draw.perform`). A generation may have to lie above that of a record, however far ahead of the
counter the record is; the counter then moves beyond it
(`Action.ensures_generationAbove_exact`). So every draw hands out a number that is not below the
counter and leaves the counter above the number (`Service.perform_between`), and the numbers
increase over any sequence of draws, as long as the counter has not come to its end
(`Service.drawsUpward_of_unspent`).
-/

namespace ObjectLedger

namespace Action

/-- Creating a bucket draws its update identifier, whether or not the bucket can be stored. -/
theorem ensures_createBucket_draws (draft : BucketDraft) (before : Service) :
    (createBucket draft).Ensures before
      (fun bucket after => bucket.updateId = before.nextGeneration ∧
        after.nextGeneration = before.nextGeneration + 1)
      (fun _ after => after.nextGeneration = before.nextGeneration + 1) := by
  have ticks : now.Ensures before
      (fun _ first => first.nextGeneration = before.nextGeneration)
      (fun _ after => after.nextGeneration = before.nextGeneration + 1) := rfl
  refine ticks.bind fun time first same => ?_
  have numbers : takeObjectId.Ensures first
      (fun _ second => second.nextGeneration = before.nextGeneration)
      (fun _ after => after.nextGeneration = before.nextGeneration + 1) := same
  refine numbers.bind fun objectId second kept => ?_
  refine ensures_takeGeneration.bind fun updateId third taken => ?_
  obtain ⟨rfl, rfl⟩ := taken
  dsimp only
  split
  · exact ensures_fail (kept ▸ rfl)
  · rename_i created built
    refine ((ensures_storeBucket created).mono (fun _ _ known => known) ?_).bind
      fun _ last stored => ?_
    · rintro fault after ⟨rfl, -⟩
      exact kept ▸ rfl
    · obtain ⟨records, -, rfl⟩ := stored
      exact ensures_pure ⟨(BucketDraft.updateId_of_build built).trans kept, kept ▸ rfl⟩

end Action

/-! ## Draws -/

/-- A call that draws a number from the counter of generations. -/
inductive Draw where
  /-- A generation above the one of a record. -/
  | above (current : UInt64)
  /-- The update identifier of a new bucket. -/
  | bucket (draft : BucketDraft)

/-- The number that a draw hands out, unless it overflows, and the service after it. A bucket takes
its update identifier before it is known whether it can be created. -/
def Draw.perform (service : Service) : Draw → Option UInt64 × Service
  | .above current =>
    match (Action.generationAbove current).exec service with
    | (.ok generation, after) => (some generation, after)
    | (.error _, after) => (none, after)
  | .bucket draft => (some service.nextGeneration, ((Action.createBucket draft).exec service).2)

namespace Service

/-- The service after some draws. -/
def drawAll (service : Service) (draws : List Draw) : Service :=
  draws.foldl (fun service draw => (draw.perform service).2) service

/-- The numbers that some draws hand out, one after the other. -/
def handedOut (service : Service) : List Draw → List UInt64
  | [] => []
  | draw :: rest => (draw.perform service).1.toList ++ (draw.perform service).2.handedOut rest

/-- Before each of some draws the counter is below its largest value. -/
def Unspent (service : Service) : List Draw → Prop
  | [] => True
  | draw :: rest =>
    service.nextGeneration ≠ 0xffffffffffffffff ∧ (draw.perform service).2.Unspent rest

instance decidableUnspent : (service : Service) → (draws : List Draw) →
    Decidable (service.Unspent draws)
  | _, [] => .isTrue trivial
  | service, draw :: rest =>
    have := decidableUnspent (draw.perform service).2 rest
    inferInstanceAs (Decidable (_ ∧ _))

/-- The numbers handed out by some draws increase, and each of them serves what it was drawn for. -/
structure DrawsUpward (service : Service) (draws : List Draw) : Prop where
  increasing : (service.handedOut draws).Pairwise (· < ·)
  /-- A generation lies above the one that it was drawn for, so that a record of that generation
  accepts it. -/
  above : ∀ earlier current later, draws = earlier ++ .above current :: later →
    ∀ generation, (Draw.perform (service.drawAll earlier) (.above current)).1 = some generation →
      current < generation ∧ ∀ key : KeyRecord, key.generation = current →
        key.advanceGeneration generation = .ok { key with generation }
  /-- There is one unless the record is at the end of the generations. -/
  given : ∀ earlier current later, draws = earlier ++ .above current :: later →
    ((Draw.perform (service.drawAll earlier) (.above current)).1.isSome ↔
      current.toNat + 2 < UInt64.size)
  /-- A bucket that is created has the number as its update identifier. -/
  bucket : ∀ earlier draft later, draws = earlier ++ .bucket draft :: later →
    ∀ created, ((Action.createBucket draft).exec (service.drawAll earlier)).1 = .ok created →
      (Draw.perform (service.drawAll earlier) (.bucket draft)).1 = some created.updateId

variable {service : Service} {draws : List Draw}

/-- What a draw of a generation hands out and leaves. -/
theorem perform_above (service : Service) (current : UInt64) :
    (∃ generation, (Draw.perform service (.above current)).1 = some generation ∧
      generation.toNat = max service.nextGeneration.toNat (current.toNat + 1) ∧
      generation.toNat + 1 < UInt64.size ∧
      (Draw.perform service (.above current)).2.nextGeneration.toNat = generation.toNat + 1) ∨
    ((Draw.perform service (.above current)).1 = none ∧
      UInt64.size ≤ max service.nextGeneration.toNat (current.toNat + 1) + 1 ∧
      (Draw.perform service (.above current)).2.nextGeneration = service.nextGeneration + 1) := by
  have ensured := Action.ensures_generationAbove_exact current service
  simp only [Draw.perform]
  rcases ran : (Action.generationAbove current).exec service with ⟨fault | generation, after⟩
  · obtain ⟨-, large, rfl⟩ := ensured.of_exec_error ran
    exact .inr ⟨rfl, large, rfl⟩
  · obtain ⟨drawn, fits, rfl⟩ := ensured.of_exec_ok ran
    exact .inl ⟨generation, rfl, drawn, fits, Word.toNat_succ fits⟩

/-- Whatever comes of a new bucket, the counter moves on by one. -/
theorem perform_bucket (service : Service) (draft : BucketDraft) :
    (Draw.perform service (.bucket draft)).2.nextGeneration = service.nextGeneration + 1 := by
  have ensured := Action.ensures_createBucket_draws draft service
  simp only [Draw.perform]
  rcases ran : (Action.createBucket draft).exec service with ⟨fault | created, after⟩
  · exact ensured.of_exec_error ran
  · exact (ensured.of_exec_ok ran).2

/-- The counter goes up by one unless it stands at the largest word. -/
theorem toNat_next (unspent : service.nextGeneration ≠ 0xffffffffffffffff) :
    service.nextGeneration.toNat + 1 < UInt64.size ∧
      (service.nextGeneration + 1).toNat = service.nextGeneration.toNat + 1 := by
  have small := service.nextGeneration.toNat_lt_size
  have other : service.nextGeneration.toNat ≠ (0xffffffffffffffff : UInt64).toNat :=
    unspent ∘ UInt64.toNat_inj.1
  have last : (0xffffffffffffffff : UInt64).toNat + 1 = UInt64.size := rfl
  have fits : service.nextGeneration.toNat + 1 < UInt64.size := by omega
  exact ⟨fits, Word.toNat_succ fits⟩

/-- A draw hands out a number between the counter before it and the counter after it. -/
theorem perform_between (unspent : service.nextGeneration ≠ 0xffffffffffffffff) (draw : Draw) :
    service.nextGeneration ≤ (draw.perform service).2.nextGeneration ∧
      ∀ number, (draw.perform service).1 = some number →
        service.nextGeneration ≤ number ∧ number < (draw.perform service).2.nextGeneration := by
  obtain ⟨-, next⟩ := toNat_next unspent
  simp only [UInt64.le_iff_toNat_le, UInt64.lt_iff_toNat_lt]
  cases draw with
  | above current =>
      rcases perform_above service current with ⟨generation, given, drawn, -, counter⟩ |
        ⟨nothing, -, counter⟩
      · rw [given, counter]
        refine ⟨by omega, ?_⟩
        rintro number ⟨⟩
        omega
      · rw [nothing, counter]
        exact ⟨by omega, nofun⟩
  | bucket draft =>
      rw [perform_bucket]
      refine ⟨by omega, ?_⟩
      rintro number ⟨⟩
      omega

/-- No number that draws hand out is below the counter before them. -/
theorem le_handedOut (unspent : service.Unspent draws) :
    ∀ number ∈ service.handedOut draws, service.nextGeneration ≤ number := by
  induction draws generalizing service with
  | nil => nofun
  | cons draw rest ih =>
      obtain ⟨counter, between⟩ := perform_between unspent.1 draw
      intro number member
      rcases List.mem_append.1 member with here | later
      · exact (between number (Option.mem_toList.1 here)).1
      · exact UInt64.le_trans counter (ih unspent.2 number later)

/-- As long as the words last, every draw gives more than all before. -/
theorem handedOut_increasing (unspent : service.Unspent draws) :
    (service.handedOut draws).Pairwise (· < ·) := by
  induction draws generalizing service with
  | nil => exact .nil
  | cons draw rest ih =>
      obtain ⟨-, between⟩ := perform_between unspent.1 draw
      refine List.pairwise_append.2 ⟨?_, ih unspent.2, fun earlier here later there => ?_⟩
      · cases (draw.perform service).1 with
        | none => exact .nil
        | some number => exact List.pairwise_singleton _ number
      · exact UInt64.lt_of_lt_of_le (between earlier (Option.mem_toList.1 here)).2
          (le_handedOut unspent.2 later there)

/-- Words that last for all draws last for the later ones. -/
theorem Unspent.drawAll {earlier later : List Draw} (unspent : service.Unspent (earlier ++ later)) :
    (service.drawAll earlier).Unspent later := by
  induction earlier generalizing service with
  | nil => exact unspent
  | cons draw earlier ih => exact ih unspent.2

/-- Over any sequence of generations drawn above arbitrary ones and of identifiers drawn for new
buckets, the numbers increase as long as the counter has not come to its end. A draw that overflows
hands out nothing and does not disturb the others. -/
theorem drawsUpward_of_unspent (unspent : service.Unspent draws) : service.DrawsUpward draws where
  increasing := handedOut_increasing unspent
  above := by
    rintro earlier current later rfl generation given
    rcases perform_above (service.drawAll earlier) current with ⟨other, same, drawn, -⟩ |
      ⟨nothing, -⟩
    · cases given.symm.trans same
      have beyond : current < generation := UInt64.lt_iff_toNat_lt.2 (by omega)
      refine ⟨beyond, fun key own => ?_⟩
      rw [KeyRecord.advanceGeneration, if_pos (own ▸ UInt64.le_of_lt beyond)]
    · cases given.symm.trans nothing
  given := by
    rintro earlier current later rfl
    obtain ⟨room, -⟩ := toNat_next unspent.drawAll.1
    rcases perform_above (service.drawAll earlier) current with
      ⟨generation, given, drawn, fits, -⟩ | ⟨nothing, large, -⟩
    · rw [given, Option.isSome_some, iff_true_left rfl]
      omega
    · rw [nothing, Option.isSome_none, iff_false_left Bool.false_ne_true]
      omega
  bucket := by
    rintro earlier draft later rfl created made
    have ensured := Action.ensures_createBucket_draws draft (service.drawAll earlier)
    rcases ran : (Action.createBucket draft).exec (service.drawAll earlier) with ⟨result, after⟩
    rw [ran] at made
    cases made
    exact congrArg some (ensured.of_exec_ok ran).1.symm

/-- Generations above old and new ones, with a bucket that is created and one that is not. -/
def mixedDraws : List Draw :=
  [.above 0, .bucket { volume := some "v", name := some "b", medium := some .disk }, .above 41,
    .above 7, .above 0xfffffffffffffffe, .bucket {}, .above 45]

/-- Generations go up over jumps, a failed creation and an overflow. -/
theorem drawsUpward_mixed : World.calm.service.Unspent mixedDraws ∧
    World.calm.service.DrawsUpward mixedDraws := by
  have unspent : World.calm.service.Unspent mixedDraws := by decide +kernel
  exact ⟨unspent, drawsUpward_of_unspent unspent⟩

end Service

end ObjectLedger
