import ObjectLedger.Proofs.Service.Blocks

/-! # No block leaks

The ledger says that what is used is live. Where nothing is refused and no exact result
overflows, the converse holds as well (`World.Tight`): what an operation no longer uses it hands
back, whether the operation succeeds or fails. The live identities are then exactly those that
stored keys refer to and those that open sessions allocated
(`World.nothingLeaks_of_counting`).
-/

namespace ObjectLedger.World

/-- Every live identity is used by a stored key or an open session. -/
def Tight (world : World) : Prop := ∀ id ∈ world.service.allocator.live, 0 < world.uses id

/-- The live identities are those in the versions of stored keys and those allocated to the
versions that open sessions write. -/
structure NothingLeaks (world : World) : Prop where
  /-- The frames of stored keys are read, so their blocks are all known. -/
  readable : ∀ path stored, world.service.records.keys.get? path = some stored →
    ∃ key, KeyRecord.ofPersisted stored.bytes 0 = .ok key
  live : ∀ id, world.service.allocator.isLive id ↔ id ∈ world.service.records.blockIds ∨
    ∃ place session, world.sessionAt place = some session ∧
      id ∈ session.allocated.map (·.id)

variable {settings : Settings} {before after : World} {whole : Prop} {issued : Nat}

/-- Identities stay in use where they flow without loss. -/
theorem Flow.tight (flow : Flow before after whole) (holds : whole) (tight : before.Tight) :
    after.Tight := by
  intro id member
  cases flow with
  | given few allocate grown =>
      obtain ⟨-, live, -⟩ := Allocator.allocate_ok allocate
      rw [live] at member
      rw [grown id]
      rcases List.mem_append.1 member with old | new
      · exact Nat.lt_add_right _ (tight id old)
      · exact Nat.lt_add_left _ (List.count_pos_iff.2 new)
  | returned blocks allocator conserved complete =>
      rw [allocator] at member
      obtain ⟨old, kept⟩ := List.mem_filter.1 member
      have used := tight id old
      have none : (blocks.map (·.id)).count id = 0 :=
        List.count_eq_zero.2 (of_decide_eq_true kept)
      have all := complete holds id
      omega
  | wasted few advances same live =>
      rw [live holds] at member
      rw [same id]
      exact tight id member

/-- A new allocator has nothing live that could be lost. -/
theorem tight_start {containers : UInt64} {pipelines : Nat → PipelineId} {allocator : Allocator}
    (created : Allocator.new containers pipelines = .ok allocator) (clock : Clock)
    (outages : Outages) : (start allocator clock outages).Tight := by
  unfold Allocator.new at created
  split at created
  · cases created
  · cases created
    intro id member
    cases member

/-- What open sessions use is what was allocated to one of them. -/
theorem mem_openIds_iff (world : World) (id : BlockId) :
    id ∈ world.openIds ↔ ∃ place session, world.sessionAt place = some session ∧
      id ∈ session.allocated.map (·.id) := by
  constructor
  · intro member
    obtain ⟨entry, listed, inside⟩ := List.mem_flatMap.1 member
    obtain ⟨place, found⟩ := List.mem_iff_getElem?.1 listed
    cases entry with
    | none => cases inside
    | some session =>
        refine ⟨place, session, ?_, inside⟩
        unfold sessionAt
        rw [found]
        rfl
  · rintro ⟨place, session, found, inside⟩
    exact mem_openIds found inside

/-- A tight ledger accounts for every live block. -/
theorem Ledger.nothingLeaks {world : World} (ledger : world.Ledger issued) (tight : world.Tight)
    (sound : world.Sound) : world.NothingLeaks where
  readable := (ledger.blockSafe sound).readable
  live id := by
    have used : 0 < world.uses id ↔
        id ∈ world.service.records.blockIds ∨ id ∈ world.openIds := by
      unfold uses
      rw [Nat.add_pos_iff_pos_or_pos, List.count_pos_iff, List.count_pos_iff]
    rw [← mem_openIds_iff, ← used]
    constructor
    · intro live
      exact tight id (List.contains_iff_mem.1 live)
    · intro positive
      exact List.contains_iff_mem.2 (ledger.live id positive)

/-- Nothing leaks at any moment of any run in which nothing is refused, however reports look and
writers are interleaved, as long as no exact result overflows and neither the generations nor the
block numbers run out. -/
theorem nothingLeaks_of_counting (settings : Settings) {containers : UInt64}
    {pipelines : Nat → PipelineId} {allocator : Allocator}
    (created : Allocator.new containers pipelines = .ok allocator) (clock : Clock)
    (operations : List Operation) (matched : ∀ operation ∈ operations, operation.Matched)
    (counting : (start allocator clock .never).Throughout settings Counting operations)
    (few : (start allocator clock .never).issued settings operations < UInt64.size)
    (exact : ∀ outcome ∈ (start allocator clock .never).outcomes settings operations,
      outcome.overflows = false) (count : Nat) :
    ((start allocator clock .never).moment settings operations count).NothingLeaks := by
  have sound := sound_start allocator clock faithful_never
  have always := counting.moment (counting_start allocator clock .never)
  have ledger := ledger_start created clock .never
  have kept := (ledger.kept sound operations counting matched (Nat.zero_add _ ▸ few)).moment
    ⟨sound, 0, ledger⟩
  have tight : ((start allocator clock .never).moment settings operations count).Tight := by
    apply moment_induction Tight (Nat.zero_le count) (tight_start created clock .never)
    intro count operation _ next here
    have flow := (sound.stepAt always next).flow (kept count).1
      (matched operation (List.mem_of_getElem? next))
    have silent := sound.silent_moment always Outages.silent_never count
    exact flow.tight ⟨silent, exact _ (mem_outcomes next)⟩ here
  obtain ⟨still, issued, next⟩ := kept count
  exact next.nothingLeaks tight still

set_option maxRecDepth 20000 in
/-- Writers that overwrite, clash and delete leave no block behind. -/
theorem nothingLeaks_contending :
    (∃ allocator, Allocator.new 1 (fun _ => ⟨.replicate 16 0⟩) = .ok allocator) ∧
    (∀ operation ∈ contending, operation.Matched) ∧
    calm.Throughout {} Counting contending ∧ calm.issued {} contending < UInt64.size ∧
    (∀ outcome ∈ calm.outcomes {} contending, outcome.overflows = false) ∧
    (calm.moment {} contending 6).service.allocator.live = [⟨1, 1⟩] ∧
    (calm.moment {} contending 12).service.allocator.live = [⟨1, 5⟩, ⟨1, 7⟩] ∧
    ∀ count, (calm.moment {} contending count).NothingLeaks := by
  have matched : ∀ operation ∈ contending, operation.Matched := by decide +kernel
  have runs : calm.Throughout {} Counting contending ∧
      calm.issued {} contending < UInt64.size ∧
      (∀ outcome ∈ calm.outcomes {} contending, outcome.overflows = false) ∧
      (calm.moment {} contending 6).service.allocator.live = [⟨1, 1⟩] ∧
      (calm.moment {} contending 12).service.allocator.live = [⟨1, 5⟩, ⟨1, 7⟩] := by
    decide +kernel
  obtain ⟨counting, few, exact, first, last⟩ := runs
  have created : Allocator.new 1 (fun _ => ⟨.replicate 16 0⟩) = .ok calm.service.allocator := rfl
  exact ⟨⟨_, created⟩, matched, counting, few, exact, first, last,
    nothingLeaks_of_counting {} created _ contending matched counting few exact⟩

end ObjectLedger.World
