import ObjectLedger.Proofs.Key.Slots

/-! # What a commit accounts for

A matched report accounts for every allocated identity as often as it was allocated: among the
committed blocks and among those left over (`Reconciliation.count_ofReport`).
-/

namespace ObjectLedger

namespace Reconciliation

/-- An identity is matched once if it is allocated, reported, and not matched before. -/
theorem count_split (allocated matched : List BlockId) (reported : List Block) (id : BlockId) :
    ((split allocated matched reported).1.map (·.id)).count id =
      if id ∈ allocated ∧ id ∉ matched ∧ id ∈ reported.map (·.id) then 1 else 0 := by
  induction reported generalizing matched with
  | nil => simp [split]
  | cons block rest ih =>
      rw [split]
      by_cases same : id = block.id
      · split
        · rename_i fresh
          subst same
          change (block.id :: _).count block.id = _
          have again : ¬ (block.id ∈ allocated ∧ block.id ∉ block.id :: matched ∧
              block.id ∈ rest.map (·.id)) := fun known => known.2.1 List.mem_cons_self
          rw [List.count_cons_self, ih, if_neg again, if_pos ⟨fresh.1, fresh.2, List.mem_cons_self⟩]
        · rename_i taken
          change ((split allocated matched rest).1.map (·.id)).count id = _
          rw [ih, if_neg fun known => taken ⟨same ▸ known.1, same ▸ known.2.1⟩,
            if_neg fun known => taken ⟨same ▸ known.1, same ▸ known.2.1⟩]
      · split
        · change (block.id :: _).count id = _
          rw [List.count_cons_of_ne (Ne.symm same), ih]
          simp [same]
        · change ((split allocated matched rest).1.map (·.id)).count id = _
          rw [ih]
          simp [same]

/-- Of an allocated and reported identity, one occurrence is not left over. -/
theorem count_leftOver (reported : List BlockId) (allocated : List Block) (id : BlockId) :
    ((leftOver reported allocated).map (·.id)).count id +
        (if id ∈ reported ∧ id ∈ allocated.map (·.id) then 1 else 0) =
      (allocated.map (·.id)).count id := by
  induction allocated with
  | nil => simp [leftOver]
  | cons block rest ih =>
      rw [leftOver, List.map_cons]
      by_cases same : id = block.id
      · subst same
        have here : block.id ∈ block.id :: rest.map (·.id) := List.mem_cons_self
        split
        · rename_i dropped
          rw [if_neg fun known => dropped.2 known.2, List.count_eq_zero.2 dropped.2] at ih
          rw [if_pos ⟨dropped.1, here⟩, List.count_cons_self, List.count_eq_zero.2 dropped.2]
          omega
        · rename_i kept
          have agree : (block.id ∈ reported ∧ block.id ∈ block.id :: rest.map (·.id)) ↔
              (block.id ∈ reported ∧ block.id ∈ rest.map (·.id)) :=
            ⟨fun known => ⟨known.1, Decidable.byContradiction fun absent =>
              kept ⟨known.1, absent⟩⟩, fun known => ⟨known.1, here⟩⟩
          simp only [agree]
          rw [List.map_cons, List.count_cons_self, List.count_cons_self]
          omega
      · have agree : (id ∈ reported ∧ id ∈ block.id :: rest.map (·.id)) ↔
            (id ∈ reported ∧ id ∈ rest.map (·.id)) := by
          rw [List.mem_cons, or_iff_right same]
        simp only [agree]
        rw [List.count_cons_of_ne (Ne.symm same), ← ih]
        split
        · rfl
        · rw [List.map_cons, List.count_cons_of_ne (Ne.symm same)]

/-- A matched report accounts for every identity as often as it was allocated. -/
theorem count_ofReport (key : String) (version : UInt64) (allocated reported : List Block)
    (id : BlockId) :
    ((ofReport key version allocated reported).committed.map (·.id)).count id +
        ((ofReport key version allocated reported).uncommitted.map (·.id)).count id =
      (allocated.map (·.id)).count id := by
  have matched := count_split (allocated.map (·.id)) [] reported id
  have remaining := count_leftOver (reported.map (·.id)) allocated id
  rw [ofReport_split, ← remaining, Nat.add_comm, matched]
  congr 1
  simp only [List.not_mem_nil, not_false_eq_true, true_and, and_comm]

end Reconciliation

/-- A group holds the blocks that it is made of. -/
theorem VersionGroup.ids_ofBlocks (version : UInt64) (blocks : List Block) (multipart : Bool) :
    (ofBlocks version blocks multipart).blocks.map (·.id) = blocks.map (·.id) := by
  simp [ofBlocks, Block.stamp]

/-- Appended blocks stand behind the others. -/
theorem VersionGroup.ids_append (group : VersionGroup) (blocks : List Block) :
    (group.append blocks).blocks.map (·.id) = group.blocks.map (·.id) ++ blocks.map (·.id) := by
  simp [append, Block.stamp]

theorem VersionGroup.ids_withoutPipelines (group : VersionGroup) :
    group.withoutPipelines.blocks.map (·.id) = group.blocks.map (·.id) := by
  simp [withoutPipelines, Block.withoutPipeline]

end ObjectLedger
