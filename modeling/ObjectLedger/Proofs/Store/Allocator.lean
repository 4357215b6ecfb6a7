import ObjectLedger.Store.Allocator

/-! # Identities given out by the allocator

The numbers of new blocks go on from the counter, so blocks allocated one after the other never
share an identity until the counter comes round (`Allocator.fresh_of_allocate`). Allocating
deletes nothing and deleting gives nothing out.
-/

namespace ObjectLedger.Allocator

variable {allocator after : Allocator} {replication : Replication} {size : UInt64}

/-- The numbers from some number on. -/
def numbersFrom (first : UInt64) (count : Nat) : List UInt64 :=
  (List.range count).map fun place => first + UInt64.ofNat place

theorem numbersFrom_succ (first : UInt64) (count : Nat) :
    numbersFrom first (count + 1) = first :: numbersFrom (first + 1) count := by
  unfold numbersFrom
  rw [List.range_succ_eq_map, List.map_cons, List.map_map]
  congr 1
  · exact UInt64.add_zero first
  · refine List.map_congr_left fun place _ => ?_
    rw [Function.comp_apply, Nat.succ_eq_add_one, UInt64.ofNat_add, UInt64.add_comm _ (.ofNat 1),
      ← UInt64.add_assoc]
    rfl

/-- What taking identities leaves alone. -/
structure Draws (before after : Allocator) : Prop where
  live : after.live = before.live
  deleted : after.deleted = before.deleted

/-- Placing blocks takes the next numbers in turn. -/
theorem placeMany_ok {count : Nat} {blocks : List Block}
    (placed : placeMany replication size count allocator = (.ok blocks, after)) :
    allocator.Draws after ∧ after.nextNumber = allocator.nextNumber + UInt64.ofNat count ∧
      blocks.map (·.id.number) = numbersFrom allocator.nextNumber count := by
  induction count generalizing allocator blocks with
  | zero =>
      cases placed
      exact ⟨⟨rfl, rfl⟩, (UInt64.add_zero _).symm, rfl⟩
  | succ count ih =>
      rw [placeMany, place] at placed
      cases required : replication.requiredNodes with
      | error cause => rw [required] at placed; cases placed
      | ok nodes =>
          rw [required] at placed
          dsimp only [nextId] at placed
          split at placed
          · cases placed
          · rename_i others final rest
            cases placed
            obtain ⟨draws, counter, numbers⟩ := ih rest
            refine ⟨⟨draws.live, draws.deleted⟩, ?_, ?_⟩
            · rw [counter, UInt64.ofNat_add, UInt64.add_comm (.ofNat count), ← UInt64.add_assoc]
              rfl
            · rw [List.map_cons, numbers, numbersFrom_succ]
              rfl

/-- An overflow takes at most the numbers asked for. -/
theorem placeMany_error {count : Nat} {cause : Overflow}
    (placed : placeMany replication size count allocator = (.error cause, after)) :
    allocator.Draws after ∧
      ∃ taken ≤ count, after.nextNumber = allocator.nextNumber + UInt64.ofNat taken := by
  induction count generalizing allocator with
  | zero => cases placed
  | succ count ih =>
      rw [placeMany, place] at placed
      cases required : replication.requiredNodes with
      | error cause =>
          rw [required] at placed
          cases placed
          exact ⟨⟨rfl, rfl⟩, 1, Nat.le_add_left 1 count, rfl⟩
      | ok nodes =>
          rw [required] at placed
          dsimp only [nextId] at placed
          split at placed
          · rename_i fault final rest
            cases placed
            obtain ⟨draws, taken, few, counter⟩ := ih rest
            refine ⟨⟨draws.live, draws.deleted⟩, taken + 1, Nat.succ_le_succ few, ?_⟩
            rw [counter, UInt64.ofNat_add, UInt64.add_comm (.ofNat taken), ← UInt64.add_assoc]
            rfl
          · cases placed

/-- Allocated blocks go live under a usable replication, with the next numbers. -/
theorem allocate_ok {count : Nat} {blocks : List Block}
    (given : allocator.allocate replication count size = (.ok blocks, after)) :
    replication.Usable ∧ after.live = allocator.live ++ blocks.map (·.id) ∧
      after.deleted = allocator.deleted ∧
      after.nextNumber = allocator.nextNumber + UInt64.ofNat count ∧
      blocks.map (·.id.number) = numbersFrom allocator.nextNumber count := by
  unfold allocate at given
  cases usable : replication.validate with
  | error cause => rw [usable] at given; cases given
  | ok _ =>
      rw [usable] at given
      dsimp only at given
      split at given
      · cases given
      · rename_i placed rest
        cases given
        obtain ⟨draws, counter, numbers⟩ := placeMany_ok rest
        refine ⟨usable, ?_, draws.deleted, counter, numbers⟩
        rw [← draws.live]

/-- A failed allocation only takes numbers. -/
theorem allocate_error {count : Nat} {fault : Fault}
    (given : allocator.allocate replication count size = (.error fault, after)) :
    allocator.Draws after ∧
      ∃ taken ≤ count, after.nextNumber = allocator.nextNumber + UInt64.ofNat taken := by
  unfold allocate at given
  cases usable : replication.validate with
  | error cause =>
      rw [usable] at given
      cases given
      exact ⟨⟨rfl, rfl⟩, 0, Nat.zero_le count, (UInt64.add_zero _).symm⟩
  | ok _ =>
      rw [usable] at given
      dsimp only at given
      split at given
      · rename_i placed rest
        cases given
        exact placeMany_error rest
      · cases given

/-- An allocation that was refused or failed gives out nothing. -/
theorem live_of_refused {count : Nat}
    (refused : after = allocator ∨
      ∃ fault, allocator.allocate replication count size = (.error fault, after)) :
    after.live = allocator.live := by
  rcases refused with rfl | ⟨fault, failed⟩
  · rfl
  · exact (allocate_error failed).1.live

/-- An allocator that went on: nothing was deleted, and at most so many numbers were taken. -/
structure Advances (before after : Allocator) (most : Nat) : Prop where
  live : ∀ id ∈ before.live, id ∈ after.live
  deleted : after.deleted = before.deleted
  counter : ∃ taken ≤ most, after.nextNumber = before.nextNumber + UInt64.ofNat taken

theorem Advances.refl (allocator : Allocator) (most : Nat) : allocator.Advances allocator most :=
  ⟨fun _ member => member, rfl, 0, Nat.zero_le most, (UInt64.add_zero _).symm⟩

/-- Whatever comes of an allocation, the allocator goes on. -/
theorem advances_of_allocate {count : Nat} {result : Except Fault (List Block)}
    (given : allocator.allocate replication count size = (result, after)) :
    allocator.Advances after count := by
  cases result with
  | error fault =>
      obtain ⟨draws, taken, few, counter⟩ := allocate_error given
      exact ⟨fun id member => draws.live ▸ member, draws.deleted, taken, few, counter⟩
  | ok blocks =>
      obtain ⟨-, live, deleted, counter, -⟩ := allocate_ok given
      exact ⟨fun id member => live ▸ List.mem_append_left _ member, deleted, count,
        Nat.le_refl count, counter⟩

/-- An allocation gives as many blocks as were asked for. -/
theorem length_of_allocate {count : Nat} {blocks : List Block}
    (given : allocator.allocate replication count size = (.ok blocks, after)) :
    blocks.length = count := by
  obtain ⟨-, -, -, -, numbers⟩ := allocate_ok given
  have same := congrArg List.length numbers
  rwa [List.length_map, numbersFrom, List.length_map, List.length_range] at same

/-- As long as the counter does not come round, new numbers lie above those issued before and
differ from each other. -/
theorem numbersFrom_fresh {issued count : Nat} (small : issued + count < UInt64.size) :
    (numbersFrom (UInt64.ofNat (issued + 1)) count).Nodup ∧
      ∀ number ∈ numbersFrom (UInt64.ofNat (issued + 1)) count,
        issued < number.toNat ∧ number.toNat ≤ issued + count := by
  have exact : ∀ place < count,
      (UInt64.ofNat (issued + 1) + UInt64.ofNat place).toNat = issued + 1 + place := by
    intro place inside
    rw [← UInt64.ofNat_add, UInt64.toNat_ofNat_of_lt' (by omega)]
  refine ⟨?_, fun number member => ?_⟩
  · refine List.pairwise_map.2 (List.pairwise_lt_range.imp_of_mem ?_)
    intro left right leftInside rightInside below same
    have equal := congrArg UInt64.toNat same
    rw [exact left (List.mem_range.1 leftInside), exact right (List.mem_range.1 rightInside)]
      at equal
    omega
  · obtain ⟨place, inside, rfl⟩ := List.mem_map.1 member
    rw [exact place (List.mem_range.1 inside)]
    have := List.mem_range.1 inside
    omega

/-- New blocks have identities of their own, numbered above all issued before. -/
theorem fresh_of_allocate {issued count : Nat} {blocks : List Block}
    (counter : allocator.nextNumber = UInt64.ofNat (issued + 1))
    (small : issued + count < UInt64.size)
    (given : allocator.allocate replication count size = (.ok blocks, after)) :
    (blocks.map (·.id)).Nodup ∧ ∀ id ∈ blocks.map (·.id),
      issued < id.number.toNat ∧ id.number.toNat ≤ issued + count := by
  obtain ⟨-, -, -, -, numbers⟩ := allocate_ok given
  rw [counter] at numbers
  obtain ⟨distinct, above⟩ := numbersFrom_fresh small
  rw [← numbers] at distinct above
  constructor
  · have apart : (blocks.map (·.id)).map (·.number) = blocks.map (·.id.number) := List.map_map
    rw [← apart] at distinct
    exact List.Pairwise.of_map (·.number)
      (fun left right differ same => differ (congrArg _ same)) distinct
  · intro id member
    obtain ⟨block, inside, rfl⟩ := List.mem_map.1 member
    exact above block.id.number (List.mem_map.2 ⟨block, inside, rfl⟩)

/-- Deleting takes the identifiers of the blocks from the live ones, and no others. -/
theorem mem_live_delete {blocks : List Block} {id : BlockId} :
    id ∈ (allocator.delete blocks).live ↔ id ∈ allocator.live ∧ id ∉ blocks.map (·.id) :=
  List.mem_filter.trans (and_congr_right fun _ => decide_eq_true_iff)

/-- No block that was handed back is live. -/
theorem notMem_live_of_delete (allocator : Allocator) {blocks : List Block} {block : Block}
    (member : block ∈ blocks) : block.id ∉ (allocator.delete blocks).live :=
  fun live => (mem_live_delete.1 live).2 (List.mem_map_of_mem member)

/-- The order of deletions makes no difference to what is live. -/
theorem live_delete_delete (allocator : Allocator) (first second : List Block) :
    ((allocator.delete first).delete second).live =
      ((allocator.delete second).delete first).live := by
  change List.filter _ (List.filter _ _) = List.filter _ (List.filter _ _)
  rw [List.filter_filter, List.filter_filter]
  exact List.filter_congr fun id _ => Bool.and_comm ..

theorem delete_nil (allocator : Allocator) : allocator.delete [] = allocator := by
  have all : allocator.live.filter (· ∉ ([] : List BlockId)) = allocator.live :=
    List.filter_eq_self.2 fun _ _ => decide_eq_true List.not_mem_nil
  simp only [delete, List.map_nil, all, List.append_nil]

end ObjectLedger.Allocator
