import Mathlib.Data.List.Induction
import Mathlib.Data.List.Nodup
import ObjectLedger.Proofs.Store.Allocator

/-! # Identities are not given out again

Blocks are allocated and deleted in any order, also blocks that were never allocated or that were
deleted before (`BlockCall`). A call takes the next numbers of the counter, so what it returns is
numbered above all that was taken before it (`Allocator.number_of_returned`). While fewer identities
are taken than there are numbers, an identity is therefore returned once; it is live until it is
deleted, and not any more after that (`Allocator.neverReuses_of_few`).
-/

namespace ObjectLedger

/-- A call to the allocator. -/
inductive BlockCall where
  | allocate (replication : Replication) (count : Nat) (size : UInt64)
  | delete (blocks : List Block)

namespace BlockCall

/-- The number of identities that a call returns. -/
def returns : BlockCall → Nat
  | .allocate replication count _ =>
    match replication.validate, replication.requiredNodes with
    | .ok (), .ok _ => count
    | _, _ => 0
  | .delete _ => 0

/-- The number of identities that a call takes from the counter. One that overflows has taken the
identity of its first block, which is lost. -/
def takes : BlockCall → Nat
  | .allocate replication count _ =>
    match replication.validate, replication.requiredNodes with
    | .ok (), .ok _ => count
    | .ok (), .error _ => min count 1
    | .error _, _ => 0
  | .delete _ => 0

/-- The identities that a call deletes. -/
def deletes : BlockCall → List BlockId
  | .allocate .. => []
  | .delete blocks => blocks.map (·.id)

theorem returns_le_takes (call : BlockCall) : call.returns ≤ call.takes := by
  cases call with
  | delete blocks => exact Nat.le_refl 0
  | allocate replication count size =>
      cases usable : replication.validate with
      | error cause => simp only [returns, takes, usable, Nat.le_refl]
      | ok _ =>
          cases counted : replication.requiredNodes with
          | error cause => simp only [returns, takes, usable, counted, Nat.zero_le]
          | ok nodes => simp only [returns, takes, usable, counted, Nat.le_refl]

/-- The number of identities that some calls take. -/
def taken (calls : List BlockCall) : Nat :=
  calls.foldr (fun call rest => call.takes + rest) 0

theorem taken_append (front back : List BlockCall) :
    taken (front ++ back) = taken front + taken back := by
  induction front with
  | nil => exact (Nat.zero_add _).symm
  | cons call front ih =>
      change call.takes + taken (front ++ back) = call.takes + taken front + taken back
      rw [ih, Nat.add_assoc]

end BlockCall

namespace Allocator

/-- The identities that a call returns, and the allocator after it. -/
def serve (allocator : Allocator) : BlockCall → List BlockId × Allocator
  | .allocate replication count size =>
    match allocator.allocate replication count size with
    | (.ok blocks, after) => (blocks.map (·.id), after)
    | (.error _, after) => ([], after)
  | .delete blocks => ([], allocator.delete blocks)

/-- The allocator after some calls. -/
def serveAll (allocator : Allocator) (calls : List BlockCall) : Allocator :=
  calls.foldl (fun allocator call => (allocator.serve call).2) allocator

/-- What some calls return, one after the other. -/
def returned (allocator : Allocator) : List BlockCall → List BlockId
  | [] => []
  | call :: rest => (allocator.serve call).1 ++ (allocator.serve call).2.returned rest

/-- An identity was returned by one of some calls, and no later one of them deleted it. -/
def Outstanding (allocator : Allocator) (calls : List BlockCall) (id : BlockId) : Prop :=
  ∃ earlier call later, calls = earlier ++ call :: later ∧
    id ∈ ((allocator.serveAll earlier).serve call).1 ∧ ∀ deletion ∈ later, id ∉ deletion.deletes

/-- No identity is used twice in a sequence of calls. -/
structure NeverReuses (allocator : Allocator) (calls : List BlockCall) : Prop where
  /-- A call returns as many identities as it is asked for, unless it is refused or overflows. -/
  answers : ∀ earlier call later, calls = earlier ++ call :: later →
    ((allocator.serveAll earlier).serve call).1.length = call.returns
  distinct : (allocator.returned calls).Nodup
  /-- The live blocks form a set: the identities returned and not deleted since. -/
  set : (allocator.serveAll calls).live.Nodup
  live : ∀ id, id ∈ (allocator.serveAll calls).live ↔ allocator.Outstanding calls id
  /-- An identity that was deleted after it was returned is not live whatever comes later. -/
  gone : ∀ earlier call later, calls = earlier ++ call :: later →
    ∀ id ∈ ((allocator.serveAll earlier).serve call).1,
      (∃ deletion ∈ later, id ∈ deletion.deletes) → id ∉ (allocator.serveAll calls).live
  log : (allocator.serveAll calls).deleted = calls.flatMap (·.deletes)

variable {allocator first : Allocator} {calls : List BlockCall} {call : BlockCall}

/-! ## One call -/

/-- An allocation with an unusable replication leaves the allocator alone. -/
theorem allocate_refused {replication : Replication} {cause : ReplicationError}
    (refused : replication.validate = .error cause) (allocator : Allocator) (count : Nat)
    (size : UInt64) : allocator.allocate replication count size =
      (.error (.error (.settings (.replication cause))), allocator) := by
  rw [allocate, refused]

/-- Blocks are allocated if the number of their nodes can be counted. -/
theorem allocate_total {replication : Replication} {nodes : UInt32}
    (usable : replication.validate = .ok ()) (counted : replication.requiredNodes = .ok nodes)
    (allocator : Allocator) (count : Nat) (size : UInt64) :
    ∃ blocks after, allocator.allocate replication count size = (.ok blocks, after) := by
  have placed : ∃ blocks after,
      placeMany replication size count allocator = (.ok blocks, after) := by
    induction count generalizing allocator with
    | zero => exact ⟨[], allocator, rfl⟩
    | succ count ih =>
        rw [placeMany, place]
        simp only [counted]
        obtain ⟨blocks, after, placed⟩ := ih
          { allocator.nextId.2 with drawn := allocator.nextId.2.drawn + 1 }
        rw [placed]
        exact ⟨_, _, rfl⟩
  obtain ⟨blocks, after, placed⟩ := placed
  rw [allocate, usable]
  dsimp only
  rw [placed]
  exact ⟨_, _, rfl⟩

/-- Otherwise the first block overflows. -/
theorem allocate_overflow {replication : Replication} {cause : Overflow}
    (usable : replication.validate = .ok ()) (large : replication.requiredNodes = .error cause)
    (allocator : Allocator) (count : Nat) (size : UInt64) :
    allocator.allocate replication (count + 1) size =
      (.error (.overflow cause), allocator.nextId.2) := by
  rw [allocate, usable]
  dsimp only
  rw [placeMany, place]
  simp only [large]

/-- What a call returns, and what it leaves. -/
structure Serves (before : Allocator) (call : BlockCall) (returned : List BlockId)
    (after : Allocator) : Prop where
  returns : returned.length = call.returns
  live : after.live = before.live.filter (· ∉ call.deletes) ++ returned
  deleted : after.deleted = before.deleted ++ call.deletes
  counter : after.nextNumber = before.nextNumber + UInt64.ofNat call.takes
  numbers : returned.map (·.number) = numbersFrom before.nextNumber returned.length

theorem filter_notMem_nil (ids : List BlockId) : ids.filter (· ∉ ([] : List BlockId)) = ids :=
  List.filter_eq_self.2 fun _ _ => decide_eq_true List.not_mem_nil

/-- A call that returns and deletes nothing may still take identities. -/
theorem serves_nothing {after : Allocator} (returns : call.returns = 0)
    (deletes : call.deletes = []) (draws : allocator.Draws after)
    (counter : after.nextNumber = allocator.nextNumber + UInt64.ofNat call.takes) :
    allocator.Serves call [] after where
  returns := returns.symm
  live := by rw [deletes, filter_notMem_nil, List.append_nil, draws.live]
  deleted := by rw [deletes, List.append_nil, draws.deleted]
  counter := counter
  numbers := rfl

/-- An allocation serves its call with what it returns. -/
theorem serves_allocated {replication : Replication} {count : Nat} {size : UInt64}
    {blocks : List Block} {after : Allocator}
    (given : allocator.allocate replication count size = (.ok blocks, after))
    (returns : (BlockCall.allocate replication count size).returns = count)
    (takes : (BlockCall.allocate replication count size).takes = count) :
    allocator.Serves (.allocate replication count size) (blocks.map (·.id)) after := by
  obtain ⟨-, live, deleted, counter, numbers⟩ := allocate_ok given
  have length := length_of_allocate given
  exact
    { returns := by rw [List.length_map, length, returns]
      live := by rw [BlockCall.deletes, filter_notMem_nil, live]
      deleted := by rw [BlockCall.deletes, List.append_nil, deleted]
      counter := by rw [takes, counter]
      numbers := by rw [List.map_map, List.length_map, length]; exact numbers }

/-- Every call is served as its kind asks for. -/
theorem serves (allocator : Allocator) (call : BlockCall) :
    allocator.Serves call (allocator.serve call).1 (allocator.serve call).2 := by
  cases call with
  | delete blocks =>
      exact
        { returns := rfl
          live := (List.append_nil _).symm
          deleted := rfl
          counter := (UInt64.add_zero _).symm
          numbers := rfl }
  | allocate replication count size =>
      simp only [serve]
      cases usable : replication.validate with
      | error cause =>
          have takes : (BlockCall.allocate replication count size).takes = 0 := by
            simp only [BlockCall.takes, usable]
          rw [allocate_refused usable]
          refine serves_nothing ?_ rfl ⟨rfl, rfl⟩ ?_
          · simp only [BlockCall.returns, usable]
          · rw [takes]
            exact (UInt64.add_zero _).symm
      | ok _ =>
          cases counted : replication.requiredNodes with
          | ok nodes =>
              obtain ⟨blocks, after, given⟩ := allocate_total usable counted allocator count size
              rw [given]
              refine serves_allocated given ?_ ?_
              · simp only [BlockCall.returns, usable, counted]
              · simp only [BlockCall.takes, usable, counted]
          | error cause =>
              have returns : (BlockCall.allocate replication count size).returns = 0 := by
                simp only [BlockCall.returns, usable, counted]
              have takes : (BlockCall.allocate replication count size).takes = min count 1 := by
                simp only [BlockCall.takes, usable, counted]
              cases count with
              | zero =>
                  have given : allocator.allocate replication 0 size =
                      (.ok [], { allocator with live := allocator.live ++ [] }) := by
                    rw [allocate, usable]
                    rfl
                  rw [given]
                  exact serves_allocated given returns takes
              | succ count =>
                  rw [allocate_overflow usable counted]
                  refine serves_nothing returns rfl ⟨rfl, rfl⟩ ?_
                  rw [takes, Nat.min_eq_right (Nat.le_add_left 1 count)]
                  rfl

/-- After a call, what it returned is live, and what was live and it did not delete. -/
theorem mem_live_serve {id : BlockId} : id ∈ (allocator.serve call).2.live ↔
    id ∈ (allocator.serve call).1 ∨ id ∈ allocator.live ∧ id ∉ call.deletes := by
  rw [(allocator.serves call).live, List.mem_append, List.mem_filter, decide_eq_true_iff, or_comm]

/-! ## Sequences of calls -/

theorem serveAll_append (allocator : Allocator) (front back : List BlockCall) :
    allocator.serveAll (front ++ back) = (allocator.serveAll front).serveAll back :=
  List.foldl_append

theorem returned_append (allocator : Allocator) (front back : List BlockCall) :
    allocator.returned (front ++ back) =
      allocator.returned front ++ (allocator.serveAll front).returned back := by
  induction front generalizing allocator with
  | nil => rfl
  | cons call front ih =>
      rw [List.cons_append, returned, ih, ← List.append_assoc]
      rfl

/-- The last call returns what it returns after all others. -/
theorem returned_concat (allocator : Allocator) (calls : List BlockCall) (call : BlockCall) :
    allocator.returned (calls ++ [call]) =
      allocator.returned calls ++ ((allocator.serveAll calls).serve call).1 := by
  rw [returned_append, returned, returned, List.append_nil]

/-- The counter tells how many identities were taken. -/
theorem nextNumber_serveAll (start : first.nextNumber = 1) (calls : List BlockCall) :
    (first.serveAll calls).nextNumber = UInt64.ofNat (BlockCall.taken calls + 1) := by
  induction calls using List.reverseRecOn with
  | nil => exact start
  | append_singleton calls call ih =>
      rw [serveAll_append]
      change ((first.serveAll calls).serve call).2.nextNumber = _
      rw [(serves _ call).counter, ih, ← UInt64.ofNat_add, BlockCall.taken_append,
        Nat.add_right_comm]
      rfl

/-- What a call returns is numbered above all that was taken before it. -/
theorem number_of_returned (start : first.nextNumber = 1)
    (few : BlockCall.taken (calls ++ [call]) < UInt64.size) :
    ((first.serveAll calls).serve call).1.Nodup ∧
      ∀ id ∈ ((first.serveAll calls).serve call).1, BlockCall.taken calls < id.number.toNat ∧
        id.number.toNat ≤ BlockCall.taken (calls ++ [call]) := by
  have served := (first.serveAll calls).serves call
  have total : BlockCall.taken (calls ++ [call]) = BlockCall.taken calls + call.takes :=
    BlockCall.taken_append calls [call]
  have most : call.returns ≤ call.takes := call.returns_le_takes
  have numbers := served.numbers
  rw [nextNumber_serveAll start, served.returns] at numbers
  have small : BlockCall.taken calls + call.returns < UInt64.size := by omega
  obtain ⟨distinct, between⟩ := numbersFrom_fresh small
  rw [← numbers] at distinct between
  refine ⟨List.Nodup.of_map _ distinct, fun id member => ?_⟩
  obtain ⟨above, below⟩ := between id.number (List.mem_map_of_mem member)
  exact ⟨above, by omega⟩

/-- No number of a returned identity is above the number of identities taken. -/
theorem number_le (start : first.nextNumber = 1) (few : BlockCall.taken calls < UInt64.size) :
    ∀ id ∈ first.returned calls, id.number.toNat ≤ BlockCall.taken calls := by
  induction calls using List.reverseRecOn with
  | nil => nofun
  | append_singleton calls call ih =>
      have total := BlockCall.taken_append calls [call]
      intro id member
      rw [returned_concat] at member
      rcases List.mem_append.1 member with before | now
      · have known := ih (by omega) id before
        omega
      · exact ((number_of_returned start few).2 id now).2

/-- No identifier is returned twice. -/
theorem returned_nodup (start : first.nextNumber = 1)
    (few : BlockCall.taken calls < UInt64.size) : (first.returned calls).Nodup := by
  induction calls using List.reverseRecOn with
  | nil => exact .nil
  | append_singleton calls call ih =>
      have total := BlockCall.taken_append calls [call]
      obtain ⟨distinct, between⟩ := number_of_returned start few
      rw [returned_concat]
      refine List.nodup_append.2 ⟨ih (by omega), distinct, fun id before other now same => ?_⟩
      have below := number_le start (by omega) id before
      have above := (between other now).1
      rw [same] at below
      omega

/-! ## What is live -/

/-- After a further call, what it returned is outstanding, and what was and it did not delete. -/
theorem outstanding_concat {id : BlockId} : allocator.Outstanding (calls ++ [call]) id ↔
    id ∈ ((allocator.serveAll calls).serve call).1 ∨
      allocator.Outstanding calls id ∧ id ∉ call.deletes := by
  constructor
  · rintro ⟨earlier, giving, later, split, given, kept⟩
    rcases List.eq_nil_or_concat' later with rfl | ⟨rest, last, rfl⟩
    · obtain ⟨rfl, same⟩ := List.append_inj' split rfl
      cases same
      exact .inl given
    · rw [← List.cons_append, ← List.append_assoc] at split
      obtain ⟨rfl, same⟩ := List.append_inj' split rfl
      cases same
      exact .inr ⟨⟨earlier, giving, rest, rfl, given,
        fun deletion member => kept deletion (List.mem_append_left _ member)⟩,
        kept call (List.mem_append_right _ (List.mem_singleton_self call))⟩
  · rintro (given | ⟨⟨earlier, giving, later, rfl, given, kept⟩, spared⟩)
    · exact ⟨calls, call, [], rfl, given, nofun⟩
    · refine ⟨earlier, giving, later ++ [call], by rw [List.append_assoc]; rfl, given, ?_⟩
      intro deletion member
      rcases List.mem_append.1 member with before | now
      · exact kept deletion before
      · exact List.mem_singleton.1 now ▸ spared

/-- Live are the identities that are outstanding. -/
theorem mem_live_iff (start : first.live = []) {id : BlockId} :
    id ∈ (first.serveAll calls).live ↔ first.Outstanding calls id := by
  induction calls using List.reverseRecOn with
  | nil =>
      change id ∈ first.live ↔ _
      rw [start]
      refine iff_of_false List.not_mem_nil ?_
      rintro ⟨earlier, call, later, split, -⟩
      cases earlier <;> cases split
  | append_singleton calls call ih =>
      rw [outstanding_concat, ← ih, serveAll_append]
      exact mem_live_serve

/-- What is outstanding was returned. -/
theorem Outstanding.returned {id : BlockId} (outstanding : allocator.Outstanding calls id) :
    id ∈ allocator.returned calls := by
  obtain ⟨earlier, call, later, rfl, given, -⟩ := outstanding
  rw [returned_append, Allocator.returned]
  exact List.mem_append_right _ (List.mem_append_left _ given)

/-- No identifier is live twice. -/
theorem live_nodup (number : first.nextNumber = 1) (live : first.live = [])
    (few : BlockCall.taken calls < UInt64.size) : (first.serveAll calls).live.Nodup := by
  induction calls using List.reverseRecOn with
  | nil => exact live ▸ .nil
  | append_singleton calls call ih =>
      have total := BlockCall.taken_append calls [call]
      obtain ⟨distinct, between⟩ := number_of_returned number few
      rw [serveAll_append]
      change ((first.serveAll calls).serve call).2.live.Nodup
      rw [(serves _ call).live]
      refine List.nodup_append.2
        ⟨(ih (by omega)).filter _, distinct, fun id kept other now same => ?_⟩
      have before := ((mem_live_iff live).1 (List.mem_filter.1 kept).1).returned
      have below := number_le number (by omega) id before
      have above := (between other now).1
      rw [same] at below
      omega

/-- No later call returns an identity again. -/
theorem not_returned_again (start : first.nextNumber = 1) {earlier between : List BlockCall}
    {call again : BlockCall}
    (few : BlockCall.taken (earlier ++ call :: between ++ [again]) < UInt64.size) {id : BlockId}
    (given : id ∈ ((first.serveAll earlier).serve call).1) :
    id ∉ ((first.serveAll (earlier ++ call :: between)).serve again).1 := by
  intro given'
  have front : earlier ++ call :: between = earlier ++ [call] ++ between := by
    rw [List.append_assoc]
    rfl
  have total := BlockCall.taken_append (earlier ++ call :: between) [again]
  have parts := BlockCall.taken_append (earlier ++ [call]) between
  rw [← front] at parts
  have below := ((number_of_returned start (by omega)).2 id given).2
  have above := ((number_of_returned start few).2 id given').1
  omega

/-- What was deleted after it was returned is not outstanding. -/
theorem not_outstanding_of_deleted (start : first.nextNumber = 1) {earlier later : List BlockCall}
    {call deletion : BlockCall} (few : BlockCall.taken (earlier ++ call :: later) < UInt64.size)
    {id : BlockId} (given : id ∈ ((first.serveAll earlier).serve call).1)
    (member : deletion ∈ later) (deleted : id ∈ deletion.deletes) :
    ¬ first.Outstanding (earlier ++ call :: later) id := by
  rintro ⟨earlier', call', later', split, given', kept⟩
  rcases List.append_eq_append_iff.1 split with ⟨between, rfl, rest⟩ | ⟨between, rfl, rest⟩
  · cases between with
    | nil =>
        cases rest
        exact kept deletion member deleted
    | cons head between =>
        -- The identity would have been returned again by the later call.
        rw [List.cons_append, List.cons.injEq] at rest
        obtain ⟨rfl, rfl⟩ := rest
        have whole : BlockCall.taken (earlier ++ call :: (between ++ call' :: later')) =
            BlockCall.taken (earlier ++ call :: between ++ [call']) + BlockCall.taken later' := by
          rw [← BlockCall.taken_append]
          simp only [List.append_assoc, List.cons_append, List.nil_append]
        exact not_returned_again start (by omega) given given'
  · cases between with
    | nil =>
        cases rest
        exact kept deletion member deleted
    | cons head between =>
        cases rest
        exact kept deletion
          (List.mem_append_right _ (List.mem_cons_of_mem _ member)) deleted

/-- The log of deletions is what the calls deleted, in their order. -/
theorem deleted_serveAll (allocator : Allocator) (calls : List BlockCall) :
    (allocator.serveAll calls).deleted = allocator.deleted ++ calls.flatMap (·.deletes) := by
  induction calls generalizing allocator with
  | nil => exact (List.append_nil _).symm
  | cons call calls ih =>
      change ((allocator.serve call).2.serveAll calls).deleted = _
      rw [ih, (serves allocator call).deleted, List.flatMap_cons, List.append_assoc]

/-- Over whatever containers, and however blocks are allocated and deleted, an allocator returns no
identity twice and has live what it returned and was not given back since, as long as fewer
identities are taken than there are numbers. -/
theorem neverReuses_of_few {containers : UInt64} {pipelines : Nat → PipelineId}
    (created : Allocator.new containers pipelines = .ok first)
    (few : BlockCall.taken calls < UInt64.size) : first.NeverReuses calls := by
  obtain ⟨number, live, deleted⟩ :
      first.nextNumber = 1 ∧ first.live = [] ∧ first.deleted = [] := by
    unfold Allocator.new at created
    split at created
    · cases created
    · cases created
      exact ⟨rfl, rfl, rfl⟩
  exact
    { answers := fun earlier call later _ => ((first.serveAll earlier).serves call).returns
      distinct := returned_nodup number few
      set := live_nodup number live few
      live := fun id => mem_live_iff live
      gone := by
        rintro earlier call later rfl id given ⟨deletion, member, deletes⟩ lives
        exact not_outstanding_of_deleted number few given member deletes
          ((mem_live_iff live).1 lives)
      log := by rw [deleted_serveAll, deleted, List.nil_append] }

/-- Blocks are allocated, deleted twice and allocated anew, with a replication that is refused and
one of too many nodes, and a block is deleted that comes only later. -/
def recycling : List BlockCall :=
  [.allocate (.ratis 3) 2 100, .delete [.bare ⟨1, 1⟩, .bare ⟨1, 1⟩, .bare ⟨7, 9⟩],
    .allocate (.ratis 2) 4 100,
    .allocate (.erasureCoded ⟨.reedSolomon, 0xffffffff, 1, 1⟩) 3 100, .delete [.bare ⟨2, 4⟩],
    .allocate (.standalone 1) 2 100, .delete [.bare ⟨1, 1⟩]]

/-- An allocator over two containers. -/
def paired : Allocator := ⟨2, 0, 1, fun _ => ⟨.replicate 16 0⟩, 0, [], []⟩

/-- No identifier comes back, also after foreign and repeated deletions. -/
theorem neverReuses_recycling : Allocator.new 2 paired.pipelines = .ok paired ∧
    BlockCall.taken recycling < UInt64.size ∧ paired.NeverReuses recycling := by
  have created : Allocator.new 2 paired.pipelines = .ok paired := rfl
  have few : BlockCall.taken recycling < UInt64.size := by decide
  exact ⟨created, few, neverReuses_of_few created few⟩

example : paired.returned recycling = [⟨1, 1⟩, ⟨2, 2⟩, ⟨2, 4⟩, ⟨1, 5⟩] ∧
    (paired.serveAll recycling).live = [⟨2, 2⟩, ⟨2, 4⟩, ⟨1, 5⟩] := by
  decide +kernel

end Allocator

end ObjectLedger
