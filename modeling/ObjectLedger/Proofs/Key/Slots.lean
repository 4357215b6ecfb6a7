import ObjectLedger.Key.Reconciliation

/-! # Which allocated blocks are pending

While a report is matched, the blocks that are no longer pending are the last allocations of the
identities matched so far (`Reconciliation.pendingAfter`): a look-up finds a pending block exactly
for an allocated identity that was not matched (`Reconciliation.pendingPlace?_places`), and taking
it is matching the identity (`Reconciliation.set_pendingAfter`). So matching goes by the identities
alone (`Reconciliation.takeReported_eq`), which of the reported ones were allocated and not matched
before (`Reconciliation.split`), and which of the allocated ones stay pending
(`Reconciliation.leftOver`).
-/

namespace ObjectLedger.Reconciliation

/-! ## Matching by identities -/

/-- The reported blocks with a match and those without one. A block whose identity
was matched before has no match. -/
def split (allocated matched : List BlockId) : List Block → List Block × List Block
  | [] => ([], [])
  | block :: rest =>
    if block.id ∈ allocated ∧ block.id ∉ matched then
      let (found, others) := split allocated (block.id :: matched) rest
      (block :: found, others)
    else
      let (found, others) := split allocated matched rest
      (found, block :: others)

/-- The allocated blocks that no report matches: all but the last one of each reported identity. -/
def leftOver (reported : List BlockId) : List Block → List Block
  | [] => []
  | block :: rest =>
    if block.id ∈ reported ∧ block.id ∉ rest.map (·.id) then leftOver reported rest
    else block :: leftOver reported rest

/-! ## The places of identities -/

/-- What was known before some blocks is known after them of the identities that they lack. -/
theorem foldl_places (allocated : List Block) (first : Nat) (known : BlockId → Option Nat)
    (id : BlockId) :
    (allocated.zipIdx first).foldl
        (fun known entry id => if id = entry.1.id then some entry.2 else known id) known id =
      ((places allocated id).map (· + first)).or (known id) := by
  induction allocated generalizing first known with
  | nil => rfl
  | cons block rest ih =>
      unfold places
      rw [List.zipIdx_cons, List.zipIdx_cons, List.foldl_cons, List.foldl_cons, ih, ih]
      cases places rest id with
      | some place =>
          simp only [Option.map_some, Option.some_or, Nat.zero_add, Option.some.injEq]
          omega
      | none =>
          simp only [Option.map_none, Option.none_or]
          split
          · simp only [Option.map_some, Option.some_or, Nat.zero_add]
          · rfl

/-- An identity is placed among later blocks, or at the first one. -/
theorem places_cons (block : Block) (rest : List Block) (id : BlockId) :
    places (block :: rest) id =
      ((places rest id).map (· + 1)).or (if id = block.id then some 0 else none) := by
  rw [places, List.zipIdx_cons, List.foldl_cons, foldl_places]

/-- The allocated identities have a place. -/
theorem places_eq_none_iff (allocated : List Block) (id : BlockId) :
    places allocated id = none ↔ id ∉ allocated.map (·.id) := by
  induction allocated with
  | nil => exact iff_of_true rfl List.not_mem_nil
  | cons block rest ih =>
      rw [places_cons, List.map_cons, List.mem_cons, not_or, ← ih]
      cases places rest id with
      | some place => simp
      | none => simp

/-- An identity that has a place was allocated. -/
theorem mem_ids_of_places {allocated : List Block} {id : BlockId} {place : Nat}
    (placed : places allocated id = some place) : id ∈ allocated.map (·.id) := by
  apply Decidable.byContradiction
  intro absent
  cases placed.symm.trans ((places_eq_none_iff allocated id).2 absent)

/-- A place is one among the later blocks, or that of the first block if none of them has its
identity. -/
theorem places_cons_cases {block : Block} {rest : List Block} {id : BlockId} {place : Nat}
    (placed : places (block :: rest) id = some place) :
    (∃ later, places rest id = some later ∧ place = later + 1) ∨
      id = block.id ∧ block.id ∉ rest.map (·.id) ∧ place = 0 := by
  rw [places_cons] at placed
  cases found : places rest id with
  | some later =>
      rw [found] at placed
      exact .inl ⟨later, rfl, (Option.some.inj placed).symm⟩
  | none =>
      rw [found] at placed
      by_cases same : id = block.id
      · rw [if_pos same] at placed
        have last := (places_eq_none_iff rest id).1 found
        exact .inr ⟨same, same ▸ last, (Option.some.inj placed).symm⟩
      · rw [if_neg same] at placed
        cases placed

/-! ## What is pending -/

/-- What is pending after some identities were matched: all but the last allocation of each. -/
def pendingAfter (matched : List BlockId) : List Block → List (Option Block)
  | [] => []
  | block :: rest =>
    (if block.id ∈ matched ∧ block.id ∉ rest.map (·.id) then none else some block) ::
      pendingAfter matched rest

/-- Before any report, every slot holds its block. -/
theorem pendingAfter_nil (allocated : List Block) :
    pendingAfter [] allocated = allocated.map some := by
  induction allocated with
  | nil => rfl
  | cons block rest ih => simp [pendingAfter, ih]

/-- What the slots still hold is left over. -/
theorem filterMap_pendingAfter (matched : List BlockId) (allocated : List Block) :
    (pendingAfter matched allocated).filterMap id = leftOver matched allocated := by
  induction allocated with
  | nil => rfl
  | cons block rest ih =>
      rw [pendingAfter, leftOver]
      split
      · rw [List.filterMap_cons_none rfl, ih]
      · exact congrArg (block :: ·) ih

/-- What is pending depends on which of the allocated identities were matched. -/
theorem pendingAfter_congr {matched other : List BlockId} {allocated : List Block}
    (same : ∀ id ∈ allocated.map (·.id), id ∈ matched ↔ id ∈ other) :
    pendingAfter matched allocated = pendingAfter other allocated := by
  induction allocated with
  | nil => rfl
  | cons block rest ih =>
      rw [List.map_cons, List.forall_mem_cons] at same
      rw [pendingAfter, pendingAfter, ih same.2]
      simp only [same.1]

variable {matched : List BlockId} {allocated : List Block} {id : BlockId} {place : Nat}

/-- At the place of an identity, a block is pending until the identity is matched. -/
theorem getElem?_pendingAfter (placed : places allocated id = some place) :
    (pendingAfter matched allocated)[place]?.join.isSome ↔ id ∉ matched := by
  induction allocated generalizing place with
  | nil => cases placed
  | cons block rest ih =>
      rcases places_cons_cases placed with ⟨later, found, rfl⟩ | ⟨rfl, last, rfl⟩
      · exact ih found
      · rw [pendingAfter, List.getElem?_cons_zero]
        by_cases known : block.id ∈ matched
        · simp [known, last]
        · simp [known]

/-- Taking the block at the place of an identity is matching the identity. -/
theorem set_pendingAfter (placed : places allocated id = some place) :
    (pendingAfter matched allocated).set place none = pendingAfter (id :: matched) allocated := by
  induction allocated generalizing place with
  | nil => cases placed
  | cons block rest ih =>
      rcases places_cons_cases placed with ⟨later, found, rfl⟩ | ⟨rfl, last, rfl⟩
      · -- The first block is not the one that is taken, as a later one has its identity.
        have head : (block.id ∈ matched ∧ block.id ∉ rest.map (·.id)) ↔
            (block.id ∈ id :: matched ∧ block.id ∉ rest.map (·.id)) := by
          refine and_congr_left fun absent => ?_
          have different : block.id ≠ id := fun equal => absent (equal ▸ mem_ids_of_places found)
          rw [List.mem_cons, or_iff_right different]
        rw [pendingAfter, pendingAfter, List.set_cons_succ, ih found]
        simp only [head]
      · have others : ∀ other ∈ rest.map (·.id),
            other ∈ matched ↔ other ∈ block.id :: matched := by
          intro other member
          have different : other ≠ block.id := fun equal => last (equal ▸ member)
          rw [List.mem_cons, or_iff_right different]
        rw [pendingAfter, pendingAfter, List.set_cons_zero, pendingAfter_congr others,
          if_pos ⟨List.mem_cons_self, last⟩]

/-- A look-up finds the place of an allocated identity that was not matched, and nothing else. -/
theorem pendingPlace?_places (matched : List BlockId) (allocated : List Block) (id : BlockId) :
    pendingPlace? (places allocated) (pendingAfter matched allocated) id =
      if id ∈ allocated.map (·.id) ∧ id ∉ matched then places allocated id else none := by
  unfold pendingPlace?
  cases placed : places allocated id with
  | none => simp
  | some place =>
      have known := mem_ids_of_places placed
      rw [Option.filter_some]
      simp only [getElem?_pendingAfter placed, known, true_and]

/-! ## Matching a report -/

/-- After some identities were matched, a report is matched by its identities. -/
theorem takeReported_eq (allocated : List Block) (matched : List BlockId) (reported : List Block) :
    takeReported (places allocated) reported (pendingAfter matched allocated) =
      ((split (allocated.map (·.id)) matched reported).1,
        (split (allocated.map (·.id)) matched reported).2,
        pendingAfter (reported.map (·.id) ++ matched) allocated) := by
  -- A match changes what is pending, so the induction covers every start.
  induction reported generalizing matched with
  | nil => rfl
  | cons block rest ih =>
      rw [takeReported, split, pendingPlace?_places]
      by_cases fresh : block.id ∈ allocated.map (·.id) ∧ block.id ∉ matched
      · rw [if_pos fresh, if_pos fresh]
        cases placed : places allocated block.id with
        | none => exact ((places_eq_none_iff allocated block.id).1 placed fresh.1).elim
        | some place =>
            dsimp only
            rw [set_pendingAfter placed, ih]
            refine Prod.ext rfl (Prod.ext rfl (pendingAfter_congr fun id _ => ?_))
            simp only [List.map_cons, List.cons_append, List.mem_cons, List.mem_append]
            exact or_left_comm
      · rw [if_neg fresh, if_neg fresh]
        dsimp only
        rw [ih]
        refine Prod.ext rfl (Prod.ext rfl (pendingAfter_congr fun id known => ?_))
        simp only [List.map_cons, List.cons_append, List.mem_cons, List.mem_append]
        refine (or_iff_right_of_imp ?_).symm
        rintro rfl
        exact .inr (Decidable.byContradiction fun unmatched => fresh ⟨known, unmatched⟩)

/-- The outcome of matching a report, by its identities. -/
theorem ofReport_split (key : String) (version : UInt64) (allocated reported : List Block) :
    ofReport key version allocated reported =
      { version
        committed := (split (allocated.map (·.id)) [] reported).1
        uncommitted := leftOver (reported.map (·.id)) allocated
        unknown := (split (allocated.map (·.id)) [] reported).2.map (⟨key, ·⟩) } := by
  unfold ofReport
  rw [← pendingAfter_nil, takeReported_eq, List.append_nil]
  dsimp only
  rw [filterMap_pendingAfter]

end ObjectLedger.Reconciliation
