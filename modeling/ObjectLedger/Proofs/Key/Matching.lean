import Mathlib.Data.List.Infix
import ObjectLedger.Proofs.Key.History

/-! # Which blocks a report is matched with

A report names a block first where nothing before it in the report has the same identity
(`Reconciliation.inTurn`). Matching a report commits the first reports of allocated identities and
leaves every other report unknown (`Reconciliation.split_eq`), so it is exact where the allocated
blocks are distinct (`KeyRecord.reconciled_of_distinct`), and matching the same report again changes
nothing (`KeyRecord.commit_again`). An identity that was allocated more than once is left over
although it is committed (`KeyRecord.overlap_iff_of_checked`).
-/

namespace ObjectLedger

namespace Reconciliation

/-! ## First reports -/

/-- The blocks of a report, each with the ones that were reported before it. -/
def inTurn (reported : List Block) : List (Block × List Block) := reported.zip reported.inits

/-- A block is the first report of an allocated identity. -/
def IsFirst (allocated : List BlockId) (entry : Block × List Block) : Prop :=
  entry.1.id ∈ allocated ∧ entry.1.id ∉ entry.2.map (·.id)

instance (allocated : List BlockId) : DecidablePred (IsFirst allocated) := fun entry =>
  inferInstanceAs (Decidable (entry.1.id ∈ allocated ∧ entry.1.id ∉ entry.2.map (·.id)))

/-- The first reports of the allocated identities, in the order of the report. -/
def firstReports (allocated : List BlockId) (reported : List Block) : List Block :=
  ((inTurn reported).filter (IsFirst allocated ·)).map (·.1)

/-- All other reports, in the order of the report. -/
def otherReports (allocated : List BlockId) (reported : List Block) : List Block :=
  ((inTurn reported).filter (¬ IsFirst allocated ·)).map (·.1)

/-- Behind a block, every later one has it among those before. -/
theorem inTurn_cons (block : Block) (rest : List Block) :
    inTurn (block :: rest) =
      (block, []) :: (inTurn rest).map fun entry => (entry.1, block :: entry.2) := by
  unfold inTurn
  rw [List.inits_cons, List.zip_cons_cons, List.zip_map_right]
  rfl

/-- A block of a report stands behind the ones that were reported before it. -/
theorem mem_inTurn_iff (reported : List Block) (block : Block) (earlier : List Block) :
    (block, earlier) ∈ inTurn reported ↔ ∃ later, reported = earlier ++ block :: later := by
  induction reported generalizing earlier with
  | nil => simp [inTurn]
  | cons first rest ih =>
      rw [inTurn_cons, List.mem_cons, List.mem_map]
      constructor
      · rintro (same | ⟨⟨_, before⟩, member, same⟩)
        · cases same
          exact ⟨rest, rfl⟩
        · cases same
          obtain ⟨later, rfl⟩ := (ih before).1 member
          exact ⟨later, rfl⟩
      · rintro ⟨later, whole⟩
        cases earlier with
        | nil =>
            cases whole
            exact .inl rfl
        | cons head before =>
            cases whole
            exact .inr ⟨(block, before), (ih before).2 ⟨later, rfl⟩, rfl⟩

/-- Telling the earlier blocks of each changes no block. -/
theorem map_fst_inTurn (reported : List Block) : (inTurn reported).map (·.1) = reported := by
  unfold inTurn
  refine List.map_fst_zip ?_
  rw [List.length_inits]
  exact Nat.le_succ _

/-- Every report is the first of an allocated identity or one of the others. -/
theorem firstReports_append_perm (allocated : List BlockId) (reported : List Block) :
    (firstReports allocated reported ++ otherReports allocated reported).Perm reported := by
  have parted := (List.filter_append_perm (IsFirst allocated ·) (inTurn reported)).map (·.1)
  rw [List.map_append, map_fst_inTurn] at parted
  unfold firstReports otherReports
  simpa only [decide_not] using parted

/-- Which reports are first depends on which of the reported identities were allocated. -/
theorem isFirst_congr {allocated other : List BlockId} {reported : List Block}
    (same : ∀ id ∈ reported.map (·.id), id ∈ allocated ↔ id ∈ other)
    {entry : Block × List Block} (member : entry ∈ inTurn reported) :
    IsFirst allocated entry ↔ IsFirst other entry := by
  obtain ⟨later, whole⟩ := (mem_inTurn_iff reported entry.1 entry.2).1 member
  have inside : entry.1.id ∈ reported.map (·.id) := by
    rw [whole]
    exact List.mem_map_of_mem (List.mem_append_right _ List.mem_cons_self)
  exact and_congr_left fun _ => same _ inside

/-- The first reports are the same if the same of the reported blocks were allocated. -/
theorem firstReports_congr {allocated other : List BlockId} {reported : List Block}
    (same : ∀ id ∈ reported.map (·.id), id ∈ allocated ↔ id ∈ other) :
    firstReports allocated reported = firstReports other reported := by
  unfold firstReports
  rw [List.filter_congr fun entry member => decide_eq_decide.2 (isFirst_congr same member)]

/-- The other reports are the same if the same of the reported blocks were allocated. -/
theorem otherReports_congr {allocated other : List BlockId} {reported : List Block}
    (same : ∀ id ∈ reported.map (·.id), id ∈ allocated ↔ id ∈ other) :
    otherReports allocated reported = otherReports other reported := by
  unfold otherReports
  rw [List.filter_congr fun entry member =>
    decide_eq_decide.2 (not_congr (isFirst_congr same member))]

/-! ## Matching -/

/-- A block is open if it is the first report of an allocated identity that was not matched
before. -/
def IsOpen (allocated matched : List BlockId) (entry : Block × List Block) : Prop :=
  IsFirst allocated entry ∧ entry.1.id ∉ matched

instance (allocated matched : List BlockId) : DecidablePred (IsOpen allocated matched) :=
  fun entry => inferInstanceAs (Decidable (IsFirst allocated entry ∧ entry.1.id ∉ matched))

/-- Behind another block, a block is open as if the other one had been matched. -/
theorem isOpen_behind (allocated matched : List BlockId) (block : Block)
    (entry : Block × List Block) :
    IsOpen allocated matched (entry.1, block :: entry.2) ↔
      IsOpen allocated (block.id :: matched) entry := by
  unfold IsOpen IsFirst
  simp only [List.map_cons, List.mem_cons, not_or]
  constructor
  · rintro ⟨⟨known, other, before⟩, unmatched⟩
    exact ⟨⟨known, before⟩, other, unmatched⟩
  · rintro ⟨⟨known, before⟩, other, unmatched⟩
    exact ⟨⟨known, other, before⟩, unmatched⟩

/-- Behind a block without a match, a block is open as if the block was not there. -/
theorem isOpen_behind_other {allocated matched : List BlockId} {block : Block}
    (taken : ¬ (block.id ∈ allocated ∧ block.id ∉ matched)) (entry : Block × List Block) :
    IsOpen allocated matched (entry.1, block :: entry.2) ↔ IsOpen allocated matched entry := by
  unfold IsOpen IsFirst
  simp only [List.map_cons, List.mem_cons, not_or]
  constructor
  · rintro ⟨⟨known, -, before⟩, unmatched⟩
    exact ⟨⟨known, before⟩, unmatched⟩
  · rintro ⟨⟨known, before⟩, unmatched⟩
    have other : entry.1.id ≠ block.id := fun same =>
      taken ⟨same ▸ known, same ▸ unmatched⟩
    exact ⟨⟨known, other, before⟩, unmatched⟩

/-- After some identities were matched, the open blocks of a report have a match, and the others
have none. -/
theorem split_eq_filter (allocated matched : List BlockId) (reported : List Block) :
    split allocated matched reported =
      (((inTurn reported).filter (IsOpen allocated matched ·)).map (·.1),
        ((inTurn reported).filter (¬ IsOpen allocated matched ·)).map (·.1)) := by
  -- A match changes what the rest is matched with, so the induction covers every start.
  induction reported generalizing matched with
  | nil => rfl
  | cons block rest ih =>
      have here : IsOpen allocated matched (block, []) ↔
          block.id ∈ allocated ∧ block.id ∉ matched := by
        simp only [IsOpen, IsFirst, List.map_nil, List.not_mem_nil, not_false_eq_true, and_true]
      rw [split, inTurn_cons]
      split
      · rename_i fresh
        simp only [ih, List.filter_cons, List.filter_map, List.map_map, List.map_cons,
          Function.comp_def, here, isOpen_behind, fresh, not_false_eq_true, and_self,
          not_true_eq_false, decide_true, decide_false, Bool.false_eq_true, ↓reduceIte]
      · rename_i taken
        simp only [ih, List.filter_cons, List.filter_map, List.map_map, List.map_cons,
          Function.comp_def, here, isOpen_behind_other taken, taken, not_false_eq_true,
          decide_true, decide_false, Bool.false_eq_true, ↓reduceIte]

/-- From the start, the first reports of allocated identities have a match. -/
theorem split_eq (allocated : List BlockId) (reported : List Block) :
    split allocated [] reported =
      (firstReports allocated reported, otherReports allocated reported) := by
  have start : ∀ entry, IsOpen allocated [] entry ↔ IsFirst allocated entry := fun entry =>
    and_iff_left List.not_mem_nil
  rw [split_eq_filter]
  simp only [start]
  rfl

/-- The outcome of matching a report, by which of its blocks are first. -/
theorem ofReport_eq (key : String) (version : UInt64) (allocated reported : List Block) :
    ofReport key version allocated reported =
      { version
        committed := firstReports (allocated.map (·.id)) reported
        uncommitted := leftOver (reported.map (·.id)) allocated
        unknown := (otherReports (allocated.map (·.id)) reported).map (⟨key, ·⟩) } := by
  rw [ofReport_split, split_eq]

/-- There is one first report of each identity that is allocated and reported. -/
theorem count_firstReports (allocated : List BlockId) (reported : List Block) (id : BlockId) :
    ((firstReports allocated reported).map (·.id)).count id =
      if id ∈ allocated ∧ id ∈ reported.map (·.id) then 1 else 0 := by
  have matched := count_split allocated [] reported id
  rw [split_eq] at matched
  simpa only [List.not_mem_nil, not_false_eq_true, true_and] using matched

/-- The first reports are of the blocks that are both allocated and reported. -/
theorem mem_firstReports_iff (allocated : List BlockId) (reported : List Block) (id : BlockId) :
    id ∈ (firstReports allocated reported).map (·.id) ↔
      id ∈ allocated ∧ id ∈ reported.map (·.id) := by
  rw [← List.count_pos_iff, count_firstReports]
  split
  · rename_i both
    exact iff_of_true Nat.one_pos both
  · rename_i absent
    exact iff_of_false (Nat.lt_irrefl 0) absent

/-- No block has two first reports. -/
theorem nodup_firstReports (allocated : List BlockId) (reported : List Block) :
    ((firstReports allocated reported).map (·.id)).Nodup := by
  refine List.nodup_iff_count.2 fun id => ?_
  rw [count_firstReports]
  split
  · exact Nat.le_refl 1
  · exact Nat.zero_le 1

/-! ## What is left over -/

/-- Of distinct allocated blocks, those are left over that no report names. -/
theorem leftOver_of_distinct (reported : List BlockId) {allocated : List Block}
    (distinct : (allocated.map (·.id)).Nodup) :
    leftOver reported allocated = allocated.filter (·.id ∉ reported) := by
  induction allocated with
  | nil => rfl
  | cons block rest ih =>
      rw [List.map_cons, List.nodup_cons] at distinct
      rw [leftOver, ih distinct.2, List.filter_cons]
      by_cases named : block.id ∈ reported
      · simp only [named, distinct.1, not_false_eq_true, and_self, not_true_eq_false,
          decide_false, Bool.false_eq_true, ↓reduceIte]
      · simp only [named, false_and, not_false_eq_true, decide_true, ↓reduceIte]

/-- An identity is left over if it was allocated more often than a report of it is matched. -/
theorem mem_leftOver_iff (reported : List BlockId) (allocated : List Block) (id : BlockId) :
    id ∈ (leftOver reported allocated).map (·.id) ↔
      (if id ∈ reported then 1 else 0) < (allocated.map (·.id)).count id := by
  have counted := count_leftOver reported allocated id
  rw [← List.count_pos_iff]
  by_cases known : id ∈ allocated.map (·.id)
  · simp only [known, and_true] at counted
    omega
  · rw [List.count_eq_zero.2 known] at counted ⊢
    omega

/-- An identity has a first report and is left over exactly if it is reported and was allocated
more than once. -/
theorem firstReports_leftOver_iff (allocated reported : List Block) (id : BlockId) :
    id ∈ (firstReports (allocated.map (·.id)) reported).map (·.id) ∧
        id ∈ (leftOver (reported.map (·.id)) allocated).map (·.id) ↔
      id ∈ reported.map (·.id) ∧ 2 ≤ (allocated.map (·.id)).count id := by
  rw [mem_firstReports_iff, mem_leftOver_iff, ← List.count_pos_iff]
  by_cases named : id ∈ reported.map (·.id)
  · simp only [named, and_true, true_and, ↓reduceIte]
    omega
  · simp only [named, and_false, false_and]

/-! ## Matching again -/

variable (allocated : List BlockId) (reported : List Block) (version : UInt64)

/-- Marking blocks keeps their identifiers. -/
theorem ids_stamped (blocks : List Block) :
    (blocks.map (Block.stamp version)).map (·.id) = blocks.map (·.id) :=
  VersionGroup.ids_ofBlocks version blocks false

/-- Of the reported identities, the allocated ones have first reports. -/
theorem mem_first_iff_of_reported {id : BlockId} (named : id ∈ reported.map (·.id)) :
    id ∈ ((firstReports allocated reported).map (Block.stamp version)).map (·.id) ↔
      id ∈ allocated := by
  rw [ids_stamped, mem_firstReports_iff, and_iff_left named]

/-- Matched with its own first reports, a report has the same first reports. -/
theorem firstReports_again :
    firstReports (((firstReports allocated reported).map (Block.stamp version)).map (·.id))
      reported = firstReports allocated reported :=
  firstReports_congr fun _ named => mem_first_iff_of_reported allocated reported version named

/-- What was left of a report is left again, once its first reports are allocated. -/
theorem otherReports_again :
    otherReports (((firstReports allocated reported).map (Block.stamp version)).map (·.id))
      reported = otherReports allocated reported :=
  otherReports_congr fun _ named => mem_first_iff_of_reported allocated reported version named

/-- Matched with its own first reports, a report leaves nothing over. -/
theorem leftOver_again :
    leftOver (reported.map (·.id))
      ((firstReports allocated reported).map (Block.stamp version)) = [] := by
  have ids := ids_stamped version (firstReports allocated reported)
  rw [leftOver_of_distinct _ (ids ▸ nodup_firstReports allocated reported),
    List.filter_eq_nil_iff]
  intro block member absent
  have first : block.id ∈ (firstReports allocated reported).map (·.id) :=
    ids ▸ List.mem_map_of_mem member
  exact of_decide_eq_true absent ((mem_firstReports_iff allocated reported block.id).1 first).2

/-- An outcome that matches a report exactly with the blocks of a group. -/
structure Exact (outcome : Reconciliation) (name : String) (group : VersionGroup)
    (reported : List Block) : Prop where
  version : outcome.version = group.version
  committed : outcome.committed =
    (firstReports (group.blocks.map (·.id)) reported).map (Block.stamp group.version)
  uncommitted : outcome.uncommitted = group.blocks.filter (·.id ∉ reported.map (·.id))
  unknown : outcome.unknown =
    (otherReports (group.blocks.map (·.id)) reported).map (⟨name, ·⟩)
  /-- But for the stamp of committed blocks, nothing that was reported is lost or made up. -/
  conserved : ∃ accepted, outcome.committed = accepted.map (Block.stamp group.version) ∧
    (accepted ++ outcome.unknown.map (·.block)).Perm reported
  /-- Every allocated identity is committed or left over. -/
  covered : (outcome.committed.map (·.id) ++ outcome.uncommitted.map (·.id)).Perm
    (group.blocks.map (·.id))
  apart : ∀ id ∈ outcome.committed.map (·.id), id ∉ outcome.uncommitted.map (·.id)

end Reconciliation

namespace KeyRecord

variable {key : KeyRecord} {group : VersionGroup} {reported : List Block} {options : CommitOptions}

/-- A commit that matches its report puts the first reports in the place of the newest version's
blocks. -/
theorem commit_checked (newest : key.latest? = some group) (checked : options.unchecked = false)
    (reported : List Block) :
    key.commit reported options =
      let committed := VersionGroup.ofBlocks group.version
        (Reconciliation.firstReports (group.blocks.map (·.id)) reported) options.multipart
      .ok ({ key with history := replaceLatest key.history committed },
        { version := group.version
          committed := committed.blocks
          uncommitted := Reconciliation.leftOver (reported.map (·.id)) group.blocks
          unknown := (Reconciliation.otherReports (group.blocks.map (·.id)) reported).map
            (⟨key.name, ·⟩) }) := by
  unfold commit
  simp only [newest, checked, Bool.false_eq_true, ↓reduceIte, Reconciliation.ofReport_eq]

/-- A commit that does not match its report puts the report in the place of the newest version's
blocks. -/
theorem commit_unchecked (newest : key.latest? = some group) (unchecked : options.unchecked = true)
    (reported : List Block) :
    key.commit reported options =
      let committed := VersionGroup.ofBlocks group.version reported options.multipart
      .ok ({ key with history := replaceLatest key.history committed },
        ⟨group.version, committed.blocks, [], []⟩) := by
  unfold commit
  simp only [newest, unchecked, ↓reduceIte]

/-- Where the allocated blocks are distinct, a report is matched with them exactly, and the newest
version holds what was committed. -/
theorem reconciled_of_distinct (newest : key.latest? = some group)
    (distinct : (group.blocks.map (·.id)).Nodup) (checked : options.unchecked = false)
    (reported : List Block) :
    ∃ after outcome, key.commit reported options = .ok (after, outcome) ∧
      outcome.Exact key.name group reported ∧
      after = { key with
        history := key.history.dropLast ++
          [⟨group.version, outcome.committed, options.multipart⟩] } := by
  refine ⟨_, _, commit_checked newest checked reported, ?_, rfl⟩
  have kept := Reconciliation.leftOver_of_distinct (reported.map (·.id)) distinct
  have counted := Reconciliation.count_ofReport key.name group.version group.blocks reported
  rw [Reconciliation.ofReport_eq] at counted
  exact
    { version := rfl
      committed := rfl
      uncommitted := kept
      unknown := rfl
      conserved := by
        have parted := Reconciliation.firstReports_append_perm (group.blocks.map (·.id)) reported
        refine ⟨_, rfl, ?_⟩
        simpa only [List.map_map, Function.comp_def, List.map_id'] using parted
      covered := by
        refine List.perm_iff_count.2 fun id => ?_
        rw [List.count_append, VersionGroup.ids_ofBlocks]
        exact counted id
      apart := by
        intro id committed left
        rw [VersionGroup.ids_ofBlocks, Reconciliation.mem_firstReports_iff] at committed
        rw [kept] at left
        obtain ⟨block, inside, rfl⟩ := List.mem_map.1 left
        exact of_decide_eq_true (List.mem_filter.1 inside).2 committed.2 }

/-- A key of some versions. -/
def versioned (history : List VersionGroup) : KeyRecord where
  volume := "v"
  bucket := "b"
  name := "k"
  fileName := ""
  owner := none
  size := 0
  created := 5
  modified := 5
  replication := .ratis 1
  encryption := none
  checksum := none
  isFile := true
  acls := ⟨[]⟩
  metadata := .empty
  tags := .empty
  objectId := 0
  parentId := 0
  generation := 0
  expected := none
  history

/-- A report that names the third block twice, then a block of another container, then the first
block. -/
def tangled : List Block :=
  [{ Block.bare ⟨1, 3⟩ with length := 7 }, { Block.bare ⟨1, 3⟩ with length := 8 },
    .bare ⟨9, 9⟩, { Block.bare ⟨1, 1⟩ with offset := 7, length := 5 }]

/-- A tangled report is taken in its order, with an unknown and a repeated block. -/
theorem reconciled_tangled :
    ∃ after outcome,
      (versioned [.ofBlocks 0 [.bare ⟨1, 9⟩] false,
        .ofBlocks 1 [.bare ⟨1, 1⟩, .bare ⟨1, 2⟩, .bare ⟨1, 3⟩] false]).commit tangled {} =
        .ok (after, outcome) ∧
      outcome.Exact "k" (.ofBlocks 1 [.bare ⟨1, 1⟩, .bare ⟨1, 2⟩, .bare ⟨1, 3⟩] false) tangled ∧
      outcome.committed = [⟨⟨1, 3⟩, 0, 7, 1, none⟩, ⟨⟨1, 1⟩, 7, 5, 1, none⟩] ∧
      outcome.uncommitted = [⟨⟨1, 2⟩, 0, 0, 1, none⟩] ∧
      outcome.unknown = [⟨"k", ⟨⟨1, 3⟩, 0, 8, 0, none⟩⟩, ⟨"k", .bare ⟨9, 9⟩⟩] ∧
      after.latestBlocks = outcome.committed := by
  obtain ⟨_, outcome, committed, exactly, rfl⟩ := reconciled_of_distinct
    (show (versioned [.ofBlocks 0 [.bare ⟨1, 9⟩] false,
      .ofBlocks 1 [.bare ⟨1, 1⟩, .bare ⟨1, 2⟩, .bare ⟨1, 3⟩] false]).latest? = some _ from rfl)
    (by decide) (show ({} : CommitOptions).unchecked = false from rfl) tangled
  refine ⟨_, outcome, committed, exactly, ?_, ?_, ?_, rfl⟩
  · rw [exactly.committed]
    decide
  · rw [exactly.uncommitted]
    decide
  · rw [exactly.unknown]
    decide

/-- An identity is both committed and left over exactly if it is reported and was allocated more
than once. -/
theorem overlap_iff_of_checked (newest : key.latest? = some group)
    (checked : options.unchecked = false) (reported : List Block) :
    ∃ after outcome, key.commit reported options = .ok (after, outcome) ∧
      (∀ id, id ∈ outcome.committed.map (·.id) ∧ id ∈ outcome.uncommitted.map (·.id) ↔
        id ∈ reported.map (·.id) ∧ 2 ≤ (group.blocks.map (·.id)).count id) ∧
      ((∀ id ∈ outcome.committed.map (·.id), id ∉ outcome.uncommitted.map (·.id)) ↔
        ∀ id ∈ reported.map (·.id), (group.blocks.map (·.id)).count id ≤ 1) := by
  refine ⟨_, _, commit_checked newest checked reported, ?_⟩
  simp only [VersionGroup.ids_ofBlocks]
  have overlap := Reconciliation.firstReports_leftOver_iff group.blocks reported
  refine ⟨overlap, ?_⟩
  constructor
  · intro apart id named
    by_contra twice
    obtain ⟨committed, left⟩ := (overlap id).2 ⟨named, by omega⟩
    exact apart id committed left
  · intro once id committed left
    obtain ⟨named, twice⟩ := (overlap id).1 ⟨committed, left⟩
    exact absurd (once id named) (by omega)

/-- A block that was allocated twice does no harm as long as it is not reported. -/
theorem overlap_spared :
    ∃ after outcome,
      (versioned [.ofBlocks 0 [.bare ⟨1, 1⟩, .bare ⟨1, 2⟩, .bare ⟨1, 1⟩] false]).commit
        [.bare ⟨1, 2⟩] {} = .ok (after, outcome) ∧
      ∀ id ∈ outcome.committed.map (·.id), id ∉ outcome.uncommitted.map (·.id) := by
  obtain ⟨after, outcome, committed, -, apart⟩ := overlap_iff_of_checked
    (show (versioned [.ofBlocks 0 [.bare ⟨1, 1⟩, .bare ⟨1, 2⟩, .bare ⟨1, 1⟩] false]).latest? =
      some _ from rfl) (show ({} : CommitOptions).unchecked = false from rfl) [.bare ⟨1, 2⟩]
  exact ⟨after, outcome, committed, apart.2 (by decide)⟩

/-- A block that is allocated to a version twice, and reported, is committed and left over, so that
the key refers to a block that is handed back. -/
theorem overlap_of_repeated :
    ∃ built opened extended after outcome,
      KeyDraft.build
        { volume := some "v", bucket := some "b", name := some "k", created := some 5
          replication := some (.ratis 1) } 5 = .ok built ∧
      built.addVersion [.bare ⟨1, 1⟩] none true = .ok (opened, 0) ∧
      opened.appendBlocks [.bare ⟨1, 1⟩] none = .ok extended ∧
      extended.commit [.bare ⟨1, 1⟩] {} = .ok (after, outcome) ∧
      outcome.committed.map (·.id) = [⟨1, 1⟩] ∧ outcome.uncommitted.map (·.id) = [⟨1, 1⟩] ∧
      after.latestBlocks.map (·.id) = [⟨1, 1⟩] :=
  ⟨_, _, _, _, _, rfl, rfl, rfl, rfl, by decide, by decide, by decide⟩

/-- Committing the same report again changes nothing, and leaves nothing over. -/
theorem commit_again (kept : key.history ≠ []) (reported : List Block) (options : CommitOptions) :
    ∃ after outcome, key.commit reported options = .ok (after, outcome) ∧
      after.commit reported options = .ok (after, { outcome with uncommitted := [] }) := by
  obtain ⟨group, newest⟩ : ∃ group, key.latest? = some group :=
    Option.ne_none_iff_exists'.1 (List.getLast?_eq_none_iff.not.2 kept)
  obtain ⟨older, history⟩ := List.getLast?_eq_some_iff.1 newest
  cases checked : options.unchecked with
  | true =>
      refine ⟨_, _, commit_unchecked newest checked reported, ?_⟩
      simp only [history, replaceLatest_concat]
      rw [commit_unchecked (latest?_of_history rfl) checked reported]
      simp only [replaceLatest_concat]
      rfl
  | false =>
      refine ⟨_, _, commit_checked newest checked reported, ?_⟩
      -- The second time, the report is matched with its own first reports.
      simp only [history, replaceLatest_concat]
      rw [commit_checked (latest?_of_history rfl) checked reported]
      simp only [replaceLatest_concat, VersionGroup.ofBlocks, Reconciliation.firstReports_again,
        Reconciliation.otherReports_again, Reconciliation.leftOver_again]

/-- Taking a tangled report again changes nothing and leaves nothing over. -/
theorem commit_again_tangled :
    ∃ after outcome,
      (versioned [.ofBlocks 0 [.bare ⟨1, 3⟩, .bare ⟨1, 2⟩, .bare ⟨1, 3⟩] false]).commit tangled
        ⟨true, false⟩ = .ok (after, outcome) ∧
      after.commit tangled ⟨true, false⟩ = .ok (after, { outcome with uncommitted := [] }) :=
  commit_again (List.cons_ne_nil _ _) tangled ⟨true, false⟩

end KeyRecord

end ObjectLedger
