import ObjectLedger.Key.History

/-! # Reconciling a commit

A writer reports the blocks it wrote. Each reported block is looked up by identity
among the blocks allocated to the newest version, and takes the one it finds, so
that an allocated block is matched once. Matched blocks replace the version's blocks
as they were reported, allocated blocks without a match are left over, and reported
blocks without a match are unknown. Where an identity was allocated more than once,
the last allocation is matched.
-/

namespace ObjectLedger

/-- How a commit treats its report. -/
structure CommitOptions where
  /-- The version belongs to a multipart upload. -/
  multipart : Bool := false
  /-- The report is taken as it is, without matching it. -/
  unchecked : Bool := false
deriving DecidableEq, Repr

/-- A reported block that was not allocated to the key. -/
structure UnknownBlock where
  key : String
  block : Block
deriving DecidableEq

/-- The outcome of reconciling a report. -/
structure Reconciliation where
  version : UInt64
  /-- The blocks of the version, in the order of the report. -/
  committed : List Block
  /-- The allocated blocks without a match, in the order of allocation. -/
  uncommitted : List Block
  /-- The reported blocks without a match, in the order of the report. -/
  unknown : List UnknownBlock
deriving DecidableEq

namespace Reconciliation

/-- The place at which each identity was allocated last. -/
def places (allocated : List Block) : BlockId → Option Nat :=
  allocated.zipIdx.foldl
    (fun known entry id => if id = entry.1.id then some entry.2 else known id) fun _ => none

/-- The place of an identity, if the block allocated there is still pending. -/
def pendingPlace? (places : BlockId → Option Nat) (pending : List (Option Block)) (id : BlockId) :
    Option Nat :=
  (places id).filter fun place => pending[place]?.join.isSome

/-- The reported blocks with a match, those without one, and what is pending after them. A match
takes the block from its place, so that a second report of the same block finds none. -/
def takeReported (places : BlockId → Option Nat) :
    List Block → List (Option Block) → List Block × List Block × List (Option Block)
  | [], pending => ([], [], pending)
  | block :: rest, pending =>
    match pendingPlace? places pending block.id with
    | some place =>
      let (found, others, left) := takeReported places rest (pending.set place none)
      (block :: found, others, left)
    | none =>
      let (found, others, left) := takeReported places rest pending
      (found, block :: others, left)

/-- The outcome of matching a report with the blocks allocated to a version. -/
def ofReport (key : String) (version : UInt64) (allocated reported : List Block) :
    Reconciliation :=
  let (found, others, left) := takeReported (places allocated) reported (allocated.map some)
  { version
    committed := found
    uncommitted := left.filterMap id
    unknown := others.map (⟨key, ·⟩) }

end Reconciliation

/-- The record with the reported blocks committed to its newest version, and the
outcome of reconciling them. -/
def KeyRecord.commit (key : KeyRecord) (reported : List Block) (options : CommitOptions) :
    Except RecordError (KeyRecord × Reconciliation) :=
  match key.latest? with
  | none => .error (.noVersion key.name)
  | some group =>
    let outcome : Reconciliation :=
      if options.unchecked then ⟨group.version, reported, [], []⟩
      else .ofReport key.name group.version group.blocks reported
    let committed := VersionGroup.ofBlocks group.version outcome.committed options.multipart
    .ok ({ key with history := replaceLatest key.history committed },
      { outcome with committed := committed.blocks })

end ObjectLedger
