import ObjectLedger.Proofs.Key.History
import ObjectLedger.Proofs.Store.Usage

/-! # What versions are charged and credited

Each version of a key is charged on its own, under the replication of its session
(`KeyRecord.chargedBytes`). A deletion credits all versions of the key together, under the
replication of the key (`KeyRecord.credit`). Both agree where the replication stayed the same, no
amount was clamped, and no erasure coded version ended within a stripe before another one followed
(`KeyRecord.Comprises.credit_eq`).
-/

namespace ObjectLedger

namespace KeyRecord

/-- The bytes that a deletion of a key gives back to its bucket, or none if they cannot be
counted. -/
def credit (key : KeyRecord) : Int64 :=
  match key.replication.charge key.allBlocks with
  | .ok bytes => bytes
  | .error _ => 0

/-- A key holds the newest versions of some records in turn, under the replication of the last. -/
structure Comprises (key : KeyRecord) (versions : List KeyRecord) : Prop where
  lengths : key.history.map (·.blocks.map (·.length)) =
    versions.map (·.latestBlocks.map (·.length))
  replication : versions.getLast?.map (·.replication) = some key.replication

/-- Every version of a key is stored under the replication of the key and, but for the last, in
whole stripes, and the bytes that its deletion gives back are not clamped. -/
structure Uniform (key : KeyRecord) (versions : List KeyRecord) : Prop where
  same : ∀ version ∈ versions, version.replication = key.replication
  whole : ∀ version ∈ versions.dropLast, key.replication.Whole (Block.total version.latestBlocks)
  unclamped : key.credit ≠ Int64.maxValue

instance (key : KeyRecord) (versions : List KeyRecord) : Decidable (key.Uniform versions) :=
  decidable_of_iff ((∀ version ∈ versions, version.replication = key.replication) ∧
    (∀ version ∈ versions.dropLast,
      key.replication.Whole (Block.total version.latestBlocks)) ∧ key.credit ≠ Int64.maxValue)
    ⟨fun parts => ⟨parts.1, parts.2.1, parts.2.2⟩,
      fun uniform => ⟨uniform.same, uniform.whole, uniform.unclamped⟩⟩

/-- A written key comprises the versions it keeps and its own. -/
theorem comprises_asStored {written : KeyRecord} {older : List VersionGroup}
    {group : VersionGroup} (history : written.history = older ++ [group])
    {versions : List KeyRecord} (kept : older.map (·.blocks.map (·.length)) =
      versions.map (·.latestBlocks.map (·.length))) :
    written.asStored.Comprises (versions ++ [written]) where
  lengths := by
    unfold asStored
    rw [history, List.map_map, List.map_append, List.map_append, ← kept, List.map_singleton,
      List.map_singleton, latestBlocks_of_history history]
    simp only [Function.comp_def, VersionGroup.lengths_withoutPipelines]
  replication := by
    rw [List.getLast?_concat]
    rfl

end KeyRecord

/-- The exact size of some versions together is the sum of theirs, if all but the last are in whole
stripes. -/
theorem chargedFor_of_whole {replication : Replication} (versions : List KeyRecord)
    (same : ∀ version ∈ versions, version.replication = replication)
    (whole : ∀ version ∈ versions.dropLast,
      replication.Whole (Block.total version.latestBlocks))
    (fits : Block.total (versions.flatMap (·.latestBlocks)) < UInt64.size)
    (small : replication.exactSize (Block.total (versions.flatMap (·.latestBlocks))) <
      Word.signedSize) :
    chargedFor versions =
      .ofNat (replication.exactSize (Block.total (versions.flatMap (·.latestBlocks)))) := by
  induction versions with
  | nil =>
      change _ = Int64.ofNat (replication.exactSize 0)
      rw [replication.exactSize_zero]
      rfl
  | cons version rest ih =>
      rw [List.flatMap_cons, Block.total_append] at fits small ⊢
      have split : replication.exactSize (Block.total version.latestBlocks +
          Block.total (rest.flatMap (·.latestBlocks))) =
            replication.exactSize (Block.total version.latestBlocks) +
              replication.exactSize (Block.total (rest.flatMap (·.latestBlocks))) := by
        cases rest with
        | nil =>
            change _ = _ + replication.exactSize 0
            rw [replication.exactSize_zero]
            rfl
        | cons next others =>
            exact Replication.exactSize_add (whole version List.mem_cons_self) _
      rw [split] at small ⊢
      have own : version.chargedBytes =
          .ofNat (replication.exactSize (Block.total version.latestBlocks)) := by
        unfold KeyRecord.chargedBytes
        rw [same version List.mem_cons_self, Replication.charge_of_lt (by omega) (by omega)]
      have later : ∀ other ∈ rest.dropLast,
          replication.Whole (Block.total other.latestBlocks) := by
        intro other member
        refine whole other ?_
        cases rest with
        | nil => cases member
        | cons next others => exact List.mem_cons_of_mem _ member
      rw [chargedFor_cons, own, ih (fun other member => same other (List.mem_cons_of_mem _ member))
        later (by omega) (by omega), Int64.ofNat_add]

/-- A deletion credits what the versions of its key were charged, if they are uniform. -/
theorem KeyRecord.Comprises.credit_eq {key : KeyRecord} {versions : List KeyRecord}
    (comprises : key.Comprises versions) (uniform : key.Uniform versions) {bytes : Int64}
    (charge : key.replication.charge key.allBlocks = .ok bytes) :
    key.credit = chargedFor versions := by
  have credited : key.credit = bytes := by
    unfold credit
    rw [charge]
  obtain ⟨fits, small, exact⟩ :=
    Replication.charge_exact charge (credited ▸ uniform.unclamped)
  have together : Block.total key.allBlocks =
      Block.total (versions.flatMap (·.latestBlocks)) := by
    unfold allBlocks
    rw [Block.total_flatMap, Block.total_flatMap, comprises.lengths]
  rw [together] at fits small exact
  rw [credited, exact, chargedFor_of_whole versions uniform.same uniform.whole fits small]

end ObjectLedger
