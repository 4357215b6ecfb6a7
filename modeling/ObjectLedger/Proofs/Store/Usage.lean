import ObjectLedger.Proofs.Store.Charge
import ObjectLedger.Proofs.Store.Records

/-! # What the keys of a bucket use

A store lists its keys (`Records.keyList`). A written key joins the list beside the keys under
other paths, and a bucket uses one key and the charged bytes for each that lies in it
(`Records.keysOf`, `chargedFor`).
-/

namespace ObjectLedger

/-- The bytes charged for the newest version of a key, or none if they cannot be counted. -/
def KeyRecord.chargedBytes (key : KeyRecord) : Int64 :=
  match key.replication.charge key.latestBlocks with
  | .ok bytes => bytes
  | .error _ => 0

/-- The bytes charged for some keys. -/
def chargedFor (keys : List KeyRecord) : Int64 := (keys.map (·.chargedBytes)).sum

theorem chargedFor_nil : chargedFor [] = 0 := rfl

theorem chargedFor_cons (key : KeyRecord) (keys : List KeyRecord) :
    chargedFor (key :: keys) = key.chargedBytes + chargedFor keys := by
  unfold chargedFor
  rw [List.map_cons, List.sum_cons]

theorem chargedFor_append (keys other : List KeyRecord) :
    chargedFor (keys ++ other) = chargedFor keys + chargedFor other := by
  induction keys with
  | nil => exact (Int64.zero_add _).symm
  | cons key rest ih =>
      rw [List.cons_append, chargedFor_cons, chargedFor_cons, ih, Int64.add_assoc]

/-- The order of the keys does not matter for what they are charged. -/
theorem chargedFor_perm {keys other : List KeyRecord} (same : keys.Perm other) :
    chargedFor keys = chargedFor other := by
  induction same with
  | nil => rfl
  | cons key _ ih => rw [chargedFor_cons, chargedFor_cons, ih]
  | swap first second rest =>
      simp only [chargedFor_cons]
      rw [← Int64.add_assoc, ← Int64.add_assoc, Int64.add_comm second.chargedBytes]
  | trans _ _ first second => exact first.trans second

namespace Records

variable {records rest : Records}

/-- The stored keys, as they are read. -/
def keyList (records : Records) : List KeyRecord :=
  records.keys.entries.filterMap fun entry => (KeyRecord.ofPersisted entry.2.bytes 0).toOption

/-- The stored keys of a bucket. -/
def keysOf (records : Records) (volume bucket : String) : List KeyRecord :=
  records.keyList.filter fun key => key.volume = volume ∧ key.bucket = bucket

/-- The list of keys has every key of a path. -/
theorem mem_keyList_iff (records : Records) (key : KeyRecord) :
    key ∈ records.keyList ↔ ∃ path, records.keyAt path = some key := by
  unfold keyList keyAt
  rw [List.mem_filterMap]
  constructor
  · rintro ⟨⟨path, stored⟩, member, read⟩
    refine ⟨path, ?_⟩
    rw [(records.keys.mem_entries_iff path stored).1 member]
    exact read
  · rintro ⟨path, seen⟩
    obtain ⟨stored, found, read⟩ := Option.bind_eq_some_iff.1 seen
    exact ⟨(path, stored), (records.keys.mem_entries_iff path stored).2 found, read⟩

/-- Every frame of a sound store is listed. -/
theorem Sound.length_keyList (sound : records.Sound) :
    records.keyList.length = records.keys.size := by
  unfold keyList
  rw [List.length_filterMap_eq_countP, Dictionary.size, List.countP_eq_length]
  rintro ⟨path, stored⟩ member
  have found := (records.keys.mem_entries_iff path stored).1 member
  obtain ⟨key, holds⟩ := sound.keys path stored found
  rw [holds.ofPersisted]
  rfl

/-- The stored keys are one of them and those that stay when it is dropped. -/
theorem keyList_perm_of_keyAt {path : String} {key : KeyRecord}
    (seen : records.keyAt path = some key) :
    records.keyList.Perm (key :: (records.dropKey path).keyList) := by
  obtain ⟨stored, found, read⟩ := Option.bind_eq_some_iff.1 seen
  have parted := (Dictionary.entries_perm_of_get? found).filterMap
    fun entry => (KeyRecord.ofPersisted entry.2.bytes 0).toOption
  simp only [List.filterMap_cons, read] at parted
  exact parted

/-- A written key is one of the stored keys, beside those under other paths. -/
theorem keyList_putKey_perm (records : Records) {key : KeyRecord}
    (wellFormed : key.WellFormed) {frame : List UInt8} (persisted : key.persist = .ok frame) :
    (records.putKey key frame).keyList.Perm (key.asStored ::
      (records.dropKey (keyPath key.volume key.bucket key.name)).keyList) := by
  have read : (KeyRecord.ofPersisted frame 0).toOption = some key.asStored := by
    rw [(Stored.holdsKey_asStored wellFormed persisted).ofPersisted]
    rfl
  have parted := (Dictionary.entries_insert_perm records.keys
    (keyPath key.volume key.bucket key.name) ⟨key.generation, frame⟩).filterMap
      fun entry => (KeyRecord.ofPersisted entry.2.bytes 0).toOption
  simp only [List.filterMap_cons, read] at parted
  exact parted

/-- The keys of a bucket, where some keys that all lie in one bucket are set apart. -/
theorem keysOf_perm {keys : List KeyRecord} {volume bucket : String}
    (parted : records.keyList.Perm (keys ++ rest.keyList))
    (inside : ∀ key ∈ keys, key.volume = volume ∧ key.bucket = bucket)
    (otherVolume other : String) :
    (records.keysOf otherVolume other).Perm
      ((if volume = otherVolume ∧ bucket = other then keys else []) ++
        rest.keysOf otherVolume other) := by
  have filtered := parted.filter fun key =>
    decide (key.volume = otherVolume ∧ key.bucket = other)
  rw [List.filter_append] at filtered
  have own : keys.filter (fun key => decide (key.volume = otherVolume ∧ key.bucket = other)) =
      if volume = otherVolume ∧ bucket = other then keys else [] := by
    split
    · rename_i here
      rw [List.filter_eq_self]
      intro key member
      rw [(inside key member).1, (inside key member).2]
      exact decide_eq_true here
    · rename_i elsewhere
      rw [List.filter_eq_nil_iff]
      intro key member
      rw [(inside key member).1, (inside key member).2]
      simpa using elsewhere
  rw [own] at filtered
  exact filtered

end Records

/-- A key of one group is charged for the blocks of the group. -/
theorem KeyRecord.chargedBytes_eq {key : KeyRecord} {group : VersionGroup}
    (history : key.history = [group]) {bytes : Int64}
    (charge : key.replication.charge group.blocks = .ok bytes) : key.chargedBytes = bytes := by
  unfold chargedBytes latestBlocks latest?
  rw [history, List.getLast?_singleton]
  change (match key.replication.charge group.blocks with
    | .ok bytes => bytes
    | .error _ => 0) = bytes
  rw [charge]

end ObjectLedger
