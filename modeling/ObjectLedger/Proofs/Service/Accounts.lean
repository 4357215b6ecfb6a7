import ObjectLedger.Proofs.Service.Bucket
import ObjectLedger.Proofs.Store.Path
import ObjectLedger.Proofs.Store.Usage

/-! # Accounts of buckets

A store is balanced if each bucket has been charged, beyond its counters at creation, for
exactly the keys that are stored in it (`Records.Balanced`). It stays balanced when the counters
follow its keys (`Records.Follows`), as they do when keys of one bucket are exchanged and the
bucket is charged for the difference (`Records.Moves.follows`).
-/

namespace ObjectLedger

/-- A key has one version, and the bytes charged for it can be counted. -/
def KeyRecord.ChargedOnce (key : KeyRecord) : Prop :=
  ∃ group, key.history = [group] ∧ key.replication.charge group.blocks = .ok key.chargedBytes

namespace Records

/-- Every bucket that is no link stays, with counters that follow what its keys use, and no
other bucket appears. -/
structure Follows (before after : Records) : Prop where
  homes : ∀ {volume name : String} {home : BucketRecord}, before.Home volume name home →
    ∃ next, after.Home volume name next ∧ next.versioning = home.versioning ∧
      next.usedKeys + .ofNat (before.keysOf volume name).length =
        home.usedKeys + .ofNat (after.keysOf volume name).length ∧
      (home.versioning = false → next.usedBytes + chargedFor (before.keysOf volume name) =
        home.usedBytes + chargedFor (after.keysOf volume name))
  buckets : ∀ {path : String} {bucket : BucketRecord}, after.bucketAt path = some bucket →
    ∃ old, before.bucketAt path = some old ∧ old.volume = bucket.volume ∧
      old.name = bucket.name ∧ old.source? = bucket.source?

/-- The buckets of a store were created, and each has been charged for exactly the keys that
are stored in it. -/
structure Balanced (created : List BucketRecord) (records : Records) : Prop where
  plain : ∀ first ∈ created, Plain first.volume ∧ Plain first.name
  made : ∀ path bucket, records.bucketAt path = some bucket → ∃ first ∈ created,
    first.volume = bucket.volume ∧ first.name = bucket.name ∧ first.source? = bucket.source?
  accounts : ∀ first ∈ created, first.source? = none → ∃ home,
    records.Home first.volume first.name home ∧ home.versioning = first.versioning ∧
      home.usedKeys = first.usedKeys + .ofNat (records.keysOf first.volume first.name).length ∧
      (first.versioning = false → home.usedBytes =
        first.usedBytes + chargedFor (records.keysOf first.volume first.name))
  keys : ∀ path key, records.keyAt path = some key → ∃ home,
    records.Home key.volume key.bucket home ∧ (home.versioning = false → key.ChargedOnce)

variable {before middle after rest : Records} {volume name : String} {bytes keys : Int64}
  {created : List BucketRecord}

/-- Moving the usage of a home moves its counters and leaves the other homes. -/
theorem Moves.home {target other : BucketRecord}
    (moves : before.Moves volume name bytes keys after) (sound : before.Sound)
    (stands : before.Home volume name target) {otherVolume otherName : String}
    (home : before.Home otherVolume otherName other) : ∃ next,
      after.Home otherVolume otherName next ∧ next.versioning = other.versioning ∧
        next.usedKeys = other.usedKeys +
          (if volume = otherVolume ∧ name = otherName then keys else 0) ∧
        next.usedBytes = other.usedBytes +
          (if volume = otherVolume ∧ name = otherName then bytes else 0) := by
  obtain ⟨next, stays, moved⟩ := moves.stays sound.toBucketsSound home
  refine ⟨next, stays, ?_⟩
  by_cases own : volume = otherVolume ∧ name = otherName
  · obtain ⟨rfl, rfl⟩ := own
    rcases moved with ⟨-, elsewhere⟩ | ⟨-, updateId, time, rfl⟩
    · exact (elsewhere home.resolve).elim
    · rw [if_pos ⟨rfl, rfl⟩, if_pos ⟨rfl, rfl⟩]
      exact ⟨rfl, rfl, rfl⟩
  · rcases moved with ⟨rfl, -⟩ | ⟨here, -⟩
    · rw [if_neg own, if_neg own, Int64.add_zero, Int64.add_zero]
      exact ⟨rfl, rfl, rfl⟩
    · cases stands.resolve.symm.trans here
      exact (own ⟨stands.volume.symm.trans home.volume, stands.name.symm.trans home.name⟩).elim

/-- Moving the usage of a bucket creates and renames none. -/
theorem Moves.bucket {path : String} {bucket : BucketRecord}
    (moves : before.Moves volume name bytes keys after) (sound : before.Sound)
    (seen : after.bucketAt path = some bucket) : ∃ old, before.bucketAt path = some old ∧
      old.volume = bucket.volume ∧ old.name = bucket.name ∧ old.source? = bucket.source? := by
  obtain ⟨found, updateId, time, frame, stands, -, persisted⟩ := moves
  rw [bucketAt_putBucket ((stands.wellFormed sound.toBucketsSound).moved bytes keys updateId time)
    persisted] at seen
  split at seen
  · rename_i here
    cases seen
    exact ⟨found, here ▸ stands.seen, rfl, rfl, rfl⟩
  · exact ⟨bucket, seen, rfl, rfl, rfl⟩

/-- Some keys of one bucket are exchanged for others, and the keys of another store are left. -/
structure Exchange (before middle : Records) (volume name : String) (removed added : List KeyRecord)
    (rest : Records) : Prop where
  buckets : middle.buckets = before.buckets
  taken : before.keyList.Perm (removed ++ rest.keyList)
  given : middle.keyList.Perm (added ++ rest.keyList)
  insideTaken : ∀ key ∈ removed, key.volume = volume ∧ key.bucket = name
  insideGiven : ∀ key ∈ added, key.volume = volume ∧ key.bucket = name

variable {removed added : List KeyRecord}

/-- An exchange of keys of one home moves its counters, and puts the added keys in the place of the
removed ones. -/
theorem Moves.exchanged {target : BucketRecord}
    (moves : middle.Moves volume name bytes keys after) (sound : middle.Sound)
    (exchange : before.Exchange middle volume name removed added rest)
    (stands : before.Home volume name target) {otherVolume otherName : String}
    {home : BucketRecord} (here : before.Home otherVolume otherName home) : ∃ next,
      after.Home otherVolume otherName next ∧ next.versioning = home.versioning ∧
        next.usedKeys = home.usedKeys +
          (if volume = otherVolume ∧ name = otherName then keys else 0) ∧
        next.usedBytes = home.usedBytes +
          (if volume = otherVolume ∧ name = otherName then bytes else 0) ∧
        (before.keysOf otherVolume otherName).Perm
          ((if volume = otherVolume ∧ name = otherName then removed else []) ++
            rest.keysOf otherVolume otherName) ∧
        (after.keysOf otherVolume otherName).Perm
          ((if volume = otherVolume ∧ name = otherName then added else []) ++
            rest.keysOf otherVolume otherName) := by
  have moved : ∀ {otherVolume otherName other}, before.Home otherVolume otherName other →
      middle.Home otherVolume otherName other := by
    intro otherVolume otherName other home
    refine ⟨?_, home.volume, home.name, home.source⟩
    rw [← home.seen, bucketAt, exchange.buckets, bucketAt]
  obtain ⟨next, stays, versioning, usedKeys, usedBytes⟩ :=
    moves.home sound (moved stands) (moved here)
  have later : after.keysOf otherVolume otherName = middle.keysOf otherVolume otherName := by
    unfold keysOf keyList
    rw [moves.keys_eq]
  exact ⟨next, stays, versioning, usedKeys, usedBytes,
    keysOf_perm exchange.taken exchange.insideTaken otherVolume otherName,
    later ▸ keysOf_perm exchange.given exchange.insideGiven otherVolume otherName⟩

/-- An exchange of keys of one home, together with the matching charge, is followed by the
counters. -/
theorem Moves.follows {target : BucketRecord}
    (moves : middle.Moves volume name bytes keys after) (sound : middle.Sound)
    (exchange : before.Exchange middle volume name removed added rest)
    (stands : before.Home volume name target)
    (keysMoved : keys + .ofNat removed.length = .ofNat added.length)
    (bytesMoved : target.versioning = false →
      bytes + chargedFor removed = chargedFor added) : before.Follows after := by
  constructor
  · intro otherVolume otherName home here
    obtain ⟨next, stays, versioning, usedKeys, usedBytes, first, second⟩ :=
      moves.exchanged sound exchange stands here
    refine ⟨next, stays, versioning, ?_, fun unversioned => ?_⟩
    · rw [first.length_eq, second.length_eq, List.length_append, List.length_append,
        Int64.ofNat_add, Int64.ofNat_add, usedKeys]
      split
      · grind
      · grind
    · rw [chargedFor_perm first, chargedFor_perm second, chargedFor_append,
        chargedFor_append, usedBytes]
      split
      · rename_i own
        obtain ⟨rfl, rfl⟩ := own
        have moved := bytesMoved (stands.unique here ▸ unversioned)
        grind
      · grind
  · intro path bucket seen
    obtain ⟨old, there, names⟩ := moves.bucket sound seen
    refine ⟨old, ?_, names⟩
    rw [← there, bucketAt, bucketAt, exchange.buckets]

theorem Balanced.empty : Records.empty.Balanced [] where
  plain first member := by cases member
  made path bucket seen := by cases seen
  accounts first member := by cases member
  keys path key seen := by cases seen

/-- A store stays balanced when the counters follow its keys. -/
theorem Balanced.of_follows (balanced : before.Balanced created) (follows : before.Follows after)
    (keys : ∀ path key, after.keyAt path = some key → before.keyAt path = some key ∨
      ∃ home, before.Home key.volume key.bucket home ∧
        (home.versioning = false → key.ChargedOnce)) : after.Balanced created where
  plain := balanced.plain
  made path bucket seen := by
    obtain ⟨old, there, volume, name, source⟩ := follows.buckets seen
    obtain ⟨first, member, firstVolume, firstName, firstSource⟩ := balanced.made path old there
    exact ⟨first, member, firstVolume.trans volume, firstName.trans name,
      firstSource.trans source⟩
  accounts first member source := by
    obtain ⟨home, stands, versioning, usedKeys, usedBytes⟩ :=
      balanced.accounts first member source
    obtain ⟨next, stays, same, keysFollow, bytesFollow⟩ := follows.homes stands
    refine ⟨next, stays, same.trans versioning, ?_, fun unversioned => ?_⟩
    · grind
    · have moved := bytesFollow (versioning.trans unversioned)
      have counted := usedBytes unversioned
      grind
  keys path key seen := by
    have hosted : ∃ home, before.Home key.volume key.bucket home ∧
        (home.versioning = false → key.ChargedOnce) := by
      rcases keys path key seen with old | new
      · exact balanced.keys path key old
      · exact new
    obtain ⟨home, stands, once⟩ := hosted
    obtain ⟨next, stays, same, -⟩ := follows.homes stands
    exact ⟨next, stays, fun unversioned => once (same.symm.trans unversioned)⟩

/-- There are no keys where there is no bucket. -/
theorem Balanced.keysOf_of_free (balanced : before.Balanced created)
    (free : before.buckets.get? (bucketPath volume name) = none) :
    before.keysOf volume name = [] := by
  rw [keysOf, List.filter_eq_nil_iff]
  intro key member inside
  obtain ⟨path, there⟩ := (mem_keyList_iff before key).1 member
  obtain ⟨home, stands, -⟩ := balanced.keys path key there
  obtain ⟨sameVolume, sameName⟩ := of_decide_eq_true inside
  have taken := stands.seen
  rw [sameVolume, sameName, bucketAt_of_free free] at taken
  cases taken

/-- A new bucket has no keys yet, and the other buckets stay as they are. -/
theorem Balanced.putBucket (balanced : before.Balanced created) {bucket : BucketRecord}
    (wellFormed : bucket.WellFormed) {frame : List UInt8}
    (persisted : bucket.persist = .ok frame)
    (free : before.buckets.get? (bucketPath bucket.volume bucket.name) = none)
    (plain : Plain bucket.volume ∧ Plain bucket.name) :
    (before.putBucket bucket frame).Balanced (created ++ [bucket]) := by
  have seen : ∀ path, (before.putBucket bucket frame).bucketAt path = _ :=
    bucketAt_putBucket wellFormed persisted
  have none := balanced.keysOf_of_free free
  constructor
  · intro first member
    rcases List.mem_append.1 member with old | new
    · exact balanced.plain first old
    · rw [List.mem_singleton.1 new]
      exact plain
  · intro path other there
    rw [seen] at there
    split at there
    · cases there
      exact ⟨bucket, List.mem_append_right _ (List.mem_singleton.2 rfl), rfl, rfl, rfl⟩
    · obtain ⟨first, member, names⟩ := balanced.made path other there
      exact ⟨first, List.mem_append_left _ member, names⟩
  · intro first member source
    rcases List.mem_append.1 member with old | new
    · obtain ⟨home, stands, account⟩ := balanced.accounts first old source
      exact ⟨home, stands.putBucket wellFormed persisted free, account⟩
    · obtain rfl := List.mem_singleton.1 new
      refine ⟨first, home_putBucket wellFormed persisted source, rfl, ?_, fun _ => ?_⟩
      · change _ = _ + Int64.ofNat (before.keysOf first.volume first.name).length
        rw [none]
        exact (Int64.add_zero _).symm
      · change _ = _ + chargedFor (before.keysOf first.volume first.name)
        rw [none]
        exact (Int64.add_zero _).symm
  · intro path key there
    obtain ⟨home, stands, once⟩ := balanced.keys path key there
    exact ⟨home, stands.putBucket wellFormed persisted free, once⟩

/-- Buckets that are no links were created, so their names are plain. -/
theorem Balanced.plain_of_home (balanced : before.Balanced created) {home : BucketRecord}
    (stands : before.Home volume name home) : Plain volume ∧ Plain name := by
  obtain ⟨first, member, sameVolume, sameName, -⟩ := balanced.made _ home stands.seen
  have plain := balanced.plain first member
  rwa [sameVolume, sameName, stands.volume, stands.name] at plain

/-- The key under a path into a home lies in that home. -/
theorem Balanced.inside (balanced : before.Balanced created) (sound : before.Sound)
    {home : BucketRecord} (stands : before.Home volume name home) {key : String}
    {record : KeyRecord} (seen : before.keyAt (keyPath volume name key) = some record) :
    record.volume = volume ∧ record.bucket = name := by
  obtain ⟨stored, -, holds⟩ := sound.stored_of_keyAt seen
  obtain ⟨own, standsOwn, -⟩ := balanced.keys _ record seen
  have plain := balanced.plain_of_home stands
  have plainOwn := balanced.plain_of_home standsOwn
  obtain ⟨sameVolume, sameName, -⟩ :=
    keyPath_inj plainOwn.1 plain.1 plainOwn.2 plain.2 holds.path.symm
  exact ⟨sameVolume, sameName⟩

/-- Dropping a key takes it out of its home. -/
theorem exchange_dropKey {path : String} {record : KeyRecord}
    (seen : before.keyAt path = some record)
    (inside : record.volume = volume ∧ record.bucket = name) :
    before.Exchange (before.dropKey path) volume name [record] [] (before.dropKey path) where
  buckets := rfl
  taken := keyList_perm_of_keyAt seen
  given := .refl _
  insideTaken key member := List.mem_singleton.1 member ▸ inside
  insideGiven key member := by cases member

end Records

end ObjectLedger
