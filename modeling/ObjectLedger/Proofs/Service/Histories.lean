import ObjectLedger.Proofs.Service.Generations
import ObjectLedger.Proofs.Service.Order

/-! # Histories grow at their end

A session carries a private copy of the whole history of its key, while other writers commit, delete
and create the key again. Its commit is carried out only over the very record that it copied
(`World.Renewal`), and writing that record back undoes the commit. In a bucket that keeps older
versions the history of a stored key therefore stays from one operation to the next or gets one
group at its end, and in any other bucket a key has one group, numbered 0
(`World.appends_of_counting`).
-/

namespace ObjectLedger

/-- A frame is read as a key, whenever it is read. -/
def Stored.Reads (stored : Stored) (key : KeyRecord) : Prop :=
  ∀ now, KeyRecord.ofPersisted stored.bytes now = .ok key

/-- One history is another, or follows it by one group. -/
def Grows (history next : List VersionGroup) : Prop :=
  next = history ∨ ∃ group, next = history ++ [group]

/-- A history that grows keeps what it had as its first part. -/
theorem Grows.isPrefix {history next : List VersionGroup} (grows : Grows history next) :
    history <+: next := by
  rcases grows with same | ⟨group, same⟩
  · exact same ▸ List.prefix_refl next
  · exact same ▸ List.prefix_append history [group]

namespace Records

variable {records before after : Records} {enforced : Prop} {created : List BucketRecord}

/-- Volumes and names of all buckets are plain. -/
def Plain (records : Records) : Prop :=
  ∀ path bucket, records.bucketAt path = some bucket →
    ObjectLedger.Plain bucket.volume ∧ ObjectLedger.Plain bucket.name

/-- The bucket that plain names lead to has plain names. -/
theorem Plain.home (plain : records.Plain) {volume name : String} {home : BucketRecord}
    (stands : records.Home volume name home) :
    ObjectLedger.Plain volume ∧ ObjectLedger.Plain name := by
  have both := plain _ home stands.seen
  rwa [stands.volume, stands.name] at both

/-- Every bucket after an operation was created by it, or was there under its name. -/
theorem Changes.bucket (changes : before.Changes enforced after created)
    (sound : before.Sound) {path : String} {bucket : BucketRecord}
    (seen : after.bucketAt path = some bucket) : bucket ∈ created ∨
      ∃ old, before.bucketAt path = some old ∧ old.volume = bucket.volume ∧
        old.name = bucket.name := by
  cases changes with
  | kept same =>
      rw [bucketAt_of_buckets same] at seen
      exact .inr ⟨bucket, seen, rfl, rfl⟩
  | created other frame wellFormed persisted free same =>
      rw [bucketAt_of_buckets same, bucketAt_putBucket wellFormed persisted] at seen
      split at seen
      · cases seen
        exact .inl List.mem_cons_self
      · exact .inr ⟨bucket, seen, rfl, rfl⟩
  | charged moves allowed same =>
      rw [bucketAt_of_buckets same] at seen
      obtain ⟨old, stood, volume, name, -⟩ := moves.bucket sound seen
      exact .inr ⟨old, stood, volume, name⟩

/-- A key that fits a store of plain names lies in the bucket that its path names. -/
theorem Plain.inside (plain : records.Plain) {key : KeyRecord} (fits : key.Fits records)
    {volume name keyName : String} {home : BucketRecord} (stands : records.Home volume name home)
    (path : keyPath volume name keyName = keyPath key.volume key.bucket key.name) :
    key.volume = volume ∧ key.bucket = name := by
  obtain ⟨own, lies⟩ := fits.home
  obtain ⟨plainVolume, plainName⟩ := plain.home stands
  obtain ⟨ownVolume, ownName⟩ := plain.home lies
  obtain ⟨volumes, names, -⟩ := keyPath_inj plainVolume ownVolume plainName ownName path
  exact ⟨volumes.symm, names.symm⟩

end Records

namespace World

variable {settings : Settings} {world before later : World} {operation : Operation}
  {outcome : Outcome} {operations : List Operation}

/-! ## What is read under a path -/

/-- What is read under a path after an operation: what was read before, or nothing, or what a commit
wrote over the key that its session found. -/
inductive Renewal (before later : World) (path : String) : Prop
  | kept (same : later.service.records.keyAt path = before.service.records.keyAt path)
  | removed (gone : later.service.records.keyAt path = none)
  | written {place : Nat} {session : Session} {written : KeyRecord} {group : VersionGroup}
      (opened : before.sessionAt place = some session) (here : path = session.path)
      (found : before.service.records.keyAt path = session.previous)
      (same : session.key.SamePlace written)
      (history : written.history = session.older ++ [group])
      (seen : later.service.records.keyAt path = some written.asStored)

/-- A step keeps a key, removes it, or writes that of a session over what the session found. -/
theorem Step.renewal (step : Step settings before operation outcome later) (path : String) :
    Renewal before later path := by
  have same : later.service.records.keys = before.service.records.keys →
      Renewal before later path := by
    intro keys
    exact .kept (by rw [Records.keyAt, Records.keyAt, keys])
  have wrote : ∀ {place : Nat} {session : Session} {written : KeyRecord} {frame : List UInt8}
      {options : CommitOptions} {reported committed leftOver : List Block} {service : Service},
      before.sessionAt place = some session →
      session.Commits reported options written committed leftOver →
      Action.KeyWritten before.service service session written frame →
      service.records.keyAt path = (before.service.records.putKey written frame).keyAt path →
      ∀ sessions, Renewal before ⟨service, sessions⟩ path := by
    intro place session written frame options reported committed leftOver service opened commits
      writes seen sessions
    obtain ⟨group, history, -⟩ := commits.history
    rw [Records.keyAt_putKey commits.wellFormed writes.persisted, commits.path] at seen
    split at seen
    · rename_i here
      exact .written opened here (here ▸ writes.found.keyAt) commits.place history seen
    · exact .kept seen
  have dropped : ∀ {dropped : String} {service : Service},
      service.records.keyAt path = (before.service.records.dropKey dropped).keyAt path →
      ∀ sessions, Renewal before ⟨service, sessions⟩ path := by
    intro dropped service seen sessions
    rw [Records.keyAt_dropKey] at seen
    split at seen
    · exact .removed seen
    · exact .kept seen
  cases step with
  | created _ _ _ _ _ leaves => exact same (by rw [leaves.records]; rfl)
  | opened _ _ _ _ leaves => exact same (congrArg Records.keys leaves.records)
  | allocated _ _ _ _ _ _ _ leaves => exact same (congrArg Records.keys leaves.records)
  | refused _ _ _ leaves => exact same (congrArg Records.keys leaves.records)
  | absent => exact .kept rfl
  | committed found effect =>
      cases effect with
      | untouched _ leaves => exact same (congrArg Records.keys leaves.records)
      | rejected _ leaves => exact same (congrArg Records.keys leaves.records)
      | kept commits writes _ _ leaves =>
          exact wrote found commits writes (by rw [leaves.records]) _
      | settled commits writes _ moves _ leaves =>
          exact wrote found commits writes (by rw [leaves.records, moves.keyAt_eq]) _
  | deleted effect =>
      cases effect with
      | untouched leaves => exact same (congrArg Records.keys leaves.records)
      | dropped _ _ _ leaves => exact dropped (by rw [leaves.records]) _
      | settled _ _ _ moves _ leaves => exact dropped (by rw [leaves.records, moves.keyAt_eq]) _

/-- The buckets that an operation creates have plain names. -/
theorem Step.plain_buckets (step : Step settings before operation outcome later)
    (plain : operation.Plain) :
    ∀ bucket ∈ outcome.buckets, Plain bucket.volume ∧ Plain bucket.name := by
  intro bucket member
  cases step with
  | created _ volume name =>
      obtain rfl := List.mem_singleton.1 member
      exact ⟨plain.1 _ volume, plain.2 _ name⟩
  | opened => cases member
  | allocated => cases member
  | refused => cases member
  | absent => cases member
  | @committed _ _ _ _ _ result => cases result <;> cases member
  | @deleted _ _ _ result => cases result <;> cases member

/-! ## Histories where older versions are kept, and where not -/

/-- Buckets have plain names, keys have one version where no older ones are kept, and sessions keep
older versions where their buckets do. -/
structure Layered (world : World) : Prop where
  sound : world.Sound
  ordered : world.Ordered
  plain : world.service.records.Plain
  single : ∀ path key home, world.service.records.keyAt path = some key →
    world.service.records.Home key.volume key.bucket home → home.versioning = false →
      ∃ group, key.history = [group]
  sessions : ∀ place session, world.sessionAt place = some session →
    session.LiesIn world.service.records

/-- A key under a path of a bucket lies in that bucket. -/
theorem Layered.inside (layered : world.Layered) {volume name keyName : String}
    {home : BucketRecord} (stands : world.service.records.Home volume name home) {key : KeyRecord}
    (seen : world.service.records.keyAt (keyPath volume name keyName) = some key) :
    key.volume = volume ∧ key.bucket = name := by
  obtain ⟨stored, -, holds⟩ := layered.sound.records.stored_of_keyAt seen
  exact layered.plain.inside (layered.ordered.ordered.fits _ key seen) stands holds.path

/-- Where older versions are kept, the history of a key that stays stored stays or grows. -/
theorem Renewal.grows {path : String} (renewal : Renewal before later path)
    (layered : before.Layered) {first second : KeyRecord}
    (seen : before.service.records.keyAt path = some first)
    (last : later.service.records.keyAt path = some second) {home : BucketRecord}
    (stands : before.service.records.Home first.volume first.bucket home)
    (keeps : home.versioning = true) : Grows first.history second.history := by
  cases renewal with
  | kept same =>
      cases seen.symm.trans (same.symm.trans last)
      exact .inl rfl
  | removed gone => cases gone.symm.trans last
  | @written place session written group opened here found same history wrote =>
      cases wrote.symm.trans last
      have previous := found.symm.trans seen
      obtain ⟨own, lies, versioning⟩ := layered.sessions place session opened
      have there := (layered.sound.sessions place session opened).1.place first previous
      rw [← there.volume, ← there.bucket] at lies
      obtain rfl := lies.unique stands
      -- What was read has no placement, so storing it again leaves its groups.
      obtain ⟨stored, -, holds⟩ := layered.sound.records.stored_of_keyAt seen
      have settled : first.history.map VersionGroup.withoutPipelines = first.history :=
        congrArg KeyRecord.history holds.settled
      refine .inr ⟨group.withoutPipelines, ?_⟩
      change written.history.map VersionGroup.withoutPipelines = _
      rw [history, Session.older_of_versioning previous (versioning.symm.trans keeps),
        List.map_append, settled]
      rfl

/-- An operation under plain names keeps a world layered, as long as the counter lasts. -/
theorem Layered.after (layered : world.Layered) (settings : Settings) (operation : Operation)
    (plain : operation.Plain) (counting : (world.after settings operation).Counting) :
    (world.after settings operation).Layered := by
  have sound := layered.sound.records
  have step := layered.sound.step settings operation
  have changes := (changes_perform sound.toBucketsSound settings operation).records
  have keeps := changes.keeps sound.toBucketsSound
  refine ⟨step.sound layered.sound counting, layered.ordered.after settings operation, ?_, ?_, ?_⟩
  · intro path bucket seen
    rcases changes.bucket sound seen with new | ⟨old, stood, volume, name⟩
    · exact step.plain_buckets plain bucket new
    · exact volume ▸ name ▸ layered.plain path old stood
  · intro path key home seen stands unversioned
    cases step.renewal path with
    | kept same =>
        rw [same] at seen
        obtain ⟨own, lies⟩ := (layered.ordered.ordered.fits path key seen).home
        obtain ⟨next, stays, versioning⟩ := keeps _ _ own lies
        obtain rfl := stays.unique stands
        exact layered.single path key own seen lies (versioning.symm.trans unversioned)
    | removed gone => cases gone.symm.trans seen
    | @written place session written group opened here found same history wrote =>
        cases wrote.symm.trans seen
        obtain ⟨own, lies, versioning⟩ := (layered.sessions place session opened).keeps keeps
        rw [same.volume, same.bucket] at lies
        obtain rfl := lies.unique stands
        refine ⟨group.withoutPipelines, ?_⟩
        change written.history.map VersionGroup.withoutPipelines = _
        rw [history, Session.older_of_unversioned (versioning.symm.trans unversioned)]
        rfl
  · intro place session found
    rcases step.sessionAt found with ⟨-, request, stands⟩ | ⟨old, there, continues⟩
    · exact (stands.liesIn fun _ _ there seen => layered.inside there seen).keeps keeps
    · exact continues.liesIn ((layered.sessions place old there).keeps keeps)

/-- An empty store without sessions has no history to keep. -/
theorem layered_start (allocator : Allocator) (clock : Clock) {outages : Outages}
    (faithful : outages.Faithful) : (start allocator clock outages).Layered where
  sound := sound_start allocator clock faithful
  ordered := ordered_start allocator clock faithful
  plain path bucket seen := by cases seen
  single path key home seen := by cases seen
  sessions place session found := by cases found

/-! ## Every moment of a run -/

/-- Every moment of a run under plain names is layered. -/
theorem Layered.moment (layered : world.Layered)
    (plain : ∀ operation ∈ operations, operation.Plain)
    (counting : ∀ count, (world.moment settings operations count).Counting) (count : Nat) :
    (world.moment settings operations count).Layered := by
  refine moment_induction Layered (Nat.zero_le count) layered fun count operation _ next here => ?_
  have later := counting (count + 1)
  rw [moment_succ_of_getElem? next] at later ⊢
  exact here.after settings operation (plain operation (List.mem_of_getElem? next)) later

section Run

variable (layered : ∀ count, (world.moment settings operations count).Layered)
include layered

/-- From one moment of a run to the next, what is read under a path is renewed or stays. -/
theorem renewal_moment (count : Nat) (path : String) :
    Renewal (world.moment settings operations count) (world.moment settings operations (count + 1))
      path := by
  cases next : operations[count]? with
  | none =>
      rw [moment_succ_of_none next]
      exact .kept rfl
  | some operation =>
      rw [moment_succ_of_getElem? next]
      exact ((layered count).sound.step settings operation).renewal path

/-- Buckets that are no links stay for the rest of a run. -/
theorem keeps_moment {earlier later : Nat} (order : earlier ≤ later) :
    (world.moment settings operations earlier).service.records.Keeps
      (world.moment settings operations later).service.records := by
  apply moment_induction (fun now =>
    (world.moment settings operations earlier).service.records.Keeps now.service.records) order
    (Records.Keeps.refl _)
  intro count operation _ next kept
  have sound := (layered count).sound.records.toBucketsSound
  rw [moment_succ_of_getElem? next]
  exact kept.trans ((changes_perform sound settings operation).records.keeps sound)

variable {volume bucket name : String} {home : BucketRecord}

/-- In a bucket with versions, the history of a key that stays grows by a group at most. -/
theorem grows_moment {count : Nat}
    (stands : (world.moment settings operations count).service.records.Home volume bucket home)
    (keeps : home.versioning = true) {first second : KeyRecord}
    (seen : (world.moment settings operations count).service.records.keyAt
      (keyPath volume bucket name) = some first)
    (later : (world.moment settings operations (count + 1)).service.records.keyAt
      (keyPath volume bucket name) = some second) : Grows first.history second.history := by
  obtain ⟨rfl, rfl⟩ := (layered count).inside stands seen
  exact (renewal_moment layered count _).grows (layered count) seen later stands keeps

/-- Where older versions are kept, the history of a key that stays stored is the beginning of every
later one. -/
theorem prefix_moment {earlier later : Nat} (order : earlier ≤ later)
    (stands : (world.moment settings operations earlier).service.records.Home volume bucket home)
    (keeps : home.versioning = true)
    (stays : ∀ count, earlier ≤ count → count ≤ later →
      ((world.moment settings operations count).service.records.keyAt
        (keyPath volume bucket name)).isSome) {first second : KeyRecord}
    (seen : (world.moment settings operations earlier).service.records.keyAt
      (keyPath volume bucket name) = some first)
    (last : (world.moment settings operations later).service.records.keyAt
      (keyPath volume bucket name) = some second) : first.history <+: second.history := by
  induction order generalizing second with
  | refl =>
      cases seen.symm.trans last
      exact List.prefix_refl _
  | @step count past ih =>
      obtain ⟨middle, there⟩ := Option.isSome_iff_exists.1 (stays count past (Nat.le_succ count))
      obtain ⟨next, remains, versioning⟩ := keeps_moment layered past _ _ home stands
      have grows := grows_moment layered remains (versioning.trans keeps) there last
      have before := ih (fun other least most => stays other least (Nat.le_succ_of_le most)) there
      exact before.trans grows.isPrefix

end Run

/-- The histories of stored keys over a run. -/
structure Appends (settings : Settings) (world : World) (operations : List Operation) : Prop where
  /-- Where older versions are kept, the history of a key that stays stored stays from one operation
  to the next, or gets one group at its end. -/
  grows : ∀ count volume bucket name home first second,
    (world.moment settings operations count).service.records.Home volume bucket home →
    home.versioning = true →
    (world.moment settings operations count).stored (keyPath volume bucket name) = some first →
    (world.moment settings operations (count + 1)).stored (keyPath volume bucket name) =
      some second →
    ∃ older newer, first.Reads older ∧ second.Reads newer ∧ Grows older.history newer.history
  /-- The history is the beginning of every later one, for as long as the key stays stored. -/
  lasts : ∀ earlier later volume bucket name home first second, earlier ≤ later →
    (world.moment settings operations earlier).service.records.Home volume bucket home →
    home.versioning = true →
    (∀ count, earlier ≤ count → count ≤ later →
      ((world.moment settings operations count).stored (keyPath volume bucket name)).isSome) →
    (world.moment settings operations earlier).stored (keyPath volume bucket name) = some first →
    (world.moment settings operations later).stored (keyPath volume bucket name) = some second →
    ∃ older newer, first.Reads older ∧ second.Reads newer ∧ older.history <+: newer.history
  /-- Where no older versions are kept, a key has one group, numbered 0. -/
  single : ∀ count volume bucket name home stored,
    (world.moment settings operations count).service.records.Home volume bucket home →
    home.versioning = false →
    (world.moment settings operations count).stored (keyPath volume bucket name) = some stored →
    ∃ key group, stored.Reads key ∧ key.history = [group] ∧ group.version = 0

/-- A stored frame is read as the key that is seen under its path. -/
theorem Layered.reads (layered : world.Layered) {path : String} {stored : Stored}
    (found : world.stored path = some stored) :
    ∃ key, stored.Reads key ∧ world.service.records.keyAt path = some key := by
  obtain ⟨key, seen, holds⟩ := layered.sound.records.holdsKey found
  exact ⟨key, holds.ofPersisted, seen⟩

/-- Whatever writers do and whatever is refused, committed versions are not touched again where
older versions are kept, and no older version is kept elsewhere. -/
theorem appends_of_counting (settings : Settings) (allocator : Allocator) (clock : Clock)
    {outages : Outages} (faithful : outages.Faithful) (operations : List Operation)
    (plain : ∀ operation ∈ operations, operation.Plain)
    (counting : (start allocator clock outages).Throughout settings Counting operations) :
    Appends settings (start allocator clock outages) operations := by
  have always := counting.moment (counting_start allocator clock outages)
  have layered := (layered_start allocator clock faithful).moment plain always
  constructor
  · intro count volume bucket name home first second stands keeps found later
    obtain ⟨older, reads, seen⟩ := (layered count).reads found
    obtain ⟨newer, readsLater, seenLater⟩ := (layered (count + 1)).reads later
    exact ⟨older, newer, reads, readsLater, grows_moment layered stands keeps seen seenLater⟩
  · intro earlier later volume bucket name home first second order stands keeps stays found last
    obtain ⟨older, reads, seen⟩ := (layered earlier).reads found
    obtain ⟨newer, readsLater, seenLater⟩ := (layered later).reads last
    refine ⟨older, newer, reads, readsLater,
      prefix_moment layered order stands keeps (fun count least most => ?_) seen seenLater⟩
    obtain ⟨stored, there⟩ := Option.isSome_iff_exists.1 (stays count least most)
    obtain ⟨key, -, seen⟩ := (layered count).reads there
    exact seen ▸ rfl
  · intro count volume bucket name home stored stands unversioned found
    obtain ⟨key, reads, seen⟩ := (layered count).reads found
    obtain ⟨rfl, rfl⟩ := (layered count).inside stands seen
    obtain ⟨group, history⟩ := (layered count).single _ key home seen stands unversioned
    have numbered := ((layered count).ordered.ordered.fits _ key seen).numbered
    rw [history] at numbered
    exact ⟨key, group, reads, history, UInt64.toNat_inj.1 (List.cons.inj numbered).1⟩

set_option maxRecDepth 20000 in
/-- The second commit appends a group to the history that the first one left. -/
theorem appends_linking :
    Outages.never.Faithful ∧ (∀ operation ∈ linking, operation.Plain) ∧
    calm.Throughout {} Counting linking ∧
    (∃ home ∈ (calm.moment {} linking 5).service.records.bucketAt (bucketPath "v" "b"),
      home.versioning = true) ∧
    (∃ older ∈ (calm.moment {} linking 5).service.records.keyAt (keyPath "v" "b" "k"),
      ∃ newer ∈ (calm.moment {} linking 6).service.records.keyAt (keyPath "v" "b" "k"),
        older.history.length = 1 ∧ newer.history.length = 2) ∧
    Appends {} calm linking := by
  have plain : ∀ operation ∈ linking, operation.Plain := by decide +kernel
  have runs : calm.Throughout {} Counting linking ∧
      (∃ home ∈ (calm.moment {} linking 5).service.records.bucketAt (bucketPath "v" "b"),
        home.versioning = true) ∧
      ∃ older ∈ (calm.moment {} linking 5).service.records.keyAt (keyPath "v" "b" "k"),
        ∃ newer ∈ (calm.moment {} linking 6).service.records.keyAt (keyPath "v" "b" "k"),
          older.history.length = 1 ∧ newer.history.length = 2 := by
    decide +kernel
  obtain ⟨counting, kept, versions⟩ := runs
  exact ⟨faithful_never, plain, counting, kept, versions,
    appends_of_counting {} _ _ faithful_never linking plain counting⟩

end World

end ObjectLedger
