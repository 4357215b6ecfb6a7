import Mathlib.Data.List.Basic
import ObjectLedger.Proofs.Service.Usage
import ObjectLedger.Proofs.Store.Versions

/-! # Usage of buckets that keep versions

A commit into a bucket that keeps versions adds the charge of its own version, and a deletion
takes the credit of the whole key (`Outcome.delta`). Since the credit is counted at once and under
the replication of the last version, a deletion may leave a residue: what the versions of its key
were charged, less the credit (`Tally`). The usage of a bucket is therefore what it was at
creation, what the versions of the stored keys were charged, and the residues
(`World.versionUsage_of_counting`). Uniform keys leave none, but a key whose replication was
changed does (`World.residue_of_mixing`).
-/

namespace ObjectLedger

/-- The path under which a key is stored. -/
def KeyRecord.storePath (key : KeyRecord) : String := keyPath key.volume key.bucket key.name

/-- The bytes by which an outcome moves the usage of a bucket that keeps versions. -/
def Outcome.delta (volume bucket : String) : Outcome → Int64
  | .keyCommitted commit =>
    if commit.key.volume = volume ∧ commit.key.bucket = bucket then commit.key.chargedBytes else 0
  | .keyDeleted key => if key.volume = volume ∧ key.bucket = bucket then -key.credit else 0
  | _ => 0

@[simp] theorem Outcome.delta_keyCommitted (volume bucket : String) (commit : Commit) :
    (keyCommitted commit).delta volume bucket =
      if commit.key.volume = volume ∧ commit.key.bucket = bucket then commit.key.chargedBytes
      else 0 := rfl

@[simp] theorem Outcome.delta_keyDeleted (volume bucket : String) (key : KeyRecord) :
    (keyDeleted key).delta volume bucket =
      if key.volume = volume ∧ key.bucket = bucket then -key.credit else 0 := rfl

/-- What the outcomes of a run tell about versions. -/
structure Tally where
  /-- The records that commits wrote under a path since a key there was last deleted. -/
  versions : String → List KeyRecord
  /-- What the deletions in a bucket left of the charges of their versions. -/
  residue : String → String → Int64
  /-- Every key deleted in a bucket was uniform. -/
  uniform : String → String → Bool

namespace Tally

/-- Nothing has happened. -/
def empty : Tally := ⟨fun _ => [], fun _ _ => 0, fun _ _ => true⟩

/-- One more outcome. -/
def step (tally : Tally) : Outcome → Tally
  | .keyCommitted commit =>
    { tally with
      versions := Function.update tally.versions commit.key.storePath
        (tally.versions commit.key.storePath ++ [commit.key]) }
  | .keyDeleted key =>
    let gone := tally.versions key.storePath
    { versions := Function.update tally.versions key.storePath []
      residue := fun volume bucket => tally.residue volume bucket +
        if key.volume = volume ∧ key.bucket = bucket then chargedFor gone - key.credit else 0
      uniform := fun volume bucket => tally.uniform volume bucket &&
        decide (key.volume = volume ∧ key.bucket = bucket → key.Uniform gone) }
  | _ => tally

/-- The outcomes of a run, from its start. -/
def of (outcomes : List Outcome) : Tally := outcomes.foldl step .empty

/-- A commit adds its key to the versions of its path. -/
theorem versions_committed (tally : Tally) (commit : Commit) (path : String) :
    (tally.step (.keyCommitted commit)).versions path =
      if path = commit.key.storePath then tally.versions path ++ [commit.key]
      else tally.versions path := by
  change Function.update _ _ _ path = _
  rw [Function.update_apply]
  split
  · rename_i here
    rw [here]
  · rfl

theorem versions_deleted (tally : Tally) (key : KeyRecord) (path : String) :
    (tally.step (.keyDeleted key)).versions path =
      if path = key.storePath then [] else tally.versions path :=
  Function.update_apply ..

/-- A deletion leaves what its versions were charged beyond what it takes back. -/
theorem residue_deleted (tally : Tally) (key : KeyRecord) (volume bucket : String) :
    (tally.step (.keyDeleted key)).residue volume bucket = tally.residue volume bucket +
      if key.volume = volume ∧ key.bucket = bucket
      then chargedFor (tally.versions key.storePath) - key.credit else 0 := rfl

/-- A bucket stays uniform if the versions of the deleted key were. -/
theorem uniform_deleted (tally : Tally) (key : KeyRecord) (volume bucket : String) :
    (tally.step (.keyDeleted key)).uniform volume bucket = true ↔
      tally.uniform volume bucket = true ∧ (key.volume = volume ∧ key.bucket = bucket →
        key.Uniform (tally.versions key.storePath)) := by
  change (_ && decide _) = true ↔ _
  rw [Bool.and_eq_true, decide_eq_true_iff]

/-- The key that is answered does not show its encryption, which does not count. -/
theorem step_deleted (tally : Tally) (key : KeyRecord) :
    tally.step (.keyDeleted { key with encryption := none }) = tally.step (.keyDeleted key) := by
  have uniform : ∀ versions, KeyRecord.Uniform { key with encryption := none } versions ↔
      key.Uniform versions :=
    fun versions => ⟨fun uniform => ⟨uniform.same, uniform.whole, uniform.unclamped⟩,
      fun uniform => ⟨uniform.same, uniform.whole, uniform.unclamped⟩⟩
  change Tally.mk _ _ _ = Tally.mk _ _ _
  congr 1
  funext volume bucket
  exact congrArg _ (decide_eq_decide.2 (imp_congr_right fun _ => uniform _))

/-- The tally goes on with the last outcome. -/
theorem of_append_singleton (outcomes : List Outcome) (outcome : Outcome) :
    of (outcomes ++ [outcome]) = (of outcomes).step outcome := by
  rw [of, List.foldl_append]
  rfl

end Tally

/-- The charges of listed versions, where some keys are exchanged and the others keep theirs. -/
theorem chargedFor_exchange {old new rest removed added : List KeyRecord}
    {before after : KeyRecord → List KeyRecord} (taken : old.Perm (removed ++ rest))
    (given : new.Perm (added ++ rest)) (same : ∀ key ∈ rest, after key = before key) :
    chargedFor (new.flatMap after) + chargedFor (removed.flatMap before) =
      chargedFor (old.flatMap before) + chargedFor (added.flatMap after) := by
  have first := chargedFor_perm (taken.flatMap_right before)
  have second := chargedFor_perm (given.flatMap_right after)
  rw [List.flatMap_append, chargedFor_append] at first second
  rw [List.flatMap_congr same] at second
  rw [first, second]
  grind

namespace Records

/-- A store whose buckets keep versions as tallied. -/
structure Tallied (created : List BucketRecord) (tally : Tally) (records : Records) : Prop where
  used : ∀ first ∈ created, first.source? = none → first.versioning = true → ∃ home,
    records.Home first.volume first.name home ∧ home.usedBytes = first.usedBytes +
      chargedFor ((records.keysOf first.volume first.name).flatMap
        fun key => tally.versions key.storePath) + tally.residue first.volume first.name
  comprises : ∀ path key, records.keyAt path = some key → ∀ home,
    records.Home key.volume key.bucket home → home.versioning = true →
      key.Comprises (tally.versions path)
  absent : ∀ path, records.keyAt path = none → tally.versions path = []
  unborn : ∀ volume bucket, (∀ first ∈ created, first.source? = none →
    ¬ (first.volume = volume ∧ first.name = bucket)) → tally.residue volume bucket = 0
  settled : ∀ first ∈ created, first.source? = none → first.versioning = true →
    tally.uniform first.volume first.name = true → tally.residue first.volume first.name = 0

variable {before after records : Records} {created : List BucketRecord} {tally : Tally}

theorem Tallied.empty : Records.empty.Tallied [] .empty where
  used first member := by cases member
  comprises path key seen := by cases seen
  absent path seen := rfl
  unborn volume bucket none := rfl
  settled first member := by cases member

/-- Keys that stay when a path is dropped are stored under other paths. -/
theorem Sound.storePath_ne (sound : before.Sound) {path : String} {key : KeyRecord}
    (member : key ∈ (before.dropKey path).keyList) : key.storePath ≠ path := by
  obtain ⟨other, seen⟩ := (mem_keyList_iff _ _).1 member
  rw [keyAt_dropKey] at seen
  split at seen
  · cases seen
  · rename_i apart
    obtain ⟨stored, -, holds⟩ := sound.stored_of_keyAt seen
    exact fun same => apart (holds.path.trans same)

/-- The usage of buckets that keep versions is moved by an outcome, which the tally follows. -/
def Carries (before : Records) (tally : Tally) (outcome : Outcome) (after : Records) : Prop :=
  ∀ ⦃volume name : String⦄ ⦃home : BucketRecord⦄, before.Home volume name home →
    ∃ next, after.Home volume name next ∧ next.versioning = home.versioning ∧
      (home.versioning = true → next.usedBytes = home.usedBytes + outcome.delta volume name ∧
        chargedFor ((after.keysOf volume name).flatMap
            fun key => (tally.step outcome).versions key.storePath) +
          (tally.step outcome).residue volume name =
        chargedFor ((before.keysOf volume name).flatMap
            fun key => tally.versions key.storePath) +
          tally.residue volume name + outcome.delta volume name)

/-- Homes after an outcome were homes before, with the same versioning. -/
theorem Carries.versioning {outcome : Outcome} (carries : before.Carries tally outcome after)
    {volume name : String} {home next : BucketRecord} (stands : before.Home volume name home)
    (stays : after.Home volume name next) : next.versioning = home.versioning := by
  obtain ⟨other, there, same, -⟩ := carries stands
  exact there.unique stays ▸ same

/-- Where neither buckets nor keys change, an outcome that does not count carries the tally on. -/
theorem carries_of_same {outcome : Outcome} (quiet : tally.step outcome = tally)
    (still : ∀ volume name, outcome.delta volume name = 0) (keys : after.keys = before.keys)
    (homes : ∀ {volume name home}, before.Home volume name home → after.Home volume name home) :
    before.Carries tally outcome after := by
  intro volume name home stands
  refine ⟨home, homes stands, rfl, fun _ => ?_⟩
  rw [quiet, still, Int64.add_zero, Int64.add_zero, keysOf, keysOf, keyList, keyList, keys]
  exact ⟨rfl, rfl⟩

/-- The usage of a bucket stays tallied. -/
theorem Tallied.used_of_carries (tallied : before.Tallied created tally)
    (balanced : before.Balanced created) {outcome : Outcome}
    (carries : before.Carries tally outcome after) {first : BucketRecord}
    (member : first ∈ created) (source : first.source? = none)
    (keeps : first.versioning = true) : ∃ home, after.Home first.volume first.name home ∧
      home.usedBytes = first.usedBytes +
        chargedFor ((after.keysOf first.volume first.name).flatMap
          fun key => (tally.step outcome).versions key.storePath) +
        (tally.step outcome).residue first.volume first.name := by
  obtain ⟨home, stands, used⟩ := tallied.used first member source keeps
  obtain ⟨own, standsOwn, same, -⟩ := balanced.accounts first member source
  obtain ⟨next, stays, -, moved⟩ := carries stands
  obtain rfl := standsOwn.unique stands
  obtain ⟨bytes, charged⟩ := moved (same.trans keeps)
  exact ⟨next, stays, by grind⟩

/-- A key that stays comprises its versions as before. -/
theorem Tallied.comprises_of_carries (tallied : before.Tallied created tally)
    (balanced : before.Balanced created) {outcome : Outcome}
    (carries : before.Carries tally outcome after) {path : String} {key : KeyRecord}
    (seen : before.keyAt path = some key) {home : BucketRecord}
    (stays : after.Home key.volume key.bucket home) (keeps : home.versioning = true) :
    key.Comprises (tally.versions path) := by
  obtain ⟨own, stands, -⟩ := balanced.keys path key seen
  exact tallied.comprises path key seen own stands
    ((carries.versioning stands stays).symm.trans keeps)

end Records

/-! ## Commits -/

namespace Session

variable {session : Session} {reported committed leftOver : List Block} {options : CommitOptions}
  {written : KeyRecord}

/-- A commit into a bucket that keeps versions is charged for its own version. -/
theorem Charged.eq_of_versioning {bytes : Int64} (keeps : session.versioning = true)
    (commits : session.Commits reported options written committed leftOver)
    (charged : session.Charged written committed bytes) : bytes = written.chargedBytes := by
  obtain ⟨added, freed, addedCharge, freedCharge, rfl⟩ := charged
  obtain ⟨group, history, rfl⟩ := commits.history
  have none : session.replaced = [] := by
    unfold replaced
    cases session.previous with
    | none => rfl
    | some old => exact if_pos keeps
  rw [none, Replication.charge_nil] at freedCharge
  cases freedCharge
  unfold KeyRecord.chargedBytes
  rw [KeyRecord.latestBlocks_of_history history, addedCharge]
  exact Int64.sub_zero _

variable {before : Records} {created : List BucketRecord} {tally : Tally}

/-- The versions under the path of a session are those of the key that it found, if any. -/
theorem FoundIn.versions (found : session.FoundIn before) (prepared : session.Sound)
    (tallied : before.Tallied created tally) : session.previous.toList.flatMap
      (fun key => tally.versions key.storePath) = tally.versions session.path := by
  cases previous : session.previous with
  | none => exact (tallied.absent _ (found.keyAt.trans previous)).symm
  | some old =>
      rw [Option.toList_some, List.flatMap_singleton, KeyRecord.storePath,
        (prepared.place old previous).path]
      rfl

/-- A session keeps the versions under its path, if its bucket does. -/
theorem FoundIn.lengths_older (found : session.FoundIn before) (prepared : session.Sound)
    (tallied : before.Tallied created tally) {home : BucketRecord}
    (stands : before.Home session.key.volume session.key.bucket home)
    (versioning : home.versioning = session.versioning) (keeps : session.versioning = true) :
    session.older.map (·.blocks.map (·.length)) =
      (tally.versions session.path).map (·.latestBlocks.map (·.length)) := by
  unfold older
  cases previous : session.previous with
  | none =>
      rw [tallied.absent _ (found.keyAt.trans previous)]
      rfl
  | some old =>
      have place := prepared.place old previous
      dsimp only
      rw [if_pos keeps]
      exact (tallied.comprises _ old (found.keyAt.trans previous) home
        (place.volume ▸ place.bucket ▸ stands) (versioning.trans keeps)).lengths

end Session

namespace Records

variable {before after records : Records} {created : List BucketRecord} {tally : Tally}

/-- A commit that is charged carries the tally on. -/
theorem Tallied.carries_commit (tallied : before.Tallied created tally) (sound : before.Sound)
    {session : Session} (prepared : session.Sound) {home : BucketRecord}
    (stands : before.Home session.key.volume session.key.bucket home)
    (versioning : home.versioning = session.versioning) (found : session.FoundIn before)
    {options : CommitOptions} {reported leftOver : List Block} {commit : Commit}
    {committed : List Block}
    (commits : session.Commits reported options commit.key committed leftOver)
    {frame : List UInt8} (persisted : commit.key.persist = .ok frame) {bytes : Int64}
    (charged : session.Charged commit.key committed bytes)
    (moves : (before.putKey commit.key frame).Moves session.key.volume session.key.bucket bytes
      session.addedKeys after) : before.Carries tally (.keyCommitted commit) after := by
  intro volume name own here
  have path : commit.key.storePath = session.path := commits.path
  obtain ⟨next, stays, same, -, usedBytes, taken, given⟩ := moves.exchanged
    (sound.putKey commits.wellFormed persisted) (found.exchange prepared commits persisted) stands
    here
  refine ⟨next, stays, same, fun keeps => ?_⟩
  have others : ∀ key ∈ (before.dropKey session.path).keysOf volume name,
      (tally.step (.keyCommitted commit)).versions key.storePath =
        tally.versions key.storePath := by
    intro key member
    rw [Tally.versions_committed, if_neg (path ▸ sound.storePath_ne (List.mem_filter.1 member).1)]
  have exchanged := chargedFor_exchange taken given others
  change _ ∧ _ + tally.residue volume name = _
  rw [Outcome.delta_keyCommitted, ← commits.place.volume, ← commits.place.bucket, usedBytes]
  by_cases inside : session.key.volume = volume ∧ session.key.bucket = name
  · simp only [if_pos inside, List.flatMap_singleton] at exchanged ⊢
    obtain ⟨rfl, rfl⟩ := inside
    have asked : session.versioning = true := by rw [← versioning, stands.unique here, keeps]
    have stored : commit.key.asStored.storePath = session.path := path
    rw [found.versions prepared tallied, stored, Tally.versions_committed, if_pos path.symm,
      chargedFor_append, chargedFor_cons, chargedFor_nil] at exchanged
    refine ⟨by rw [charged.eq_of_versioning asked commits], ?_⟩
    grind
  · simp only [if_neg inside, List.flatMap_nil] at exchanged ⊢
    refine ⟨trivial, ?_⟩
    grind

/-- A commit that is charged keeps a store tallied. -/
theorem Tallied.commit (tallied : before.Tallied created tally)
    (balanced : before.Balanced created) {session : Session} (prepared : session.Sound)
    {home : BucketRecord} (stands : before.Home session.key.volume session.key.bucket home)
    (versioning : home.versioning = session.versioning) (found : session.FoundIn before)
    {options : CommitOptions} {reported leftOver committed : List Block} {commit : Commit}
    (commits : session.Commits reported options commit.key committed leftOver)
    {frame : List UInt8} (persisted : commit.key.persist = .ok frame)
    (keys : after.keys = (before.putKey commit.key frame).keys)
    (carries : before.Carries tally (.keyCommitted commit) after) :
    after.Tallied created (tally.step (.keyCommitted commit)) := by
  have path : commit.key.storePath = session.path := commits.path
  have seen : ∀ other, after.keyAt other =
      if other = commit.key.storePath then some commit.key.asStored else before.keyAt other := by
    intro other
    rw [keyAt, keys, ← keyAt, keyAt_putKey commits.wellFormed persisted]
    rfl
  refine ⟨fun first member source keeps =>
      tallied.used_of_carries balanced carries member source keeps, ?_, ?_, tallied.unborn,
    tallied.settled⟩
  · intro other key there own stays keeps
    rw [seen] at there
    rw [Tally.versions_committed]
    split at there
    · rename_i here
      cases there
      rw [if_pos here, here, path]
      obtain ⟨group, history, -⟩ := commits.history
      have mine : after.Home session.key.volume session.key.bucket own := by
        rw [commits.place.volume, commits.place.bucket]
        exact stays
      have asked : session.versioning = true :=
        versioning.symm.trans ((carries.versioning stands mine).symm.trans keeps)
      exact KeyRecord.comprises_asStored history
        (found.lengths_older prepared tallied stands versioning asked)
    · rename_i apart
      rw [if_neg apart]
      exact tallied.comprises_of_carries balanced carries there stays keeps
  · intro other none
    rw [seen] at none
    rw [Tally.versions_committed]
    split at none
    · cases none
    · rename_i apart
      rw [if_neg apart]
      exact tallied.absent other none

/-! ## Deletions -/

/-- A deletion that is charged carries the tally on. -/
theorem Sound.carries_delete (sound : before.Sound) (tally : Tally)
    {home : BucketRecord} (stands : before.Home home.volume home.name home) {key : KeyRecord}
    (seen : before.keyAt key.storePath = some key)
    (inside : key.volume = home.volume ∧ key.bucket = home.name)
    (moves : (before.dropKey key.storePath).Moves home.volume home.name (-key.credit) (-1) after) :
    before.Carries tally (.keyDeleted key) after := by
  intro volume name own here
  obtain ⟨next, stays, same, -, usedBytes, taken, given⟩ :=
    moves.exchanged (sound.dropKey _) (exchange_dropKey seen inside) stands here
  refine ⟨next, stays, same, fun keeps => ?_⟩
  have others : ∀ other ∈ (before.dropKey key.storePath).keysOf volume name,
      (tally.step (.keyDeleted key)).versions other.storePath =
        tally.versions other.storePath := by
    intro other member
    rw [Tally.versions_deleted, if_neg (sound.storePath_ne (List.mem_filter.1 member).1)]
  have exchanged := chargedFor_exchange taken given others
  rw [Outcome.delta_keyDeleted, Tally.residue_deleted, inside.1, inside.2, usedBytes]
  by_cases inside : home.volume = volume ∧ home.name = name
  · simp only [if_pos inside, List.flatMap_singleton, List.flatMap_nil, chargedFor_nil]
      at exchanged ⊢
    refine ⟨trivial, ?_⟩
    grind
  · simp only [if_neg inside, List.flatMap_nil] at exchanged ⊢
    refine ⟨trivial, ?_⟩
    grind

/-- A deletion that is charged keeps a store tallied. -/
theorem Tallied.delete (tallied : before.Tallied created tally)
    (balanced : before.Balanced created) {key : KeyRecord}
    (seen : before.keyAt key.storePath = some key) {freed : Int64}
    (charge : key.replication.charge key.allBlocks = .ok freed)
    (keys : after.keys = (before.dropKey key.storePath).keys)
    (carries : before.Carries tally (.keyDeleted key) after) :
    after.Tallied created (tally.step (.keyDeleted key)) := by
  have left : ∀ other, after.keyAt other =
      if other = key.storePath then none else before.keyAt other := by
    intro other
    rw [keyAt, keys, ← keyAt, keyAt_dropKey]
  obtain ⟨home, stands, -⟩ := balanced.keys _ key seen
  refine ⟨fun first member source keeps =>
      tallied.used_of_carries balanced carries member source keeps, ?_, ?_, ?_, ?_⟩
  · intro other record there own stays keeps
    rw [left] at there
    rw [Tally.versions_deleted]
    split at there
    · cases there
    · rename_i apart
      rw [if_neg apart]
      exact tallied.comprises_of_carries balanced carries there stays keeps
  · intro other none
    rw [left] at none
    rw [Tally.versions_deleted]
    split at none
    · rename_i here
      rw [if_pos here]
    · rename_i apart
      rw [if_neg apart]
      exact tallied.absent other none
  · intro volume bucket none
    obtain ⟨first, member, sameVolume, sameName, source⟩ := balanced.made _ home stands.seen
    have away := none first member (source.trans stands.source)
    rw [sameVolume, sameName, stands.volume, stands.name] at away
    rw [Tally.residue_deleted, if_neg away, tallied.unborn volume bucket none]
    rfl
  · intro first member source keeps uniform
    obtain ⟨before, gone⟩ := (Tally.uniform_deleted ..).1 uniform
    rw [Tally.residue_deleted, tallied.settled first member source keeps before]
    split
    · rename_i inside
      obtain ⟨own, standsOwn, same, -⟩ := balanced.accounts first member source
      rw [← inside.1, ← inside.2] at standsOwn
      have comprises := tallied.comprises _ key seen own standsOwn (same.trans keeps)
      rw [comprises.credit_eq (gone inside) charge]
      grind
    · rfl

/-- A new bucket keeps a store tallied. -/
theorem Tallied.putBucket (tallied : before.Tallied created tally)
    (balanced : before.Balanced created) {bucket : BucketRecord} (wellFormed : bucket.WellFormed)
    {frame : List UInt8} (persisted : bucket.persist = .ok frame)
    (free : before.buckets.get? (bucketPath bucket.volume bucket.name) = none) :
    (before.putBucket bucket frame).Tallied (created ++ [bucket]) tally := by
  have fresh : ∀ first ∈ created, first.source? = none →
      ¬ (first.volume = bucket.volume ∧ first.name = bucket.name) := by
    rintro first member source ⟨sameVolume, sameName⟩
    obtain ⟨home, stands, -⟩ := balanced.accounts first member source
    have there := stands.seen
    rw [sameVolume, sameName, bucketAt_of_free free] at there
    cases there
  refine ⟨?_, ?_, tallied.absent, ?_, ?_⟩
  · intro first member source keeps
    rcases List.mem_append.1 member with old | new
    · obtain ⟨home, stands, used⟩ := tallied.used first old source keeps
      exact ⟨home, stands.putBucket wellFormed persisted free, used⟩
    · obtain rfl := List.mem_singleton.1 new
      refine ⟨first, home_putBucket wellFormed persisted source, ?_⟩
      change _ = _ + chargedFor ((before.keysOf first.volume first.name).flatMap _) + _
      rw [balanced.keysOf_of_free free, tallied.unborn _ _ fresh, List.flatMap_nil, chargedFor_nil,
        Int64.add_zero, Int64.add_zero]
  · intro path key seen home stays keeps
    obtain ⟨own, stands, -⟩ := balanced.keys path key seen
    obtain rfl := (stands.putBucket wellFormed persisted free).unique stays
    exact tallied.comprises path key seen own stands keeps
  · intro volume name none
    exact tallied.unborn volume name
      fun first member => none first (List.mem_append_left _ member)
  · intro first member source keeps uniform
    rcases List.mem_append.1 member with old | new
    · exact tallied.settled first old source keeps uniform
    · obtain rfl := List.mem_singleton.1 new
      exact tallied.unborn _ _ fresh

end Records

namespace World

variable {settings : Settings} {before after world : World} {operation : Operation}
  {outcome : Outcome} {created : List BucketRecord} {tally : Tally} {operations : List Operation}

/-- What an operation does to a tallied store, if nothing is refused. -/
theorem Step.tallied (step : Step settings before operation outcome after)
    (sound : before.Sound) (balanced : before.Balanced created)
    (silent : before.service.outages.Silent) (exact : outcome.overflows = false)
    (tallied : before.service.records.Tallied created tally) :
    after.service.records.Tallied (created ++ outcome.buckets) (tally.step outcome) ∧
      before.service.records.Carries tally outcome after.service.records := by
  have same : after.service.records = before.service.records → outcome.buckets = [] →
      tally.step outcome = tally → (∀ volume name, outcome.delta volume name = 0) →
      after.service.records.Tallied (created ++ outcome.buckets) (tally.step outcome) ∧
        before.service.records.Carries tally outcome after.service.records := by
    intro records none quiet still
    refine ⟨?_, Records.carries_of_same quiet still (by rw [records])
      fun stands => records.symm ▸ stands⟩
    rw [records, none, quiet, List.append_nil]
    exact tallied
  cases step with
  | opened _ _ _ _ leaves => exact same leaves.records rfl rfl fun _ _ => rfl
  | allocated _ _ _ _ _ _ _ leaves => exact same leaves.records rfl rfl fun _ _ => rfl
  | refused _ _ _ leaves => exact same leaves.records rfl rfl fun _ _ => rfl
  | absent => exact same rfl rfl rfl fun _ _ => rfl
  | created wellFormed _ _ persisted free leaves =>
      rw [leaves.records]
      refine ⟨tallied.putBucket balanced.records wellFormed persisted free,
        Records.carries_of_same rfl (fun _ _ => rfl) ?_ ?_⟩
      · rfl
      · exact fun stands => stands.putBucket wellFormed persisted free
  | @committed _ _ _ _ session result service found effect =>
      cases effect with
      | untouched _ leaves => exact same leaves.records rfl rfl fun _ _ => rfl
      | rejected _ leaves => exact same leaves.records rfl rfl fun _ _ => rfl
      | @kept fault _ _ _ _ _ _ _ _ reason =>
          cases fault with
          | error cause =>
              exact (Service.undoes_of_sparesStore silent.sparesStore _ _ (reason cause rfl)).elim
          | overflow cause => cases exact
      | @settled _ _ written _ _ _ _ _ _ commits writes charged moves released leaves =>
          obtain ⟨prepared, -⟩ := sound.sessions _ session found
          obtain ⟨home, stands, versioning⟩ := balanced.sessions _ session found
          rcases released with ⟨⟨reconciled, -, done⟩, -⟩ | ⟨-, -, refused⟩
          · obtain ⟨commit, rfl, rfl⟩ : ∃ commit : Commit,
                written = commit.key ∧ result = .ok commit := ⟨⟨written, reconciled, _⟩, rfl, done⟩
            have carries := tallied.carries_commit sound.records prepared stands versioning
              writes.found commits writes.persisted charged moves
            rw [leaves.records]
            change Records.Tallied (created ++ []) _ _ ∧ _
            rw [List.append_nil]
            exact ⟨tallied.commit balanced.records prepared stands versioning writes.found commits
              writes.persisted moves.keys_eq carries, carries⟩
          · exact (silent _ _ refused.1).elim
  | @deleted _ _ name result service effect =>
      cases effect with
      | untouched leaves => exact same leaves.records rfl rfl fun _ _ => rfl
      | @dropped fault _ _ _ _ _ reason =>
          cases fault with
          | error cause => exact ((reason cause rfl).not_sparesStore silent.sparesStore).elim
          | overflow cause => cases exact
      | @settled _ _ home record freed _ _ stands seen charge moves released leaves =>
          rcases released with ⟨rfl, -⟩ | ⟨-, -, refused⟩
          · obtain ⟨stored, -, holds⟩ := sound.records.stored_of_keyAt seen
            have inside := balanced.records.inside sound.records stands seen
            have credited : record.credit = freed := by
              unfold KeyRecord.credit
              rw [charge]
            rw [holds.path] at seen moves
            rw [← credited] at moves
            have carries := sound.records.carries_delete tally stands seen inside moves
            have stays := tallied.delete balanced.records seen charge moves.keys_eq carries
            rw [leaves.records]
            change Records.Tallied (created ++ []) (tally.step (.keyDeleted _)) _ ∧
              Records.Carries _ tally (.keyDeleted _) _
            rw [List.append_nil, tally.step_deleted]
            refine ⟨stays, fun volume name home there => ?_⟩
            rw [tally.step_deleted]
            exact carries there
          · exact (silent _ _ refused.1).elim

/-- A deletion that succeeds answers the key that stood under its path, without its encryption. -/
theorem Step.of_keyDeleted (step : Step settings before operation outcome after)
    (sound : before.Sound) {key : KeyRecord} (deleted : outcome = .keyDeleted key) :
    ∃ record, before.service.records.keyAt key.storePath = some record ∧
      key = { record with encryption := none } ∧
        key.replication.charge key.allBlocks = .ok key.credit := by
  cases step with
  | created => cases deleted
  | opened => cases deleted
  | allocated => cases deleted
  | refused => cases deleted
  | absent => cases deleted
  | @committed _ _ _ _ _ result => cases result <;> cases deleted
  | @deleted _ _ name result service effect =>
      cases effect with
      | untouched => cases deleted
      | dropped => cases deleted
      | @settled _ _ home record freed _ _ stands seen charge moves released leaves =>
          rcases released with ⟨rfl, -⟩ | ⟨⟨fault, rfl⟩, -⟩
          · cases deleted
            obtain ⟨stored, -, holds⟩ := sound.records.stored_of_keyAt seen
            rw [holds.path] at seen
            refine ⟨record, seen, rfl, ?_⟩
            change record.replication.charge record.allBlocks = .ok record.credit
            unfold KeyRecord.credit
            rw [charge]
          · cases deleted

/-- The store is tallied at every moment of a run without overflows, if nothing is refused. -/
theorem Balanced.tallied_moment (balanced : world.Balanced []) (sound : world.Sound)
    (counting : ∀ count, (world.moment settings operations count).Counting)
    (silent : world.service.outages.Silent) (plain : ∀ operation ∈ operations, operation.Plain)
    (exact : ∀ outcome ∈ world.outcomes settings operations, outcome.overflows = false)
    (tallied : world.service.records.Tallied [] .empty) (count : Nat) :
    (world.moment settings operations count).service.outages.Silent ∧
      (world.moment settings operations count).Balanced
        ((world.outcomes settings (operations.take count)).flatMap Outcome.buckets) ∧
      (world.moment settings operations count).service.records.Tallied
        ((world.outcomes settings (operations.take count)).flatMap Outcome.buckets)
        (.of (world.outcomes settings (operations.take count))) := by
  have silentAt := sound.silent_moment counting silent
  have balancedAt : ∀ count, (world.moment settings operations count).Balanced
      ((world.outcomes settings (operations.take count)).flatMap Outcome.buckets) :=
    balanced.moment sound counting silent.sparesStore plain exact
  refine ⟨silentAt count, balancedAt count, ?_⟩
  induction count with
  | zero => exact tallied
  | succ count ih =>
      cases next : operations[count]? with
      | none =>
          rw [moment_succ_of_none next, List.take_add_one, next, Option.toList_none,
            List.append_nil]
          exact ih
      | some operation =>
          rw [outcomes_take_succ next, List.flatMap_append, List.flatMap_singleton,
            Tally.of_append_singleton]
          exact ((sound.stepAt counting next).tallied (sound.moment counting count)
            (balancedAt count) (silentAt count) (exact _ (mem_outcomes next)) ih).1

/-- The usage of buckets that keep versions after the outcomes of a run. -/
structure VersionUsage (past : List Outcome) (now : World) : Prop where
  /-- It is what it was at creation, what the versions of the stored keys were charged one by one,
  and what deletions left of such charges. -/
  used : ∀ first ∈ past.flatMap Outcome.buckets, first.source? = none → first.versioning = true →
    ∃ home, now.service.records.Home first.volume first.name home ∧
      home.usedBytes = first.usedBytes +
        chargedFor ((now.service.records.keysOf first.volume first.name).flatMap
          fun key => (Tally.of past).versions key.storePath) +
        (Tally.of past).residue first.volume first.name
  /-- It is what it was at creation where all keys were deleted and were uniform. -/
  restored : ∀ first ∈ past.flatMap Outcome.buckets, first.source? = none →
    first.versioning = true → (Tally.of past).uniform first.volume first.name = true →
      now.service.records.keysOf first.volume first.name = [] →
        ∃ home, now.service.records.Home first.volume first.name home ∧
          home.usedBytes = first.usedBytes

/-- How an outcome moves the usage of buckets that keep versions. -/
structure VersionMove (past : List Outcome) (now : World) (outcome : Outcome) (next : World) :
    Prop where
  /-- A commit adds the charge of its version, and a deletion takes the credit of its key. -/
  moved : ∀ volume name home, now.service.records.Home volume name home →
    home.versioning = true → ∃ other, next.service.records.Home volume name other ∧
      other.usedBytes = home.usedBytes + outcome.delta volume name
  /-- The credit of a deleted key is counted at once for all its versions, which are those that
  were committed since a key under its path was last deleted, under the replication of the last. -/
  credited : ∀ key, outcome = .keyDeleted key → ∀ home,
    now.service.records.Home key.volume key.bucket home → home.versioning = true →
      key.Comprises ((Tally.of past).versions key.storePath) ∧
        key.replication.charge key.allBlocks = .ok key.credit
  /-- The deletion of a uniform key takes exactly what the commits of its versions added. -/
  lowered : ∀ key, outcome = .keyDeleted key →
    key.Uniform ((Tally.of past).versions key.storePath) → ∀ home,
      now.service.records.Home key.volume key.bucket home → home.versioning = true →
        ∃ other, next.service.records.Home key.volume key.bucket other ∧
          other.usedBytes =
            home.usedBytes - chargedFor ((Tally.of past).versions key.storePath)

/-- A tallied store is used as its tally says. -/
theorem versionUsage_of_tallied {past : List Outcome}
    (tallied : world.service.records.Tallied (past.flatMap Outcome.buckets) (.of past)) :
    VersionUsage past world where
  used := tallied.used
  restored first member source keeps uniform none := by
    obtain ⟨home, stands, used⟩ := tallied.used first member source keeps
    rw [none, tallied.settled first member source keeps uniform, List.flatMap_nil, chargedFor_nil,
      Int64.add_zero, Int64.add_zero] at used
    exact ⟨home, stands, used⟩

/-- An operation on a tallied store moves its usage as its outcome says. -/
theorem Step.versionMove (step : Step settings before operation outcome after)
    (sound : before.Sound) (balanced : before.Balanced created)
    (silent : before.service.outages.Silent) (exact : outcome.overflows = false)
    {past : List Outcome} (tallied : before.service.records.Tallied created (.of past)) :
    VersionMove past before outcome after := by
  have carries := (step.tallied sound balanced silent exact tallied).2
  have credited : ∀ key, outcome = .keyDeleted key → ∀ home,
      before.service.records.Home key.volume key.bucket home → home.versioning = true →
        key.Comprises ((Tally.of past).versions key.storePath) ∧
          key.replication.charge key.allBlocks = .ok key.credit := by
    intro key deleted home stands keeps
    obtain ⟨record, seen, rfl, charge⟩ := step.of_keyDeleted sound deleted
    obtain ⟨lengths, replication⟩ := tallied.comprises _ record seen home stands keeps
    exact ⟨⟨lengths, replication⟩, charge⟩
  refine ⟨fun volume name home stands keeps => ?_, credited,
    fun key deleted uniform home stands keeps => ?_⟩
  · obtain ⟨other, stays, -, moved⟩ := carries stands
    exact ⟨other, stays, (moved keeps).1⟩
  · obtain ⟨comprises, charge⟩ := credited key deleted home stands keeps
    obtain ⟨other, stays, -, moved⟩ := carries stands
    refine ⟨other, stays, ?_⟩
    rw [(moved keeps).1, deleted, Outcome.delta_keyDeleted, if_pos ⟨rfl, rfl⟩,
      comprises.credit_eq uniform charge, Int64.sub_eq_add_neg]

/-- At every moment of every run of which nothing is refused and nothing overflows, buckets that
keep versions are used as their tally says, and the next outcome moves their usage accordingly. -/
theorem versionUsage_of_counting (settings : Settings) (allocator : Allocator) (clock : Clock)
    (operations : List Operation) (plain : ∀ operation ∈ operations, operation.Plain)
    (counting : (start allocator clock .never).Throughout settings Counting operations)
    (exact : ∀ outcome ∈ (start allocator clock .never).outcomes settings operations,
      outcome.overflows = false) (count : Nat) :
    VersionUsage ((start allocator clock .never).outcomes settings (operations.take count))
      ((start allocator clock .never).moment settings operations count) ∧
    ∀ operation, operations[count]? = some operation →
      VersionMove ((start allocator clock .never).outcomes settings (operations.take count))
        ((start allocator clock .never).moment settings operations count)
        (((start allocator clock .never).moment settings operations count).perform settings
          operation).1
        ((start allocator clock .never).moment settings operations (count + 1)) := by
  have sound := sound_start allocator clock faithful_never
  have always := counting.moment (counting_start allocator clock .never)
  obtain ⟨silent, balanced, tallied⟩ := (balanced_start allocator clock .never).tallied_moment sound
    always Outages.silent_never plain exact .empty count
  exact ⟨versionUsage_of_tallied tallied, fun operation next =>
    (sound.stepAt always next).versionMove (sound.moment always count) balanced silent
      (exact _ (mem_outcomes next)) tallied⟩

/-- A key with two versions of five bytes is deleted. -/
def rewriting (first second : Replication) : List Operation :=
  let request : OpenRequest := { volume := "v", bucket := "b", key := "k" }
  [.createBucket
      { volume := some "v", name := some "b", medium := some .disk, versioning := true },
    .openKey { request with replication := some first },
    .commitKey 0 [{ Block.bare ⟨1, 1⟩ with length := 5 }] 5 {},
    .openKey { request with replication := some second },
    .commitKey 1 [{ Block.bare ⟨1, 2⟩ with length := 5 }] 5 {}, .deleteKey "v" "b" "k"]

/-- The usage of the bucket that is written into, at a moment. -/
def usageAt (first second : Replication) (count : Nat) : Option Int64 :=
  ((calm.moment {} (rewriting first second) count).service.records.bucketAt
    (bucketPath "v" "b")).map (·.usedBytes)

set_option maxRecDepth 20000 in
/-- Two versions with the same copies are taken back in full. -/
theorem versionUsage_rewriting :
    (∀ operation ∈ rewriting (.ratis 3) (.ratis 3), operation.Plain) ∧
    calm.Throughout {} Counting (rewriting (.ratis 3) (.ratis 3)) ∧
    (∀ outcome ∈ calm.outcomes {} (rewriting (.ratis 3) (.ratis 3)),
      outcome.overflows = false) ∧
    usageAt (.ratis 3) (.ratis 3) 5 = some 30 ∧ usageAt (.ratis 3) (.ratis 3) 6 = some 0 ∧
    ∀ count, VersionUsage (calm.outcomes {} ((rewriting (.ratis 3) (.ratis 3)).take count))
      (calm.moment {} (rewriting (.ratis 3) (.ratis 3)) count) := by
  have plain : ∀ operation ∈ rewriting (.ratis 3) (.ratis 3), operation.Plain := by
    decide +kernel
  have runs : calm.Throughout {} Counting (rewriting (.ratis 3) (.ratis 3)) ∧
      (∀ outcome ∈ calm.outcomes {} (rewriting (.ratis 3) (.ratis 3)),
        outcome.overflows = false) ∧
      usageAt (.ratis 3) (.ratis 3) 5 = some 30 ∧ usageAt (.ratis 3) (.ratis 3) 6 = some 0 := by
    decide +kernel
  obtain ⟨counting, exact, first, second⟩ := runs
  exact ⟨plain, counting, exact, first, second, fun count =>
    (versionUsage_of_counting {} _ _ _ plain counting exact count).1⟩

set_option maxRecDepth 20000 in
/-- A key was written with three copies and then with one: its deletion takes ten of the twenty
bytes that its versions were charged. -/
theorem residue_of_mixing : usageAt (.ratis 3) (.ratis 1) 1 = some 0 ∧
    usageAt (.ratis 3) (.ratis 1) 5 = some 20 ∧ usageAt (.ratis 3) (.ratis 1) 6 = some 10 ∧
    (calm.moment {} (rewriting (.ratis 3) (.ratis 1)) 6).service.records.keys.size = 0 := by
  decide +kernel

set_option maxRecDepth 20000 in
/-- The versions of an erasure coded key end within a stripe each: its deletion leaves two of the
eighteen bytes that they were charged. -/
theorem residue_of_partial :
    usageAt (.erasureCoded ⟨.xor, 2, 1, 4⟩) (.erasureCoded ⟨.xor, 2, 1, 4⟩) 5 = some 18 ∧
    usageAt (.erasureCoded ⟨.xor, 2, 1, 4⟩) (.erasureCoded ⟨.xor, 2, 1, 4⟩) 6 = some 2 := by
  decide +kernel

end World

end ObjectLedger
