import ObjectLedger.Proofs.Key.Numbering
import ObjectLedger.Proofs.Service.Bucket
import ObjectLedger.Proofs.Store.Allocator
import ObjectLedger.Service.Session

/-! # What sessions hold

A session holds the stored key that it was opened on, and a well-formed copy of it with one
more version group, which holds the allocated blocks (`Session.Sound`). Opening a key gives
such a session, and further blocks go to the end of that group.
-/

namespace ObjectLedger

/-- The path under which the key of a session is stored. -/
def Session.path (session : Session) : String :=
  keyPath session.key.volume session.key.bucket session.key.name

/-- The stored groups that a session keeps below the version it writes. -/
def Session.older (session : Session) : List VersionGroup :=
  match session.previous with
  | some old => if session.versioning then old.history else []
  | none => []

/-- A session that keeps older versions keeps the whole history that it found. -/
theorem Session.older_of_versioning {session : Session} {old : KeyRecord}
    (previous : session.previous = some old) (keeps : session.versioning = true) :
    session.older = old.history := by
  rw [older, previous, keeps]
  exact if_pos rfl

/-- Without versioning, a commit keeps no older version. -/
theorem Session.older_of_unversioned {session : Session}
    (unversioned : session.versioning = false) : session.older = [] := by
  rw [older, unversioned]
  cases session.previous <;> rfl

/-- A session writes one version above the groups it keeps of the record it found. -/
structure Session.Sound (session : Session) : Prop where
  key : session.key.WellFormed
  history : ∃ group, session.key.history = session.older ++ [group]
  expected : session.key.expected = session.previous.map (·.generation)
  place : ∀ old, session.previous = some old → old.SamePlace session.key

namespace KeyRecord

/-- A private copy of the key that was found, or a new key where none was. It is well formed if
its replication is usable. -/
structure CopyOf (key : KeyRecord) (previous : Option KeyRecord) : Prop where
  wellFormed : key.replication.Usable → key.WellFormed
  history : key.history = (previous.map (·.history)).getD []
  expected : key.expected = previous.map (·.generation)
  place : ∀ old, previous = some old → old.SamePlace key

/-- Adding entries changes the entries of a key alone, and keeps their subjects distinct. -/
theorem foldl_addAcl (acls : List Acl) (key : KeyRecord) :
    ∃ set, acls.foldl (fun key acl => (key.addAcl acl).1) key = { key with acls := set } ∧
      (key.acls.Distinct → set.Distinct) := by
  induction acls generalizing key with
  | nil => exact ⟨key.acls, rfl, id⟩
  | cons acl rest ih =>
      obtain ⟨set, folded, distinct⟩ := ih (key.addAcl acl).1
      exact ⟨set, folded, fun before => distinct (AclSet.add_distinct before acl)⟩

/-- Adding labels changes the metadata of a key alone. -/
theorem foldl_addLabel (labels : List (String × String)) (key : KeyRecord) :
    ∃ metadata, labels.foldl (fun key label => key.addLabel label.1 label.2) key =
      { key with metadata } := by
  induction labels generalizing key with
  | nil => exact ⟨key.metadata, rfl⟩
  | cons label rest ih => exact ih (key.addLabel label.1 label.2)

end KeyRecord

namespace Action

open Service

variable {before : Service}

/-- Reopening a key copies it, but for its replication and the entries asked for. -/
theorem copyOf_reopened {existing : KeyRecord} (wellFormed : existing.WellFormed)
    (replication : Replication) (acls : List Acl) :
    (reopened existing replication acls).CopyOf (some existing) ∧
      (reopened existing replication acls).replication = replication := by
  obtain ⟨set, folded, distinct⟩ := KeyRecord.foldl_addAcl acls
    { existing with replication, expected := some existing.generation }
  unfold reopened
  rw [folded]
  refine ⟨⟨fun usable => ?_, rfl, rfl, ?_⟩, rfl⟩
  · exact { wellFormed with replication := usable, acls := distinct wellFormed.acls }
  · rintro _ ⟨⟩
    exact ⟨rfl, rfl, rfl⟩

/-- A new key is named by the request and stands in the bucket it was resolved to. -/
theorem ensures_newKey (request : OpenRequest) (bucket : BucketRecord)
    (replication : Replication) : (newKey request bucket replication).Ensures before
    (fun key after => before.Idle after ∧ key.CopyOf none ∧ key.replication = replication ∧
      key.volume = bucket.volume ∧ key.bucket = bucket.name ∧ key.name = request.key)
    (fun _ after => before.Idle after) := by
  refine ensures_takeObjectId.bind fun objectId first numbered => ?_
  refine ensures_now.bind fun time second ticked => ?_
  have idle := numbered.trans ticked
  dsimp only
  split
  · exact ensures_fail idle
  · rename_i key built
    obtain ⟨wellFormed, volume, name, keyName, -, chosen, history, expected⟩ :=
      KeyDraft.build_eq_ok (fun _ member => by cases member) built
    have copy : key.CopyOf none :=
      ⟨fun _ => wellFormed, history, expected, fun _ same => by cases same⟩
    exact ensures_pure ⟨idle, copy, (Option.some.inj chosen).symm, (Option.some.inj volume).symm,
      (Option.some.inj name).symm, (Option.some.inj keyName).symm⟩

/-- Whether a key was found or not, the private copy is of the key under the path of the
request, and opening goes on with it. -/
theorem ensures_privateCopy_bind {α : Type} (request : OpenRequest) (bucket : BucketRecord)
    (replication : Replication) (previous : Option KeyRecord) {next : KeyRecord → Action α}
    {ok : α → Service → Prop} {bad : Fault → Service → Prop} :
    (∀ existing, previous = some existing → existing.WellFormed ∧
      keyPath bucket.volume bucket.name request.key =
        keyPath existing.volume existing.bucket existing.name) →
    (∀ fault after, before.Idle after → bad fault after) →
    (∀ key after, before.Idle after → key.CopyOf previous → key.replication = replication →
      keyPath key.volume key.bucket key.name = keyPath bucket.volume bucket.name request.key →
      (previous = none → key.volume = bucket.volume ∧ key.bucket = bucket.name) →
      (next key).Ensures after ok bad) →
    Ensures (match previous with
      | some existing => pure (reopened existing replication request.acls) >>= next
      | none => newKey request bucket replication >>= next) before ok bad := by
  intro found fails follows
  cases previous with
  | none =>
      refine ((ensures_newKey request bucket replication).mono (fun _ _ known => known)
        fun fault after idle => fails fault after idle).bind fun key after known => ?_
      obtain ⟨idle, copied, chosen, volume, name, keyName⟩ := known
      exact follows key after idle copied chosen (by rw [volume, name, keyName])
        fun _ => ⟨volume, name⟩
  | some existing =>
      obtain ⟨wellFormed, path⟩ := found existing rfl
      obtain ⟨copied, chosen⟩ := copyOf_reopened wellFormed replication request.acls
      exact follows _ before (Idle.refl before) copied chosen
        ((copied.place existing rfl).path.symm.trans path.symm) fun none => by cases none

/-- Where a session that is opened for a request stands. -/
structure Opened (before : Service) (request : OpenRequest) (session : Session) : Prop where
  sound : session.Sound
  previous : session.previous = before.records.keyAt session.path
  home : ∃ bucket, before.records.Home bucket.volume bucket.name bucket ∧
    session.versioning = bucket.versioning ∧
    session.path = keyPath bucket.volume bucket.name request.key ∧
    (session.previous = none →
      session.key.volume = bucket.volume ∧ session.key.bucket = bucket.name)

/-- The session of a private copy that was given new blocks as its newest version. -/
theorem sound_session {copy key : KeyRecord} {previous : Option KeyRecord} {version : UInt64}
    (id : UInt64) {blocks : List Block} {time : Option UInt64} {versioning : Bool}
    (copied : copy.CopyOf previous) (usable : copy.replication.Usable)
    (added : copy.addVersion blocks time versioning = .ok (key, version)) :
    (Session.mk id key version versioning previous).Sound ∧ key.SamePlace copy ∧
      key.replication = copy.replication ∧
      (Session.mk id key version versioning previous).allocated.map (·.id) =
        blocks.map (·.id) := by
  have wellFormed := copied.wellFormed usable
  obtain ⟨group, rfl, ids, ascending, stamped⟩ :=
    KeyRecord.addVersion_eq_ok wellFormed.ascending wellFormed.stamped added
  have older : (if versioning then copy.history else []) =
      Session.older ⟨id, { copy with
        history := (if versioning then copy.history else []) ++ [group]
        modified := time.getD copy.modified }, version, versioning, previous⟩ := by
    unfold Session.older
    rw [copied.history]
    cases previous with
    | none => cases versioning <;> rfl
    | some old => rfl
  refine ⟨⟨?_, ⟨group, congrArg (· ++ [group]) older⟩, copied.expected,
    fun old same => (copied.place old same).trans ⟨rfl, rfl, rfl⟩⟩, ⟨rfl, rfl, rfl⟩, rfl, ?_⟩
  · exact { wellFormed with ascending, stamped }
  · unfold Session.allocated
    rw [KeyRecord.latestBlocks_of_history rfl, ids]

/-- A session opens with no more blocks than a word can count. -/
theorem openingBlocks_lt (settings : Settings) (sizeHint : UInt64) :
    settings.openingBlocks sizeHint < UInt64.size :=
  Nat.lt_of_le_of_lt (Nat.min_le_right _ _) settings.maxPreallocated.toNat_lt_size

/-- Opening a key allocates the blocks of its new version and changes no record. Only an overflow
can leave blocks that no session holds. -/
theorem ensures_openKey (sound : before.records.Sound) (faithful : before.outages.Faithful)
    (settings : Settings) (request : OpenRequest) : (openKey settings request).Ensures before
    (fun session after => Opened before request session ∧ ∃ blocks allocator,
      before.allocator.allocate session.key.replication (settings.openingBlocks request.sizeHint)
        settings.blockSize = (.ok blocks, allocator) ∧
      session.allocated.map (·.id) = blocks.map (·.id) ∧
      before.Leaves after before.records allocator)
    (fun fault after => ∃ allocator,
      before.allocator.Advances allocator (settings.openingBlocks request.sizeHint) ∧
      before.Leaves after before.records allocator ∧
      ∀ cause, fault = .error cause → allocator.live = before.allocator.live) := by
  have failed : ∀ {fault : Fault} {after : Service}, before.Idle after → ∃ allocator,
      before.allocator.Advances allocator (settings.openingBlocks request.sizeHint) ∧
      before.Leaves after before.records allocator ∧
      ∀ cause, fault = .error cause → allocator.live = before.allocator.live :=
    fun idle => ⟨before.allocator, .refl _ _, idle.halted.leaves, fun _ _ => rfl⟩
  refine ((ensures_resolveBucket sound.toBucketsSound request.volume request.bucket).mono
    (fun _ _ known => known) fun _ _ known => failed known.1).bind fun bucket first known => ?_
  obtain ⟨resolved, leads, -⟩ := known
  have stands := sound.home_of_resolve leads
  have soundFirst : first.records.Sound := resolved.records.symm ▸ sound
  refine ((ensures_readKey soundFirst bucket.volume bucket.name request.key).mono
    (fun _ _ known => known) fun _ _ known => failed (resolved.trans known.1)).bind
    fun previous second known => ?_
  obtain ⟨read, found⟩ := known
  rw [resolved.records] at found
  have idle := resolved.trans read
  have standing : ∀ existing, previous = some existing → existing.WellFormed ∧
      keyPath bucket.volume bucket.name request.key =
        keyPath existing.volume existing.bucket existing.name := by
    intro existing same
    obtain ⟨stored, -, holds⟩ := sound.stored_of_keyAt (found.symm.trans same)
    exact ⟨holds.wellFormed, holds.path⟩
  refine ensures_privateCopy_bind request bucket _ previous standing
    (fun _ _ known => failed (idle.trans known))
    fun copy third copying copied chosen path fresh => ?_
  replace idle := idle.trans copying
  -- Labels do not touch what makes the key a copy.
  obtain ⟨metadata, labelled⟩ := KeyRecord.foldl_addLabel request.metadata.entries copy
  simp only [labelled]
  have relabelled : { copy with metadata }.CopyOf previous :=
    ⟨fun usable => { copied.wellFormed usable with }, copied.history, copied.expected,
      fun old same => (copied.place old same).trans ⟨rfl, rfl, rfl⟩⟩
  have faithfulThird : third.outages.Faithful := by
    intro call
    rw [idle.schedule]
    exact faithful call
  refine ((ensures_allocateBlocks faithfulThird _ _ _).mono (fun _ _ known => known) ?_).bind
    fun blocks fourth known => ?_
  · rintro fault after ⟨allocator, taken, rfl⟩
    rw [idle.allocator] at taken
    refine ⟨allocator, ?_, ⟨idle.records, rfl, idle.schedule, .inr idle.generation⟩,
      fun _ _ => Allocator.live_of_refused taken⟩
    rcases taken with rfl | ⟨cause, taken⟩
    · exact .refl _ _
    · exact Allocator.advances_of_allocate taken
  obtain ⟨allocator, given, rfl⟩ := known
  rw [idle.allocator] at given
  refine ensures_now.bind fun time fifth ticked => ?_
  have left : before.Leaves fifth before.records allocator :=
    ⟨ticked.records.trans idle.records, ticked.allocator, ticked.schedule.trans idle.schedule,
      .inr (UInt64.le_trans idle.generation ticked.generation)⟩
  refine ensures_ofWord_bind (fun added versioned => ?_)
    fun cause _ => ⟨allocator, Allocator.advances_of_allocate given, left, fun _ same => by
      cases same⟩
  obtain ⟨key, version⟩ := added
  refine ensures_takeSession.bind fun id last numbered => ?_
  have remains : before.Leaves last before.records allocator :=
    ⟨numbered.records.trans left.records, numbered.allocator.trans left.allocator,
      numbered.schedule.trans left.schedule,
      .inr (UInt64.le_trans (UInt64.le_trans idle.generation ticked.generation)
        numbered.generation)⟩
  have usable : copy.replication.Usable := chosen ▸ (Allocator.allocate_ok given).1
  obtain ⟨session, same, replication, ids⟩ := sound_session id relabelled usable versioned
  have place : keyPath key.volume key.bucket key.name =
      keyPath bucket.volume bucket.name request.key := same.path.trans path
  refine ensures_pure ⟨⟨session, ?_, bucket, stands, rfl, place, fun absent => ?_⟩, blocks,
    allocator, ?_, ids, remains⟩
  · rw [Session.path, place]
    exact found
  · exact ⟨same.volume.trans (fresh absent).1, same.bucket.trans (fresh absent).2⟩
  · change before.allocator.allocate key.replication _ _ = _
    rw [replication]
    exact chosen ▸ given

/-- One more block goes to the end of the version that a session writes. -/
theorem ensures_allocateBlock (faithful : before.outages.Faithful) (settings : Settings)
    {session : Session} (sound : session.Sound) : (allocateBlock settings session).Ensures before
    (fun result after => result.2.Sound ∧ result.2.key.SamePlace session.key ∧
      result.2.previous = session.previous ∧ result.2.versioning = session.versioning ∧
      ∃ allocator, before.allocator.allocate session.key.replication 1 settings.blockSize =
        (.ok [result.1], allocator) ∧
      result.2.allocated.map (·.id) = session.allocated.map (·.id) ++ [result.1.id] ∧
      before.Leaves after before.records allocator)
    (fun _ after => ∃ allocator, before.allocator.Advances allocator 1 ∧
      before.Leaves after before.records allocator ∧
      allocator.live = before.allocator.live) := by
  refine ((ensures_allocateBlocks faithful _ _ _).mono (fun _ _ known => known) ?_).bind
    fun blocks first known => ?_
  · rintro fault after ⟨allocator, taken, rfl⟩
    refine ⟨allocator, ?_, ⟨rfl, rfl, rfl, .inr (UInt64.le_refl _)⟩,
      Allocator.live_of_refused taken⟩
    rcases taken with rfl | ⟨cause, taken⟩
    · exact .refl _ _
    · exact Allocator.advances_of_allocate taken
  obtain ⟨allocator, given, rfl⟩ := known
  obtain ⟨block, rfl⟩ := List.length_eq_one_iff.1 (Allocator.length_of_allocate given)
  refine ensures_now.bind fun time second ticked => ?_
  obtain ⟨group, history⟩ := sound.history
  rw [KeyRecord.appendBlocks_of_history history]
  have stamped : (group.append [block]).Stamped := VersionGroup.append_stamped
    (sound.key.stamped group (history ▸ List.mem_append_right _ List.mem_cons_self)) _
  have wellFormed := sound.key.replaceLatest (group.append [block]) history rfl stamped
  refine ensures_pure ⟨⟨{ wellFormed with }, ⟨_, rfl⟩, sound.expected, fun old same =>
    (sound.place old same).trans ⟨rfl, rfl, rfl⟩⟩, ⟨rfl, rfl, rfl⟩, rfl, rfl, allocator, given, ?_,
    ticked.records, ticked.allocator, ticked.schedule, .inr ticked.generation⟩
  unfold Session.allocated
  rw [KeyRecord.latestBlocks_of_history rfl, KeyRecord.latestBlocks_of_history history,
    VersionGroup.ids_append]
  rfl

/-! ### The number of the new version -/

/-- The version of an opened session follows those below it. -/
theorem numbered_openKey (settings : Settings) (request : OpenRequest) (before : Service) :
    (openKey settings request).Ensures before
      (fun session _ => ∀ older group, session.key.history = older ++ [group] →
        Numbered older → Numbered session.key.history)
      (fun _ _ => True) := by
  refine (ensures_any _ before).bind fun bucket first _ => ?_
  refine (ensures_any _ first).bind fun previous second _ => ?_
  cases previous
  all_goals
    refine (ensures_any _ second).bind fun copy third _ => ?_
    refine (ensures_any _ third).bind fun blocks fourth _ => ?_
    refine (ensures_any _ fourth).bind fun time fifth _ => ?_
    refine ensures_ofWord_bind (fun versioned added => ?_) fun _ _ => trivial
    refine (ensures_any _ fifth).bind fun id last _ => ensures_pure fun older group => ?_
    exact KeyRecord.addVersion_numbered added

/-- A further block does not change the versions of a session. -/
theorem versions_allocateBlock (settings : Settings) (session : Session) (before : Service) :
    (allocateBlock settings session).Ensures before
      (fun result _ => result.2.key.history.map (·.version) =
        session.key.history.map (·.version))
      (fun _ _ => True) := by
  refine (ensures_any _ before).bind fun blocks first _ => ?_
  cases blocks.getLast? with
  | none => exact ensures_fail trivial
  | some block =>
      refine (ensures_any _ first).bind fun time second _ => ?_
      refine ensures_ofRecord_bind (fun key appended => ?_) fun _ _ => trivial
      exact ensures_pure (KeyRecord.appendBlocks_versions appended)

end Action

end ObjectLedger
