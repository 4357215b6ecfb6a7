import ObjectLedger.Proofs.Service.Formed
import ObjectLedger.Proofs.Service.Usage

/-! # What stands in the store

Opening a stored key takes over its record without the checks of a draft, and a commit that fails
writes an older record back. All that is written fits the store nevertheless: it is a key that was
stored before or that follows one, in a bucket that is no link (`Session.Fits`). The store is
therefore in order at every moment of every run (`World.inOrder_of_faithful`): every frame can be
read, stands under its own path and generation, and has versions numbered from 0 on, so that it can
be opened and written over again. A link is written once, when it is created.
-/

namespace ObjectLedger

/-- A stored key asks for no generation, has numbered versions, and lies in a bucket that is no
link. -/
structure KeyRecord.Fits (key : KeyRecord) (records : Records) : Prop where
  unconditional : key.expected = none
  filled : key.history ≠ []
  numbered : Numbered key.history
  home : ∃ home, records.Home key.volume key.bucket home

/-- A session writes numbered versions into a bucket that is no link, over a stored key. -/
structure Session.Fits (session : Session) (records : Records) : Prop where
  numbered : Numbered session.key.history
  home : ∃ home, records.Home session.key.volume session.key.bucket home
  previous : ∀ old, session.previous = some old → old.Fits records

/-- A frame is read as a key without placement, under the path and generation of the key. -/
structure Stored.IsKey (stored : Stored) (path : String) (key : KeyRecord) : Prop where
  read : ∀ now, KeyRecord.ofPersisted stored.bytes now = .ok key
  path : path = keyPath key.volume key.bucket key.name
  generation : stored.generation = key.generation
  unplaced : ∀ group ∈ key.history, ∀ block ∈ group.blocks, block.pipeline = none

/-- A frame is read as a bucket, under the path and update identifier of the bucket. -/
structure Stored.IsBucket (stored : Stored) (path : String) (bucket : BucketRecord) : Prop where
  read : ∀ now, BucketRecord.ofPersisted stored.bytes now = .ok bucket
  path : path = bucketPath bucket.volume bucket.name
  generation : stored.generation = bucket.updateId

/-- Every frame is read as a record of its path, and every key fits the store. -/
structure Records.InOrder (records : Records) : Prop where
  keys : ∀ path stored, records.keys.get? path = some stored →
    ∃ key, stored.IsKey path key ∧ key.Fits records
  buckets : ∀ path stored, records.buckets.get? path = some stored →
    ∃ bucket, stored.IsBucket path bucket

/-- The frames of links stay as they are. -/
def Records.KeepsLinks (before after : Records) : Prop :=
  ∀ path stored bucket, before.buckets.get? path = some stored →
    stored.IsBucket path bucket → bucket.isLink = true → after.buckets.get? path = some stored

/-! ## Buckets that stay -/

namespace Records

variable {records before middle after : Records} {volume name : String} {bytes keys : Int64}
  {enforced : Prop} {created : List BucketRecord}

theorem Keeps.of_buckets (same : after.buckets = before.buckets) : before.Keeps after :=
  fun _ _ home stands => ⟨home, stands.of_buckets same, rfl⟩

theorem Keeps.trans (first : before.Keeps middle) (second : middle.Keeps after) :
    before.Keeps after := by
  intro volume name home stands
  obtain ⟨next, stays, versioning⟩ := first volume name home stands
  obtain ⟨last, remains, same⟩ := second volume name next stays
  exact ⟨last, remains, same.trans versioning⟩

/-- A bucket that is no link remains one. -/
theorem Keeps.exists_home (keeps : before.Keeps after)
    (stands : ∃ home, before.Home volume name home) : ∃ home, after.Home volume name home := by
  obtain ⟨home, there⟩ := stands
  obtain ⟨next, stays, -⟩ := keeps _ _ home there
  exact ⟨next, stays⟩

/-- Moving the usage of a bucket keeps the buckets that are no links. -/
theorem Moves.keeps (moves : before.Moves volume name bytes keys after)
    (sound : before.BucketsSound) : before.Keeps after := by
  intro otherVolume otherName home stands
  obtain ⟨next, stays, ⟨rfl, -⟩ | ⟨-, updateId, time, rfl⟩⟩ := moves.stays sound stands
  · exact ⟨next, stays, rfl⟩
  · exact ⟨_, stays, rfl⟩

/-- Every operation keeps the buckets that are no links. -/
theorem Changes.keeps (changes : before.Changes enforced after created)
    (sound : before.BucketsSound) : before.Keeps after := by
  cases changes with
  | kept same => exact .of_buckets same
  | created bucket frame wellFormed persisted free same =>
      have put : before.Keeps (before.putBucket bucket frame) := fun _ _ home stands =>
        ⟨home, stands.putBucket wellFormed persisted free, rfl⟩
      exact put.trans (.of_buckets same)
  | charged moves allowed same =>
      exact (moves.keeps sound).trans (.of_buckets same)

/-- No operation writes a link that is stored. -/
theorem Changes.keepsLinks (changes : before.Changes enforced after created) :
    before.KeepsLinks after := by
  intro path stored bucket found is link
  have frame : ∀ {other : BucketRecord} {frame : List UInt8},
      path ≠ bucketPath other.volume other.name →
        (before.putBucket other frame).buckets.get? path = some stored := by
    intro other frame elsewhere
    exact (Dictionary.get?_insert ..).trans ((if_neg elsewhere).trans found)
  cases changes with
  | kept same => rwa [same]
  | created other bytes wellFormed persisted free same =>
      rw [same]
      refine frame fun here => ?_
      cases (here ▸ found).symm.trans free
  | charged moves allowed same =>
      obtain ⟨home, updateId, time, bytes, stands, leads, persisted⟩ := moves
      rw [same]
      refine frame fun here => ?_
      -- Usage is only moved in buckets that are no links.
      have seen : before.bucketAt path = some bucket := by
        rw [bucketAt, found, Option.bind_some, is.read]
        rfl
      obtain rfl := Option.some.inj (seen.symm.trans (here ▸ stands.seen))
      rw [BucketRecord.isLink, stands.source] at link
      cases link

end Records

/-! ## Keys and sessions that fit -/

/-- A key fits as long as the buckets that are no links stay. -/
theorem KeyRecord.Fits.keeps {key : KeyRecord} {before after : Records} (fits : key.Fits before)
    (keeps : before.Keeps after) : key.Fits after where
  unconditional := fits.unconditional
  filled := fits.filled
  numbered := fits.numbered
  home := keeps.exists_home fits.home

/-- Leaving out the placement of its blocks does not keep a key from fitting. -/
theorem KeyRecord.Fits.asStored {key : KeyRecord} {records : Records} (fits : key.Fits records) :
    key.asStored.Fits records where
  unconditional := fits.unconditional
  filled := mt List.map_eq_nil_iff.1 fits.filled
  numbered := fits.numbered.of_versions key.asStored_versions
  home := fits.home

/-- A session fits as long as the buckets that are no links stay. -/
theorem Session.Fits.keeps {session : Session} {before after : Records}
    (fits : session.Fits before) (keeps : before.Keeps after) : session.Fits after where
  numbered := fits.numbered
  home := keeps.exists_home fits.home
  previous old same := (fits.previous old same).keeps keeps

/-- What a commit of a session writes fits where the session does. -/
theorem Session.Fits.mayWrite {session : Session} {records : Records}
    (fits : session.Fits records) (prepared : session.Sound) {written : KeyRecord}
    (may : session.MayWrite written) : written.Fits records where
  unconditional := may.unconditional
  filled none := by
    obtain ⟨group, history⟩ := prepared.history
    have versions := may.versions
    rw [none, history, List.map_append] at versions
    exact List.append_ne_nil_of_right_ne_nil _ (List.cons_ne_nil _ _) versions.symm
  numbered := fits.numbered.of_versions may.versions
  home := may.place.volume ▸ may.place.bucket ▸ fits.home

namespace Records

variable {records before after : Records}

/-- A sound store of keys that fit. -/
structure Ordered (records : Records) : Prop extends records.Sound where
  fits : ∀ path key, records.keyAt path = some key → key.Fits records

/-- A store stays ordered where the keys that it did not have fit. -/
theorem Ordered.follow (ordered : before.Ordered) (sound : after.Sound)
    (keeps : before.Keeps after) (keys : ∀ path key, after.keyAt path = some key →
      before.keyAt path = some key ∨ key.Fits after) : after.Ordered where
  toSound := sound
  fits path key seen := by
    rcases keys path key seen with stood | fits
    · exact (ordered.fits path key stood).keeps keeps
    · exact fits

/-- Writing a well-formed key that fits keeps the store ordered. -/
theorem Ordered.putKey (ordered : records.Ordered) {key : KeyRecord} (wellFormed : key.WellFormed)
    {bytes : List UInt8} (persisted : key.persist = .ok bytes) (fits : key.Fits records) :
    (records.putKey key bytes).Ordered := by
  have keeps : records.Keeps (records.putKey key bytes) := .of_buckets rfl
  have sound := ordered.toSound.putKey wellFormed persisted
  refine ordered.follow sound keeps fun path other seen => ?_
  rw [keyAt_putKey wellFormed persisted] at seen
  split at seen
  · cases seen
    exact .inr (fits.asStored.keeps keeps)
  · exact .inl seen

/-- Being ordered is kept by removing keys and by moving usage. -/
theorem stable_ordered : Stable Ordered where
  sound ordered := ordered.toSound
  dropKey ordered path := by
    refine ordered.follow (ordered.toSound.dropKey path) (.of_buckets rfl) fun other key seen => ?_
    rw [keyAt_dropKey] at seen
    split at seen
    · cases seen
    · exact .inl seen
  moves ordered moves := ordered.follow (moves.sound ordered.toSound)
    (moves.keeps ordered.toBucketsSound) fun path _ seen => .inl (moves.keyAt_eq path ▸ seen)

/-- A session fits an ordered store. -/
def OrderedFor (session : Session) (records : Records) : Prop :=
  records.Ordered ∧ session.Fits records

/-- Fitting an ordered store is kept by removing keys and by moving usage. -/
theorem stable_orderedFor (session : Session) : Stable (OrderedFor session) where
  sound here := here.1.toSound
  dropKey here path := ⟨stable_ordered.dropKey here.1 path, here.2.keeps (.of_buckets rfl)⟩
  moves here moves :=
    ⟨stable_ordered.moves here.1 moves, here.2.keeps (moves.keeps here.1.toBucketsSound)⟩

/-- A commit writes keys that fit, and writes back one that did. -/
theorem admitsCommit_orderedFor {session : Session} (formed : session.Formed) :
    AdmitsCommit (OrderedFor session) session where
  written _ may := fun here persisted =>
    ⟨here.1.putKey may.wellFormed persisted (here.2.mayWrite formed.toSound may),
      here.2.keeps (.of_buckets rfl)⟩
  previous old same := fun here persisted =>
    ⟨here.1.putKey (formed.replaces old same) persisted (here.2.previous old same),
      here.2.keeps (.of_buckets rfl)⟩

/-- The frame of a key that is as it was read is read without the placement of its blocks. -/
theorem isKey_of_holds {stored : Stored} {path : String} {key : KeyRecord}
    (holds : stored.HoldsKey path key) : stored.IsKey path key where
  read := holds.ofPersisted
  path := holds.path
  generation := holds.generation
  unplaced group member block inside := by
    have history : key.history.map VersionGroup.withoutPipelines = key.history :=
      congrArg KeyRecord.history holds.settled
    rw [← history] at member
    obtain ⟨source, -, rfl⟩ := List.mem_map.1 member
    obtain ⟨placed, -, rfl⟩ := List.mem_map.1 inside
    rfl

/-- Every frame of an ordered store is that of a record which fits. -/
theorem Ordered.inOrder (ordered : records.Ordered) : records.InOrder where
  keys path stored found := by
    obtain ⟨key, seen, holds⟩ := ordered.toSound.holdsKey found
    exact ⟨key, isKey_of_holds holds, ordered.fits path key seen⟩
  buckets path stored found := by
    obtain ⟨bucket, holds⟩ := ordered.buckets path stored found
    exact ⟨bucket, holds.ofPersisted, holds.path, holds.updateId⟩

end Records

/-! ## Every moment of a run -/

namespace World

variable {settings : Settings} {world before next : World} {operations : List Operation}

/-- A world with an ordered store, which every open session fits. -/
structure Ordered (world : World) : Prop extends world.Formed where
  ordered : world.service.records.Ordered
  fits : ∀ place session, world.sessionAt place = some session →
    session.Fits world.service.records

/-- An opened session fits the store that it was opened on. -/
theorem Ordered.fits_opened (ordered : before.Ordered) {request : OpenRequest} {session : Session}
    (stands : Action.Opened before.service request session)
    (numbered : Numbered session.older → Numbered session.key.history) :
    session.Fits before.service.records := by
  have previous : ∀ old, session.previous = some old → old.Fits before.service.records :=
    fun old same => ordered.ordered.fits _ old (stands.previous.symm.trans same)
  refine ⟨numbered ?_, ?_, previous⟩
  · unfold Session.older
    cases found : session.previous with
    | none => exact numbered_nil
    | some old =>
        dsimp only
        split
        · exact (previous old found).numbered
        · exact numbered_nil
  · cases found : session.previous with
    | none =>
        obtain ⟨home, there, -, -, fresh⟩ := stands.home
        obtain ⟨volume, bucket⟩ := fresh found
        exact ⟨home, volume ▸ bucket ▸ there⟩
    | some old =>
        have place := stands.sound.place old found
        exact place.volume ▸ place.bucket ▸ (previous old found).home

/-- What an operation changes of the keys leaves them fitting. -/
theorem Advance.ordered (advance : Advance before next) (ordered : before.Ordered)
    (keeps : before.service.records.Keeps next.service.records) :
    next.service.records.Ordered := by
  have here := ordered.ordered
  have sound := advance.records ordered.toFormed
  cases advance with
  | created _ _ _ records =>
      refine here.follow sound keeps fun path key seen => .inl ?_
      rwa [records] at seen
  | opened _ _ records => exact records ▸ here
  | allocated _ _ _ records => exact records ▸ here
  | refused records => exact records ▸ here
  | committed found change =>
      exact (change _ (Records.stable_orderedFor _)
        (Records.admitsCommit_orderedFor (ordered.sessions _ _ found))
        ⟨here, ordered.fits _ _ found⟩).1
  | deleted change => exact change _ Records.stable_ordered here

/-- Every operation keeps a world ordered, whatever is refused. -/
theorem Ordered.after (ordered : world.Ordered) (settings : Settings) (operation : Operation) :
    (world.after settings operation).Ordered := by
  have advance := ordered.toFormed.advance settings operation
  have sound := ordered.records.toBucketsSound
  have keeps := (changes_perform sound settings operation).records.keeps sound
  refine ⟨ordered.toFormed.after settings operation, advance.ordered ordered keeps,
    fun place session found => ?_⟩
  rcases advance.sessionAt found with
    ⟨request, stands, numbered⟩ | ⟨old, there, continues, versions⟩
  · exact (ordered.fits_opened stands numbered).keeps keeps
  · have fits := (ordered.fits place old there).keeps keeps
    refine ⟨fits.numbered.of_versions versions, ?_, fun other same =>
      fits.previous other (continues.previous ▸ same)⟩
    rw [continues.place.volume, continues.place.bucket]
    exact fits.home

theorem ordered_start (allocator : Allocator) (clock : Clock) {outages : Outages}
    (faithful : outages.Faithful) : (start allocator clock outages).Ordered where
  toFormed := formed_start allocator clock faithful
  ordered := ⟨Records.sound_empty, fun path key seen => by cases seen⟩
  fits place session found := by cases found

/-- Every moment of a run of an ordered world is ordered. -/
theorem Ordered.moment (ordered : world.Ordered) (count : Nat) :
    (world.moment settings operations count).Ordered := by
  refine moment_induction Ordered (Nat.zero_le count) ordered fun count operation _ next here => ?_
  rw [moment_succ_of_getElem? next]
  exact here.after settings operation

/-- Every run of operations leaves a world ordered. -/
theorem Ordered.run (ordered : world.Ordered) : (world.run settings operations).Ordered := by
  rw [← moment_length]
  exact ordered.moment _

/-- A service that refuses no call is ordered after every run, and still refuses none. -/
theorem ordered_of_never {allocator : Allocator} {clock : Clock}
    (reached : world = (start allocator clock .never).run settings operations) :
    world.Ordered ∧ world.service.outages.Silent := by
  subst reached
  exact ⟨(ordered_start allocator clock faithful_never).run,
    silent_run Records.sound_empty.toBucketsSound Outages.silent_never⟩

/-- The frame of a link at one moment of a run stands at every later one. -/
theorem Ordered.keepsLinks (ordered : world.Ordered) {earlier later : Nat}
    (order : earlier ≤ later) :
    (world.moment settings operations earlier).service.records.KeepsLinks
      (world.moment settings operations later).service.records := by
  intro path stored bucket found is link
  apply moment_induction (fun now => now.service.records.buckets.get? path = some stored) order
    found
  intro count operation _ next there
  have here : (world.moment settings operations count).Ordered := ordered.moment count
  have changes := (changes_perform here.records.toBucketsSound settings operation).records
  rw [moment_succ_of_getElem? next]
  exact changes.keepsLinks path stored bucket there is link

/-- Whatever writers ask for and whatever is refused, the store is in order at every moment, and
what stands for a link stays as it was created. -/
theorem inOrder_of_faithful (settings : Settings) (allocator : Allocator) (clock : Clock)
    {outages : Outages} (faithful : outages.Faithful) (operations : List Operation) :
    (∀ count, ((start allocator clock outages).moment settings operations
      count).service.records.InOrder) ∧
    ∀ earlier later, earlier ≤ later →
      ((start allocator clock outages).moment settings operations
        earlier).service.records.KeepsLinks
        ((start allocator clock outages).moment settings operations later).service.records := by
  have ordered := ordered_start allocator clock faithful
  exact ⟨fun count => (ordered.moment count).ordered.inOrder,
    fun _ _ order => ordered.keepsLinks order⟩

/-- A key is written through a link, and then again into the bucket that the link leads to. -/
def linking : List Operation :=
  [.createBucket { volume := some "v", name := some "b", medium := some .disk, versioning := true },
    .createBucket
      { volume := some "v", name := some "l", medium := some .disk, sourceVolume := some "v",
        sourceBucket := some "b" },
    .openKey { volume := "v", bucket := "l", key := "k" }, storeBlock,
    .openKey { volume := "v", bucket := "b", key := "k" },
    .commitKey 1 [{ Block.bare ⟨1, 2⟩ with length := 5 }] 5 {}]

set_option maxRecDepth 20000 in
/-- Two versions of the key stand in the bucket, and the link stands as it was created. -/
theorem inOrder_linking : Outages.never.Faithful ∧
    (∃ stored key, (calm.moment {} linking 6).service.records.keys.get? (keyPath "v" "b" "k") =
        some stored ∧ stored.IsKey (keyPath "v" "b" "k") key ∧ key.history.length = 2 ∧
        key.Fits (calm.moment {} linking 6).service.records) ∧
    ∃ stored bucket, (calm.moment {} linking 2).service.records.buckets.get?
        (bucketPath "v" "l") = some stored ∧ bucket.isLink = true ∧
      stored.IsBucket (bucketPath "v" "l") bucket ∧
      (calm.moment {} linking 6).service.records.buckets.get? (bucketPath "v" "l") =
        some stored := by
  have runs : (∃ stored ∈ (calm.moment {} linking 6).service.records.keys.get?
        (keyPath "v" "b" "k"), ∃ key ∈ (KeyRecord.ofPersisted stored.bytes 0).toOption,
          key.history.length = 2) ∧
      ∃ stored ∈ (calm.moment {} linking 2).service.records.buckets.get? (bucketPath "v" "l"),
        ∃ bucket ∈ (BucketRecord.ofPersisted stored.bytes 0).toOption, bucket.isLink = true := by
    decide +kernel
  have kept : (∀ count, (calm.moment {} linking count).service.records.InOrder) ∧
      ∀ earlier later, earlier ≤ later →
        (calm.moment {} linking earlier).service.records.KeepsLinks
          (calm.moment {} linking later).service.records :=
    inOrder_of_faithful {} _ _ faithful_never linking
  obtain ⟨inOrder, keepsLinks⟩ := kept
  obtain ⟨⟨stored, found, key, read, versions⟩, frame, there, bucket, seen, link⟩ := runs
  obtain ⟨other, isKey, fits⟩ := (inOrder 6).keys _ stored found
  obtain ⟨same, isBucket⟩ := (inOrder 2).buckets _ frame there
  rw [isKey.read] at read
  rw [isBucket.read] at seen
  obtain rfl := Option.some.inj read
  obtain rfl := Option.some.inj seen
  exact ⟨faithful_never, ⟨stored, other, found, isKey, versions, fits⟩, frame, same, there, link,
    isBucket, keepsLinks 2 6 (by decide) _ frame same there isBucket link⟩

end World

end ObjectLedger
