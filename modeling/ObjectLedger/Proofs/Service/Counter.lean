import ObjectLedger.Proofs.Service.Formed

/-! # How far the counter of generations gets

A generation is drawn from the counter, and above that of the record that it replaces. An operation
therefore raises the highest generation of the service by a few draws at most (`Settings.rise`),
and as long as the words hold that many more, no draw overflows (`World.Within.after`). The
generations of a service are low after any run of realistic length (`World.Within.moment`).
-/

namespace ObjectLedger

/-- The most by which charging a bucket raises the generations: two for each attempt. -/
def Settings.chargeRise (settings : Settings) : Nat := 2 * (settings.usageAttempts.toNat - 1 + 1)

/-- The most by which an operation raises the generations: two for a key, and those for its
bucket. -/
def Settings.rise (settings : Settings) : Nat := 2 + settings.chargeRise

/-- No generation of a service is above a bound: neither the next one nor that of a frame. -/
structure Service.Within (service : Service) (bound : Nat) : Prop where
  next : service.nextGeneration.toNat ≤ bound
  keys : ∀ path stored, service.records.keys.get? path = some stored →
    stored.generation.toNat ≤ bound
  buckets : ∀ path stored, service.records.buckets.get? path = some stored →
    stored.generation.toNat ≤ bound

theorem Service.Within.mono {service : Service} {bound later : Nat} (within : service.Within bound)
    (below : bound ≤ later) : service.Within later where
  next := Nat.le_trans within.next below
  keys path stored found := Nat.le_trans (within.keys path stored found) below
  buckets path stored found := Nat.le_trans (within.buckets path stored found) below

/-- The generations are those of buckets that can be read. -/
structure Service.Dated (service : Service) (bound : Nat) : Prop extends service.Within bound where
  sound : service.records.BucketsSound

namespace Service.Dated

variable {before after : Service} {bound later : Nat}

theorem mono (dated : before.Dated bound) (within : bound ≤ later) : before.Dated later :=
  ⟨dated.toWithin.mono within, dated.sound⟩

/-- The generations are those of the records and the counter. -/
theorem of_same (dated : before.Dated bound) (records : after.records = before.records)
    (next : after.nextGeneration = before.nextGeneration) : after.Dated bound where
  sound := records ▸ dated.sound
  next := next ▸ dated.next
  keys := records ▸ dated.keys
  buckets := records ▸ dated.buckets

/-- Storing a key keeps the bound that its generation respects. -/
theorem putKey (dated : before.Dated bound) {key : KeyRecord} {bytes : List UInt8}
    (fits : key.generation.toNat ≤ bound)
    (records : after.records = before.records.putKey key bytes)
    (next : after.nextGeneration = before.nextGeneration) : after.Dated bound where
  sound := dated.sound.of_buckets (records ▸ rfl)
  next := next ▸ dated.next
  keys path stored found := by
    rw [records, Records.putKey, Dictionary.get?_insert] at found
    split at found
    · cases found
      exact fits
    · exact dated.keys path stored found
  buckets := records ▸ dated.buckets

/-- Removing a key keeps every bound. -/
theorem dropKey (dated : before.Dated bound) {path : String}
    (records : after.records = before.records.dropKey path)
    (next : after.nextGeneration = before.nextGeneration) : after.Dated bound where
  sound := dated.sound.of_buckets (records ▸ rfl)
  next := next ▸ dated.next
  keys other stored found := by
    rw [records, Records.dropKey, Dictionary.get?_erase] at found
    split at found
    · cases found
    · exact dated.keys other stored found
  buckets := records ▸ dated.buckets

/-- Storing a bucket keeps the bound that its update respects. -/
theorem putBucket (dated : before.Dated bound) {bucket : BucketRecord} {bytes : List UInt8}
    (wellFormed : bucket.WellFormed) (persisted : bucket.persist = .ok bytes)
    (fits : bucket.updateId.toNat ≤ bound)
    (records : after.records = before.records.putBucket bucket bytes)
    (next : after.nextGeneration = before.nextGeneration) : after.Dated bound where
  sound := records ▸ dated.sound.putBucket wellFormed persisted
  next := next ▸ dated.next
  keys := records ▸ dated.keys
  buckets path stored found := by
    rw [records, Records.putBucket, Dictionary.get?_insert] at found
    split at found
    · cases found
      exact fits
    · exact dated.buckets path stored found

/-- The update of a bucket that is led to is within the bound. -/
theorem updateId_le (dated : before.Dated bound) {volume name : String} {home : BucketRecord}
    (leads : before.records.resolve? volume name = some home) : home.updateId.toNat ≤ bound := by
  have stands := dated.sound.home_of_resolve leads
  obtain ⟨stored, found, holds⟩ := dated.sound.stored_of_bucketAt stands.seen
  exact holds.updateId ▸ dated.buckets _ stored found

end Service.Dated

namespace Action

open Service

variable {α β : Type} {before middle : Service} {bound later : Nat} {excess : Prop}

/-- A fault leaves the generations within a bound, and an overflow has a given reason. -/
def FaultDates (bound : Nat) (excess : Prop) (fault : Fault) (after : Service) : Prop :=
  after.Dated bound ∧ ∀ cause, fault = .overflow cause → excess

theorem FaultDates.mono {fault : Fault} {after : Service}
    (known : FaultDates bound excess fault after) (within : bound ≤ later) :
    FaultDates later excess fault after :=
  ⟨known.1.mono within, known.2⟩

/-- An error where the generations are within a bound leaves them there. -/
theorem faultDates_error (dated : before.Dated bound) (cause : StoreError) :
    FaultDates bound excess (.error cause) before :=
  ⟨dated, nofun⟩

/-- Whatever comes of an action, it leaves the generations within a bound, and it overflows for a
given reason only. -/
def Dates (action : Action α) (before : Service) (bound : Nat) (excess : Prop) : Prop :=
  action.Ensures before (fun _ after => after.Dated bound) (FaultDates bound excess)

theorem Dates.mono {action : Action α} (dates : action.Dates before bound excess)
    (within : bound ≤ later) : action.Dates before later excess :=
  Ensures.mono dates (fun _ _ dated => dated.mono within) fun _ _ known => known.mono within

/-- An action that keeps to a bound can go before one that raises it. -/
theorem Dates.bind_le {first : Action α} {next : α → Action β}
    (dates : first.Dates before bound excess)
    (follows : ∀ value middle, middle.Dated bound → (next value).Dates middle later excess)
    (within : bound ≤ later) : (first >>= next).Dates before later excess :=
  (Ensures.mono dates (fun _ _ dated => dated) fun _ _ known => known.mono within).bind follows

/-- Actions that keep to one bound keep to it one after the other. -/
theorem Dates.bind {first : Action α} {next : α → Action β}
    (dates : first.Dates before bound excess)
    (follows : ∀ value middle, middle.Dated bound → (next value).Dates middle bound excess) :
    (first >>= next).Dates before bound excess :=
  dates.bind_le follows (Nat.le_refl bound)

/-- Catching the errors of an action changes no generation. -/
theorem Dates.attempt {action : Action α} (dates : action.Dates before bound excess) :
    (Action.attempt action).Dates before bound excess :=
  Ensures.attempt dates _ (fun _ _ dated => dated) (fun _ _ known => known.1) fun _ _ known => known

/-! ## Steps that draw no generation -/

theorem dates_pure (dated : before.Dated bound) (value : α) :
    (pure value : Action α).Dates before bound excess := dated

theorem dates_fail (dated : before.Dated bound) (cause : StoreError) :
    (fail cause : Action α).Dates before bound excess := faultDates_error dated cause

/-- An answer of the store draws no generation. -/
theorem dates_ofStore (dated : before.Dated bound) (result : Except StoreError α) :
    (ofStore result).Dates before bound excess := by
  cases result with
  | ok value => exact dated
  | error cause => exact dates_fail dated cause

/-- Editing a record draws no generation from the counter. -/
theorem dates_ofRecord (dated : before.Dated bound) (result : Except RecordError α) :
    (ofRecord result).Dates before bound excess := by
  cases result with
  | ok value => exact dated
  | error cause => exact dates_fail dated _

theorem dates_now (dated : before.Dated bound) : now.Dates before bound excess :=
  dated.of_same rfl rfl

/-- A call keeps to a bound if what it does once it is counted does. -/
theorem dates_call {method : Method} {action : Action α} (dated : before.Dated bound)
    (passed : (before.counted method).Dated bound →
      action.Dates (before.counted method) bound excess) :
    (call method action).Dates before bound excess := by
  have counted : (before.counted method).Dated bound := dated.of_same rfl rfl
  exact ensures_call (fun cause _ => faultDates_error counted cause) (passed counted)

theorem dates_readKey (dated : before.Dated bound) (volume bucket key : String) :
    (readKey volume bucket key).Dates before bound excess := by
  refine dates_call dated fun counted => (dates_now counted).bind fun time middle here => ?_
  exact ensures_get_bind (dates_ofStore here _)

/-- Reading a bucket that must be there draws no generation. -/
theorem dates_requireBucket (dated : before.Dated bound) (volume bucket : String) :
    (requireBucket volume bucket).Dates before bound excess := by
  have reads : (readBucket volume bucket).Dates before bound excess :=
    dates_call dated fun counted => (dates_now counted).bind
      (fun time middle here => ensures_get_bind (dates_ofStore here _))
  refine reads.bind fun found middle here => ?_
  cases found with
  | some record => exact here
  | none => exact dates_fail here _

/-- The bucket that a name leads to is well formed, and its update is within the bound. -/
theorem dates_resolveBucket (dated : before.Dated bound) (volume bucket : String) :
    (resolveBucket volume bucket).Ensures before
      (fun home after => after.Dated bound ∧ home.updateId.toNat ≤ bound ∧ home.WellFormed)
      (FaultDates bound excess) := by
  have dates : (resolveBucket volume bucket).Dates before bound excess := by
    refine (dates_requireBucket dated volume bucket).bind fun record middle here => ?_
    cases record.source? with
    | none => exact here
    | some target =>
        refine (dates_requireBucket here target.1 target.2).bind fun source last there => ?_
        cases source.isLink with
        | true => exact dates_fail there _
        | false => exact there
  refine (Ensures.and dates (ensures_resolveBucket dated.sound volume bucket)).mono ?_
    fun _ _ known => known.1
  intro home after known
  obtain ⟨here, -, leads, -⟩ := known
  exact ⟨here, dated.updateId_le leads, (dated.sound.home_of_resolve leads).wellFormed dated.sound⟩

/-- Checking the quotas draws no generation, and its sums do not overflow. -/
theorem dates_checkQuota (dated : before.Dated bound) (volume bucket : String)
    (bytes keys : Int64) : (checkQuota volume bucket bytes keys).Dates before bound excess := by
  refine (dates_resolveBucket dated volume bucket).bind fun home middle known => ?_
  exact (dates_ofRecord known.1 _).bind (fun _ _ here => dates_ofRecord here _)

/-- Writing a key draws no generation, and stores one within the bound. -/
theorem dates_writeKey (dated : before.Dated bound) {key : KeyRecord}
    (fits : key.generation.toNat ≤ bound) (condition : Precondition) :
    (writeKey key condition).Dates before bound excess := by
  apply (ensures_writeKey key condition).mono
  · rintro _ after ⟨records, changed, rfl⟩
    obtain ⟨bytes, -, -, rfl⟩ := Records.writeKey_eq_ok_iff.1 changed
    exact dated.putKey fits rfl rfl
  · rintro fault after ⟨rfl, cause, rfl, -⟩
    exact ⟨dated.of_same rfl rfl, nofun⟩

/-- Writing a bucket draws no generation, and stores an update within the bound. -/
theorem dates_writeBucket (dated : before.Dated bound) {bucket : BucketRecord}
    (wellFormed : bucket.WellFormed) (fits : bucket.updateId.toNat ≤ bound)
    (condition : Precondition) : (writeBucket bucket condition).Dates before bound excess := by
  apply (ensures_writeBucket bucket condition).mono
  · rintro _ after ⟨records, changed, rfl⟩
    obtain ⟨bytes, persisted, -, rfl⟩ := Records.writeBucket_eq_ok_iff.1 changed
    exact dated.putBucket wellFormed persisted fits rfl rfl
  · rintro fault after ⟨rfl, cause, rfl, -⟩
    exact ⟨dated.of_same rfl rfl, nofun⟩

/-- Removing a key draws no generation. -/
theorem dates_deleteKey (dated : before.Dated bound) (volume bucket key : String)
    (condition : Precondition) :
    (deleteKey volume bucket key condition).Dates before bound excess := by
  refine dates_call dated fun counted => ensures_get_bind <| ensures_ofStore_bind
    (fun taken took => ?_) fun cause _ => faultDates_error counted cause
  obtain ⟨removed, records⟩ := taken
  obtain ⟨-, -, rfl⟩ := Records.takeKey_eq_ok_iff.1 took
  have decoded : ∀ time middle, middle.Dated bound → (removed.mapM fun stored : Stored =>
      ofStore ((KeyRecord.ofPersisted stored.bytes time).mapError .codec)).Dates middle bound
        excess := by
    intro time middle here
    cases removed with
    | none => exact here
    | some stored =>
        exact (dates_ofStore here _).bind (fun record _ there => dates_pure there (some record))
  have dropped : { before.counted .deleteKey with
      records := before.records.dropKey (keyPath volume bucket key) }.Dated bound :=
    dated.dropKey rfl rfl
  exact ensures_set_bind ((dates_now dropped).bind decoded)

/-- Handing back blocks draws no generation. -/
theorem dates_deleteBlocks (dated : before.Dated bound) (blocks : List Block) :
    (deleteBlocks blocks).Dates before bound excess :=
  dates_call dated fun counted => counted.of_same rfl rfl

/-- Blocks are handed back before an operation fails. -/
theorem dates_deleteBlocks_fail (dated : before.Dated bound) (blocks : List Block)
    (cause : StoreError) :
    (deleteBlocks blocks >>= fun _ => fail cause : Action α).Dates before bound excess :=
  (dates_deleteBlocks dated blocks).bind (fun _ _ here => dates_fail here cause)

/-! ## Drawing generations -/

/-- A generation is drawn if the words hold two more than the highest one. -/
theorem dates_generationAbove (dated : before.Dated bound) {current : UInt64}
    (below : current.toNat ≤ bound) (room : bound + 2 < UInt64.size) :
    (generationAbove current).Ensures before
      (fun generation after => after.Dated (bound + 2) ∧ generation.toNat ≤ bound + 2)
      (FaultDates (bound + 2) excess) := by
  have next := dated.next
  refine (ensures_generationAbove_exact current before).mono ?_ ?_
  · rintro generation after ⟨drawn, fits, rfl⟩
    refine ⟨⟨⟨?_, fun path stored found => ?_, fun path stored found => ?_⟩, dated.sound⟩, ?_⟩
    · change (generation + 1).toNat ≤ bound + 2
      rw [Word.toNat_succ fits]
      omega
    · exact Nat.le_trans (dated.keys path stored found) (Nat.le_add_right ..)
    · exact Nat.le_trans (dated.buckets path stored found) (Nat.le_add_right ..)
    · omega
  · rintro fault after ⟨-, large, -⟩
    omega

/-- Writing the key of a commit draws one generation, at most two above the bound. -/
theorem dates_writeCommitted (dated : before.Dated bound) (settings : Settings) {key : KeyRecord}
    (below : key.generation.toNat ≤ bound) (room : bound + 2 < UInt64.size) (bytes keys : Int64) :
    (writeCommitted settings key bytes keys).Dates before (bound + 2) excess := by
  have advances : ∀ middle, middle.Dated bound → (advanced key).Ensures middle
      (fun written after => after.Dated (bound + 2) ∧ written.generation.toNat ≤ bound + 2)
      (FaultDates (bound + 2) excess) := by
    intro middle here
    refine (dates_generationAbove here below room).bind fun generation last known => ?_
    refine ensures_ofRecord_bind (fun advanced same => ?_)
      fun cause _ => faultDates_error known.1 _
    unfold KeyRecord.advanceGeneration at same
    split at same
    · cases same
      exact ensures_pure known
    · cases same
  have writes : ∀ middle, middle.Dated bound → (do
      let written ← advanced key
      writeKey written (conditionOf key)
      pure written : Action KeyRecord).Dates middle (bound + 2) excess := by
    intro middle here
    refine (advances middle here).bind fun written last known => ?_
    exact (dates_writeKey known.1 known.2 _).bind (fun _ _ there => dates_pure there written)
  unfold writeCommitted
  split
  · exact (dates_checkQuota dated _ _ _ _).bind_le (fun _ middle here => writes middle here)
      (Nat.le_add_right ..)
  · exact writes before dated

/-- One attempt to charge a bucket draws one update, at most two above the bound. -/
theorem dates_tryUsage (dated : before.Dated bound) (room : bound + 2 < UInt64.size)
    (volume bucket : String) (bytes keys : Int64) :
    (tryUsage volume bucket bytes keys).Dates before (bound + 2) excess := by
  refine ((dates_resolveBucket dated volume bucket).mono (fun _ _ known => known)
    fun _ _ known => known.mono (Nat.le_add_right ..)).bind fun home first known => ?_
  obtain ⟨here, below, wellFormed⟩ := known
  refine (dates_generationAbove here below room).bind fun updateId second known => ?_
  refine (dates_now known.1).bind fun time third there => ?_
  refine (dates_writeBucket there ?_ ?_ _).attempt
  · exact ⟨wellFormed.volume, wellFormed.name, wellFormed.acls, wellFormed.replication⟩
  · change (max home.updateId updateId).toNat ≤ bound + 2
    rw [Word.toNat_max]
    omega

/-- Every attempt at charging a bucket draws one generation. -/
theorem dates_updateUsage (volume bucket : String) (bytes keys : Int64) (more : Nat)
    (dated : before.Dated bound) (room : bound + 2 * (more + 1) < UInt64.size) :
    (updateUsage volume bucket bytes keys more).Dates before (bound + 2 * (more + 1)) excess := by
  induction more generalizing before bound with
  | zero =>
      exact (dates_tryUsage dated room volume bucket bytes keys).bind
        fun result _ here => dates_ofStore here result
  | succ more ih =>
      refine (dates_tryUsage dated (by omega) volume bucket bytes keys).bind_le
        (fun result middle here => ?_) (by omega)
      cases result with
      | ok _ => exact here.mono (by omega)
      | error cause =>
          dsimp only
          by_cases again : cause.isRetryable = true
          · rw [if_pos again]
            exact (ih here (by omega)).mono (by omega)
          · rw [if_neg again]
            exact dates_fail (here.mono (by omega)) cause

/-- Charging a bucket raises the bound by two for each attempt. -/
theorem dates_chargeUsage (dated : before.Dated bound) (settings : Settings)
    (room : bound + settings.chargeRise < UInt64.size) (volume bucket : String)
    (bytes keys : Int64) :
    (chargeUsage settings volume bucket bytes keys).Dates before (bound + settings.chargeRise)
      excess :=
  dates_updateUsage volume bucket bytes keys _ dated room

/-- Undoing the write of a key draws no generation: the old record keeps its own. -/
theorem dates_rollBack (dated : before.Dated bound) (key : KeyRecord)
    {previous : Option KeyRecord}
    (fits : ∀ old, previous = some old → old.generation.toNat ≤ bound) :
    (rollBack key previous).Dates before bound excess := by
  cases previous with
  | some old => exact dates_writeKey dated (fits old rfl) _
  | none =>
      exact (dates_deleteKey dated _ _ _ _).bind (fun _ _ here => dates_pure here ())

end Action

/-- A name leads to a bucket with a key. -/
def Records.Reaches (records : Records) (volume bucket name : String) (key : KeyRecord) : Prop :=
  ∃ home, records.resolve? volume bucket = some home ∧
    records.keyAt (keyPath home.volume home.name name) = some key

/-- The generations of a session are within a bound. -/
structure Session.Within (session : Session) (bound : Nat) : Prop where
  key : session.key.generation.toNat ≤ bound
  previous : ∀ old, session.previous = some old → old.generation.toNat ≤ bound

theorem Session.Within.mono {session : Session} {bound later : Nat} (own : session.Within bound)
    (within : bound ≤ later) : session.Within later where
  key := Nat.le_trans own.key within
  previous old same := Nat.le_trans (own.previous old same) within

namespace Action

open Service

variable {before : Service} {bound : Nat} {excess : Prop}

/-! ## Operations -/

/-- What a commit does after its key was written raises the bound by charging alone. -/
theorem dates_chargeCommit (dated : before.Dated bound) (settings : Settings)
    (room : bound + settings.chargeRise < UInt64.size) {session : Session}
    (own : session.Within bound) (outcome : Reconciliation) (leftOver : List Block)
    (bytes : Int64) (key : KeyRecord) :
    (chargeCommit settings session outcome leftOver bytes key).Dates before
      (bound + settings.chargeRise) excess := by
  have charges : (chargeUsage settings key.volume key.bucket bytes session.addedKeys).Dates before
      (bound + settings.chargeRise) excess := dates_chargeUsage dated settings room _ _ _ _
  refine charges.attempt.bind fun result middle here => ?_
  cases result with
  | ok _ =>
      exact (dates_deleteBlocks here _).bind (fun _ _ there => dates_pure there _)
  | error cause =>
      have undoes : (rollBack key session.previous).Dates middle (bound + settings.chargeRise)
          excess :=
        dates_rollBack here key fun old same =>
          Nat.le_trans (own.previous old same) (Nat.le_add_right ..)
      refine undoes.attempt.bind fun undone last there => ?_
      cases undone with
      | ok _ => exact dates_deleteBlocks_fail there _ cause
      | error _ => exact dates_deleteBlocks_fail there _ cause

/-- Writing and charging a commit raise the bound by the rise of one operation. -/
theorem dates_storeCommit (dated : before.Dated bound) (settings : Settings)
    (room : bound + settings.rise < UInt64.size) {session : Session} (own : session.Within bound)
    (outcome : Reconciliation) (leftOver : List Block) (bytes : Int64) {key : KeyRecord}
    (below : key.generation.toNat ≤ bound) :
    (storeCommit settings session outcome leftOver bytes key).Dates before
      (bound + settings.rise) excess := by
  unfold Settings.rise at room ⊢
  rw [← Nat.add_assoc] at room ⊢
  have writes : (writeCommitted settings key bytes session.addedKeys).Dates before (bound + 2)
      excess := dates_writeCommitted dated settings below (by omega) _ _
  refine writes.attempt.bind_le (fun result middle here => ?_) (Nat.le_add_right ..)
  cases result with
  | error cause => exact dates_deleteBlocks_fail (here.mono (Nat.le_add_right ..)) _ cause
  | ok written =>
      have later : session.Within (bound + 2) := own.mono (Nat.le_add_right ..)
      exact dates_chargeCommit here settings room later _ _ _ _

/-- A commit overflows only where the lengths that it is charged for cannot be counted. -/
theorem dates_commitKey (dated : before.Dated bound) (settings : Settings)
    (room : bound + settings.rise < UInt64.size) {session : Session} (prepared : session.Sound)
    (own : session.Within bound) (reported : List Block) (size : UInt64)
    (options : CommitOptions) :
    (commitKey settings session reported size options).Dates before (bound + settings.rise)
      (¬ session.Counts reported options) := by
  have within : bound ≤ bound + settings.rise := Nat.le_add_right ..
  apply ensures_prepared prepared
  · exact fun _ => faultDates_error (dated.mono within) _
  · intro _ uncounted cause
    exact ⟨(dated.mono within).of_same rfl rfl, fun _ _ => uncounted⟩
  · intro _ _ key outcome bytes prepares _
    have ticked : before.ticked.Dated bound := dated.of_same rfl rfl
    apply dates_storeCommit ticked settings room own
    rw [prepares.fields]
    exact own.key

/-- A deletion overflows only where the lengths of the key that it reaches cannot be counted. -/
theorem dates_deleteKeyOf (dated : before.Dated bound) (sound : before.records.Sound)
    (settings : Settings) (room : bound + settings.chargeRise < UInt64.size)
    (volume bucket name : String) :
    (deleteKeyOf settings volume bucket name).Dates before (bound + settings.chargeRise)
      (∃ key, before.records.Reaches volume bucket name key ∧
        ¬ key.replication.Counts key.allBlocks) := by
  have within : bound ≤ bound + settings.chargeRise := Nat.le_add_right ..
  refine (((dates_resolveBucket dated volume bucket).and
    (ensures_resolveBucket sound.toBucketsSound volume bucket)).mono (fun _ _ known => known)
      fun _ _ known => known.1.mono within).bind fun home first known => ?_
  obtain ⟨⟨here, -, -⟩, resolved, leads, -⟩ := known
  have soundFirst : first.records.Sound := resolved.records.symm ▸ sound
  have deletes : (deleteKey home.volume home.name name .unconditional).Dates first bound
      (∃ key, before.records.Reaches volume bucket name key ∧
        ¬ key.replication.Counts key.allBlocks) := dates_deleteKey here _ _ _ _
  refine ((Ensures.and deletes (ensures_deleteKey soundFirst home.volume home.name name
    .unconditional)).mono (fun _ _ known => known) fun _ _ known => known.1.mono within).bind
      fun removed second known => ?_
  obtain ⟨there, seen, -, -⟩ := known
  rw [resolved.records] at seen
  cases removed with
  | none => exact dates_fail (there.mono within) _
  | some record =>
      refine ensures_ofWord_bind (fun freed _ => ?_) fun cause failed => ?_
      · refine (dates_chargeUsage there settings room _ _ _ _).bind fun _ third later => ?_
        exact (dates_deleteBlocks later _).bind (fun _ _ last => dates_pure last _)
      · have reached : before.records.Reaches volume bucket name record :=
          ⟨home, leads, seen.symm⟩
        exact ⟨there.mono within, fun _ _ =>
          ⟨record, reached, Replication.not_counts_of_charge failed⟩⟩

/-- Creating a bucket draws one update. -/
theorem dates_createBucket (dated : before.Dated bound) (room : bound + 1 < UInt64.size)
    (draft : BucketDraft) : (createBucket draft).Dates before (bound + 1) excess := by
  refine (dates_now dated).bind_le (fun time first here => ?_) (Nat.le_add_right ..)
  have numbers : takeObjectId.Dates first bound excess := here.of_same rfl rfl
  refine numbers.bind_le (fun objectId second there => ?_) (Nat.le_add_right ..)
  refine ensures_takeGeneration.bind fun updateId third taken => ?_
  obtain ⟨rfl, rfl⟩ := taken
  have drawn : { second with nextGeneration := second.nextGeneration + 1 }.Dated (bound + 1) := by
    have least := there.next
    refine { there.mono (Nat.le_add_right bound 1) with next := ?_ }
    change (second.nextGeneration + 1).toNat ≤ bound + 1
    rw [Word.toNat_succ (by omega)]
    omega
  dsimp only
  split
  · exact dates_fail drawn _
  · rename_i created built
    have wellFormed := (BucketDraft.build_eq_ok built).1
    have update := BucketDraft.updateId_of_build built
    refine ((ensures_storeBucket created).mono (fun _ _ known => known) ?_).bind
      fun _ last stored => ?_
    · rintro fault after ⟨rfl, cause, rfl⟩
      exact ⟨drawn.of_same rfl rfl, nofun⟩
    · obtain ⟨records, changed, rfl⟩ := stored
      obtain ⟨bytes, persisted, -, rfl⟩ := Records.createBucket_eq_ok_iff.1 changed
      have fits : created.updateId.toNat ≤ bound + 1 :=
        update ▸ Nat.le_trans there.next (Nat.le_add_right ..)
      refine ensures_pure ?_
      exact drawn.putBucket wellFormed persisted fits rfl rfl

/-- Asking for blocks draws no generation, but may overflow. -/
theorem dates_allocateBlocks (dated : before.Dated bound) (replication : Replication)
    (count : Nat) (size : UInt64) :
    (allocateBlocks replication count size).Dates before bound True := by
  have asked : (verdict .allocateBlocks).Dates before bound True := dated.of_same rfl rfl
  refine asked.bind fun answer middle here => ?_
  cases answer with
  | fail cause => exact dates_fail here cause
  | empty => exact here
  | pass =>
      refine ensures_get_bind ?_
      rcases middle.allocator.allocate replication count size with ⟨fault | blocks, allocator⟩
      · exact ⟨here.of_same rfl rfl, fun _ _ => trivial⟩
      · exact here.of_same rfl rfl

/-- A key that is made up for a request has no generation yet. -/
theorem dates_newKey (dated : before.Dated bound) (request : OpenRequest) (bucket : BucketRecord)
    (replication : Replication) : (newKey request bucket replication).Ensures before
      (fun key after => after.Dated bound ∧ key.generation = 0) (FaultDates bound excess) := by
  have numbers : takeObjectId.Dates before bound excess := dated.of_same rfl rfl
  refine Ensures.bind numbers fun objectId first here => ?_
  refine Ensures.bind (dates_now here) fun time second there => ?_
  dsimp only
  split
  · exact faultDates_error there _
  · rename_i key built
    exact ensures_pure ⟨there, KeyDraft.generation_of_build built⟩

/-- A private copy has the generation of the key that was found, and a new key none. -/
theorem dates_privateCopy_bind {α : Type} (dated : before.Dated bound) (request : OpenRequest)
    (bucket : BucketRecord) (replication : Replication) (previous : Option KeyRecord)
    {next : KeyRecord → Action α} {ok : α → Service → Prop} :
    (∀ old, previous = some old → old.generation.toNat ≤ bound) →
    (∀ key middle, middle.Dated bound → key.generation.toNat ≤ bound →
      (next key).Ensures middle ok (FaultDates bound excess)) →
    Ensures (match previous with
      | some existing => pure (reopened existing replication request.acls) >>= next
      | none => newKey request bucket replication >>= next) before ok
      (FaultDates bound excess) := by
  intro fits follows
  cases previous with
  | some existing =>
      refine follows _ before dated ?_
      obtain ⟨set, folded, -⟩ := KeyRecord.foldl_addAcl request.acls
        { existing with replication, expected := some existing.generation }
      rw [reopened, folded]
      exact fits existing rfl
  | none =>
      refine (dates_newKey dated request bucket replication).bind fun key middle known => ?_
      exact follows key middle known.1 (known.2 ▸ Nat.zero_le _)

/-- Opening a key draws no generation, and the session has those that it found. -/
theorem dates_openKey (dated : before.Dated bound) (sound : before.records.Sound)
    (settings : Settings) (request : OpenRequest) : (openKey settings request).Ensures before
      (fun session after => after.Dated bound ∧ session.Within bound) (FaultDates bound True) := by
  refine (((dates_resolveBucket dated request.volume request.bucket).and
    (ensures_resolveBucket sound.toBucketsSound request.volume request.bucket)).mono
      (fun _ _ known => known) fun _ _ known => known.1).bind fun home first known => ?_
  obtain ⟨⟨here, -, -⟩, resolved, -, -⟩ := known
  have soundFirst : first.records.Sound := resolved.records.symm ▸ sound
  have reads : (readKey home.volume home.name request.key).Dates first bound True :=
    dates_readKey here _ _ _
  refine ((Ensures.and reads (ensures_readKey soundFirst home.volume home.name request.key)).mono
    (fun _ _ known => known) fun _ _ known => known.1).bind fun previous second known => ?_
  obtain ⟨there, -, found⟩ := known
  have fits : ∀ old, previous = some old → old.generation.toNat ≤ bound := by
    intro old same
    obtain ⟨stored, stands, holds⟩ := soundFirst.stored_of_keyAt (found.symm.trans same)
    exact holds.generation ▸ here.keys _ stored stands
  refine dates_privateCopy_bind there request home _ previous fits
    fun copy third copied below => ?_
  obtain ⟨metadata, labelled⟩ := KeyRecord.foldl_addLabel request.metadata.entries copy
  simp only [labelled]
  refine Ensures.bind (dates_allocateBlocks copied _ _ _) fun blocks fourth allocated => ?_
  refine Ensures.bind (dates_now allocated) fun time fifth ticked => ?_
  refine ensures_ofWord_bind (fun versioned added => ?_) fun _ _ => ⟨ticked, fun _ _ => trivial⟩
  obtain ⟨key, version⟩ := versioned
  have low : key.generation.toNat ≤ bound := by
    rw [KeyRecord.addVersion_generation added]
    exact below
  have numbers : takeSession.Dates fifth bound True := ticked.of_same rfl rfl
  exact Ensures.bind numbers fun id last numbered =>
    ensures_pure ⟨numbered, low, fits⟩

/-- Allocating a block to a session draws no generation, but may overflow. -/
theorem dates_allocateBlock (dated : before.Dated bound) (settings : Settings) {session : Session}
    (own : session.Within bound) : (allocateBlock settings session).Ensures before
      (fun result after => after.Dated bound ∧ result.2.Within bound) (FaultDates bound True) := by
  refine Ensures.bind (dates_allocateBlocks dated _ _ _) fun blocks first here => ?_
  cases blocks.getLast? with
  | none => exact faultDates_error here _
  | some block =>
      refine Ensures.bind (dates_now here) fun time second there => ?_
      refine ensures_ofRecord_bind (fun key appended => ?_) fun _ _ => faultDates_error there _
      unfold KeyRecord.appendBlocks at appended
      split at appended
      · cases appended
      · cases appended
        exact ensures_pure ⟨there, own.key, own.previous⟩

end Action

/-! ## Runs -/

/-- No generation of a service or of an open session is above a bound. -/
structure World.Within (world : World) (bound : Nat) : Prop where
  service : world.service.Within bound
  sessions : ∀ place session, world.sessionAt place = some session → session.Within bound

namespace World

variable {settings : Settings} {world : World} {operations : List Operation} {bound : Nat}

theorem Within.mono (within : world.Within bound) {later : Nat} (below : bound ≤ later) :
    world.Within later where
  service := within.service.mono below
  sessions place session found := (within.sessions place session found).mono below

/-- An empty store is within the bound one: its first generation has not been drawn. -/
theorem within_start (allocator : Allocator) (clock : Clock) (outages : Outages) :
    (start allocator clock outages).Within 1 where
  service := ⟨Nat.le_refl _, nofun, nofun⟩
  sessions place session found := by cases found

/-- An operation raises the generations by no more than it may draw. -/
theorem Within.after (within : world.Within bound) (formed : world.Formed)
    (room : bound + settings.rise < UInt64.size) (operation : Operation) :
    (world.after settings operation).Within (bound + settings.rise) := by
  have dated : world.service.Dated bound := ⟨within.service, formed.records.toBucketsSound⟩
  have below : bound ≤ bound + settings.rise := Nat.le_add_right ..
  have stands : ∀ place session, world.sessionAt place = some session →
      session.Within (bound + settings.rise) :=
    fun place session found => (within.sessions place session found).mono below
  have raised : settings.rise = 2 + settings.chargeRise := rfl
  have sound := formed.records
  unfold World.after
  cases operation with
  | createBucket draft =>
      have ensured : (Action.createBucket draft).Dates world.service (bound + 1) True :=
        Action.dates_createBucket dated (by omega) draft
      rw [perform]
      rcases ran : (Action.createBucket draft).exec world.service with ⟨fault | bucket, service⟩
      · exact ⟨(Action.Ensures.of_exec_error ensured ran).1.toWithin.mono (by omega), stands⟩
      · exact ⟨(Action.Ensures.of_exec_ok ensured ran).toWithin.mono (by omega), stands⟩
  | openKey request =>
      have ensured := Action.dates_openKey dated sound settings request
      rw [perform]
      rcases ran : (Action.openKey settings request).exec world.service with
        ⟨fault | opened, service⟩
      · exact ⟨(ensured.of_exec_error ran).1.toWithin.mono below, stands⟩
      · obtain ⟨here, own⟩ := ensured.of_exec_ok ran
        refine ⟨here.toWithin.mono below, fun place session found => ?_⟩
        rw [sessionAt_append] at found
        split at found
        · cases found
          exact own.mono below
        · exact stands place session found
  | allocateBlock place =>
      rw [perform]
      cases opened : world.sessionAt place with
      | none => exact ⟨within.service.mono below, stands⟩
      | some session =>
          have ensured := Action.dates_allocateBlock dated settings
            (within.sessions place session opened)
          dsimp only
          rcases ran : (Action.allocateBlock settings session).exec world.service with
            ⟨fault | ⟨block, next⟩, service⟩
          · exact ⟨(ensured.of_exec_error ran).1.toWithin.mono below, stands⟩
          · obtain ⟨here, own⟩ := ensured.of_exec_ok ran
            refine ⟨here.toWithin.mono below, fun other session found => ?_⟩
            rw [sessionAt_set opened] at found
            split at found
            · cases found
              exact own.mono below
            · exact stands other session found
  | commitKey place reported size options =>
      rw [perform]
      cases opened : world.sessionAt place with
      | none => exact ⟨within.service.mono below, stands⟩
      | some session =>
          have ensured := Action.dates_commitKey dated settings room
            (formed.sessions place session opened).toSound (within.sessions place session opened)
            reported size options
          have ended : ∀ service other left,
              World.sessionAt ⟨service, world.sessions.set place none⟩ other = some left →
                left.Within (bound + settings.rise) := by
            intro service other left found
            rw [sessionAt_set opened] at found
            split at found
            · cases found
            · exact stands other left found
          dsimp only
          rcases ran : (Action.commitKey settings session reported size options).exec
            world.service with ⟨fault | commit, service⟩
          · exact ⟨(Action.Ensures.of_exec_error ensured ran).1.toWithin, ended service⟩
          · exact ⟨(Action.Ensures.of_exec_ok ensured ran).toWithin, ended service⟩
  | deleteKey volume bucket name =>
      have ensured := Action.dates_deleteKeyOf dated sound settings (by omega) volume
        bucket name
      rw [perform]
      rcases ran : (Action.deleteKeyOf settings volume bucket name).exec world.service with
        ⟨fault | record, service⟩
      · exact ⟨(Action.Ensures.of_exec_error ensured ran).1.toWithin.mono (by omega), stands⟩
      · exact ⟨(Action.Ensures.of_exec_ok ensured ran).toWithin.mono (by omega), stands⟩

/-- After a run the generations are no higher than one rise for each operation. -/
theorem Within.moment (within : world.Within bound) (formed : world.Formed)
    (room : bound + operations.length * settings.rise < UInt64.size) {count : Nat}
    (enough : count ≤ operations.length) :
    (world.moment settings operations count).Within (bound + count * settings.rise) := by
  induction count with
  | zero => exact within.mono (Nat.le_add_right ..)
  | succ count ih =>
      obtain ⟨operation, next⟩ : ∃ operation, operations[count]? = some operation :=
        ⟨_, List.getElem?_eq_getElem enough⟩
      have most := Nat.mul_le_mul_right settings.rise enough
      rw [Nat.succ_mul] at most ⊢
      rw [moment_succ_of_getElem? next, ← Nat.add_assoc]
      exact (ih (Nat.le_of_succ_le enough)).after (formed.moment count) (by omega) operation

end World

end ObjectLedger
