import ObjectLedger.Proofs.Service.Step

/-! # What the answer to a commit tells

A commit that is answered with a key was carried out: the key is stored at a generation that was
never given out (`Service.KeyStored`), and its bucket is charged (`Service.CarriedOut`). A commit
that is answered with an error has left all records as they were, with two exceptions: a call that
was to undo the write of its key was refused, or the commit was carried out and handing back blocks,
which comes last, was refused (`World.carriedOut_iff_of_released`, `World.error_of_carriedOut`).
-/

namespace ObjectLedger

/-- The key of a commit was stored: the report of the session went into the key, which is stored at
a new generation, and no other key changed. -/
structure Service.KeyStored (before after : Service) (session : Session) (reported : List Block)
    (options : CommitOptions) (key : KeyRecord) (committed : List Block) : Prop where
  place : session.key.SamePlace key
  reads : ∀ time, after.records.readKey time key.volume key.bucket key.name =
    .ok (some key.asStored)
  fresh : before.nextGeneration ≤ key.generation
  others : ∀ path, path ≠ session.path →
    after.records.keys.get? path = before.records.keys.get? path
  report : ∃ base outcome, session.key.commit reported options = .ok (base, outcome) ∧
    outcome.committed = committed ∧
    key = { base with
      size := key.size
      modified := key.modified
      generation := key.generation
      expected := none }

/-- A commit of a session was carried out with a key: the key was stored, and the bucket of the
session is charged for it. -/
def Service.CarriedOut (before after : Service) (session : Session) (reported : List Block)
    (options : CommitOptions) (key : KeyRecord) : Prop :=
  ∃ committed bytes home, before.KeyStored after session reported options key committed ∧
    session.Charged key committed bytes ∧
    before.records.resolve? session.key.volume session.key.bucket = some home ∧
    before.records.Recounts after.records home bytes session.addedKeys

namespace World

variable {settings : Settings} {world : World} {session : Session} {reported : List Block}
  {options : CommitOptions} {service : Service}

/-- A commit that wrote its key stored it. -/
theorem keyStored_of_written (sound : service.records.Sound) {written : KeyRecord}
    {committed leftOver : List Block} {frame : List UInt8}
    (commits : session.Commits reported options written committed leftOver)
    (writes : Action.KeyWritten world.service service session written frame)
    (keys : service.records.keys = (world.service.records.putKey written frame).keys) :
    world.service.KeyStored service session reported options written committed where
  place := commits.place
  reads time := by
    rw [sound.readKey, Records.keyAt, keys]
    exact congrArg Except.ok
      ((Records.keyAt_putKey commits.wellFormed writes.persisted _).trans (if_pos rfl))
  fresh := writes.fresh
  others path other := by
    rw [keys]
    refine (Dictionary.get?_insert ..).trans (if_neg ?_)
    rwa [commits.path]
  report := by
    obtain ⟨base, outcome, built, same, made⟩ := commits.reconciled
    exact ⟨base, outcome, built, same, writes.unconditional ▸ made⟩

/-- A commit that left the records stored no key. -/
theorem Sound.not_keyStored (sound : world.Sound) (same : service.records = world.service.records)
    (key : KeyRecord) (committed : List Block) :
    ¬ world.service.KeyStored service session reported options key committed := by
  intro kept
  have reads := kept.reads 0
  rw [same, sound.records.readKey] at reads
  obtain ⟨stored, found, holds⟩ := sound.records.stored_of_keyAt (Except.ok.inj reads)
  have below := sound.below _ stored found
  rw [holds.generation] at below
  exact UInt64.lt_irrefl _ (UInt64.lt_of_lt_of_le below kept.fresh)

/-- What an answer tells of how far a commit came. -/
theorem carriedOut_of_effect (sound : world.service.records.Sound) {result : Except Fault Commit}
    (effect : Action.CommitEffect settings world.service session reported options result service) :
    match result with
    | .ok commit => world.service.CarriedOut service session reported options commit.key
    | .error (.error _) => service.records = world.service.records ∨
        ((∃ key committed,
            world.service.KeyStored service session reported options key committed) ∧
          service.records.buckets = world.service.records.buckets ∧
          world.service.UndoRefused service session) ∨
        (∃ key, world.service.CarriedOut service session reported options key) ∧
          world.service.RefusedNext service .deleteBlocks
    | .error (.overflow _) => True := by
  cases effect with
  | @untouched fault _ reason leaves =>
      cases fault with
      | error cause => exact .inl leaves.records
      | overflow cause => trivial
  | rejected commits leaves => exact .inl leaves.records
  | @kept fault _ written committed _ _ _ commits writes reason released leaves =>
      cases fault with
      | error cause =>
          have soundAfter : service.records.Sound :=
            leaves.records ▸ sound.putKey commits.wellFormed writes.persisted
          have stored := keyStored_of_written soundAfter commits writes (by rw [leaves.records])
          have buckets : service.records.buckets = world.service.records.buckets := by
            rw [leaves.records]
            rfl
          exact .inr (.inl ⟨⟨written, committed, stored⟩, buckets, reason cause rfl⟩)
      | overflow cause => trivial
  | @settled _ _ written committed _ _ bytes _ _ commits writes charged moves released leaves =>
      rw [← leaves.records] at moves
      have soundAfter := moves.sound (sound.putKey commits.wellFormed writes.persisted)
      have stored := keyStored_of_written soundAfter commits writes moves.keys_eq
      obtain ⟨home, leads, recounts⟩ := moves.recounts sound.toBucketsSound rfl
      have carried : world.service.CarriedOut service session reported options written :=
        ⟨committed, bytes, home, stored, charged, leads, recounts⟩
      rcases released with ⟨⟨outcome, -, rfl⟩, -⟩ | ⟨⟨fault, rfl⟩, -, refused⟩
      · exact carried
      · cases fault with
        | error cause => exact .inr (.inr ⟨⟨written, carried⟩, refused⟩)
        | overflow cause => trivial

/-- A commit in a reachable state that is answered with a key was carried out with it. One that is
answered with an error has left all records; or its key is stored, as it wrote it, and a call that
it made was refused: the one to undo the write, its bucket not being charged, or the one to hand
back blocks after all else was done. If neither of these calls was refused, and nothing overflows,
a commit is answered with a key exactly when it was carried out, and with an error exactly when all
records are as before. -/
theorem carriedOut_iff_of_released (settings : Settings) (allocator : Allocator) (clock : Clock)
    {outages : Outages} (faithful : outages.Faithful) (operations : List Operation)
    (counting : (start allocator clock outages).Throughout settings Counting operations)
    {world after : World}
    (reached : world = (start allocator clock outages).run settings operations)
    {place : Nat} {session : Session} (found : world.sessionAt place = some session)
    {reported : List Block} {size : UInt64} {options : CommitOptions} {outcome : Outcome}
    (performed : world.perform settings (.commitKey place reported size options) =
      (outcome, after)) :
    (∀ commit, outcome = .keyCommitted commit →
      world.service.CarriedOut after.service session reported options commit.key) ∧
    (∀ cause, outcome = .failed (.error cause) →
      after.service.records = world.service.records ∨
        ((∃ key committed,
            world.service.KeyStored after.service session reported options key committed) ∧
          after.service.records.buckets = world.service.records.buckets ∧
          world.service.UndoRefused after.service session) ∨
        (∃ key, world.service.CarriedOut after.service session reported options key) ∧
          world.service.RefusedNext after.service .deleteBlocks) ∧
    (¬ world.service.UndoRefused after.service session →
      ¬ world.service.RefusedNext after.service .deleteBlocks → outcome.overflows = false →
      ((∃ commit, outcome = .keyCommitted commit) ↔
        ∃ key, world.service.CarriedOut after.service session reported options key) ∧
      ((∃ cause, outcome = .failed (.error cause)) ↔
        after.service.records = world.service.records)) := by
  have sound : world.Sound := (sound_of_reached faithful counting reached).1
  obtain ⟨result, service, ran, effect⟩ :=
    sound.perform_commitKey settings found reported size options
  rw [ran] at performed
  cases performed
  have tells := carriedOut_of_effect sound.records effect
  have apart : ∀ key, world.service.CarriedOut service session reported options key →
      service.records ≠ world.service.records := by
    rintro key ⟨committed, _, _, stored, -⟩ same
    exact sound.not_keyStored same key committed stored
  cases result with
  | ok commit =>
      refine ⟨?_, fun _ same => (nomatch same), fun _ _ _ => ⟨⟨?_, ?_⟩, ?_, ?_⟩⟩
      · rintro _ ⟨⟩
        exact tells
      · exact fun _ => ⟨commit.key, tells⟩
      · exact fun _ => ⟨commit, rfl⟩
      · exact fun ⟨_, same⟩ => (nomatch same)
      · exact fun same => (apart commit.key tells same).elim
  | error fault =>
      cases fault with
      | overflow cause =>
          exact ⟨fun _ same => (nomatch same), fun _ same => (nomatch same),
            fun _ _ fits => (nomatch fits)⟩
      | error cause =>
          refine ⟨fun _ same => (nomatch same), fun _ _ => tells, fun undoes releases _ => ?_⟩
          have kept : service.records = world.service.records := by
            rcases tells with same | ⟨-, -, refused⟩ | ⟨-, refused⟩
            · exact same
            · exact (undoes refused).elim
            · exact (releases refused).elim
          refine ⟨⟨?_, ?_⟩, ?_, ?_⟩
          · exact fun ⟨_, same⟩ => (nomatch same)
          · exact fun ⟨key, carried⟩ => (apart key carried kept).elim
          · exact fun _ => kept
          · exact fun _ => ⟨cause, rfl⟩

/-- A service that refuses to take blocks back at first, and all writes of keys but two. -/
def unreturnable : World :=
  start calm.service.allocator calm.service.clock
    ((Outages.never.during .deleteBlocks 0 1 (.fail .file)).during .writeKey 2 9 (.fail .file))

/-- The second writer opens the key after it was stored. -/
def inTurn : List Operation :=
  twoWriters.take 2 ++ [storeBlock, .openKey { volume := "v", bucket := "b", key := "k" }]

/-- Such a service with a bucket and a key that is open for writing. -/
def unreturnableOpened : World := unreturnable.run {} (inTurn.take 2)

/-- Such a service with a key that is stored and open for writing again. -/
def unreturnableReopened : World := unreturnable.run {} inTurn

set_option maxRecDepth 20000 in
/-- A commit is answered with an error although it was carried out. Another one is answered with a
key and was carried out; the write that would undo it would be refused, but is not made. -/
theorem carriedOut_of_unreturnable :
    unreturnable.Throughout {} Counting inTurn ∧
    (∃ session key, unreturnableOpened.sessionAt 0 = some session ∧
      (unreturnableOpened.perform {} storeBlock).1 = .failed (.error .file) ∧
      unreturnableOpened.service.CarriedOut (unreturnableOpened.after {} storeBlock).service
        session [{ Block.bare ⟨1, 1⟩ with length := 10 }] {} key) ∧
    ∃ session key commit, unreturnableReopened.sessionAt 1 = some session ∧
      unreturnableReopened.service.outages.Refuses .writeKey
        (unreturnableReopened.service.outages.calls .writeKey + 1) ∧
      (unreturnableReopened.perform {} (.commitKey 1 [] 0 {})).1 = .keyCommitted commit ∧
      unreturnableReopened.service.CarriedOut
        (unreturnableReopened.after {} (.commitKey 1 [] 0 {})).service session [] {} key := by
  have counting : unreturnable.Throughout {} Counting inTurn ∧
      unreturnable.Throughout {} Counting (inTurn.take 2) := by
    decide +kernel
  have first : (unreturnableOpened.sessionAt 0).isSome ∧
      (unreturnableOpened.perform {} storeBlock).1 = .failed (.error .file) ∧
      (unreturnableOpened.after {} storeBlock).service.records.buckets ≠
        unreturnableOpened.service.records.buckets := by
    decide +kernel
  have second : (∃ session ∈ unreturnableReopened.sessionAt 1, session.previous ≠ none) ∧
      (unreturnableReopened.perform {} (.commitKey 1 [] 0 {})).1.commit?.isSome ∧
      unreturnableReopened.service.outages.calls .writeKey = 1 ∧
      (unreturnableReopened.after {} (.commitKey 1 [] 0 {})).service.outages.calls .writeKey = 2 ∧
      unreturnableReopened.service.outages.calls .deleteBlocks = 1 := by
    decide +kernel
  have firstReached : unreturnableOpened = unreturnable.run {} (inTurn.take 2) := by
    unfold unreturnableOpened
    rfl
  have secondReached : unreturnableReopened = unreturnable.run {} inTurn := by
    unfold unreturnableReopened
    rfl
  -- The worlds are not to be computed again below.
  generalize unreturnableOpened = opened at *
  generalize unreturnableReopened = reopened at *
  have faithful : unreturnable.service.outages.Faithful := fun call same => by cases same
  refine ⟨counting.1, ?_, ?_⟩
  · obtain ⟨there, fails, changed⟩ := first
    obtain ⟨session, found⟩ := Option.isSome_iff_exists.1 there
    obtain ⟨-, told, -⟩ := carriedOut_iff_of_released {} _ _ faithful _ counting.2 firstReached
      found (Prod.eta (opened.perform {} storeBlock)).symm
    rcases told _ fails with same | ⟨-, same, -⟩ | ⟨⟨key, carried⟩, -⟩
    · exact (changed (congrArg Records.buckets same)).elim
    · exact (changed same).elim
    · exact ⟨session, key, found, fails, carried⟩
  · obtain ⟨⟨session, found, old⟩, committed, before, after, handed⟩ := second
    obtain ⟨commit, done⟩ := Option.isSome_iff_exists.1 committed
    rw [Outcome.commit?_eq_some_iff] at done
    have schedule := (sound_of_reached faithful counting.1 secondReached).2
    obtain ⟨-, -, tells⟩ := carriedOut_iff_of_released {} _ _ faithful _ counting.1 secondReached
      found (Prod.eta (reopened.perform {} (.commitKey 1 [] 0 {}))).symm
    have refuses : reopened.service.outages.Refuses .writeKey
        (reopened.service.outages.calls .writeKey + 1) := by
      unfold Outages.Refuses
      rw [schedule, before]
      exact ⟨.file, rfl⟩
    have undoes : ¬ reopened.service.UndoRefused
        (reopened.after {} (.commitKey 1 [] 0 {})).service session :=
      Service.undoes_of_calls_le old (by omega)
    have releases : ¬ reopened.service.RefusedNext
        (reopened.after {} (.commitKey 1 [] 0 {})).service .deleteBlocks := by
      unfold Service.RefusedNext Service.Refused Outages.Refuses
      rw [schedule, handed]
      exact fun refused => (nomatch refused.1.choose_spec)
    obtain ⟨key, carried⟩ := (tells undoes releases (by rw [done]; rfl)).1.1 ⟨commit, done⟩
    exact ⟨session, key, commit, found, refuses, done, carried⟩

set_option maxRecDepth 20000 in
/-- The answer to a commit is an error, while its key is stored and its bucket charged. -/
theorem error_of_carriedOut :
    (unreturnableOpened.perform {} storeBlock).1 = .failed (.error .file) ∧
    unreturnableOpened.service.records.keys.contains "/v/b/k" = false ∧
    (unreturnableOpened.after {} storeBlock).service.records.keys.contains "/v/b/k" ∧
    (unreturnableOpened.service.records.bucketAt "/v/b").map
      (fun bucket => (bucket.usedBytes, bucket.usedKeys)) = some (0, 0) ∧
    ((unreturnableOpened.after {} storeBlock).service.records.bucketAt "/v/b").map
      (fun bucket => (bucket.usedBytes, bucket.usedKeys)) = some (30, 1) := by
  decide +kernel

end World

end ObjectLedger
