import ObjectLedger.Proofs.Service.Step

/-! # Generations tell stored keys apart

Rolling a commit back writes an old generation again, and a deleted key may be created anew.
Still, a generation that stands twice under a path stands for the same bytes, since a fresh
generation lies above all given out before, and an undone write leaves what stood there
(`World.Turn`). The condition of a commit therefore holds only over the very record its session
was opened on, and writers of the same record exclude each other
(`World.optimistic_of_counting`).
-/

namespace ObjectLedger.World

variable {settings : Settings} {world : World} {operations : List Operation}

/-- What is stored under a path of keys. -/
def stored (world : World) (path : String) : Option Stored :=
  world.service.records.keys.get? path

/-- What a writer sees of a path: no key, or the generation of the key. -/
def seen (world : World) (path : String) : Option UInt64 := (world.stored path).map (·.generation)

/-- The session of a place is opened at a moment of a run, on what is seen of its path then. -/
structure OpensAt (settings : Settings) (world : World) (operations : List Operation)
    (moment place : Nat) (path : String) (seen : Option UInt64) : Prop where
  opens : ∃ request session, operations[moment]? = some (.openKey request) ∧
    ((world.moment settings operations moment).perform settings (.openKey request)).1 =
      .keyOpened session ∧ session.path = path
  place : (world.moment settings operations moment).sessions.length = place
  seen : (world.moment settings operations moment).seen path = seen

/-- A commit of the session of a place succeeds at a moment of a run. -/
def CommitsAt (settings : Settings) (world : World) (operations : List Operation)
    (moment place : Nat) : Prop :=
  ∃ reported size options commit,
    operations[moment]? = some (.commitKey place reported size options) ∧
      ((world.moment settings operations moment).perform settings
        (.commitKey place reported size options)).1 = .keyCommitted commit

/-- The condition of the commit of a session agrees with what is stored under its path. -/
def ConditionHolds (world : World) (session : Session) : Prop :=
  (Action.conditionOf session.key).check session.path (world.stored session.path) = .ok ()

/-- Writers of the same key exclude each other in a run. -/
structure Optimistic (settings : Settings) (world : World) (operations : List Operation) :
    Prop where
  /-- A path that holds the same generation at two moments holds the same bytes. -/
  bytes : ∀ earlier later path first second,
    (world.moment settings operations earlier).stored path = some first →
    (world.moment settings operations later).stored path = some second →
      first.generation = second.generation → first.bytes = second.bytes
  /-- The condition of a commit holds exactly while its path is as it was seen on opening. -/
  condition : ∀ opening place path seen moment session,
    OpensAt settings world operations opening place path seen →
    (world.moment settings operations moment).sessionAt place = some session →
      session.path = path ∧ ((world.moment settings operations moment).ConditionHolds session ↔
        (world.moment settings operations moment).seen path = seen)
  /-- A commit whose condition does not hold writes nothing and does not succeed. -/
  conflict : ∀ moment place session,
    (world.moment settings operations moment).sessionAt place = some session →
    ¬ (world.moment settings operations moment).ConditionHolds session →
    ∀ reported size options,
      ((world.moment settings operations moment).after settings
        (.commitKey place reported size options)).service.records =
          (world.moment settings operations moment).service.records ∧
      ∀ commit, ((world.moment settings operations moment).perform settings
        (.commitKey place reported size options)).1 ≠ .keyCommitted commit
  /-- Of the sessions opened on one generation of a path, one commit at most succeeds. -/
  exclusive : ∀ opening opening' place place' path generation moment moment',
    OpensAt settings world operations opening place path (some generation) →
    OpensAt settings world operations opening' place' path (some generation) →
    CommitsAt settings world operations moment place →
    CommitsAt settings world operations moment' place' → moment = moment'
  /-- Between two successful commits of sessions that found no key, a deletion removed the key
  that the first one wrote, or one written since. -/
  removal : ∀ opening opening' place place' path moment moment',
    OpensAt settings world operations opening place path none →
    OpensAt settings world operations opening' place' path none →
    CommitsAt settings world operations moment place →
    CommitsAt settings world operations moment' place' → moment < moment' →
    ∃ deletion volume bucket key, moment < deletion ∧ deletion < moment' ∧
      operations[deletion]? = some (.deleteKey volume bucket key) ∧
      ((world.moment settings operations deletion).stored path).isSome ∧
      (world.moment settings operations (deletion + 1)).stored path = none

/-! ## Stored keys over time -/

/-- The counter of generations does not fall over a run. -/
theorem generation_le (sound : world.Sound)
    (counting : ∀ count, (world.moment settings operations count).Counting) {earlier later : Nat}
    (order : earlier ≤ later) :
    (world.moment settings operations earlier).service.nextGeneration ≤
      (world.moment settings operations later).service.nextGeneration := by
  apply moment_induction (fun now =>
    (world.moment settings operations earlier).service.nextGeneration ≤
      now.service.nextGeneration) order (UInt64.le_refl _)
  intro count operation _ next counted
  exact UInt64.le_trans counted ((sound.stepAt counting next).generation (counting (count + 1)))

/-- What stands at a later moment stood there before, or came at a generation given out since. -/
theorem stored_since (sound : world.Sound)
    (counting : ∀ count, (world.moment settings operations count).Counting) (path : String)
    {earlier later : Nat} (order : earlier ≤ later) {stored : Stored}
    (stands : (world.moment settings operations later).stored path = some stored) :
    (world.moment settings operations earlier).stored path = some stored ∨
      (world.moment settings operations earlier).service.nextGeneration ≤ stored.generation := by
  revert stored
  apply moment_induction (fun now => ∀ {stored}, now.stored path = some stored →
    (world.moment settings operations earlier).stored path = some stored ∨
      (world.moment settings operations earlier).service.nextGeneration ≤ stored.generation)
    order .inl
  intro count operation past next known stored there
  cases (sound.stepAt counting next).turn (counting (count + 1)) path with
  | kept same => exact known (same.symm.trans there)
  | removed _ gone => cases gone.symm.trans there
  | written other found fresh _ =>
      cases found.symm.trans there
      exact .inr (UInt64.le_trans (generation_le sound counting past) fresh)

/-- The same generation under a path is the same record, whatever happened in between. -/
theorem same_of_generation (sound : world.Sound)
    (counting : ∀ count, (world.moment settings operations count).Counting) {path : String}
    {earlier later : Nat} (order : earlier ≤ later) {first second : Stored}
    (before : (world.moment settings operations earlier).stored path = some first)
    (after : (world.moment settings operations later).stored path = some second)
    (same : first.generation = second.generation) : first = second := by
  rcases stored_since sound counting path order after with stood | fresh
  · exact Option.some.inj (before.symm.trans stood)
  · have below := (sound.moment counting earlier).below path first before
    rw [same] at below
    exact (UInt64.lt_irrefl _ (UInt64.lt_of_lt_of_le below fresh)).elim

/-- A key that is gone later was removed by a deletion in between. -/
theorem removed_between (sound : world.Sound)
    (counting : ∀ count, (world.moment settings operations count).Counting) {path : String}
    (earlier more : Nat) {first : Stored}
    (before : (world.moment settings operations earlier).stored path = some first)
    (after : (world.moment settings operations (earlier + more)).stored path = none) :
    ∃ moment volume bucket key, earlier ≤ moment ∧ moment < earlier + more ∧
      operations[moment]? = some (.deleteKey volume bucket key) ∧
      ((world.moment settings operations moment).stored path).isSome ∧
      (world.moment settings operations (moment + 1)).stored path = none := by
  induction more with
  | zero => cases before.symm.trans after
  | succ more ih =>
      cases there : (world.moment settings operations (earlier + more)).stored path with
      | none =>
          obtain ⟨moment, volume, bucket, key, least, most, rest⟩ := ih there
          exact ⟨moment, volume, bucket, key, least, Nat.lt_succ_of_lt most, rest⟩
      | some last =>
          cases next : operations[earlier + more]? with
          | none =>
              rw [← Nat.add_assoc, moment_succ_of_none next, there] at after
              cases after
          | some operation =>
              have step := sound.stepAt counting next
              cases step.turn (counting (earlier + more + 1)) path with
              | kept same => cases (same.symm.trans after).symm.trans there
              | removed deletes gone =>
                  obtain ⟨volume, bucket, key, rfl⟩ := deletes
                  exact ⟨earlier + more, volume, bucket, key, Nat.le_add_right ..,
                    Nat.lt_succ_self _, next, there ▸ rfl, gone⟩
              | written other found _ _ => cases found.symm.trans after

/-! ## Sessions over time -/

/-- The sessions of a place have the same path and found the same record. -/
theorem session_since (sound : world.Sound)
    (counting : ∀ count, (world.moment settings operations count).Counting)
    {opening place later : Nat} {path : String} {seen : Option UInt64}
    (opens : OpensAt settings world operations opening place path seen) (order : opening < later) :
    place < (world.moment settings operations later).sessions.length ∧
      ∀ session, (world.moment settings operations later).sessionAt place = some session →
        session.path = path ∧ session.previous.map (·.generation) = seen := by
  have first : place < (world.moment settings operations (opening + 1)).sessions.length ∧
      ∀ session, (world.moment settings operations (opening + 1)).sessionAt place =
        some session → session.path = path ∧ session.previous.map (·.generation) = seen := by
    obtain ⟨request, session, next, answered, samePath⟩ := opens.opens
    have step := sound.stepAt counting next
    rw [answered] at step
    obtain ⟨stands, beyond, found⟩ := step.of_opened
    rw [opens.place] at beyond found
    refine ⟨beyond, fun other there => ?_⟩
    cases found.symm.trans there
    refine ⟨samePath, ?_⟩
    have records := (sound.moment counting opening).records
    rw [stands.previous, records.generation_keyAt, samePath]
    exact opens.seen
  apply moment_induction (fun now => place < now.sessions.length ∧
    ∀ session, now.sessionAt place = some session →
      session.path = path ∧ session.previous.map (·.generation) = seen) order first
  rintro count operation _ next ⟨inside, known⟩
  obtain ⟨grows, goesOn⟩ := (sound.stepAt counting next).session
  refine ⟨Nat.lt_of_lt_of_le inside grows, fun session there => ?_⟩
  obtain ⟨old, found, samePath, samePrevious⟩ := goesOn place session inside there
  rw [samePath, samePrevious]
  exact known old found

/-- Sessions keep their places over a run. -/
theorem sessions_length_le (sound : world.Sound)
    (counting : ∀ count, (world.moment settings operations count).Counting) {earlier later : Nat}
    (order : earlier ≤ later) : (world.moment settings operations earlier).sessions.length ≤
      (world.moment settings operations later).sessions.length := by
  apply moment_induction (fun now =>
    (world.moment settings operations earlier).sessions.length ≤ now.sessions.length) order
    (Nat.le_refl _)
  intro count operation _ next shorter
  exact Nat.le_trans shorter (sound.stepAt counting next).session.1

/-- A session found what was seen of its path when it was opened. -/
theorem session_of_opensAt (sound : world.Sound)
    (counting : ∀ count, (world.moment settings operations count).Counting)
    {opening place moment : Nat} {path : String} {seen : Option UInt64}
    (opens : OpensAt settings world operations opening place path seen) {session : Session}
    (found : (world.moment settings operations moment).sessionAt place = some session) :
    session.path = path ∧ session.previous.map (·.generation) = seen := by
  have inside := lt_of_sessionAt found
  have after : opening < moment := by
    refine Nat.lt_of_not_le fun order => ?_
    have shorter := sessions_length_le sound counting order
    rw [opens.place] at shorter
    exact Nat.lt_irrefl _ (Nat.lt_of_lt_of_le inside shorter)
  exact (session_since sound counting opens after).2 session found

/-- The condition of a commit asks for what its session found. -/
theorem holds_iff {session : Session} (prepared : session.Sound) (current : Option Stored) :
    (Action.conditionOf session.key).Holds current ↔
      current.map (·.generation) = session.previous.map (·.generation) := by
  rw [Action.conditionOf, prepared.expected]
  cases session.previous with
  | none => exact Option.map_eq_none_iff.symm
  | some old => exact Iff.rfl

/-- The condition of a session holds if its path is as it found it. -/
theorem conditionHolds_iff {session : Session} (prepared : session.Sound) :
    world.ConditionHolds session ↔
      world.seen session.path = session.previous.map (·.generation) :=
  (Precondition.check_eq_ok_iff _ _ _).trans (holds_iff prepared _)

/-- A successful commit found what its session had seen, and leaves a fresh generation. -/
theorem seen_of_commitsAt (sound : world.Sound)
    (counting : ∀ count, (world.moment settings operations count).Counting)
    {opening place moment : Nat} {path : String} {seen : Option UInt64}
    (opens : OpensAt settings world operations opening place path seen)
    (commits : CommitsAt settings world operations moment place) :
    (world.moment settings operations moment).seen path = seen ∧ ∃ stored,
      (world.moment settings operations (moment + 1)).stored path = some stored ∧
      (world.moment settings operations moment).service.nextGeneration ≤ stored.generation := by
  obtain ⟨reported, size, options, commit, next, succeeds⟩ := commits
  have step := sound.stepAt counting next
  obtain ⟨session, stored, found, holds, stands, fresh⟩ :=
    step.of_keyCommitted (counting (moment + 1)) succeeds
  obtain ⟨samePath, samePrevious⟩ := session_of_opensAt sound counting opens found
  have prepared := ((sound.moment counting moment).sessions place session found).1
  have asSeen := (holds_iff prepared _).1 holds
  rw [samePath, samePrevious] at asSeen
  exact ⟨asSeen, stored, samePath ▸ stands, fresh⟩

/-- Two successful commits of sessions on one generation would be one after the other, and the
first one leaves another generation. -/
theorem not_commitsAt_later (sound : world.Sound)
    (counting : ∀ count, (world.moment settings operations count).Counting)
    {opening opening' place place' moment moment' : Nat} {path : String} {generation : UInt64}
    (opens : OpensAt settings world operations opening place path (some generation))
    (opens' : OpensAt settings world operations opening' place' path (some generation))
    (commits : CommitsAt settings world operations moment place)
    (commits' : CommitsAt settings world operations moment' place') : ¬ moment < moment' := by
  intro order
  obtain ⟨seen, stored, stands, fresh⟩ := seen_of_commitsAt sound counting opens commits
  obtain ⟨seen', -⟩ := seen_of_commitsAt sound counting opens' commits'
  obtain ⟨first, there, firstGeneration⟩ := Option.map_eq_some_iff.1 seen
  obtain ⟨second, later, secondGeneration⟩ := Option.map_eq_some_iff.1 seen'
  have below := (sound.moment counting moment).below path first there
  have between := (sound.moment counting (moment + 1)).below path stored stands
  have above : (world.moment settings operations moment).service.nextGeneration ≤
      second.generation := by
    rcases stored_since sound counting path order later with same | given
    · cases stands.symm.trans same
      exact fresh
    · exact UInt64.le_trans (UInt64.le_trans fresh (UInt64.le_of_lt between)) given
  rw [firstGeneration, ← secondGeneration] at below
  exact UInt64.lt_irrefl _ (UInt64.lt_of_lt_of_le below above)

/-- Whatever writers do and whatever fails, writers of the same key exclude each other, as long
as the counter of generations does not run out. -/
theorem optimistic_of_counting (settings : Settings) (allocator : Allocator) (clock : Clock)
    {outages : Outages} (faithful : outages.Faithful) (operations : List Operation)
    (counting : (start allocator clock outages).Throughout settings Counting operations) :
    Optimistic settings (start allocator clock outages) operations := by
  have sound := sound_start allocator clock faithful
  have always := counting.moment (counting_start allocator clock outages)
  constructor
  · intro earlier later path first second before after same
    rcases Nat.le_total earlier later with order | order
    · exact congrArg _ (same_of_generation sound always order before after same)
    · exact congrArg _ (same_of_generation sound always order after before same.symm).symm
  · intro opening place path seen moment session opens found
    obtain ⟨samePath, samePrevious⟩ := session_of_opensAt sound always opens found
    have prepared := ((sound.moment always moment).sessions place session found).1
    refine ⟨samePath, ?_⟩
    rw [conditionHolds_iff prepared, samePath, samePrevious]
  · intro moment place session found fails reported size options
    have step := (sound.moment always moment).step settings (.commitKey place reported size options)
    exact step.of_conflict found fun holds =>
      fails ((Precondition.check_eq_ok_iff _ _ _).2 holds)
  · intro opening opening' place place' path generation moment moment' opens opens' commits commits'
    have notBefore := not_commitsAt_later sound always opens opens' commits commits'
    have notAfter := not_commitsAt_later sound always opens' opens commits' commits
    exact Nat.le_antisymm (Nat.not_lt.1 notAfter) (Nat.not_lt.1 notBefore)
  · intro opening opening' place place' path moment moment' opens opens' commits commits' order
    obtain ⟨-, stored, stands, -⟩ := seen_of_commitsAt sound always opens commits
    obtain ⟨absent, -⟩ := seen_of_commitsAt sound always opens' commits'
    obtain ⟨more, rfl⟩ := Nat.exists_eq_add_of_le order
    obtain ⟨deletion, volume, bucket, key, least, most, rest⟩ :=
      removed_between sound always (moment + 1) more stands (Option.map_eq_none_iff.1 absent)
    exact ⟨deletion, volume, bucket, key, least, most, rest⟩

set_option maxRecDepth 20000 in
/-- Two writers of one key are kept apart. -/
theorem optimistic_twoWriters : Outages.never.Faithful ∧
    calm.Throughout {} Counting twoWriters ∧ Optimistic {} calm twoWriters := by
  have counting : calm.Throughout {} Counting twoWriters := by decide +kernel
  exact ⟨faithful_never, counting,
    optimistic_of_counting {} _ _ faithful_never twoWriters counting⟩

end ObjectLedger.World
