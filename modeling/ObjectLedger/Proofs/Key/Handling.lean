import ObjectLedger.Proofs.Codec.Decoded

/-! # The history of a key that is handled

A key is edited, copied, built anew, stored and read back, or sent and received
(`KeyRecord.handle`). The edits work on the list of groups in place, one change after the other
(`KeyStep.inPlace?`), and one that fails leaves the list as it found it
(`KeyRecord.run_inPlace`). What a step does to the history is told by `KeyStep.Treats`, and when
it fails by `KeyStep.Fails`; both hold of a key that was built and then handled in any way, and
its versions still increase and stamp their blocks (`KeyRecord.history_of_steps`).
-/

namespace ObjectLedger

/-! ## Copies -/

/-- The record of a draft, with nothing checked and with default values for what is missing. -/
def KeyDraft.assemble (draft : KeyDraft) (now : UInt64) : KeyRecord :=
  let created := draft.created.getD now
  { volume := draft.volume.getD ""
    bucket := draft.bucket.getD ""
    name := draft.name.getD ""
    fileName := draft.fileName.getD ""
    owner := draft.owner
    size := draft.size
    created
    modified := draft.modified.getD created
    replication := draft.replication.getD (.ratis 3)
    encryption := draft.encryption
    checksum := draft.checksum
    isFile := draft.isFile
    acls := .ofList draft.acls
    metadata := draft.metadata
    tags := draft.tags
    objectId := draft.objectId
    parentId := draft.parentId
    generation := draft.generation
    expected := draft.expected
    history := draft.history }

namespace KeyRecord

/-- The fields of a well-formed key build it again. -/
theorem WellFormed.build_toDraft {key : KeyRecord} (wellFormed : key.WellFormed) (now : UInt64) :
    key.toDraft.build now = .ok key := by
  have increasing : Malformation.checkHistory key.history = .ok () :=
    (Malformation.checkHistory_eq_ok_iff _).2 wellFormed.ascending
  have usable : key.replication.validate = .ok () := wellFormed.replication
  simp only [toDraft, KeyDraft.build, Malformation.required, wellFormed.volume, wellFormed.bucket,
    wellFormed.name, increasing, Malformation.checkReplication, usable, bind, Except.bind, pure,
    Except.pure, Option.getD_some, Bool.false_eq_true, ↓reduceIte,
    AclSet.ofList_entries wellFormed.acls]

/-- The copy of a well-formed key is the key. -/
theorem WellFormed.assemble_toDraft {key : KeyRecord} (wellFormed : key.WellFormed)
    (now : UInt64) : key.toDraft.assemble now = key := by
  simp only [toDraft, KeyDraft.assemble, Option.getD_some, AclSet.ofList_entries wellFormed.acls]

end KeyRecord

/-! ## Groups -/

namespace VersionGroup

/-- A group gives away its blocks under its own version. -/
theorem takeBlocks_own (group : VersionGroup) :
    group.takeBlocks group.version = .ok (group.blocks, { group with blocks := [] }) := by
  rw [takeBlocks, checkVersion, if_pos rfl]
  rfl

/-- A group takes blocks under its own version by appending them. -/
theorem addBlocks_own {group : VersionGroup} {version : UInt64} (own : version = group.version)
    (blocks : List Block) : group.addBlocks version blocks = .ok (group.append blocks) := by
  rw [addBlocks, checkVersion, if_pos own]
  rfl

/-- A group is followed by the one above it, unless its version is the largest word. -/
theorem next_eq (group : VersionGroup) (blocks : List Block) :
    group.next blocks = if group.version.toNat + 1 < UInt64.size
      then .ok (.ofBlocks (group.version + 1) blocks false) else .error .add := by
  rw [next, Word.add, show (1 : UInt64).toNat = 1 from rfl]
  split <;> rfl

end VersionGroup

/-! ## Steps -/

/-- What can be done to a key. -/
inductive KeyStep where
  | append (blocks : List Block) (time : Option UInt64)
  | addVersion (blocks : List Block) (time : Option UInt64) (keepOlder : Bool)
  | commit (reported : List Block) (options : CommitOptions)
  | copy (now : UInt64)
  /-- A key is built from the fields of this one. -/
  | rebuild (now : UInt64)
  /-- The key is stored and read back. -/
  | store (now : UInt64)
  /-- The key is sent and received. -/
  | send (options : KeyRecord.SendOptions) (now : UInt64)

/-- The answer of a step that goes through. -/
inductive KeyReply where
  | done
  | version (number : UInt64)
  | reconciled (outcome : Reconciliation)

/-- Why a step fails. -/
inductive KeyFault where
  | refused (cause : RecordError)
  | overflow (cause : Overflow)
  | malformed (cause : Malformation)
  | codec (cause : CodecError)

namespace KeyRecord

/-- The key after a step and the answer of the step, or why the step fails. -/
def handle (key : KeyRecord) : KeyStep → Except KeyFault (KeyRecord × KeyReply)
  | .append blocks time => do
    let after ← (key.appendBlocks blocks time).mapError .refused
    pure (after, .done)
  | .addVersion blocks time keepOlder => do
    let (after, number) ← (key.addVersion blocks time keepOlder).mapError .overflow
    pure (after, .version number)
  | .commit reported options => do
    let (after, outcome) ← (key.commit reported options).mapError .refused
    pure (after, .reconciled outcome)
  | .copy now => pure (key.toDraft.assemble now, .done)
  | .rebuild now => do
    let after ← (key.toDraft.build now).mapError .malformed
    pure (after, .done)
  | .store now => do
    let bytes ← key.persist.mapError .codec
    let after ← (ofPersisted bytes now).mapError .codec
    pure (after, .done)
  | .send options now => do
    let bytes ← (key.send options).mapError .codec
    let after ← (ofSent bytes now).mapError .codec
    pure (after, .done)

/-- The key after a step. One that fails leaves the key. -/
def perform (key : KeyRecord) (step : KeyStep) : KeyRecord :=
  match key.handle step with
  | .ok (after, _) => after
  | .error _ => key

/-- The key after some steps, whichever of them fail. -/
def performAll (key : KeyRecord) (steps : List KeyStep) : KeyRecord :=
  steps.foldl perform key

end KeyRecord

/-! ## Edits in place -/

/-- Changes of a list of groups, one after the other. A failure ends them and undoes none. -/
abbrev Editing := ExceptT KeyFault (StateM (List VersionGroup))

namespace Editing

variable {α β : Type}

/-- The answer of an edit of a list of groups, and the list that it leaves. -/
def on (edit : Editing α) (history : List VersionGroup) :
    Except KeyFault α × List VersionGroup :=
  edit.run.run history

/-- The newest group, if there is one. -/
def latest (name : String) : Editing VersionGroup := do
  match (← get).getLast? with
  | some group => pure group
  | none => throw (.refused (.noVersion name))

/-- The blocks go to the newest group, without which the edit fails. -/
def append (name : String) (blocks : List Block) : Editing KeyReply := do
  let group ← latest name
  modify (KeyRecord.replaceLatest · (group.append blocks))
  pure .done

/-- The group that follows the newest one, or the first one. -/
def next (blocks : List Block) : Editing VersionGroup := do
  match (← get).getLast? with
  | some group => MonadExcept.ofExcept ((group.next blocks).mapError .overflow)
  | none => pure (.ofBlocks 0 blocks false)

/-- The groups are dropped first, unless they are kept. -/
def addVersion (blocks : List Block) (keepOlder : Bool) : Editing KeyReply := do
  if keepOlder then pure () else set ([] : List VersionGroup)
  let group ← next blocks
  modify (· ++ [group])
  pure (.version group.version)

/-- The newest group is emptied, and filled again with the committed blocks. -/
def commit (name : String) (reported : List Block) (options : CommitOptions) :
    Editing KeyReply := do
  let group ← latest name
  let (allocated, emptied) ←
    MonadExcept.ofExcept ((group.takeBlocks group.version).mapError .refused)
  modify (KeyRecord.replaceLatest · emptied)
  let outcome : Reconciliation :=
    if options.unchecked then ⟨group.version, reported, [], []⟩
    else .ofReport name group.version allocated reported
  let filled ←
    MonadExcept.ofExcept ((emptied.addBlocks group.version outcome.committed).mapError .refused)
  let marked := { filled with multipart := options.multipart }
  modify (KeyRecord.replaceLatest · marked)
  pure (.reconciled { outcome with committed := marked.blocks })

/-- Looking at the history leaves it alone. -/
theorem on_get (history : List VersionGroup) :
    (get : Editing (List VersionGroup)).on history = (.ok history, history) := rfl

/-- Changing the history has no result but the history. -/
theorem on_modify (change : List VersionGroup → List VersionGroup) (history : List VersionGroup) :
    (modify change : Editing PUnit).on history = (.ok ⟨⟩, change history) := rfl

/-- Giving a value leaves the history alone. -/
theorem on_pure (value : α) (history : List VersionGroup) :
    (pure value : Editing α).on history = (.ok value, history) := rfl

/-- Failing leaves the history as it is by then. -/
theorem on_throw (fault : KeyFault) (history : List VersionGroup) :
    (throw fault : Editing α).on history = (.error fault, history) := rfl

/-- A result or a fault from outside leaves the history alone. -/
theorem on_ofExcept (result : Except KeyFault α) (history : List VersionGroup) :
    (MonadExcept.ofExcept result : Editing α).on history = (result, history) := by
  cases result <;> rfl

/-- A chain of edits goes on from the list that its first part leaves, if that goes through. -/
theorem on_bind (first : Editing α) (next : α → Editing β) (history : List VersionGroup) :
    (first >>= next).on history = match first.on history with
      | (.ok value, after) => (next value).on after
      | (.error cause, after) => (.error cause, after) := by
  change (ExceptT.bindCont next (first.run.run history).1).run (first.run.run history).2 = _
  unfold on
  generalize first.run.run history = result
  obtain ⟨_ | _, _⟩ := result <;> rfl

end Editing

/-- The changes that an edit makes to the groups of a key with a name. -/
def KeyStep.inPlace? (name : String) : KeyStep → Option (Editing KeyReply)
  | append blocks _ => some (Editing.append name blocks)
  | addVersion blocks _ keepOlder => some (Editing.addVersion blocks keepOlder)
  | commit reported options => some (Editing.commit name reported options)
  | copy _ | rebuild _ | store _ | send _ _ => none

namespace KeyRecord

/-- The answer of a step, and the history that it leaves. -/
def outcome (key : KeyRecord) (step : KeyStep) : Except KeyFault KeyReply × List VersionGroup :=
  ((key.handle step).map Prod.snd, (key.perform step).history)

/-- Appending in place comes to the outcome of appending. -/
theorem on_append (key : KeyRecord) (blocks : List Block) (time : Option UInt64) :
    (Editing.append key.name blocks).on key.history = key.outcome (.append blocks time) := by
  unfold outcome perform handle appendBlocks latest?
  cases newest : key.history.getLast? with
  | none =>
      simp only [Editing.append, Editing.latest, Editing.on_bind, Editing.on_get,
        Editing.on_throw, newest]
      rfl
  | some group =>
      simp only [Editing.append, Editing.latest, Editing.on_bind, Editing.on_get, Editing.on_pure,
        Editing.on_modify, newest]
      rfl

/-- Adding a version in place comes to the outcome of adding one. -/
theorem on_addVersion (key : KeyRecord) (blocks : List Block) (time : Option UInt64)
    (keepOlder : Bool) :
    (Editing.addVersion blocks keepOlder).on key.history =
      key.outcome (.addVersion blocks time keepOlder) := by
  cases keepOlder with
  | false => rfl
  | true =>
      unfold outcome perform handle KeyRecord.addVersion
      cases newest : key.history.getLast? with
      | none =>
          simp only [Editing.addVersion, if_true, Editing.next, Editing.on_bind, Editing.on_get,
            Editing.on_pure, Editing.on_modify, newest]
          rfl
      | some group =>
          cases follows : group.next blocks with
          | error cause =>
              simp only [Editing.addVersion, if_true, Editing.next, Editing.on_bind,
                Editing.on_get, Editing.on_ofExcept, newest, follows]
              rfl
          | ok next =>
              simp only [Editing.addVersion, if_true, Editing.next, Editing.on_bind,
                Editing.on_get, Editing.on_ofExcept, newest, follows]
              rfl

/-- Committing in place comes to the outcome of a commit. -/
theorem on_commit (key : KeyRecord) (reported : List Block) (options : CommitOptions) :
    (Editing.commit key.name reported options).on key.history =
      key.outcome (.commit reported options) := by
  unfold outcome perform handle KeyRecord.commit latest?
  cases newest : key.history.getLast? with
  | none =>
      simp only [Editing.commit, Editing.latest, Editing.on_bind, Editing.on_get,
        Editing.on_throw, newest]
      rfl
  | some group =>
      obtain ⟨older, history⟩ := List.getLast?_eq_some_iff.1 newest
      simp only [Editing.commit, Editing.latest, Editing.on_bind, Editing.on_get, Editing.on_pure,
        Editing.on_modify, Editing.on_ofExcept, history, List.getLast?_concat, mapError_ok,
        VersionGroup.takeBlocks_own, VersionGroup.addBlocks_own, replaceLatest_concat]
      rfl

/-- An edit that is made in place answers as the edit does, and leaves the history that the edit
leaves. -/
theorem on_inPlace (key : KeyRecord) {step : KeyStep} {edit : Editing KeyReply}
    (edits : step.inPlace? key.name = some edit) : edit.on key.history = key.outcome step := by
  cases step with
  | append blocks time =>
      cases edits
      exact on_append key blocks time
  | addVersion blocks time keepOlder =>
      cases edits
      exact on_addVersion key blocks time keepOlder
  | commit reported options =>
      cases edits
      exact on_commit key reported options
  | copy | rebuild | store | send => cases edits

end KeyRecord

/-! ## What a step does -/

namespace KeyStep

/-- When a step fails. -/
def Fails (key : KeyRecord) : KeyStep → Prop
  | append _ _ | commit _ _ => key.history = []
  | addVersion _ _ keepOlder =>
    keepOlder = true ∧ ∃ last, key.latest? = some last ∧ last.version.toNat + 1 = UInt64.size
  | copy _ | rebuild _ => False
  | store _ => Frame.payloadLimit < (Wire.keyForm.put key.storedForm).length
  | send options _ =>
    Frame.payloadLimit < (Wire.keyForm.put (key.sentForm options)).length ∨
      options.fullName = some ""

/-- What a step that goes through does to a history. -/
def Treats (before after : List VersionGroup) (reply : KeyReply) : KeyStep → Prop
  | append blocks _ => ∃ older last,
    before = older ++ [last] ∧ after = older ++ [last.append blocks]
  | addVersion blocks _ keepOlder => ∃ number,
    after = (if keepOlder then before else []) ++ [.ofBlocks number blocks false] ∧
      reply = .version number ∧
      (∀ last, keepOlder = true → before.getLast? = some last →
        number.toNat = last.version.toNat + 1) ∧
      (keepOlder = false ∨ before = [] → number = 0)
  | commit _ options => ∃ older last committed outcome,
    before = older ++ [last] ∧ after = older ++ [committed] ∧ committed.version = last.version ∧
      committed.multipart = options.multipart ∧ reply = .reconciled outcome ∧
      outcome.committed = committed.blocks
  | copy _ | rebuild _ => after = before
  | store _ => after = before.map VersionGroup.withoutPipelines
  | send options _ => after = if options.latestOnly then before.getLast?.toList else before

end KeyStep

namespace KeyRecord

/-- How a key takes a step. -/
structure Takes (key : KeyRecord) (step : KeyStep) : Prop where
  /-- A step that fails leaves the history. -/
  fails : step.Fails key → ∃ fault, key.outcome step = (.error fault, key.history)
  treats : ¬ step.Fails key → ∃ reply after,
    key.outcome step = (.ok reply, after) ∧ step.Treats key.history after reply
  /-- The same is left if the changes are made in place. -/
  inPlace : ∀ edit, step.inPlace? key.name = some edit → edit.on key.history = key.outcome step

variable {key after : KeyRecord} {step : KeyStep}

theorem WellFormed.regular (wellFormed : key.WellFormed) : key.Regular :=
  ⟨wellFormed.acls, wellFormed.ascending, wellFormed.stamped⟩

/-- A key stays well formed if its history changes into a regular one. -/
theorem WellFormed.of_regular (wellFormed : key.WellFormed) (regular : after.Regular)
    (same : after = { key with history := after.history, modified := after.modified }) :
    after.WellFormed where
  volume := same ▸ wellFormed.volume
  bucket := same ▸ wellFormed.bucket
  name := same ▸ wellFormed.name
  replication := same ▸ wellFormed.replication
  acls := regular.acls
  ascending := regular.ascending
  stamped := regular.stamped

/-- A step of a key either fails, or goes through and leaves another well-formed key. -/
structure Done (key : KeyRecord) (step : KeyStep) (after : KeyRecord) (reply : KeyReply) :
    Prop where
  handled : key.handle step = .ok (after, reply)
  treats : step.Treats key.history after.history reply
  wellFormed : after.WellFormed

/-- A step of a key fails if it has a reason to, or else goes through. -/
def Decides (key : KeyRecord) (step : KeyStep) : Prop :=
  (step.Fails key ∧ ∃ fault, key.handle step = .error fault) ∨
    (¬ step.Fails key ∧ ∃ after reply, key.Done step after reply)

/-- Blocks are appended to a key exactly if it has a version, and to its newest one. -/
theorem WellFormed.decides_append (wellFormed : key.WellFormed) (blocks : List Block)
    (time : Option UInt64) : key.Decides (.append blocks time) := by
  cases newest : key.latest? with
  | none =>
      refine .inl ⟨List.getLast?_eq_none_iff.1 newest, .refused (.noVersion key.name), ?_⟩
      rw [handle, appendBlocks, newest]
      rfl
  | some group =>
      obtain ⟨older, history⟩ := List.getLast?_eq_some_iff.1 newest
      have appended := appendBlocks_of_history history blocks time
      have filled : key.history ≠ [] := history ▸ List.concat_ne_nil group older
      have kept := wellFormed.of_regular (wellFormed.regular.appendBlocks appended) rfl
      refine .inr ⟨filled, _, .done, ?_, ⟨older, group, history, rfl⟩, kept⟩
      rw [handle, appended]
      rfl

/-- A commit fails exactly if there is no version, and otherwise replaces the newest one. -/
theorem WellFormed.decides_commit (wellFormed : key.WellFormed) (reported : List Block)
    (options : CommitOptions) : key.Decides (.commit reported options) := by
  cases newest : key.latest? with
  | none =>
      refine .inl ⟨List.getLast?_eq_none_iff.1 newest, .refused (.noVersion key.name), ?_⟩
      rw [handle, KeyRecord.commit, newest]
      rfl
  | some group =>
      obtain ⟨older, history⟩ := List.getLast?_eq_some_iff.1 newest
      have filled : key.history ≠ [] := history ▸ List.concat_ne_nil group older
      cases committed : key.commit reported options with
      | error cause =>
          rw [KeyRecord.commit, newest] at committed
          cases committed
      | ok result =>
          obtain ⟨after, outcome⟩ := result
          have handled : key.handle (.commit reported options) =
              .ok (after, .reconciled outcome) := by
            rw [handle, committed]
            rfl
          have regular := wellFormed.regular.commit committed
          rw [KeyRecord.commit, newest] at committed
          cases committed
          refine .inr ⟨filled, _, _, handled, ?_, wellFormed.of_regular regular rfl⟩
          refine ⟨older, group, .ofBlocks group.version _ options.multipart, _, history, ?_,
            rfl, rfl, rfl, rfl⟩
          rw [history, replaceLatest_concat]

/-- A new version of some number, above the kept history. -/
def withVersion (key : KeyRecord) (blocks : List Block) (time : Option UInt64) (keepOlder : Bool)
    (number : UInt64) : KeyRecord :=
  { key with history := (if keepOlder then key.history else []) ++
      [VersionGroup.ofBlocks number blocks false] }.touched time

/-- Whatever number a new version gets, the key that has it is well formed. -/
theorem WellFormed.decides_of_addVersion (wellFormed : key.WellFormed) {blocks : List Block}
    {time : Option UInt64} {keepOlder : Bool} (number : UInt64)
    (added : key.addVersion blocks time keepOlder =
      .ok (key.withVersion blocks time keepOlder number, number))
    (goes : ¬ (KeyStep.addVersion blocks time keepOlder).Fails key)
    (follows : ∀ last, keepOlder = true → key.history.getLast? = some last →
      number.toNat = last.version.toNat + 1)
    (starts : keepOlder = false ∨ key.history = [] → number = 0) :
    key.Decides (.addVersion blocks time keepOlder) := by
  have handled : key.handle (.addVersion blocks time keepOlder) =
      .ok (key.withVersion blocks time keepOlder number, .version number) := by
    rw [handle, added]
    rfl
  exact .inr ⟨goes, _, _, handled, ⟨number, rfl, rfl, follows, starts⟩,
    wellFormed.of_regular (wellFormed.regular.addVersion added) rfl⟩

/-- A version is added unless it would follow the last number. -/
theorem WellFormed.decides_addVersion (wellFormed : key.WellFormed) (blocks : List Block)
    (time : Option UInt64) (keepOlder : Bool) :
    key.Decides (.addVersion blocks time keepOlder) := by
  cases keepOlder with
  | false =>
      refine wellFormed.decides_of_addVersion 0 rfl ?_ ?_ fun _ => rfl
      · rintro ⟨never, -⟩
        cases never
      · intro last never
        cases never
  | true =>
      cases newest : key.history.getLast? with
      | none =>
          have empty := List.getLast?_eq_none_iff.1 newest
          refine wellFormed.decides_of_addVersion 0 ?_ ?_ ?_ fun _ => rfl
          · rw [KeyRecord.addVersion, if_pos rfl, newest]
            rfl
          · rintro ⟨-, last, found, -⟩
            cases newest.symm.trans found
          · intro last _ found
            cases newest.symm.trans found
      | some last =>
          by_cases small : last.version.toNat + 1 < UInt64.size
          · refine wellFormed.decides_of_addVersion (last.version + 1) ?_ ?_ ?_ ?_
            · rw [KeyRecord.addVersion, if_pos rfl, newest]
              dsimp only
              rw [VersionGroup.next_eq, if_pos small]
              rfl
            · rintro ⟨-, other, found, large⟩
              cases newest.symm.trans found
              exact absurd large (Nat.ne_of_lt small)
            · intro other _ found
              cases newest.symm.trans found
              rw [UInt64.toNat_add]
              exact Nat.mod_eq_of_lt small
            · rintro (never | empty)
              · cases never
              · rw [empty] at newest
                cases newest
          · have large : last.version.toNat + 1 = UInt64.size :=
              Nat.le_antisymm last.version.toNat_lt_size (Nat.le_of_not_lt small)
            refine .inl ⟨⟨rfl, last, newest, large⟩, .overflow .add, ?_⟩
            rw [handle, KeyRecord.addVersion, if_pos rfl, newest]
            dsimp only
            rw [VersionGroup.next_eq, if_neg small]
            rfl

/-- A key that fits a frame is stored with its history, but for the placement of its blocks. -/
theorem WellFormed.decides_store (wellFormed : key.WellFormed) (now : UInt64) :
    key.Decides (.store now) := by
  cases persisted : key.persist with
  | error cause =>
      refine .inl ⟨Frame.lt_length_of_wrap persisted, .codec cause, ?_⟩
      rw [handle, persisted]
      rfl
  | ok bytes =>
      have read := ofPersisted_of_persist wellFormed persisted now
      have handled : key.handle (.store now) = .ok (key.asStored, .done) := by
        simp only [handle, persisted, mapError_ok, bind, Except.bind, read]
        rfl
      have fits : ¬ (KeyStep.store now).Fails key :=
        Nat.not_lt_of_le (Frame.length_le_of_wrap persisted)
      exact .inr ⟨fits, key.asStored, .done, handled, rfl, wellFormed.asStored⟩

/-- A key that is sent without a name is not received. -/
theorem ofSent_of_unnamed (wellFormed : key.WellFormed) {options : SendOptions}
    (unnamed : options.fullName = some "") {bytes : List UInt8}
    (sent : key.send options = .ok bytes) (now : UInt64) :
    ofSent bytes now = .error (.malformed (.empty "key name")) := by
  have decoded : Codec.decode .networkKey Wire.keyForm bytes = .ok (key.sentForm options) :=
    Codec.decode_of_encode lawful_keyForm sent
  have stamped : ∀ group ∈ key.sentHistory options, group.Stamped := fun group member =>
    wellFormed.stamped group ((key.sentHistory_sublist options).subset member)
  have refused : (key.sentForm options).record now = .error (.empty "key name") := by
    simp only [KeyForm.record, sentForm, KeyForm.ofRecord, unnamed, Option.getD_some,
      VersionGroup.mapM_group_ofGroup stamped, KeyDraft.build, Malformation.required,
      wellFormed.volume, wellFormed.bucket, bind, Except.bind, Bool.false_eq_true, ↓reduceIte]
    rfl
  simp only [ofSent, decoded, bind, Except.bind, checkAnnounced_sentForm, refused]
  rfl

/-- A key that fits a frame is sent with its history, or with its newest version. -/
theorem WellFormed.decides_send (wellFormed : key.WellFormed) (options : SendOptions)
    (now : UInt64) : key.Decides (.send options now) := by
  cases sent : key.send options with
  | error cause =>
      refine .inl ⟨.inl (Frame.lt_length_of_wrap sent), .codec cause, ?_⟩
      rw [handle, sent]
      rfl
  | ok bytes =>
      have fits := Frame.length_le_of_wrap sent
      by_cases unnamed : options.fullName = some ""
      · refine .inl ⟨.inr unnamed, .codec (.malformed (.empty "key name")), ?_⟩
        simp only [handle, sent, mapError_ok, mapError_error, bind, Except.bind,
          ofSent_of_unnamed wellFormed unnamed sent]
      · have named : ∀ name, options.fullName = some name → name.isEmpty = false := by
          intro name given
          rw [← Bool.not_eq_true, String.isEmpty_iff]
          rintro rfl
          exact unnamed given
        have read := ofSent_of_send wellFormed named sent now
        have handled : key.handle (.send options now) = .ok ({ key.cutFor options with
            fileName := lastComponent (options.fullName.getD key.name) }, .done) := by
          simp only [handle, sent, mapError_ok, bind, Except.bind, read]
          rfl
        have goes : ¬ (KeyStep.send options now).Fails key := by
          rintro (long | empty)
          · exact Nat.not_lt_of_le fits long
          · exact unnamed empty
        exact .inr ⟨goes, _, .done, handled, rfl, (decoded_of_ofSent read).toWellFormed⟩

/-- Every step of a well-formed key comes to what it is decided to. -/
theorem WellFormed.decides (wellFormed : key.WellFormed) (step : KeyStep) : key.Decides step := by
  cases step with
  | append blocks time => exact wellFormed.decides_append blocks time
  | addVersion blocks time keepOlder => exact wellFormed.decides_addVersion blocks time keepOlder
  | commit reported options => exact wellFormed.decides_commit reported options
  | copy now =>
      have same : key.handle (.copy now) = .ok (key, .done) := by
        rw [handle, wellFormed.assemble_toDraft]
        rfl
      exact .inr ⟨id, key, .done, same, rfl, wellFormed⟩
  | rebuild now =>
      have same : key.handle (.rebuild now) = .ok (key, .done) := by
        rw [handle, wellFormed.build_toDraft]
        rfl
      exact .inr ⟨id, key, .done, same, rfl, wellFormed⟩
  | store now => exact wellFormed.decides_store now
  | send options now => exact wellFormed.decides_send options now

/-- Every step of a well-formed key takes the history that it should. -/
theorem WellFormed.takes (wellFormed : key.WellFormed) (step : KeyStep) : key.Takes step := by
  refine ⟨fun fails => ?_, fun holds => ?_, fun edit edits => key.on_inPlace edits⟩
  · rcases wellFormed.decides step with ⟨-, fault, failed⟩ | ⟨goes, -⟩
    · exact ⟨fault, by rw [outcome, perform, failed]; rfl⟩
    · exact absurd fails goes
  · rcases wellFormed.decides step with ⟨fails, -⟩ | ⟨-, after, reply, done⟩
    · exact absurd fails holds
    · exact ⟨reply, after.history, by rw [outcome, perform, done.handled]; rfl, done.treats⟩

/-- No step makes a key ill formed. -/
theorem WellFormed.perform (wellFormed : key.WellFormed) (step : KeyStep) :
    (key.perform step).WellFormed := by
  unfold KeyRecord.perform
  rcases wellFormed.decides step with ⟨-, fault, failed⟩ | ⟨-, after, reply, done⟩
  · rw [failed]
    exact wellFormed
  · rw [done.handled]
    exact done.wellFormed

/-- No steps make a key ill formed. -/
theorem WellFormed.performAll (wellFormed : key.WellFormed) (steps : List KeyStep) :
    (key.performAll steps).WellFormed :=
  List.foldlRecOn steps _ wellFormed fun _ kept step _ => kept.perform step

/-- However a key that was built is handled, its versions increase and stamp their blocks, and it
takes any further step as that step says. -/
theorem history_of_steps {draft : KeyDraft} {now : UInt64} {first : KeyRecord}
    (groups : ∀ group ∈ draft.history, group.Made) (built : draft.build now = .ok first)
    (steps : List KeyStep) :
    let key := first.performAll steps
    key.history.Pairwise (fun earlier later => earlier.version < later.version) ∧
      (∀ group ∈ key.history, ∀ block ∈ group.blocks, block.version = group.version) ∧
      ∀ step, key.Takes step := by
  have wellFormed : first.WellFormed :=
    (KeyDraft.build_eq_ok (fun group member => (groups group member).stamped) built).1
  have kept := wellFormed.performAll steps
  exact ⟨kept.ascending, kept.stamped, kept.takes⟩

end KeyRecord

/-- A draft with the last version but one. -/
def KeyDraft.late : KeyDraft :=
  { volume := some "v", bucket := some "b", name := some "k", replication := some (.ratis 3)
    history := [.ofBlocks 0xfffffffffffffffe [.bare ⟨1, 1⟩] false] }

/-- Steps of which the second new version overflows. -/
def KeyStep.late : List KeyStep :=
  [addVersion [.bare ⟨1, 2⟩] none true, addVersion [.bare ⟨1, 3⟩] (some 8) true,
    append [.bare ⟨1, 4⟩] none, commit [.bare ⟨1, 4⟩, .bare ⟨1, 5⟩] {}, store 9, copy 9]

set_option maxRecDepth 20000 in
/-- Versions stop at the last number: another one is refused, and the history stays. -/
theorem KeyRecord.history_of_late : ∃ first, KeyDraft.late.build 7 = .ok first ∧
    (first.performAll KeyStep.late).history.map (fun group =>
      (group.version, group.blocks.map fun block => (block.id, block.version))) =
      [(0xfffffffffffffffe, [(⟨1, 1⟩, 0xfffffffffffffffe)]),
        (0xffffffffffffffff, [(⟨1, 4⟩, 0xffffffffffffffff)])] ∧
    (first.performAll KeyStep.late).Takes (.addVersion [] none true) := by
  have groups : ∀ group ∈ KeyDraft.late.history, group.Made := by
    intro group member
    cases List.mem_singleton.1 member
    exact .ofBlocks _ _ _
  have run := history_of_steps groups (show KeyDraft.late.build 7 = .ok _ from rfl) KeyStep.late
  exact ⟨_, rfl, by decide +kernel, run.2.2 _⟩

end ObjectLedger
