import ObjectLedger.Proofs.Key.Edit
import ObjectLedger.Proofs.Store.Isolation

/-! # What the store gives back

Writing a key checks nothing that edits can change, while reading checks what building does. A key
that was built and edited is read back as it is stored unless its name is empty or its replication
is unusable (`KeyRecord.Housed.ofPersisted_eq`). The store gives back exactly the keys without such
a defect; any other key that it accepts is neither read nor returned, although a deletion removes
it (`Records.givenBack_iff`).
-/

namespace ObjectLedger

namespace KeyRecord

variable {key : KeyRecord}

/-- What decoding finds wrong with the name and the replication of a key. -/
def defect? (key : KeyRecord) : Option Malformation :=
  if key.name.isEmpty then some (.empty "key name")
  else
    match key.replication.validate with
    | .ok () => none
    | .error cause => some (.replication cause)

/-- A key has no defect if its name is filled and its replication usable. -/
theorem defect?_eq_none_iff :
    key.defect? = none ↔ key.name.isEmpty = false ∧ key.replication.Usable := by
  unfold defect? Replication.Usable
  by_cases empty : key.name.isEmpty
  · simp [empty]
  · cases checked : key.replication.validate <;> simp [empty]

/-- A made key in a bucket whose volume and name are not empty. -/
structure Housed (key : KeyRecord) : Prop where
  made : key.Made
  volume : key.volume.isEmpty = false
  bucket : key.bucket.isEmpty = false

/-- The fields of a key with a defect build no key. -/
theorem Housed.record_of_defect (housed : key.Housed) {cause : Malformation}
    (defect : key.defect? = some cause) (now : UInt64) :
    key.storedForm.record now = .error cause := by
  have groups := VersionGroup.mapM_group_ofGroup housed.made.regular.stamped false
  -- Volume and bucket pass, so the first check to fail is that of the name or the replication.
  unfold defect? at defect
  by_cases empty : key.name.isEmpty
  · simp only [empty, ↓reduceIte, Option.some.injEq] at defect
    simp only [storedForm, KeyForm.record, KeyForm.ofRecord, groups, KeyDraft.build,
      Malformation.required, housed.volume, housed.bucket, empty, defect, bind, Except.bind,
      Bool.false_eq_true, ↓reduceIte]
  · cases checked : key.replication.validate with
    | ok passed =>
        simp only [empty, checked] at defect
        cases defect
    | error reason =>
        simp only [empty, checked, Bool.false_eq_true, ↓reduceIte, Option.some.injEq] at defect
        simp only [storedForm, KeyForm.record, KeyForm.ofRecord, groups, KeyDraft.build,
          Malformation.required, housed.volume, housed.bucket, empty,
          Malformation.checkReplication, checked, defect, bind, Except.bind, Bool.false_eq_true,
          ↓reduceIte]

/-- The frame of a key is decoded to the key as it is stored, or fails with the key's defect. -/
theorem Housed.ofPersisted_eq (housed : key.Housed) {bytes : List UInt8}
    (persisted : key.persist = .ok bytes) (now : UInt64) :
    ofPersisted bytes now =
      match key.defect? with
      | none => .ok key.asStored
      | some cause => .error (.malformed cause) := by
  cases found : key.defect? with
  | none =>
      obtain ⟨name, usable⟩ := defect?_eq_none_iff.1 found
      have wellFormed := housed.made.wellFormed housed.volume housed.bucket name usable
      exact ofPersisted_of_persist wellFormed persisted now
  | some cause =>
      have decoded := Codec.decode_of_encode lawful_keyForm persisted
      simp only [ofPersisted, decoded, bind, Except.bind]
      change (key.storedForm.record now).mapError _ = _
      rw [housed.record_of_defect found]
      rfl

/-- A key that was built, and edited any number of times. -/
def Obtained (key : KeyRecord) : Prop :=
  ∃ (first : KeyRecord) (edits : List KeyEdit), first.Built ∧ key = first.edited edits

/-- A key that is built is made, in a bucket with names. -/
theorem Built.housed (built : key.Built) : key.Housed where
  made := by
    obtain ⟨draft, now, groups, built⟩ := built
    exact .built groups built
  volume := built.wellFormed.volume
  bucket := built.wellFormed.bucket

/-- No edit of a built key takes its volume or bucket away. -/
theorem Obtained.housed (obtained : key.Obtained) : key.Housed := by
  obtain ⟨first, edits, built, rfl⟩ := obtained
  obtain ⟨volume, bucket⟩ := first.edited_home edits
  have housed := built.housed
  refine ⟨housed.made.edited edits, ?_, ?_⟩
  · rw [volume]
    exact housed.volume
  · rw [bucket]
    exact housed.bucket

end KeyRecord

namespace Records

variable {records after later : Records} {key : KeyRecord}

/-- The store reads a key as it is stored, and keeps it if a deletion is refused. -/
structure GivesBack (records : Records) (key : KeyRecord) : Prop where
  read : ∀ now, records.readKey now key.volume key.bucket key.name = .ok (some key.asStored)
  kept : ∀ now volume bucket name condition cause,
    (records.serve now (.deleteKey volume bucket name condition)).1 = .refused cause →
    (records.serve now (.deleteKey volume bucket name condition)).2.keys.get?
        (keyPath key.volume key.bucket key.name) =
      records.keys.get? (keyPath key.volume key.bucket key.name)

/-- The store reads no key for a defect, and removes what stands under its path although the
deletion is refused for the same defect. -/
structure Loses (records : Records) (key : KeyRecord) (cause : Malformation) : Prop where
  read : ∀ now, records.readKey now key.volume key.bucket key.name =
    .error (.codec (.malformed cause))
  removed : ∀ now condition,
    condition.Holds (records.keys.get? (keyPath key.volume key.bucket key.name)) →
    records.serve now (.deleteKey key.volume key.bucket key.name condition) =
      (.refused (.codec (.malformed cause)),
        records.dropKey (keyPath key.volume key.bucket key.name))

/-- A deletion whose condition holds removes what stands under its path before decoding it. -/
theorem serve_deleteKey_of_holds {volume bucket name : String} {condition : Precondition}
    (holds : condition.Holds (records.keys.get? (keyPath volume bucket name))) (now : UInt64) :
    records.serve now (.deleteKey volume bucket name condition) =
      (records.dropKey (keyPath volume bucket name)).respond
        ((records.keys.get? (keyPath volume bucket name)).mapM fun stored =>
          (KeyRecord.ofPersisted stored.bytes now).mapError StoreError.codec)
        fun found => (.key found, records.dropKey (keyPath volume bucket name)) := by
  have taken : records.takeKey volume bucket name condition =
      .ok (records.keys.get? (keyPath volume bucket name),
        records.dropKey (keyPath volume bucket name)) :=
    takeKey_eq_ok_iff.2 ⟨holds, rfl, rfl⟩
  simp only [serve, taken, respond]

/-- A deletion whose condition does not hold changes nothing. -/
theorem serve_deleteKey_of_denied {volume bucket name : String} {condition : Precondition}
    (denied : ¬ condition.Holds (records.keys.get? (keyPath volume bucket name))) (now : UInt64) :
    (records.serve now (.deleteKey volume bucket name condition)).2 = records := by
  rw [serve]
  cases taken : records.takeKey volume bucket name condition with
  | error cause => rfl
  | ok result => exact absurd (takeKey_eq_ok_iff.1 taken).1 denied

/-- A deletion leaves what stands under other paths. -/
theorem get?_serve_deleteKey_of_ne {path volume bucket name : String}
    (other : path ≠ keyPath volume bucket name) (now : UInt64) (condition : Precondition) :
    (records.serve now (.deleteKey volume bucket name condition)).2.keys.get? path =
      records.keys.get? path := by
  simp only [serve]
  cases taken : records.takeKey volume bucket name condition with
  | error cause => rfl
  | ok result =>
      obtain ⟨removed, after⟩ := result
      obtain ⟨-, -, rfl⟩ := takeKey_eq_ok_iff.1 taken
      have spared : (records.dropKey (keyPath volume bucket name)).keys.get? path =
          records.keys.get? path := by
        rw [dropKey, Dictionary.get?_erase, if_neg other]
      dsimp only [respond]
      split
      · exact spared
      · exact spared

/-- A deletion that is refused leaves what stands under a path whose frame is decoded. -/
theorem get?_serve_deleteKey_of_decoded {path : String} {stored : Stored}
    (found : records.keys.get? path = some stored)
    (decoded : ∀ now, ∃ key, KeyRecord.ofPersisted stored.bytes now = .ok key) {now : UInt64}
    {volume bucket name : String} {condition : Precondition} {cause : StoreError}
    (refused : (records.serve now (.deleteKey volume bucket name condition)).1 = .refused cause) :
    (records.serve now (.deleteKey volume bucket name condition)).2.keys.get? path =
      records.keys.get? path := by
  by_cases here : path = keyPath volume bucket name
  · -- What is removed would be decoded, so only the condition can have refused the deletion.
    subst here
    obtain ⟨key, read⟩ := decoded now
    have denied : ¬ condition.Holds (records.keys.get? (keyPath volume bucket name)) := by
      intro holds
      rw [serve_deleteKey_of_holds holds, found, Option.mapM_some, read] at refused
      cases refused
    rw [serve_deleteKey_of_denied denied]
  · exact get?_serve_deleteKey_of_ne here now condition

/-- A key whose frame is decoded is given back. -/
theorem givesBack_of_decoded {stored : Stored}
    (found : records.keys.get? (keyPath key.volume key.bucket key.name) = some stored)
    (decoded : ∀ now, KeyRecord.ofPersisted stored.bytes now = .ok key.asStored) :
    records.GivesBack key where
  read now := by
    simp only [readKey, found, decoded]
    rfl
  kept now volume bucket name condition cause refused :=
    get?_serve_deleteKey_of_decoded found (fun now => ⟨_, decoded now⟩) refused

/-- A key whose frame is not decoded is lost. -/
theorem loses_of_malformed {stored : Stored} {cause : Malformation}
    (found : records.keys.get? (keyPath key.volume key.bucket key.name) = some stored)
    (failed : ∀ now, KeyRecord.ofPersisted stored.bytes now = .error (.malformed cause)) :
    records.Loses key cause where
  read now := by
    simp only [readKey, found, failed]
    rfl
  removed now condition holds := by
    rw [serve_deleteKey_of_holds holds, found, Option.mapM_some, failed]
    rfl

/-- A store that gives a key back does not lose it. -/
theorem GivesBack.not_loses (givesBack : records.GivesBack key) (cause : Malformation) :
    ¬ records.Loses key cause := by
  intro loses
  have read := (givesBack.read 0).symm.trans (loses.read 0)
  cases read

/-- A key that was obtained by building and edits, and then written, is given back exactly if its
name is not empty and its replication is usable; otherwise it is lost to its defect. This lasts as
long as nothing else is written under its path. -/
theorem givenBack_iff {condition : Precondition} (obtained : key.Obtained)
    (written : records.writeKey key condition = .ok after)
    (same : later.keys.get? (keyPath key.volume key.bucket key.name) =
      after.keys.get? (keyPath key.volume key.bucket key.name)) :
    (later.GivesBack key ↔ key.name.isEmpty = false ∧ key.replication.Usable) ∧
    ∀ cause, key.defect? = some cause → later.Loses key cause := by
  obtain ⟨bytes, persisted, -, rfl⟩ := writeKey_eq_ok_iff.1 written
  have found : later.keys.get? (keyPath key.volume key.bucket key.name) =
      some ⟨key.generation, bytes⟩ := by
    rw [same, putKey, Dictionary.get?_insert, if_pos rfl]
  have decoding := obtained.housed.ofPersisted_eq persisted
  have lost : ∀ cause, key.defect? = some cause → later.Loses key cause := by
    intro cause defect
    apply loses_of_malformed found
    intro now
    rw [decoding, defect]
  refine ⟨?_, lost⟩
  rw [← KeyRecord.defect?_eq_none_iff]
  constructor
  · intro givesBack
    apply Option.eq_none_iff_forall_ne_some.2
    intro cause defect
    exact givesBack.not_loses cause (lost cause defect)
  · intro sound
    apply givesBack_of_decoded found
    intro now
    rw [decoding, sound]

/-- A key with one version and another replication than it was built with. -/
def rewritten (factor : UInt8) : KeyRecord :=
  (keyOf "v" "b" "d/k").edited
    [.addVersion [Block.bare ⟨1, 1⟩] none true, .setReplication (.ratis factor)]

/-- The key with the other replication is obtained by edits. -/
theorem rewritten_obtained (factor : UInt8) : (rewritten factor).Obtained := by
  refine ⟨keyOf "v" "b" "d/k", _, ⟨draftOf "v" "b" "d/k", 0, ?_, rfl⟩, rfl⟩
  exact fun _ member => absurd member List.not_mem_nil

set_option maxRecDepth 20000 in
/-- A key with three copies is given back. -/
theorem givenBack_rewritten : ∃ after, empty.writeKey (rewritten 3) .absent = .ok after ∧
    after.GivesBack (rewritten 3) := by
  have accepted : ((empty.writeKey (rewritten 3) .absent).toOption).isSome = true := by
    decide +kernel
  obtain ⟨after, written⟩ := Option.isSome_iff_exists.1 accepted
  have written := toOption_eq_some_iff.1 written
  have sound : (rewritten 3).name.isEmpty = false ∧ (rewritten 3).replication.Usable := by decide
  exact ⟨after, written, (givenBack_iff (rewritten_obtained 3) written rfl).1.2 sound⟩

set_option maxRecDepth 20000 in
/-- A key with a replication that no blocks can be laid out by is accepted, but not read, and a
deletion that is refused has removed it. -/
theorem not_givenBack : (rewritten 2).Obtained ∧
    (empty.serveAll
      [(1, .writeKey (rewritten 2) .absent), (2, .readKey "v" "b" "d/k"),
        (3, .listKeys "v" "b" ""), (4, .deleteKey "v" "b" "d/k" .unconditional),
        (5, .listKeys "v" "b" "")]).1 =
      [.done, .refused (.codec (.malformed (.replication (.ratisFactor 2)))), .names ["d/k"],
        .refused (.codec (.malformed (.replication (.ratisFactor 2)))), .names []] := by
  refine ⟨rewritten_obtained 2, ?_⟩
  decide +kernel

end Records

end ObjectLedger
