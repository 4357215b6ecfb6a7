import ObjectLedger.Proofs.Key.Made

/-! # Edits of a key

A key that was built changes by edits, one after the other (`KeyRecord.edited`). An edit checks
nothing that building checks, but whatever the edits are, the entries, versions and stamps of the
key stay regular, and the key stays in its bucket (`KeyRecord.Made.edited`,
`KeyRecord.edited_home`).
-/

namespace ObjectLedger

/-- A change of a key. -/
inductive KeyEdit where
  | setName (name : String)
  | setFileName (name : String)
  | setSize (size : UInt64)
  | setModified (time : UInt64)
  | setReplication (replication : Replication)
  | setEncryption (encryption : Option KeyEncryption)
  | setIsFile (isFile : Bool)
  | addLabel (label value : String)
  | removeLabel (label : String)
  | setTags (tags : Labels)
  | advance (generation : UInt64)
  | setExpected (generation : Option UInt64)
  | addAcl (acl : Acl)
  | removeAcl (acl : Acl)
  | setAcls (entries : List Acl)
  | appendBlocks (blocks : List Block) (time : Option UInt64)
  | addVersion (blocks : List Block) (time : Option UInt64) (keepOlder : Bool)
  | commit (reported : List Block) (options : CommitOptions)

namespace KeyRecord

/-- The key after an edit, unless the edit is refused or overflows. -/
def edit? (key : KeyRecord) : KeyEdit → Option KeyRecord
  | .setName name => some { key with name }
  | .setFileName name => some { key with fileName := name }
  | .setSize size => some { key with size }
  | .setModified time => some { key with modified := time }
  | .setReplication replication => some { key with replication }
  | .setEncryption encryption => some { key with encryption }
  | .setIsFile isFile => some { key with isFile }
  | .addLabel label value => some (key.addLabel label value)
  | .removeLabel label => some (key.removeLabel label).1
  | .setTags tags => some { key with tags }
  | .advance generation => (key.advanceGeneration generation).toOption
  | .setExpected generation => some { key with expected := generation }
  | .addAcl acl => some (key.addAcl acl).1
  | .removeAcl acl => some (key.removeAcl acl).1
  | .setAcls entries => some (key.setAcls entries).1
  | .appendBlocks blocks time => (key.appendBlocks blocks time).toOption
  | .addVersion blocks time keepOlder =>
    (key.addVersion blocks time keepOlder).toOption.map (·.1)
  | .commit reported options => (key.commit reported options).toOption.map (·.1)

/-- The key after some edits. One that is refused leaves the key as it is. -/
def edited (key : KeyRecord) (edits : List KeyEdit) : KeyRecord :=
  edits.foldl (fun key edit => (key.edit? edit).getD key) key

variable {key after : KeyRecord}

/-- Advancing the generation changes nothing else, where it succeeds. -/
theorem eq_of_advanceGeneration {generation : UInt64}
    (advanced : key.advanceGeneration generation = .ok after) :
    after = { key with generation } := by
  unfold advanceGeneration at advanced
  split at advanced
  · exact (Except.ok.inj advanced).symm
  · cases advanced

/-- What an edit makes of a made key is a made key. -/
theorem Made.edit (made : key.Made) {edit : KeyEdit} (edited : key.edit? edit = some after) :
    after.Made := by
  cases edit with
  | setName | setFileName | setSize | setModified | setReplication | setEncryption | setIsFile
  | addLabel | removeLabel | setTags | setExpected =>
      cases edited
      exact made.set rfl rfl
  | advance generation =>
      cases eq_of_advanceGeneration (toOption_eq_some_iff.1 edited)
      exact made.set rfl rfl
  | addAcl acl =>
      cases edited
      exact made.addAcl acl
  | removeAcl acl =>
      cases edited
      exact made.removeAcl acl
  | setAcls entries =>
      cases edited
      exact made.setAcls entries
  | appendBlocks blocks time => exact made.appendBlocks (toOption_eq_some_iff.1 edited)
  | addVersion blocks time keepOlder =>
      obtain ⟨result, added, rfl⟩ := Option.map_eq_some_iff.1 edited
      exact made.addVersion (toOption_eq_some_iff.1 added)
  | commit reported options =>
      obtain ⟨result, committed, rfl⟩ := Option.map_eq_some_iff.1 edited
      exact made.commit (toOption_eq_some_iff.1 committed)

/-- An edit keeps a key in its volume and bucket. -/
theorem edit_home {edit : KeyEdit} (edited : key.edit? edit = some after) :
    after.volume = key.volume ∧ after.bucket = key.bucket := by
  cases edit with
  | setName | setFileName | setSize | setModified | setReplication | setEncryption | setIsFile
  | addLabel | removeLabel | setTags | setExpected | addAcl | removeAcl | setAcls =>
      cases edited
      exact ⟨rfl, rfl⟩
  | advance generation =>
      rw [eq_of_advanceGeneration (toOption_eq_some_iff.1 edited)]
      exact ⟨rfl, rfl⟩
  | appendBlocks blocks time =>
      rw [eq_of_appendBlocks (toOption_eq_some_iff.1 edited)]
      exact ⟨rfl, rfl⟩
  | addVersion blocks time keepOlder =>
      obtain ⟨result, added, rfl⟩ := Option.map_eq_some_iff.1 edited
      rw [eq_of_addVersion (toOption_eq_some_iff.1 added)]
      exact ⟨rfl, rfl⟩
  | commit reported options =>
      obtain ⟨result, committed, rfl⟩ := Option.map_eq_some_iff.1 edited
      rw [eq_of_commit (toOption_eq_some_iff.1 committed)]
      exact ⟨rfl, rfl⟩

/-- What every edit that goes through keeps, some edits one after the other keep. -/
theorem edited_of_edit (holds : KeyRecord → Prop)
    (step : ∀ {key after : KeyRecord} {edit : KeyEdit}, holds key → key.edit? edit = some after →
      holds after) {key : KeyRecord} (start : holds key) (edits : List KeyEdit) :
    holds (key.edited edits) := by
  refine List.foldlRecOn edits _ start fun key kept edit _ => ?_
  cases made : key.edit? edit with
  | none => exact kept
  | some after => exact step kept made

theorem Made.edited (made : key.Made) (edits : List KeyEdit) : (key.edited edits).Made :=
  edited_of_edit Made (fun made edited => made.edit edited) made edits

/-- No edit moves a key to another bucket. -/
theorem edited_home (key : KeyRecord) (edits : List KeyEdit) :
    (key.edited edits).volume = key.volume ∧ (key.edited edits).bucket = key.bucket := by
  refine edited_of_edit (fun after => after.volume = key.volume ∧ after.bucket = key.bucket) ?_
    ⟨rfl, rfl⟩ edits
  intro before after edit same edited
  obtain ⟨volume, bucket⟩ := edit_home edited
  exact ⟨volume.trans same.1, bucket.trans same.2⟩

end KeyRecord

end ObjectLedger
