import ObjectLedger.Proofs.Key.Made

/-! # Keys round trip

A key that can be made, with filled names and a usable replication, is read back from its frame if
its fields fit into one (`KeyRecord.read_of_made`). Nothing is lost but what the form leaves out:
a stored key loses the placement of its blocks, a sent key what it is cut by, and the file name is
the last component of the name either way. What is decoded can be made, too
(`KeyForm.made_of_record`).
-/

namespace ObjectLedger

/-! ## Decoded keys are made -/

/-- Reading members one after the other gives members that were read. -/
theorem exists_of_mapM_eq_ok {α β ε : Type} {read : α → Except ε β} {members : List α}
    {results : List β} (each : members.mapM read = .ok results) :
    ∀ result ∈ results, ∃ member ∈ members, read member = .ok result := by
  induction members generalizing results with
  | nil =>
      cases each
      exact fun result inside => absurd inside List.not_mem_nil
  | cons member rest ih =>
      rw [List.mapM_cons] at each
      obtain ⟨first, here, each⟩ := bind_eq_ok_iff.1 each
      obtain ⟨others, there, given⟩ := bind_eq_ok_iff.1 each
      cases given
      intro result inside
      rcases List.mem_cons.1 inside with rfl | later
      · exact ⟨member, List.mem_cons_self, here⟩
      · obtain ⟨source, among, found⟩ := ih there result later
        exact ⟨source, List.mem_cons_of_mem _ among, found⟩

/-- A group that is read from its fields is made: its version marks all of its blocks. -/
theorem GroupForm.made_of_group {form : GroupForm} {group : VersionGroup}
    (read : form.group = .ok group) : group.Made := by
  unfold GroupForm.group at read
  cases numbered : form.version with
  | none =>
      rw [numbered] at read
      cases read
  | some version =>
      rw [numbered] at read
      obtain ⟨blocks, _, given⟩ := bind_eq_ok_iff.1 read
      cases given
      exact .ofBlocks version blocks _

/-- Groups that are read from their fields are made. -/
theorem GroupForm.made_of_groups {forms : List GroupForm} {history : List VersionGroup}
    (groups : forms.mapM GroupForm.group = .ok history) : ∀ group ∈ history, group.Made := by
  intro group member
  obtain ⟨source, -, found⟩ := exists_of_mapM_eq_ok groups group member
  exact made_of_group found

/-- A key that is read from its fields is made, whatever the fields are. -/
theorem KeyForm.made_of_record {form : KeyForm} {now : UInt64} {key : KeyRecord}
    (read : form.record now = .ok key) : key.Made := by
  obtain ⟨history, groups, built⟩ := bind_eq_ok_iff.1 read
  exact .built (GroupForm.made_of_groups groups) built

namespace KeyRecord

/-! ## Keys that are sent -/

/-- The fields of a key that are sent. -/
def sentForm (key : KeyRecord) (options : SendOptions) : KeyForm :=
  { KeyForm.ofRecord key ((key.sentHistory options).map (GroupForm.ofGroup true)) with
    name := some (options.fullName.getD key.name)
    latest := some (announce key.latestVersion?) }

/-- The key as it is sent: under another name, or cut to its newest version. -/
def cutFor (key : KeyRecord) (options : SendOptions) : KeyRecord :=
  { key with name := options.fullName.getD key.name, history := key.sentHistory options }

/-- Only groups of the key are sent, in their order. -/
theorem sentHistory_sublist (key : KeyRecord) (options : SendOptions) :
    (key.sentHistory options).Sublist key.history := by
  unfold sentHistory latest?
  split
  · cases newest : key.history.getLast? with
    | none => exact List.nil_sublist _
    | some group => exact List.singleton_sublist.2 (List.mem_of_getLast? newest)
  · exact List.Sublist.refl _

/-- Cutting a history keeps its newest group. -/
theorem getLast?_sentHistory (key : KeyRecord) (options : SendOptions) :
    (key.sentHistory options).getLast? = key.latest? := by
  unfold sentHistory
  split
  · cases key.latest? with
    | none => rfl
    | some group => rfl
  · rfl

/-- A well-formed key stays so under another filled name and with fewer groups. -/
theorem WellFormed.cutFor {key : KeyRecord} (wellFormed : key.WellFormed) {options : SendOptions}
    (named : ∀ name, options.fullName = some name → name.isEmpty = false) :
    (key.cutFor options).WellFormed where
  volume := wellFormed.volume
  bucket := wellFormed.bucket
  name := by
    unfold KeyRecord.cutFor
    cases given : options.fullName with
    | none => exact wellFormed.name
    | some name => exact named name given
  replication := wellFormed.replication
  acls := wellFormed.acls
  ascending := wellFormed.ascending.sublist (key.sentHistory_sublist options)
  stamped group member := wellFormed.stamped group ((key.sentHistory_sublist options).subset member)

/-- The announced version is that of the last group that is sent. -/
theorem checkAnnounced_sentForm (key : KeyRecord) (options : SendOptions) :
    checkAnnounced (key.sentForm options) = .ok () := by
  have tail : ((key.sentForm options).history.getLast?.bind (·.version)) =
      key.latestVersion? := by
    change (((key.sentHistory options).map (GroupForm.ofGroup true)).getLast?.bind _) = _
    rw [List.getLast?_map, getLast?_sentHistory, latestVersion?]
    cases key.latest? <;> rfl
  unfold checkAnnounced
  rw [tail]
  exact if_pos rfl

/-- A well-formed key is read back from the frame that is sent with the placement of its
blocks, under the name and with the groups that were sent. -/
theorem ofSent_of_send {key : KeyRecord} (wellFormed : key.WellFormed) {options : SendOptions}
    (named : ∀ name, options.fullName = some name → name.isEmpty = false) {bytes : List UInt8}
    (sent : key.send options = .ok bytes) (now : UInt64) :
    ofSent bytes now = .ok { key.cutFor options with
      fileName := lastComponent (options.fullName.getD key.name) } := by
  have decoded : Codec.decode .networkKey Wire.keyForm bytes = .ok (key.sentForm options) :=
    Codec.decode_of_encode lawful_keyForm sent
  -- The announced version takes no part in building the record.
  have built : (key.sentForm options).record now = _ :=
    record_ofRecord (wellFormed.cutFor named) true now
  have placed : VersionGroup.shown true = id := funext VersionGroup.shown_true
  rw [placed, List.map_id] at built
  simp only [ofSent, decoded, bind, Except.bind, checkAnnounced_sentForm, built]
  rfl

/-! ## The round trip -/

/-- A made key is read back from its frame, stored or sent, but for what the form leaves out. -/
theorem read_of_made {key : KeyRecord} (made : key.Made) (volume : key.volume.isEmpty = false)
    (bucket : key.bucket.isEmpty = false) (name : key.name.isEmpty = false)
    (usable : key.replication.Usable) (options : SendOptions)
    (renamed : ∀ name, options.fullName = some name → name.isEmpty = false) (now : UInt64) :
    ((Wire.keyForm.put key.storedForm).length ≤ Frame.payloadLimit →
      ∃ bytes, key.persist = .ok bytes ∧
        ofPersisted bytes now = .ok { key with
          fileName := lastComponent key.name
          history := key.history.map VersionGroup.withoutPipelines }) ∧
    ((Wire.keyForm.put (key.sentForm options)).length ≤ Frame.payloadLimit →
      ∃ bytes, key.send options = .ok bytes ∧
        ofSent bytes now = .ok { key with
          name := options.fullName.getD key.name
          fileName := lastComponent (options.fullName.getD key.name)
          history := if options.latestOnly then key.latest?.toList else key.history }) := by
  have wellFormed := made.wellFormed volume bucket name usable
  constructor
  · intro fits
    obtain ⟨bytes, framed⟩ := Frame.wrap_of_length_le .persistedKey fits
    exact ⟨bytes, framed, ofPersisted_of_persist wellFormed framed now⟩
  · intro fits
    obtain ⟨bytes, framed⟩ := Frame.wrap_of_length_le .networkKey fits
    exact ⟨bytes, framed, ofSent_of_send wellFormed renamed framed now⟩

/-- A key of two versions, of which the newer one is placed. -/
def placed : KeyRecord where
  volume := "v"
  bucket := "b"
  name := "directory/k"
  fileName := ""
  owner := none
  size := 10
  created := 1
  modified := 2
  replication := .erasureCoded ⟨.reedSolomon, 3, 2, 4⟩
  encryption := none
  checksum := some (.composite .crc32c 512 0)
  isFile := true
  acls := ⟨[.user "u" .read]⟩
  metadata := .ofList [("label", "")]
  tags := .empty
  objectId := 3
  parentId := 0
  generation := 4
  expected := some 0
  history :=
    [.ofBlocks 0 [.bare ⟨1, 1⟩] false,
      .ofBlocks 1 [{ Block.bare ⟨1, 2⟩ with
        pipeline := some (.ledByFirst ⟨.replicate 16 0⟩ ["node"]) }] true]

/-- A placed key is read back stored, without its placement, and sent, renamed and cut. -/
theorem read_placed : ∃ stored sent,
    placed.persist = .ok stored ∧
      ofPersisted stored 9 = .ok { placed with
        fileName := "k", history := placed.history.map VersionGroup.withoutPipelines } ∧
    placed.send ⟨true, some "other"⟩ = .ok sent ∧
      ofSent sent 9 = .ok { placed with
        name := "other", fileName := "other", history := placed.latest?.toList } := by
  have made : placed.Made := by
    refine .built (fun group member => ?_) (show placed.toDraft.build 0 = .ok placed from rfl)
    rcases List.mem_cons.1 member with rfl | later
    · exact .ofBlocks _ _ _
    · cases List.mem_singleton.1 later
      exact .ofBlocks _ _ _
  have fits : (Wire.keyForm.put placed.storedForm).length ≤ Frame.payloadLimit ∧
      (Wire.keyForm.put (placed.sentForm ⟨true, some "other"⟩)).length ≤ Frame.payloadLimit := by
    decide +kernel
  have renamed : ∀ name, (⟨true, some "other"⟩ : SendOptions).fullName = some name →
      name.isEmpty = false := by
    rintro _ ⟨⟩
    decide
  have names : lastComponent placed.name = "k" ∧ lastComponent "other" = "other" := by
    decide +kernel
  obtain ⟨stored, sent⟩ := read_of_made made (by decide) (by decide) (by decide) (by decide)
    ⟨true, some "other"⟩ renamed 9
  obtain ⟨first, persisted, read⟩ := stored fits.1
  obtain ⟨second, framed, received⟩ := sent fits.2
  exact ⟨first, second, persisted, names.1 ▸ read, framed, names.2 ▸ received⟩

end KeyRecord

end ObjectLedger
