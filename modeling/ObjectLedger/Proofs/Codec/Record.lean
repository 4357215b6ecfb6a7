import ObjectLedger.Codec
import ObjectLedger.Proofs.Codec.Frame
import ObjectLedger.Proofs.Codec.Wire

/-! # Stored records read back

A record is well formed if building it from its own fields is allowed and changes nothing
(`KeyRecord.WellFormed`, `BucketRecord.WellFormed`). A well-formed bucket is read back from its
frame as it was (`BucketRecord.ofPersisted_of_persist`), and a well-formed key as it is stored:
without the placement of its blocks, and with the file name that its name ends in
(`KeyRecord.ofPersisted_of_persist`). Storing what was read writes the same bytes again
(`KeyRecord.persist_asStored`).
-/

namespace ObjectLedger

/-- The fields of an encoded frame are decoded from it. -/
theorem Codec.decode_of_encode {α : Type} {form : Form} {wire : Wire α} (lawful : wire.Lawful)
    {fields : α} {bytes : List UInt8} (encoded : encode form wire fields = .ok bytes) :
    decode form wire bytes = .ok fields := by
  have unwrapped := Frame.unwrap_append_of_wrap encoded []
  rw [List.append_nil] at unwrapped
  have short : (wire.put fields).length < UInt64.size :=
    Nat.lt_of_le_of_lt (Frame.length_le_of_wrap encoded) (by decide)
  have read := lawful.reads fields short []
  rw [List.append_nil] at read
  simp only [decode, unwrapped, bind, Except.bind, pure, Except.pure, ne_eq, not_true,
    ↓reduceIte, read]

/-- Reading members one after the other succeeds if each is read. -/
theorem mapM_eq_ok {α β ε : Type} {read : α → Except ε β} {result : α → β} (members : List α)
    (each : ∀ member ∈ members, read member = .ok (result member)) :
    members.mapM read = .ok (members.map result) := by
  induction members with
  | nil => rfl
  | cons member rest ih =>
      rw [List.mapM_cons, each member List.mem_cons_self,
        ih fun other later => each other (List.mem_cons_of_mem _ later)]
      rfl

/-- Granting to a subject without an entry adds one behind the others. -/
theorem AclSet.granting?_absent {acl : Acl} {entries : List Acl}
    (absent : acl.subject ∉ entries.map Acl.subject) :
    granting? acl entries = some (entries ++ [acl]) := by
  induction entries with
  | nil => rfl
  | cons entry rest ih =>
      rw [List.map_cons, List.mem_cons, not_or] at absent
      have other : entry.isEquivalent acl = false := by
        simpa [Acl.isEquivalent] using Ne.symm absent.1
      rw [granting?, other, if_neg Bool.false_ne_true, ih absent.2]
      rfl

/-- A set of distinct entries is the set of those entries. -/
theorem AclSet.ofList_entries {set : AclSet} (distinct : set.Distinct) :
    ofList set.entries = set := by
  have grows : ∀ (later earlier : List Acl), ((earlier ++ later).map Acl.subject).Nodup →
      later.foldl (fun (set : AclSet) acl => (set.add acl).1) ⟨earlier⟩ = ⟨earlier ++ later⟩ := by
    intro later
    induction later with
    | nil =>
        intro earlier _
        rw [List.foldl_nil, List.append_nil]
    | cons acl later ih =>
        intro earlier distinct
        have absent : acl.subject ∉ earlier.map Acl.subject := by
          rw [List.map_append, List.map_cons] at distinct
          intro member
          exact (List.nodup_append.1 distinct).2.2 _ member _ List.mem_cons_self rfl
        have added : (AclSet.add ⟨earlier⟩ acl).1 = ⟨earlier ++ [acl]⟩ := by
          simp only [AclSet.add, granting?_absent absent]
        rw [← List.singleton_append, ← List.append_assoc] at distinct
        rw [List.foldl_cons, added, ih _ distinct, List.append_assoc, List.singleton_append]
  exact grows set.entries [] distinct

/-- A history is accepted if its versions increase. -/
theorem Malformation.checkHistory_eq_ok_iff (history : List VersionGroup) :
    checkHistory history = .ok () ↔ history.Pairwise (fun earlier later =>
      earlier.version < later.version) := by
  induction history with
  | nil => simp [checkHistory]
  | cons earlier rest ih =>
      cases rest with
      | nil => simp [checkHistory]
      | cons later rest =>
          rw [checkHistory]
          split
          · rename_i above
            simp only [reduceCtorEq, false_iff]
            intro ascending
            have below := (List.pairwise_cons.1 ascending).1 later List.mem_cons_self
            exact UInt64.lt_irrefl _ (UInt64.lt_of_lt_of_le below above)
          · rename_i notAbove
            have below : earlier.version < later.version := UInt64.not_le.1 notAbove
            rw [ih]
            constructor
            · intro ascending
              refine List.pairwise_cons.2 ⟨fun group member => ?_, ascending⟩
              rcases List.mem_cons.1 member with rfl | deeper
              · exact below
              · exact UInt64.lt_trans below ((List.pairwise_cons.1 ascending).1 group deeper)
            · exact fun ascending => (List.pairwise_cons.1 ascending).2

namespace Block

/-- The block as its fields with or without placement show it. -/
def shown (placed : Bool) (block : Block) : Block :=
  if placed then block else block.withoutPipeline

/-- Hiding the placement of a block keeps its mark. -/
theorem version_shown (placed : Bool) (block : Block) :
    (block.shown placed).version = block.version := by
  cases placed <;> rfl

/-- A block is read back from its fields, without its placement where that is hidden. -/
theorem block_ofBlock (placed : Bool) (block : Block) :
    (BlockForm.ofBlock placed block).block = .ok (block.shown placed) := by
  cases placed <;> rfl

end Block

namespace VersionGroup

theorem withoutPipelines_withoutPipelines (group : VersionGroup) :
    group.withoutPipelines.withoutPipelines = group.withoutPipelines := by
  simp [withoutPipelines, Block.withoutPipeline]

/-- The group as its fields with or without placement show it. -/
def shown (placed : Bool) (group : VersionGroup) : VersionGroup :=
  { group with blocks := group.blocks.map (Block.shown placed) }

/-- A group that is shown with its placement is left as it is. -/
theorem shown_true (group : VersionGroup) : group.shown true = group := by
  have same : Block.shown true = id := rfl
  rw [shown, same, List.map_id]

/-- A stamped group is read back from its fields as they show it. -/
theorem group_ofGroup {group : VersionGroup} (stamped : group.Stamped) (placed : Bool) :
    (GroupForm.ofGroup placed group).group = .ok (group.shown placed) := by
  have blocks : (group.blocks.map (BlockForm.ofBlock placed)).mapM BlockForm.block =
      .ok (group.blocks.map (Block.shown placed)) := by
    rw [List.mapM_map]
    exact mapM_eq_ok group.blocks fun block _ => Block.block_ofBlock placed block
  have kept : (group.blocks.map (Block.shown placed)).map (Block.stamp group.version) =
      group.blocks.map (Block.shown placed) := by
    rw [List.map_map]
    refine List.map_congr_left fun block member => ?_
    rw [Function.comp_apply, Block.stamp, ← stamped block member, ← Block.version_shown placed]
  simp only [GroupForm.group, GroupForm.ofGroup, blocks, bind, Except.bind, pure, Except.pure,
    ofBlocks, kept, Option.getD_some, shown]

/-- A history of stamped groups is read back from its fields as they show it. -/
theorem mapM_group_ofGroup {history : List VersionGroup}
    (stamped : ∀ group ∈ history, group.Stamped) (placed : Bool) :
    (history.map (GroupForm.ofGroup placed)).mapM GroupForm.group =
      .ok (history.map (shown placed)) := by
  rw [List.mapM_map]
  exact mapM_eq_ok history fun group member => group_ofGroup (stamped group member) placed

/-- Hiding the placement of blocks keeps the order of the versions. -/
theorem ascending_shown {history : List VersionGroup} (placed : Bool)
    (ascending : history.Pairwise fun earlier later => earlier.version < later.version) :
    (history.map (shown placed)).Pairwise fun earlier later => earlier.version < later.version :=
  List.pairwise_map.2 ascending

end VersionGroup

namespace KeyRecord

/-- A key that building from its own fields allows and does not change. -/
structure WellFormed (key : KeyRecord) : Prop where
  volume : key.volume.isEmpty = false
  bucket : key.bucket.isEmpty = false
  name : key.name.isEmpty = false
  replication : key.replication.Usable
  acls : key.acls.Distinct
  ascending : key.history.Pairwise (fun earlier later => earlier.version < later.version)
  stamped : ∀ group ∈ key.history, group.Stamped

/-- The key as reading it back gives it: without the placement of its blocks, and with the file
name that its name ends in. -/
def asStored (key : KeyRecord) : KeyRecord :=
  { key with
    fileName := lastComponent key.name
    history := key.history.map VersionGroup.withoutPipelines }

/-- The fields of a key that are stored. -/
def storedForm (key : KeyRecord) : KeyForm :=
  .ofRecord key (key.history.map (GroupForm.ofGroup false))

/-- What storing leaves out is left out for good. -/
theorem asStored_asStored (key : KeyRecord) : key.asStored.asStored = key.asStored := by
  simp [asStored, VersionGroup.withoutPipelines_withoutPipelines]

/-- Leaving out the placement of blocks keeps a key well formed. -/
theorem WellFormed.asStored {key : KeyRecord} (wellFormed : key.WellFormed) :
    key.asStored.WellFormed where
  volume := wellFormed.volume
  bucket := wellFormed.bucket
  name := wellFormed.name
  replication := wellFormed.replication
  acls := wellFormed.acls
  ascending := List.pairwise_map.2 wellFormed.ascending
  stamped := by
    intro group member block inside
    obtain ⟨source, stored, rfl⟩ := List.mem_map.1 member
    obtain ⟨placed, written, rfl⟩ := List.mem_map.1 inside
    exact wellFormed.stamped source stored placed written

/-- The fields of a well-formed key build it with the file name that its name ends in, and with
its groups as the fields show them. -/
theorem record_ofRecord {key : KeyRecord} (wellFormed : key.WellFormed) (placed : Bool)
    (now : UInt64) :
    (KeyForm.ofRecord key (key.history.map (GroupForm.ofGroup placed))).record now =
      .ok { key with
        fileName := lastComponent key.name
        history := key.history.map (VersionGroup.shown placed) } := by
  have groups := VersionGroup.mapM_group_ofGroup wellFormed.stamped placed
  have increasing : Malformation.checkHistory (key.history.map (VersionGroup.shown placed)) =
      .ok () :=
    (Malformation.checkHistory_eq_ok_iff _).2
      (VersionGroup.ascending_shown placed wellFormed.ascending)
  have usable : key.replication.validate = .ok () := wellFormed.replication
  simp only [KeyForm.record, KeyForm.ofRecord, groups, KeyDraft.build,
    Malformation.required, wellFormed.volume, wellFormed.bucket, wellFormed.name, increasing,
    Malformation.checkReplication, usable, bind, Except.bind, pure, Except.pure,
    Option.map_some, Option.getD_some, Bool.false_eq_true, ↓reduceIte,
    AclSet.ofList_entries wellFormed.acls]

/-- The fields that are stored do not depend on what storing leaves out. -/
theorem storedForm_asStored (key : KeyRecord) : key.asStored.storedForm = key.storedForm := by
  have group : GroupForm.ofGroup false ∘ VersionGroup.withoutPipelines =
      GroupForm.ofGroup false := by
    funext group
    simp only [Function.comp_apply, GroupForm.ofGroup, VersionGroup.withoutPipelines,
      List.map_map]
    rfl
  simp only [storedForm, asStored, List.map_map, group]
  rfl

/-- Storing a key as it was read writes the same bytes as before. -/
theorem persist_asStored (key : KeyRecord) : key.asStored.persist = key.persist :=
  congrArg (Codec.encode .persistedKey Wire.keyForm) key.storedForm_asStored

/-- The form of keys reads back every key whose bytes can be counted. -/
theorem lawful_keyForm : Wire.keyForm.Lawful := by
  open Wire in
  exact (lawful_text.optional.pair <| lawful_text.optional.pair <| lawful_text.optional.pair <|
    lawful_word.optional.pair <| lawful_word.optional.pair <| lawful_word.optional.pair <|
    lawful_replication.optional.pair <| lawful_keyEncryption.optional.pair <|
    lawful_checksum.optional.pair <| lawful_truth.optional.pair <| lawful_text.optional.pair <|
    lawful_acl.list.pair <| lawful_text.dictionary.pair <| lawful_text.dictionary.pair <|
    lawful_word.optional.pair <| lawful_word.optional.pair <| lawful_word.optional.pair <|
    lawful_word.optional.pair <| lawful_groupForm.list.pair lawful_signed.optional).map
      fun _ => rfl

/-- A well-formed key is read back from its frame as it is stored. -/
theorem ofPersisted_of_persist {key : KeyRecord} (wellFormed : key.WellFormed)
    {bytes : List UInt8} (persisted : key.persist = .ok bytes) (now : UInt64) :
    ofPersisted bytes now = .ok key.asStored := by
  have decoded := Codec.decode_of_encode lawful_keyForm persisted
  simp only [ofPersisted, decoded, bind, Except.bind]
  change ((key.storedForm.record now).mapError _) = _
  rw [storedForm, record_ofRecord wellFormed]
  rfl

end KeyRecord

namespace BucketRecord

/-- A bucket that building from its own fields allows and does not change. -/
structure WellFormed (bucket : BucketRecord) : Prop where
  volume : bucket.volume.isEmpty = false
  name : bucket.name.isEmpty = false
  acls : bucket.acls.Distinct
  replication : ∀ replication, bucket.defaultReplication = some replication → replication.Usable

theorem lawful_bucketForm : Wire.bucketForm.Lawful := by
  open Wire in
  exact (lawful_text.optional.pair <| lawful_text.optional.pair <| lawful_acl.list.pair <|
    lawful_truth.optional.pair <| lawful_medium.optional.pair <| lawful_layout.optional.pair <|
    lawful_word.optional.pair <| lawful_word.optional.pair <| lawful_signed.optional.pair <|
    lawful_signed.optional.pair <| lawful_signed.optional.pair <| lawful_signed.optional.pair <|
    lawful_replication.optional.pair <| lawful_bucketEncryption.optional.pair <|
    lawful_text.optional.pair <| lawful_text.optional.pair <| lawful_text.optional.pair <|
    lawful_text.dictionary.pair <| lawful_word.optional.pair lawful_word.optional).map
      fun _ => rfl

/-- The fields of a well-formed bucket build it. -/
theorem record_ofRecord {bucket : BucketRecord} (wellFormed : bucket.WellFormed) (now : UInt64) :
    (BucketForm.ofRecord bucket).record now = .ok bucket := by
  have usable : bucket.defaultReplication.forM Malformation.checkReplication = .ok () := by
    cases given : bucket.defaultReplication with
    | none => rfl
    | some replication =>
        have passed : replication.validate = .ok () := wellFormed.replication replication given
        change Malformation.checkReplication replication = .ok ()
        rw [Malformation.checkReplication, passed]
  simp only [BucketForm.record, BucketForm.draft, BucketForm.ofRecord, BucketDraft.build,
    Malformation.named, wellFormed.volume, wellFormed.name, usable, bind, Except.bind, pure,
    Except.pure, Option.getD_some, Bool.false_eq_true, ↓reduceIte,
    AclSet.ofList_entries wellFormed.acls]

/-- A well-formed bucket is read back from its frame as it was, in either form. -/
theorem decode_of_encode {form : Form} {bucket : BucketRecord} (wellFormed : bucket.WellFormed)
    {bytes : List UInt8} (encoded : bucket.encode form = .ok bytes) (now : UInt64) :
    decode form bytes now = .ok bucket := by
  have decoded := Codec.decode_of_encode lawful_bucketForm encoded
  simp only [decode, decoded, bind, Except.bind, record_ofRecord wellFormed]
  rfl

/-- A well-formed bucket is read back from the frame that is stored of it. -/
theorem ofPersisted_of_persist {bucket : BucketRecord} (wellFormed : bucket.WellFormed)
    {bytes : List UInt8} (persisted : bucket.persist = .ok bytes) (now : UInt64) :
    ofPersisted bytes now = .ok bucket :=
  decode_of_encode wellFormed persisted now

/-- The bucket with its counters moved by deltas, at another update and time. -/
def moved (bucket : BucketRecord) (bytes keys : Int64) (updateId time : UInt64) : BucketRecord :=
  { bucket.charge bytes keys with updateId, modified := time }

/-- Moving the usage of a bucket keeps it well formed. -/
theorem WellFormed.moved {bucket : BucketRecord} (wellFormed : bucket.WellFormed)
    (bytes keys : Int64) (updateId time : UInt64) :
    (bucket.moved bytes keys updateId time).WellFormed where
  volume := wellFormed.volume
  name := wellFormed.name
  acls := wellFormed.acls
  replication := wellFormed.replication

/-- Moving the counters does not change how long the fields are. -/
theorem length_put_moved (bucket : BucketRecord) (bytes keys : Int64) (updateId time : UInt64) :
    (Wire.bucketForm.put (.ofRecord (bucket.moved bytes keys updateId time))).length =
      (Wire.bucketForm.put (.ofRecord bucket)).length := by
  have word : ∀ value, (Wire.word.put value).length = 8 := fun _ => Wire.length_littleEndian 8 _
  have signed : ∀ value, (Wire.signed.put value).length = 8 := fun _ => word _
  simp only [Wire.bucketForm, Wire.map, Wire.refine, Wire.pair, Wire.optional,
    BucketForm.ofRecord, moved, charge, List.length_append, word, signed]

/-- A bucket that has a frame still has one after its counters were moved. -/
theorem persist_moved {bucket : BucketRecord} {frame : List UInt8}
    (persisted : bucket.persist = .ok frame) (bytes keys : Int64) (updateId time : UInt64) :
    ∃ frame, (bucket.moved bytes keys updateId time).persist = .ok frame := by
  apply Frame.wrap_of_length_le
  rw [length_put_moved]
  exact Frame.length_le_of_wrap persisted

end BucketRecord

end ObjectLedger
