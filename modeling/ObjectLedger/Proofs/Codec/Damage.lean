import ObjectLedger.Proofs.Codec.Crc32
import ObjectLedger.Proofs.Codec.RoundTrip

/-! # Damaged records are rejected

A decoder accepts nothing but a whole frame of its form. No frame begins another one, and two frames
of the same form do not differ in one byte alone: a change in the payload changes the check value as
well, and a change in the header alone leaves a payload that the header does not fit. An encoded
record that is cut, extended or changed in one byte is therefore rejected before its fields are read
(`Form.damage_rejected`), and so is a record of another form.
-/

namespace ObjectLedger

namespace Frame

/-- The ways in which bytes are damaged: some at the end are lost, some follow that do not belong
to them, or one is replaced by another. -/
inductive Damaged : List UInt8 → List UInt8 → Prop
  | cut {front lost : List UInt8} (shorter : lost ≠ []) : Damaged (front ++ lost) front
  | extended {bytes more : List UInt8} (longer : more ≠ []) : Damaged bytes (bytes ++ more)
  | altered {front back : List UInt8} {old new : UInt8} (differs : new ≠ old) :
      Damaged (front ++ old :: back) (front ++ new :: back)

variable {form : Form} {payload : List UInt8} {bytes : List UInt8}

/-- Frames that differ in one byte alone do not exist. -/
theorem eq_of_wrap_altered {payload' front back : List UInt8} {old new : UInt8}
    (framed : wrap form payload = .ok (front ++ old :: back))
    (framed' : wrap form payload' = .ok (front ++ new :: back)) : old = new := by
  obtain ⟨-, whole⟩ := wrap_eq_ok_iff.1 framed
  obtain ⟨-, whole'⟩ := wrap_eq_ok_iff.1 framed'
  have size : ∀ payload, (header form payload).length = headerSize := length_header form
  rcases Nat.lt_or_ge front.length headerSize with inside | beyond
  · -- The payload is the same, so the header is.
    have behind : ∀ (byte : UInt8) (payload : List UInt8),
        front ++ byte :: back = header form payload ++ payload →
          payload = back.drop (headerSize - front.length - 1) := by
      intro byte payload whole
      have dropped := congrArg (List.drop headerSize) whole
      rw [List.drop_left' (size payload)] at dropped
      rw [← dropped, List.drop_append, List.drop_eq_nil_of_le (Nat.le_of_lt inside),
        List.nil_append,
        show headerSize - front.length = headerSize - front.length - 1 + 1 by omega,
        List.drop_succ_cons, Nat.add_sub_cancel]
    rw [behind old payload whole] at whole
    rw [behind new payload' whole'] at whole'
    exact (List.cons.inj (List.append_cancel_left (whole.trans whole'.symm))).1
  · -- The header is the same, so the check value is.
    obtain ⟨rest, rfl⟩ : ∃ rest, front = header form payload ++ rest := by
      have taken := congrArg (List.take headerSize) whole
      rw [List.take_left' (size payload), List.take_append_of_le_length beyond] at taken
      exact ⟨front.drop headerSize, by rw [← taken, List.take_append_drop]⟩
    rw [List.append_assoc] at whole whole'
    obtain ⟨headers, behind'⟩ := header_append_inj whole'
    have behind := List.append_cancel_left whole
    have equal := check_inj headers
    rw [← behind, ← behind'] at equal
    exact Crc32.eq_of_ofBytes equal

/-- Damage to a frame does not make another frame of the same form. -/
theorem Damaged.unframed {damaged : List UInt8} (damage : Damaged bytes damaged)
    (framed : wrap form payload = .ok bytes) (payload' : List UInt8) :
    wrap form payload' ≠ .ok damaged := by
  intro framed'
  cases damage with
  | @cut _ lost shorter =>
      have same : damaged ++ lost = (damaged ++ lost) ++ [] := (List.append_nil _).symm
      exact shorter (wrap_inj framed' framed same).2.2
  | @extended _ more longer =>
      have same : bytes ++ more = (bytes ++ more) ++ [] := (List.append_nil _).symm
      exact longer (wrap_inj framed framed' same).2.2
  | altered differs => exact differs (eq_of_wrap_altered framed framed').symm

end Frame

/-- An error that tells of the frame, and not of the fields in it. -/
def CodecError.OfFrame : CodecError → Prop
  | .framing _ | .tooLarge _ | .damaged _ _ | .otherForm _ _ => True
  | .unreadable | .malformed _ => False

/-- Every error of taking a frame off is an error of the frame. -/
theorem Frame.ofFrame_of_unwrap {form : Form} {bytes : List UInt8} {cause : CodecError}
    (failed : unwrap form bytes = .error cause) : cause.OfFrame := by
  unfold unwrap at failed
  split at failed
  · dsimp only at failed
    repeat' split at failed
    all_goals cases failed
    all_goals trivial
  · cases failed
    trivial

/-- What is no frame of a form is not decoded, whatever fields are looked for. -/
theorem Codec.decode_of_unframed {α : Type} {form : Form} (wire : Wire α) {bytes : List UInt8}
    (unframed : ∀ payload, Frame.wrap form payload ≠ .ok bytes) :
    ∃ cause, cause.OfFrame ∧ decode form wire bytes = .error cause := by
  cases read : Frame.unwrap form bytes with
  | error cause =>
      refine ⟨cause, Frame.ofFrame_of_unwrap read, ?_⟩
      rw [decode, read]
      rfl
  | ok result =>
      obtain ⟨payload, size⟩ := result
      obtain ⟨frame, rest, framed, sized, whole⟩ := Frame.wrap_of_unwrap read
      have longer : size ≠ bytes.length := by
        rintro rfl
        rw [whole, List.length_append] at sized
        have none : rest = [] := List.length_eq_zero_iff.1 (by omega)
        rw [none, List.append_nil] at whole
        exact unframed payload (whole ▸ framed)
      refine ⟨.framing (.trailing (bytes.length - size)), trivial, ?_⟩
      simp only [decode, read, bind, Except.bind, ne_eq, longer, not_false_eq_true, ↓reduceIte]
      rfl

namespace Form

/-- What the decoder of a form answers. -/
def read (form : Form) (bytes : List UInt8) (now : UInt64) :
    Except CodecError (KeyRecord ⊕ BucketRecord) :=
  match form with
  | .persistedKey => .inl <$> KeyRecord.ofPersisted bytes now
  | .networkKey => .inl <$> KeyRecord.ofSent bytes now
  | .persistedBucket => .inr <$> BucketRecord.ofPersisted bytes now
  | .networkBucket => .inr <$> BucketRecord.ofSent bytes now

/-- The bytes that records are encoded to in a form. -/
inductive Encodes : Form → List UInt8 → Prop
  | persistedKey {key : KeyRecord} {bytes : List UInt8} (encoded : key.persist = .ok bytes) :
      Encodes .persistedKey bytes
  | networkKey {key : KeyRecord} {options : KeyRecord.SendOptions} {bytes : List UInt8}
      (encoded : key.send options = .ok bytes) : Encodes .networkKey bytes
  | persistedBucket {bucket : BucketRecord} {bytes : List UInt8}
      (encoded : bucket.persist = .ok bytes) : Encodes .persistedBucket bytes
  | networkBucket {bucket : BucketRecord} {bytes : List UInt8}
      (encoded : bucket.send = .ok bytes) : Encodes .networkBucket bytes

variable {form : Form} {bytes : List UInt8}

/-- What encodes a record of a form is a frame of that form. -/
theorem Encodes.framed (encodes : form.Encodes bytes) :
    ∃ payload, Frame.wrap form payload = .ok bytes := by
  cases encodes with
  | persistedKey encoded => exact ⟨_, encoded⟩
  | networkKey encoded => exact ⟨_, encoded⟩
  | persistedBucket encoded => exact ⟨_, encoded⟩
  | networkBucket encoded => exact ⟨_, encoded⟩

/-- A decoder rejects what is no frame of its form, and does not look into it. -/
theorem read_of_unframed (unframed : ∀ payload, Frame.wrap form payload ≠ .ok bytes)
    (now : UInt64) : ∃ cause, cause.OfFrame ∧ form.read bytes now = .error cause := by
  cases form with
  | persistedKey =>
      obtain ⟨cause, ofFrame, failed⟩ := Codec.decode_of_unframed Wire.keyForm unframed
      refine ⟨cause, ofFrame, ?_⟩
      rw [read, KeyRecord.ofPersisted, failed]
      rfl
  | networkKey =>
      obtain ⟨cause, ofFrame, failed⟩ := Codec.decode_of_unframed Wire.keyForm unframed
      refine ⟨cause, ofFrame, ?_⟩
      rw [read, KeyRecord.ofSent, failed]
      rfl
  | persistedBucket =>
      obtain ⟨cause, ofFrame, failed⟩ := Codec.decode_of_unframed Wire.bucketForm unframed
      refine ⟨cause, ofFrame, ?_⟩
      rw [read, BucketRecord.ofPersisted, BucketRecord.decode, failed]
      rfl
  | networkBucket =>
      obtain ⟨cause, ofFrame, failed⟩ := Codec.decode_of_unframed Wire.bucketForm unframed
      refine ⟨cause, ofFrame, ?_⟩
      rw [read, BucketRecord.ofSent, BucketRecord.decode, failed]
      rfl

/-- What is wrong with the fields of a record is not wrong with its frame. -/
theorem not_ofFrame_of_record {α β : Type} {record : Except Malformation α} {kind : α → β}
    {cause : CodecError} (failed : kind <$> record.mapError .malformed = .error cause) :
    ¬ cause.OfFrame := by
  cases record with
  | ok made => cases failed
  | error wrong =>
      cases failed
      exact id

/-- The decoder of its form accepts the frame of an encoded record, and rejects its fields only. -/
theorem Encodes.not_ofFrame (encodes : form.Encodes bytes) {now : UInt64} {cause : CodecError}
    (failed : form.read bytes now = .error cause) : ¬ cause.OfFrame := by
  cases encodes with
  | persistedKey encoded =>
      have decoded := Codec.decode_of_encode KeyRecord.lawful_keyForm encoded
      rw [read, KeyRecord.ofPersisted, decoded] at failed
      exact not_ofFrame_of_record failed
  | @networkKey key options _ encoded =>
      have decoded : Codec.decode .networkKey Wire.keyForm bytes = .ok (key.sentForm options) :=
        Codec.decode_of_encode KeyRecord.lawful_keyForm encoded
      simp only [read, KeyRecord.ofSent, decoded, bind, Except.bind,
        KeyRecord.checkAnnounced_sentForm] at failed
      exact not_ofFrame_of_record failed
  | persistedBucket encoded =>
      have decoded := Codec.decode_of_encode BucketRecord.lawful_bucketForm encoded
      rw [read, BucketRecord.ofPersisted, BucketRecord.decode, decoded] at failed
      exact not_ofFrame_of_record failed
  | networkBucket encoded =>
      have decoded := Codec.decode_of_encode BucketRecord.lawful_bucketForm encoded
      rw [read, BucketRecord.ofSent, BucketRecord.decode, decoded] at failed
      exact not_ofFrame_of_record failed

/-- Damage to an encoded record is noticed in its frame, and so is another form. -/
theorem damage_rejected (encodes : form.Encodes bytes) (now : UInt64) :
    (∀ damaged, Frame.Damaged bytes damaged →
      ∃ cause, cause.OfFrame ∧ form.read damaged now = .error cause) ∧
    (∀ other ≠ form, ∃ cause, cause.OfFrame ∧ other.read bytes now = .error cause) ∧
    ∀ cause, form.read bytes now = .error cause → ¬ cause.OfFrame := by
  obtain ⟨payload, framed⟩ := encodes.framed
  refine ⟨fun damaged damage => ?_, fun other differs => ?_, fun cause => encodes.not_ofFrame⟩
  · exact read_of_unframed (damage.unframed framed) now
  · refine read_of_unframed (fun payload' framed' => differs ?_) now
    have same : bytes ++ [] = bytes ++ [] := rfl
    exact (Frame.wrap_inj framed' framed same).1

/-- A sent key is not read back from a damaged frame, nor as a stored one. -/
theorem damage_rejected_placed : ∃ sent, KeyRecord.placed.send {} = .ok sent ∧
    (∀ damaged, Frame.Damaged sent damaged →
      ∃ cause, cause.OfFrame ∧ networkKey.read damaged 9 = .error cause) ∧
    ∃ cause, cause.OfFrame ∧ persistedKey.read sent 9 = .error cause := by
  have fits : (Wire.keyForm.put (KeyRecord.placed.sentForm {})).length ≤ Frame.payloadLimit := by
    decide +kernel
  obtain ⟨sent, framed⟩ := Frame.wrap_of_length_le .networkKey fits
  have encoded : KeyRecord.placed.send {} = .ok sent := framed
  obtain ⟨damaged, others, -⟩ := damage_rejected (.networkKey encoded) 9
  exact ⟨sent, encoded, damaged, others .persistedKey (by decide)⟩

end Form

end ObjectLedger
