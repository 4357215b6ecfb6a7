import ObjectLedger.Frame.Basic

/-! # Frames give back their payload

A frame is a header and the payload (`Frame.wrap_eq_ok_iff`). Reading undoes framing, whatever
bytes follow the frame (`Frame.unwrap_append_of_wrap`), and what is read as a frame is the frame of
its payload (`Frame.wrap_of_unwrap`). A header tells the length of what follows it, so no frame
begins another one (`Frame.wrap_inj`). Together, reading accepts frames and nothing else
(`Frame.framing_exact`).
-/

namespace ObjectLedger.Frame

/-! ## The bytes of a half word -/

theorem shifts_toNat :
    (24#32 % 32).toNat = 24 ∧ (16#32 % 32).toNat = 16 ∧ (8#32 % 32).toNat = 8 := by decide

/-- A bit of a half word is one of the byte that it lies in. -/
theorem getLsbD_ofBigEndian (a b c d : UInt8) (place : Nat) :
    (ofBigEndian a b c d).toBitVec.getLsbD place =
      if place < 8 then d.toBitVec.getLsbD place
      else if place < 16 then c.toBitVec.getLsbD (place - 8)
      else if place < 24 then b.toBitVec.getLsbD (place - 16)
      else if place < 32 then a.toBitVec.getLsbD (place - 24)
      else false := by
  have beyond : ∀ (byte : UInt8) (place : Nat), 8 ≤ place →
      byte.toBitVec.getLsbD place = false := fun _ _ outside => BitVec.getLsbD_of_ge _ _ outside
  simp only [ofBigEndian, UInt32.toBitVec_or, UInt32.toBitVec_shiftLeft, UInt8.toBitVec_toUInt32,
    UInt32.toBitVec_ofNat, BitVec.getLsbD_or, BitVec.getLsbD_shiftLeft, BitVec.shiftLeft_eq',
    BitVec.getLsbD_setWidth, shifts_toNat]
  grind

/-- The four bytes of a half word give it back. -/
theorem ofBigEndian_bytes (n : UInt32) :
    ofBigEndian (n >>> 24).toUInt8 (n >>> 16).toUInt8 (n >>> 8).toUInt8 n.toUInt8 = n := by
  apply UInt32.toBitVec_inj.1
  apply BitVec.eq_of_getLsbD_eq
  intro place small
  simp only [getLsbD_ofBigEndian, UInt32.toBitVec_toUInt8, UInt32.toBitVec_shiftRight,
    UInt32.toBitVec_ofNat, BitVec.ushiftRight_eq', BitVec.getLsbD_setWidth,
    BitVec.getLsbD_ushiftRight, shifts_toNat]
  grind

/-- The half word of four bytes gives them back. -/
theorem bigEndian_ofBigEndian (a b c d : UInt8) :
    bigEndian (ofBigEndian a b c d) = [a, b, c, d] := by
  have lowest : ∀ (n : UInt32) (byte : UInt8), (∀ place < 8,
      n.toBitVec.getLsbD place = byte.toBitVec.getLsbD place) → n.toUInt8 = byte := by
    intro n byte bits
    apply UInt8.toBitVec_inj.1
    apply BitVec.eq_of_getLsbD_eq
    intro place small
    rw [UInt32.toBitVec_toUInt8, BitVec.getLsbD_setWidth, bits place small, decide_eq_true small,
      Bool.true_and]
  unfold bigEndian
  rw [lowest _ a, lowest _ b, lowest _ c, lowest _ d]
  all_goals
    intro place small
    simp only [UInt32.toBitVec_shiftRight, UInt32.toBitVec_ofNat, BitVec.ushiftRight_eq',
      BitVec.getLsbD_ushiftRight, shifts_toNat, getLsbD_ofBigEndian]
    grind

/-! ## A frame is a header and the payload -/

/-- The bytes before a payload: its length, its form and its check value. -/
def header (form : Form) (payload : List UInt8) : List UInt8 :=
  bigEndian (UInt32.ofNat (5 + payload.length)) ++ form.tag :: bigEndian (Crc32.ofBytes payload)

/-- The digits of a number in a header are four bytes. -/
theorem length_bigEndian (n : UInt32) : (bigEndian n).length = 4 := rfl

/-- All headers have the same size. -/
theorem length_header (form : Form) (payload : List UInt8) :
    (header form payload).length = headerSize := rfl

/-- A frame is its header and its payload, and exists if the payload is within the limit. -/
theorem wrap_eq_ok_iff {form : Form} {payload bytes : List UInt8} :
    wrap form payload = .ok bytes ↔
      payload.length ≤ payloadLimit ∧ bytes = header form payload ++ payload := by
  unfold wrap header
  split
  · rename_i large
    simp only [reduceCtorEq, false_iff, not_and]
    exact fun fits => (Nat.not_lt.2 fits large).elim
  · rename_i within
    rw [Except.ok.injEq, and_iff_right (Nat.not_lt.1 within), eq_comm]

/-- What is framed fits the limit of a payload. -/
theorem length_le_of_wrap {form : Form} {payload bytes : List UInt8}
    (wrapped : wrap form payload = .ok bytes) : payload.length ≤ payloadLimit :=
  (wrap_eq_ok_iff.1 wrapped).1

/-- Every payload within the limit can be framed, in any form. -/
theorem wrap_of_length_le {payload : List UInt8} (form : Form)
    (fits : payload.length ≤ payloadLimit) : ∃ bytes, wrap form payload = .ok bytes :=
  ⟨_, wrap_eq_ok_iff.2 ⟨fits, rfl⟩⟩

/-- Nothing but a payload above the limit is refused. -/
theorem lt_length_of_wrap {form : Form} {payload : List UInt8} {cause : CodecError}
    (refused : wrap form payload = .error cause) : payloadLimit < payload.length := by
  refine Nat.lt_of_not_le fun fits => ?_
  obtain ⟨bytes, framed⟩ := wrap_of_length_le form fits
  cases refused.symm.trans framed

/-- A length that fits the limit is announced as it is. -/
theorem toNat_announced {size : Nat} (fits : size ≤ payloadLimit) :
    (UInt32.ofNat (5 + size)).toNat = 5 + size := by
  apply UInt32.toNat_ofNat_of_lt'
  exact Nat.lt_of_le_of_lt (Nat.add_le_add_left fits 5) (by decide)

/-- Reading a frame gives its payload and its size, whatever bytes follow. -/
theorem unwrap_append_of_wrap {form : Form} {payload bytes : List UInt8}
    (wrapped : wrap form payload = .ok bytes) (rest : List UInt8) :
    unwrap form (bytes ++ rest) = .ok (payload, bytes.length) := by
  obtain ⟨fits, rfl⟩ := wrap_eq_ok_iff.1 wrapped
  have within : ¬ payload.length > payloadLimit := Nat.not_lt.2 fits
  have whole : ¬ (payload ++ rest).length < payload.length := by
    rw [List.length_append]
    omega
  simp only [header, bigEndian, List.cons_append, List.nil_append, unwrap, ofBigEndian_bytes,
    toNat_announced fits, Nat.add_sub_cancel_left, List.take_left, whole, within, ne_eq, not_true,
    ↓reduceIte, List.length_cons]
  rw [if_neg (by omega)]
  congr 2
  omega

/-! ## What is read as a frame -/

/-- What is read as a frame is the frame of the payload, up to the size that is given. -/
theorem wrap_of_unwrap {form : Form} {bytes payload : List UInt8} {size : Nat}
    (read : unwrap form bytes = .ok (payload, size)) :
    ∃ frame rest, wrap form payload = .ok frame ∧ frame.length = size ∧ bytes = frame ++ rest := by
  unfold unwrap at read
  split at read
  · rename_i l₀ l₁ l₂ l₃ tag c₀ c₁ c₂ c₃ rest
    dsimp only at read
    split at read
    · cases read
    rename_i covered
    split at read
    · cases read
    rename_i within
    split at read
    · cases read
    rename_i there
    split at read
    · cases read
    rename_i own
    split at read
    · cases read
    rename_i intact
    cases read
    have size : (rest.take ((ofBigEndian l₀ l₁ l₂ l₃).toNat - 5)).length =
        (ofBigEndian l₀ l₁ l₂ l₃).toNat - 5 := by
      rw [List.length_take]
      omega
    have announced : UInt32.ofNat (5 + ((ofBigEndian l₀ l₁ l₂ l₃).toNat - 5)) =
        ofBigEndian l₀ l₁ l₂ l₃ := by
      rw [Nat.add_sub_cancel' (Nat.not_lt.1 covered), UInt32.ofNat_toNat]
    refine ⟨_, rest.drop ((ofBigEndian l₀ l₁ l₂ l₃).toNat - 5),
      wrap_eq_ok_iff.2 ⟨Nat.not_lt.1 (by rwa [size]), rfl⟩, ?_, ?_⟩
    · rw [List.length_append, length_header, size, headerSize]
      omega
    · rw [header, size, announced, bigEndian_ofBigEndian, Classical.not_not.1 intact,
        bigEndian_ofBigEndian, ← Classical.not_not.1 own, List.append_assoc, List.append_assoc,
        List.take_append_drop]
      rfl
  · cases read

/-! ## Frames apart from each other -/

variable {form other : Form} {payload : List UInt8}

/-- Two headers, and what follows them. -/
theorem header_append_inj {payload' rest rest' : List UInt8}
    (same : header form payload ++ rest = header other payload' ++ rest') :
    header form payload = header other payload' ∧ rest = rest' :=
  List.append_inj same ((length_header form payload).trans (length_header other payload').symm)

/-- The digits of a number determine it and what follows them. -/
theorem bigEndian_append_inj {n m : UInt32} {rest rest' : List UInt8}
    (same : bigEndian n ++ rest = bigEndian m ++ rest') : n = m ∧ rest = rest' := by
  obtain ⟨bytes, behind⟩ :=
    List.append_inj same ((length_bigEndian n).trans (length_bigEndian m).symm)
  obtain ⟨first, second, third, last⟩ : _ ∧ _ ∧ _ ∧ _ := by
    simpa only [bigEndian, List.cons.injEq, and_true] using bytes
  have value := ofBigEndian_bytes n
  rw [first, second, third, last, ofBigEndian_bytes] at value
  exact ⟨value.symm, behind⟩

/-- A header tells the form and the length of the payload. -/
theorem header_inj {payload' : List UInt8} (fits : payload.length ≤ payloadLimit)
    (fits' : payload'.length ≤ payloadLimit) (same : header form payload = header other payload') :
    form = other ∧ payload.length = payload'.length := by
  obtain ⟨announced, rest⟩ := bigEndian_append_inj same
  have tags : form.tag = other.tag := (List.cons.inj rest).1
  have forms := congrArg Form.ofTag? tags
  rw [Form.ofTag?_tag, Form.ofTag?_tag, Option.some.injEq] at forms
  have sizes := congrArg UInt32.toNat announced
  rw [toNat_announced fits, toNat_announced fits'] at sizes
  exact ⟨forms, Nat.add_left_cancel sizes⟩

/-- A header tells the check value of the payload. -/
theorem check_inj {payload' : List UInt8} (same : header form payload = header other payload') :
    Crc32.ofBytes payload = Crc32.ofBytes payload' := by
  have checks := (List.cons.inj (bigEndian_append_inj same).2).2
  rw [← List.append_nil (bigEndian (Crc32.ofBytes payload)),
    ← List.append_nil (bigEndian (Crc32.ofBytes payload'))] at checks
  exact (bigEndian_append_inj checks).1

/-- No frame begins another one, and a frame tells its form and its payload. -/
theorem wrap_inj {payload' frame frame' rest rest' : List UInt8}
    (framed : wrap form payload = .ok frame) (framed' : wrap other payload' = .ok frame')
    (same : frame ++ rest = frame' ++ rest') :
    form = other ∧ payload = payload' ∧ rest = rest' := by
  obtain ⟨fits, rfl⟩ := wrap_eq_ok_iff.1 framed
  obtain ⟨fits', rfl⟩ := wrap_eq_ok_iff.1 framed'
  rw [List.append_assoc, List.append_assoc] at same
  obtain ⟨headers, behind⟩ := header_append_inj same
  obtain ⟨forms, lengths⟩ := header_inj fits fits' headers
  exact ⟨forms, List.append_inj behind lengths⟩

/-! ## Exactness -/

/-- Bytes are read as a frame of a size exactly if the frame of the payload is what they have up
to that size. -/
theorem unwrap_eq_ok_iff {bytes : List UInt8} {size : Nat} :
    unwrap form bytes = .ok (payload, size) ↔
      payload.length ≤ payloadLimit ∧ size ≤ bytes.length ∧
        wrap form payload = .ok (bytes.take size) := by
  constructor
  · intro read
    obtain ⟨frame, rest, framed, sized, whole⟩ := wrap_of_unwrap read
    subst whole
    subst sized
    rw [List.take_left, List.length_append]
    exact ⟨length_le_of_wrap framed, Nat.le_add_right .., framed⟩
  · intro begins
    obtain ⟨-, there, framed⟩ := begins
    have read := unwrap_append_of_wrap framed (bytes.drop size)
    rwa [List.take_append_drop, List.length_take, Nat.min_eq_left there] at read

/-- Framing is exact. Bytes are read as a frame if they begin with the frame of a payload, and only
then. Payloads up to the limit have a frame and others have none. A frame gives its payload and its
size, whatever bytes follow, and begins no other frame, be it of its form or of another one. -/
theorem framing_exact (form : Form) (payload : List UInt8) :
    (∀ bytes size, unwrap form bytes = .ok (payload, size) ↔
      payload.length ≤ payloadLimit ∧ size ≤ bytes.length ∧
        wrap form payload = .ok (bytes.take size)) ∧
    ((∃ frame, wrap form payload = .ok frame) ↔ payload.length ≤ payloadLimit) ∧
    ∀ frame, wrap form payload = .ok frame →
      (∀ rest, unwrap form (frame ++ rest) = .ok (payload, frame.length)) ∧
      ∀ other payload' frame', wrap other payload' = .ok frame' →
        frame <+: frame' → frame = frame' := by
  refine ⟨fun bytes size => unwrap_eq_ok_iff, ?_, ?_⟩
  · constructor
    · intro ⟨frame, framed⟩
      exact length_le_of_wrap framed
    · exact wrap_of_length_le form
  · intro frame framed
    refine ⟨unwrap_append_of_wrap framed, ?_⟩
    intro other payload' frame' framed' ⟨more, longer⟩
    rw [← List.append_nil frame'] at longer
    obtain ⟨-, -, none⟩ := wrap_inj framed framed' longer
    rwa [none, List.append_nil, List.append_nil] at longer

/-- The frame of one byte is read back with a byte behind it, and does not begin the frame of two
bytes. -/
theorem framing_exact_short :
    wrap .networkKey [97] = .ok [0, 0, 0, 6, 2, 232, 183, 190, 67, 97] ∧
    unwrap .networkKey [0, 0, 0, 6, 2, 232, 183, 190, 67, 97, 1] = .ok ([97], 10) ∧
    ([97] : List UInt8).length ≤ payloadLimit ∧
    ∃ longer, wrap .networkKey [97, 98] = .ok longer ∧
      ¬ [0, 0, 0, 6, 2, 232, 183, 190, 67, 97] <+: longer := by
  obtain ⟨reading, -, each⟩ := framing_exact .networkKey [97]
  have framed : wrap .networkKey [97] = .ok [0, 0, 0, 6, 2, 232, 183, 190, 67, 97] := rfl
  obtain ⟨alone, apart⟩ := each _ framed
  have read := alone [1]
  have longer : wrap .networkKey [97, 98] = .ok [0, 0, 0, 7, 2, 158, 131, 72, 109, 97, 98] := rfl
  refine ⟨framed, read, ((reading _ _).1 read).1, _, longer, ?_⟩
  intro begins
  cases apart _ _ _ longer begins

end ObjectLedger.Frame
