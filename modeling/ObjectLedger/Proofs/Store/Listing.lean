import Mathlib.Data.String.Basic
import ObjectLedger.Proofs.Dictionary
import ObjectLedger.Proofs.Store.Records
import ObjectLedger.Proofs.Text.Order

/-! # What a listing shows

Listing the keys of a bucket reads the paths in their order, from what they have to start with on,
and stops at the first path that does not start with it. Nothing is missed, since between a text and
a path that starts with it there are only paths that start with it (`starts_of_between`), so that
the scan finds what searching all paths would (`Records.listKeys_eq`). The names behind the path of
the bucket are in the order of the paths (`append_lt_append_iff`), and a list of names is the
listing exactly if it holds the names in question in the order of their bytes
(`Records.lists_iff_eq_listKeys`).
-/

namespace ObjectLedger

/-! ## Scans -/

section Scan

variable {α : Type} {list : List α} {below wanted : α → Bool}

/-- If what stands before something below a bound is below it as well, leaving out the first ones
leaves out all of them. -/
theorem dropWhile_eq_filter
    (closed : list.Pairwise fun earlier later => below later = true → below earlier = true) :
    list.dropWhile below = list.filter fun element => !below element := by
  induction list with
  | nil => rfl
  | cons first rest ih =>
      obtain ⟨before, others⟩ := List.pairwise_cons.1 closed
      cases known : below first with
      | true =>
          rw [List.dropWhile_cons_of_pos known, List.filter_cons_of_neg (by simp [known]),
            ih others]
      | false =>
          have above : ∀ later ∈ first :: rest, (!below later) = true := by
            intro later member
            rcases List.mem_cons.1 member with rfl | inside
            · rw [known, Bool.not_false]
            · rw [Bool.not_eq_true']
              exact Bool.eq_false_iff.2 fun sunk => by simp [before later inside sunk] at known
          rw [List.dropWhile_cons_of_neg (by simp [known]), List.filter_eq_self.2 above]

/-- If what stands before something wanted is wanted as well, the first ones are all of them. -/
theorem takeWhile_eq_filter
    (closed : list.Pairwise fun earlier later => wanted later = true → wanted earlier = true) :
    list.takeWhile wanted = list.filter wanted := by
  induction list with
  | nil => rfl
  | cons first rest ih =>
      obtain ⟨before, others⟩ := List.pairwise_cons.1 closed
      cases known : wanted first with
      | true => rw [List.takeWhile_cons_of_pos known, List.filter_cons_of_pos known, ih others]
      | false =>
          have other : ∀ later ∈ rest, ¬ wanted later = true := by
            intro later inside found
            simp [before later inside found] at known
          rw [List.takeWhile_cons_of_neg (by simp [known]),
            List.filter_cons_of_neg (by simp [known]), List.filter_eq_nil_iff.2 other]

end Scan

/-! ## Paths in their order -/

/-- Texts behind the same beginning are ordered as they are without it. -/
theorem append_lt_append_iff (base left right : String) :
    base ++ left < base ++ right ↔ left < right := by
  simp only [String.lt_iff, String.toList_append]
  induction base.toList with
  | nil => rfl
  | cons c rest ih => simpa only [List.cons_append, List.cons_lt_cons_self] using ih

/-- A text starts with another if that and a rest make it up. -/
theorem starts_iff (path first : String) :
    path.startsWith first = true ↔ ∃ rest, path = first ++ rest := by
  rw [String.startsWith_string_iff]
  constructor
  · rintro ⟨rest, whole⟩
    refine ⟨String.ofList rest, String.toList_inj.1 ?_⟩
    rw [String.toList_append, String.toList_ofList, whole]
  · rintro ⟨rest, rfl⟩
    rw [String.toList_append]
    exact List.prefix_append _ _

/-- No path that starts with a text is below the text. -/
theorem not_lt_of_starts {path first : String} (starts : path.startsWith first = true) :
    ¬ path < first := by
  obtain ⟨rest, rfl⟩ := (starts_iff path first).1 starts
  rw [String.lt_iff, String.toList_append]
  induction first.toList with
  | nil => exact List.not_lt_nil _
  | cons c text ih => rwa [List.cons_append, List.cons_lt_cons_self]

/-- Texts with a common beginning stand together in the order. -/
theorem prefix_of_between {first left right : List Char} (above : ¬ left < first)
    (less : left < right) (starts : first <+: right) : first <+: left := by
  induction first generalizing left right with
  | nil => exact List.nil_prefix
  | cons c first ih =>
      obtain ⟨rest, rfl⟩ := starts
      cases left with
      | nil => exact (above (List.nil_lt_cons _ _)).elim
      | cons d left =>
          rw [List.cons_append, List.cons_lt_cons_iff] at less
          rw [List.cons_lt_cons_iff, not_or, not_and] at above
          obtain ⟨rfl, later⟩ := less.resolve_left above.1
          exact List.cons_prefix_cons.2 ⟨rfl, ih (above.2 rfl) later (List.prefix_append _ _)⟩

/-- What lies between a text and a path that starts with it starts with it as well. -/
theorem starts_of_between {first left right : String} (above : ¬ left < first)
    (less : left < right) (starts : right.startsWith first = true) :
    left.startsWith first = true := by
  rw [String.startsWith_string_iff] at starts ⊢
  exact prefix_of_between (above ∘ String.lt_iff.2) (String.lt_iff.1 less) starts

namespace Records

variable {records : Records}

/-- What stands behind a beginning is the rest. -/
theorem behind_append (base rest : String) : behind base (base ++ rest) = rest := by
  have cut := String.extract_of_valid base.toList rest.toList []
  simpa [behind, String.rawEndPos] using cut

/-- The scan finds what searching all paths would find. -/
theorem listKeys_eq (records : Records) (volume bucket start : String) :
    records.listKeys volume bucket start =
      (records.keys.keys.filter
        (·.startsWith (bucketPath volume bucket ++ "/" ++ start))).map
          (behind (bucketPath volume bucket ++ "/")) := by
  unfold listKeys Dictionary.keysFrom
  dsimp only
  generalize bucketPath volume bucket ++ "/" ++ start = first
  have paths : records.keys.keys.Pairwise (· < ·) := List.pairwise_map.2 records.keys.ascending
  have skipped : records.keys.keys.dropWhile (· < first) =
      records.keys.keys.filter fun path => !decide (path < first) :=
    dropWhile_eq_filter <| paths.imp fun less sunk =>
      decide_eq_true (String.lt_trans less (of_decide_eq_true sunk))
  have contiguous : (records.keys.keys.filter fun path => !decide (path < first)).Pairwise
      fun earlier later => later.startsWith first = true → earlier.startsWith first = true := by
    refine (paths.filter _).imp_of_mem fun {earlier later} member _ less starts => ?_
    have above := (List.mem_filter.1 member).2
    rw [Bool.not_eq_true', decide_eq_false_iff_not] at above
    exact starts_of_between above less starts
  rw [skipped, takeWhile_eq_filter contiguous, List.filter_filter]
  congr 1
  refine List.filter_congr fun path _ => ?_
  cases starts : path.startsWith first with
  | false => rfl
  | true => rw [decide_eq_false (not_lt_of_starts starts), Bool.true_and, Bool.not_false]

/-- The listed names are those of the bucket's keys that start with the text. -/
theorem mem_listKeys_iff (records : Records) (volume bucket start name : String) :
    name ∈ records.listKeys volume bucket start ↔ start.toList <+: name.toList ∧
      (records.keys.get? (keyPath volume bucket name)).isSome := by
  have path : bucketPath volume bucket ++ "/" ++ name = keyPath volume bucket name := rfl
  rw [listKeys_eq, ← Dictionary.mem_keys_iff, ← path, ← String.startsWith_string_iff, starts_iff,
    List.mem_map]
  simp only [List.mem_filter, starts_iff]
  generalize bucketPath volume bucket ++ "/" = base
  constructor
  · rintro ⟨_, ⟨there, rest, rfl⟩, rfl⟩
    rw [String.append_assoc, behind_append]
    exact ⟨⟨rest, rfl⟩, String.append_assoc ▸ there⟩
  · rintro ⟨⟨rest, rfl⟩, there⟩
    exact ⟨_, ⟨there, rest, String.append_assoc.symm⟩, behind_append base _⟩

/-- The listed names increase. -/
theorem listKeys_ascending (records : Records) (volume bucket start : String) :
    (records.listKeys volume bucket start).Pairwise (· < ·) := by
  have paths : records.keys.keys.Pairwise (· < ·) := List.pairwise_map.2 records.keys.ascending
  rw [listKeys_eq]
  generalize bucketPath volume bucket ++ "/" = base
  refine List.pairwise_map.2 ((paths.filter _).imp_of_mem fun {left right} first second less => ?_)
  obtain ⟨rest, rfl⟩ := (starts_iff _ _).1 (List.mem_filter.1 first).2
  obtain ⟨rest', rfl⟩ := (starts_iff _ _).1 (List.mem_filter.1 second).2
  rw [String.append_assoc, String.append_assoc, append_lt_append_iff] at less
  rwa [String.append_assoc, String.append_assoc, behind_append, behind_append]

/-- Ascending lists of the same names are the same. -/
theorem eq_of_ascending {left right : List String} (ascending : left.Pairwise (· < ·))
    (ascending' : right.Pairwise (· < ·)) (same : ∀ name, name ∈ left ↔ name ∈ right) :
    left = right := by
  have distinct : ∀ {names : List String}, names.Pairwise (· < ·) → names.Nodup :=
    fun increasing => increasing.imp fun below equal => String.ne_of_lt below equal
  refine List.Perm.eq_of_pairwise (fun first second _ _ below above => ?_) ascending ascending' ?_
  · exact (String.lt_irrefl _ (String.lt_trans below above)).elim
  · exact (List.perm_ext_iff_of_nodup (distinct ascending) (distinct ascending')).2 same

/-! ## The listing -/

/-- A list holds the names of the stored keys of a bucket that start with a text, each once and in
the order of their bytes. -/
structure Lists (records : Records) (volume bucket start : String) (names : List String) :
    Prop where
  ascending : names.Pairwise fun earlier later => utf8 earlier < utf8 later
  distinct : names.Nodup
  complete : ∀ name, name ∈ names ↔ utf8 start <+: utf8 name ∧
    ∃ stored, records.keys.get? (keyPath volume bucket name) = some stored

/-- Whatever is stored and whatever the texts are, the listing holds the names in question in the
order of their bytes, and is the only list that does. -/
theorem lists_iff_eq_listKeys (records : Records) (volume bucket start : String)
    (names : List String) :
    records.Lists volume bucket start names ↔ names = records.listKeys volume bucket start := by
  have increases := listKeys_ascending records volume bucket start
  have shows (name : String) : name ∈ records.listKeys volume bucket start ↔
      utf8 start <+: utf8 name ∧
        ∃ stored, records.keys.get? (keyPath volume bucket name) = some stored := by
    rw [mem_listKeys_iff, utf8_prefix_iff, Option.isSome_iff_exists]
  constructor
  · intro listed
    have ascending := listed.ascending.imp fun {left right} => (utf8_lt_iff left right).1
    exact eq_of_ascending ascending increases fun name =>
      (listed.complete name).trans (shows name).symm
  · rintro rfl
    exact
      { ascending := increases.imp fun {left right} => (utf8_lt_iff left right).2
        distinct := increases.imp fun below equal => String.ne_of_lt below equal
        complete := shows }

end Records
end ObjectLedger
