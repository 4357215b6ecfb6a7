import ObjectLedger.Store.Records

/-! # Paths

The path of a key tells volume, bucket and name apart if volume and bucket do not contain the
separator; the name of the key may (`keyPath_inj`). The path of a bucket tells volume and bucket
apart if the volume does not contain it (`bucketPath_inj`).
-/

namespace ObjectLedger

/-- A name without the separator of paths. -/
def Plain (name : String) : Prop := '/' ∉ name.toList

instance : DecidablePred Plain := fun name => inferInstanceAs (Decidable ('/' ∉ name.toList))

/-- Texts are cut apart at their first separator. -/
theorem append_cons_inj {α : Type} {mark : α} {left left' right right' : List α}
    (absent : mark ∉ left) (absent' : mark ∉ left')
    (same : left ++ mark :: right = left' ++ mark :: right') : left = left' ∧ right = right' := by
  induction left generalizing left' with
  | nil =>
      cases left' with
      | nil => exact ⟨rfl, (List.cons.inj same).2⟩
      | cons first rest => exact (absent' ((List.cons.inj same).1 ▸ List.mem_cons_self)).elim
  | cons first rest ih =>
      cases left' with
      | nil => exact (absent ((List.cons.inj same).1.symm ▸ List.mem_cons_self)).elim
      | cons first' rest' =>
          obtain ⟨here, there⟩ := List.cons.inj same
          obtain ⟨front, back⟩ := ih (fun member => absent (List.mem_cons_of_mem _ member))
            (fun member => absent' (List.mem_cons_of_mem _ member)) there
          exact ⟨by rw [here, front], back⟩

/-- The path of a key is its three names behind separators. -/
theorem toList_keyPath (volume bucket name : String) : (keyPath volume bucket name).toList =
    '/' :: (volume.toList ++ '/' :: (bucket.toList ++ '/' :: name.toList)) := by
  unfold keyPath
  simp only [String.toList_append, List.append_assoc]
  rfl

/-- The path of a bucket is its two names behind separators. -/
theorem toList_bucketPath (volume bucket : String) : (bucketPath volume bucket).toList =
    '/' :: (volume.toList ++ '/' :: bucket.toList) := by
  unfold bucketPath
  simp only [String.toList_append, List.append_assoc]
  rfl

/-- A path of keys names one key of one bucket. -/
theorem keyPath_inj {volume volume' bucket bucket' name name' : String} (plain : Plain volume)
    (plain' : Plain volume') (plainBucket : Plain bucket) (plainBucket' : Plain bucket')
    (same : keyPath volume bucket name = keyPath volume' bucket' name') :
    volume = volume' ∧ bucket = bucket' ∧ name = name' := by
  have texts := congrArg String.toList same
  rw [toList_keyPath, toList_keyPath] at texts
  obtain ⟨volumes, rest⟩ := append_cons_inj plain plain' (List.cons.inj texts).2
  obtain ⟨buckets, names⟩ := append_cons_inj plainBucket plainBucket' rest
  exact ⟨String.toList_inj.1 volumes, String.toList_inj.1 buckets, String.toList_inj.1 names⟩

/-- A path of buckets names one bucket. -/
theorem bucketPath_inj {volume volume' bucket bucket' : String} (plain : Plain volume)
    (plain' : Plain volume') (same : bucketPath volume bucket = bucketPath volume' bucket') :
    volume = volume' ∧ bucket = bucket' := by
  have texts := congrArg String.toList same
  rw [toList_bucketPath, toList_bucketPath] at texts
  obtain ⟨volumes, buckets⟩ := append_cons_inj plain plain' (List.cons.inj texts).2
  exact ⟨String.toList_inj.1 volumes, String.toList_inj.1 buckets⟩

end ObjectLedger
