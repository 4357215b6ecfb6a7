import ObjectLedger.Proofs.Key.History

/-! # How versions are numbered

The groups of a key are numbered from 0 on, without gaps (`Numbered`). A new version takes the next
number, and every other edit of a history keeps the numbers of its groups.
-/

namespace ObjectLedger

/-- The groups of a history have the versions 0, 1, 2 and so on. -/
def Numbered (history : List VersionGroup) : Prop :=
  history.map (·.version.toNat) = List.range history.length

theorem numbered_nil : Numbered [] := rfl

/-- A further group is numbered by those before it. -/
theorem numbered_concat_iff {older : List VersionGroup} {group : VersionGroup} :
    Numbered (older ++ [group]) ↔ Numbered older ∧ group.version.toNat = older.length := by
  unfold Numbered
  rw [List.map_append, List.length_append, List.length_singleton, List.range_succ]
  constructor
  · intro same
    obtain ⟨front, last⟩ := List.append_inj' same rfl
    exact ⟨front, (List.cons.inj last).1⟩
  · rintro ⟨front, last⟩
    rw [front, List.map_singleton, last]

/-- Groups of the same versions are numbered alike. -/
theorem Numbered.of_versions {history other : List VersionGroup} (numbered : Numbered other)
    (same : history.map (·.version) = other.map (·.version)) : Numbered history := by
  have numbers := congrArg (List.map UInt64.toNat) same
  have lengths := congrArg List.length same
  rw [List.length_map, List.length_map] at lengths
  rw [List.map_map, List.map_map] at numbers
  exact numbers.trans (numbered.trans (congrArg List.range lengths.symm))

namespace KeyRecord

variable {key after : KeyRecord}

/-- A version that follows numbered groups has the next number. -/
theorem addVersion_numbered {blocks : List Block} {time : Option UInt64} {keepOlder : Bool}
    {version : UInt64} (added : key.addVersion blocks time keepOlder = .ok (after, version))
    {older : List VersionGroup} {group : VersionGroup} (history : after.history = older ++ [group])
    (numbered : Numbered older) : Numbered after.history := by
  unfold addVersion at added
  generalize (if keepOlder then key.history else []) = kept at added
  have ended : ∀ {next : VersionGroup}, kept ++ [next] = older ++ [group] →
      kept = older ∧ next = group := by
    intro next same
    obtain ⟨front, last⟩ := List.append_inj' same rfl
    exact ⟨front, (List.cons.inj last).1⟩
  cases newest : kept.getLast? with
  | none =>
      cases List.getLast?_eq_none_iff.1 newest
      cases added
      obtain ⟨rfl, -⟩ := ended history
      exact numbered_concat_iff.2 ⟨numbered, rfl⟩
  | some before =>
      simp only [newest] at added
      obtain ⟨next, follows, added⟩ := bind_eq_ok_iff.1 added
      obtain ⟨number, counted, given⟩ := bind_eq_ok_iff.1 follows
      cases given
      cases added
      obtain ⟨rfl, -⟩ := ended history
      refine numbered_concat_iff.2 ⟨numbered, ?_⟩
      obtain ⟨front, rfl⟩ := List.getLast?_eq_some_iff.1 newest
      rw [List.length_append, ← (numbered_concat_iff.1 numbered).2]
      exact (Word.add_ok_iff.1 counted).symm

/-- Appending blocks keeps the numbers of the versions. -/
theorem appendBlocks_versions {blocks : List Block} {time : Option UInt64}
    (appended : key.appendBlocks blocks time = .ok after) :
    after.history.map (·.version) = key.history.map (·.version) := by
  cases newest : key.latest? with
  | none =>
      rw [appendBlocks, newest] at appended
      cases appended
  | some group =>
      obtain ⟨older, history⟩ := List.getLast?_eq_some_iff.1 newest
      rw [appendBlocks_of_history history] at appended
      cases appended
      rw [history, List.map_append, List.map_append]
      rfl

/-- Leaving out the placement of blocks keeps the numbers of the versions. -/
theorem asStored_versions (key : KeyRecord) :
    key.asStored.history.map (·.version) = key.history.map (·.version) := by
  unfold asStored
  rw [List.map_map]
  rfl

end KeyRecord

end ObjectLedger
