import ObjectLedger.Proofs.Codec.Record
import ObjectLedger.Proofs.Checked
import ObjectLedger.Service.Commit

/-! # What a quota allows

A check lets growth pass that stays within the quota, comparing a sum that is clamped to the words
where the counter itself wraps around. If the sum is a word, what passed stays within the quota
(`Quota.within_of_check`); what did not pass would leave it (`Quota.exceeds_of_check`). Both
counters of a bucket are limited in the same way, each by the quota of its kind
(`BucketRecord.KeepsQuotas.moved`).
-/

namespace ObjectLedger

/-- Clamping keeps a number within the signed range. -/
theorem Word.toInt_clampSigned (i : Int) : (clampSigned i).toInt =
    max Int64.minValue.toInt (min i Int64.maxValue.toInt) := by
  have low : Int64.minValue.toInt = -9223372036854775808 := by decide
  have high : Int64.maxValue.toInt = 9223372036854775807 := by decide
  unfold clampSigned
  rw [low, high]
  apply Int64.toInt_ofInt_of_le
  · exact Int.le_max_left ..
  · omega

namespace Quota

variable {bucket : String} {kind : QuotaKind} {used delta quota : Int64}

/-- What passed a check stays within a limiting quota, if the sum is a word. -/
theorem within_of_check (checked : check bucket kind used delta quota = .ok ())
    (limits : quota ≠ unlimited) (within : used ≤ quota)
    (exact : (used + delta).toInt = used.toInt + delta.toInt) : used + delta ≤ quota := by
  rw [Int64.le_iff_toInt_le] at within ⊢
  unfold check at checked
  split at checked
  · rename_i easy
    have shrinks : delta.toInt ≤ 0 := Int64.le_iff_toInt_le.1 (easy.resolve_left limits)
    omega
  · split at checked
    · cases checked
    · rename_i fits
      rw [Int64.lt_iff_toInt_lt, Word.toInt_clampSigned, ← exact] at fits
      have low := Int64.minValue_le_toInt (used + delta)
      have high := Int64.toInt_le (used + delta)
      omega

/-- A check fails with all that it compared, and only if growth would leave a limiting quota. -/
theorem exceeds_of_check {cause : RecordError}
    (failed : check bucket kind used delta quota = .error cause) :
    cause = .quotaExceeded bucket kind used delta quota ∧ quota ≠ unlimited ∧ 0 < delta ∧
      quota.toInt < used.toInt + delta.toInt := by
  unfold check at failed
  split at failed
  · cases failed
  · rename_i grows
    obtain ⟨limits, grows⟩ := not_or.1 grows
    split at failed
    · rename_i leaves
      cases failed
      rw [Int64.lt_iff_toInt_lt, Word.toInt_clampSigned] at leaves
      have low := Int64.minValue_le_toInt quota
      exact ⟨rfl, limits, Int64.not_le.1 grows, by omega⟩
    · cases failed

/-- No quota stands against a change that does not add anything. -/
theorem check_of_nonpos (shrinks : delta ≤ 0) : check bucket kind used delta quota = .ok () :=
  if_pos (.inr shrinks)

end Quota

/-- Nothing is charged a negative number of bytes. -/
theorem Replication.neg_charge_nonpos {replication : Replication} {blocks : List Block}
    {bytes : Int64} (charge : replication.charge blocks = .ok bytes) : -bytes ≤ 0 := by
  obtain ⟨length, -, rest⟩ := bind_eq_ok_iff.1 charge
  obtain ⟨size, -, rest⟩ := bind_eq_ok_iff.1 rest
  have charged : 0 ≤ bytes.toInt := by
    cases rest
    rw [Word.toInt_clampSigned]
    have high : Int64.maxValue.toInt = 9223372036854775807 := by decide
    omega
  have bounded := Int64.toInt_lt bytes
  rw [Int64.le_iff_toInt_le, Int64.toInt_neg, Int.bmod_eq_of_le (by omega) (by omega)]
  change -bytes.toInt ≤ 0
  omega

/-- The counter that a kind of quota limits. -/
def BucketRecord.used (bucket : BucketRecord) : QuotaKind → Int64
  | .bytes => bucket.usedBytes
  | .keys => bucket.usedKeys

def BucketRecord.quota (bucket : BucketRecord) : QuotaKind → Int64
  | .bytes => bucket.quotaBytes
  | .keys => bucket.quotaKeys

/-- The delta that a kind of quota limits. -/
def QuotaKind.delta (bytes keys : Int64) : QuotaKind → Int64
  | .bytes => bytes
  | .keys => keys

namespace BucketRecord

variable {bucket first : BucketRecord} {bytes keys : Int64} {updateId time : UInt64}

/-- Both checks pass if the check of every kind does. -/
theorem checks_ok_iff :
    (bucket.checkBytes bytes = .ok () ∧ bucket.checkKeys keys = .ok ()) ↔ ∀ kind : QuotaKind,
      Quota.check bucket.name kind (bucket.used kind) (kind.delta bytes keys)
        (bucket.quota kind) = .ok () := by
  constructor
  · rintro ⟨bytesFit, keysFit⟩ kind
    cases kind with
    | bytes => exact bytesFit
    | keys => exact keysFit
  · exact fun fit => ⟨fit .bytes, fit .keys⟩

/-- Moving the usage adds the delta to what is used. -/
theorem used_moved (kind : QuotaKind) :
    (bucket.moved bytes keys updateId time).used kind =
      bucket.used kind + kind.delta bytes keys := by
  cases kind <;> rfl

/-- Moving the usage changes no quota. -/
theorem quota_moved (kind : QuotaKind) :
    (bucket.moved bytes keys updateId time).quota kind = bucket.quota kind := by
  cases kind <;> rfl

/-- A bucket has the quotas that another was created with, and stays within each that limits and
that the other was within. -/
def KeepsQuotas (first bucket : BucketRecord) : Prop :=
  ∀ kind, bucket.quota kind = first.quota kind ∧ (first.quota kind ≠ Quota.unlimited →
    first.used kind ≤ first.quota kind → bucket.used kind ≤ bucket.quota kind)

/-- The counters of a bucket are another's plus the deltas between them, without wrapping
around. -/
def ExactTo (bucket next : BucketRecord) : Prop :=
  ∀ kind, (next.used kind).toInt =
    (bucket.used kind).toInt + (next.used kind - bucket.used kind).toInt

instance (bucket next : BucketRecord) : Decidable (bucket.ExactTo next) :=
  decidable_of_iff (_ ∧ _) ⟨fun both kind => match kind with
    | .bytes => both.1
    | .keys => both.2, fun all => ⟨all .bytes, all .keys⟩⟩

/-- Usage that was allowed to grow stays within the quotas. -/
theorem KeepsQuotas.moved (keeps : first.KeepsQuotas bucket)
    (bytesFit : bucket.checkBytes bytes = .ok ()) (keysFit : bucket.checkKeys keys = .ok ())
    (exact : bucket.ExactTo (bucket.moved bytes keys updateId time)) :
    first.KeepsQuotas (bucket.moved bytes keys updateId time) := by
  intro kind
  obtain ⟨same, within⟩ := keeps kind
  have sum := exact kind
  rw [used_moved, show bucket.used kind + kind.delta bytes keys - bucket.used kind =
    kind.delta bytes keys by grind] at sum
  rw [quota_moved, used_moved]
  refine ⟨same, fun limits fits => ?_⟩
  exact Quota.within_of_check (checks_ok_iff.1 ⟨bytesFit, keysFit⟩ kind) (same ▸ limits)
    (within limits fits) sum

end BucketRecord

end ObjectLedger
