import Mathlib.Tactic.Common

/-!
# Bit fields

A field unit is a range of bits of a larger word.  `v.insertAt lsb d` puts `v` into the bits of `d`
from `lsb` on, as a store with the update rule `Preserve` does; `d.extractLsb' lsb len` reads them.
Reading a range after a write to it gives the value written (`extract_insertAt`), and ranges that
do not overlap do not disturb each other (`extract_insertAt_of_disjoint`).
-/

namespace BitVec

variable {w len len' lsb lsb' : ℕ}

/-- `d` with the bits from `lsb` on replaced by `v`. -/
def insertAt (v : BitVec len) (lsb : ℕ) (d : BitVec w) : BitVec w :=
  d &&& ~~~((allOnes len).setWidth w <<< lsb) ||| v.setWidth w <<< lsb

theorem getLsbD_insertAt {v : BitVec len} {d : BitVec w} {i : ℕ} (hi : i < w) :
    (v.insertAt lsb d).getLsbD i =
      if lsb ≤ i ∧ i < lsb + len then v.getLsbD (i - lsb) else d.getLsbD i := by
  by_cases hlo : lsb ≤ i
  · have hge : ¬ i < lsb := by omega
    by_cases hhi : i < lsb + len
    · have hlen : i - lsb < len := by omega
      simp [insertAt, hi, hlo, hge, hhi, hlen]
    · have hlen : ¬ i - lsb < len := by omega
      have hv : v.getLsbD (i - lsb) = false := getLsbD_of_ge v _ (by omega)
      simp [insertAt, hi, hlo, hhi, hlen, hv]
  · have hlt : i < lsb := by omega
    simp [insertAt, hi, hlo, hlt]

/-- What was written is read back. -/
theorem extract_insertAt {v : BitVec len} {d : BitVec w} (h : lsb + len ≤ w) :
    (v.insertAt lsb d).extractLsb' lsb len = v := by
  apply eq_of_getLsbD_eq
  intro i hi
  have hin : lsb ≤ lsb + i ∧ lsb + i < lsb + len := by omega
  rw [getLsbD_extractLsb', decide_eq_true hi, Bool.true_and, getLsbD_insertAt (by omega),
    if_pos hin, Nat.add_sub_cancel_left]

/-- A write leaves the other ranges alone. -/
theorem extract_insertAt_of_disjoint {v : BitVec len} {d : BitVec w} (hw : lsb' + len' ≤ w)
    (h : lsb' + len' ≤ lsb ∨ lsb + len ≤ lsb') :
    (v.insertAt lsb d).extractLsb' lsb' len' = d.extractLsb' lsb' len' := by
  apply eq_of_getLsbD_eq
  intro i hi
  have hout : ¬ (lsb ≤ lsb' + i ∧ lsb' + i < lsb + len) := by omega
  rw [getLsbD_extractLsb', getLsbD_extractLsb', getLsbD_insertAt (by omega), if_neg hout]

theorem extract_allOnes (h : lsb + len ≤ w) :
    (allOnes w).extractLsb' lsb len = allOnes len := by
  apply eq_of_getLsbD_eq
  intro i hi
  have hin : lsb + i < w := by omega
  simp [hi, hin]

/-- A write of the whole word. -/
theorem insertAt_zero {v d : BitVec w} : v.insertAt 0 d = v := by
  have h := @extract_insertAt w w 0 v d (Nat.le_of_eq (Nat.zero_add w))
  rwa [extractLsb'_eq_self] at h

/-- Writing back what is there changes nothing. -/
theorem insertAt_extract {d : BitVec w} : (d.extractLsb' lsb len).insertAt lsb d = d := by
  apply eq_of_getLsbD_eq
  intro i hi
  rw [getLsbD_insertAt hi]
  split_ifs with hin
  · have hlen : i - lsb < len := by omega
    rw [getLsbD_extractLsb', decide_eq_true hlen, Bool.true_and, Nat.add_sub_cancel' hin.1]
  · rfl

/-- A range is read by a shift and a mask. -/
theorem ushiftRight_and_allOnes (d : BitVec w) :
    d >>> lsb &&& (allOnes len).setWidth w = (d.extractLsb' lsb len).setWidth w := by
  apply eq_of_getLsbD_eq
  intro i hi
  simp only [getLsbD_and, getLsbD_ushiftRight, getLsbD_setWidth, getLsbD_allOnes,
    getLsbD_extractLsb', hi, decide_true, Bool.true_and]
  exact Bool.and_comm _ _

/-- A longer word tells values apart. -/
theorem setWidth_inj_of_le {v u : BitVec len} (h : len ≤ w) :
    v.setWidth w = u.setWidth w ↔ v = u := by
  constructor
  · intro heq
    have hback := congrArg (setWidth len) heq
    rwa [setWidth_setWidth_of_le v h, setWidth_setWidth_of_le u h, setWidth_eq,
      setWidth_eq] at hback
  · rintro rfl
    rfl

/-! ### Updates under a mask -/

/-- `old` with the bits under `mask` replaced by those of `val`. -/
def masked (old val mask : BitVec w) : BitVec w := old &&& ~~~mask ||| val

section Masked

variable {old val mask : BitVec w}

theorem masked_and (h : val &&& ~~~mask = 0) : masked old val mask &&& mask = val := by
  apply eq_of_getLsbD_eq
  intro i hi
  have hbit := congrArg (fun v => getLsbD v i) h
  simp only [getLsbD_and, getLsbD_not, hi, decide_true, Bool.true_and] at hbit
  simp only [masked, getLsbD_and, getLsbD_or, getLsbD_not, hi, decide_true, Bool.true_and]
  cases hm : mask.getLsbD i <;> simp_all

theorem masked_masked : masked (masked old val mask) val mask = masked old val mask := by
  apply eq_of_getLsbD_eq
  intro i hi
  simp only [masked, getLsbD_and, getLsbD_or, getLsbD_not, hi, decide_true, Bool.true_and]
  cases mask.getLsbD i <;> simp

/-- The update may be made in a longer word. -/
theorem setWidth_masked (h : w ≤ len) :
    (old.setWidth len &&& ~~~mask.setWidth len ||| val.setWidth len).setWidth w =
      masked old val mask := by
  apply eq_of_getLsbD_eq
  intro i hi
  have hlen : i < len := by omega
  simp [masked, hi, hlen]

end Masked

end BitVec
