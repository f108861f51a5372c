import Mathlib.Tactic.IntervalCases
import XPS9350.Properties.Handlers

/-!
# When the two sets of handlers agree

A query is a call for function 0: the buffer it returns has bit 0 set when functions are supported,
and a bit for each of them.  The handlers that go through `DTGP` are always proper
(`DSB0_proper`, `DSB0_NHI0_proper`).  Those of the deployed table are not: `agree_iff` says for
which calls they are proper and return what the others return.
-/

namespace Properties

open Aml

variable {Arg0 : UUID} {Arg1 Arg2 : Integer} {Arg3 : Object}

/-- Bit `n` of a buffer. -/
def Object.bit (o : Object) (n : ℕ) : Bool :=
  match o with
  | .buffer bytes => (bytes.getD (n / 8) 0).toNat.testBit (n % 8)
  | _ => false

/-- A package of properties. -/
def Object.IsPackage : Object → Prop
  | .package _ => True
  | _ => False

/-- A call claims no functions under a UUID other than that of the properties, and a call that
returns properties is for a function that the query for the same UUID and revision advertises. -/
structure Proper (h : Handler) (Arg0 : UUID) (Arg1 Arg2 : Integer) (Arg3 : Object) : Prop where
  claims : (h Arg0 Arg1 Arg2 Arg3).bit 0 → Arg0 = uuid
  advertised : (h Arg0 Arg1 Arg2 Arg3).IsPackage → (h Arg0 Arg1 0 Arg3).bit Arg2.toNat

/-- Two handlers answer a call in the same way, and properly. -/
structure Agree (h h' : Handler) (Arg0 : UUID) (Arg1 Arg2 : Integer) (Arg3 : Object) : Prop where
  same : h Arg0 Arg1 Arg2 Arg3 = h' Arg0 Arg1 Arg2 Arg3
  left : Proper h Arg0 Arg1 Arg2 Arg3
  right : Proper h' Arg0 Arg1 Arg2 Arg3

/-! ### What `DTGP` leaves in the local -/

/-- A call that `DTGP` lets through. -/
def Passes (Arg0 : UUID) (Arg1 Arg2 : Integer) : Prop :=
  Arg0 = uuid ∧ Arg1 = 1 ∧ (Arg2 = 0 ∨ Arg2 = 1)

instance : Decidable (Passes Arg0 Arg1 Arg2) := inferInstanceAs (Decidable (_ ∧ _))

/-- `DTGP` answers a query, leaves the properties for function 1 and refuses all else. -/
theorem DTGP_local (properties : Object) : ((DTGP Arg0 Arg1 Arg2 Arg3).run properties).2 =
    if Passes Arg0 Arg1 Arg2 then
      if Arg2 = 0 then .buffer [0x03] else properties
    else .buffer [0x00] := by
  unfold DTGP Passes
  by_cases h0 : Arg0 = uuid
  · by_cases h1 : Arg1 = 1#64
    · by_cases h2 : Arg2 = 0#64
      · simp [h0, h1, h2]
        rfl
      · by_cases h3 : Arg2 = 1#64
        · simp [h0, h1, h3]
          rfl
        · simp [h0, h1, h2, h3]
          rfl
    · simp [h0, h1]
      rfl
  · simp [h0]
    rfl

/-- A handler that answers like `DTGP`, and the calls that are not let through with `refusal`. -/
def Answers (h : Handler) (properties : Object) (refusal : UUID → Object) : Prop :=
  ∀ Arg0 Arg1 Arg2 Arg3, h Arg0 Arg1 Arg2 Arg3 =
    if Passes Arg0 Arg1 Arg2 then
      if Arg2 = 0 then .buffer [0x03] else properties
    else refusal Arg0

theorem Answers.passed {h : Handler} {properties : Object} {refusal : UUID → Object}
    (heq : Answers h properties refusal) (hp : Passes Arg0 Arg1 Arg2) :
    h Arg0 Arg1 Arg2 Arg3 = if Arg2 = 0 then .buffer [0x03] else properties := by
  rw [heq, if_pos hp]

theorem Answers.refused {h : Handler} {properties : Object} {refusal : UUID → Object}
    (heq : Answers h properties refusal) (hp : ¬ Passes Arg0 Arg1 Arg2) :
    h Arg0 Arg1 Arg2 Arg3 = refusal Arg0 := by
  rw [heq, if_neg hp]

theorem DSB0_answers : Answers DSB0._DSM hotplug
    fun Arg0 => if Arg0 = uuid then .buffer [0x00] else .integer 0 := by
  intro Arg0 Arg1 Arg2 Arg3
  unfold DSB0._DSM
  rw [DTGP_local]
  by_cases h : Passes Arg0 Arg1 Arg2
  · rw [if_pos h, if_pos h, if_pos h.1]
  · rw [if_neg h, if_neg h]

theorem DSB0_NHI0_answers : Answers DSB0.NHI0._DSM powerSave fun _ => .buffer [0x00] :=
  fun _ _ _ _ => DTGP_local powerSave

/-! ### Proper handlers -/

theorem Object.IsPackage.bit {o : Object} {n : ℕ} (h : o.IsPackage) : o.bit n = false := by
  cases o with
  | integer v => exact absurd h id
  | buffer bytes => exact absurd h id
  | package elements => rfl

/-- The answer to a query advertises functions 0 and 1. -/
theorem bit_answer {n : ℕ} : (Object.buffer [0x03]).bit n ↔ n < 2 := by
  show (List.getD [0x03] (n / 8) (0 : UInt8)).toNat.testBit (n % 8) ↔ n < 2
  by_cases hn : n < 8
  · interval_cases n <;> decide
  · obtain ⟨q, hq⟩ : ∃ q, n / 8 = q + 1 := ⟨n / 8 - 1, by omega⟩
    have hzero : List.getD [0x03] (q + 1) (0 : UInt8) = 0 := rfl
    rw [hq, hzero, show (0 : UInt8).toNat = 0 from rfl, Nat.zero_testBit]
    simp only [Bool.false_eq_true, false_iff]
    omega

theorem toNat_lt_two {v : Integer} : v.toNat < 2 ↔ v = 0 ∨ v = 1 := by
  rw [← BitVec.toNat_inj, ← BitVec.toNat_inj]
  show v.toNat < 2 ↔ v.toNat = 0 ∨ v.toNat = 1
  omega

theorem Passes.query (h : Passes Arg0 Arg1 Arg2) : Passes Arg0 Arg1 0 :=
  ⟨h.1, h.2.1, Or.inl rfl⟩

/-- A handler that answers like `DTGP` is proper when its refusals are neither answers nor
properties. -/
theorem Answers.proper {h : Handler} {properties : Object} {refusal : UUID → Object}
    (heq : Answers h properties refusal)
    (hbit : ∀ u, (refusal u).bit 0 = false) (hpackage : ∀ u, ¬ (refusal u).IsPackage) :
    Proper h Arg0 Arg1 Arg2 Arg3 where
  claims hclaim := by
    by_cases hp : Passes Arg0 Arg1 Arg2
    · exact hp.1
    · rw [heq.refused hp, hbit] at hclaim
      exact absurd hclaim (by decide)
  advertised hprop := by
    by_cases hp : Passes Arg0 Arg1 Arg2
    · rw [heq.passed hp.query, if_pos rfl, bit_answer, toNat_lt_two]
      exact hp.2.2
    · rw [heq.refused hp] at hprop
      exact absurd hprop (hpackage Arg0)

theorem DSB0_proper : Proper DSB0._DSM Arg0 Arg1 Arg2 Arg3 := by
  apply DSB0_answers.proper
  · intro u
    split_ifs <;> rfl
  · intro u
    split_ifs <;> exact id

theorem DSB0_NHI0_proper : Proper DSB0.NHI0._DSM Arg0 Arg1 Arg2 Arg3 :=
  DSB0_NHI0_answers.proper (fun _ => rfl) fun _ => id

/-! ### The deployed handlers -/

theorem TBL1_agree_iff : Agree TBL1._DSM DSB0._DSM Arg0 Arg1 Arg2 Arg3 ↔
    (Arg0 = uuid → Arg1 = 1 ∧ (Arg2 = 0 ∨ Arg2 = 1)) := by
  by_cases h0 : Arg0 = uuid
  · have hTBL1 (Arg2 : Integer) : TBL1._DSM Arg0 Arg1 Arg2 Arg3 =
        if Arg2 = 0 then .buffer [0x03] else hotplug := if_pos h0
    constructor
    · rintro ⟨hsame, -, -⟩ -
      by_contra hp
      -- `DSB0` refuses a call that `TBL1` answers
      have hDSB0 : DSB0._DSM Arg0 Arg1 Arg2 Arg3 = .buffer [0x00] :=
        (DSB0_answers.refused fun h => hp h.2).trans (if_pos h0)
      rw [hTBL1, hDSB0] at hsame
      split_ifs at hsame
      · exact absurd hsame (by decide)
      · exact absurd hsame (by decide)
    · intro h
      have hp : Passes Arg0 Arg1 Arg2 := ⟨h0, h h0⟩
      refine ⟨?_, ⟨fun _ => h0, fun _ => ?_⟩, DSB0_proper⟩
      · rw [hTBL1, DSB0_answers.passed hp]
      · rw [hTBL1, if_pos rfl, bit_answer, toNat_lt_two]
        exact hp.2.2
  · have hTBL1 (Arg2 : Integer) : TBL1._DSM Arg0 Arg1 Arg2 Arg3 = .integer 0 := if_neg h0
    refine iff_of_true ⟨?_, ⟨?_, ?_⟩, DSB0_proper⟩ fun h => absurd h h0
    · have hDSB0 : DSB0._DSM Arg0 Arg1 Arg2 Arg3 = .integer 0 :=
        (DSB0_answers.refused fun h => h0 h.1).trans (if_neg h0)
      rw [hTBL1, hDSB0]
    · rw [hTBL1]
      exact fun h => absurd h (by decide)
    · rw [hTBL1]
      exact fun h => absurd h id

theorem NHI0_agree_iff : Agree TBL1.NHI0._DSM DSB0.NHI0._DSM Arg0 Arg1 Arg2 Arg3 ↔
    Arg0 = uuid ∧ Arg1 = 1 ∧ (Arg2 = 0 ∨ Arg2 = 1) := by
  have hTBL1 (Arg2 : Integer) : TBL1.NHI0._DSM Arg0 Arg1 Arg2 Arg3 =
      if Arg2 = 0 then .buffer [0x03] else powerSave := rfl
  constructor
  · rintro ⟨hsame, -, -⟩
    by_contra hp
    -- `DTGP` refuses a call that is answered here
    have hNHI0 : DSB0.NHI0._DSM Arg0 Arg1 Arg2 Arg3 = .buffer [0x00] :=
      DSB0_NHI0_answers.refused hp
    rw [hTBL1, hNHI0] at hsame
    split_ifs at hsame
    · exact absurd hsame (by decide)
    · exact absurd hsame (by decide)
  · intro hp
    refine ⟨?_, ⟨fun _ => hp.1, fun _ => ?_⟩, DSB0_NHI0_proper⟩
    · rw [hTBL1, DSB0_NHI0_answers.passed hp]
    · rw [hTBL1, if_pos rfl, bit_answer, toNat_lt_two]
      exact hp.2.2

/-- **The deployed handlers agree with those of the full table exactly on the calls that `DTGP` lets
through**, and that of `TBL1` on the calls for other UUIDs as well. -/
theorem agree_iff (Arg0 : UUID) (Arg1 Arg2 : Integer) (Arg3 : Object) :
    (Agree TBL1._DSM DSB0._DSM Arg0 Arg1 Arg2 Arg3 ↔
      (Arg0 = uuid → Arg1 = 1 ∧ (Arg2 = 0 ∨ Arg2 = 1))) ∧
    (Agree TBL1.NHI0._DSM DSB0.NHI0._DSM Arg0 Arg1 Arg2 Arg3 ↔
      Arg0 = uuid ∧ Arg1 = 1 ∧ (Arg2 = 0 ∨ Arg2 = 1)) :=
  ⟨TBL1_agree_iff, NHI0_agree_iff⟩

/-- The query of another UUID is answered by the deployed `NHI0` as if it were supported. -/
theorem not_agree_otherUUID :
    TBL1.NHI0._DSM (Vector.replicate 16 0) 1 0 (.package []) = .buffer [0x03] ∧
      DSB0.NHI0._DSM (Vector.replicate 16 0) 1 0 (.package []) = .buffer [0x00] ∧
      ¬ Agree TBL1.NHI0._DSM DSB0.NHI0._DSM (Vector.replicate 16 0) 1 0 (.package []) := by
  refine ⟨by decide, by decide, fun h => absurd (h.left.claims ?_) (by decide)⟩
  decide

end Properties
