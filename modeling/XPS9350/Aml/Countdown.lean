import Mathlib.Algebra.Ring.Nat
import XPS9350.Aml.Wp

/-!
# Loops that count down

Many loops of a table give a local a number of tries and count it down.  `countdown n i` is that
local after `i` rounds, and `wp_countdown` the rule for `While (Local0)` over it: the invariant
speaks about the round instead of the local.
-/

namespace Aml

variable {S : Signature} {σ γ : Type} {env : Env S σ} {E : World S σ → Prop}

/-- What is left of `n` tries after `i` of them. -/
def countdown (n i : ℕ) : Integer := BitVec.ofNat 64 (n - i)

section

variable {n i : ℕ}

theorem toNat_countdown (hn : n < 2 ^ 64) : (countdown n i).toNat = n - i := by
  rw [countdown, BitVec.toNat_ofNat, Nat.mod_eq_of_lt (by omega)]

theorem countdown_self : countdown n n = 0 := by
  rw [countdown, Nat.sub_self]
  rfl

theorem countdown_ne_zero (hn : n < 2 ^ 64) (hi : i < n) : countdown n i ≠ 0 := by
  intro h
  have hzero : (countdown n i).toNat = 0 := by rw [h]; rfl
  rw [toNat_countdown hn] at hzero
  omega

theorem lt_of_countdown_ne_zero (hi : i ≤ n) (h : countdown n i ≠ 0) : i < n := by
  refine Nat.lt_of_le_of_ne hi ?_
  rintro rfl
  exact h countdown_self

/-- A round takes one try away. -/
theorem countdown_sub_one (hn : n < 2 ^ 64) (hi : i < n) :
    countdown n i - 1 = countdown n (i + 1) := by
  have hsub (v : Integer) (hv : 1 ≤ v.toNat) : (v - 1).toNat = v.toNat - 1 := by bv_omega
  apply BitVec.eq_of_toNat_eq
  rw [hsub _ (by rw [toNat_countdown hn]; omega), toNat_countdown hn, toNat_countdown hn]
  omega

end

/-- The rule for `While (Local0)` with `n` tries: `I i` holds before the `i`-th test. -/
theorem wp_countdown {l : S.Loop} {body : Integer → Prog S σ (Prog.Flow Integer γ)}
    {done : Integer → γ} {Q : γ → World S σ → Prop} {w : World S σ} {n : ℕ}
    (I : ℕ → World S σ → Prop) (hn : n < 2 ^ 64) (hfuel : n < env.fuel) (init : I 0 w)
    (pass : ∀ i u, i < n → I i u → wp env E (body (countdown n i)) (fun r u' =>
      match r with
      | .next b => b = countdown n (i + 1) ∧ I (i + 1) u'
      | .leave x => Q x u') ((u.perform env.hw (.test l i)).perform env.hw (.pass l i)))
    (exit : ∀ u, I n u → Q (done 0) (u.perform env.hw (.test l n))) :
    wp env E (Prog.whileLoop l (fun b => pure (decide (b ≠ 0))) body done (countdown n 0)) Q w := by
  refine wp_whileLoop_bounded (fun i b u => i ≤ n ∧ b = countdown n i ∧ I i u) n hfuel
    ⟨Nat.zero_le n, rfl, init⟩ ?_
  rintro i _ u ⟨hi, rfl, hI⟩
  refine ⟨hi, ?_⟩
  rw [Round, wp_pure]
  by_cases hlast : i = n
  · subst hlast
    rw [countdown_self, if_neg (by decide)]
    exact exit u hI
  · have hlt : i < n := by omega
    rw [if_pos (decide_eq_true (countdown_ne_zero hn hlt))]
    refine wp_imp (pass i u hlt hI) fun r u' hr => ?_
    cases r with
    | next b => exact ⟨hlt, hr⟩
    | leave x => exact hr

end Aml
