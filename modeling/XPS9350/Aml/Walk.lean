import Mathlib.Data.Finset.Card
import Mathlib.Logic.Function.Iterate
import Mathlib.Data.Nat.Find
import XPS9350.Aml.View

/-!
# Walks through finite sets

A walk starts at `x` and goes from `a` to `f a` until `stop` holds.  In a finite set of `n` elements
it stops within `n` steps or comes back to where it was (`stops_or_recurs`).

`acts_walk` and `acts_endless` are the rules for `While (One)` loops that make such a walk.
-/

namespace Aml

/-! ### Walks -/

section Walk

variable {α : Type} {f : α → α} {stop : α → Prop} {x : α}

/-- The walk stops after `k` steps. -/
structure StopsAt (f : α → α) (stop : α → Prop) (x : α) (k : ℕ) : Prop where
  halts : stop (f^[k] x)
  first : ∀ j < k, ¬ stop (f^[j] x)

/-- The walk never stops. -/
def Endless (f : α → α) (stop : α → Prop) (x : α) : Prop := ∀ k, ¬ stop (f^[k] x)

theorem StopsAt.unique {k k' : ℕ} (h : StopsAt f stop x k) (h' : StopsAt f stop x k') : k = k' := by
  rcases Nat.lt_trichotomy k k' with hlt | heq | hlt
  · exact absurd h.halts (h'.first k hlt)
  · exact heq
  · exact absurd h'.halts (h.first k' hlt)

theorem StopsAt.not_endless {k : ℕ} (h : StopsAt f stop x k) : ¬ Endless f stop x :=
  fun hendless => hendless k h.halts

theorem stopsAt_or_endless : (∃ k, StopsAt f stop x k) ∨ Endless f stop x := by
  classical
  by_cases h : ∃ k, stop (f^[k] x)
  · exact .inl ⟨Nat.find h, Nat.find_spec h, fun j hj => Nat.find_min h hj⟩
  · exact .inr fun k hk => h ⟨k, hk⟩

/-- A walk that is twice at the same place goes in a circle. -/
theorem iterate_add_of_recurs {i p : ℕ} (h : f^[i + p] x = f^[i] x) (k : ℕ) :
    f^[i + p + k] x = f^[i + k] x := by
  rw [Nat.add_comm (i + p) k, Nat.add_comm i k, Function.iterate_add_apply, h,
    ← Function.iterate_add_apply]

/-- Up to where it stops, a walk is never twice at the same place. -/
theorem StopsAt.ne {k i j : ℕ} (h : StopsAt f stop x k) (hij : i < j) (hj : j ≤ k) :
    f^[i] x ≠ f^[j] x := by
  intro heq
  have hback : f^[i + (j - i)] x = f^[i] x := by
    rw [show i + (j - i) = j by omega, heq]
  have hshort := iterate_add_of_recurs hback (k - j)
  rw [show i + (j - i) + (k - j) = k by omega] at hshort
  refine h.first (i + (k - j)) (by omega) ?_
  rw [← hshort]
  exact h.halts

variable {t : Finset α}

theorem iterate_mem (hf : ∀ a ∈ t, f a ∈ t) (hx : x ∈ t) : ∀ k, f^[k] x ∈ t := by
  intro k
  induction k with
  | zero => exact hx
  | succ k ih =>
    rw [Function.iterate_succ_apply']
    exact hf _ ih

/-- **The bound**: inside `t` a walk stops within `t.card` steps, if it does. -/
theorem StopsAt.lt_card {k : ℕ} (hf : ∀ a ∈ t, f a ∈ t) (hx : x ∈ t) (h : StopsAt f stop x k) :
    k < t.card := by
  have hinj : Set.InjOn (fun i => f^[i] x) (Finset.range (k + 1)) := by
    intro i hi j hj heq
    rw [Finset.mem_coe, Finset.mem_range] at hi hj
    rcases Nat.lt_trichotomy i j with hlt | hij | hlt
    · exact absurd heq (h.ne hlt (by omega))
    · exact hij
    · exact absurd heq.symm (h.ne hlt (by omega))
  have hcard := Finset.card_le_card_of_injOn (t := t) (fun i => f^[i] x)
    (fun i _ => iterate_mem hf hx i) hinj
  rw [Finset.card_range] at hcard
  omega

/-- **A walk without end comes back** to where it was within `t.card` steps. -/
theorem endless_iff_recurs (hf : ∀ a ∈ t, f a ∈ t) (hx : x ∈ t) : Endless f stop x ↔
    ∃ i j, i < j ∧ j ≤ t.card ∧ f^[i] x = f^[j] x ∧ ∀ k < j, ¬ stop (f^[k] x) := by
  constructor
  · intro h
    have hcard : t.card < (Finset.range (t.card + 1)).card := by
      rw [Finset.card_range]
      omega
    obtain ⟨i, hi, j, hj, hne, heq⟩ :=
      Finset.exists_ne_map_eq_of_card_lt_of_maps_to hcard (fun i _ => iterate_mem hf hx i)
    rw [Finset.mem_range] at hi hj
    rcases Nat.lt_or_gt_of_ne hne with hlt | hlt
    · exact ⟨i, j, hlt, by omega, heq, fun k _ => h k⟩
    · exact ⟨j, i, hlt, by omega, heq.symm, fun k _ => h k⟩
  · rintro ⟨i, j, hij, -, heq, hgo⟩ k
    have hback : f^[i + (j - i)] x = f^[i] x := by
      rw [show i + (j - i) = j by omega, heq]
    induction k using Nat.strongRecOn with
    | ind k ih =>
      by_cases hk : k < j
      · exact hgo k hk
      · have hshort := iterate_add_of_recurs hback (k - j)
        rw [show i + (j - i) + (k - j) = k by omega] at hshort
        rw [hshort]
        exact ih (i + (k - j)) (by omega)

end Walk

/-! ### Loops that walk -/

section Loop

variable {S : Signature} {σ α β γ X : Type} {env : Env S σ} {view : State S σ → X} {x : X}
  {l : S.Loop} {body : β → Prog S σ (Prog.Flow β γ)} {done : β → γ} {f : α → α} {stop : α → Prop}
  {At : α → β → Prop} {out : α → γ} {a : α} {b : β}

/-- Every round is a step of the walk, `At a b` saying that the locals `b` stand for `a`. -/
def Walks (env : Env S σ) (view : State S σ → X) (x : X) (body : β → Prog S σ (Prog.Flow β γ))
    (f : α → α) (stop : α → Prop) (At : α → β → Prop) (out : α → γ) : Prop :=
  ∀ a b, At a b → Acts env (fun _ => False) view x (body b) fun r y =>
    y = x ∧ (stop a ∧ r = .leave (out a) ∨ ¬ stop a ∧ ∃ b', At (f a) b' ∧ r = .next b')

/-- The rule for a walk that stops. -/
theorem acts_walk {k : ℕ} (hbody : Walks env view x body f stop At out) (h : StopsAt f stop a k)
    (hfuel : k < env.fuel) (hb : At a b) :
    Acts env (fun _ => False) view x (Prog.whileLoop l (fun _ => pure true) body done b)
      fun r y => r = out (f^[k] a) ∧ y = x := by
  refine acts_whileLoop (fun i b y => i ≤ k ∧ At (f^[i] a) b ∧ y = x) k hfuel
    ⟨Nat.zero_le k, hb, rfl⟩ ?_
  rintro i b _ ⟨hi, hb, rfl⟩
  refine ⟨hi, acts_pure ?_⟩
  rw [if_pos rfl]
  refine (hbody (f^[i] a) b hb).imp ?_
  rintro _ _ ⟨rfl, ⟨hstop, rfl⟩ | ⟨hgo, b', hb', rfl⟩⟩
  · have hik : i = k := by
      by_contra hne
      exact h.first i (by omega) hstop
    rw [hik]
    exact ⟨rfl, rfl⟩
  · have hik : i ≠ k := by
      rintro rfl
      exact hgo h.halts
    rw [← Function.iterate_succ_apply' f i a] at hb'
    exact ⟨by omega, hb', rfl⟩

/-- The rule for a walk without end: it runs out of fuel. -/
theorem acts_endless (hbody : Walks env view x body f stop At out) (h : Endless f stop a)
    (hb : At a b) :
    Acts env (fun _ => True) view x (Prog.whileLoop l (fun _ => pure true) body done b)
      fun _ _ => False := by
  refine acts_whileLoop_partial (fun b y => (∃ i, At (f^[i] a) b) ∧ y = x) ⟨⟨0, hb⟩, rfl⟩ ?_
  rintro b _ ⟨⟨i, hb⟩, rfl⟩
  refine acts_pure ?_
  rw [if_pos rfl]
  intro w hw
  refine wp_mono (hbody (f^[i] a) b hb w hw) (fun _ _ => trivial) ?_
  rintro _ w' ⟨hview, ⟨hstop, rfl⟩ | ⟨-, b', hb', rfl⟩⟩
  · exact h i hstop
  · rw [← Function.iterate_succ_apply' f i a] at hb'
    exact ⟨⟨i + 1, hb'⟩, hview⟩

end Loop

end Aml
