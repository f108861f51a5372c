import XPS9350.Aml.Prog

/-!
# Weakest preconditions

`wp env E m Q w`: running `m` from `w` ends in a world satisfying `Q`, or runs out of fuel in one
satisfying `E`.  With `E = fun _ => True` this is partial correctness, with `E = fun _ => False`
total correctness.  The equations below compute `wp` along a program; `wp_whileLoop` is the rule
for loops, with an invariant that may count the passes.
-/

namespace Aml

variable {S : Signature} {σ α β γ : Type} {env : Env S σ} {E : World S σ → Prop}

/-- Every outcome of `m` from `w` satisfies `Q`, or `E` when the fuel runs out. -/
def wp (env : Env S σ) (E : World S σ → Prop) (m : Prog S σ α) (Q : α → World S σ → Prop)
    (w : World S σ) : Prop :=
  match m env w with
  | (some a, w') => Q a w'
  | (none, w') => E w'

theorem wp_of_run {m : Prog S σ α} {Q : α → World S σ → Prop} {w w' : World S σ} {a : α}
    (hm : m env w = (some a, w')) (h : wp env E m Q w) : Q a w' := by
  simpa only [wp, hm] using h

theorem wp_of_eq {m : Prog S σ α} {Q : α → World S σ → Prop} {w w' : World S σ} {a : α}
    (hm : m env w = (some a, w')) (h : Q a w') : wp env E m Q w := by
  simpa only [wp, hm] using h

theorem wp_iff {m : Prog S σ α} {Q : α → World S σ → Prop} {w : World S σ} :
    wp env E m Q w ↔ (∀ a w', m env w = (some a, w') → Q a w') ∧
      ∀ w', m env w = (none, w') → E w' := by
  unfold wp
  rcases m env w with ⟨_ | a, w'⟩
  · simp
  · simp

/-- What holds of the world at the end, however the run ends. -/
theorem wp_snd {R : World S σ → Prop} {m : Prog S σ α} {w : World S σ}
    (h : wp env R m (fun _ => R) w) : R (m env w).2 := by
  unfold wp at h
  rcases hm : m env w with ⟨_ | a, w'⟩ <;> rw [hm] at h <;> exact h

/-- Total correctness names the outcome. -/
theorem wp_false_iff {m : Prog S σ α} {Q : α → World S σ → Prop} {w : World S σ} :
    wp env (fun _ => False) m Q w ↔ ∃ a w', m env w = (some a, w') ∧ Q a w' := by
  unfold wp
  rcases m env w with ⟨_ | a, w'⟩
  · simp
  · constructor
    · exact fun h => ⟨a, w', rfl, h⟩
    · rintro ⟨_, _, ⟨⟩, h⟩
      exact h

theorem wp_mono {E' : World S σ → Prop} {m : Prog S σ α} {Q Q' : α → World S σ → Prop}
    {w : World S σ} (h : wp env E m Q w) (hE : ∀ w', E w' → E' w')
    (hQ : ∀ a w', Q a w' → Q' a w') : wp env E' m Q' w := by
  rw [wp_iff] at h ⊢
  exact ⟨fun a w' hm => hQ a w' (h.1 a w' hm), fun w' hm => hE w' (h.2 w' hm)⟩

/-- The rule of consequence with the outcome on out of fuel unchanged. -/
theorem wp_imp {m : Prog S σ α} {Q Q' : α → World S σ → Prop} {w : World S σ}
    (h : wp env E m Q w) (hQ : ∀ a w', Q a w' → Q' a w') : wp env E m Q' w :=
  wp_mono h (fun _ hE => hE) hQ

/-! ### The equations -/

@[simp] theorem wp_pure {a : α} {Q : α → World S σ → Prop} {w : World S σ} :
    wp env E (pure a) Q w ↔ Q a w := Iff.rfl

@[simp] theorem wp_bind {m : Prog S σ α} {f : α → Prog S σ β} {Q : β → World S σ → Prop}
    {w : World S σ} :
    wp env E (m >>= f) Q w ↔ wp env E m (fun a w' => wp env E (f a) Q w') w := by
  unfold wp
  rw [Prog.run_bind]
  rcases m env w with ⟨_ | a, w'⟩ <;> rfl

@[simp] theorem wp_halt {Q : α → World S σ → Prop} {w : World S σ} :
    wp env E Prog.halt Q w ↔ E w := Iff.rfl

@[simp] theorem wp_get {n : S.Name} {Q : Integer → World S σ → Prop} {w : World S σ} :
    wp env E (Prog.get n) Q w ↔ Q (w.names n) w := Iff.rfl

@[simp] theorem wp_act {e : Event S} {he : ∀ (hw : Hardware S σ) s, hw.Answers s e}
    {Q : Unit → World S σ → Prop} {w : World S σ} :
    wp env E (Prog.act e he) Q w ↔ Q () (w.perform env.hw e) := Iff.rfl

@[simp] theorem wp_set {n : S.Name} {v : Integer} {Q : Unit → World S σ → Prop} {w : World S σ} :
    wp env E (Prog.set n v) Q w ↔ Q () (w.perform env.hw (.set n v)) := Iff.rfl

@[simp] theorem wp_load {f : S.Field} {Q : Integer → World S σ → Prop} {w : World S σ} :
    wp env E (Prog.load f) Q w ↔
      Q (env.hw.reads f w.toState) (w.perform env.hw (.load f (env.hw.reads f w.toState))) :=
  Iff.rfl

@[simp] theorem wp_store {f : S.Field} {v : Integer} {Q : Unit → World S σ → Prop}
    {w : World S σ} :
    wp env E (Prog.store f v) Q w ↔ Q () (w.perform env.hw (.store f (S.cut f v))) := Iff.rfl

@[simp] theorem wp_sleep {ms : Integer} {Q : Unit → World S σ → Prop} {w : World S σ} :
    wp env E (Prog.sleep ms) Q w ↔ Q () (w.perform env.hw (.sleep ms)) := Iff.rfl

@[simp] theorem wp_stall {us : Integer} {Q : Unit → World S σ → Prop} {w : World S σ} :
    wp env E (Prog.stall us) Q w ↔ Q () (w.perform env.hw (.stall us)) := Iff.rfl

@[simp] theorem wp_timer {Q : Integer → World S σ → Prop} {w : World S σ} :
    wp env E Prog.timer Q w ↔
      Q (env.hw.timer w.hw).1 (w.perform env.hw (.timer (env.hw.timer w.hw).1)) := Iff.rfl

@[simp] theorem wp_call {m : S.Method} {body : Prog S σ α} {Q : α → World S σ → Prop}
    {w : World S σ} :
    wp env E (Prog.call m body) Q w ↔ wp env E body Q (w.perform env.hw (.enter m)) := Iff.rfl

theorem wp_whileLoop_go_iff {l : S.Loop} {cond : β → Prog S σ Bool}
    {body : β → Prog S σ (Prog.Flow β γ)} {done : β → γ} {Q : γ → World S σ → Prop} {b : β}
    {w : World S σ} :
    wp env E (Prog.whileLoop l cond body done b) Q w ↔
      wp env E (Prog.whileLoop.go l cond body done env.fuel 0 b) Q w := Iff.rfl

-- from here on a goal about a run is not settled by running the program in the elaborator
attribute [irreducible] wp

theorem wp_ite {c : Prop} [Decidable c] {m n : Prog S σ α} {Q : α → World S σ → Prop}
    {w : World S σ} :
    wp env E (if c then m else n) Q w ↔ (c → wp env E m Q w) ∧ (¬ c → wp env E n Q w) := by
  split_ifs with h <;> simp [h]

/-- Both branches of a conditional may be taken. -/
theorem wp_ite_of {c : Prop} [Decidable c] {m n : Prog S σ α} {Q : α → World S σ → Prop}
    {w : World S σ} (hm : c → wp env E m Q w) (hn : ¬ c → wp env E n Q w) :
    wp env E (if c then m else n) Q w := wp_ite.mpr ⟨hm, hn⟩

/-! ### Loops -/

section Loop

variable {l : S.Loop} {cond : β → Prog S σ Bool} {body : β → Prog S σ (Prog.Flow β γ)}
  {done : β → γ}

/-- One round of a loop: the `i`-th test, and if it succeeds the `i`-th pass, which either
restores the invariant for the next round or leaves with the postcondition. -/
def Round (env : Env S σ) (E : World S σ → Prop) (l : S.Loop) (cond : β → Prog S σ Bool)
    (body : β → Prog S σ (Prog.Flow β γ)) (done : β → γ) (I : Nat → β → World S σ → Prop)
    (Q : γ → World S σ → Prop) (i : Nat) (b : β) (w : World S σ) : Prop :=
  wp env E (cond b) (fun c w' =>
    if c then
      wp env E (body b) (fun r w'' =>
        match r with
        | .next b' => I (i + 1) b' w''
        | .leave x => Q x w'') (w'.perform env.hw (.pass l i))
    else Q (done b) w') (w.perform env.hw (.test l i))

theorem wp_whileLoop_go {I : Nat → β → World S σ → Prop} {Q : γ → World S σ → Prop}
    (round : ∀ i b w, i < env.fuel → I i b w → Round env E l cond body done I Q i b w)
    (fuel : ∀ b w, I env.fuel b w → E w) :
    ∀ (n i : Nat) (b : β) (w : World S σ), i + n = env.fuel → I i b w →
      wp env E (Prog.whileLoop.go l cond body done n i b) Q w := by
  intro n
  induction n with
  | zero =>
    intro i b w hi hI
    obtain rfl : i = env.fuel := by omega
    exact wp_halt.mpr (fuel b w hI)
  | succ n ih =>
    intro i b w hi hI
    rw [Prog.whileLoop.go, wp_bind, wp_act, wp_bind]
    refine wp_imp (round i b w (by omega) hI) fun c w' hc => ?_
    cases c with
    | false => simpa using hc
    | true =>
      simp only [↓reduceIte, wp_bind, wp_act] at hc ⊢
      refine wp_imp hc fun r w'' hr => ?_
      cases r with
      | next b' => exact ih (i + 1) b' w'' (by omega) hr
      | leave x => exact wp_pure.mpr hr

/-- The loop rule: an invariant `I i` that holds before the `i`-th test. -/
theorem wp_whileLoop (I : Nat → β → World S σ → Prop) {Q : γ → World S σ → Prop} {b : β}
    {w : World S σ} (init : I 0 b w)
    (round : ∀ i b w, i < env.fuel → I i b w → Round env E l cond body done I Q i b w)
    (fuel : ∀ b w, I env.fuel b w → E w) :
    wp env E (Prog.whileLoop l cond body done b) Q w :=
  wp_whileLoop_go_iff.mpr (wp_whileLoop_go round fuel env.fuel 0 b w (by omega) init)

/-- The loop rule for a bounded number of passes: the fuel is never used up. -/
theorem wp_whileLoop_bounded (I : Nat → β → World S σ → Prop) {Q : γ → World S σ → Prop}
    {b : β} {w : World S σ} (bound : Nat) (hfuel : bound < env.fuel) (init : I 0 b w)
    (round : ∀ i b w, I i b w → i ≤ bound ∧ Round env E l cond body done I Q i b w) :
    wp env E (Prog.whileLoop l cond body done b) Q w :=
  wp_whileLoop I init (fun i b w _ hI => (round i b w hI).2)
    fun b w hI => absurd (round _ b w hI).1 (by omega)

end Loop

end Aml
