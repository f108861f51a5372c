import XPS9350.Aml.Emits

/-!
# Views of the state

A view is what somebody sees of the state: a part of it, or what it stands for.
`Acts env E view x m Q` says that `m`, started in any state that is seen as `x`, ends with a result
and in a state seen as `Q` says, or runs out of fuel as `E` allows.  A program is known by what it
does to the view, so the rules below are those of an interpreter over the view.
-/

namespace Aml

variable {S : Signature} {σ α β γ X : Type} {env : Env S σ} {E : World S σ → Prop}
  {view : State S σ → X} {x : X}

/-- Seen as `view`, the program takes `x` to what `Q` says. -/
def Acts (env : Env S σ) (E : World S σ → Prop) (view : State S σ → X) (x : X) (m : Prog S σ α)
    (Q : α → X → Prop) : Prop :=
  ∀ w : World S σ, view w.toState = x → wp env E m (fun a w' => Q a (view w'.toState)) w

section Acts

variable {m : Prog S σ α} {Q Q' : α → X → Prop}

/-- The program ends as `Q` says. -/
theorem Acts.run (h : Acts env (fun _ => False) view x m Q) {s : State S σ} (hs : view s = x) :
    ∃ a w, m env s.world = (some a, w) ∧ Q a (view w.toState) :=
  wp_false_iff.mp (h s.world hs)

theorem Acts.imp (h : Acts env E view x m Q) (hQ : ∀ a y, Q a y → Q' a y) :
    Acts env E view x m Q' := fun w hw =>
  wp_imp (h w hw) fun a w' ha => hQ a (view w'.toState) ha

theorem acts_pure {a : α} (h : Q a x) : Acts env E view x (pure a) Q := by
  rintro w rfl
  exact wp_pure.mpr h

theorem acts_bind {f : α → Prog S σ β} {R : β → X → Prop} (hm : Acts env E view x m Q)
    (hf : ∀ a y, Q a y → Acts env E view y (f a) R) : Acts env E view x (m >>= f) R := by
  intro w hw
  rw [wp_bind]
  exact wp_imp (hm w hw) fun a w' ha => hf a (view w'.toState) ha w' rfl

/-- Sequencing after a program whose outcome is known. -/
theorem acts_then {f : α → Prog S σ β} {R : β → X → Prop} {a : α} {y : X}
    (hm : Acts env E view x m fun b z => b = a ∧ z = y) (hf : Acts env E view y (f a) R) :
    Acts env E view x (m >>= f) R := by
  refine acts_bind hm ?_
  rintro _ _ ⟨rfl, rfl⟩
  exact hf

theorem acts_act {e : Event S} {ha : ∀ (hw : Hardware S σ) s, hw.Answers s e} {Q : Unit → X → Prop}
    (h : ∀ s, view s = x → Q () (view (env.hw.after s e))) : Acts env E view x (Prog.act e ha) Q :=
  fun w hw => wp_act.mpr (h w.toState hw)

theorem acts_load {f : S.Field} {Q : Integer → X → Prop}
    (h : ∀ s, view s = x → Q (env.hw.reads f s) (view (env.hw.after s (.load f 0)))) :
    Acts env E view x (Prog.load f) Q :=
  fun w hw => wp_load.mpr (h w.toState hw)

theorem acts_get {n : S.Name} {Q : Integer → X → Prop} (h : ∀ s, view s = x → Q (s.names n) x) :
    Acts env E view x (Prog.get n) Q := by
  rintro w rfl
  exact wp_get.mpr (h w.toState rfl)

theorem acts_call {i : S.Method} (h : Acts env E view x m Q) :
    Acts env E view x (Prog.call i m) Q := fun w hw =>
  wp_call.mpr (h (w.perform env.hw (.enter i)) hw)

theorem acts_ite {c : Prop} [Decidable c] {n : Prog S σ α} (hm : c → Acts env E view x m Q)
    (hn : ¬ c → Acts env E view x n Q) : Acts env E view x (if c then m else n) Q := by
  split_ifs with h
  · exact hm h
  · exact hn h

/-- A program whose events cannot be seen. -/
theorem acts_of_emits {P : World S σ → Event S → Prop} (h : Emits env P m)
    (hview : ∀ w e, P w e → view (env.hw.after w.toState e) = view w.toState) :
    Acts env (fun _ => True) view x m fun _ y => y = x := by
  rintro w rfl
  refine wp_of_emits h (fun _ _ => trivial) fun _ w' hpath => ?_
  exact hpath.invariant (I := fun u => view u.toState = view w.toState) rfl fun u e hu _ he =>
    (hview u e he).trans hu

/-- The rule for loops of at most `bound` passes. -/
theorem acts_whileLoop {l : S.Loop} {cond : β → Prog S σ Bool}
    {body : β → Prog S σ (Prog.Flow β γ)} {done : β → γ} {b : β} {Q : γ → X → Prop}
    (I : ℕ → β → X → Prop) (bound : ℕ) (hfuel : bound < env.fuel) (init : I 0 b x)
    (round : ∀ i b y, I i b y → i ≤ bound ∧ Acts env E view y (cond b) fun c z =>
      if c then
        Acts env E view z (body b) fun r z' =>
          match r with
          | .next b' => I (i + 1) b' z'
          | .leave c => Q c z'
      else Q (done b) z) :
    Acts env E view x (Prog.whileLoop l cond body done b) Q := by
  rintro w rfl
  refine wp_whileLoop_bounded (fun i b u => I i b (view u.toState)) bound hfuel init ?_
  intro i b u hI
  obtain ⟨hi, hround⟩ := round i b (view u.toState) hI
  refine ⟨hi, wp_imp (hround (u.perform env.hw (.test l i)) rfl) fun c u' hc => ?_⟩
  cases c with
  | false => exact hc
  | true =>
    refine wp_imp (hc (u'.perform env.hw (.pass l i)) rfl) fun r u'' hr => ?_
    cases r with
    | next b' => exact hr
    | leave x => exact hr

/-- The rule for loops that may go on for ever. -/
theorem acts_whileLoop_partial {l : S.Loop} {cond : β → Prog S σ Bool}
    {body : β → Prog S σ (Prog.Flow β γ)} {done : β → γ} {b : β} {Q : γ → X → Prop}
    (I : β → X → Prop) (init : I b x)
    (round : ∀ b y, I b y → Acts env (fun _ => True) view y (cond b) fun c z =>
      if c then
        Acts env (fun _ => True) view z (body b) fun r z' =>
          match r with
          | .next b' => I b' z'
          | .leave c => Q c z'
      else Q (done b) z) :
    Acts env (fun _ => True) view x (Prog.whileLoop l cond body done b) Q := by
  rintro w rfl
  refine wp_whileLoop (fun _ b u => I b (view u.toState)) init ?_ fun _ _ _ => trivial
  intro i b u _ hI
  refine wp_imp (round b (view u.toState) hI (u.perform env.hw (.test l i)) rfl) fun c u' hc => ?_
  cases c with
  | false => exact hc
  | true =>
    refine wp_imp (hc (u'.perform env.hw (.pass l i)) rfl) fun r u'' hr => ?_
    cases r with
    | next b' => exact hr
    | leave x => exact hr

end Acts

end Aml
