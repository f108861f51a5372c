import XPS9350.Aml.Countdown
import XPS9350.Aml.Emits

/-!
# Traces

The trace of a run is the list of its events, newest first like the log it comes from.
`Traces env names m Q` says that `m` ends, whatever the hardware answers, with a result and a trace
that satisfy `Q`, and that it sets no name on the way; every value read is arbitrary.  The rules
below compute the possible traces along a program, and `traces_countdown` those of a loop.

`InOrder P es` says what a trace must have seen before each of its events.
-/

namespace Aml

variable {S : Signature} {σ α β γ : Type}

/-- The events so far, newest first. -/
def World.events (w : World S σ) : List (Event S) := w.log.map (·.event)

@[simp] theorem World.perform_events (hw : Hardware S σ) (w : World S σ) (e : Event S) :
    (w.perform hw e).events = e :: w.events := rfl

@[simp] theorem State.world_events (s : State S σ) : s.world.events = [] := rfl

/-- With the given names `m` ends, with a result and a trace that satisfy `Q`. -/
def Traces (env : Env S σ) (names : S.Name → Integer) (m : Prog S σ α)
    (Q : α → List (Event S) → Prop) : Prop :=
  ∀ w : World S σ, w.names = names → wp env (fun _ => False) m
    (fun a w' => w'.names = names ∧ ∃ es, w'.events = es ++ w.events ∧ Q a es) w

section Rules

variable {env : Env S σ} {names : S.Name → Integer} {m : Prog S σ α}
  {Q Q' : α → List (Event S) → Prop}

/-- What the run of a program leaves. -/
theorem Traces.run (h : Traces env names m Q) (w : World S σ) (hw : w.names = names) :
    ∃ a w' es, m env w = (some a, w') ∧ w'.names = names ∧ w'.events = es ++ w.events ∧
      Q a es := by
  obtain ⟨a, w', hr, hn, es, hes, hQ⟩ := wp_false_iff.mp (h w hw)
  exact ⟨a, w', es, hr, hn, hes, hQ⟩

theorem Traces.imp (h : Traces env names m Q) (hQ : ∀ a es, Q a es → Q' a es) :
    Traces env names m Q' := by
  intro w hw
  refine wp_imp (h w hw) ?_
  rintro a w' ⟨hn, es, hes, ha⟩
  exact ⟨hn, es, hes, hQ a es ha⟩

/-- Two properties of the same run. -/
theorem Traces.and (h : Traces env names m Q) (h' : Traces env names m Q') :
    Traces env names m fun a es => Q a es ∧ Q' a es := by
  intro w hw
  obtain ⟨a, w', es, hr, hn, hes, ha⟩ := h.run w hw
  obtain ⟨a', w'', es', hr', -, hes', ha'⟩ := h'.run w hw
  have heq := hr.symm.trans hr'
  obtain ⟨rfl, rfl⟩ : a = a' ∧ w' = w'' := by simpa using heq
  obtain rfl : es = es' := List.append_cancel_right (hes.symm.trans hes')
  exact wp_false_iff.mpr ⟨a, w', hr, hn, es, hes, ha, ha'⟩

/-- Every event of the trace is one that `m` performs. -/
theorem Traces.emits {P : World S σ → Event S → Prop} {R : Event S → Prop}
    (h : Traces env names m Q) (he : Emits env P m) (hR : ∀ w e, P w e → R e) :
    Traces env names m fun a es => Q a es ∧ ∀ e ∈ es, R e := by
  intro w hw
  obtain ⟨a, w', es, hr, hn, hes, ha⟩ := h.run w hw
  refine wp_false_iff.mpr ⟨a, w', hr, hn, es, hes, ha, fun e hmem => ?_⟩
  have hpath := he w
  rw [hr] at hpath
  obtain ⟨new, hlog, hnew⟩ := hpath.log_append
  have hevents : w'.events = new.map (·.event) ++ w.events := by
    rw [World.events, hlog, List.map_append]
    rfl
  rw [List.append_cancel_right (hes.symm.trans hevents)] at hmem
  obtain ⟨x, hx, rfl⟩ := List.mem_map.mp hmem
  obtain ⟨u, -, hu⟩ := hnew x hx
  exact hR u x.event hu

/-- `es` is the trace of a run of `m` that returned `a`. -/
def TraceOf (env : Env S σ) (m : Prog S σ α) (a : α) (es : List (Event S)) : Prop :=
  ∃ w w', m env w = (some a, w') ∧ w'.events = es ++ w.events

theorem Traces.traceOf (h : Traces env names m Q) :
    Traces env names m fun a es => Q a es ∧ TraceOf env m a es := by
  intro w hw
  obtain ⟨a, w', es, hr, hn, hes, ha⟩ := h.run w hw
  exact wp_false_iff.mpr ⟨a, w', hr, hn, es, hes, ha, w, w', hr, hes⟩

theorem traces_pure {a : α} (h : Q a []) : Traces env names (pure a) Q := fun _ hw =>
  wp_pure.mpr ⟨hw, [], rfl, h⟩

theorem traces_bind {f : α → Prog S σ β} {R : β → List (Event S) → Prop}
    (hm : Traces env names m Q)
    (hf : ∀ a es, Q a es → Traces env names (f a) fun b es' => R b (es' ++ es)) :
    Traces env names (m >>= f) R := by
  intro w hw
  rw [wp_bind]
  refine wp_imp (hm w hw) ?_
  rintro a w₁ ⟨hn₁, es, hes, ha⟩
  refine wp_imp (hf a es ha w₁ hn₁) ?_
  rintro b w₂ ⟨hn₂, es', hes', hb⟩
  exact ⟨hn₂, es' ++ es, by rw [hes', hes, List.append_assoc], hb⟩

/-- Sequencing behind the trace `es₀`. -/
theorem traces_bind_append {f : α → Prog S σ β} {R : β → List (Event S) → Prop}
    {es₀ : List (Event S)} (hm : Traces env names m Q)
    (hf : ∀ a es, Q a es → Traces env names (f a) fun b es' => R b (es' ++ (es ++ es₀))) :
    Traces env names (m >>= f) fun b es => R b (es ++ es₀) :=
  traces_bind hm fun a es ha => (hf a es ha).imp fun b es' h => by rwa [List.append_assoc]

theorem traces_get {n : S.Name} {Q : Integer → List (Event S) → Prop} (h : Q (names n) []) :
    Traces env names (Prog.get n) Q := by
  rintro w rfl
  exact wp_get.mpr ⟨rfl, [], rfl, h⟩

theorem traces_load {f : S.Field} {Q : Integer → List (Event S) → Prop}
    (h : ∀ v, Q v [.load f v]) : Traces env names (Prog.load f) Q := by
  rintro w rfl
  exact wp_load.mpr ⟨rfl, _, rfl, h _⟩

theorem traces_store {f : S.Field} {v : Integer} {Q : Unit → List (Event S) → Prop}
    (h : Q () [.store f (S.cut f v)]) : Traces env names (Prog.store f v) Q := by
  rintro w rfl
  exact wp_store.mpr ⟨rfl, _, rfl, h⟩

theorem traces_sleep {ms : Integer} {Q : Unit → List (Event S) → Prop} (h : Q () [.sleep ms]) :
    Traces env names (Prog.sleep ms) Q := by
  rintro w rfl
  exact wp_sleep.mpr ⟨rfl, _, rfl, h⟩

theorem traces_stall {us : Integer} {Q : Unit → List (Event S) → Prop} (h : Q () [.stall us]) :
    Traces env names (Prog.stall us) Q := by
  rintro w rfl
  exact wp_stall.mpr ⟨rfl, _, rfl, h⟩

theorem traces_call {i : S.Method} (h : Traces env names m fun a es => Q a (es ++ [.enter i])) :
    Traces env names (Prog.call i m) Q := by
  rintro w rfl
  rw [wp_call]
  refine wp_imp (h _ rfl) ?_
  rintro a w' ⟨hn, es, hes, ha⟩
  exact ⟨hn, es ++ [.enter i], by rw [hes, World.perform_events, List.append_assoc]; rfl, ha⟩

theorem traces_ite {c : Prop} [Decidable c] {n : Prog S σ α} (hm : c → Traces env names m Q)
    (hn : ¬ c → Traces env names n Q) : Traces env names (if c then m else n) Q := by
  split_ifs with h
  · exact hm h
  · exact hn h

section Bind

variable {R : β → List (Event S) → Prop}

theorem traces_bind_get {n : S.Name} {k : Integer → Prog S σ β}
    (h : Traces env names (k (names n)) R) : Traces env names (Prog.get n >>= k) R := by
  refine traces_bind (traces_get (Q := fun v es => v = names n ∧ es = []) ⟨rfl, rfl⟩) ?_
  rintro _ _ ⟨rfl, rfl⟩
  simpa only [List.append_nil] using h

theorem traces_bind_load {f : S.Field} {k : Integer → Prog S σ β}
    (h : ∀ v, Traces env names (k v) fun b es => R b (es ++ [.load f v])) :
    Traces env names (Prog.load f >>= k) R := by
  refine traces_bind (traces_load (Q := fun v es => es = [.load f v]) fun _ => rfl) ?_
  rintro v _ rfl
  exact h v

theorem traces_bind_store {f : S.Field} {v : Integer} {k : Unit → Prog S σ β}
    (h : Traces env names (k ()) fun b es => R b (es ++ [.store f (S.cut f v)])) :
    Traces env names (Prog.store f v >>= k) R := by
  refine traces_bind (traces_store (Q := fun _ es => es = [.store f (S.cut f v)]) rfl) ?_
  rintro _ _ rfl
  exact h

theorem traces_bind_sleep {ms : Integer} {k : Unit → Prog S σ β}
    (h : Traces env names (k ()) fun b es => R b (es ++ [.sleep ms])) :
    Traces env names (Prog.sleep ms >>= k) R := by
  refine traces_bind (traces_sleep (Q := fun _ es => es = [.sleep ms]) rfl) ?_
  rintro _ _ rfl
  exact h

variable {es₀ : List (Event S)}

theorem traces_append_nil {m : Prog S σ β} (h : Traces env names m fun b es => R b (es ++ [])) :
    Traces env names m R := by
  simpa only [List.append_nil] using h

theorem traces_pure_append {b : β} (h : R b es₀) :
    Traces env names (pure b) fun b es => R b (es ++ es₀) := traces_pure h

theorem traces_load_append {f : S.Field} {k : Integer → Prog S σ β}
    (h : ∀ v, Traces env names (k v) fun b es => R b (es ++ .load f v :: es₀)) :
    Traces env names (Prog.load f >>= k) fun b es => R b (es ++ es₀) :=
  traces_bind_load fun v => (h v).imp fun b es hb => by rwa [List.append_assoc]

end Bind

/-- The rule for loops of at most `bound` passes: `I i b es` holds before the `i`-th test. -/
theorem traces_whileLoop {l : S.Loop} {cond : β → Prog S σ Bool}
    {body : β → Prog S σ (Prog.Flow β γ)} {done : β → γ} {b : β}
    {Q : γ → List (Event S) → Prop} (I : ℕ → β → List (Event S) → Prop) (bound : ℕ)
    (hfuel : bound < env.fuel) (init : I 0 b [])
    (round : ∀ i b es, I i b es → i ≤ bound ∧
      Traces env names (cond b) fun c es₁ =>
        if c then
          Traces env names (body b) fun r es₂ =>
            match r with
            | .next b' => I (i + 1) b' (es₂ ++ .pass l i :: (es₁ ++ .test l i :: es))
            | .leave x => Q x (es₂ ++ .pass l i :: (es₁ ++ .test l i :: es))
        else Q (done b) (es₁ ++ .test l i :: es)) :
    Traces env names (Prog.whileLoop l cond body done b) Q := by
  intro w hw
  refine wp_whileLoop_bounded (fun i b u => u.names = names ∧
    ∃ es, u.events = es ++ w.events ∧ I i b es) bound hfuel ⟨hw, [], rfl, init⟩ ?_
  rintro i b u ⟨hu, es, hes, hI⟩
  obtain ⟨hi, hround⟩ := round i b es hI
  refine ⟨hi, wp_imp (hround (u.perform env.hw (.test l i)) hu) ?_⟩
  rintro c u₁ ⟨hu₁, es₁, hes₁, hc⟩
  have htest : u₁.events = es₁ ++ .test l i :: es ++ w.events := by
    rw [hes₁, World.perform_events, hes, List.append_assoc, List.cons_append]
  cases c with
  | false => exact ⟨hu₁, _, htest, hc⟩
  | true =>
    refine wp_imp (hc (u₁.perform env.hw (.pass l i)) hu₁) ?_
    rintro r u₂ ⟨hu₂, es₂, hes₂, hr⟩
    have hpass : u₂.events = es₂ ++ .pass l i :: (es₁ ++ .test l i :: es) ++ w.events := by
      simp only [hes₂, World.perform_events, htest, List.append_assoc, List.cons_append]
    cases r with
    | next b' => exact ⟨hu₂, _, hpass, hr⟩
    | leave x => exact ⟨hu₂, _, hpass, hr⟩

/-- The rule for `While (Local0)` with `n` tries. -/
theorem traces_countdown {l : S.Loop} {body : Integer → Prog S σ (Prog.Flow Integer γ)}
    {done : Integer → γ} {Q : γ → List (Event S) → Prop} {n : ℕ}
    (I : ℕ → List (Event S) → Prop) (hn : n < 2 ^ 64) (hfuel : n < env.fuel) (init : I 0 [])
    (pass : ∀ i es, i < n → I i es → Traces env names (body (countdown n i)) fun r es' =>
      match r with
      | .next b => b = countdown n (i + 1) ∧ I (i + 1) (es' ++ .pass l i :: .test l i :: es)
      | .leave x => Q x (es' ++ .pass l i :: .test l i :: es))
    (exit : ∀ es, I n es → Q (done 0) (.test l n :: es)) :
    Traces env names
      (Prog.whileLoop l (fun b => pure (decide (b ≠ 0))) body done (countdown n 0)) Q := by
  refine traces_whileLoop (fun i b es => i ≤ n ∧ b = countdown n i ∧ I i es) n hfuel
    ⟨Nat.zero_le n, rfl, init⟩ ?_
  rintro i _ es ⟨hi, rfl, hI⟩
  refine ⟨hi, traces_pure ?_⟩
  by_cases hlast : i = n
  · subst hlast
    rw [countdown_self, if_neg (by decide)]
    exact exit es hI
  · have hlt : i < n := by omega
    rw [if_pos (decide_eq_true (countdown_ne_zero hn hlt))]
    refine (pass i es hlt hI).imp ?_
    rintro (b | x) es' h
    · exact ⟨hlt, h⟩
    · exact h

end Rules

/-! ### Order -/

/-- Every event of the trace satisfies `P` together with the events before it. -/
def InOrder (P : Event S → List (Event S) → Prop) (es : List (Event S)) : Prop :=
  ∀ newer e older, es = newer ++ e :: older → P e older

section InOrder

variable {P P' : Event S → List (Event S) → Prop} {es es' : List (Event S)}

theorem inOrder_append (h : InOrder P es) (h' : InOrder (fun e older => P e (older ++ es)) es') :
    InOrder P (es' ++ es) := by
  intro newer e older heq
  rcases List.append_eq_append_iff.mp heq with ⟨mid, rfl, hes⟩ | ⟨mid, hes', hcons⟩
  · exact h mid e older hes
  · cases mid with
    | nil => exact h [] e older hcons.symm
    | cons x mid =>
      obtain ⟨rfl, rfl⟩ := List.cons.inj hcons
      exact h' newer e mid hes'

/-- It held when the trace was shorter. -/
theorem InOrder.of_append (h : InOrder P (es' ++ es)) : InOrder P es := by
  rintro newer e older rfl
  exact h (es' ++ newer) e older (List.append_assoc es' newer (e :: older)).symm

theorem inOrder_nil : InOrder P ([] : List (Event S)) := by
  intro newer e older heq
  exact absurd heq.symm (List.append_ne_nil_of_right_ne_nil newer (List.cons_ne_nil e older))

theorem inOrder_cons {e : Event S} : InOrder P (e :: es) ↔ P e es ∧ InOrder P es := by
  constructor
  · intro h
    exact ⟨h [] e es rfl, fun newer e' older heq => h (e :: newer) e' older (by rw [heq]; rfl)⟩
  · rintro ⟨he, h⟩ newer e' older heq
    cases newer with
    | nil =>
      obtain ⟨rfl, rfl⟩ := List.cons.inj heq
      exact he
    | cons x newer => exact h newer e' older (List.cons.inj heq).2

theorem InOrder.of_forall (h : ∀ e ∈ es, ∀ older, P e older) : InOrder P es := by
  rintro newer e older rfl
  exact h e (by simp) older

end InOrder

end Aml
