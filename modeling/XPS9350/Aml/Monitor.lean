import XPS9350.Aml.Trace

/-!
# Monitors

A monitor looks at the events of a run one after the other: `next x e` is what it knows after the
event `e` if it knew `x` before, and `none` when `e` must not happen then.
`Keeps env next x m Q` says that `m`, started where the monitor knows `x`, never does what it must
not, whatever the hardware answers, and ends where the monitor knows something that satisfies `Q`.
-/

namespace Aml

variable {S : Signature} {σ α β γ X : Type} {env : Env S σ} {next : X → Event S → Option X}
  {x y x₀ : X} {w : World S σ} {e : Event S}

/-- What is read fits the field unit. -/
theorem Hardware.cut_reads (hw : Hardware S σ) (f : S.Field) (s : State S σ) :
    S.cut f (hw.reads f s) = hw.reads f s := by
  ext i hi
  simp only [Signature.cut, Hardware.reads, BitVec.getElem_setWidth, BitVec.getLsbD_setWidth]
  by_cases h : i < S.width f
  · simp [h, hi]
  · simp [h, BitVec.getLsbD_of_ge _ i (Nat.le_of_not_lt h)]

variable (next) in
/-- What a monitor that started with `x₀` knows after what is on the log. -/
def World.scan (x₀ : X) (w : World S σ) : Option X := w.events.reverse.foldlM next x₀

theorem foldlM_reverse_cons_eq {es : List (Event S)} :
    (e :: es).reverse.foldlM next x = (es.reverse.foldlM next x).bind (next · e) := by
  rw [List.reverse_cons, List.foldlM_append]
  show ((es.reverse.foldlM next x).bind fun x => (next x e).bind some) = _
  simp only [Option.bind_fun_some]

/-- What a monitor knows after one event more, with the newest event first. -/
theorem foldlM_reverse_cons {es : List (Event S)} :
    (e :: es).reverse.foldlM next x = some y ↔
      ∃ z, es.reverse.foldlM next x = some z ∧ next z e = some y := by
  rw [foldlM_reverse_cons_eq, Option.bind_eq_some_iff]

theorem World.scan_perform :
    (w.perform env.hw e).scan next x₀ = (w.scan next x₀).bind (next · e) := by
  rw [World.scan, World.perform_events, foldlM_reverse_cons_eq]
  rfl

theorem World.scan_next (h : w.scan next x₀ = some x) (he : next x e = some y) :
    (w.perform env.hw e).scan next x₀ = some y := by
  rw [World.scan_perform, h]
  exact he

/-- From where the monitor knows `x` the program does nothing wrong and ends as `Q` says. -/
def Keeps (env : Env S σ) (next : X → Event S → Option X) (x : X) (m : Prog S σ α)
    (Q : α → X → Prop) : Prop :=
  ∀ x₀ w, w.scan next x₀ = some x → wp env (fun w' => (w'.scan next x₀).isSome) m
    (fun a w' => ∃ y, w'.scan next x₀ = some y ∧ Q a y) w

section Keeps

variable {m : Prog S σ α} {Q Q' : α → X → Prop}

theorem Keeps.imp (h : Keeps env next x m Q) (hQ : ∀ a y, Q a y → Q' a y) :
    Keeps env next x m Q' := by
  intro x₀ w hw
  refine wp_imp (h x₀ w hw) ?_
  rintro a w' ⟨y, hy, ha⟩
  exact ⟨y, hy, hQ a y ha⟩

theorem keeps_pure {a : α} (h : Q a x) : Keeps env next x (pure a) Q := fun _ _ hw =>
  wp_pure.mpr ⟨x, hw, h⟩

theorem keeps_halt : Keeps env next x (Prog.halt : Prog S σ α) Q := by
  intro x₀ w hw
  rw [wp_halt, hw]
  rfl

theorem keeps_bind {f : α → Prog S σ β} {R : β → X → Prop} (hm : Keeps env next x m Q)
    (hf : ∀ a y, Q a y → Keeps env next y (f a) R) : Keeps env next x (m >>= f) R := by
  intro x₀ w hw
  rw [wp_bind]
  refine wp_imp (hm x₀ w hw) ?_
  rintro a w' ⟨y, hy, ha⟩
  exact hf a y ha x₀ w' hy

/-- Sequencing after a program that changes nothing for the monitor. -/
theorem keeps_seq {f : α → Prog S σ β} {R : β → X → Prop}
    (hm : Keeps env next x m fun _ y => y = x) (hf : ∀ a, Keeps env next x (f a) R) :
    Keeps env next x (m >>= f) R :=
  keeps_bind hm fun a y hy => by
    subst hy
    exact hf a

theorem keeps_act {ha : ∀ (hw : Hardware S σ) s, hw.Answers s e} {Q : Unit → X → Prop}
    (he : next x e = some y) (h : Q () y) : Keeps env next x (Prog.act e ha) Q := fun _ _ hw =>
  wp_act.mpr ⟨y, World.scan_next hw he, h⟩

theorem keeps_load {f : S.Field} {Q : Integer → X → Prop}
    (h : ∀ v, ∃ y, next x (.load f v) = some y ∧ Q v y) : Keeps env next x (Prog.load f) Q := by
  intro x₀ w hw
  obtain ⟨y, hy, hQ⟩ := h (env.hw.reads f w.toState)
  exact wp_load.mpr ⟨y, World.scan_next hw hy, hQ⟩

/-- The value that is read fits the field unit. -/
theorem keeps_load_cut {f : S.Field} {Q : Integer → X → Prop}
    (h : ∀ v, S.cut f v = v → ∃ y, next x (.load f v) = some y ∧ Q v y) :
    Keeps env next x (Prog.load f) Q := by
  intro x₀ w hw
  obtain ⟨y, hy, hQ⟩ := h (env.hw.reads f w.toState) (Hardware.cut_reads env.hw f w.toState)
  exact wp_load.mpr ⟨y, World.scan_next hw hy, hQ⟩

theorem keeps_call {i : S.Method} (he : next x (.enter i) = some y) (h : Keeps env next y m Q) :
    Keeps env next x (Prog.call i m) Q := fun x₀ _ hw =>
  wp_call.mpr (h x₀ _ (World.scan_next hw he))

/-- Sequencing after an invocation without a body. -/
theorem keeps_call_seq {i : S.Method} {f : Unit → Prog S σ β} {R : β → X → Prop}
    (he : next x (.enter i) = some y) (hf : Keeps env next y (f ()) R) :
    Keeps env next x (Prog.call i (pure ()) >>= f) R := fun x₀ _ hw =>
  wp_bind.mpr (wp_call.mpr (wp_pure.mpr (hf x₀ _ (World.scan_next hw he))))

theorem keeps_ite {c : Prop} [Decidable c] {n : Prog S σ α} (hm : c → Keeps env next x m Q)
    (hn : ¬ c → Keeps env next x n Q) : Keeps env next x (if c then m else n) Q := by
  split_ifs with h
  · exact hm h
  · exact hn h

/-- Events that change nothing for the monitor. -/
theorem keeps_of_emits (h : Emits env (fun _ e => next x e = some x) m) (hQ : ∀ a, Q a x) :
    Keeps env next x m Q := by
  intro x₀ w hw
  have stay (w' : World S σ) (hpath : Path env.hw (fun _ e => next x e = some x) w w') :
      w'.scan next x₀ = some x :=
    hpath.invariant (I := fun u => u.scan next x₀ = some x) hw fun _ _ hu _ he =>
      World.scan_next hu he
  refine wp_of_emits h (fun w' hp => ?_) fun a w' hp => ⟨x, stay w' hp, hQ a⟩
  rw [stay w' hp]
  rfl

/-- The loop rule: an invariant of the locals and of what the monitor knows. -/
theorem keeps_whileLoop {l : S.Loop} {cond : β → Prog S σ Bool}
    {body : β → Prog S σ (Prog.Flow β γ)} {done : β → γ} {b : β} {Q : γ → X → Prop}
    (I : β → X → Prop) (ht : ∀ x i, next x (.test l i) = some x)
    (hp : ∀ x i, next x (.pass l i) = some x) (init : I b x)
    (round : ∀ b x, I b x → Keeps env next x (cond b) fun c y =>
      if c then
        Keeps env next y (body b) fun r z =>
          match r with
          | .next b' => I b' z
          | .leave c => Q c z
      else Q (done b) y) :
    Keeps env next x (Prog.whileLoop l cond body done b) Q := by
  intro x₀ w hw
  refine wp_whileLoop (fun _ b u => ∃ x, u.scan next x₀ = some x ∧ I b x) ⟨x, hw, init⟩ ?_ ?_
  · rintro i b u _ ⟨x, hu, hI⟩
    rw [Round]
    refine wp_imp (round b x hI x₀ _ (World.scan_next hu (ht x i))) ?_
    rintro c u' ⟨y, hu', hc⟩
    cases c with
    | false => exact ⟨y, hu', hc⟩
    | true =>
      refine wp_imp (hc x₀ _ (World.scan_next hu' (hp y i))) ?_
      rintro (b' | c) u'' ⟨z, hu'', hr⟩
      · exact ⟨z, hu'', hr⟩
      · exact ⟨z, hu'', hr⟩
  · rintro b u ⟨x, hu, -⟩
    rw [hu]
    rfl

/-- A loop whose passes change nothing for the monitor. -/
theorem keeps_whileLoop_same {l : S.Loop} {cond : β → Prog S σ Bool}
    {body : β → Prog S σ (Prog.Flow β γ)} {done : β → γ} {b : β}
    (ht : ∀ x i, next x (.test l i) = some x) (hp : ∀ x i, next x (.pass l i) = some x)
    (hc : ∀ b, Keeps env next x (cond b) fun _ y => y = x)
    (hb : ∀ b, Keeps env next x (body b) fun _ y => y = x) :
    Keeps env next x (Prog.whileLoop l cond body done b) fun _ y => y = x := by
  refine keeps_whileLoop (fun _ y => y = x) ht hp rfl ?_
  rintro b _ rfl
  refine (hc b).imp ?_
  rintro (_ | _) _ rfl
  · rfl
  · refine (hb b).imp ?_
    rintro (_ | _) _ rfl <;> rfl

/-- Nothing wrong is done, however the run ends. -/
theorem Keeps.scan (h : Keeps env next x₀ m Q) (s : State S σ) :
    ((m env s.world).2.events.reverse.foldlM next x₀).isSome := by
  have hend : wp env (fun w' => (w'.scan next x₀).isSome) m
      (fun _ w' => (w'.scan next x₀).isSome) s.world := by
    refine wp_imp (h x₀ s.world rfl) ?_
    rintro a w' ⟨y, hy, -⟩
    rw [hy]
    rfl
  exact wp_snd hend

/-- What the monitor knows at the end of a run. -/
theorem Keeps.scan_eq (h : Keeps env next x₀ m Q) {s : State S σ} {a : α} {w : World S σ}
    (hr : m env s.world = (some a, w)) :
    ∃ y, w.events.reverse.foldlM next x₀ = some y ∧ Q a y :=
  wp_of_run hr (h x₀ s.world rfl)

end Keeps

end Aml
