import XPS9350.Aml.Emits

/-!
# Effects

The effects of a run are its stores to names and to field units, in order.  They determine the
values of the names (`Path.names_eq_replay`), so a method is specified by the effects it can have.
`Within N F` allows the stores to names and fields that `N` and `F` allow; a program within nothing
only waits and reads (`Quiet`).
-/

namespace Aml

variable {S : Signature} {σ α β γ : Type} {hw : Hardware S σ} {env : Env S σ}
  {P : World S σ → Event S → Prop} {w w' : World S σ}

/-- Stores to names and field units. -/
def Event.isEffect : Event S → Bool
  | .set _ _ | .store _ _ => true
  | _ => false

/-- The stores on a log, newest first. -/
def effects (log : List (Entry S σ)) : List (Event S) :=
  log.filterMap fun x => if x.event.isEffect then some x.event else none

/-- The values stored to the field `f`, newest first. -/
def storesTo (f : S.Field) (es : List (Event S)) : List Integer :=
  es.filterMap fun
    | .store g v => if g = f then some v else none
    | _ => none

/-- The values of the names after an event. -/
def replay (names : S.Name → Integer) : Event S → S.Name → Integer
  | .set n v => Function.update names n v
  | _ => names

section

variable {s : State S σ} {log : List (Entry S σ)} {n : S.Name} {f g : S.Field} {v : Integer}
  {es es' : List (Event S)}

@[simp] theorem effects_nil : effects ([] : List (Entry S σ)) = [] := rfl

theorem effects_cons (x : Entry S σ) :
    effects (x :: log) = if x.event.isEffect then x.event :: effects log else effects log := by
  unfold effects
  rw [List.filterMap_cons]
  split_ifs <;> rfl

@[simp] theorem effects_set : effects (⟨s, .set n v⟩ :: log) = .set n v :: effects log := rfl

@[simp] theorem effects_store :
    effects (⟨s, .store f v⟩ :: log) = .store f v :: effects log := rfl

@[simp] theorem effects_load : effects (⟨s, .load f v⟩ :: log) = effects log := rfl

@[simp] theorem effects_sleep : effects (⟨s, .sleep v⟩ :: log) = effects log := rfl

@[simp] theorem effects_stall : effects (⟨s, .stall v⟩ :: log) = effects log := rfl

@[simp] theorem effects_timer : effects (⟨s, .timer v⟩ :: log) = effects log := rfl

@[simp] theorem effects_enter {m : S.Method} :
    effects (⟨s, .enter m⟩ :: log) = effects log := rfl

@[simp] theorem storesTo_nil : storesTo f [] = [] := rfl

@[simp] theorem storesTo_set : storesTo f (.set n v :: es) = storesTo f es := rfl

@[simp] theorem storesTo_store :
    storesTo f (.store g v :: es) = if g = f then v :: storesTo f es else storesTo f es := by
  simp only [storesTo, List.filterMap_cons]
  split_ifs <;> rfl

@[simp] theorem storesTo_append : storesTo f (es ++ es') = storesTo f es ++ storesTo f es' :=
  List.filterMap_append

@[simp] theorem effects_append {log' : List (Entry S σ)} :
    effects (log ++ log') = effects log ++ effects log' := List.filterMap_append

/-- An event that does not store to the field. -/
theorem storesTo_effects_of_ne {e : Event S} (he : ∀ v, e ≠ .store f v) :
    storesTo f (effects (⟨s, e⟩ :: log)) = storesTo f (effects log) := by
  cases e with
  | store g u =>
    have hg : g ≠ f := by
      rintro rfl
      exact he u rfl
    rw [effects_store, storesTo_store, if_neg hg]
  | _ => rfl

end

/-- Effects are the only events that change names. -/
theorem after_names (s : State S σ) (e : Event S) :
    (hw.after s e).names = replay s.names e := by
  cases e <;> rfl

/-- **The effects determine the names.** -/
theorem Path.names_eq_replay (h : Path hw P w w') :
    ∃ es : List (Event S), effects w'.log = es.reverse ++ effects w.log ∧ w'.names = es.foldl replay w.names := by
  induction h with
  | refl => exact ⟨[], by simp⟩
  | @step u e _ _ _ ih =>
    obtain ⟨es, hlog, hnames⟩ := ih
    have hstep : (hw.after u.toState e).names = replay u.names e := after_names _ e
    by_cases he : e.isEffect
    · refine ⟨es ++ [e], by simp [effects_cons, he, hlog], ?_⟩
      rw [World.perform_toState, hstep, List.foldl_append, ← hnames]
      rfl
    · refine ⟨es, by simp [effects_cons, he, hlog], ?_⟩
      rw [World.perform_toState, hstep, hnames]
      cases e <;> first | rfl | exact absurd rfl he

/-- The names after a run, computed from its effects. -/
theorem names_of_effects {m : Prog S σ α} {a : α} (hr : m env w = (some a, w'))
    {es : List (Event S)} (he : effects w'.log = es.reverse ++ effects w.log) :
    w'.names = es.foldl replay w.names := by
  have hp := m.path env w
  rw [hr] at hp
  obtain ⟨es', he', hn⟩ := hp.names_eq_replay
  have : es.reverse = es'.reverse := List.append_cancel_right (he.symm.trans he')
  rw [List.reverse_inj.mp this, hn]

/-! ### Programs with given stores only -/

/-- Only the stores to names that `N` allows and to fields that `F` allows. -/
def Within (N : S.Name → Integer → Prop) (F : S.Field → Integer → Prop) (_ : World S σ) :
    Event S → Prop
  | .set n v => N n v
  | .store f v => F f v
  | _ => True

/-- No stores at all. -/
abbrev Quiet : World S σ → Event S → Prop := Within (fun _ _ => False) (fun _ _ => False)

section Within

variable {N N' : S.Name → Integer → Prop} {F F' : S.Field → Integer → Prop}

@[simp, grind =] theorem within_set {n : S.Name} {v : Integer} :
    Within N F w (.set n v) ↔ N n v := Iff.rfl

@[simp, grind =] theorem within_store {f : S.Field} {v : Integer} :
    Within N F w (.store f v) ↔ F f v := Iff.rfl

@[simp, grind =] theorem within_load {f : S.Field} {v : Integer} :
    Within N F w (.load f v) ↔ True := Iff.rfl

@[simp, grind =] theorem within_sleep {v : Integer} : Within N F w (.sleep v) ↔ True := Iff.rfl

@[simp, grind =] theorem within_stall {v : Integer} : Within N F w (.stall v) ↔ True := Iff.rfl

@[simp, grind =] theorem within_timer {v : Integer} : Within N F w (.timer v) ↔ True := Iff.rfl

@[simp, grind =] theorem within_enter {m : S.Method} : Within N F w (.enter m) ↔ True := Iff.rfl

@[simp, grind =] theorem within_test {l : S.Loop} {i : Nat} :
    Within N F w (.test l i) ↔ True := Iff.rfl

@[simp, grind =] theorem within_pass {l : S.Loop} {i : Nat} :
    Within N F w (.pass l i) ↔ True := Iff.rfl

theorem Within.mono (hN : ∀ n v, N n v → N' n v) (hF : ∀ f v, F f v → F' f v) (w : World S σ)
    (e : Event S) (h : Within N F w e) : Within N' F' w e := by
  cases e with
  | set n v => exact hN n v h
  | store f v => exact hF f v h
  | _ => trivial

theorem Emits.within_mono {m : Prog S σ α} (h : Emits env (Within N F) m)
    (hN : ∀ n v, N n v → N' n v) (hF : ∀ f v, F f v → F' f v) : Emits env (Within N' F') m :=
  h.mono (Within.mono hN hF)

/-- A quiet program is within any bounds. -/
theorem Emits.within {m : Prog S σ α} (h : Emits env Quiet m) : Emits env (Within N F) m :=
  h.within_mono (fun _ _ => False.elim) fun _ _ => False.elim

theorem Path.names_of_within (h : Path hw (Within N F) w w') {n : S.Name} (hn : ∀ v, ¬ N n v) :
    w'.names n = w.names n :=
  h.names_eq n fun _ v => hn v

/-- The stores to a field that a path within bounds adds are allowed ones. -/
theorem Path.storesTo_within (h : Path hw (Within N F) w w') (f : S.Field) :
    ∃ new, storesTo f (effects w'.log) = new ++ storesTo f (effects w.log) ∧ ∀ v ∈ new, F f v := by
  refine h.invariant (I := fun u => ∃ new, storesTo f (effects u.log) =
    new ++ storesTo f (effects w.log) ∧ ∀ v ∈ new, F f v) ⟨[], rfl, by simp⟩ ?_
  rintro u e ⟨new, hlog, hnew⟩ _ he
  cases e with
  | store g v =>
    by_cases hg : g = f
    · subst hg
      exact ⟨v :: new, by simp [hlog], by simpa using ⟨he, hnew⟩⟩
    · exact ⟨new, by simp [hg, hlog], hnew⟩
  | _ => exact ⟨new, hlog, hnew⟩

theorem Path.storesTo_of_within (h : Path hw (Within N F) w w') {f : S.Field}
    (hf : ∀ v, ¬ F f v) : storesTo f (effects w'.log) = storesTo f (effects w.log) := by
  obtain ⟨new, hlog, hnew⟩ := h.storesTo_within f
  rw [hlog, List.eq_nil_iff_forall_not_mem.mpr fun v hv => hf v (hnew v hv), List.nil_append]

theorem Path.quiet_effects (h : Path hw Quiet w w') : effects w'.log = effects w.log := by
  refine h.filterMap_log _ fun u e he => ?_
  cases e with
  | set n v => exact he.elim
  | store f v => exact he.elim
  | _ => rfl

theorem Path.quiet_names (h : Path hw Quiet w w') : w'.names = w.names :=
  funext fun _ => h.names_of_within fun _ => not_false

end Within

/-! ### Effects under any hardware -/

/-- Started with the given names and effects, `m` can only end in `Q`, whatever the hardware
answers: a partial correctness judgement in which every value read is arbitrary. -/
def Ensures (env : Env S σ) (m : Prog S σ α)
    (Q : α → (S.Name → Integer) → List (Event S) → Prop) (names : S.Name → Integer)
    (es : List (Event S)) : Prop :=
  ∀ w : World S σ, w.names = names → effects w.log = es →
    wp env (fun _ => True) m (fun a w' => Q a w'.names (effects w'.log)) w

section Ensures

variable {m : Prog S σ α} {Q Q' : α → (S.Name → Integer) → List (Event S) → Prop}
  {names : S.Name → Integer} {es : List (Event S)}

/-- What a run that ended has ensured. -/
theorem Ensures.run {a : α} (h : Ensures env m Q w.names (effects w.log))
    (hr : m env w = (some a, w')) : Q a w'.names (effects w'.log) :=
  wp_of_run hr (h w rfl rfl)

theorem Ensures.imp (h : Ensures env m Q names es) (hQ : ∀ a n e, Q a n e → Q' a n e) :
    Ensures env m Q' names es := fun w hn he =>
  wp_imp (h w hn he) fun _ _ => hQ _ _ _

theorem ensures_pure {a : α} (h : Q a names es) : Ensures env (pure a) Q names es := by
  rintro w rfl rfl
  exact wp_pure.mpr h

theorem ensures_bind {f : α → Prog S σ β} {Q : β → (S.Name → Integer) → List (Event S) → Prop}
    (h : Ensures env m (fun a n e => Ensures env (f a) Q n e) names es) :
    Ensures env (m >>= f) Q names es := fun w hn he =>
  wp_bind.mpr (wp_imp (h w hn he) fun _ w' hf => hf w' rfl rfl)

theorem ensures_get {n : S.Name} {Q : Integer → (S.Name → Integer) → List (Event S) → Prop}
    (h : Q (names n) names es) : Ensures env (Prog.get n) Q names es := by
  rintro w rfl rfl
  exact wp_get.mpr h

theorem ensures_set {n : S.Name} {v : Integer}
    {Q : Unit → (S.Name → Integer) → List (Event S) → Prop}
    (h : Q () (Function.update names n v) (.set n v :: es)) :
    Ensures env (Prog.set n v) Q names es := by
  rintro w rfl rfl
  exact wp_set.mpr h

theorem ensures_store {f : S.Field} {v : Integer}
    {Q : Unit → (S.Name → Integer) → List (Event S) → Prop}
    (h : Q () names (.store f (S.cut f v) :: es)) : Ensures env (Prog.store f v) Q names es := by
  rintro w rfl rfl
  exact wp_store.mpr h

theorem ensures_load {f : S.Field} {Q : Integer → (S.Name → Integer) → List (Event S) → Prop}
    (h : ∀ v, Q v names es) : Ensures env (Prog.load f) Q names es := by
  rintro w rfl rfl
  exact wp_load.mpr (h _)

/-- A quiet program ends with any result, names and effects unchanged. -/
theorem ensures_quiet (hm : Emits env Quiet m) (h : ∀ a, Q a names es) :
    Ensures env m Q names es := by
  rintro w rfl rfl
  refine wp_of_emits hm (fun _ _ => trivial) fun a w' hp => ?_
  rw [hp.quiet_names, hp.quiet_effects]
  exact h a

theorem ensures_ite {c : Prop} [Decidable c] {m n : Prog S σ α}
    (hm : c → Ensures env m Q names es) (hn : ¬ c → Ensures env n Q names es) :
    Ensures env (if c then m else n) Q names es := by
  split_ifs with h
  · exact hm h
  · exact hn h

/-- A conditional store in the middle of a program. -/
theorem ensures_when_store {c : Prop} [Decidable c] {f : S.Field} {v : Integer}
    {k : Unit → Prog S σ α}
    (h : ∀ b : Bool, Ensures env (k ()) Q names ((if b then [.store f (S.cut f v)] else []) ++ es)) :
    Ensures env (if c then Prog.store f v >>= k else k ()) Q names es :=
  ensures_ite (fun _ => ensures_bind (ensures_store (h true))) fun _ => h false

end Ensures

end Aml
