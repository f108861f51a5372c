import XPS9350.Aml.Wp

/-!
# The events of a program

`Emits env P m` says that `m` performs only events that `P` allows, from every world.  It is
established by going through the text of `m` (the `emits_` lemmas) and gives the frame facts:
what no allowed event writes is unchanged (`Path.names_eq`, `Path.filterMap_log`).
-/

namespace Aml

variable {S : Signature} {σ α β γ : Type} {env : Env S σ} {P P' : World S σ → Event S → Prop}
  {w w' : World S σ}

/-- `m` performs only events that `P` allows. -/
def Emits (env : Env S σ) (P : World S σ → Event S → Prop) (m : Prog S σ α) : Prop :=
  ∀ w, Path env.hw P w (m env w).2

/-- A program whose events are known to be allowed may be replaced by any path. -/
theorem wp_of_emits {E : World S σ → Prop} {m : Prog S σ α} {Q : α → World S σ → Prop}
    (h : Emits env P m) (hE : ∀ w', Path env.hw P w w' → E w')
    (hQ : ∀ a w', Path env.hw P w w' → Q a w') : wp env E m Q w := by
  rw [wp_iff]
  refine ⟨fun a w' hm => hQ a w' ?_, fun w' hm => hE w' ?_⟩ <;>
  · have := h w
    rwa [hm] at this

/-- Together with what a program does it is known which events it performs. -/
theorem wp_with_path {E : World S σ → Prop} {m : Prog S σ α} {Q : α → World S σ → Prop}
    (h : wp env E m Q w) (he : Emits env P m) :
    wp env E m (fun a w' => Q a w' ∧ Path env.hw P w w') w := by
  rw [wp_iff] at h ⊢
  refine ⟨fun a w' hr => ⟨h.1 a w' hr, ?_⟩, h.2⟩
  have hpath := he w
  rwa [hr] at hpath

theorem Emits.mono {m : Prog S σ α} (h : Emits env P m) (hP : ∀ w e, P w e → P' w e) :
    Emits env P' m := fun w => (h w).mono hP

/-- Sequencing at one world: the continuation may use what `m` establishes. -/
theorem path_bind {m : Prog S σ α} {f : α → Prog S σ β} (hm : Path env.hw P w (m env w).2)
    (hf : wp env (fun _ => True) m (fun a w' => Path env.hw P w' (f a env w').2) w) :
    Path env.hw P w ((m >>= f) env w).2 := by
  rw [wp_iff] at hf
  rcases hr : m env w with ⟨_ | a, w'⟩ <;> rw [hr] at hm
  · rwa [Prog.bind_of_none hr]
  · rw [Prog.bind_of_some hr]
    exact hm.trans (hf.1 a w' hr)

/-! ### Reading the events off a program -/

@[grind ←] theorem emits_pure {a : α} : Emits env P (pure a) := fun _ => .refl

@[grind ←] theorem emits_bind {m : Prog S σ α} {f : α → Prog S σ β} (hm : Emits env P m)
    (hf : ∀ a, Emits env P (f a)) : Emits env P (m >>= f) := fun w =>
  path_bind (hm w) (wp_iff.mpr ⟨fun a w' _ => hf a w', fun _ _ => trivial⟩)

/-- Sequencing after a program without a result. -/
@[grind ←] theorem emits_seq {m : Prog S σ Unit} {f : Unit → Prog S σ β} (hm : Emits env P m)
    (hf : Emits env P (f ())) : Emits env P (m >>= f) := emits_bind hm fun _ => hf

@[grind ←] theorem emits_get {n : S.Name} : Emits env P (Prog.get n) := fun _ => .refl

theorem emits_act {e : Event S} {ha : ∀ (hw : Hardware S σ) s, hw.Answers s e}
    (he : ∀ w, P w e) : Emits env P (Prog.act e ha) := fun w => .single (ha _ _) (he w)

@[grind ←] theorem emits_set {n : S.Name} {v : Integer} (he : ∀ w, P w (.set n v)) :
    Emits env P (Prog.set n v) := emits_act he

@[grind ←] theorem emits_load {f : S.Field} (he : ∀ w v, P w (.load f v)) :
    Emits env P (Prog.load f) := fun w => .single rfl (he w _)

@[grind ←] theorem emits_store {f : S.Field} {v : Integer} (he : ∀ w, P w (.store f (S.cut f v))) :
    Emits env P (Prog.store f v) := emits_act he

@[grind ←] theorem emits_sleep {ms : Integer} (he : ∀ w, P w (.sleep ms)) :
    Emits env P (Prog.sleep ms) := emits_act he

@[grind ←] theorem emits_stall {us : Integer} (he : ∀ w, P w (.stall us)) :
    Emits env P (Prog.stall us) := emits_act he

@[grind ←] theorem emits_timer (he : ∀ w t, P w (.timer t)) : Emits env P Prog.timer :=
  fun w => .single rfl (he w _)

@[grind ←] theorem emits_call {m : S.Method} {body : Prog S σ α} (he : ∀ w, P w (.enter m))
    (hb : Emits env P body) : Emits env P (Prog.call m body) :=
  emits_bind (emits_act he) fun _ => hb

theorem emits_ite {c : Prop} [Decidable c] {m n : Prog S σ α} (hm : Emits env P m)
    (hn : Emits env P n) : Emits env P (if c then m else n) := by
  split_ifs
  · exact hm
  · exact hn

@[grind ←] theorem emits_whileLoop {l : S.Loop} {cond : β → Prog S σ Bool}
    {body : β → Prog S σ (Prog.Flow β γ)} {done : β → γ} {b : β}
    (ht : ∀ w i, P w (.test l i)) (hp : ∀ w i, P w (.pass l i))
    (hc : ∀ b, Emits env P (cond b)) (hb : ∀ b, Emits env P (body b)) :
    Emits env P (Prog.whileLoop l cond body done b) := by
  have key : ∀ n i b, Emits env P (Prog.whileLoop.go l cond body done n i b) := by
    intro n
    induction n with
    | zero => exact fun i b w => .refl
    | succ n ih =>
      intro i b
      rw [Prog.whileLoop.go]
      refine emits_bind (emits_act (ht · i)) fun _ =>
        emits_bind (hc b) fun c => ?_
      split_ifs
      · refine emits_bind (emits_act (hp · i)) fun _ =>
          emits_bind (hb b) fun r => ?_
        cases r with
        | next b' => exact ih (i + 1) b'
        | leave c => exact emits_pure
      · exact emits_pure
  exact fun w => key env.fuel 0 b w

end Aml
