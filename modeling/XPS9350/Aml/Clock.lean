import Mathlib.Algebra.Ring.Nat
import XPS9350.Aml.Emits

/-!
# Termination against a clock

A `Clock` is the time behind the `Timer`: it never goes back and a `Sleep` of `n` ms advances it by
at least that much.  `C.Timely L t m Q` says that `m`, started at time `t` or later, ends with a
result satisfying `Q`, with no more tests and passes of each `While` than `L` allows, unless the
`Timer` wraps around first.  The time is a lower bound on the clock, so that a deadline computed
from the `Timer` stays comparable with it.
-/

namespace Aml

variable {S : Signature} {σ α β γ : Type} {hw : Hardware S σ} {env : Env S σ}

/-- The time behind the `Timer`, in units of 100 ns. -/
structure Clock (hw : Hardware S σ) where
  now : σ → Nat
  timer : ∀ s, (hw.timer s).1 = BitVec.ofNat 64 (now s)
  le_timer : ∀ s, now s ≤ now (hw.timer s).2
  le_load : ∀ f s, now s ≤ now (hw.load f s).2
  le_store : ∀ f v s, now s ≤ now (hw.store f v s)
  le_stall : ∀ us s, now s ≤ now (hw.stall us s)
  le_sleep : ∀ ms s, now s + 10000 * ms.toNat ≤ now (hw.sleep ms s)

/-- Field units that read as zero; the state is the time, which only `Sleep` and `Stall` take. -/
def zeros (S : Signature) : Hardware S Nat where
  load _ t := (0, t)
  store _ _ t := t
  sleep ms t := t + 10000 * ms.toNat
  stall us t := t + 10 * us.toNat
  timer t := (BitVec.ofNat 64 t, t)

/-- Its time is a clock. -/
def zerosClock (S : Signature) : Clock (zeros S) where
  now t := t
  timer _ := rfl
  le_timer _ := Nat.le_refl _
  le_load _ _ := Nat.le_refl _
  le_store _ _ _ := Nat.le_refl _
  le_stall _ _ := Nat.le_add_right _ _
  le_sleep _ _ := Nat.le_refl _

namespace Clock

variable {w w' : World S σ}

theorem le_after (C : Clock hw) (s : State S σ) (e : Event S) :
    C.now s.hw ≤ C.now (hw.after s e).hw := by
  cases e with
  | load f v => exact C.le_load f s.hw
  | store f v => exact C.le_store f _ s.hw
  | sleep ms => exact Nat.le_trans (Nat.le_add_right _ _) (C.le_sleep ms s.hw)
  | stall us => exact C.le_stall us s.hw
  | timer t => exact C.le_timer s.hw
  | _ => exact Nat.le_refl _

theorem le_path (C : Clock hw) {P : World S σ → Event S → Prop} (h : Path hw P w w') :
    C.now w.hw ≤ C.now w'.hw :=
  h.invariant (I := fun u => C.now w.hw ≤ C.now u.hw) (Nat.le_refl _) fun u e hu _ _ =>
    Nat.le_trans hu (C.le_after u.toState e)

/-- No program turns the clock back. -/
theorem le_run (C : Clock env.hw) (m : Prog S σ α) (w : World S σ) :
    C.now w.hw ≤ C.now (m env w).2.hw := C.le_path (m.path env w)

end Clock

/-- How often each `While` may be tested and passed through in one execution. -/
structure Limits (S : Signature) where
  tests : S.Loop → Nat
  passes : S.Loop → Nat

/-- The tests and passes within the limits, and every other event. -/
def Limits.Allows (L : Limits S) : Event S → Prop
  | .test l i => i < L.tests l
  | .pass l i => i < L.passes l
  | _ => True

/-- From time `t` on, `m` ends within the limits unless the clock wraps around. -/
def Clock.Timely (C : Clock env.hw) (L : Limits S) (t : Nat) (m : Prog S σ α)
    (Q : α → Nat → Prop) : Prop :=
  ∀ w : World S σ, t ≤ C.now w.hw → C.now (m env w).2.hw < 2 ^ 64 →
    ∃ a w' t', m env w = (some a, w') ∧ Path env.hw (fun _ e => L.Allows e) w w' ∧
      t ≤ t' ∧ t' ≤ C.now w'.hw ∧ Q a t'

section Timely

variable {C : Clock env.hw} {L : Limits S} {t : Nat} {m : Prog S σ α} {Q Q' : α → Nat → Prop}

theorem Clock.Timely.imp (h : C.Timely L t m Q) (hQ : ∀ a u, t ≤ u → Q a u → Q' a u) :
    C.Timely L t m Q' := by
  intro w hw hlt
  obtain ⟨a, w', t', hr, hp, ht, hn, ha⟩ := h w hw hlt
  exact ⟨a, w', t', hr, hp, ht, hn, hQ a t' ht ha⟩

theorem timely_pure {a : α} (h : Q a t) : C.Timely L t (pure a) Q := fun w hw _ =>
  ⟨a, w, t, rfl, .refl, Nat.le_refl t, hw, h⟩

theorem timely_bind {f : α → Prog S σ β} {R : β → Nat → Prop} (hm : C.Timely L t m Q)
    (hf : ∀ a u, t ≤ u → Q a u → C.Timely L u (f a) R) : C.Timely L t (m >>= f) R := by
  intro w hw hlt
  -- the clock at the end of `m` is not later than at the end
  have hle : C.now (m env w).2.hw ≤ C.now ((m >>= f) env w).2.hw := by
    rcases hr : m env w with ⟨_ | a, w'⟩
    · exact Nat.le_of_eq (by rw [Prog.bind_of_none hr])
    · rw [Prog.bind_of_some hr]
      exact C.le_run (f a) w'
  obtain ⟨a, w', u, hr, hp, ht, hn, ha⟩ := hm w hw (Nat.lt_of_le_of_lt hle hlt)
  rw [Prog.bind_of_some hr] at hlt ⊢
  obtain ⟨b, w'', v, hr', hp', hu, hn', hb⟩ := hf a u ht ha w' hn hlt
  exact ⟨b, w'', v, hr', hp.trans hp', Nat.le_trans ht hu, hn', hb⟩

theorem timely_get {n : S.Name} {Q : Integer → Nat → Prop} (h : ∀ v, Q v t) :
    C.Timely L t (Prog.get n) Q := fun w hw _ =>
  ⟨w.names n, w, t, rfl, .refl, Nat.le_refl t, hw, h _⟩

theorem timely_act {e : Event S} {he : ∀ (hw : Hardware S σ) s, hw.Answers s e}
    {Q : Unit → Nat → Prop} (ha : L.Allows e) (h : Q () t) : C.Timely L t (Prog.act e he) Q :=
  fun w hw _ => ⟨(), w.perform env.hw e, t, rfl, .single (he _ _) ha, Nat.le_refl t,
    Nat.le_trans hw (C.le_after w.toState e), h⟩

theorem timely_set {n : S.Name} {v : Integer} {Q : Unit → Nat → Prop} (h : Q () t) :
    C.Timely L t (Prog.set n v) Q := timely_act trivial h

theorem timely_load {f : S.Field} {Q : Integer → Nat → Prop} (h : ∀ v, Q v t) :
    C.Timely L t (Prog.load f) Q := fun w hw _ =>
  ⟨env.hw.reads f w.toState, _, t, rfl, .single rfl trivial, Nat.le_refl t,
    Nat.le_trans hw (C.le_load f w.hw), h _⟩

theorem timely_store {f : S.Field} {v : Integer} {Q : Unit → Nat → Prop} (h : Q () t) :
    C.Timely L t (Prog.store f v) Q := timely_act trivial h

theorem timely_stall {us : Integer} {Q : Unit → Nat → Prop} (h : Q () t) :
    C.Timely L t (Prog.stall us) Q := timely_act trivial h

/-- A `Sleep` puts the time forward. -/
theorem timely_sleep {ms : Integer} {Q : Unit → Nat → Prop} (h : Q () (t + 10000 * ms.toNat)) :
    C.Timely L t (Prog.sleep ms) Q := fun w hw _ =>
  ⟨(), w.perform env.hw (.sleep ms), t + 10000 * ms.toNat, rfl, .single trivial trivial,
    Nat.le_add_right _ _, Nat.le_trans (Nat.add_le_add_right hw _) (C.le_sleep ms w.hw), h⟩

/-- The `Timer` tells the time. -/
theorem timely_timer {Q : Integer → Nat → Prop} (h : ∀ v : Integer, t ≤ v.toNat → Q v v.toNat) :
    C.Timely L t Prog.timer Q := by
  intro w hw hlt
  have hlt' : C.now w.hw < 2 ^ 64 := Nat.lt_of_le_of_lt (C.le_run Prog.timer w) hlt
  have hv : ((env.hw.timer w.hw).1).toNat = C.now w.hw := by
    rw [C.timer, BitVec.toNat_ofNat, Nat.mod_eq_of_lt hlt']
  refine ⟨(env.hw.timer w.hw).1, _, _, rfl, .single rfl trivial, ?_, ?_, h _ ?_⟩
  · rwa [hv]
  · rw [hv]
    exact C.le_timer w.hw
  · rwa [hv]

theorem timely_call {i : S.Method} (h : C.Timely L t m Q) : C.Timely L t (Prog.call i m) Q :=
  timely_bind (timely_act (Q := fun _ u => u = t) trivial rfl) fun _ _ _ hu => hu ▸ h

theorem timely_ite {c : Prop} [Decidable c] {n : Prog S σ α} (hm : c → C.Timely L t m Q)
    (hn : ¬ c → C.Timely L t n Q) : C.Timely L t (if c then m else n) Q := by
  split_ifs with h
  · exact hm h
  · exact hn h

/-- The loop rule: the invariant bounds the number of tests. -/
theorem timely_whileLoop {l : S.Loop} {cond : β → Prog S σ Bool}
    {body : β → Prog S σ (Prog.Flow β γ)} {done : β → γ} {b : β} {R : γ → Nat → Prop}
    (I : Nat → β → Nat → Prop) (init : I 0 b t)
    (bound : ∀ i b u, I i b u → i < env.fuel ∧ i < L.tests l)
    (round : ∀ i b u, t ≤ u → I i b u → C.Timely L u (cond b) fun c u' =>
      if c then i < L.passes l ∧ C.Timely L u' (body b) fun r u'' =>
        match r with
        | .next b' => I (i + 1) b' u''
        | .leave x => R x u''
      else R (done b) u') :
    C.Timely L t (Prog.whileLoop l cond body done b) R := by
  have key : ∀ n i b u, i + n = env.fuel → t ≤ u → I i b u →
      C.Timely L u (Prog.whileLoop.go l cond body done n i b) R := by
    intro n
    induction n with
    | zero =>
      intro i b u hi _ hI
      exact absurd (bound i b u hI).1 (by omega)
    | succ n ih =>
      intro i b u hi hu hI
      rw [Prog.whileLoop.go]
      refine timely_bind (timely_act (Q := fun _ v => v = u) (bound i b u hI).2 rfl) ?_
      rintro _ _ _ rfl
      refine timely_bind (round i b _ hu hI) fun c v hv hc => ?_
      cases c with
      | false => exact timely_pure hc
      | true =>
        obtain ⟨hpass, hbody⟩ := hc
        refine timely_bind (timely_act (Q := fun _ v' => v' = v) hpass rfl) ?_
        rintro _ _ _ rfl
        refine timely_bind hbody fun r v' hv' hr => ?_
        cases r with
        | next b' =>
          exact ih (i + 1) b' v' (by omega) (Nat.le_trans hu (Nat.le_trans hv hv')) hr
        | leave x => exact timely_pure hr
  exact fun w hw hlt => key env.fuel 0 b t (by omega) (Nat.le_refl t) init w hw hlt

end Timely

/-- `m` ends within the limits, whenever it is started. -/
def Clock.Ends (C : Clock env.hw) (L : Limits S) (m : Prog S σ α) : Prop :=
  ∀ t, C.Timely L t m fun _ _ => True

section Ends

variable {C : Clock env.hw} {L : Limits S} {m : Prog S σ α}

@[grind ←] theorem ends_pure {a : α} : C.Ends L (pure a : Prog S σ α) := fun _ => timely_pure trivial

@[grind ←] theorem ends_bind {f : α → Prog S σ β} (hm : C.Ends L m)
    (hf : ∀ a, C.Ends L (f a)) : C.Ends L (m >>= f) := fun t =>
  timely_bind (hm t) fun a u _ _ => hf a u

@[grind ←] theorem ends_seq {m : Prog S σ Unit} {f : Unit → Prog S σ β} (hm : C.Ends L m)
    (hf : C.Ends L (f ())) : C.Ends L (m >>= f) := ends_bind hm fun _ => hf

@[grind ←] theorem ends_get {n : S.Name} : C.Ends L (Prog.get n) := fun _ =>
  timely_get fun _ => trivial

@[grind ←] theorem ends_set {n : S.Name} {v : Integer} : C.Ends L (Prog.set n v) := fun _ =>
  timely_set trivial

@[grind ←] theorem ends_load {f : S.Field} : C.Ends L (Prog.load f) := fun _ =>
  timely_load fun _ => trivial

@[grind ←] theorem ends_store {f : S.Field} {v : Integer} : C.Ends L (Prog.store f v) := fun _ =>
  timely_store trivial

@[grind ←] theorem ends_stall {us : Integer} : C.Ends L (Prog.stall us) := fun _ =>
  timely_stall trivial

@[grind ←] theorem ends_sleep {ms : Integer} : C.Ends L (Prog.sleep ms) := fun _ =>
  timely_sleep trivial

@[grind ←] theorem ends_timer : C.Ends L (Prog.timer) := fun _ => timely_timer fun _ _ => trivial

@[grind ←] theorem ends_call {i : S.Method} (h : C.Ends L m) : C.Ends L (Prog.call i m) := fun t =>
  timely_call (h t)

/-- A loop whose body counts its local down by one, unless it leaves, and is not entered at zero. -/
theorem ends_countdown {l : S.Loop} {k : Integer} {cond : Integer → Prog S σ Bool}
    {body : Integer → Prog S σ (Prog.Flow Integer γ)} {done : Integer → γ}
    (hfuel : k.toNat < env.fuel) (hp : k.toNat ≤ L.passes l) (ht : k.toNat < L.tests l)
    (hcond : ∀ b t, C.Timely L t (cond b) fun c _ => c → b ≠ 0)
    (hbody : ∀ b t, b ≠ 0 → C.Timely L t (body b) fun r _ => ∀ b', r = .next b' → b' = b - 1) :
    C.Ends L (Prog.whileLoop l cond body done k) := by
  intro t
  -- the local and the number of passes made add up to `k`
  refine timely_whileLoop (fun i b _ => b.toNat + i = k.toNat) (by simp) ?_ ?_
  · intro i b u hi
    omega
  · intro i b u hu hi
    refine (hcond b u).imp fun c u' _ hc => ?_
    cases c with
    | false => trivial
    | true =>
      have hb := hc rfl
      have hpos : b.toNat ≠ 0 := fun h => hb (BitVec.eq_of_toNat_eq h)
      refine ⟨by omega, (hbody b u' hb).imp fun r _ _ hr => ?_⟩
      cases r with
      | next b' =>
        rw [hr b' rfl]
        have : (b - 1).toNat = b.toNat - 1 := by bv_omega
        omega
      | leave x => trivial

/-- What a program that ends within the limits does, as long as the clock does not wrap around. -/
theorem Clock.Ends.run (h : C.Ends L m) {w : World S σ} (hlt : C.now (m env w).2.hw < 2 ^ 64) :
    ∃ a w', m env w = (some a, w') ∧ Path env.hw (fun _ e => L.Allows e) w w' := by
  obtain ⟨a, w', -, hr, hp, -⟩ := h (C.now w.hw) w (Nat.le_refl _) hlt
  exact ⟨a, w', hr, hp⟩

end Ends

end Aml
