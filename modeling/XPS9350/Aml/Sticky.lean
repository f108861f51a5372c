import XPS9350.Aml.Emits
import XPS9350.Aml.Snapshots

/-!
# Registers of pending events

A status register holds one bit for each event that is pending.  An event may come in at any time,
and stays until a one is written to its bit.  `Sticky` states this of a field unit of any hardware.

`wp_store_or`: reading such a register and writing it back with more bits set, as one would do
to set a bit of memory, clears all that was pending.
-/

namespace Aml

variable {S : Signature} {σ : Type} {hw : Hardware S σ} {f : S.Field}
  {P : World S σ → Event S → Prop} {w w' : World S σ} {i : ℕ}

/-- The bits of the field unit `f` that an event writes a one to. -/
def clearing (f : S.Field) : Event S → BitVec (S.width f)
  | .store g v => if g = f then v.setWidth (S.width f) else 0#_
  | _ => 0#_

/-- The field unit `f` shows which events are pending. -/
structure Sticky (hw : Hardware S σ) (f : S.Field) where
  pending : σ → BitVec (S.width f)
  /-- What comes in meanwhile. -/
  news : State S σ → Event S → BitVec (S.width f)
  load : ∀ s, (hw.load f s).1 = pending s
  after : ∀ s e, pending (hw.after s e).hw = pending s.hw &&& ~~~clearing f e ||| news s e

namespace Sticky

variable (K : Sticky hw f)

/-- The event `i` is pending. -/
def Pending (i : ℕ) (s : State S σ) : Prop := (K.pending s.hw).getLsbD i = true

/-- The event `i` has come in since `w`. -/
def Came (i : ℕ) (w w' : World S σ) : Prop :=
  ∃ new, w'.log = new ++ w.log ∧ ∃ x ∈ new, (K.news x.before x.event).getLsbD i = true

/-- A read shows what is pending. -/
theorem getLsbD_reads {s : State S σ} (hi : i < 64) :
    (hw.reads f s).getLsbD i = (K.pending s.hw).getLsbD i := by
  rw [Hardware.reads, K.load, BitVec.getLsbD_setWidth, decide_eq_true hi, Bool.true_and]

variable {K}

theorem pending_after_iff {s : State S σ} {e : Event S} : K.Pending i (hw.after s e) ↔
    K.Pending i s ∧ (clearing f e).getLsbD i = false ∨ (K.news s e).getLsbD i = true := by
  unfold Pending
  rw [K.after, BitVec.getLsbD_or, BitVec.getLsbD_and, BitVec.getLsbD_not, Bool.or_eq_true,
    Bool.and_eq_true, Bool.and_eq_true, Bool.not_eq_true']
  constructor
  · rintro (⟨hp, -, hc⟩ | hn)
    · exact .inl ⟨hp, hc⟩
    · exact .inr hn
  · rintro (⟨hp, hc⟩ | hn)
    · exact .inl ⟨hp, decide_eq_true (BitVec.lt_of_getLsbD hp), hc⟩
    · exact .inr hn

/-- Only a one clears. -/
theorem Pending.after {s : State S σ} {e : Event S} (h : K.Pending i s)
    (he : (clearing f e).getLsbD i = false) : K.Pending i (hw.after s e) :=
  pending_after_iff.mpr (.inl ⟨h, he⟩)

theorem came_perform {e : Event S} (h : (K.news w.toState e).getLsbD i = true) :
    K.Came i w (w.perform hw e) :=
  ⟨[⟨w.toState, e⟩], rfl, _, List.mem_singleton_self _, h⟩

theorem Came.perform {e : Event S} (h : K.Came i w w') : K.Came i w (w'.perform hw e) := by
  obtain ⟨new, hlog, x, hx, hnews⟩ := h
  refine ⟨⟨w'.toState, e⟩ :: new, ?_, x, List.mem_cons_of_mem _ hx, hnews⟩
  rw [World.perform_log, hlog, List.cons_append]

/-- What comes in later has come in since. -/
theorem Came.of_path {w'' : World S σ} (hpath : Path hw P w w') (h : K.Came i w' w'') :
    K.Came i w w'' := by
  obtain ⟨new, hlog, x, hx, hnews⟩ := h
  obtain ⟨old, hlog', -⟩ := hpath.log_append
  refine ⟨new ++ old, ?_, x, List.mem_append_left _ hx, hnews⟩
  rw [hlog, hlog', List.append_assoc]

/-- The bits of a store. -/
theorem getLsbD_clearing_cut {v : Integer} (hi : i < S.width f) :
    (clearing f (.store f (S.cut f v))).getLsbD i = v.getLsbD i := by
  rw [clearing, if_pos rfl, S.setWidth_cut, BitVec.getLsbD_setWidth, decide_eq_true hi,
    Bool.true_and]

variable (K) in
/-- Everything that is pending has come in since `w`. -/
def Fresh (w w' : World S σ) : Prop := ∀ i, K.Pending i w'.toState → K.Came i w w'

/-- What is all new stays all new. -/
theorem Fresh.path {w'' : World S σ} (h : K.Fresh w w') (hpath : Path hw P w w')
    (hpath' : Path hw P w' w'') : K.Fresh w w'' := by
  refine (hpath'.invariant (I := fun u => K.Fresh w u ∧ Path hw P w u) ⟨h, hpath⟩
    fun u e hu ha he => ⟨fun i hi => ?_, .step hu.2 ha he⟩).1
  rcases pending_after_iff.mp hi with ⟨hbefore, -⟩ | hnews
  · exact (hu.1 i hbefore).perform
  · exact (came_perform hnews).of_path hu.2

/-- What is new is new since any earlier time. -/
theorem Fresh.of_path {w'' : World S σ} (hpath : Path hw P w w') (h : K.Fresh w' w'') :
    K.Fresh w w'' := fun i hi => (h i hi).of_path hpath

/-- Sequencing, with the path up to there. -/
theorem wp_bind_path {α β : Type} {env : Env S σ} {E : World S σ → Prop} {m : Prog S σ α}
    {f : α → Prog S σ β} {Q : α → World S σ → Prop} {R : β → World S σ → Prop} {w : World S σ}
    (hm : wp env E m Q w)
    (hf : ∀ a w', Q a w' → Path env.hw (fun _ _ => True) w w' → wp env E (f a) R w') :
    wp env E (m >>= f) R w := by
  rw [wp_bind]
  exact wp_imp (wp_with_path hm fun w => m.path env w) fun a w' h => hf a w' h.1 h.2

/-- **Writing back what was read** clears everything: what is pending afterwards has come in since.
That more bits are set makes no difference. -/
theorem wp_store_or {env : Env S σ} {E : World S σ → Prop} {K : Sticky env.hw f} {m : Integer}
    (hwidth : S.width f ≤ 64) {w : World S σ} :
    wp env E (do Prog.store f ((← Prog.load f) ||| m))
      (fun _ w' => K.Fresh w w') w := by
  rw [wp_bind, wp_load, wp_store]
  intro i hi
  set v := env.hw.reads f w.toState with hv
  set w₁ := w.perform env.hw (.load f v) with hw₁
  rcases pending_after_iff.mp hi with ⟨hp, hc⟩ | hnews
  · refine Came.perform ?_
    rcases pending_after_iff.mp hp with ⟨hbefore, -⟩ | hnews
    · -- it was read, so a one was written to it
      have hlt : i < S.width f := BitVec.lt_of_getLsbD hbefore
      have hread : v.getLsbD i = true := (K.getLsbD_reads (by omega)).trans hbefore
      rw [getLsbD_clearing_cut hlt, BitVec.getLsbD_or, hread, Bool.true_or] at hc
      exact absurd hc (by decide)
    · exact came_perform hnews
  · have hpath : Path env.hw (fun _ _ => True) w w₁ := .single rfl trivial
    exact (came_perform hnews).of_path hpath

end Sticky

/-! ### A quiet machine -/

section Quiet

variable {fixed : (f : S.Field) → Option (BitVec (S.width f))}

/-- Field units that read as a fixed value or are sticky, and nothing comes in. -/
def quiet (fixed : (f : S.Field) → Option (BitVec (S.width f))) : Hardware S (Snapshot S) where
  load f s := ((fixed f).getD (s f), s)
  store f v s := Function.update s f (s f &&& ~~~v)
  sleep _ s := s
  stall _ s := s
  timer s := (0, s)

/-- A field unit that is not fixed. -/
def quietSticky (h : fixed f = none) : Sticky (quiet fixed) f where
  pending s := s f
  news _ _ := 0#_
  load s := by
    show (fixed f).getD (s f) = s f
    rw [h]
    rfl
  after s e := by
    have hzero : s.hw f = s.hw f &&& ~~~(0#_) := by rw [BitVec.not_zero, BitVec.and_allOnes]
    rw [BitVec.or_zero]
    cases e with
    | store g v =>
      by_cases hg : g = f
      · subst hg
        rw [clearing, if_pos rfl]
        exact Function.update_self ..
      · rw [clearing, if_neg hg, ← hzero]
        exact Function.update_of_ne (Ne.symm hg) _ _
    | _ => exact hzero

end Quiet

end Aml
