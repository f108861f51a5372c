import Mathlib.Data.List.Basic
import XPS9350.Aml.Runs
import XPS9350.TB3.Equiv.Footprint
import XPS9350.TB3.Equiv.Stages

/-!
# When the firmware is reset

`ICMD` writes `ICME` to reset the connection manager firmware.  `reset_iff`: it does so only over a
trained link, except that it ignores the result of the last `WTLT`.
-/

namespace TB3.RP01

open Aml Aml.Prog

variable {σ : Type} {env : Env tb3 σ} {names : Name → Integer}

/-! ### A safe reset -/

/-- No link wait has used up its polls: each that was performed has returned one. -/
def Timely (es : List (Event tb3)) : Prop :=
  ∀ l ∈ [Loop.WTLT, .WTDL], .test l 2000 ∉ es

/-- What precedes a write `v` to `ICME`: `CNHI` returned one, a read of `ICME` after it differed
from all ones and a later one had bit 31 clear, the write changes bits 1 and 2 of the value just
read, and every link wait returned one. -/
def ResetAllowed (env : Env tb3 σ) (v : Integer) (older : List (Event tb3)) : Prop :=
  ∃ (u g d : Integer) (es₃ es₂ es₁ es : List (Event tb3)),
    older = .load .ICME u :: .load .ICME g :: es₃ ++ .load .ICME d :: es₂ ++ es₁ ++ es ∧
    TraceOf env CNHI 1 es₁ ∧ d ≠ 0xFFFFFFFF ∧ g &&& 0x80000000 = 0 ∧
    v.setWidth 32 &&& ~~~6#32 = u.setWidth 32 &&& ~~~6#32 ∧ Timely older

/-- A call of `ICMD` that ends in `w` resets the firmware at most once and only over a trained
link, with `POC0` one all the time and zero in the end. -/
structure ResetsSafely (env : Env tb3 σ) (w : World tb3 σ) : Prop where
  once : ∀ newer v older, w.events = newer ++ .store .ICME v :: older →
    ¬ Written newer .ICME ∧ ¬ Written older .ICME
  allowed : ∀ newer v older, w.events = newer ++ .store .ICME v :: older →
    ResetAllowed env v older
  busy : ∀ x ∈ w.log, (∀ n v, x.event ≠ .set n v) → x.before.names .POC0 = 1
  done : w.names .POC0 = 0

/-- After a `WTLT` that timed out, the value of `ICME` that decides about the reset, the second one
read, shows a firmware that is not to be reset. -/
def TimeoutSpared (e : Event tb3) (older : List (Event tb3)) : Prop :=
  ∀ g u older', e = .load .ICME g → older = .load .ICME u :: .test .WTLT 2000 :: older' →
    g &&& 0x80000000 ≠ 0

/-! ### The trace of `ICMD` -/

/-- The part of `ICMD` between the two stores to `POC0`. -/
def ICMD.body : Method σ Unit := do
  let _ ← load .ICME
  if (← load .ICME) ≠ 0x800001A3 then
    if (← CNHI) ≠ 0 then
      ICMD.configured

theorem ICMD_eq : (ICMD : Method σ Unit) = (do set .POC0 1; ICMD.body; set .POC0 0) := by
  unfold ICMD ICMD.body
  simp only [bind_assoc]
  congr 1
  funext _
  congr 1
  funext _
  congr 1
  funext v
  split_ifs
  · rw [bind_assoc]
    congr 1
    funext u
    split_ifs
    · rfl
    · rfl
  · rfl

/-- Tests of the given loops only, and no read of `ICME`. -/
def Plain (p : Loop → Prop) : Event tb3 → Prop
  | .test k _ => p k
  | .load f _ => f ≠ .ICME
  | _ => True

theorem program_plain {p : Loop → Prop} (regs : List (Field × Name)) :
    Emits env (fun _ => Plain p) (program regs) := by
  induction regs with
  | nil => exact emits_pure
  | cons x regs ih =>
    exact emits_bind emits_get fun _ => emits_seq (emits_store fun _ => trivial) ih

theorem block_plain {p : Loop → Prop} (regs : List (Field × Name)) (f : Field) (v : Integer) :
    Emits env (fun _ => Plain p) (do program regs; store f v) :=
  emits_seq (program_plain regs) (emits_store fun _ => trivial)

/-- The tests of a stage are those of its own loop. -/
theorem stage_plain {l : Loop} {tries : Integer} {block : Method σ Unit} {f : Field} {n : Name}
    (hblock : Emits env (fun _ => Plain (· = l)) block) (hf : f ≠ .ICME) :
    Emits env (fun _ => Plain (· = l)) (stage l tries block f n) := by
  unfold stage
  refine emits_bind (emits_whileLoop (fun _ _ => rfl) (fun _ _ => trivial)
    (fun _ => emits_pure) fun _ => ?_) fun _ => ?_
  · refine emits_seq hblock (emits_bind emits_get fun _ => emits_bind (emits_load ?_) fun _ => ?_)
    · exact fun _ _ => hf
    · exact emits_ite emits_pure (emits_seq (emits_sleep fun _ => trivial) emits_pure)
  · exact emits_bind emits_get fun _ => emits_bind (emits_load fun _ _ => hf) fun _ => emits_pure

theorem rp_plain : Emits env (fun _ => Plain (· = .CNHIrp)) CNHI.rp :=
  stage_plain (block_plain rpRegs .RPR4 0x07) (by decide)

theorem upsb_plain : Emits env (fun _ => Plain (· = .CNHIup)) CNHI.upsb :=
  stage_plain (block_plain upsbRegs .UP04 0x07) (by decide)

theorem dsb_plain : Emits env (fun _ => Plain (· = .CNHIdsb)) CNHI.dsb := by
  refine stage_plain (emits_seq (program_plain dsb0Regs) ?_) (by decide)
  refine emits_seq (emits_store fun _ => trivial) (emits_seq (program_plain dsb1Regs) ?_)
  exact emits_seq (emits_store fun _ => trivial) (block_plain dsb2Regs .D404 0x07)

theorem nhi_plain : Emits env (fun _ => Plain (· = .CNHInhi)) CNHI.nhi :=
  stage_plain (block_plain nhiRegs .NH04 0x07) (by decide)

section

variable {es es' : List (Event tb3)} {l : Loop}

theorem timely_append : Timely (es' ++ es) ↔ Timely es' ∧ Timely es := by
  simp only [Timely, List.mem_append, not_or]
  exact forall₂_and

@[simp] theorem timely_load {f : Field} {v : Integer} : Timely (.load f v :: es) ↔ Timely es := by
  simp [Timely]

theorem Plain.mono {p q : Loop → Prop} {e : Event tb3} (h : Plain p e) (hpq : ∀ k, p k → q k) :
    Plain q e := by
  cases e with
  | test k i => exact hpq k h
  | _ => exact h

/-- A stage of `CNHI` performs no link wait. -/
theorem timely_of_plain (hl : l ∉ [Loop.WTLT, .WTDL]) (h : ∀ e ∈ es, Plain (· = l) e) :
    Timely es := by
  intro k hk hmem
  have heq : k = l := h _ hmem
  exact hl (heq ▸ hk)

theorem Waited.plain {check : List Field} {v : Integer} (h : Waited l check v es) :
    ∀ e ∈ es, Plain (· = l) e := by
  intro e he
  have hwait := h.events e he
  cases e with
  | load f u =>
    rintro rfl
    exact absurd (show Field.ICME ∈ linkFields from hwait) (by decide)
  | test k i => exact hwait
  | _ => trivial

theorem Waited.timely {check : List Field} {v : Integer} (h : Waited l check v es) (hv : v = 1) :
    Timely es := by
  rintro k - hmem
  have heq : k = l := h.plain _ hmem
  subst heq
  rcases h.result with ⟨-, -, hnot⟩ | ⟨hv0, -⟩
  · exact hnot hmem
  · rw [hv] at hv0
    exact absurd hv0 (by decide)

end

/-- A segment of a trace that neither reads `ICME` nor has a link wait time out. -/
structure Clean (es : List (Event tb3)) : Prop where
  plain : ∀ e ∈ es, Plain (fun _ => True) e
  timely : Timely es

section

variable {es es' : List (Event tb3)} {l : Loop}

theorem Clean.append (h : Clean es) (h' : Clean es') : Clean (es' ++ es) where
  plain e he := (List.mem_append.mp he).elim (h'.plain e) (h.plain e)
  timely := timely_append.mpr ⟨h'.timely, h.timely⟩

theorem clean_stage {names' : Name → Integer} {m : Method σ Bool} {fields : List Field}
    {f : Field} {v : Integer} (hl : l ∉ [Loop.WTLT, .WTDL])
    (h : Traces env names' m (Staged fields f v)) (hm : Emits env (fun _ => Plain (· = l)) m) :
    Traces env names' m fun _ es => Clean es :=
  (h.emits hm fun _ _ he => he).imp fun _ _ hes =>
    ⟨fun e he => (hes.2 e he).mono fun _ _ => trivial, timely_of_plain hl hes.2⟩

theorem Waited.clean_plain {check : List Field} {v : Integer} (h : Waited l check v es) :
    ∀ e ∈ es, Plain (fun _ => True) e :=
  fun e he => (h.plain e he).mono fun _ _ => trivial

theorem Waited.clean {check : List Field} {v : Integer} (h : Waited l check v es)
    (hv : ¬ v ≠ 1) : Clean es :=
  ⟨h.clean_plain, h.timely (not_not.mp hv)⟩

end

/-- `CNHI` does not read `ICME`, and no link wait timed out when it returns one. -/
structure Settled (v : Integer) (es : List (Event tb3)) : Prop where
  plain : ∀ e ∈ es, Plain (fun _ => True) e
  timely : v = 1 → Timely es

theorem Clean.settled {v : Integer} {es : List (Event tb3)} (h : Clean es) : Settled v es :=
  ⟨h.plain, fun _ => h.timely⟩

theorem CNHI_settled (hfuel : 2000 < env.fuel) : Traces env names CNHI Settled := by
  have failed {l : Loop} {check : List Field} {v : Integer} {es es' : List (Event tb3)}
      (h : Waited l check v es') (hes : Clean es) : Settled 0 (es' ++ es) :=
    ⟨fun e he => (List.mem_append.mp he).elim
      (h.clean_plain e) (hes.plain e), fun h0 => absurd h0 (by decide)⟩
  unfold CNHI
  refine traces_bind (clean_stage (by decide) (rp_traces hfuel) rp_plain) fun b es₁ c₁ => ?_
  refine traces_ite (fun _ => traces_pure c₁.settled) fun _ => ?_
  refine traces_bind_append (clean_stage (by decide) (upsb_traces hfuel) upsb_plain) fun b es₂ c₂ => ?_
  have c₂ := c₁.append c₂
  refine traces_ite (fun _ => traces_pure c₂.settled) fun _ => ?_
  refine traces_bind_append (WTLT_traces hfuel) fun v es₃ h₃ => ?_
  have f₃ : Settled 0 (es₃ ++ (es₂ ++ es₁)) := failed h₃ c₂
  refine traces_ite (fun _ => traces_pure f₃) fun hv => ?_
  have c₃ := c₂.append (h₃.clean hv)
  refine traces_bind_append (clean_stage (by decide) (dsb_traces hfuel) dsb_plain) fun b es₄ c₄ => ?_
  have c₄ := c₃.append c₄
  refine traces_ite (fun _ => traces_pure c₄.settled) fun _ => ?_
  refine traces_bind_append (WTDL_traces hfuel) fun v es₅ h₅ => ?_
  have f₅ : Settled 0 (es₅ ++ (es₄ ++ (es₃ ++ (es₂ ++ es₁)))) := failed h₅ c₄
  refine traces_ite (fun _ => traces_pure f₅) fun hv' => ?_
  have c₅ := c₄.append (h₅.clean hv')
  refine traces_bind_append (clean_stage (by decide) (nhi_traces hfuel) nhi_plain) fun b es₆ c₆ => ?_
  have c₆ := c₅.append c₆
  exact traces_ite (fun _ => traces_pure c₆.settled) fun _ => traces_pure c₆.settled

/-! ### The reset -/

/-- The events of the wait for the firmware. -/
def IsReady : Event tb3 → Prop
  | .load _ _ | .sleep _ | .pass _ _ => True
  | .test k _ => k = .ICMD
  | _ => False

theorem ready_traces (hfuel : 2000 < env.fuel) :
    Traces env names ICMD.ready fun _ es => ∀ e ∈ es, IsReady e := by
  unfold ICMD.ready
  -- the last try is left with the local at one, so the predicate never sees a zero
  refine traces_whileLoop (fun i b es => i < 1000 ∧ b = countdown 1000 i ∧ ∀ e ∈ es, IsReady e)
    1000 (by omega) ⟨by decide, rfl, by simp⟩ ?_
  rintro i _ es ⟨hi, rfl, hes⟩
  refine ⟨by omega, traces_bind_load fun v => traces_pure ?_⟩
  have htest : ∀ e ∈ .load .ICME v :: .test .ICMD i :: es, IsReady e :=
    List.forall_mem_cons.mpr ⟨trivial, List.forall_mem_cons.mpr ⟨rfl, hes⟩⟩
  by_cases hv : v &&& 0x80000000 = 0
  · rw [decide_eq_true hv, if_pos rfl, countdown_sub_one (by decide) hi]
    refine traces_ite (fun _ => traces_pure ?_) fun hne => traces_bind_sleep (traces_pure ?_)
    · exact List.forall_mem_cons.mpr ⟨trivial, htest⟩
    · refine ⟨?_, rfl, ?_⟩
      · by_contra hlt
        obtain rfl : i = 999 := by omega
        exact hne rfl
      · exact List.forall_mem_cons.mpr ⟨trivial, List.forall_mem_cons.mpr ⟨trivial, htest⟩⟩
  · rw [decide_eq_false hv, if_neg (by decide)]
    exact htest

theorem reset_traces (hfuel : 2000 < env.fuel) :
    Traces env names ICMD.reset fun _ es => ∃ u es', (∀ e ∈ es', IsReady e) ∧
      es = es' ++ [.store .ICME (tb3.cut .ICME (u ||| 0x06)), .load .ICME u] := by
  unfold ICMD.reset
  refine traces_bind_load fun u => traces_bind_store (traces_bind (ready_traces hfuel) ?_)
  intro _ es hes
  refine traces_bind_load fun v => traces_sleep ⟨u, .sleep 1000 :: .load .ICME v :: es, ?_, ?_⟩
  · exact List.forall_mem_cons.mpr ⟨trivial, List.forall_mem_cons.mpr ⟨trivial, hes⟩⟩
  · simp only [List.cons_append, List.nil_append, List.append_assoc]

/-- A trace without a reset. -/
structure Spared (es : List (Event tb3)) : Prop where
  not_written : ¬ Written es .ICME
  spared : InOrder TimeoutSpared es

/-- The trace of a reset: the reads at the start, `CNHI` with its result one, the reads of `ICME`
around the last link wait, the update and the wait for the firmware. -/
def Reset (env : Env tb3 σ) (es : List (Event tb3)) : Prop :=
  ∃ (u g e d c b a v : Integer) (ready wait cnhi : List (Event tb3)),
    es = ready ++ (.store .ICME (tb3.cut .ICME (u ||| 0x06)) :: .load .ICME u :: .load .ICME g ::
      .load .ICME e :: (wait ++ .load .ICME d :: .load .ICME c :: (cnhi ++
        [.load .ICME b, .load .ICME a]))) ∧
    (∀ x ∈ ready, IsReady x) ∧ Waited .WTLT ULTC.fields v wait ∧ TraceOf env CNHI 1 cnhi ∧
    Clean cnhi ∧ ¬ Written cnhi .ICME ∧ d ≠ 0xFFFFFFFF ∧ g &&& 0x80000000 = 0

section

variable {es es' : List (Event tb3)}

/-- Reads of `ICME` that do not follow a timeout. -/
theorem Spared.load {v : Integer} (h : Spared es)
    (hes : ∀ u older, es ≠ .load .ICME u :: .test .WTLT 2000 :: older) :
    Spared (.load .ICME v :: es) where
  not_written := written_load.not.mpr h.not_written
  spared := inOrder_cons.mpr ⟨fun _ u older _ heq => absurd heq (hes u older), h.spared⟩

/-- Segments without a read of `ICME`. -/
theorem Spared.append (h : Spared es) (hes' : ∀ e ∈ es', Plain (fun _ => True) e)
    (hw : ¬ Written es' .ICME) : Spared (es' ++ es) where
  not_written hmem := (written_append.mp hmem).elim hw h.not_written
  spared := by
    refine inOrder_append h.spared (InOrder.of_forall fun x hx older g u older' heq => ?_)
    subst heq
    exact absurd rfl (hes' _ hx)

theorem Downstream.not_written_ICME {v : Integer} (h : Downstream names v es) :
    ¬ Written es .ICME := by
  have hnot (st : Stage) : (Field.ICME) ∉ st.fields := by cases st <;> decide
  intro hw
  rcases h.result with ⟨-, -, hall⟩ | ⟨-, pre, -, -, hpre⟩
  · obtain ⟨st, -, hst⟩ := (hall _).mp hw
    exact hnot st hst
  · obtain ⟨st, -, hst⟩ := (hpre _).mp hw
    exact hnot st hst

end

/-- Every call of `ICMD` either resets the firmware or spares it. -/
def Outcome (env : Env tb3 σ) (_ : Unit) (es : List (Event tb3)) : Prop :=
  Spared es ∨ Reset env es

theorem body_traces (hfuel : 2000 < env.fuel) :
    Traces env names ICMD.body (Outcome env) := by
  have hnil : Spared [] := ⟨by simp [Written], inOrder_nil⟩
  unfold ICMD.body ICMD.configured
  refine traces_append_nil (traces_load_append fun a => traces_load_append fun b => ?_)
  have hstart : Spared [.load .ICME b, .load .ICME a] :=
    (hnil.load (by simp)).load (by simp)
  refine traces_ite (fun _ => ?_) fun _ => traces_pure (.inl hstart)
  have hdownstream : Traces env names CNHI (Downstream names) := CNHI_traces hfuel
  have hcnhi := (hdownstream.and (CNHI_settled hfuel)).traceOf
  refine traces_bind_append hcnhi ?_
  rintro v es₁ ⟨⟨hdown, hsettled⟩, htrace⟩
  have hw₁ := hdown.not_written_ICME
  have h₁ := hstart.append hsettled.plain hw₁
  refine traces_ite (fun hv => ?_) fun _ => traces_pure (.inl h₁)
  -- `CNHI` has returned one, right after a read of `NH10`
  obtain ⟨rfl, ⟨o₁, ho₁⟩, -⟩ : v = 1 ∧ (∃ o, es₁ = .load .NH10 (names .RH10) :: o) ∧ True := by
    rcases hdown.result with ⟨hv1, hlast, -⟩ | ⟨hv0, -⟩
    · exact ⟨hv1, hlast, trivial⟩
    · exact absurd hv0 hv
  refine traces_load_append fun c => traces_load_append fun d => ?_
  have h₂ : Spared (.load .ICME d :: .load .ICME c :: (es₁ ++ [.load .ICME b, .load .ICME a])) := by
    refine (h₁.load ?_).load ?_
    · simp [ho₁]
    · simp [ho₁]
  refine traces_ite (fun hd => ?_) fun _ => traces_pure (.inl h₂)
  refine traces_bind_append (WTLT_traces hfuel) fun v' es₃ h₃ => ?_
  refine traces_load_append fun e => traces_load_append fun g => ?_
  refine traces_ite (fun hg => ?_) fun hg => traces_pure (.inl ?_)
  · refine (reset_traces hfuel).imp ?_
    rintro _ _ ⟨u, ready, hready, rfl⟩
    refine .inr ⟨u, g, e, d, c, b, a, v', ready, es₃, es₁, ?_, hready, h₃, htrace,
      ⟨hsettled.plain, hsettled.timely rfl⟩, hw₁, hd, hg⟩
    simp only [List.append_assoc, List.cons_append, List.nil_append]
  · -- the firmware is not to be reset, timeout or not
    have hplain := h₃.clean_plain
    have h₄ := h₂.append hplain (h₃.not_written _)
    have h₅ : Spared (.load .ICME e :: (es₃ ++ .load .ICME d :: .load .ICME c ::
        (es₁ ++ [.load .ICME b, .load .ICME a]))) := by
      refine h₄.load fun u older heq => ?_
      cases es₃ with
      | nil => simp at heq
      | cons x es₃ =>
        obtain ⟨rfl, -⟩ := List.cons.inj heq
        exact hplain _ List.mem_cons_self rfl
    refine ⟨written_load.not.mpr h₅.not_written, inOrder_cons.mpr ⟨?_, h₅.spared⟩⟩
    rintro g' u older hload -
    obtain rfl : g = g' := by simpa using hload
    exact hg

/-! ### The call -/

section

variable {es es' older : List (Event tb3)}

/-- The events of a call of `ICMD` around those of its body. -/
def bracket (es : List (Event tb3)) : List (Event tb3) :=
  .set .POC0 0 :: (es ++ [.set .POC0 1])

theorem Spared.bracket (h : Spared es) :
    ¬ Written (bracket es) .ICME ∧ InOrder TimeoutSpared (bracket es) := by
  have hset : InOrder TimeoutSpared [(.set .POC0 1 : Event tb3)] := by
    refine InOrder.of_forall fun e he older g u older' heq => ?_
    rw [List.mem_singleton.mp he] at heq
    cases heq
  constructor
  · rintro ⟨v, hv⟩
    simp only [RP01.bracket, List.mem_cons, reduceCtorEq, List.mem_append, List.not_mem_nil,
      or_false, false_or] at hv
    exact h.not_written ⟨v, hv⟩
  · refine inOrder_cons.mpr ⟨?_, inOrder_append hset ?_⟩
    · rintro g u older' heq
      cases heq
    intro newer e older heq g u older' hload hold
    -- the store to `POC0` is not a timeout
    rcases older with _ | ⟨x, _ | ⟨y, older⟩⟩
    · cases hold
    · cases hold
    · obtain ⟨rfl, hrest⟩ := List.cons.inj hold
      obtain ⟨rfl, -⟩ := List.cons.inj hrest
      exact h.spared newer e _ heq g u older hload rfl

end

theorem update_bits (u : Integer) :
    (tb3.cut .ICME (u ||| 0x06)).setWidth 32 &&& ~~~6#32 = u.setWidth 32 &&& ~~~6#32 := by
  have hcut : (tb3.cut .ICME (u ||| 0x06)).setWidth 32 = (u ||| 0x06).setWidth 32 :=
    tb3.setWidth_cut .ICME (u ||| 0x06)
  rw [hcut, BitVec.setWidth_or]
  ext i hi
  have h6 : (BitVec.setWidth 32 (0x06 : Integer))[i] = (6#32)[i] := rfl
  simp only [BitVec.getElem_and, BitVec.getElem_or, BitVec.getElem_not]
  rw [Bool.and_or_distrib_right, h6, Bool.and_not_self, Bool.or_false]

theorem body_within : Emits env (Within (fun _ _ => False) (fun _ _ => True)) ICMD.body := by
  have hcnhi : Emits env (Within (fun _ _ => False) (fun _ _ => True)) CNHI :=
    CNHI_within (fun _ _ _ => trivial) fun _ _ _ => trivial
  have hconfigured : Emits env (Within (fun _ _ => False) (fun _ _ => True)) ICMD.configured :=
    configured_within fun _ => trivial
  unfold ICMD.body
  grind

/-- A call of `ICMD` from the state `s`. -/
theorem ICMD_run (hfuel : 2000 < env.fuel) (s : State tb3 σ) :
    ∃ w' es, ICMD env s.world = (some (), w') ∧ w'.events = bracket es ∧ Outcome env () es ∧
      (∀ x ∈ w'.log, (∀ n v, x.event ≠ .set n v) → x.before.names .POC0 = 1) ∧
      w'.names .POC0 = 0 := by
  rw [ICMD_eq]
  obtain ⟨_, w₂, es, hr, hnames, hes, hout⟩ :=
    (body_traces hfuel).run (s.world.perform env.hw (.set .POC0 1)) rfl
  have hset : (Prog.set .POC0 1 : Method σ Unit) env s.world =
    (some (), s.world.perform env.hw (.set .POC0 1)) := rfl
  refine ⟨w₂.perform env.hw (.set .POC0 0), es, ?_, ?_, hout, ?_, ?_⟩
  · rw [Prog.bind_of_some hset, Prog.bind_of_some hr]
    rfl
  · rw [World.perform_events, hes]
    rfl
  · have hbody : Emits env (Within (fun _ _ => False) (fun _ _ => True)) ICMD.body := body_within
    have hpath := hbody (s.world.perform env.hw (.set .POC0 1))
    rw [hr] at hpath
    have hone : ∀ x ∈ w₂.log, (∀ n v, x.event ≠ .set n v) → x.before.names .POC0 = 1 := by
      refine (hpath.strengthen (I := fun u : World tb3 σ => u.names .POC0 = 1) rfl ?_).forall_log ?_ ?_
      · intro u e hu _ he
        rw [World.perform_toState, after_names]
        cases e with
        | set n v => exact he.elim
        | _ => exact hu
      · exact fun u e _ he _ => he.1
      · intro x hx hset
        rw [List.mem_singleton.mp hx] at hset
        exact absurd rfl (hset .POC0 1)
    intro x hx hnot
    rcases List.mem_cons.mp hx with rfl | hx
    · exact absurd rfl (hnot .POC0 0)
    · exact hone x hx hnot
  · show Function.update w₂.names .POC0 0 .POC0 = 0
    rw [Function.update_self]

/-- A reset is the only one of its call, and safe unless a link wait before it timed out; the
decision about it followed the last of these. -/
theorem Reset.bracket {es : List (Event tb3)} (h : Reset env es) :
    ∃ newer v older, bracket es = newer ++ .store .ICME v :: older ∧
      ¬ Written newer .ICME ∧ ¬ Written older .ICME ∧
      (Timely older → ResetAllowed env v older) ∧
      (InOrder TimeoutSpared (bracket es) ↔ Timely older) := by
  obtain ⟨u, g, e, d, c, b, a, v, ready, wait, cnhi, rfl, hready, hwait, htrace, hclean, hw, hd,
    hg⟩ := h
  have heq : RP01.bracket (ready ++ (.store .ICME (tb3.cut .ICME (u ||| 0x06)) ::
      .load .ICME u :: .load .ICME g :: .load .ICME e :: (wait ++ .load .ICME d :: .load .ICME c ::
        (cnhi ++ [.load .ICME b, .load .ICME a])))) = (.set .POC0 0 :: ready) ++
      .store .ICME (tb3.cut .ICME (u ||| 0x06)) :: .load .ICME u :: .load .ICME g ::
        .load .ICME e :: (wait ++ .load .ICME d :: .load .ICME c ::
          (cnhi ++ [.load .ICME b, .load .ICME a, .set .POC0 1])) := by
    simp only [RP01.bracket, List.append_assoc, List.cons_append, List.nil_append]
  refine ⟨_, _, _, heq, ?_, ?_, fun htimely => ?_, ?_, ?_⟩
  · rintro ⟨v', hv'⟩
    exact (List.mem_cons.mp hv').elim (fun h => nomatch h) fun h => hready _ h
  · simp only [written_load, written_append, not_or]
    refine ⟨hwait.not_written _, hw, ?_⟩
    simp [Written]
  · refine ⟨u, g, d, .load .ICME e :: wait, [.load .ICME c], cnhi,
      [.load .ICME b, .load .ICME a, .set .POC0 1], ?_, htrace, hd, hg, update_bits u, htimely⟩
    simp only [List.append_assoc, List.cons_append, List.nil_append]
  · intro horder
    rw [heq] at horder
    have hdecision := (inOrder_cons.mp (inOrder_cons.mp (inOrder_cons.mp horder.of_append).2).2).1
    have hv : v = 1 := by
      rcases hwait.result with ⟨hv1, -⟩ | ⟨-, o, rfl⟩
      · exact hv1
      · exact absurd hg (hdecision g e _ rfl rfl)
    simp only [timely_load, timely_append]
    refine ⟨hwait.timely hv, hclean.timely, ?_⟩
    intro k _
    simp
  · rintro htimely newer x older hx g' u' older' - rfl
    -- a timeout of `WTLT` would be among the events before the reset
    have hmem : (.test .WTLT 2000 : Event tb3) ∈ newer ++ x :: .load .ICME u' ::
        .test .WTLT 2000 :: older' := by simp
    rw [← hx, heq] at hmem
    rcases List.mem_append.mp hmem with hmem | hmem
    · rcases List.mem_cons.mp hmem with h | h
      · cases h
      · exact absurd (show Loop.WTLT = .ICMD from hready _ h) (by decide)
    · rcases List.mem_cons.mp hmem with h | h
      · cases h
      · exact absurd h (htimely .WTLT (by decide))

/-- **When a reset is safe**: on every hardware the call ends, and it resets the firmware as
`ResetsSafely` says exactly if every timeout of the last `WTLT` is followed by an `ICME` that asks
for no reset.  The result of that `WTLT` is ignored. -/
theorem reset_iff (hw : Hardware tb3 σ) (fuel : ℕ) (s : State tb3 σ) :
    ∃ w', ICMD ⟨hw, 2001 + fuel⟩ s.world = (some (), w') ∧
      (ResetsSafely ⟨hw, 2001 + fuel⟩ w' ↔ InOrder TimeoutSpared w'.events) := by
  have hfuel : 2000 < (⟨hw, 2001 + fuel⟩ : Env tb3 σ).fuel := by
    show 2000 < 2001 + fuel
    omega
  obtain ⟨w', es, hr, hes, hout, hbusy, hdone⟩ := ICMD_run hfuel s
  refine ⟨w', hr, ?_⟩
  rcases hout with hspared | hreset
  · obtain ⟨hw, horder⟩ := hspared.bracket
    refine iff_of_true ⟨?_, ?_, hbusy, hdone⟩ (hes ▸ horder)
    · intro newer v older heq
      exact absurd ⟨v, by rw [← hes, heq]; simp⟩ hw
    · intro newer v older heq
      exact absurd ⟨v, by rw [← hes, heq]; simp⟩ hw
  · obtain ⟨newer, v, older, heq, hnewer, holder, hallowed, horder⟩ := hreset.bracket
    rw [hes, horder]
    constructor
    · intro h
      obtain ⟨-, -, -, -, -, -, -, -, -, -, -, -, htimely⟩ := h.allowed newer v older (hes.trans heq)
      exact htimely
    · intro htimely
      -- every write to `ICME` is this one
      have hunique : ∀ newer' v' older', w'.events = newer' ++ .store .ICME v' :: older' →
          newer' = newer ∧ v' = v ∧ older' = older := by
        intro newer' v' older' heq'
        have happ := heq.symm.trans (hes.symm.trans heq')
        obtain ⟨rfl, hstore, rfl⟩ := (List.append_cons_inj_of_notMem
          (fun hmem => hnewer ⟨v', hmem⟩) fun hmem => holder ⟨v', hmem⟩).mp happ
        cases hstore
        exact ⟨rfl, rfl, rfl⟩
      refine ⟨?_, ?_, hbusy, hdone⟩
      · intro newer' v' older' heq'
        obtain ⟨rfl, rfl, rfl⟩ := hunique newer' v' older' heq'
        exact ⟨hnewer, holder⟩
      · intro newer' v' older' heq'
        obtain ⟨rfl, rfl, rfl⟩ := hunique newer' v' older' heq'
        exact hallowed htimely

/-- A link that goes down after the fourth read of `ICME`, which reads as zero; the state is the
number of these reads. -/
def droppedLink : Hardware tb3 ℕ where
  load
    | .ICME, n => (0, n + 1)
    | .RPR4, n => (0x07, n)
    | .RPLT, n => (if n < 4 then 0 else 1, n)
    | .UPVD, n => (0x15D38086, n)
    | _, n => (0, n)
  store _ _ n := n
  sleep _ n := n
  stall _ n := n
  timer n := (0, n)

/-- `ICMD` on it, up to `CNHI`. -/
def droppedStart : World tb3 ℕ :=
  (((loaded 0).world.perform droppedLink (.set .POC0 1)).perform droppedLink
    (.load .ICME 0)).perform droppedLink (.load .ICME 0)

theorem CNHI_droppedLink :
    ∃ w, CNHI ⟨droppedLink, 2001⟩ droppedStart = (some 1, w) ∧ w.hw = 2 := by
  have h : (CNHI ⟨droppedLink, 2001⟩ droppedStart).1 = some 1 ∧
      (CNHI ⟨droppedLink, 2001⟩ droppedStart).2.hw = 2 := by decide +kernel
  exact ⟨_, Prod.ext h.1 rfl, h.2⟩

theorem WTLT_droppedLink : Runs ⟨droppedLink, 2001⟩ (fun x => x.hw) WTLT 4 0 4 := by
  have hload {f : Field} {v : BitVec f.width} (h : droppedLink.load f 4 = (v, 4)) :
      Runs ⟨droppedLink, 2001⟩ (fun x => x.hw) (load f) 4 (v.setWidth 64) 4 := by
    refine runs_load (fun x hx => ?_) fun x hx => ?_
    · show (droppedLink.load f x.hw).1.setWidth 64 = v.setWidth 64
      rw [show x.hw = 4 from hx, h]
    · show (droppedLink.load f x.hw).2 = 4
      rw [show x.hw = 4 from hx, h]
  have hpoll : Runs ⟨droppedLink, 2001⟩ (fun x => x.hw) (linkReady ULTC) 4 false 4 := by
    have hcheck : Runs ⟨droppedLink, 2001⟩ (fun x => x.hw) ULTC 4 0 4 := by
      refine runs_bind (hload (f := .RPLT) (v := 1#1) rfl) ?_
      rw [if_neg (by decide)]
      exact runs_pure
    refine runs_bind (hload (f := .RPR4) (v := 7#8) rfl) ?_
    rw [if_pos (by decide)]
    refine runs_bind hcheck ?_
    rw [if_neg (by decide)]
    exact runs_pure
  refine runs_whileLoop_done (k := 2000) (by decide) (countdown 2000) (fun _ => 4) (fun i hi => ?_)
    (fun i hi => ?_) ?_
  · rw [decide_eq_true (countdown_ne_zero (by decide) hi)]
    exact runs_pure
  · refine runs_bind hpoll ?_
    rw [if_neg (by decide), ← countdown_sub_one (by decide) hi]
    exact runs_bind (runs_act fun _ hx => hx) runs_pure
  · exact runs_pure

theorem wp_load_ICME {E : World tb3 ℕ → Prop} {Q : Integer → World tb3 ℕ → Prop}
    {w : World tb3 ℕ} : wp ⟨droppedLink, 2001⟩ E (load .ICME) Q w ↔
      Q 0 (w.perform droppedLink (.load .ICME 0)) := wp_load

/-- `WTLT` times out on it. -/
theorem WTLT_timeout (w : World tb3 ℕ) (hw : w.hw = 4) :
    ∃ w' older, WTLT ⟨droppedLink, 2001⟩ w = (some 0, w') ∧
      w'.events = .test .WTLT 2000 :: older := by
  obtain ⟨w', hr, -⟩ := WTLT_droppedLink w hw
  have hfuel : 2000 < Env.fuel (⟨droppedLink, 2001⟩ : Env tb3 ℕ) := by decide
  obtain ⟨v, w'', es, hr', -, hes, hwait⟩ := (WTLT_traces hfuel).run w rfl
  obtain ⟨rfl, rfl⟩ : v = 0 ∧ w'' = w' := by
    have heq := hr'.symm.trans hr
    simpa using heq
  rcases hwait.result with ⟨hv, -⟩ | ⟨-, older, rfl⟩
  · exact absurd hv (by decide)
  · exact ⟨w'', older ++ w.events, hr, hes⟩

/-- On it the firmware is reset over a link that did not come up. -/
theorem not_safe_droppedLink :
    ¬ ResetsSafely ⟨droppedLink, 2001⟩ (ICMD ⟨droppedLink, 2001⟩ (loaded 0).world).2 := by
  -- the reset follows a timeout, and stays on the log
  let P (w : World tb3 ℕ) : Prop := ∃ newer v older, w.events = newer ++ .store .ICME v ::
    .load .ICME 0 :: .load .ICME 0 :: .load .ICME 0 :: .test .WTLT 2000 :: older
  have hstay {α : Type} (m : Method ℕ α) (w : World tb3 ℕ) (hw : P w) :
      wp ⟨droppedLink, 2001⟩ P m (fun _ => P) w := by
    have hlater (w' : World tb3 ℕ) (hpath : Path droppedLink (fun _ _ => True) w w') : P w' := by
      obtain ⟨newer, v, older, hev⟩ := hw
      obtain ⟨new, hlog, -⟩ := hpath.log_append
      refine ⟨new.map (·.event) ++ newer, v, older, ?_⟩
      rw [World.events, hlog, List.map_append, List.append_assoc, ← hev]
      rfl
    exact wp_of_emits (fun w' => m.path _ w') (fun w' h => hlater w' h) fun _ w' h => hlater w' h
  have hrun : wp ⟨droppedLink, 2001⟩ P ICMD (fun _ => P) (loaded 0).world := by
    rw [ICMD_eq, wp_bind, wp_set, wp_bind]
    refine wp_imp ?_ fun _ w' hw' => hstay _ w' hw'
    unfold ICMD.body ICMD.configured ICMD.reset
    rw [wp_bind, wp_load_ICME, wp_bind, wp_load_ICME, if_pos (by decide), wp_bind]
    -- `CNHI` succeeds
    obtain ⟨w₂, hr₂, hw₂⟩ := CNHI_droppedLink
    have hstart : World.perform droppedLink (World.perform droppedLink ((State.world (loaded 0)).perform
        (⟨droppedLink, 2001⟩ : Env tb3 ℕ).hw (.set .POC0 1)) (.load .ICME 0)) (.load .ICME 0) =
        droppedStart := rfl
    rw [hstart]
    refine wp_of_eq hr₂ ?_
    rw [if_pos (by decide), wp_bind, wp_load_ICME, wp_bind, wp_load_ICME, if_pos (by decide),
      wp_bind]
    -- the link does not come up
    have hw₄ : ((w₂.perform droppedLink (.load .ICME 0)).perform droppedLink
        (.load .ICME 0)).hw = 4 := by
      show w₂.hw + 1 + 1 = 4
      rw [hw₂]
    obtain ⟨w', older, hr, hev⟩ := WTLT_timeout _ hw₄
    refine wp_of_eq hr ?_
    rw [wp_bind, wp_load_ICME, wp_bind, wp_load_ICME, if_pos (by decide), wp_bind, wp_load_ICME,
      wp_bind, wp_store]
    refine hstay _ _ ⟨[], tb3.cut .ICME (0 ||| 0x06), older, ?_⟩
    simp only [World.perform_events, hev, List.nil_append]
  have hP : P (ICMD ⟨droppedLink, 2001⟩ (loaded 0).world).2 := by
    rw [wp_iff] at hrun
    rcases hr : ICMD ⟨droppedLink, 2001⟩ (loaded 0).world with ⟨_ | a, w'⟩
    · exact hrun.2 w' hr
    · exact hrun.1 a w' hr
  intro h
  obtain ⟨newer, v, older, hev⟩ := hP
  obtain ⟨-, -, -, -, -, -, -, -, -, -, -, -, htimely⟩ := h.allowed newer v _ hev
  exact htimely .WTLT (by decide) (by simp)

end TB3.RP01
