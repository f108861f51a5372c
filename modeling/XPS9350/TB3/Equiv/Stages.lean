import XPS9350.Aml.Trace
import XPS9350.TB3.Icm

/-!
# `CNHI` programs strictly downstream

`CNHI` writes the root port, then `UPSB`, then the downstream ports and `NHI0`.
`CNHI_downstream`: a register of a later stage is written only after the earlier ones were read
back and the links to it were seen up, so that a call that fails has written a prefix of the
stages, and nothing behind an upstream port that does not answer.
-/

namespace TB3.RP01

open Aml Aml.Prog

variable {σ : Type} {env : Env tb3 σ} {names : Name → Integer}

/-! ### The stages -/

/-- The stages of `CNHI`. -/
inductive Stage where
  | rp | upsb | dsb | nhi
  deriving DecidableEq

/-- The stages in their order. -/
def Stage.all : List Stage := [.rp, .upsb, .dsb, .nhi]

/-- The registers that a stage writes. -/
def Stage.fields : Stage → List Field
  | .rp => rpRegs.map Prod.fst ++ [.RPR4]
  | .upsb => upsbRegs.map Prod.fst ++ [.UP04]
  | .dsb => dsb0Regs.map Prod.fst ++ [.DP04] ++ (dsb1Regs.map Prod.fst ++ [.D304]) ++
      (dsb2Regs.map Prod.fst ++ [.D404])
  | .nhi => nhiRegs.map Prod.fst ++ [.NH04]

theorem Stage.eq_of_mem_fields {st st' : Stage} {f : Field} (h : f ∈ st.fields)
    (h' : f ∈ st'.fields) : st = st' := by
  have hdisj : ∀ f ∈ st.fields, f ∈ st'.fields → st = st' := by
    cases st <;> cases st' <;> decide
  exact hdisj f h h'

/-- A register of a stage was written. -/
def Written (es : List (Event tb3)) (f : Field) : Prop := ∃ v, .store f v ∈ es

/-- One poll of the wait `l` saw the root port enabled, the fields of `check` zero and the vendor
id of the upstream port. -/
def LinkSeen (l : Loop) (check : List Field) (es : List (Event tb3)) : Prop :=
  ∃ newer older i vd, vd &&& 0xFFFF = (0x8086 : Integer) ∧
    es = newer ++ (.load .UPVD vd :: (check.map fun f => .load f 0) ++ [.load .RPR4 0x07]) ++
      .pass l i :: older

/-- What `ULTC` reads, newest first. -/
def ULTC.fields : List Field := [.UPLT, .RPLT]

/-- What `DLTC` reads, newest first. -/
def DLTC.fields : List Field := [.DPLT, .UPLT, .RPLT]

/-- What `CNHI` has seen before it starts a stage. -/
def Verified (names : Name → Integer) : Stage → List (Event tb3) → Prop
  | .rp, _ => True
  | .upsb, es => .load .R_20 (names .R020) ∈ es
  | .dsb, es => .load .R_20 (names .R020) ∈ es ∧ .load .UP19 (names .R119) ∈ es ∧
      LinkSeen .WTLT ULTC.fields es
  | .nhi, es => .load .R_20 (names .R020) ∈ es ∧ .load .UP19 (names .R119) ∈ es ∧
      LinkSeen .WTLT ULTC.fields es ∧ .load .DP19 (names .R219) ∈ es ∧
      LinkSeen .WTDL DLTC.fields es

/-- A register of a stage is written only after what the stage needs was seen. -/
def Guarded (names : Name → Integer) (e : Event tb3) (older : List (Event tb3)) : Prop :=
  ∀ (st : Stage) (f : Field) (v : Integer), e = .store f v → f ∈ st.fields →
    Verified names st older

/-! ### Segments of a trace -/

section

variable {es es' : List (Event tb3)} {l : Loop} {check : List Field} {st : Stage}

theorem LinkSeen.append (h : LinkSeen l check es) : LinkSeen l check (es' ++ es) := by
  obtain ⟨newer, older, i, vd, hvd, rfl⟩ := h
  exact ⟨es' ++ newer, older, i, vd, hvd, by simp only [List.append_assoc]⟩

theorem LinkSeen.append_left (h : LinkSeen l check es') : LinkSeen l check (es' ++ es) := by
  obtain ⟨newer, older, i, vd, hvd, rfl⟩ := h
  exact ⟨newer, older ++ es, i, vd, hvd, by simp only [List.append_assoc, List.cons_append]⟩

/-- What was seen stays seen. -/
theorem Verified.append (h : Verified names st es) : Verified names st (es' ++ es) := by
  have hmem {e : Event tb3} (he : e ∈ es) : e ∈ es' ++ es := List.mem_append_right es' he
  cases st with
  | rp => trivial
  | upsb => exact hmem h
  | dsb =>
    obtain ⟨hrp, hup, hl⟩ := h
    exact ⟨hmem hrp, hmem hup, hl.append⟩
  | nhi =>
    obtain ⟨hrp, hup, hl, hdp, hl'⟩ := h
    exact ⟨hmem hrp, hmem hup, hl.append, hmem hdp, hl'.append⟩

@[simp] theorem written_load {f g : Field} {v : Integer} :
    Written (.load g v :: es) f ↔ Written es f := by
  simp [Written]

@[simp] theorem written_sleep {f : Field} {ms : Integer} :
    Written (.sleep ms :: es) f ↔ Written es f := by
  simp [Written]

@[simp] theorem written_test {f : Field} {i : ℕ} :
    Written (.test l i :: es) f ↔ Written es f := by
  simp [Written]

@[simp] theorem written_pass {f : Field} {i : ℕ} :
    Written (.pass l i :: es) f ↔ Written es f := by
  simp [Written]

theorem written_append {f : Field} : Written (es' ++ es) f ↔ Written es' f ∨ Written es f := by
  simp only [Written, List.mem_append, exists_or]

/-- A segment that writes the registers of one stage only, started when it may. -/
theorem guarded_segment (h : InOrder (Guarded names) es) (hst : Verified names st es)
    (hw : ∀ f, Written es' f → f ∈ st.fields) : InOrder (Guarded names) (es' ++ es) := by
  refine inOrder_append h (InOrder.of_forall fun e he older st' f v hev hf => ?_)
  subst hev
  rw [← Stage.eq_of_mem_fields (hw f ⟨v, he⟩) hf]
  exact hst.append

/-- A segment that writes nothing. -/
theorem guarded_quiet (h : InOrder (Guarded names) es) (hw : ∀ f, ¬ Written es' f) :
    InOrder (Guarded names) (es' ++ es) :=
  inOrder_append h (InOrder.of_forall fun _ he _ _ f v hev _ =>
    absurd ⟨v, hev ▸ he⟩ (hw f))

end

/-! ### The link waits -/

/-- The fields that the link waits read. -/
def linkFields : List Field := [.RPR4, .RPLT, .UPLT, .DPLT, .UPVD]

/-- The events of the wait `l`. -/
def IsWait (l : Loop) : Event tb3 → Prop
  | .load f _ => f ∈ linkFields
  | .sleep _ | .pass _ _ => True
  | .test k _ => k = l
  | _ => False

/-- The result and the trace of the wait `l`: it has seen the links up, or its predicate was tested
for the 2001st time. -/
structure Waited (l : Loop) (check : List Field) (v : Integer) (es : List (Event tb3)) : Prop where
  events : ∀ e ∈ es, IsWait l e
  result : v = 1 ∧ LinkSeen l check es ∧ .test l 2000 ∉ es ∨
    v = 0 ∧ ∃ older, es = .test l 2000 :: older

theorem Waited.not_written {l : Loop} {check : List Field} {v : Integer} {es : List (Event tb3)}
    (h : Waited l check v es) (f : Field) : ¬ Written es f := by
  rintro ⟨u, hu⟩
  exact h.events _ hu

/-- A link check reads; what it has read when it succeeds are zeros. -/
def Checks (check : List Field) (v : Integer) (es : List (Event tb3)) : Prop :=
  (∀ e ∈ es, ∃ f ∈ linkFields, ∃ u, e = .load f u) ∧ (v ≠ 0 → es = check.map fun f => .load f 0)

/-- The result and the trace of one poll. -/
def Polled (check : List Field) (b : Bool) (es : List (Event tb3)) : Prop :=
  (∀ e ∈ es, ∃ f ∈ linkFields, ∃ u, e = .load f u) ∧ (b = true → ∃ vd, vd &&& 0xFFFF = (0x8086 : Integer) ∧
    es = .load .UPVD vd :: (check.map fun f => .load f 0) ++ [.load .RPR4 0x07])

theorem ULTC_traces : Traces env names ULTC (Checks ULTC.fields) := by
  unfold ULTC
  refine traces_bind_load fun v => ?_
  refine traces_ite (fun h => ?_) fun _ => traces_pure ⟨by simp [linkFields], fun h => absurd rfl h⟩
  refine traces_bind_load fun u => ?_
  refine traces_ite (fun h' => ?_) fun _ => traces_pure ⟨by simp [linkFields], fun h => absurd rfl h⟩
  subst h h'
  exact traces_pure ⟨by simp [linkFields], fun _ => rfl⟩

theorem DLTC_traces : Traces env names DLTC (Checks DLTC.fields) := by
  unfold DLTC
  refine traces_bind_load fun v => ?_
  refine traces_ite (fun h => ?_) fun _ => traces_pure ⟨by simp [linkFields], fun h => absurd rfl h⟩
  refine traces_bind_load fun u => ?_
  refine traces_ite (fun h' => ?_) fun _ => traces_pure ⟨by simp [linkFields], fun h => absurd rfl h⟩
  refine traces_bind_load fun u' => ?_
  refine traces_ite (fun h'' => ?_) fun _ => traces_pure ⟨by simp [linkFields], fun h => absurd rfl h⟩
  subst h h' h''
  exact traces_pure ⟨by simp [linkFields], fun _ => rfl⟩

theorem UPCK_traces :
    Traces env names UPCK fun v es => ∃ vd, es = [.load .UPVD vd] ∧
      (v ≠ 0 → vd &&& 0xFFFF = (0x8086 : Integer)) := by
  unfold UPCK
  refine traces_bind_load fun vd => ?_
  exact traces_ite (fun h => traces_pure ⟨vd, rfl, fun _ => h⟩)
    fun _ => traces_pure ⟨vd, rfl, fun h => absurd rfl h⟩

theorem linkReady_traces {check : Method σ Integer} {fields : List Field}
    (hcheck : Traces env names check (Checks fields)) :
    Traces env names (linkReady check) (Polled fields) := by
  unfold linkReady
  refine traces_bind_load fun v => ?_
  refine traces_ite (fun h => ?_) fun _ => traces_pure ⟨by simp [linkFields], by simp⟩
  refine traces_bind hcheck ?_
  rintro u es ⟨hloads, hes⟩
  have hall : ∀ e ∈ es ++ [.load .RPR4 v], ∃ f ∈ linkFields, ∃ u, e = .load f u := by
    intro e he
    rcases List.mem_append.mp he with he | he
    · exact hloads e he
    · exact ⟨_, by decide, _, List.mem_singleton.mp he⟩
  refine traces_ite (fun hu => ?_) fun _ => traces_pure ⟨hall, by simp⟩
  refine traces_bind UPCK_traces ?_
  rintro u' _ ⟨vd, rfl, hvd⟩
  have hall' : ∀ e ∈ .load .UPVD vd :: (es ++ [.load .RPR4 v]),
      ∃ f ∈ linkFields, ∃ u, e = .load f u := by
    intro e he
    rcases List.mem_cons.mp he with rfl | he
    · exact ⟨_, by decide, _, rfl⟩
    · exact hall e he
  refine traces_ite (fun hu' => ?_) fun _ => traces_pure ⟨hall', by simp⟩
  refine traces_pure ⟨hall', fun _ => ⟨vd, hvd hu', ?_⟩⟩
  rw [hes hu, h]
  rfl

/-- One more poll keeps to the events of the wait, and its test is the newest. -/
theorem wait_round {l : Loop} {es es' : List (Event tb3)} {i : ℕ}
    (hwait : ∀ e ∈ es, IsWait l e) (htests : ∀ j, .test l j ∈ es → j < i)
    (hes' : ∀ e ∈ es', ∃ f ∈ linkFields, ∃ u, e = .load f u) :
    (∀ e ∈ es' ++ .pass l i :: .test l i :: es, IsWait l e) ∧
      ∀ j, .test l j ∈ es' ++ .pass l i :: .test l i :: es → j < i + 1 := by
  constructor
  · intro e he
    rcases List.mem_append.mp he with he | he
    · obtain ⟨f, hf, u, rfl⟩ := hes' e he
      exact hf
    · rcases List.mem_cons.mp he with rfl | he
      · trivial
      · rcases List.mem_cons.mp he with rfl | he
        · rfl
        · exact hwait e he
  · intro j hj
    rcases List.mem_append.mp hj with hj | hj
    · obtain ⟨f, -, u, heq⟩ := hes' _ hj
      cases heq
    · simp only [List.mem_cons, reduceCtorEq, false_or, Event.test.injEq, true_and] at hj
      rcases hj with rfl | hj
      · omega
      · have := htests j hj
        omega

theorem waitLink_traces {l : Loop} {check : Method σ Integer} {fields : List Field}
    (hfuel : 2000 < env.fuel) (hcheck : Traces env names check (Checks fields)) :
    Traces env names (waitLink l check) (Waited l fields) := by
  refine traces_countdown (n := 2000) (fun i es => (∀ e ∈ es, IsWait l e) ∧
    ∀ j, .test l j ∈ es → j < i) (by decide) hfuel ⟨by simp, by simp⟩ ?_ ?_
  · rintro i es hi ⟨hwait, htests⟩
    refine traces_bind (linkReady_traces hcheck) ?_
    rintro b es' ⟨hloads, hb⟩
    obtain ⟨hwait', htests'⟩ := wait_round hwait htests hloads
    refine traces_ite (fun h => traces_pure ?_) fun _ => ?_
    · obtain ⟨vd, hvd, rfl⟩ := hb h
      refine ⟨hwait', .inl ⟨rfl, ⟨[], _, i, vd, hvd, rfl⟩, fun hmem => ?_⟩⟩
      have := htests' 2000 hmem
      omega
    · refine traces_bind_sleep (traces_pure ⟨countdown_sub_one (by decide) hi, ?_, ?_⟩)
      · intro e he
        rcases List.mem_cons.mp he with rfl | he
        · trivial
        · exact hwait' e he
      · intro j hj
        rcases List.mem_cons.mp hj with heq | hj
        · cases heq
        · exact htests' j hj
  · rintro es ⟨hwait, -⟩
    refine ⟨fun e he => ?_, .inr ⟨rfl, es, rfl⟩⟩
    rcases List.mem_cons.mp he with rfl | he
    · rfl
    · exact hwait e he

theorem WTLT_traces (hfuel : 2000 < env.fuel) :
    Traces env names WTLT (Waited .WTLT ULTC.fields) := waitLink_traces hfuel ULTC_traces

theorem WTDL_traces (hfuel : 2000 < env.fuel) :
    Traces env names WTDL (Waited .WTDL DLTC.fields) := waitLink_traces hfuel DLTC_traces

/-! ### The stages -/

/-- The trace of one stage: it writes its fields, and ends with a read of the register `f`, which
the result compares with `v`. -/
structure Staged (fields : List Field) (f : Field) (v : Integer) (b : Bool)
    (es : List (Event tb3)) : Prop where
  written : ∀ g, Written es g ↔ g ∈ fields
  last : ∃ u es', es = .load f u :: es' ∧ (b = true ↔ v = u)

theorem program_traces (regs : List (Field × Name)) :
    Traces env names (program regs) fun _ es => ∀ g, Written es g ↔ g ∈ regs.map Prod.fst := by
  induction regs with
  | nil => exact traces_pure fun g => by simp [Written]
  | cons x regs ih =>
    refine traces_bind_get (traces_bind_store (ih.imp fun _ es hes g => ?_))
    rw [written_append, hes, List.map_cons, List.mem_cons, or_comm]
    refine or_congr ?_ Iff.rfl
    simp [Written]

/-- A block of writes followed by the write of a command register. -/
theorem block_traces {regs : List (Field × Name)} {f : Field} {v : Integer} :
    Traces env names (do program regs; store f v) fun _ es =>
      ∀ g, Written es g ↔ g ∈ regs.map Prod.fst ++ [f] := by
  refine traces_bind (program_traces regs) fun _ es hes => traces_store fun g => ?_
  rw [written_append, hes, List.mem_append, or_comm]
  refine or_congr Iff.rfl ?_
  simp [Written]

/-- A block of writes in front of others. -/
theorem block_bind {regs : List (Field × Name)} {f : Field} {v : Integer} {k : Method σ Unit}
    {R : Unit → List (Event tb3) → Prop}
    (h : ∀ es, (∀ g, Written es g ↔ g ∈ regs.map Prod.fst ++ [f]) →
      Traces env names k fun b es' => R b (es' ++ es)) :
    Traces env names (do program regs; store f v; k) R := by
  have hblock := traces_bind (block_traces (v := v)) fun _ es hes => h es hes
  rwa [bind_assoc] at hblock

theorem stage_traces {l : Loop} {n : ℕ} {block : Method σ Unit} {fields : List Field} {f : Field}
    {x : Name} (h0 : 0 < n) (hn : n < 2 ^ 64) (hfuel : n < env.fuel)
    (hblock : Traces env names block fun _ es => ∀ g, Written es g ↔ g ∈ fields) :
    Traces env names (stage l (countdown n 0) block f x) (Staged fields f (names x)) := by
  unfold stage
  refine traces_bind (Q := fun _ es => ∀ g, Written es g ↔ g ∈ fields) ?_ ?_
  · refine traces_countdown (fun i es => (∀ g, Written es g → g ∈ fields) ∧
      (0 < i → ∀ g ∈ fields, Written es g)) hn hfuel ⟨by simp [Written], by simp⟩ ?_ ?_
    · rintro i es hi ⟨honly, -⟩
      refine traces_bind hblock fun _ es' hes' => ?_
      -- after this block every field is written, whatever came before
      have hall : ∀ g, Written (es' ++ .pass l i :: .test l i :: es) g ↔ g ∈ fields := by
        intro g
        rw [written_append, written_pass, written_test, hes']
        exact ⟨fun h => h.elim id (honly g), Or.inl⟩
      refine traces_bind_get (traces_bind_load fun u => traces_ite (fun _ => ?_) fun _ => ?_)
      · exact traces_pure fun g => by rw [← hall g]; exact written_load
      · refine traces_bind_sleep (traces_pure ⟨countdown_sub_one hn hi, ?_, ?_⟩)
        · intro g hg
          exact (hall g).mp (written_load.mp (written_sleep.mp hg))
        · intro _ g hg
          exact written_sleep.mpr (written_load.mpr ((hall g).mpr hg))
    · rintro es ⟨honly, hall⟩ g
      rw [written_test]
      exact ⟨honly g, hall h0 g⟩
  · intro _ es hes
    refine traces_bind_get (traces_bind_load fun u => traces_pure ⟨fun g => ?_, u, es, rfl, ?_⟩)
    · exact written_load.trans (hes g)
    · exact decide_eq_true_iff

theorem Staged.read {fields : List Field} {f : Field} {v : Integer} {es : List (Event tb3)}
    (h : Staged fields f v true es) : .load f v ∈ es := by
  obtain ⟨u, older, rfl, hu⟩ := h.last
  rw [hu.mp rfl]
  exact List.mem_cons_self

theorem rp_traces (hfuel : 2000 < env.fuel) :
    Traces env names CNHI.rp (Staged Stage.rp.fields .R_20 (names .R020)) :=
  stage_traces (n := 10) (by decide) (by decide) (by omega) block_traces

theorem upsb_traces (hfuel : 2000 < env.fuel) :
    Traces env names CNHI.upsb (Staged Stage.upsb.fields .UP19 (names .R119)) :=
  stage_traces (n := 10) (by decide) (by decide) (by omega) block_traces

theorem dsb_traces (hfuel : 2000 < env.fuel) :
    Traces env names CNHI.dsb (Staged Stage.dsb.fields .DP19 (names .R219)) := by
  refine stage_traces (n := 10) (by decide) (by decide) (by omega) ?_
  refine block_bind fun es hes => block_bind fun es' hes' => block_traces.imp fun _ es'' hes'' g => ?_
  rw [written_append, written_append, hes, hes', hes'']
  simp only [Stage.fields, List.mem_append]
  tauto

theorem nhi_traces (hfuel : 2000 < env.fuel) :
    Traces env names CNHI.nhi (Staged Stage.nhi.fields .NH10 (names .RH10)) :=
  stage_traces (n := 100) (by decide) (by decide) (by omega) block_traces

/-! ### `CNHI` -/

/-- A trace that wrote the stages `pre`, each when it might. -/
structure Progress (names : Name → Integer) (pre : List Stage) (es : List (Event tb3)) : Prop where
  guarded : InOrder (Guarded names) es
  written : ∀ f, Written es f ↔ ∃ st ∈ pre, f ∈ st.fields

section

variable {pre : List Stage} {es es' : List (Event tb3)}

theorem Progress.stage {st : Stage} {f : Field} {v : Integer} {b : Bool}
    (h : Progress names pre es) (hst : Verified names st es) (h' : Staged st.fields f v b es') :
    Progress names (pre ++ [st]) (es' ++ es) where
  guarded := guarded_segment h.guarded hst fun g hg => (h'.written g).mp hg
  written g := by
    rw [written_append, h.written, h'.written, or_comm]
    simp only [List.mem_append, List.mem_singleton, or_and_right, exists_or, exists_eq_left]

theorem Progress.wait {l : Loop} {check : List Field} {v : Integer}
    (h : Progress names pre es) (h' : Waited l check v es') : Progress names pre (es' ++ es) where
  guarded := guarded_quiet h.guarded h'.not_written
  written g := by
    rw [written_append, h.written]
    exact or_iff_right (h'.not_written g)

end

/-- The result and the trace of `CNHI`: the stages are written in order, all of them when it
returns one. -/
structure Downstream (names : Name → Integer) (v : Integer) (es : List (Event tb3)) : Prop where
  guarded : InOrder (Guarded names) es
  result : v = 1 ∧ (∃ older, es = .load .NH10 (names .RH10) :: older) ∧
      (∀ f, Written es f ↔ ∃ st ∈ Stage.all, f ∈ st.fields) ∨
    v = 0 ∧ ∃ pre, pre <+: Stage.all ∧ pre ≠ [] ∧ ∀ f, Written es f ↔ ∃ st ∈ pre, f ∈ st.fields

theorem Progress.failed {pre : List Stage} {es : List (Event tb3)} (h : Progress names pre es)
    (hpre : pre <+: Stage.all) (hne : pre ≠ []) : Downstream names 0 es :=
  ⟨h.guarded, .inr ⟨rfl, pre, hpre, hne, h.written⟩⟩

section

variable {es es₁ es₂ : List (Event tb3)}

theorem verified_upsb (h : Staged Stage.rp.fields .R_20 (names .R020) true es) :
    Verified names .upsb es := h.read

theorem Verified.dsb (h : Verified names .upsb es)
    (h₁ : Staged Stage.upsb.fields .UP19 (names .R119) true es₁)
    (h₂ : LinkSeen .WTLT ULTC.fields es₂) : Verified names .dsb (es₂ ++ (es₁ ++ es)) := by
  refine ⟨?_, ?_, h₂.append_left⟩
  · exact List.mem_append_right es₂ (List.mem_append_right es₁ h)
  · exact List.mem_append_right es₂ (List.mem_append_left es h₁.read)

theorem Verified.nhi (h : Verified names .dsb es)
    (h₁ : Staged Stage.dsb.fields .DP19 (names .R219) true es₁)
    (h₂ : LinkSeen .WTDL DLTC.fields es₂) : Verified names .nhi (es₂ ++ (es₁ ++ es)) := by
  have hold : Verified names .dsb (es₂ ++ (es₁ ++ es)) := h.append.append
  obtain ⟨hrp, hup, hl⟩ := hold
  exact ⟨hrp, hup, hl, List.mem_append_right es₂ (List.mem_append_left es h₁.read),
    h₂.append_left⟩

theorem Waited.seen {l : Loop} {check : List Field} {v : Integer} (h : Waited l check v es)
    (hv : ¬ v ≠ 1) : LinkSeen l check es := by
  rcases h.result with ⟨-, hl, -⟩ | ⟨rfl, -⟩
  · exact hl
  · exact absurd (by decide) hv

end

theorem CNHI_traces (hfuel : 2000 < env.fuel) :
    Traces env names CNHI (Downstream names) := by
  have hstart : Progress names [] [] :=
    ⟨InOrder.of_forall fun _ he => absurd he List.not_mem_nil, fun f => by simp [Written]⟩
  unfold CNHI
  refine traces_bind (rp_traces hfuel) fun b es₁ h₁ => ?_
  have hopen : Verified names .rp [] := trivial
  have p₁ := hstart.stage hopen h₁
  rw [List.append_nil] at p₁
  cases b with
  | false => exact traces_pure (p₁.failed (by decide) (by decide))
  | true =>
  have v₁ := verified_upsb h₁
  refine traces_bind_append (upsb_traces hfuel) fun b es₂ h₂ => ?_
  have p₂ := p₁.stage v₁ h₂
  cases b with
  | false => exact traces_pure (p₂.failed (by decide) (by decide))
  | true =>
  refine traces_bind_append (WTLT_traces hfuel) fun v es₃ h₃ => ?_
  have p₃ := p₂.wait h₃
  refine traces_ite (fun _ => traces_pure (p₃.failed (by decide) (by decide))) fun hv => ?_
  have v₃ := v₁.dsb h₂ (h₃.seen hv)
  refine traces_bind_append (dsb_traces hfuel) fun b es₄ h₄ => ?_
  have p₄ := p₃.stage v₃ h₄
  cases b with
  | false => exact traces_pure (p₄.failed (by decide) (by decide))
  | true =>
  refine traces_bind_append (WTDL_traces hfuel) fun v' es₅ h₅ => ?_
  have p₅ := p₄.wait h₅
  refine traces_ite (fun _ => traces_pure (p₅.failed (by decide) (by decide))) fun hv' => ?_
  have v₅ := v₃.nhi h₄ (h₅.seen hv')
  refine traces_bind_append (nhi_traces hfuel) fun b es₆ h₆ => ?_
  have p₆ := p₅.stage v₅ h₆
  cases b with
  | false => exact traces_pure (p₆.failed (by decide) (by decide))
  | true =>
    obtain ⟨u, older, rfl, hu⟩ := h₆.last
    rw [← hu.mp rfl] at p₆ ⊢
    exact traces_pure ⟨p₆.guarded, .inl ⟨rfl, ⟨_, rfl⟩, p₆.written⟩⟩

/-- The registers that are read from the upstream port. -/
def upstream : List Field :=
  [.UPVD, .UP04, .UP18, .UP19, .UP1A, .UP1C, .UP20, .UP24, .UP28, .UP2C, .UPLT, .T2PR, .P2TR]

/-- Behind an upstream port that reads as all ones nothing is written. -/
theorem Downstream.of_all_ones {v : Integer} {es : List (Event tb3)} (h : Downstream names v es)
    (hones : ∀ f ∈ upstream, ∀ u, .load f u ∈ es → u = (BitVec.allOnes f.width).setWidth 64) :
    v = 0 ∧ ∀ f, Written es f → f ∉ Stage.dsb.fields ∧ f ∉ Stage.nhi.fields := by
  have hlink {older newer : List (Event tb3)} (heq : es = newer ++ older)
      (hl : LinkSeen .WTLT ULTC.fields older) : False := by
    -- the poll read `UPLT` as zero
    obtain ⟨newer', older', i, vd, -, rfl⟩ := hl
    have hmem : (.load .UPLT 0 : Event tb3) ∈ es := by
      rw [heq]
      simp [ULTC.fields]
    exact absurd (hones .UPLT (by decide) 0 hmem) (by decide)
  have hnone : ∀ f, Written es f → ∀ st : Stage, f ∈ st.fields → st ≠ .dsb ∧ st ≠ .nhi := by
    rintro f ⟨u, hu⟩ st hf
    obtain ⟨newer, older, heq⟩ := List.append_of_mem hu
    have hv := h.guarded newer _ older heq st f u rfl hf
    have heq' : es = (newer ++ [.store f u]) ++ older := by rw [heq, List.append_cons]
    constructor
    · rintro rfl
      exact hlink heq' hv.2.2
    · rintro rfl
      exact hlink heq' hv.2.2.1
  constructor
  · rcases h.result with ⟨-, -, hall⟩ | ⟨hv, -⟩
    · have hmem : (Field.DP04) ∈ Stage.dsb.fields := by decide
      have hw : Written es .DP04 := (hall .DP04).mpr ⟨.dsb, by decide, hmem⟩
      exact absurd rfl (hnone _ hw .dsb hmem).1
    · exact hv
  · intro f hf
    exact ⟨fun hm => (hnone f hf .dsb hm).1 rfl, fun hm => (hnone f hf .nhi hm).2 rfl⟩

/-- **`CNHI` programs strictly downstream**, whatever the hardware answers: every register is
written after its stage was verified, one is returned only right after a read of `NH10` as `RH10`,
and a failed call has written a prefix of the stages, nothing behind an upstream port that reads as
all ones. -/
theorem CNHI_downstream (hw : Hardware tb3 σ) (fuel : ℕ) (s : State tb3 σ) :
    ∃ v w', CNHI ⟨hw, 2001 + fuel⟩ s.world = (some v, w') ∧ Downstream s.names v w'.events ∧
      ((∀ f ∈ upstream, ∀ u, .load f u ∈ w'.events →
          u = (BitVec.allOnes f.width).setWidth 64) →
        v = 0 ∧ ∀ f, Written w'.events f → f ∉ Stage.dsb.fields ∧ f ∉ Stage.nhi.fields) := by
  have hfuel : 2000 < (⟨hw, 2001 + fuel⟩ : Env tb3 σ).fuel := by
    show 2000 < 2001 + fuel
    omega
  obtain ⟨v, w', es, hr, -, hes, hd⟩ := (CNHI_traces hfuel).run s.world rfl
  rw [State.world_events, List.append_nil] at hes
  subst hes
  exact ⟨v, w', hr, hd, hd.of_all_ones⟩

end TB3.RP01
