import XPS9350.Aml.Trace
import XPS9350.TB3.Equiv.Footprint

/-!
# The verdict of `CRMW`

`CRMW_verdict`: whatever the hardware answers, `CRMW` makes at most five attempts, each a read, a
write of the merged word and a read back, stops after the first that succeeds, and returns zero
exactly when one did.
-/

namespace TB3.UPSB

open Aml Aml.Prog

variable {σ : Type} {env : Env tb3 σ} {names : Name → Integer}

/-! ### Transactions -/

/-- `k` polls of the loop `l` that all read `PROG` as set. -/
inductive Polls (l : Loop) : ℕ → List (Event tb3) → Prop
  | zero : Polls l 0 []
  | succ {k : ℕ} {x : Integer} {es : List (Event tb3)} (h : Polls l k es) (hx : x ≠ 0) :
      Polls l (k + 1) (.stall 0x19 :: .load .PROG x :: .pass l k :: .test l k :: es)

/-- The wait for a command ends with `PROG` read as zero within 10000 polls, and `TMOT` then reads
as zero. -/
def Completed (l : Loop) (es : List (Event tb3)) : Prop :=
  ∃ k < 10000, ∃ es', Polls l k es' ∧
    es = .load .TMOT 0 :: .load .PROG 0 :: .pass l k :: .test l k :: es'

/-- The stores of a list on the log. -/
def issued (xs : List (Field × Integer)) : List (Event tb3) :=
  (xs.map fun x => .store x.1 (tb3.cut x.1 x.2)).reverse

/-- The stores of a command. -/
def commandStores (Arg0 Arg1 Arg2 cmd0 : Integer) : List (Field × Integer) :=
  [(.DWIX, Arg0), (.PORT, Arg1), (.SPCE, Arg2), (.CMD0, cmd0), (.CMD1, 0), (.CMD2, 0), (.TMOT, 0),
    (.PROG, 1)]

/-- The trace of a `CIOR` that returns the data `d`, after a command that was completed or not. -/
def Read (Arg0 Arg1 Arg2 d : Integer) (done : Bool) (es : List (Event tb3)) : Prop :=
  ∃ wait, (done = true ↔ Completed .CIOR wait) ∧
    es = .load .RDAT d :: (wait ++ (issued ((.RDAT, 0) :: commandStores Arg0 Arg1 Arg2 0) ++
      [.enter (.CIOR Arg0 Arg1 Arg2)]))

/-- The trace of a `CIOW` of the value `v`. -/
def Write (Arg0 Arg1 Arg2 v : Integer) (done : Bool) (es : List (Event tb3)) : Prop :=
  ∃ wait, (done = true ↔ Completed .CIOW wait) ∧
    es = wait ++ (issued ((.WDAT, v) :: commandStores Arg0 Arg1 Arg2 1) ++
      [.enter (.CIOW Arg0 Arg1 Arg2 v)])

theorem storeAll_traces (xs : List (Field × Integer)) :
    Traces env names (storeAll xs) fun _ es => es = issued xs := by
  induction xs with
  | nil => exact traces_pure rfl
  | cons x xs ih =>
    refine traces_bind_store (ih.imp fun _ es hes => ?_)
    rw [hes, issued, issued, List.map_cons, List.reverse_cons]

/-- The result and the trace of the wait for `PROG`. -/
theorem poll_traces {l : Loop} (hfuel : 10000 < env.fuel) :
    Traces env names (poll l) fun v es =>
      (v = 0 ∧ ∃ k < 10000, ∃ es', Polls l k es' ∧
        es = .load .PROG 0 :: .pass l k :: .test l k :: es') ∨
      v = 1 ∧ ∃ es', es = .test l 10000 :: es' := by
  have hcond : (fun Local0 : Integer => (pure (decide (0 < Local0)) : Method σ Bool)) =
      fun Local0 => pure (decide (Local0 ≠ 0)) := by
    funext b
    congr 2
    exact propext (BitVec.pos_iff_ne_zero b)
  unfold poll
  rw [hcond]
  refine traces_countdown (n := 10000) (Polls l) (by decide) hfuel .zero ?_ ?_
  · intro i es hi hes
    refine traces_bind_load fun x => traces_ite (fun h => ?_) fun h => ?_
    · subst h
      exact traces_pure (.inl ⟨rfl, i, hi, es, hes, rfl⟩)
    · refine traces_bind (traces_stall (Q := fun _ es => es = [.stall 0x19]) rfl) ?_
      rintro _ _ rfl
      exact traces_pure ⟨countdown_sub_one (by decide) hi, .succ hes h⟩
  · exact fun es _ => .inr ⟨rfl, es, rfl⟩

theorem status_traces {l : Loop} (hfuel : 10000 < env.fuel) :
    Traces env names (status l) fun v es => v = 0 ↔ Completed l es := by
  unfold status
  refine traces_bind (poll_traces hfuel) ?_
  rintro v es (⟨rfl, k, hk, es', hes', rfl⟩ | ⟨rfl, es', rfl⟩)
  · rw [if_pos rfl]
    refine traces_load fun t => ⟨?_, ?_⟩
    · rintro rfl
      exact ⟨k, hk, es', hes', rfl⟩
    · rintro ⟨k', -, es'', -, heq⟩
      obtain ⟨hload, -⟩ := List.cons.inj heq
      cases hload
      rfl
  · rw [if_neg (by decide)]
    refine traces_pure (iff_of_false (by decide) ?_)
    rintro ⟨k', -, es'', -, heq⟩
    exact absurd (List.cons.inj heq).1 nofun

theorem CIOR_traces (Arg0 Arg1 Arg2 : Integer) (hfuel : 10000 < env.fuel) :
    Traces env names (CIOR Arg0 Arg1 Arg2) fun r es =>
      Read Arg0 Arg1 Arg2 r.2 (decide (r.1 = 0)) es := by
  unfold CIOR
  rw [command_eq]
  refine traces_call (traces_bind_store (traces_bind (storeAll_traces _) ?_))
  rintro _ _ rfl
  refine traces_bind (status_traces hfuel) fun v wait hv => ?_
  refine traces_ite (fun h => ?_) fun h => ?_
  · refine traces_bind_load fun d => traces_pure ⟨wait, ?_, ?_⟩
    · rw [decide_eq_true_iff]
      exact iff_of_true rfl (hv.mp h)
    · simp [issued, commandStores]
  · refine traces_bind_load fun d => traces_pure ⟨wait, ?_, ?_⟩
    · rw [decide_eq_true_iff]
      exact iff_of_false (show ¬ (1 : Integer) = 0 by decide) (mt hv.mpr h)
    · simp [issued, commandStores]

theorem CIOW_traces (Arg0 Arg1 Arg2 Arg3 : Integer) (hfuel : 10000 < env.fuel) :
    Traces env names (CIOW Arg0 Arg1 Arg2 Arg3) fun v es =>
      Write Arg0 Arg1 Arg2 Arg3 (decide (v = 0)) es := by
  unfold CIOW
  rw [command_eq]
  refine traces_call (traces_bind_store (traces_bind (storeAll_traces _) ?_))
  rintro _ _ rfl
  refine (status_traces hfuel).imp fun v wait hv => ⟨wait, ?_, ?_⟩
  · rw [decide_eq_true_iff, hv]
  · simp [issued, commandStores]

/-! ### Attempts -/

section

variable (index port space val mask : Integer)

/-- The trace of one attempt, and whether it succeeded: the read, the write of the merged word and
the read back completed, and the word read back is `val` under the mask. -/
inductive Attempt : Bool → List (Event tb3) → Prop
  | unread {d : Integer} {es : List (Event tb3)} (h : Read index port space d false es) :
      Attempt false es
  | unwritten {d : Integer} {es es' : List (Event tb3)} (h : Read index port space d true es)
      (h' : Write index port space (d &&& ~~~mask ||| val) false es') : Attempt false (es' ++ es)
  | unchecked {d d' : Integer} {es es' es'' : List (Event tb3)}
      (h : Read index port space d true es)
      (h' : Write index port space (d &&& ~~~mask ||| val) true es')
      (h'' : Read index port space d' false es'') : Attempt false (es'' ++ (es' ++ es))
  | checked {d d' : Integer} {es es' es'' : List (Event tb3)}
      (h : Read index port space d true es)
      (h' : Write index port space (d &&& ~~~mask ||| val) true es')
      (h'' : Read index port space d' true es'') :
      Attempt (decide (d' &&& mask = val)) (es'' ++ (es' ++ es))

/-- `n` attempts that failed, each followed by a pause. -/
inductive Failures : ℕ → List (Event tb3) → Prop
  | zero : Failures 0 []
  | succ {n : ℕ} {es es' : List (Event tb3)} (h : Failures n es)
      (h' : Attempt index port space val mask false es') :
      Failures (n + 1) (.sleep 0x64 :: (es' ++ .pass .CRMW n :: .test .CRMW n :: es))

/-- The result of `CRMW` and its trace: the device is absent and nothing is accessed; or fewer than
five attempts failed, the next succeeded and was the last; or five attempts failed. -/
inductive Verdict : Integer → List (Event tb3) → Prop
  | absent : Verdict 1 [.load (.AVND .UPSB) 0xFFFFFFFF]
  | succeeded {x : Integer} {n : ℕ} {es es' : List (Event tb3)} (hx : x ≠ 0xFFFFFFFF) (hn : n < 5)
      (h : Failures index port space val mask n es)
      (h' : Attempt index port space val mask true es') :
      Verdict 0 (es' ++ .pass .CRMW n :: .test .CRMW n :: (es ++ [.load (.AVND .UPSB) x]))
  | failed {x : Integer} {es : List (Event tb3)} (hx : x ≠ 0xFFFFFFFF)
      (h : Failures index port space val mask 5 es) :
      Verdict 1 (.test .CRMW 5 :: (es ++ [.load (.AVND .UPSB) x]))

variable {index port space val mask}

theorem attempt_traces (hfuel : 10000 < env.fuel) :
    Traces env names (CRMW.attempt index port space val mask)
      (Attempt index port space val mask) := by
  unfold CRMW.attempt
  refine traces_append_nil (traces_bind_append (CIOR_traces index port space hfuel) ?_)
  intro r es h
  rw [List.append_nil]
  refine traces_ite (fun hr => ?_) fun hr => ?_
  · rw [decide_eq_true hr] at h
    refine traces_bind_append (CIOW_traces index port space _ hfuel) fun v es' h' => ?_
    refine traces_ite (fun hv => ?_) fun hv => ?_
    · rw [decide_eq_true hv] at h'
      refine traces_bind_append (CIOR_traces index port space hfuel) fun r' es'' h'' => ?_
      refine traces_ite (fun hr' => ?_) fun hr' => ?_
      · rw [decide_eq_true hr'] at h''
        exact traces_pure_append (.checked h h' h'')
      · rw [decide_eq_false hr'] at h''
        exact traces_pure_append (.unchecked h h' h'')
    · rw [decide_eq_false hv] at h'
      exact traces_pure_append (.unwritten h h')
  · rw [decide_eq_false hr] at h
    exact traces_pure (.unread h)

/-- A success needs a value within the mask. -/
theorem Attempt.within {es : List (Event tb3)}
    (h : Attempt index port space val mask true es) : val &&& ~~~mask = 0 := by
  generalize hb : true = b at h
  cases h with
  | checked h h' h'' =>
    rw [← of_decide_eq_true hb.symm, BitVec.and_assoc, BitVec.and_not_self]
    exact BitVec.and_zero
  | _ => cases hb

theorem Verdict.within {v : Integer} {es : List (Event tb3)}
    (h : Verdict index port space val mask v es) (hval : val &&& ~~~mask ≠ 0) : v ≠ 0 := by
  cases h with
  | succeeded hx hn h h' => exact absurd h'.within hval
  | _ => decide

theorem CRMW_traces (hfuel : 10000 < env.fuel) :
    Traces env names (CRMW index port space val mask)
      (Verdict index port space val mask) := by
  unfold CRMW
  refine traces_append_nil (traces_load_append fun x => traces_ite (fun hx => ?_) fun hx => ?_)
  · -- the loop local counts the failures
    have hfive : 5 < env.fuel := by omega
    refine traces_whileLoop (fun i b es => i ≤ 5 ∧ b = BitVec.ofNat 64 i ∧
      Failures index port space val mask i es) 5 hfive ⟨by decide, rfl, .zero⟩ ?_
    rintro i _ es ⟨hi, rfl, hes⟩
    refine ⟨hi, traces_pure ?_⟩
    by_cases hlast : i = 5
    · subst hlast
      rw [if_neg (by decide)]
      exact .failed hx hes
    · have hle : BitVec.ofNat 64 i ≤ (0x04 : Integer) := by
        show (BitVec.ofNat 64 i).toNat ≤ 4
        rw [BitVec.toNat_ofNat, Nat.mod_eq_of_lt (by omega)]
        omega
      rw [if_pos (decide_eq_true hle)]
      refine traces_bind (attempt_traces hfuel) fun b es' h' => traces_ite (fun hb => ?_) fun hb => ?_
      · subst hb
        have hv := Verdict.succeeded hx (show i < 5 by omega) hes h'
        rw [← List.cons_append, ← List.cons_append, ← List.append_assoc] at hv
        exact traces_pure hv
      · rw [Bool.not_eq_true] at hb
        subst hb
        have hnext : BitVec.ofNat 64 i + 1 = BitVec.ofNat 64 (i + 1) := by
          rw [BitVec.ofNat_add]
          rfl
        exact traces_bind_sleep (traces_pure ⟨by omega, hnext, .succ hes h'⟩)
  · rw [not_not.mp hx]
    exact traces_pure_append .absent

/-- **`CRMW`'s verdict is exact** under any hardware: the call ends with a result and a trace as
`Verdict` says, and never with zero for a value that has a bit outside the mask. -/
theorem CRMW_verdict (hw : Hardware tb3 σ) (fuel : ℕ) (s : State tb3 σ)
    (index port space val mask : Integer) :
    ∃ v w', CRMW index port space val mask ⟨hw, 10001 + fuel⟩ s.world = (some v, w') ∧
      Verdict index port space val mask v w'.events ∧ (val &&& ~~~mask ≠ 0 → v ≠ 0) := by
  have hfuel : 10000 < (⟨hw, 10001 + fuel⟩ : Env tb3 σ).fuel := by
    show 10000 < 10001 + fuel
    omega
  obtain ⟨v, w', es, hr, -, hes, hv⟩ := (CRMW_traces hfuel).run s.world rfl
  rw [State.world_events, List.append_nil] at hes
  subst hes
  exact ⟨v, w', hr, hv, hv.within⟩

end

end TB3.UPSB
