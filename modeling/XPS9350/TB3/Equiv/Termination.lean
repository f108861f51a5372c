import XPS9350.Aml.Clock
import XPS9350.TB3.Equiv.Footprint

/-!
# No call hangs

`run_ends`: against any clock, and whatever the registers read, every call ends with no more passes
through each `While` than `Loop.passes`, unless the `Timer` wraps around.  The loops are of two
kinds: those with a counter, whose value and the number of passes have a constant sum, and the
waits until a deadline (`waitUntil_timely`), where every pass sleeps for 10 ms of a second.
-/

namespace TB3

open Aml Aml.Prog

variable {σ : Type} {env : Env tb3 σ} {C : Clock env.hw}

/-- The number of passes each `While` makes at most. -/
def Loop.passes : Loop → Nat
  | .TBTC => 100
  | .PCDA _ => 101
  | .ICMD => 1000
  | .CNHIrp | .CNHIup | .CNHIdsb => 10
  | .CNHInhi => 100
  | .WTDL | .WTLT => 2000
  | .PCEDgen1train | .PCEDgen1present | .PCEDtrain | .PCEDpresent | .PCEDgen3 => 101
  | .XHC2train | .XHC2present => 101
  | .CIOW | .CIOR => 10000
  | .CRMW => 5
  | .UTLK | .UTLKtrain | .UTLKpresent | .OSUP => 0

/-- The passes of each `While` and one more test, except where the body leaves the loop at the end
of its last pass. -/
def limits : Limits tb3 where
  passes := Loop.passes
  tests
    | .TBTC => 100
    | .ICMD => 1000
    | l => l.passes + 1

/-! ### Waits until a deadline -/

/-- A wait whose deadline is at most a second away. -/
theorem waitUntil_timely {l : Loop} {d : Integer} {test : Method σ Bool} {t : Nat}
    (hfuel : 101 < env.fuel) (hp : limits.passes l = 101) (ht : limits.tests l = 102)
    (hd : d.toNat ≤ t + second.toNat) (htest : C.Ends limits test) :
    C.Timely limits t (waitUntil l d test) fun _ _ => True := by
  have hsecond : second.toNat = 10000000 := rfl
  -- every pass has put the time forward by 10 ms
  refine timely_whileLoop (fun i _ u => t + 100000 * i ≤ u ∧ i ≤ 101) (by simp) ?_ ?_
  · rintro i b u ⟨-, hi⟩
    omega
  · rintro i b u hu ⟨htime, hi⟩
    refine timely_bind (Q := fun v u => v.toNat = u) (timely_timer fun _ _ => rfl) ?_
    rintro v _ hv rfl
    refine timely_pure ?_
    by_cases hvd : v ≤ d
    · rw [if_pos (decide_eq_true hvd)]
      have hvd : v.toNat ≤ d.toNat := hvd
      refine ⟨by omega, timely_bind (htest _) fun c u' hu' _ => ?_⟩
      refine timely_ite (fun _ => timely_pure trivial) fun _ => ?_
      refine timely_bind (Q := fun _ u'' => u'' = u' + 100000) (timely_sleep rfl) ?_
      rintro _ _ _ rfl
      exact timely_pure ⟨by omega, by omega⟩
    · rw [if_neg (by simpa using hvd)]
      trivial

theorem toNat_deadline (v : Integer) : (v + second).toNat ≤ v.toNat + second.toNat := by
  rw [BitVec.toNat_add]
  exact Nat.mod_le _ _

/-- A wait for at most a second from now. -/
theorem ends_wait {α : Type} {l : Loop} {test : Method σ Bool} {k : Bool → Method σ α}
    (hfuel : 101 < env.fuel) (hp : limits.passes l = 101) (ht : limits.tests l = 102)
    (htest : C.Ends limits test) (hk : ∀ b, C.Ends limits (k b)) :
    C.Ends limits (timer >>= fun now => waitUntil l (now + second) test >>= k) := by
  intro t
  refine timely_bind (Q := fun v u => v.toNat = u) (timely_timer fun _ _ => rfl) ?_
  rintro v _ _ rfl
  exact timely_bind (waitUntil_timely hfuel hp ht (toNat_deadline v) htest) fun b u _ _ => hk b u

/-! ### Methods without loops -/

theorem trained_ends (p : Port) : C.Ends limits (trained p) := by
  unfold trained
  grind

theorem present_ends (s : Scope) : C.Ends limits (present s) := by
  unfold present
  grind

theorem linkDown_ends (p : Port) : C.Ends limits (linkDown p) := by
  unfold linkDown
  grind

theorem UPSB.trainedPresent_ends : C.Ends limits UPSB.PCED.trainedPresent := by
  unfold PCED.trainedPresent
  grind

theorem POFF_ends (p : Port) : C.Ends limits (POFF p) := by
  cases p with
  | RP01 => exact ends_bind ends_get fun _ => ends_bind ends_get fun _ => ends_pure
  | DSB0 => exact ends_bind ends_get fun _ => ends_pure
  | DSB2 => exact ends_bind ends_get fun _ => ends_pure

theorem PCEU_ends (p : Port) : C.Ends limits (PCEU p) := by
  unfold PCEU
  grind

/-! ### Loops with a deadline -/

theorem PCDA_ends (p : Port) (hfuel : 101 < env.fuel) : C.Ends limits (PCDA p) := by
  unfold PCDA
  rw [RP01.UGIO_eq]
  refine ends_bind (POFF_ends p) fun off => ?_
  split_ifs
  · refine ends_seq ends_set (ends_seq ends_store (ends_seq ends_store ?_))
    refine ends_wait hfuel rfl rfl (linkDown_ends p) fun _ => ?_
    grind
  · exact ends_set

namespace UPSB

variable {t : Nat} {Local5 : Integer}

theorem gen1_timely {Local0 Local1 : Integer} (hfuel : 101 < env.fuel)
    (hd : Local5.toNat ≤ t + second.toNat) :
    C.Timely limits t (PCED.gen1 Local0 Local1 Local5) fun _ _ => True := by
  have waits {u : Nat} (hu : t ≤ u) : C.Timely limits u (do
      let _ ← waitUntil .PCEDgen1train Local5 (trained .RP01)
      sleep 0x78
      let _ ← waitUntil .PCEDgen1present Local5 (present .UPSB)
      store (.TSPD .RP01) 0x03
      store .LRTN 1) fun _ _ => True := by
    refine timely_bind (waitUntil_timely hfuel rfl rfl (by omega) (trained_ends .RP01)) ?_
    intro _ u1 h1 _
    refine timely_bind (ends_sleep u1) fun _ u2 h2 _ => ?_
    refine timely_bind (waitUntil_timely hfuel rfl rfl (by omega) (present_ends .UPSB)) ?_
    exact fun _ u3 _ _ => ends_seq ends_store ends_store u3
  unfold PCED.gen1
  refine timely_bind (ends_store t) fun _ u hu _ => timely_ite (fun _ => waits hu) fun _ => ?_
  refine timely_ite (fun _ => ?_) fun _ => waits hu
  exact timely_bind (ends_store u) fun _ v hv _ => waits (Nat.le_trans hu hv)

theorem restore_timely {Local0 Local1 : Integer} (hfuel : 101 < env.fuel)
    (hd : Local5.toNat ≤ t + second.toNat) :
    C.Timely limits t (PCED.restore Local0 Local1 Local5) fun d u =>
      d.toNat ≤ u + second.toNat := by
  have train : ∀ u, C.Timely limits u (do
      let Local5 := (← timer) + second
      let _ ← waitUntil .PCEDtrain Local5 (trained .RP01)
      sleep 0xFA
      pure Local5) fun d u => d.toNat ≤ u + second.toNat := by
    intro u
    refine timely_bind (Q := fun v u => v.toNat = u) (timely_timer fun _ _ => rfl) ?_
    rintro v _ _ rfl
    have hd := toNat_deadline v
    refine timely_bind (waitUntil_timely hfuel rfl rfl hd (trained_ends .RP01)) ?_
    intro _ u1 h1 _
    exact timely_bind (ends_sleep u1) fun _ u2 h2 _ => timely_pure (by omega)
  unfold PCED.restore
  refine timely_bind (ends_get t) fun _ u hu _ => timely_ite (fun _ => ?_) fun _ => ?_
  · refine timely_bind (ends_sleep u) fun _ v hv _ => timely_ite (fun _ => ?_) fun _ => train v
    exact timely_bind (gen1_timely hfuel (by omega)) fun _ v' _ _ => train v'
  · exact timely_pure (by omega)

theorem retrain_ends (hfuel : 101 < env.fuel) : C.Ends limits PCED.retrain := by
  have wait : C.Ends limits (do
      store .LRTN 1
      let Local2 := (← timer) + second
      if ← waitUntil .PCEDgen3 Local2 PCED.trainedPresent then
        Prog.set (.PCIA .RP01) 1) :=
    ends_seq ends_store (ends_wait hfuel rfl rfl trainedPresent_ends (by grind))
  unfold PCED.retrain
  refine ends_bind ends_load fun _ => ?_
  split_ifs <;> grind

theorem gen3_ends (hfuel : 101 < env.fuel) : C.Ends limits PCED.gen3 := by
  unfold PCED.gen3
  grind [retrain_ends]

theorem PCED_ends (hfuel : 101 < env.fuel) : C.Ends limits PCED := by
  have disable : C.Ends limits (PCED.disable 0) := by
    unfold PCED.disable
    grind
  unfold PCED
  simp only [RP01.UGIO_eq, pure_bind, ne_eq, not_true_eq_false, ↓reduceIte]
  refine ends_seq ends_set (ends_bind disable fun _ => ?_)
  intro t
  refine timely_bind (Q := fun v u => v.toNat = u) (timely_timer fun _ _ => rfl) ?_
  rintro v _ _ rfl
  refine timely_bind (restore_timely hfuel (toNat_deadline v)) fun d u1 _ hd => ?_
  refine timely_bind (ends_set u1) fun _ u2 h2 _ => ?_
  refine timely_bind (waitUntil_timely hfuel rfl rfl (by omega) (present_ends .UPSB)) ?_
  exact fun _ u3 _ _ => ends_seq (gen3_ends hfuel) ends_set u3

end UPSB

namespace XHC2

theorem restore_timely {t : Nat} {Local5 : Integer} (hfuel : 101 < env.fuel)
    (hd : Local5.toNat ≤ t + second.toNat) :
    C.Timely limits t (PCED.restore Local5) fun d u => d.toNat ≤ u + second.toNat := by
  unfold PCED.restore
  refine timely_bind (ends_get t) fun _ u hu _ => timely_ite (fun _ => ?_) fun _ => ?_
  · refine timely_bind (Q := fun v u => v.toNat = u) (timely_timer fun _ _ => rfl) ?_
    rintro v _ _ rfl
    have hd := toNat_deadline v
    refine timely_bind (waitUntil_timely hfuel rfl rfl hd (trained_ends .DSB2)) ?_
    intro _ u1 h1 _
    exact timely_bind (ends_sleep u1) fun _ u2 h2 _ => timely_pure (by omega)
  · exact timely_pure (by omega)

theorem PCED_ends (hfuel : 101 < env.fuel) : C.Ends limits PCED := by
  unfold PCED
  simp only [RP01.UGIO_eq, pure_bind, ne_eq, not_true_eq_false, ↓reduceIte]
  refine ends_seq ends_set fun t => ?_
  refine timely_bind (Q := fun v u => v.toNat = u) (timely_timer fun _ _ => rfl) ?_
  rintro v _ _ rfl
  refine timely_bind (restore_timely hfuel (toNat_deadline v)) fun d u1 _ hd => ?_
  refine timely_bind (ends_set u1) fun _ u2 h2 _ => ?_
  refine timely_bind (waitUntil_timely hfuel rfl rfl (by omega) (present_ends .XHC2)) ?_
  intro b u3 _ _
  have last : C.Ends limits (do
      if b then
        Prog.set (.PCIA .DSB2) 1
      Prog.set (.IIP3 .DSB2) 0) := by
    split_ifs <;> grind
  exact last u3

end XHC2

/-! ### Loops with a counter -/

namespace UPSB

theorem poll_ends {l : Loop} (hfuel : 10000 < env.fuel) (hl : l = .CIOW ∨ l = .CIOR) :
    C.Ends limits (poll l) := by
  refine ends_countdown hfuel ?_ ?_ (fun b t => timely_pure ?_) fun b t _ => ?_
  · rcases hl with rfl | rfl <;> decide
  · rcases hl with rfl | rfl <;> decide
  · simpa using fun h => by bv_omega
  · refine timely_bind (Q := fun _ _ => True) (timely_load fun _ => trivial) fun _ u _ _ => ?_
    refine timely_ite (fun _ => timely_pure (by simp)) fun _ => ?_
    exact timely_bind (Q := fun _ _ => True) (timely_stall trivial) fun _ _ _ _ => timely_pure (by simp)

theorem command_ends (Arg0 Arg1 Arg2 cmd0 : Integer) :
    C.Ends limits (command Arg0 Arg1 Arg2 cmd0) := by
  unfold command
  iterate 7 refine ends_seq ends_store ?_
  exact ends_store

theorem status_ends {l : Loop} (hfuel : 10000 < env.fuel) (hl : l = .CIOW ∨ l = .CIOR) :
    C.Ends limits (status l) := by
  unfold status
  grind [poll_ends]

theorem CIOW_ends (Arg0 Arg1 Arg2 Arg3 : Integer) (hfuel : 10000 < env.fuel) :
    C.Ends limits (CIOW Arg0 Arg1 Arg2 Arg3) := by
  unfold CIOW
  grind [status_ends, command_ends]

theorem CIOR_ends (Arg0 Arg1 Arg2 : Integer) (hfuel : 10000 < env.fuel) :
    C.Ends limits (CIOR Arg0 Arg1 Arg2) := by
  unfold CIOR
  grind [status_ends, command_ends]

theorem attempt_ends (Arg0 Arg1 Arg2 Arg3 Arg4 : Integer) (hfuel : 10000 < env.fuel) :
    C.Ends limits (CRMW.attempt Arg0 Arg1 Arg2 Arg3 Arg4) := by
  unfold CRMW.attempt
  grind [CIOR_ends, CIOW_ends]

theorem CRMW_ends (Arg0 Arg1 Arg2 Arg3 Arg4 : Integer) (hfuel : 10000 < env.fuel) :
    C.Ends limits (CRMW Arg0 Arg1 Arg2 Arg3 Arg4) := by
  unfold CRMW
  refine ends_bind ends_load fun _ => ?_
  split_ifs
  · intro t
    -- here the counter goes up
    refine timely_whileLoop (fun i b _ => b.toNat = i ∧ i ≤ 5) (by simp) ?_ ?_
    · rintro i b u ⟨-, hi⟩
      exact ⟨by omega, Nat.lt_succ_of_le hi⟩
    · rintro i b u hu ⟨rfl, hi⟩
      refine timely_pure ?_
      by_cases hb : b ≤ 4
      · rw [if_pos (decide_eq_true hb)]
        have hb : b.toNat ≤ 4 := hb
        refine ⟨Nat.lt_succ_of_le hb, timely_bind (attempt_ends _ _ _ _ _ hfuel u) ?_⟩
        intro ok u1 _ _
        refine timely_ite (fun _ => timely_pure trivial) fun _ => ?_
        refine timely_bind (ends_sleep u1) fun _ u2 _ _ => timely_pure ⟨?_, by omega⟩
        bv_omega
      · rw [if_neg (by simpa using hb)]
        trivial
  · exact ends_pure

end UPSB

namespace RP01

theorem TBTC_ends (Arg0 : Integer) (hfuel : 10000 < env.fuel) : C.Ends limits (TBTC Arg0) := by
  unfold TBTC
  refine ends_seq ends_store (ends_bind ends_load fun Local1 => ends_bind ?_ fun _ => ?_)
  · intro t
    refine timely_whileLoop (fun i x _ => x.1.toNat + i = 100 ∧ 1 ≤ x.1.toNat) (by simp) ?_ ?_
    · rintro i x u ⟨hi, hx⟩
      exact ⟨by omega, show i < 100 by omega⟩
    · rintro i ⟨Local0, Local1⟩ u hu ⟨hi, hx⟩
      refine timely_pure ?_
      by_cases h1 : Local1 &&& 1 = 0
      · rw [if_pos (decide_eq_true h1)]
        refine ⟨show i < 100 by omega, timely_ite (fun _ => timely_pure trivial) fun _ => ?_⟩
        refine timely_ite (fun _ => timely_pure trivial) fun h0 => ?_
        refine timely_bind (ends_load u) fun v u1 _ _ => ?_
        refine timely_bind (ends_sleep u1) fun _ u2 _ _ => timely_pure ?_
        have : (Local0 - 1).toNat = Local0.toNat - 1 := by bv_omega
        have : (Local0 - 1).toNat ≠ 0 := fun h => h0 (BitVec.eq_of_toNat_eq h)
        dsimp only at hi hx ⊢
        omega
      · rw [if_neg (by simpa using h1)]
        trivial
  · split_ifs <;> grind

theorem CTBT_ends (hfuel : 10000 < env.fuel) : C.Ends limits CTBT := by
  unfold CTBT
  grind [present_ends, UPSB.CRMW_ends]

theorem UPCK_ends : C.Ends limits UPCK := by
  unfold UPCK
  grind

theorem waitLink_ends {l : Loop} {check : Method σ Integer} (hfuel : 10000 < env.fuel)
    (hp : limits.passes l = 2000) (ht : limits.tests l = 2001) (hcheck : C.Ends limits check) :
    C.Ends limits (waitLink l check) := by
  have ready : C.Ends limits (linkReady check) := by
    unfold linkReady
    grind [UPCK_ends]
  have hk : (2000 : Integer).toNat = 2000 := rfl
  refine ends_countdown (by omega) (by omega) (by omega) (fun b t => timely_pure (by simp)) ?_
  intro b t _
  refine timely_bind (ready t) fun _ u _ _ => ?_
  refine timely_ite (fun _ => timely_pure (by simp)) fun _ => ?_
  exact timely_bind (ends_sleep u) fun _ _ _ _ => timely_pure (by simp)

theorem WTLT_ends (hfuel : 10000 < env.fuel) : C.Ends limits WTLT :=
  waitLink_ends hfuel rfl rfl (by unfold ULTC; grind)

theorem WTDL_ends (hfuel : 10000 < env.fuel) : C.Ends limits WTDL :=
  waitLink_ends hfuel rfl rfl (by unfold DLTC; grind)

theorem program_ends (regs : List (Field × Name)) : C.Ends limits (program regs) := by
  induction regs with
  | nil => exact ends_pure
  | cons x regs ih =>
    unfold program
    grind

theorem save_ends (regs : List (Field × Name)) : C.Ends limits (save regs) := by
  induction regs with
  | nil => exact ends_pure
  | cons x regs ih =>
    unfold save
    grind

theorem stage_ends {l : Loop} {tries : Integer} {block : Method σ Unit} {f : Field} {n : Name}
    (hfuel : tries.toNat < env.fuel) (hp : tries.toNat ≤ limits.passes l)
    (ht : tries.toNat < limits.tests l) (hblock : C.Ends limits block) :
    C.Ends limits (stage l tries block f n) := by
  unfold stage
  refine ends_seq ?_ (by grind)
  refine ends_countdown hfuel hp ht (fun b t => timely_pure (by simp)) fun b t _ => ?_
  refine timely_bind (hblock t) fun _ u1 _ _ => timely_bind (ends_get u1) fun _ u2 _ _ => ?_
  refine timely_bind (ends_load u2) fun _ u3 _ _ => ?_
  refine timely_ite (fun _ => timely_pure (by simp)) fun _ => ?_
  exact timely_bind (ends_sleep u3) fun _ _ _ _ => timely_pure (by simp)

theorem CNHI_ends (hfuel : 10000 < env.fuel) : C.Ends limits CNHI := by
  have h10 : (10 : Integer).toNat < env.fuel := Nat.lt_trans (by decide) hfuel
  have h100 : (100 : Integer).toNat < env.fuel := Nat.lt_trans (by decide) hfuel
  have rp : C.Ends limits CNHI.rp :=
    stage_ends h10 (by decide) (by decide) (ends_seq (program_ends rpRegs) ends_store)
  have upsb : C.Ends limits CNHI.upsb :=
    stage_ends h10 (by decide) (by decide) (ends_seq (program_ends upsbRegs) ends_store)
  have dsb : C.Ends limits CNHI.dsb := by
    refine stage_ends h10 (by decide) (by decide) ?_
    grind [program_ends]
  have nhi : C.Ends limits CNHI.nhi :=
    stage_ends h100 (by decide) (by decide) (ends_seq (program_ends nhiRegs) ends_store)
  unfold CNHI
  grind [WTLT_ends, WTDL_ends]

theorem ready_ends (hfuel : 10000 < env.fuel) : C.Ends limits ICMD.ready := by
  intro t
  refine timely_whileLoop (fun i b _ => b.toNat + i = 1000 ∧ 1 ≤ b.toNat) (by simp) ?_ ?_
  · rintro i b u ⟨hi, hb⟩
    exact ⟨by omega, show i < 1000 by omega⟩
  · rintro i b u hu ⟨hi, hb⟩
    refine timely_bind (ends_load u) fun v u1 _ _ => timely_pure ?_
    by_cases hv : v &&& 0x80000000 = 0
    · rw [if_pos (decide_eq_true hv)]
      refine ⟨show i < 1000 by omega, timely_ite (fun _ => timely_pure trivial) fun h0 => ?_⟩
      refine timely_bind (ends_sleep u1) fun _ u2 _ _ => timely_pure ?_
      have : (b - 1).toNat = b.toNat - 1 := by bv_omega
      have : (b - 1).toNat ≠ 0 := fun h => h0 (BitVec.eq_of_toNat_eq h)
      dsimp only
      omega
    · rw [if_neg (by simpa using hv)]
      trivial

theorem ICMD_ends (hfuel : 10000 < env.fuel) : C.Ends limits ICMD := by
  have reset : C.Ends limits ICMD.reset := by
    unfold ICMD.reset
    grind [ready_ends]
  have configured : C.Ends limits ICMD.configured := by
    unfold ICMD.configured
    grind [WTLT_ends]
  unfold ICMD
  grind [CNHI_ends]

theorem _INI_ends (hfuel : 10000 < env.fuel) : C.Ends limits _INI := by
  unfold _INI
  grind [save_ends, ICMD_ends]

end RP01

/-! ### The calls -/

theorem run_ends (c : Call) (hfuel : 10000 < env.fuel) : C.Ends limits c.run := by
  have hfuel' : 101 < env.fuel := Nat.lt_trans (by decide) hfuel
  have CRMW (Arg0 Arg1 Arg2 Arg3 Arg4 : Integer) :=
    UPSB.CRMW_ends (C := C) Arg0 Arg1 Arg2 Arg3 Arg4 hfuel
  cases c with
  | INI => exact RP01._INI_ends hfuel
  | PS0 s =>
    cases s with
    | RP01 => exact PCEU_ends .RP01
    | DSB0 => exact PCEU_ends .DSB0
    | DSB2 => exact PCEU_ends .DSB2
    | UPSB =>
      refine ends_seq (UPSB.PCED_ends hfuel') ?_
      exact ends_bind (CRMW _ _ _ _ _) fun _ => ends_bind (CRMW _ _ _ _ _) fun _ => ends_pure
    | NHI0 => exact ends_seq (UPSB.PCED_ends hfuel') (RP01.CTBT_ends hfuel)
    | XHC2 => exact ends_seq ends_sleep (XHC2.PCED_ends hfuel')
  | PS3 s =>
    cases s with
    | RP01 =>
      refine ends_bind (POFF_ends .RP01) fun _ => ?_
      split_ifs
      · exact ends_seq (RP01.CTBT_ends hfuel) (PCDA_ends .RP01 hfuel')
      · exact PCDA_ends .RP01 hfuel'
    | DSB0 => exact PCDA_ends .DSB0 hfuel'
    | DSB2 => exact PCDA_ends .DSB2 hfuel'
    | UPSB =>
      have TBTC := RP01.TBTC_ends (C := C) 0x05 hfuel
      change C.Ends limits UPSB._PS3
      unfold UPSB._PS3
      simp only [RP01.UTLK_eq]
      grind [RP01.UPCK_ends]
    | NHI0 => exact ends_pure
    | XHC2 => exact ends_sleep

/-! ### The reads of `TBTC` -/

/-- How often the field `f` is read in a log. -/
def reads (f : Field) (log : List (Entry tb3 σ)) : Nat :=
  log.countP fun x => match x.event with
    | .load g _ => g = f
    | _ => false

@[simp] theorem reads_load {f g : Field} {s : State tb3 σ} {v : Integer}
    {log : List (Entry tb3 σ)} :
    reads f (⟨s, .load g v⟩ :: log) = reads f log + if g = f then 1 else 0 := by
  simp [reads, List.countP_cons]

@[simp] theorem reads_sleep {f : Field} {s : State tb3 σ} {v : Integer}
    {log : List (Entry tb3 σ)} : reads f (⟨s, .sleep v⟩ :: log) = reads f log := by
  simp [reads]

@[simp] theorem reads_test {f : Field} {s : State tb3 σ} {l : Loop} {i : Nat}
    {log : List (Entry tb3 σ)} : reads f (⟨s, .test l i⟩ :: log) = reads f log := by
  simp [reads]

@[simp] theorem reads_pass {f : Field} {s : State tb3 σ} {l : Loop} {i : Nat}
    {log : List (Entry tb3 σ)} : reads f (⟨s, .pass l i⟩ :: log) = reads f log := by
  simp [reads]

/-- **`TBTC` reads its mailbox at most 100 times.** -/
theorem RP01.TBTC_reads (Arg0 : Integer) (w : World tb3 σ) :
    reads .T2PR (TBTC Arg0 env w).2.log ≤ reads .T2PR w.log + 100 := by
  suffices wp env (fun w' => reads .T2PR w'.log ≤ reads .T2PR w.log + 100) (TBTC Arg0)
      (fun _ w' => reads .T2PR w'.log ≤ reads .T2PR w.log + 100) w by
    have h := wp_iff.mp this
    rcases hr : TBTC Arg0 env w with ⟨_ | _, w'⟩
    · exact h.2 w' hr
    · exact h.1 _ w' hr
  have last : ∀ (Return : Option Integer) (w' : World tb3 σ),
      reads .T2PR w'.log ≤ reads .T2PR w.log + 100 →
      wp env (fun w' => reads .T2PR w'.log ≤ reads .T2PR w.log + 100)
        (do
          if Return = none then
            store .P2TR 0
          pure Return)
        (fun _ w' => reads .T2PR w'.log ≤ reads .T2PR w.log + 100) w' := by
    intro Return w' h
    split_ifs
    · exact wp_bind.mpr (wp_store.mpr (wp_pure.mpr h))
    · exact wp_pure.mpr h
  unfold TBTC
  rw [wp_bind, wp_store, wp_bind, wp_load, wp_bind]
  -- one read before the loop and one in every pass but the last
  refine wp_whileLoop (fun i x w' => x.1.toNat + i = 100 ∧ 1 ≤ x.1.toNat ∧
    reads .T2PR w'.log ≤ reads .T2PR w.log + 1 + i) ?_ ?_ ?_
  · refine ⟨rfl, show 1 ≤ (100 : Integer).toNat by decide, ?_⟩
    rw [World.perform_log, reads_load, if_pos rfl]
    exact Nat.le_refl _
  · rintro i ⟨Local0, Local1⟩ w' - ⟨hi, h1, hreads⟩
    refine wp_pure.mpr ?_
    dsimp only at hi h1
    have hlast : reads .T2PR w'.log ≤ reads .T2PR w.log + 100 := by omega
    by_cases hbit : Local1 &&& 1 = 0
    · rw [if_pos (decide_eq_true hbit)]
      refine wp_ite_of (fun _ => wp_pure.mpr (last _ _ hlast)) fun _ => ?_
      refine wp_ite_of (fun _ => wp_pure.mpr (last _ _ hlast)) fun h0 => ?_
      rw [wp_bind, wp_load, wp_bind, wp_sleep, wp_pure]
      have : (Local0 - 1).toNat = Local0.toNat - 1 := by bv_omega
      have : (Local0 - 1).toNat ≠ 0 := fun h => h0 (BitVec.eq_of_toNat_eq h)
      refine ⟨by dsimp only; omega, by dsimp only; omega, ?_⟩
      simp only [World.perform_log, reads_sleep, reads_load, reads_pass, reads_test, ↓reduceIte]
      omega
    · rw [if_neg (by simpa using hbit)]
      exact last _ _ hlast
  · rintro ⟨Local0, Local1⟩ w' ⟨hi, h1, hreads⟩
    dsimp only at hi h1
    omega

/-- **No hardware behaviour can hang a power transition**: with a clock that does not wrap around,
every call ends, with no more passes and tests of any `While` than its limit, and `TBTC` reads
its mailbox at most 100 times. -/
theorem no_call_hangs (C : Clock env.hw) (hfuel : 10000 < env.fuel) (c : Call) (w : World tb3 σ)
    (hclock : C.now (c.run env w).2.hw < 2 ^ 64) :
    (∃ w' new, c.run env w = (some (), w') ∧ w'.log = new ++ w.log ∧
      ∀ x ∈ new, limits.Allows x.event) ∧
    ∀ Arg0 w, reads .T2PR (RP01.TBTC Arg0 env w).2.log ≤ reads .T2PR w.log + 100 := by
  obtain ⟨_, w', hr, hp⟩ := (run_ends c hfuel).run hclock
  obtain ⟨new, hlog, hnew⟩ := hp.log_append
  refine ⟨⟨w', new, hr, hlog, fun x hx => ?_⟩, RP01.TBTC_reads⟩
  obtain ⟨_, _, hx⟩ := hnew x hx
  exact hx

theorem no_call_hangs_zeros :
    (∃ w' new, (Call.PS0 .UPSB).run ⟨zeros tb3, 10001⟩ (loaded 0).world = (some (), w') ∧
      w'.log = new ++ (loaded 0).world.log ∧ ∀ x ∈ new, limits.Allows x.event) ∧
    ∀ Arg0 w, reads .T2PR (RP01.TBTC Arg0 ⟨zeros tb3, 10001⟩ w).2.log ≤ reads .T2PR w.log + 100 :=
  no_call_hangs (zerosClock tb3) (by decide) (.PS0 .UPSB) (loaded 0).world (by decide +kernel)

end TB3
