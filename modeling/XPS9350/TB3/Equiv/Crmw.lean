import XPS9350.Aml.Runs
import XPS9350.TB3.Router

/-!
# `CRMW` is a masked update of one register

* `command_runs`: from arbitrary old contents the eight stores of a command start exactly this
  command.
* `CIOR_runs`, `CIOW_runs`: they read and write the addressed register.
* `CRMW_refines`: `CRMW` replaces the bits under the mask, and doing it again changes nothing.
-/

namespace TB3.UPSB

open Aml Aml.Prog

/-- Exact execution on the device. -/
abbrev Steps {α : Type} (latency : ℕ → ℕ) (fuel : ℕ) (m : Method Router α) (n : Name → Integer)
    (s : Router) (a : α) (s' : Router) : Prop :=
  Runs ⟨Router.hardware latency, fuel⟩ (fun x => (x.names, x.hw)) m (n, s) a (n, s')

variable {latency : ℕ → ℕ} {fuel : ℕ} {n : Name → Integer} {s : Router} {v : Integer}

/-! ### Single stores -/

/-- A read of the command dword while no command runs. -/
theorem readCommand_of_idle (hs : PROG s.command = 0) : s.readCommand = (s.command, s) := by
  rw [Router.readCommand, hs, if_neg (by decide)]

theorem hardware_store {f : Field} {lsb : ℕ} (hf : H530 f = some (.command, lsb))
    (hs : PROG s.command = 0) (v : BitVec f.width) :
    (Router.hardware latency).store f v s = s.writeCommand latency (v.insertAt lsb s.command) := by
  rw [Router.hardware, withDwords_store hf]
  have hread : (Router.device latency).read .command s = (s.command, s) := readCommand_of_idle hs
  have hreached : (Router.device latency).reached .command f.width s = s :=
    Device.reached_eq (by rw [hread])
  rw [hreached, hread]
  rfl

/-- A store to a field of the command while no command runs. -/
theorem store_command {f : Field} {lsb : ℕ} (hf : H530 f = some (.command, lsb))
    (hlsb : lsb + f.width ≤ 30 ∨ 31 ≤ lsb) (hs : PROG s.command = 0) :
    Steps latency fuel (store f v) n s ()
      { s with command := (v.setWidth f.width).insertAt lsb s.command } := by
  refine runs_store fun x hx => ?_
  obtain ⟨rfl, rfl⟩ := Prod.mk.inj hx
  have hprog : PROG ((v.setWidth f.width).insertAt lsb x.hw.command) ≠ 1 := by
    rw [PROG_insertAt_of_disjoint hlsb, hs]
    decide
  have hafter : (Router.hardware latency).store f _ x.hw = _ :=
    hardware_store hf hs (v.setWidth f.width)
  rw [Router.writeCommand, if_neg (fun h => hprog h.2)] at hafter
  exact congrArg (Prod.mk x.names) hafter

/-- The store that starts the command. -/
theorem store_PROG (hs : PROG s.command = 0) :
    Steps latency fuel (store .PROG 1) n s ()
      (s.start latency ((1 : BitVec 1).insertAt 30 s.command)) := by
  refine runs_store fun x hx => ?_
  obtain ⟨rfl, rfl⟩ := Prod.mk.inj hx
  have hafter : (Router.hardware latency).store .PROG _ x.hw = _ :=
    hardware_store (f := .PROG) rfl hs 1
  rw [Router.writeCommand, if_pos ⟨hs, PROG_insertAt 1⟩] at hafter
  exact congrArg (Prod.mk x.names) hafter

/-! ### Starting a command -/

/-- The command dword after the stores of `UPSB.command`, before it is started. -/
def prepared (d : BitVec 32) (Arg0 Arg1 Arg2 cmd0 : Integer) : BitVec 32 :=
  (0 : BitVec 1).insertAt 31 ((0 : BitVec 1).insertAt 23 ((0 : BitVec 1).insertAt 22
    ((cmd0.setWidth 1).insertAt 21 ((Arg2.setWidth 2).insertAt 19 ((Arg1.setWidth 6).insertAt 13
      ((Arg0.setWidth 13).insertAt 0 d))))))

section Prepared

variable {d : BitVec 32} {Arg0 Arg1 Arg2 cmd0 : Integer}

theorem ofDword_prepared :
    Command.ofDword (prepared d Arg0 Arg1 Arg2 cmd0) = .ofArgs Arg0 Arg1 Arg2 cmd0 := by
  simp [prepared, Command.ofArgs]

theorem reserved_prepared : reserved (prepared d Arg0 Arg1 Arg2 cmd0) = reserved d := by
  simp (disch := omega) only [prepared, reserved_insertAt]

end Prepared

/-- **The stores of `command` start exactly this command**, whatever the dword held. -/
theorem command_runs (Arg0 Arg1 Arg2 cmd0 : Integer) (hs : PROG s.command = 0) :
    Steps latency fuel (command Arg0 Arg1 Arg2 cmd0) n s ()
      (({ s with command := prepared s.command Arg0 Arg1 Arg2 cmd0 } : Router).start latency
        ((1 : BitVec 1).insertAt 30 (prepared s.command Arg0 Arg1 Arg2 cmd0))) := by
  unfold command
  -- no store but the last one touches `PROG`, so the device stays idle until then
  have keep {len lsb : ℕ} (v : BitVec len) {d : BitVec 32} (hd : PROG d = 0)
      (h : lsb + len ≤ 30 ∨ 31 ≤ lsb) : PROG (v.insertAt lsb d) = 0 :=
    (PROG_insertAt_of_disjoint h).trans hd
  have hDWIX : PROG ((Arg0.setWidth 13).insertAt 0 s.command) = 0 := keep _ hs (by decide)
  have hPORT : PROG ((Arg1.setWidth 6).insertAt 13 _) = 0 := keep _ hDWIX (by decide)
  have hSPCE : PROG ((Arg2.setWidth 2).insertAt 19 _) = 0 := keep _ hPORT (by decide)
  have hCMD0 : PROG ((cmd0.setWidth 1).insertAt 21 _) = 0 := keep _ hSPCE (by decide)
  have hCMD1 : PROG ((0 : BitVec 1).insertAt 22 _) = 0 := keep _ hCMD0 (by decide)
  have hCMD2 : PROG ((0 : BitVec 1).insertAt 23 _) = 0 := keep _ hCMD1 (by decide)
  have hTMOT : PROG ((0 : BitVec 1).insertAt 31 _) = 0 := keep _ hCMD2 (by decide)
  refine runs_bind (store_command (f := .DWIX) rfl (by decide) hs) ?_
  refine runs_bind (store_command (f := .PORT) rfl (by decide) hDWIX) ?_
  refine runs_bind (store_command (f := .SPCE) rfl (by decide) hPORT) ?_
  refine runs_bind (store_command (f := .CMD0) rfl (by decide) hSPCE) ?_
  refine runs_bind (store_command (f := .CMD1) rfl (by decide) hCMD0) ?_
  refine runs_bind (store_command (f := .CMD2) rfl (by decide) hCMD1) ?_
  refine runs_bind (store_command (f := .TMOT) rfl (by decide) hCMD2) ?_
  exact store_PROG hTMOT

/-! ### Waiting for it -/

theorem load_command {f : Field} {lsb : ℕ} (hf : H530 f = some (.command, lsb)) :
    Steps latency fuel (load f) n s ((s.readCommand.1.extractLsb' lsb f.width).setWidth 64)
      s.readCommand.2 := by
  have hload := @withDwords_load _ _ _ Router.others H530 (Router.device latency) f .command lsb hf s
  refine runs_load (fun x hx => ?_) fun x hx => ?_
  · obtain ⟨rfl, rfl⟩ := Prod.mk.inj hx
    exact congrArg (fun y => BitVec.setWidth 64 y.1) hload
  · obtain ⟨rfl, rfl⟩ := Prod.mk.inj hx
    exact congrArg (fun y => (x.names, y.2)) hload

theorem load_of_idle {f : Field} {lsb : ℕ} (hf : H530 f = some (.command, lsb))
    (hs : PROG s.command = 0) (hv : (s.command.extractLsb' lsb f.width).setWidth 64 = v) :
    Steps latency fuel (load f) n s v s := by
  have hload : Steps latency fuel (load f) n s _ _ := load_command hf
  rw [readCommand_of_idle hs, hv] at hload
  exact hload

theorem PROG_finished (d : BitVec 32) : PROG (Router.finished d) = 0 := by
  rw [Router.finished, PROG_insertAt_of_disjoint (by decide), PROG_insertAt]

theorem TMOT_finished (d : BitVec 32) : (Router.finished d).extractLsb' 31 1 = 0 :=
  BitVec.extract_insertAt (by decide)

theorem reserved_finished (d : BitVec 32) : reserved (Router.finished d) = reserved d := by
  rw [Router.finished, reserved_insertAt (by decide), reserved_insertAt (by decide)]

/-- A poll that finds the command still running. -/
theorem load_PROG_succ {k : ℕ} (hs : PROG s.command = 1) (hk : s.pending = k + 1) :
    Steps latency fuel (load .PROG) n s 1 { s with pending := k } := by
  have hread : s.readCommand = (s.command, { s with pending := k }) := by
    rw [Router.readCommand, if_pos hs, hk]
  have hload : Steps latency fuel (load .PROG) n s _ _ := load_command rfl
  rw [hread] at hload
  have hval : (s.command.extractLsb' 30 1).setWidth 64 = (1 : Integer) :=
    congrArg (BitVec.setWidth 64) hs
  exact hval ▸ hload

/-- The poll that finds it done. -/
theorem load_PROG_zero (hs : PROG s.command = 1) (hk : s.pending = 0) :
    Steps latency fuel (load .PROG) n s 0 { s with command := Router.finished s.command } := by
  have hread : s.readCommand =
      (Router.finished s.command, { s with command := Router.finished s.command }) := by
    rw [Router.readCommand, if_pos hs, hk]
  have hload : Steps latency fuel (load .PROG) n s _ _ := load_command rfl
  rw [hread] at hload
  have hval : ((Router.finished s.command).extractLsb' 30 1).setWidth 64 = (0 : Integer) :=
    congrArg (BitVec.setWidth 64) (PROG_finished s.command)
  exact hval ▸ hload

/-- The wait ends with the poll that clears `PROG`. -/
theorem poll_runs (l : Loop) (hfuel : 10000 < fuel) (hs : PROG s.command = 1)
    (hk : s.pending < 10000) :
    Steps latency fuel (poll l) n s 0
      { s with command := Router.finished s.command, pending := 0 } := by
  -- the locals and the states of the passes
  let b (i : ℕ) : Integer := BitVec.ofNat 64 (10000 - i)
  let x (i : ℕ) : Router := { s with pending := s.pending - i }
  have hb (i : ℕ) (hi : i < 10000) : (b i).toNat = 10000 - i := by
    rw [BitVec.toNat_ofNat, Nat.mod_eq_of_lt (by omega)]
  have hcond (i : ℕ) (hi : i ≤ s.pending) :
      Steps latency fuel (pure (decide (0 < b i))) n (x i) true (x i) := by
    have hpos : 0 < b i := by
      show 0 < (b i).toNat
      rw [hb i (by omega)]
      omega
    rw [decide_eq_true hpos]
    exact runs_pure
  refine runs_whileLoop_leave (k := s.pending) (Nat.lt_trans hk hfuel) b (fun i => (n, x i))
    hcond (fun i hi => ?_) ?_
  · have hdec : b i - 1 = b (i + 1) := by
      have hsub (v : Integer) (hv : 1 ≤ v.toNat) : (v - 1).toNat = v.toNat - 1 := by bv_omega
      apply BitVec.eq_of_toNat_eq
      rw [hsub _ (by rw [hb i (by omega)]; omega), hb i (by omega), hb (i + 1) (by omega)]
      omega
    have hload : Steps latency fuel (load .PROG) n (x i) 1 (x (i + 1)) :=
      load_PROG_succ hs (by show s.pending - i = s.pending - (i + 1) + 1; omega)
    refine runs_bind hload ?_
    rw [if_neg (by decide), ← hdec]
    exact runs_bind (runs_act fun _ hx => hx) runs_pure
  · have hload : Steps latency fuel (load .PROG) n (x s.pending) 0
        { s with command := Router.finished s.command, pending := 0 } := by
      have hx : x s.pending = { s with pending := 0 } := by simp [x]
      rw [hx]
      exact load_PROG_zero hs rfl
    refine runs_bind hload ?_
    rw [if_pos rfl]
    exact runs_pure

/-- A completed command has not timed out. -/
theorem status_runs (l : Loop) (hfuel : 10000 < fuel) (hs : PROG s.command = 1)
    (hk : s.pending < 10000) :
    Steps latency fuel (status l) n s 0
      { s with command := Router.finished s.command, pending := 0 } := by
  have hload : Steps latency fuel (load .TMOT) n
      { s with command := Router.finished s.command, pending := 0 } 0
      { s with command := Router.finished s.command, pending := 0 } :=
    load_of_idle rfl (PROG_finished s.command)
      (congrArg (BitVec.setWidth 64) (TMOT_finished s.command))
  refine runs_bind (poll_runs l hfuel hs hk) ?_
  rw [if_pos rfl]
  exact hload

/-! ### The two commands -/

/-- The device after the command that the arguments make, its effect on the registers apart. -/
def settled (s : Router) (Arg0 Arg1 Arg2 cmd0 : Integer) : Router :=
  { s with
    command := Router.finished ((1 : BitVec 1).insertAt 30
      (prepared s.command Arg0 Arg1 Arg2 cmd0))
    pending := 0
    started := s.started + 1 }

section Settled

variable {Arg0 Arg1 Arg2 cmd0 : Integer}

theorem PROG_settled : PROG (settled s Arg0 Arg1 Arg2 cmd0).command = 0 := PROG_finished _

theorem reserved_settled :
    reserved (settled s Arg0 Arg1 Arg2 cmd0).command = reserved s.command := by
  rw [settled, reserved_finished, reserved_insertAt (by decide), reserved_prepared]

end Settled

theorem store_WDAT :
    Steps latency fuel (store .WDAT v) n s () { s with wdat := v.setWidth 32 } := by
  refine runs_store fun x hx => ?_
  obtain ⟨rfl, rfl⟩ := Prod.mk.inj hx
  have hafter : (Router.hardware latency).store .WDAT (v.setWidth 32) x.hw =
      { x.hw with wdat := (v.setWidth 32).insertAt 0 x.hw.wdat } := rfl
  rw [BitVec.insertAt_zero] at hafter
  exact congrArg (Prod.mk x.names) hafter

theorem store_RDAT :
    Steps latency fuel (store .RDAT v) n s () { s with rdat := v.setWidth 32 } := by
  refine runs_store fun x hx => ?_
  obtain ⟨rfl, rfl⟩ := Prod.mk.inj hx
  have hafter : (Router.hardware latency).store .RDAT (v.setWidth 32) x.hw =
      { x.hw with rdat := (v.setWidth 32).insertAt 0 x.hw.rdat } := rfl
  rw [BitVec.insertAt_zero] at hafter
  exact congrArg (Prod.mk x.names) hafter

theorem load_RDAT : Steps latency fuel (load .RDAT) n s (s.rdat.setWidth 64) s := by
  refine runs_load (fun x hx => ?_) fun x hx => hx
  obtain ⟨rfl, rfl⟩ := Prod.mk.inj hx
  show (x.hw.rdat.extractLsb' 0 32).setWidth 64 = _
  rw [BitVec.extractLsb'_eq_self]

/-- The state that a command dword with `PROG` set starts from `prepared`. -/
theorem ofDword_started {d : BitVec 32} (Arg0 Arg1 Arg2 cmd0 : Integer) :
    Command.ofDword ((1 : BitVec 1).insertAt 30 (prepared d Arg0 Arg1 Arg2 cmd0)) =
      .ofArgs Arg0 Arg1 Arg2 cmd0 := by
  rw [Command.ofDword_insertAt _ (by decide), ofDword_prepared]

section Commands

variable (Arg0 Arg1 Arg2 Arg3 : Integer)

/-- The state of the device while it writes. -/
theorem start_write (d : BitVec 32) :
    s.start latency ((1 : BitVec 1).insertAt 30 (prepared d Arg0 Arg1 Arg2 1)) =
      { s with
        file := Function.update s.file (Command.ofArgs Arg0 Arg1 Arg2 1).address s.wdat
        command := (1 : BitVec 1).insertAt 30 (prepared d Arg0 Arg1 Arg2 1)
        pending := latency s.started
        started := s.started + 1 } := by
  have hCMD0 : (Command.ofArgs Arg0 Arg1 Arg2 1).CMD0 = 1 := by
    show (1 : Integer).setWidth 1 = 1
    decide
  rw [Router.start, ofDword_started, Router.perform, if_pos hCMD0]

/-- The state of the device while it reads. -/
theorem start_read (d : BitVec 32) :
    s.start latency ((1 : BitVec 1).insertAt 30 (prepared d Arg0 Arg1 Arg2 0)) =
      { s with
        rdat := s.file (Command.ofArgs Arg0 Arg1 Arg2 0).address
        command := (1 : BitVec 1).insertAt 30 (prepared d Arg0 Arg1 Arg2 0)
        pending := latency s.started
        started := s.started + 1 } := by
  have hCMD0 : (Command.ofArgs Arg0 Arg1 Arg2 0).CMD0 ≠ 1 := by
    show (0 : Integer).setWidth 1 ≠ 1
    decide
  rw [Router.start, ofDword_started, Router.perform, if_neg hCMD0]

variable (hfuel : 10000 < fuel) (hlatency : ∀ i, latency i < 10000) (hs : PROG s.command = 0)

include hfuel hlatency hs

/-- **`CIOW` writes the addressed register.** -/
theorem CIOW_runs :
    Steps latency fuel (CIOW Arg0 Arg1 Arg2 Arg3) n s 0
      (settled { s with
        file := Function.update s.file (Command.ofArgs Arg0 Arg1 Arg2 1).address (Arg3.setWidth 32)
        wdat := Arg3.setWidth 32 } Arg0 Arg1 Arg2 1) := by
  have hstart : Steps latency fuel (command Arg0 Arg1 Arg2 1) n
      { s with wdat := Arg3.setWidth 32 } () _ := command_runs Arg0 Arg1 Arg2 1 hs
  rw [start_write] at hstart
  refine runs_call (runs_bind store_WDAT (runs_bind hstart ?_))
  exact status_runs .CIOW hfuel (PROG_insertAt 1) (hlatency s.started)

/-- **`CIOR` reads the addressed register.** -/
theorem CIOR_runs :
    Steps latency fuel (CIOR Arg0 Arg1 Arg2) n s
      (0, (s.file (Command.ofArgs Arg0 Arg1 Arg2 0).address).setWidth 64)
      (settled { s with rdat := s.file (Command.ofArgs Arg0 Arg1 Arg2 0).address }
        Arg0 Arg1 Arg2 0) := by
  have hstart : Steps latency fuel (command Arg0 Arg1 Arg2 0) n
      { s with rdat := (0 : Integer).setWidth 32 } () _ := command_runs Arg0 Arg1 Arg2 0 hs
  rw [start_read] at hstart
  refine runs_call (runs_bind store_RDAT (runs_bind hstart ?_))
  refine runs_bind (status_runs .CIOR hfuel (PROG_insertAt 1) (hlatency s.started)) ?_
  rw [if_pos rfl]
  exact runs_bind load_RDAT runs_pure

end Commands

/-! ### `CRMW` -/

theorem load_AVND {d : Scope} :
    Steps latency fuel (load (.AVND d)) n s ((s.regs (.AVND d)).setWidth 64) s := by
  refine runs_load (fun x hx => ?_) fun x hx => hx
  obtain ⟨rfl, rfl⟩ := Prod.mk.inj hx
  rfl

/-- What every command leaves as it was. -/
structure Follows (s s' : Router) : Prop where
  idle : PROG s'.command = 0
  reserved : reserved s'.command = reserved s.command
  regs : s'.regs = s.regs

theorem Follows.trans {s' s'' : Router} (h : Follows s s') (h' : Follows s' s'') : Follows s s'' :=
  ⟨h'.idle, h'.reserved.trans h.reserved, h'.regs.trans h.regs⟩

section Crmw

variable (index : BitVec 13) (port : BitVec 6) (space : BitVec 2) (val mask : BitVec 32)

/-- The arguments address the register that they name. -/
theorem address_ofArgs (cmd0 : Integer) :
    (Command.ofArgs (index.setWidth 64) (port.setWidth 64) (space.setWidth 64) cmd0).address =
      (space, port, index) := by
  simp [Command.ofArgs, Command.address]

variable (hfuel : 10000 < fuel) (hlatency : ∀ i, latency i < 10000) (hs : PROG s.command = 0)

section

include hfuel hlatency hs

theorem read_follows :
    ∃ s', Steps latency fuel (CIOR (index.setWidth 64) (port.setWidth 64) (space.setWidth 64)) n s
        (0, (s.file (space, port, index)).setWidth 64) s' ∧
      Follows s s' ∧ s'.file = s.file := by
  have h : Steps latency fuel _ n s _ _ := CIOR_runs (index.setWidth 64) (port.setWidth 64)
    (space.setWidth 64) hfuel hlatency hs
  rw [address_ofArgs] at h
  exact ⟨_, h, ⟨PROG_settled, reserved_settled, rfl⟩, rfl⟩

theorem write_follows (Arg3 : Integer) :
    ∃ s', Steps latency fuel
        (CIOW (index.setWidth 64) (port.setWidth 64) (space.setWidth 64) Arg3) n s 0 s' ∧
      Follows s s' ∧
      s'.file = Function.update s.file (space, port, index) (Arg3.setWidth 32) := by
  have h : Steps latency fuel _ n s _ _ := CIOW_runs (index.setWidth 64) (port.setWidth 64)
    (space.setWidth 64) Arg3 hfuel hlatency hs
  rw [address_ofArgs] at h
  exact ⟨_, h, ⟨PROG_settled, reserved_settled, rfl⟩, rfl⟩

end

variable (hval : val &&& ~~~mask = 0)

include hfuel hlatency hs hval

/-- One attempt is enough. -/
theorem attempt_runs :
    ∃ s', Steps latency fuel (CRMW.attempt (index.setWidth 64) (port.setWidth 64)
        (space.setWidth 64) (val.setWidth 64) (mask.setWidth 64)) n s true s' ∧
      Follows s s' ∧ s'.file = Function.update s.file (space, port, index)
        ((s.file (space, port, index)).masked val mask) := by
  obtain ⟨s₁, hread, hf₁, hfile₁⟩ := read_follows (n := n) index port space hfuel hlatency hs
  obtain ⟨s₂, hwrite, hf₂, hfile₂⟩ := write_follows (n := n) index port space hfuel hlatency hf₁.idle
    ((s.file (space, port, index)).setWidth 64 &&& ~~~mask.setWidth 64 ||| val.setWidth 64)
  obtain ⟨s₃, hread', hf₃, hfile₃⟩ := read_follows (n := n) index port space hfuel hlatency hf₂.idle
  rw [hfile₁, BitVec.setWidth_masked (by decide)] at hfile₂
  -- the register reads back as what was written, and its bits under the mask are `val`
  have hback : (s₂.file (space, port, index)).setWidth 64 &&& mask.setWidth 64 =
      (val.setWidth 64 : Integer) := by
    rw [hfile₂, Function.update_self, ← BitVec.setWidth_and, BitVec.masked_and hval]
  refine ⟨s₃, ?_, (hf₁.trans hf₂).trans hf₃, hfile₃.trans hfile₂⟩
  refine runs_bind hread ?_
  rw [if_pos rfl]
  refine runs_bind hwrite ?_
  rw [if_pos rfl]
  refine runs_bind hread' ?_
  rw [if_pos rfl, decide_eq_true hback]
  exact runs_pure

/-- `CRMW` as a step of the device. -/
theorem CRMW_runs (havnd : s.regs (.AVND .UPSB) ≠ 0xFFFFFFFF#32) :
    ∃ s', Steps latency fuel (CRMW (index.setWidth 64) (port.setWidth 64) (space.setWidth 64)
        (val.setWidth 64) (mask.setWidth 64)) n s 0 s' ∧
      Follows s s' ∧ s'.file = Function.update s.file (space, port, index)
        ((s.file (space, port, index)).masked val mask) := by
  obtain ⟨s', hattempt, hs'⟩ :=
    attempt_runs (n := n) index port space val mask hfuel hlatency hs hval
  refine ⟨s', ?_, hs'⟩
  have hpresent : (s.regs (.AVND .UPSB)).setWidth 64 ≠ (0xFFFFFFFF : Integer) :=
    mt (BitVec.setWidth_inj_of_le (u := 0xFFFFFFFF#32) (by decide)).mp havnd
  refine runs_bind load_AVND ?_
  rw [if_pos hpresent]
  have hcond : Steps latency fuel (pure (decide ((0 : Integer) ≤ 0x04))) n s true s := runs_pure
  refine runs_whileLoop_leave (k := 0) (Nat.lt_trans (by decide) hfuel) (fun _ => 0)
    (fun _ => (n, s)) (fun _ _ => hcond) (fun _ hi => absurd hi (Nat.not_lt_zero _)) ?_
  exact runs_bind hattempt runs_pure

/-- **`CRMW` is a masked update of the addressed register**, and doing it again changes nothing:
from any contents of the registers and of the idle mailbox, however long each command takes. -/
theorem CRMW_refines (havnd : s.regs (.AVND .UPSB) ≠ 0xFFFFFFFF#32) (log : List (Entry tb3 Router)) :
    ∃ w', CRMW (index.setWidth 64) (port.setWidth 64) (space.setWidth 64) (val.setWidth 64)
        (mask.setWidth 64) ⟨Router.hardware latency, fuel⟩ ⟨⟨n, s⟩, log⟩ = (some 0, w') ∧
      w'.hw.file (space, port, index) = s.file (space, port, index) &&& ~~~mask ||| val ∧
      (∀ a, a ≠ (space, port, index) → w'.hw.file a = s.file a) ∧
      w'.hw.command.extractLsb' 24 6 = s.command.extractLsb' 24 6 ∧
      ∃ w'', CRMW (index.setWidth 64) (port.setWidth 64) (space.setWidth 64) (val.setWidth 64)
          (mask.setWidth 64) ⟨Router.hardware latency, fuel⟩ w' = (some 0, w'') ∧
        w''.hw.file = w'.hw.file := by
  obtain ⟨s₁, hrun₁, hf₁, hfile₁⟩ :=
    CRMW_runs (n := n) index port space val mask hfuel hlatency hs hval havnd
  obtain ⟨s₂, hrun₂, -, hfile₂⟩ :=
    CRMW_runs (n := n) index port space val mask hfuel hlatency hf₁.idle hval (hf₁.regs ▸ havnd)
  obtain ⟨w', hr', hw'⟩ := hrun₁ ⟨⟨n, s⟩, log⟩ rfl
  obtain ⟨w'', hr'', hw''⟩ := hrun₂ w' hw'
  obtain ⟨-, hhw'⟩ := Prod.mk.inj hw'
  obtain ⟨-, hhw''⟩ := Prod.mk.inj hw''
  refine ⟨w', hr', ?_, fun a ha => ?_, ?_, w'', hr'', ?_⟩
  · rw [hhw', hfile₁, Function.update_self, BitVec.masked]
  · rw [hhw', hfile₁, Function.update_of_ne ha]
  · rw [hhw']
    exact hf₁.reserved
  · rw [hhw', hhw'', hfile₂, hfile₁, Function.update_self, BitVec.masked_masked,
      Function.update_idem]

end Crmw

/-- A device whose registers are all zero. -/
def blank : Router := ⟨fun _ => 0, 0, 0, 0, 0, 0, fun _ => 0⟩

/-- The first `CRMW` of `_PS0`, each command taking three polls. -/
theorem CRMW_refines_blank :
    ∃ w', CRMW ((0x013E : BitVec 13).setWidth 64) ((0 : BitVec 6).setWidth 64)
        ((2 : BitVec 2).setWidth 64) ((0x0200 : BitVec 32).setWidth 64)
        ((0x0200 : BitVec 32).setWidth 64) ⟨Router.hardware fun _ => 3, 10001⟩
        ⟨⟨Name.init, blank⟩, []⟩ = (some 0, w') ∧
      w'.hw.file (2, 0, 0x013E) = blank.file (2, 0, 0x013E) &&& ~~~0x0200 ||| 0x0200 ∧
      (∀ a, a ≠ (2, 0, 0x013E) → w'.hw.file a = blank.file a) ∧
      w'.hw.command.extractLsb' 24 6 = blank.command.extractLsb' 24 6 ∧
      ∃ w'', CRMW ((0x013E : BitVec 13).setWidth 64) ((0 : BitVec 6).setWidth 64)
          ((2 : BitVec 2).setWidth 64) ((0x0200 : BitVec 32).setWidth 64)
          ((0x0200 : BitVec 32).setWidth 64) ⟨Router.hardware fun _ => 3, 10001⟩ w' =
            (some 0, w'') ∧
        w''.hw.file = w'.hw.file :=
  CRMW_refines 0x013E 0 2 0x0200 0x0200 (by decide) (fun _ => by decide) rfl (by decide)
    (show (0 : BitVec 32) ≠ 0xFFFFFFFF#32 by decide) []

end TB3.UPSB
