import XPS9350.Dsdt.Equiv.Bus
import XPS9350.Aml.Countdown

/-!
# The handshake of `TINI`

On a root port whose bus numbers are a register of the hardware, `TINI` talks to the mailbox on the
bus `0xF0` only, and leaves the register as it was, whatever the firmware of the controller answers.

* `TINI_restores`: where every access goes and what the register holds at that moment.
-/

namespace Dsdt

open Aml Aml.Prog

variable {σ α : Type} {env : Env dsdt σ} {GPCB TBSE RPA : Integer}

/-! ### The addresses -/

/-- The device of the port `TBSE`. -/
def device (TBSE : Integer) : Integer :=
  if TBSE ≤ 0x08 then 0x1C else if TBSE ≤ 0x10 then 0x1D else if TBSE ≤ 0x14 then 0x1B else 1

/-- The function of the port `TBSE`, whose entry of `RPA1`, …, `RPAK` is `RPA`. -/
def function (TBSE RPA : Integer) : Integer := if TBSE ≤ 0x14 then RPA &&& 0x0F else TBSE - 0x15

/-- The configuration base of the root port. -/
def portBase (GPCB TBSE RPA : Integer) : Integer :=
  GPCB + (device TBSE) <<< 0x0F + (function TBSE RPA) <<< 0x0C

/-- A root port with bus numbers, as the firmware has set it up. -/
structure RootPort (hw : Hardware dsdt σ) (GPCB TBSE RPA : Integer) where
  /-- Its number is one of those that `TBTD` and `TBTF` know. -/
  pos : 0x01 ≤ TBSE
  le : TBSE ≤ 0x17
  /-- The dword at `0x18`. -/
  bus : σ → BitVec 32
  reads_TBSE : ∀ s, hw.reads .TBSE s = TBSE
  reads_RPA : ∀ s, hw.reads (.RPA TBSE) s = RPA
  load_REG6 : ∀ s, (hw.load (.REG6 (portBase GPCB TBSE RPA + 0x18)) s).1 = bus s
  /-- The secondary bus number is a byte of it. -/
  load_SBUS : ∀ s,
    (hw.load (.SBUS .MMTB (portBase GPCB TBSE RPA + 0x19)) s).1 = (bus s).extractLsb' 8 8
  store_REG6 : ∀ v s, bus (hw.store (.REG6 (portBase GPCB TBSE RPA + 0x18)) v s) = v
  /-- Reading, sleeping and the mailbox leave it alone. -/
  load : ∀ f s, bus (hw.load f s).2 = bus s
  sleep : ∀ t s, bus (hw.sleep t s) = bus s
  store_P2TB : ∀ a v s, bus (hw.store (.P2TB .OSUP a) v s) = bus s

/-! ### What the methods give -/

/-- Events that only read, and not from a mailbox. -/
def reading : Event dsdt → Bool
  | .load (.TB2P _ _) _ => false
  | .load _ _ | .enter _ => true
  | _ => false

theorem reading_serialized {m : Lock} {body : Method σ α}
    (h : Emits env (fun _ e => reading e = true) body) :
    Emits env (fun _ e => reading e = true) (serialized m body) := by
  unfold serialized Acquire Release
  refine emits_seq (emits_call (fun _ => rfl) emits_pure) (emits_bind h fun _ => ?_)
  exact emits_seq (emits_call (fun _ => rfl) emits_pure) emits_pure

theorem reading_MMRP : Emits env (fun _ e => reading e = true) (MMRP GPCB) := by
  have hTBSE : Emits env (fun _ e => reading e = true) (load .TBSE) := emits_load fun _ _ => rfl
  have hhalt : Emits env (fun _ e => reading e = true) (halt : Method σ Integer) := fun _ => .refl
  have hTBTD {a : Integer} : Emits env (fun _ e => reading e = true) (TBTD a) := by
    refine reading_serialized (emits_ite emits_pure (emits_ite emits_pure ?_))
    exact emits_ite emits_pure (emits_ite emits_pure hhalt)
  have hTBTF {a : Integer} : Emits env (fun _ e => reading e = true) (TBTF a) := by
    refine reading_serialized (emits_ite ?_ ?_)
    · exact emits_bind (emits_load fun _ _ => rfl) fun _ => emits_pure
    · exact emits_ite emits_pure (emits_ite emits_pure (emits_ite emits_pure hhalt))
  refine emits_bind hTBSE fun _ => emits_bind hTBTD fun _ => ?_
  exact emits_bind hTBSE fun _ => emits_bind hTBTF fun _ => emits_pure

theorem reading_MMTB : Emits env (fun _ e => reading e = true) (MMTB GPCB) := by
  refine reading_serialized (emits_bind reading_MMRP fun _ => ?_)
  exact emits_bind (emits_load fun _ _ => rfl) fun _ => emits_pure

theorem wp_serialized {E : World dsdt σ → Prop} {m : Lock} {body : Method σ α}
    {Q : α → World dsdt σ → Prop} {w : World dsdt σ}
    (h : wp env E body (fun a w' => Q a (w'.perform env.hw (.enter (.Release m))))
      (w.perform env.hw (.enter (.Acquire m)))) : wp env E (serialized m body) Q w := by
  unfold serialized Acquire Release
  rw [wp_bind, wp_call, wp_pure, wp_bind]
  refine wp_imp h fun a w' ha => ?_
  rw [wp_bind, wp_call, wp_pure, wp_pure]
  exact ha

theorem TBTD_wp (hpos : 0x01 ≤ TBSE) (hle : TBSE ≤ 0x17) {w : World dsdt σ} :
    wp env (fun _ => False) (TBTD TBSE) (fun v _ => v = device TBSE) w := by
  refine wp_serialized ?_
  unfold device
  split_ifs <;> first | exact wp_pure.mpr rfl | bv_omega

theorem TBTF_wp (hpos : 0x01 ≤ TBSE) (hle : TBSE ≤ 0x17)
    (hRPA : ∀ s, env.hw.reads (.RPA TBSE) s = RPA) {w : World dsdt σ} :
    wp env (fun _ => False) (TBTF TBSE) (fun v _ => v = function TBSE RPA) w := by
  refine wp_serialized ?_
  unfold function
  by_cases h : TBSE ≤ 0x14
  · rw [if_pos ⟨hpos, h⟩, if_pos h, wp_bind, wp_load, hRPA]
    exact wp_pure.mpr rfl
  · -- the functions of the last three ports are fixed
    rw [if_neg fun h' => h h'.2, if_neg h]
    split_ifs <;> first | (apply wp_pure.mpr; bv_omega) | bv_omega

/-- `MMRP` gives the configuration base of the root port. -/
theorem MMRP_wp (p : RootPort env.hw GPCB TBSE RPA) {w : World dsdt σ} :
    wp env (fun _ => False) (MMRP GPCB) (fun v _ => v = portBase GPCB TBSE RPA) w := by
  unfold MMRP
  rw [wp_bind, wp_load, p.reads_TBSE, wp_bind]
  refine wp_imp (TBTD_wp p.pos p.le) ?_
  rintro _ w₁ rfl
  rw [wp_bind, wp_load, p.reads_TBSE, wp_bind]
  refine wp_imp (TBTF_wp p.pos p.le p.reads_RPA) ?_
  rintro _ w₂ rfl
  exact wp_pure.mpr rfl

theorem bus_of_reading (p : RootPort env.hw GPCB TBSE RPA) {w w' : World dsdt σ}
    (h : Path env.hw (fun _ e => reading e = true) w w') : p.bus w'.hw = p.bus w.hw := by
  refine h.invariant (I := fun u => p.bus u.hw = p.bus w.hw) rfl fun u e hu _ he => ?_
  rw [← hu]
  cases e with
  | load f v => exact p.load f u.hw
  | enter m => rfl
  | _ => cases he

/-- `MMTB` gives the configuration base of the bus that the register holds at that moment. -/
theorem MMTB_wp (p : RootPort env.hw GPCB TBSE RPA) {w : World dsdt σ} :
    wp env (fun _ => False) (MMTB GPCB) (fun v _ =>
      v = GPCB + ((p.bus w.hw).extractLsb' 8 8).setWidth 64 * 0x00100000) w := by
  refine wp_serialized ?_
  rw [wp_bind]
  refine wp_imp (wp_with_path (MMRP_wp p) reading_MMRP) ?_
  rintro _ w₁ ⟨rfl, hpath⟩
  rw [wp_bind, wp_load, Hardware.reads, p.load_SBUS, bus_of_reading p hpath]
  exact wp_pure.mpr rfl

/-- Events of the mailbox at `a` and of the wait for its answer. -/
def mailbox (a : Integer) : Event dsdt → Bool
  | .load (.TB2P .OSUP b) _ | .store (.P2TB .OSUP b) _ => b = a
  | .sleep _ | .enter _ | .test _ _ | .pass _ _ => true
  | _ => false

theorem mailbox_OSUP {a : Integer} :
    Emits env (fun _ e => mailbox (a + 0x0548) e = true) (OSUP a) := by
  have hload (b v : Integer) : mailbox b (.load (.TB2P .OSUP b) v) = true := decide_eq_true rfl
  have hstore (b v : Integer) : mailbox b (.store (.P2TB .OSUP b) v) = true := decide_eq_true rfl
  unfold OSUP serialized Acquire Release
  refine emits_call (fun _ => rfl) ?_
  refine emits_seq (emits_call (fun _ => rfl) emits_pure) (emits_bind ?_ fun _ => ?_)
  · refine emits_seq (emits_store fun _ => hstore _ _) (emits_bind ?_ fun r => ?_)
    · refine emits_whileLoop (fun _ _ => rfl) (fun _ _ => rfl) (fun _ => emits_pure) fun _ => ?_
      refine emits_bind (emits_load fun _ _ => hload _ _) fun _ => emits_ite emits_pure ?_
      exact emits_ite emits_pure (emits_seq (emits_sleep fun _ => rfl) emits_pure)
    · cases r with
      | some v => exact emits_pure
      | none => exact emits_seq (emits_store fun _ => hstore _ _) emits_pure
  · exact emits_seq (emits_call (fun _ => rfl) emits_pure) emits_pure

/-- The command of the handshake at `a`. -/
def command (a : Integer) : Event dsdt := .store (.P2TB .OSUP a) 0x0D

/-- `OSUP` sends its command and ends, whatever the device answers. -/
theorem OSUP_wp {a : Integer} (hfuel : 100 < env.fuel) {w : World dsdt σ} :
    wp env (fun _ => False) (OSUP a) (fun _ w' => command (a + 0x0548) ∈ w'.events) w := by
  have hcond : (fun Local1 : Integer => (pure (decide (0 < Local1)) : Method σ Bool)) =
      fun Local1 => pure (decide (Local1 ≠ 0)) := by
    funext b
    congr 2
    exact propext (BitVec.pos_iff_ne_zero b)
  have later {u : World dsdt σ} (e : Event dsdt) (h : command (a + 0x0548) ∈ u.events) :
      command (a + 0x0548) ∈ (u.perform env.hw e).events := List.mem_cons_of_mem e h
  have hloop {u : World dsdt σ} (hu : command (a + 0x0548) ∈ u.events) :
      wp env (fun _ => False) (whileLoop .OSUP (fun Local1 => pure (decide (Local1 ≠ 0)))
        (fun Local1 => do
          let Local2 ← load (.TB2P .OSUP (a + 0x0548))
          if Local2 = 0xFFFFFFFF then
            pure (.leave (some 2))
          else if Local2 &&& 1 ≠ 0 then
            pure (.leave none)
          else
            sleep 0x32
            pure (.next (Local1 - 1)))
        (fun _ => none) (0x64 : Integer) : Method σ (Option Integer))
        (fun _ u' => command (a + 0x0548) ∈ u'.events) u := by
    refine wp_countdown (n := 100) (fun _ u' => command (a + 0x0548) ∈ u'.events) (by decide)
      hfuel hu ?_ fun _ h => later _ h
    intro i u hi h
    rw [wp_bind, wp_load]
    have hpass := later (.pass .OSUP i) (later (.test .OSUP i) h)
    -- the device is gone, or has answered, or gets more time
    refine wp_ite_of (fun _ => wp_pure.mpr (later _ hpass)) fun _ => ?_
    refine wp_ite_of (fun _ => wp_pure.mpr (later _ hpass)) fun _ => ?_
    rw [wp_bind, wp_sleep]
    exact wp_pure.mpr ⟨countdown_sub_one (by decide) hi, later _ (later _ hpass)⟩
  unfold OSUP
  rw [wp_call]
  refine wp_serialized ?_
  rw [wp_bind, wp_store, wp_bind, hcond]
  refine wp_imp (hloop (List.mem_cons_self)) fun r u hu => ?_
  cases r with
  | some v => exact wp_pure.mpr (later _ hu)
  | none => exact wp_bind.mpr (wp_store.mpr (wp_pure.mpr (later _ (later _ hu))))

/-! ### The theorem -/

/-- What may happen while `TINI` runs: the mailbox is used on the bus `0xF0` only, while the root
port has it, and nothing else is written but the register with the bus numbers. -/
def Aimed {hw : Hardware dsdt σ} (p : RootPort hw GPCB TBSE RPA) (s : State dsdt σ) :
    Event dsdt → Prop
  | .load (.TB2P _ a) _ | .store (.P2TB _ a) _ =>
    a = GPCB + 0x0F000548 ∧ p.bus s.hw = 0x00F0F000
  | .store f _ => f = .REG6 (portBase GPCB TBSE RPA + 0x18)
  | .set _ _ => False
  | _ => True

theorem mailbox_address : GPCB + 0x0F000000 + 0x0548 = GPCB + 0x0F000548 := by bv_omega

section Aimed

variable {p : RootPort env.hw GPCB TBSE RPA} {w w' : World dsdt σ}

theorem aimed_of_reading (h : Path env.hw (fun _ e => reading e = true) w w') :
    Path env.hw (fun u e => Aimed p u.toState e) w w' := by
  refine h.mono fun u e he => ?_
  cases e with
  | load f v =>
    cases f with
    | TB2P m a => cases he
    | _ => trivial
  | enter m => trivial
  | _ => cases he

/-- The handshake while the root port has the bus `0xF0`. -/
theorem aimed_of_mailbox (hbus : p.bus w.hw = 0x00F0F000)
    (h : Path env.hw (fun _ e => mailbox (GPCB + 0x0F000000 + 0x0548) e = true) w w') :
    Path env.hw (fun u e => Aimed p u.toState e) w w' ∧ p.bus w'.hw = 0x00F0F000 := by
  rw [mailbox_address] at h
  have stay (u : World dsdt σ) (e : Event dsdt) (hu : p.bus u.hw = 0x00F0F000)
      (_ : env.hw.Answers u.toState e) (he : mailbox (GPCB + 0x0F000548) e = true) :
      p.bus (u.perform env.hw e).hw = 0x00F0F000 := by
    rw [← hu]
    cases e with
    | load f v => exact p.load f u.hw
    | store f v =>
      cases f with
      | P2TB m a =>
        cases m with
        | OSUP => exact p.store_P2TB a _ u.hw
        | _ => cases he
      | _ => cases he
    | sleep t => exact p.sleep t u.hw
    | enter m => rfl
    | test l i => rfl
    | pass l i => rfl
    | _ => cases he
  refine ⟨(h.strengthen hbus stay).mono ?_, h.invariant hbus stay⟩
  rintro u e ⟨hu, he⟩
  unfold mailbox at he
  split at he
  · exact ⟨of_decide_eq_true he, hu⟩
  · exact ⟨of_decide_eq_true he, hu⟩
  · trivial
  · trivial
  · trivial
  · trivial
  · cases he

end Aimed

/-- **`TINI` makes its handshake on the bus `0xF0` and puts the bus numbers back**, whatever the
firmware of the controller answers. -/
theorem TINI_restores (p : RootPort env.hw GPCB TBSE RPA) (hfuel : 100 < env.fuel)
    (s : State dsdt σ) :
    ∃ w', TINI GPCB env s.world = (some (), w') ∧ p.bus w'.hw = p.bus s.hw ∧
      command (GPCB + 0x0F000548) ∈ w'.events ∧ ∀ x ∈ w'.log, Aimed p x.before x.event := by
  suffices h : wp env (fun _ => False) (TINI GPCB) (fun _ w' => p.bus w'.hw = p.bus s.hw ∧
      command (GPCB + 0x0F000548) ∈ w'.events ∧
      Path env.hw (fun u e => Aimed p u.toState e) s.world w') s.world by
    obtain ⟨_, w', hrun, hbus, hcommand, hpath⟩ := wp_false_iff.mp h
    exact ⟨w', hrun, hbus, hcommand, hpath.forall_log (fun _ _ _ he => he) (by simp)⟩
  unfold TINI
  rw [wp_call, wp_bind]
  have henter : Path env.hw (fun u e => Aimed p u.toState e) s.world
      (s.world.perform env.hw (.enter .TINI)) :=
    .single trivial trivial
  refine wp_imp (wp_with_path (MMRP_wp p) reading_MMRP) ?_
  rintro _ w₁ ⟨rfl, hMMRP⟩
  have hbus₁ : p.bus w₁.hw = p.bus s.hw := (bus_of_reading p hMMRP).trans rfl
  have hpath₁ := henter.trans (aimed_of_reading (p := p) hMMRP)
  rw [wp_bind, wp_load, wp_bind, wp_store, wp_bind]
  -- the register is read, then it gets the bus for the handshake
  set v := env.hw.reads (.REG6 (portBase GPCB TBSE RPA + 0x18)) w₁.toState with hv
  set w₂ := w₁.perform env.hw (.load (.REG6 (portBase GPCB TBSE RPA + 0x18)) v) with hw₂
  set w₃ := w₂.perform env.hw (.store (.REG6 (portBase GPCB TBSE RPA + 0x18))
    (dsdt.cut (.REG6 (portBase GPCB TBSE RPA + 0x18)) 0x00F0F000)) with hw₃
  have hpath₃ : Path env.hw (fun u e => Aimed p u.toState e) s.world w₃ :=
    .step (.step hpath₁ rfl trivial) trivial rfl
  have hbus₃ : p.bus w₃.hw = 0x00F0F000 := by
    rw [cut_REG6] at hw₃
    exact p.store_REG6 _ w₂.hw
  refine wp_imp (wp_with_path (MMTB_wp p) reading_MMTB) ?_
  rintro _ w₄ ⟨rfl, hMMTB⟩
  -- so `MMTB` finds the mailbox on that bus
  have hbus₄ : p.bus w₄.hw = 0x00F0F000 := (bus_of_reading p hMMTB).trans hbus₃
  have hF0 : ((0x00F0F000 : BitVec 32).extractLsb' 8 8).setWidth 64 * 0x00100000 =
      (0x0F000000 : Integer) := by decide
  rw [wp_bind, hbus₃, hF0]
  refine wp_imp (wp_with_path (OSUP_wp hfuel) mailbox_OSUP) ?_
  rintro _ w₅ ⟨hcommand, hOSUP⟩
  obtain ⟨hpath₅, -⟩ := aimed_of_mailbox hbus₄ hOSUP
  have hpath := (hpath₃.trans (aimed_of_reading hMMTB)).trans hpath₅
  rw [mailbox_address] at hcommand
  refine wp_store.mpr ⟨?_, List.mem_cons_of_mem _ hcommand, .step hpath trivial rfl⟩
  -- the value that was read goes back
  rw [← hbus₁, World.perform_toState]
  show p.bus (env.hw.store _ ((dsdt.cut _ v).setWidth _) w₅.hw) = _
  rw [p.store_REG6, Signature.setWidth_cut, hv, Hardware.reads, p.load_REG6]
  show ((p.bus w₁.hw).setWidth 64).setWidth 32 = p.bus w₁.hw
  rw [BitVec.setWidth_setWidth_of_le _ (by decide), BitVec.setWidth_eq]

/-- A root port that has a register for its bus numbers, and a device that does not answer. -/
def bridge : Hardware dsdt (BitVec 32) where
  load f s := (match f with
    | .TBSE => (1 : BitVec 8)
    | .REG6 _ => s
    | .SBUS .MMTB _ => s.extractLsb' 8 8
    | _ => 0, s)
  store f v s := match f with
    | .REG6 _ => v
    | _ => s
  sleep _ s := s
  stall _ s := s
  timer s := (0, s)

/-- The first root port is one of those that `TBTD` and `TBTF` know. -/
theorem first_pos : (0x01 : Integer) ≤ 1 := by decide

theorem first_le : (1 : Integer) ≤ 0x17 := by decide

/-- It is the first one. -/
def bridgePort : RootPort bridge 0 1 0 where
  pos := first_pos
  le := first_le
  bus := id
  reads_TBSE _ := rfl
  reads_RPA _ := rfl
  load_REG6 _ := rfl
  load_SBUS _ := rfl
  store_REG6 _ _ := rfl
  load _ _ := rfl
  sleep _ _ := rfl
  store_P2TB _ _ _ := rfl

/-- The device does not answer. -/
theorem TINI_restores_bridge :
    ∃ w', TINI 0 (⟨bridge, 101⟩ : Env dsdt (BitVec 32)) (State.world ⟨fun _ => 0, 0x00010100⟩) =
        (some (), w') ∧ bridgePort.bus w'.hw = bridgePort.bus 0x00010100 ∧
      command (0 + 0x0F000548) ∈ w'.events ∧ ∀ x ∈ w'.log, Aimed bridgePort x.before x.event := by
  have hfuel : 100 < (⟨bridge, 101⟩ : Env dsdt (BitVec 32)).fuel := by decide
  exact TINI_restores bridgePort hfuel ⟨fun _ => 0, 0x00010100⟩

end Dsdt
