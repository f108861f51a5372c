import XPS9350.Dsdt.Equiv.Pads
import XPS9350.Dsdt.Protocol

/-!
# Force power

`RSMI` restarts the controller by a pad: it switches the pad over, waits, and switches it back.
Which level stands for on is a setting of the firmware, `FPLV`, and `RSMI` takes what it reads off
the pad for the answer to whether the power is on.

* `force_power_restored_iff`: for which settings `RSMI` leaves the pad as it was.
* `force_power_kept`: with such a setting every run of the handler leaves all pads as they were.
-/

namespace Dsdt

open Aml Aml.Prog

variable {σ α : Type} {env : Env dsdt σ} {GPCB : Integer}

/-! ### What does not touch the pads -/

/-- Everything but writing to a pad. -/
def harmless : Event dsdt → Bool
  | .store (.pad _ _) _ | .store (.HOWN _) _ | .set (.RXEV _) _ | .stall _ | .timer _ => false
  | _ => true

/-- Only harmless events. -/
def Harmless (env : Env dsdt σ) (m : Method σ α) : Prop :=
  Emits env (fun _ e => harmless e = true) m

section Harmless

variable {body : Method σ α}

theorem harmless_load {f : Field} : Harmless env (load f : Method σ Integer) :=
  emits_load fun _ _ => rfl

theorem harmless_halt : Harmless env (halt : Method σ α) := fun _ => .refl

theorem harmless_call {i : Invocation} (h : Harmless env body) : Harmless env (call i body) :=
  emits_call (fun _ => rfl) h

theorem harmless_serialized {m : Lock} (h : Harmless env body) :
    Harmless env (serialized m body) :=
  emits_seq (harmless_call emits_pure) (emits_bind h fun _ =>
    emits_seq (harmless_call emits_pure) emits_pure)

theorem harmless_loop {β γ : Type} {l : Loop} {cond : β → Method σ Bool}
    {body : β → Method σ (Prog.Flow β γ)} {done : β → γ} {b : β}
    (hc : ∀ b, Harmless env (cond b)) (hb : ∀ b, Harmless env (body b)) :
    Harmless env (whileLoop l cond body done b) :=
  emits_whileLoop (fun _ _ => rfl) (fun _ _ => rfl) hc hb

theorem harmless_TBTD {a : Integer} : Harmless env (TBTD a : Method σ Integer) := by
  refine harmless_serialized (emits_ite emits_pure (emits_ite emits_pure ?_))
  exact emits_ite emits_pure (emits_ite emits_pure harmless_halt)

theorem harmless_TBTF {a : Integer} : Harmless env (TBTF a : Method σ Integer) := by
  refine harmless_serialized (emits_ite (emits_bind harmless_load fun _ => emits_pure) ?_)
  exact emits_ite emits_pure (emits_ite emits_pure (emits_ite emits_pure harmless_halt))

theorem harmless_MMRP : Harmless env (MMRP GPCB : Method σ Integer) := by
  refine emits_bind harmless_load fun _ => emits_bind harmless_TBTD fun _ => ?_
  exact emits_bind harmless_load fun _ => emits_bind harmless_TBTF fun _ => emits_pure

theorem harmless_MMTB : Harmless env (MMTB GPCB : Method σ Integer) := by
  refine harmless_serialized (emits_bind harmless_MMRP fun _ => ?_)
  exact emits_bind harmless_load fun _ => emits_pure

theorem harmless_FFTB : Harmless env (FFTB GPCB : Method σ Integer) := by
  refine emits_bind harmless_MMTB fun _ => emits_bind harmless_load fun _ => ?_
  exact emits_ite emits_pure emits_pure

theorem harmless_STDC {a b c d e : Integer} : Harmless env (STDC a b c d e : Method σ Integer) := by
  have hPERB {a b c d e : Integer} : Harmless env (PERB a b c d e : Method σ Integer) :=
    harmless_serialized harmless_load
  have hPERW {a b c d e : Integer} : Harmless env (PERW a b c d e : Method σ Integer) :=
    harmless_serialized harmless_load
  refine harmless_serialized (emits_bind hPERW fun _ => emits_ite emits_pure ?_)
  refine emits_bind hPERW fun _ => emits_ite emits_pure (emits_bind hPERB fun _ => ?_)
  refine harmless_loop (fun _ => emits_pure) fun _ => emits_ite emits_pure ?_
  exact emits_bind hPERB fun _ => emits_ite emits_pure (emits_bind hPERB fun _ => emits_pure)

theorem harmless_DRPM : Harmless env (DRPM GPCB : Method σ Unit) := by
  refine emits_bind harmless_load fun _ => emits_bind harmless_TBTD fun _ => ?_
  refine emits_bind harmless_load fun _ => emits_bind harmless_TBTF fun _ => ?_
  refine emits_bind harmless_STDC fun _ => emits_bind harmless_MMRP fun _ => ?_
  exact emits_store fun _ => rfl

theorem harmless_eventBit {l : Loop} :
    Harmless env (eventBit l : Method σ (Integer × Integer)) := by
  refine emits_bind harmless_load fun _ => emits_bind harmless_load fun _ => ?_
  exact harmless_loop (fun _ => emits_pure) fun _ => emits_pure

theorem harmless_CNCT : Harmless env (CNCT : Method σ Integer) :=
  emits_bind harmless_eventBit fun _ => emits_bind harmless_load fun _ => emits_pure

theorem harmless_CLNE : Harmless env (CLNE : Method σ Unit) :=
  emits_bind harmless_eventBit fun _ => emits_bind harmless_load fun _ => emits_store fun _ => rfl

theorem harmless_WWAK : Harmless env (WWAK : Method σ Unit) :=
  emits_seq (harmless_call emits_pure) (harmless_call emits_pure)

theorem harmless_sleep {t : Integer} : Harmless env (sleep t : Method σ Unit) :=
  emits_sleep fun _ => rfl

theorem harmless_WSUB : Harmless env (WSUB GPCB : Method σ Unit) := by
  have hTSUB : Harmless env (TSUB GPCB : Method σ Integer) :=
    harmless_serialized (emits_bind harmless_MMRP fun _ =>
      emits_bind harmless_load fun _ => harmless_load)
  refine harmless_loop (fun _ => emits_pure) fun _ => emits_bind hTSUB fun _ => ?_
  refine emits_ite emits_pure (emits_ite ?_ ?_)
  · exact emits_seq harmless_sleep emits_pure
  · exact emits_seq harmless_sleep emits_pure

theorem harmless_DMSI : Harmless env (DMSI GPCB : Method σ Integer) := by
  refine emits_bind harmless_MMTB fun _ => emits_bind harmless_load fun _ => ?_
  refine emits_ite (emits_seq (emits_store fun _ => rfl) ?_) emits_pure
  refine emits_seq (emits_store fun _ => rfl) (emits_seq (emits_store fun _ => rfl) ?_)
  refine emits_bind (harmless_loop (fun _ => emits_pure) fun _ => ?_) fun r => ?_
  · refine emits_bind harmless_load fun _ => emits_ite emits_pure (emits_ite emits_pure ?_)
    exact emits_seq harmless_sleep emits_pure
  · cases r with
    | some v => exact emits_pure
    | none => exact emits_seq (emits_store fun _ => rfl) emits_pure

theorem harmless_GNIS : Harmless env (GNIS GPCB : Method σ Integer) := by
  refine emits_bind harmless_load fun _ => emits_ite emits_pure ?_
  refine emits_bind harmless_MMTB fun _ => emits_bind harmless_load fun _ => ?_
  refine emits_ite emits_pure (emits_bind harmless_load fun _ => emits_ite ?_ emits_pure)
  exact emits_seq (emits_store fun _ => rfl) emits_pure

theorem harmless_PGWA : Harmless env (PGWA GPCB : Method σ Unit) := by
  have hstore {f : Field} (hf : ∀ v, harmless (.store f v) = true) {v : Integer} :
      Harmless env (store f v : Method σ Unit) := emits_store fun _ => hf _
  have hlink (a : Integer) : Harmless env (PGWA.link a : Method σ Unit) := by
    refine emits_bind harmless_load fun _ => emits_ite ?_ emits_pure
    refine emits_seq (hstore fun _ => rfl) (emits_seq (hstore fun _ => rfl) ?_)
    refine harmless_loop (fun _ => emits_pure) fun _ => emits_bind harmless_load fun _ => ?_
    exact emits_ite emits_pure (emits_seq harmless_sleep emits_pure)
  refine harmless_serialized (emits_bind harmless_load fun _ => emits_ite ?_ emits_pure)
  refine emits_bind harmless_MMRP fun a => emits_bind harmless_load fun _ => ?_
  refine emits_ite (emits_seq (hstore fun _ => rfl) ?_) (hlink a)
  exact emits_seq (hstore fun _ => rfl) (emits_seq harmless_sleep (hlink a))

theorem harmless_P8XH {a b : Integer} : Harmless env (P8XH a b : Method σ Unit) := by
  have hbyte {a n mask v : Integer} : Harmless env (P8XH.byte a n mask v : Method σ Unit) :=
    emits_ite (emits_bind harmless_load fun _ => emits_store fun _ => rfl) emits_pure
  refine harmless_serialized (emits_seq hbyte (emits_seq hbyte (emits_seq hbyte ?_)))
  exact emits_seq hbyte (emits_bind harmless_load fun _ => emits_store fun _ => rfl)

theorem harmless_handle : Harmless env (_E42.handle GPCB : Method σ (Prog.Flow Unit Unit)) := by
  have hOSUP {a : Integer} : Harmless env (OSUP a : Method σ Integer) := by
    refine harmless_call (harmless_serialized (emits_seq (emits_store fun _ => rfl) ?_))
    refine emits_bind (harmless_loop (fun _ => emits_pure) fun _ => ?_) fun r => ?_
    · refine emits_bind harmless_load fun _ => emits_ite emits_pure (emits_ite emits_pure ?_)
      exact emits_seq harmless_sleep emits_pure
    · cases r with
      | some v => exact emits_pure
      | none => exact emits_seq (emits_store fun _ => rfl) emits_pure
  have hTBFF : Harmless env (TBFF GPCB : Method σ Integer) := by
    refine harmless_call (harmless_serialized (emits_bind harmless_MMTB fun _ => ?_))
    exact emits_bind harmless_load fun _ => emits_ite hOSUP emits_pure
  have hport {a : Integer} : Harmless env (NTFY.port a : Method σ Unit) :=
    emits_ite (harmless_call emits_pure) (emits_ite (harmless_call emits_pure) emits_pure)
  have hNTFY : Harmless env (NTFY : Method σ Unit) := by
    refine harmless_call (harmless_serialized (emits_bind harmless_load fun _ => ?_))
    exact emits_ite (emits_bind harmless_load fun _ => hport) emits_pure
  have hagain : Harmless env (_E42.again : Method σ Bool) := by
    refine emits_bind harmless_load fun _ => emits_bind harmless_load fun _ => ?_
    refine emits_ite (emits_bind harmless_load fun _ => ?_) emits_pure
    exact emits_bind emits_get fun _ => emits_pure
  have hrelease : Harmless env (Release .OSUM : Method σ Unit) := harmless_call emits_pure
  refine emits_bind hTBFF fun _ => emits_ite ?_ (emits_ite ?_ ?_)
  · refine emits_seq harmless_sleep (emits_seq hrelease (emits_bind hagain fun _ => ?_))
    exact emits_ite emits_pure emits_pure
  · refine emits_seq hNTFY (emits_seq harmless_sleep (emits_seq hrelease ?_))
    exact emits_seq harmless_P8XH emits_pure
  · have last : Harmless env (_E42.leave : Method σ (Prog.Flow Unit Unit)) :=
      emits_seq hNTFY (emits_seq harmless_sleep (emits_seq hrelease emits_pure))
    refine emits_bind harmless_load fun _ => emits_ite ?_ last
    exact emits_bind emits_get fun _ => emits_seq (emits_store fun _ => rfl) last

/-! ### The events of the pads -/

theorem harmless_GADR {a : Integer} {t : List (List Integer)} :
    Harmless env (GADR a t : Method σ Integer) := by
  have hderef {t : List (List Integer)} {i j : Integer} :
      Harmless env (deref t i j : Method σ Integer) := by
    unfold deref
    split
    · exact emits_pure
    · exact harmless_halt
  have hvariant : Harmless env (variant : Method σ Integer) :=
    emits_bind harmless_load fun _ => emits_ite emits_pure emits_pure
  refine emits_bind hvariant fun _ => emits_bind hderef fun _ => ?_
  exact emits_bind harmless_load fun _ => emits_bind hderef fun _ => emits_pure

theorem harmless_mode {a : Integer} : Harmless env (mode a : Method σ Integer) :=
  emits_bind harmless_load fun _ => emits_pure

theorem harmless_eachGroup {l : Loop} {body : Integer → Method σ Unit}
    (h : ∀ i, Harmless env (body i)) : Harmless env (eachGroup l body) := by
  have hgroups : Harmless env (groups : Method σ Integer) :=
    emits_bind harmless_load fun _ => emits_ite emits_pure emits_pure
  refine emits_bind hgroups fun _ => harmless_loop (fun _ => emits_pure) fun i => ?_
  exact emits_seq (h (i - 1)) emits_pure

theorem harmless_UGPS : Harmless env (UGPS : Method σ Unit) := by
  have hset {i v : Integer} : Harmless env (setEntry .GPES i v : Method σ Unit) :=
    emits_ite (emits_set fun _ => rfl) harmless_halt
  refine harmless_serialized (harmless_eachGroup fun i => harmless_serialized ?_)
  refine emits_bind harmless_GADR fun _ => emits_bind harmless_mode fun _ => emits_ite ?_ hset
  exact emits_bind harmless_load fun _ => emits_bind harmless_load fun _ => hset

theorem harmless_CGLS : Harmless env (CGLS : Method σ Unit) := by
  refine harmless_serialized (harmless_eachGroup fun i => emits_bind harmless_load fun _ => ?_)
  refine harmless_serialized (emits_bind harmless_mode fun _ => emits_ite ?_ emits_pure)
  exact emits_bind harmless_GADR fun _ => emits_store fun _ => rfl

theorem harmless_CAGS {a : Integer} : Harmless env (CAGS a : Method σ Unit) := by
  refine harmless_serialized (emits_bind harmless_mode fun _ => emits_ite ?_ emits_pure)
  refine emits_bind harmless_GADR fun _ => emits_bind harmless_load fun _ => ?_
  exact emits_bind harmless_load fun _ => emits_store fun _ => rfl

theorem harmless_ISME {a : Integer} : Harmless env (ISME a : Method σ Integer) :=
  emits_bind (emits_ite emits_get harmless_halt) fun _ => emits_pure

end Harmless

/-! ### The pad -/

/-- A controller whose power is forced by the pad `x` of the chipset, with the setting `FPLV`. -/
structure ForcePad (hw : Hardware dsdt σ) (PCHS SBRG FPLV : Integer) (x : PadName PCHS) extends
    Memory hw PCHS SBRG where
  FPGN : Integer
  named : x.Named FPGN
  reads_FPAT : ∀ s, hw.reads .FPAT s = 0
  reads_FPGN : ∀ s, hw.reads .FPGN s = FPGN
  reads_FPLV : ∀ s, hw.reads .FPLV s = FPLV
  /-- What is not a register of the pads does not change them. -/
  sleep : ∀ a t s, dword a (hw.sleep t s) = dword a s
  store : ∀ f v a s, harmless (.store f 0) = true → dword a (hw.store f v s) = dword a s

/-! ### A controller that does not answer -/

/-- It is in native mode and its event is pending, which the first pad reports. -/
def lost (FPLV : BitVec 8) : Hardware dsdt (Integer → BitVec 32) where
  load f s := match f with
    | .FPGN => ((0x02030007 : BitVec 32), s)
    | .FPLV => (FPLV, s)
    | .TBSE | .TNAT | .TBTS => ((1 : BitVec 8), s)
    | .SBUS _ _ => ((1 : BitVec 8), s)
    | .TB2P _ _ => ((0xFFFFFFFF : BitVec 32), s)
    | .TEMP .CNCT _ => ((1 : BitVec 8), s)
    | .STSX _ | .GENX _ => ((1 : BitVec 32), s)
    | f => board.load f s
  store := board.store
  sleep := board.sleep
  stall := board.stall
  timer := board.timer

def lostEnv (FPLV : BitVec 8) : Env dsdt (Integer → BitVec 32) := ⟨lost FPLV, 100⟩

def lostPad (FPLV : BitVec 8) :
    ForcePad (lostEnv FPLV).hw 2 0xFD000000 (FPLV.setWidth 64) boardPad where
  dword a s := s a
  reads_PCHS _ := rfl
  reads_SBRG _ := rfl
  load_pad _ _ _ := rfl
  load_HOWN _ _ := rfl
  load f _ s := by
    cases f with
    | TEMP m _ => cases m <;> rfl
    | _ => rfl
  store_pad _ _ _ _ _ := rfl
  store_HOWN _ _ _ _ := rfl
  FPGN := 0x02030007
  named := ⟨by decide, by decide⟩
  reads_FPAT _ := rfl
  reads_FPGN _ := rfl
  reads_FPLV _ := rfl
  sleep _ _ _ := rfl
  store f _ _ _ hf := by
    cases f <;> first | rfl | cases hf

/-- There is no processor port to look after. -/
theorem lost_ports {FPLV : BitVec 8} :
    ∀ p ∈ processorPorts, ∀ s, (lost FPLV).reads p.1 s ≠ 1 := by
  intro p hp s
  simp only [processorPorts, List.mem_cons, List.not_mem_nil, or_false] at hp
  have hzero : (0 : Integer) ≠ 1 := by decide
  rcases hp with rfl | rfl | rfl
  · exact hzero
  · exact hzero
  · exact hzero

section ForcePad

variable {PCHS SBRG FPLV : Integer} {x : PadName PCHS} (F : ForcePad env.hw PCHS SBRG FPLV x)
  {P : PadName PCHS → Pad} {E : World dsdt σ → Prop}

/-- The pads of the controller. -/
def ForcePad.view {hw : Hardware dsdt σ} (F : ForcePad hw PCHS SBRG FPLV x) (s : State dsdt σ) :
    PadName PCHS → Pad := pads SBRG (F.toMemory.view s)

/-- Whether a store is harmless does not depend on the value. -/
theorem harmless_store {f : Field} {v : Integer} :
    harmless (.store f v) = harmless (.store f 0) := by
  cases f <;> rfl

/-- What is harmless is not seen on the pads. -/
theorem view_of_harmless {s : State dsdt σ} {e : Event dsdt} (he : harmless e = true) :
    F.view (env.hw.after s e) = F.view s := by
  have congr {s' : State dsdt σ} (hdword : ∀ a, F.dword a s'.hw = F.dword a s.hw)
      (hnames : ∀ g, s'.names (.RXEV g) = s.names (.RXEV g)) : F.view s' = F.view s := by
    funext y
    apply Pad.ext
    · exact hdword _
    · exact hdword _
    · exact congrArg (BitVec.extractLsb' y.number 1) (hdword (y.owner SBRG))
    · exact congrArg (BitVec.extractLsb' (2 * y.number) 2) (hnames _)
  cases e with
  | set n v =>
    refine congr (fun _ => rfl) fun g => ?_
    have hne : Name.RXEV g ≠ n := by
      rintro rfl
      cases he
    exact Function.update_of_ne hne v s.names
  | load f v => exact congr (fun a => F.load f a s.hw) fun _ => rfl
  | store f v =>
    rw [harmless_store] at he
    exact congr (fun a => F.store f _ a s.hw he) fun _ => rfl
  | sleep t => exact congr (fun a => F.sleep a t s.hw) fun _ => rfl
  | stall _ => cases he
  | timer _ => cases he
  | enter _ => rfl
  | test _ _ => rfl
  | pass _ _ => rfl

/-- A method that may run for ever, but does not change the pads. -/
abbrev KeepsPads (F : ForcePad env.hw PCHS SBRG FPLV x) (P : PadName PCHS → Pad)
    (m : Method σ α) : Prop :=
  Acts env (fun _ => True) F.view P m fun _ y => y = P

theorem keepsPads_of_harmless {m : Method σ α} (h : Harmless env m) : KeepsPads F P m :=
  acts_of_emits h fun _ _ he => view_of_harmless F he

section Sequence

variable {β : Type} {m : Method σ α} {k : α → Method σ β} {Q : β → (PadName PCHS → Pad) → Prop}

/-- The rule for what follows on a method that keeps the pads. -/
theorem acts_keeping (hm : KeepsPads F P m)
    (hk : ∀ a, Acts env (fun _ => True) F.view P (k a) Q) :
    Acts env (fun _ => True) F.view P (m >>= k) Q := by
  refine acts_bind hm ?_
  rintro a _ rfl
  exact hk a

theorem acts_harmless (hm : Harmless env m)
    (hk : ∀ a, Acts env (fun _ => True) F.view P (k a) Q) :
    Acts env (fun _ => True) F.view P (m >>= k) Q :=
  acts_keeping F (keepsPads_of_harmless F hm) hk

end Sequence

/-- What is known over the dwords is known over the pads. -/
theorem acts_pads {m : Method σ α} {Q : α → (PadName PCHS → Pad) → Prop}
    (h : ∀ v, Shows SBRG P v →
      Acts env E F.toMemory.view v m fun a y => ∃ P', Shows SBRG P' y ∧ Q a P') :
    Acts env E F.view P m Q := by
  rintro w rfl
  refine wp_imp (h (F.toMemory.view w.toState) (shows_iff.mpr rfl) w rfl) ?_
  rintro a w' ⟨P', hshows, ha⟩
  obtain rfl := shows_iff.mp hshows
  exact ha

theorem acts_reads_view {f : Field} {v : Integer} (h : ∀ s, env.hw.reads f s = v) :
    Acts env E F.view P (load f) fun b y => b = v ∧ y = P := by
  refine acts_load ?_
  rintro s rfl
  exact ⟨h s, view_of_harmless F rfl⟩

/-- A setting that does not matter. -/
theorem acts_reads_any {f : Field} : Acts env E F.view P (load f) fun _ y => y = P :=
  acts_load fun _ hs => (view_of_harmless F rfl).trans hs

/-- `TFPS` returns the output of the pad. -/
theorem acts_TFPS : Acts env E F.view P TFPS fun b y =>
    b = ((P x).get .GGOV).setWidth 64 ∧ y = P := by
  refine acts_then (acts_reads_view F F.reads_FPAT) ?_
  refine acts_bind (acts_reads_any F) ?_
  rintro FPEN _ rfl
  refine acts_then (acts_reads_view F F.reads_FPGN) (acts_serialized ?_)
  rw [if_pos rfl, if_pos rfl]
  refine acts_pads F fun v hv => (acts_readPad F.toMemory F.named hv).imp ?_
  rintro b _ ⟨rfl, rfl⟩
  exact ⟨_, hv, rfl, rfl⟩

/-- The level that `TBFP` gives the pad. -/
def driven (on : Prop) [Decidable on] (FPLV : Integer) : BitVec PadField.GGOV.width :=
  if on then FPLV.setWidth PadField.GGOV.width else if FPLV = 0 then 1 else 0

/-- `TBFP` drives the pad. -/
theorem acts_TBFP {a : Integer} : Acts env E F.view P (TBFP a) fun _ y =>
    y = Function.update P x ((P x).put .GGOV (driven (a ≠ 0) FPLV)) := by
  have hCGWR {FPEN v : Integer} : Acts env E F.view P (CGWR 0 FPEN F.FPGN v) fun _ y =>
      y = Function.update P x ((P x).put .GGOV (v.setWidth PadField.GGOV.width)) := by
    refine acts_serialized ?_
    rw [if_pos rfl]
    refine acts_pads F fun v hv => ?_
    exact (acts_writePad F.toMemory F.named hv).imp fun _ _ hy => ⟨_, hy, rfl⟩
  -- both branches look the pad up in the same way
  have args {k : Integer → Integer → Integer → Method σ Unit}
      {R : Unit → (PadName PCHS → Pad) → Prop}
      (hk : ∀ FPEN, Acts env E F.view P (k 0 FPEN F.FPGN) R) :
      Acts env E F.view P (do k (← load .FPAT) (← load .FPEN) (← load .FPGN)) R := by
    refine acts_then (acts_reads_view F F.reads_FPAT) ?_
    refine acts_bind (acts_reads_any F) ?_
    rintro FPEN _ rfl
    exact acts_then (acts_reads_view F F.reads_FPGN) (hk FPEN)
  unfold TBFP
  refine acts_call (acts_ite (fun ha => ?_) fun ha => ?_)
  · refine args (k := fun Arg0 Arg1 Arg2 => do CGWR Arg0 Arg1 Arg2 (← load .FPLV)) fun FPEN => ?_
    refine acts_then (acts_reads_view F F.reads_FPLV) ?_
    rw [driven, if_pos ha]
    exact hCGWR
  · refine args (k := fun Arg0 Arg1 Arg2 => do
      CGWR Arg0 Arg1 Arg2 (truth (decide ((← load .FPLV) = 0)))) fun FPEN => ?_
    refine acts_then (acts_reads_view F F.reads_FPLV) ?_
    have htruth :
        (truth (decide (FPLV = 0))).setWidth PadField.GGOV.width = driven (a ≠ 0) FPLV := by
      rw [driven, if_neg ha]
      by_cases h : FPLV = 0
      · rw [decide_eq_true h, if_pos h]
        rfl
      · rw [decide_eq_false h, if_neg h]
        rfl
    rw [← htruth]
    exact hCGWR

/-- The pad after it has been switched over and back. -/
theorem Pad.put_put {p : Pad} {f : PadField} {b c : BitVec f.width} :
    (p.put f b).put f c = p.put f c := by
  have hinsert (d : BitVec 32) : c.insertAt f.lsb (b.insertAt f.lsb d) = c.insertAt f.lsb d := by
    apply BitVec.eq_of_getLsbD_eq
    intro i hi
    rw [BitVec.getLsbD_insertAt hi, BitVec.getLsbD_insertAt hi, BitVec.getLsbD_insertAt hi]
    split_ifs <;> rfl
  unfold Pad.put
  split_ifs
  · rw [hinsert]
  · rw [hinsert]

theorem acts_force {on : Prop} [Decidable on] {a b : Integer} :
    Acts env E F.view P (RSMI.force on a b) fun _ y => y = Function.update P x
      ((P x).put .GGOV (driven ((if on then a else b) ≠ 0) FPLV)) := by
  unfold RSMI.force
  by_cases hon : on
  · rw [if_pos hon]
    simp only [if_pos hon]
    exact acts_TBFP F
  · rw [if_neg hon]
    simp only [if_neg hon]
    exact acts_TBFP F

theorem driven_congr {on on' : Prop} [Decidable on] [Decidable on'] (h : on ↔ on') :
    driven on FPLV = driven on' FPLV := by
  simp only [driven, h]

/-- What is read off the pad, as `RSMI` tests it. -/
theorem on_iff {l : BitVec PadField.GGOV.width} :
    (if l.setWidth 64 ≠ (0 : Integer) then (1 : Integer) else 0) ≠ 0 ↔ l = 1 := by
  revert l
  decide

/-- **What `RSMI` does to the pads**: nothing, or the pad is left as `TBFP` drives it for what was
read at the start. -/
theorem acts_RSMI : Acts env (fun _ => True) F.view P (RSMI GPCB) fun r y =>
    r ≠ 0 ∧ y = P ∨ r = 0 ∧ y = Function.update P x
      ((P x).put .GGOV (driven ((P x).get .GGOV = 1) FPLV)) := by
  unfold RSMI
  refine acts_then (acts_TFPS F) ?_
  refine acts_harmless F harmless_MMTB fun Local1 => ?_
  refine acts_harmless F harmless_load fun TB2P => ?_
  refine acts_ite (fun _ => acts_pure (.inl ⟨by decide, rfl⟩)) fun _ => ?_
  refine acts_harmless F harmless_CNCT fun Local2 => ?_
  refine acts_ite (fun _ => acts_pure (.inl ⟨by decide, rfl⟩)) fun _ => ?_
  refine acts_harmless F harmless_DRPM fun _ => ?_
  refine acts_bind (acts_force F) ?_
  rintro _ P₁ hP₁
  have hloop : Harmless env (whileLoop .RSMI
      (fun _ => do
        let Local4 ← FFTB GPCB
        let Local5 ← CNCT
        pure (decide (Local4 ≠ 0 ∨ Local5 ≠ 0)))
      (fun Local3 => do
        sleep 0x05
        CLNE
        let Local3 := Local3 + 1
        if 0x14 < Local3 then
          sleep 0x03E8
        if 0x19 < Local3 then
          pure (.leave ())
        else
          pure (.next Local3))
      (fun _ => ()) (0 : Integer) : Method σ Unit) := by
    refine harmless_loop (fun _ => ?_) fun _ =>
      emits_seq harmless_sleep (emits_seq harmless_CLNE ?_)
    · exact emits_bind harmless_FFTB fun _ => emits_bind harmless_CNCT fun _ => emits_pure
    · exact emits_ite (emits_seq harmless_sleep (emits_ite emits_pure emits_pure))
        (emits_ite emits_pure emits_pure)
  refine acts_harmless F hloop fun _ => ?_
  refine acts_bind (acts_force F) ?_
  rintro _ P₂ hP₂
  refine acts_pure (.inr ⟨rfl, ?_⟩)
  rw [hP₂, hP₁, Function.update_idem, Function.update_self, Pad.put_put, driven_congr on_iff]

theorem Pad.put_eq_iff {p : Pad} {f : PadField} {b : BitVec f.width} :
    p.put f b = p ↔ p.get f = b := by
  constructor
  · intro h
    calc p.get f = (p.put f b).get f := by rw [h]
      _ = b := Pad.get_put
  · rintro rfl
    unfold Pad.put Pad.get
    split_ifs
    · rw [BitVec.insertAt_extract]
    · rw [BitVec.insertAt_extract]

theorem level_cases (l : BitVec PadField.GGOV.width) : l = 0 ∨ l = 1 := by
  revert l
  decide

/-- The level that `RSMI` leaves is the one that it found. -/
theorem eq_driven_iff {l : BitVec PadField.GGOV.width} : l = driven (l = 1) FPLV ↔
    l = 1 ∧ FPLV.setWidth 1 = (1 : BitVec 1) ∨ l = 0 ∧ FPLV ≠ 0 := by
  unfold driven
  rcases level_cases l with rfl | rfl
  · rw [if_neg (by decide)]
    by_cases h : FPLV = 0
    · rw [if_pos h]
      refine iff_of_false (by decide) ?_
      rintro (⟨h01, -⟩ | ⟨-, hne⟩)
      · exact absurd h01 (by decide)
      · exact hne h
    · rw [if_neg h]
      exact iff_of_true rfl (.inr ⟨rfl, h⟩)
  · rw [if_pos rfl]
    constructor
    · exact fun h => .inl ⟨rfl, h.symm⟩
    · rintro (⟨-, h⟩ | ⟨h10, -⟩)
      · exact h.symm
      · exact absurd h10 (by decide)

/-- **For which settings `RSMI` leaves the pad as it was**: it has not restarted the controller, or
the pad was high and the setting drives it high, or the pad was low and the setting is not zero. -/
theorem force_power_restored_iff (s : State dsdt σ) {r : Integer} {w : World dsdt σ}
    (hr : RSMI GPCB env s.world = (some r, w)) :
    F.view w.toState = F.view s ↔ r ≠ 0 ∨
      (F.view s x).get .GGOV = 1 ∧ FPLV.setWidth 1 = (1 : BitVec 1) ∨
      (F.view s x).get .GGOV = 0 ∧ FPLV ≠ 0 := by
  rcases wp_of_run hr (acts_RSMI F s.world rfl) with ⟨hne, hview⟩ | ⟨h0, hview⟩
  · exact iff_of_true hview (.inl hne)
  · rw [State.world_toState] at hview
    rw [hview, Function.update_eq_self_iff, Pad.put_eq_iff, eq_driven_iff]
    constructor
    · exact fun h => .inr h
    · rintro (hne | h)
      · exact absurd h0 hne
      · exact h

/-- The setting is zero and the pad low, so it is left high. -/
theorem force_power_restored_iff_lost :
    ∃ w, RSMI 0 (lostEnv 0) boardState.world = (some 0, w) ∧
      ((lostPad 0).view w.toState = (lostPad 0).view boardState ↔ (0 : Integer) ≠ 0 ∨
        ((lostPad 0).view boardState boardPad).get .GGOV = 1 ∧
          ((0 : BitVec 8).setWidth 64).setWidth 1 = (1 : BitVec 1) ∨
        ((lostPad 0).view boardState boardPad).get .GGOV = 0 ∧
          (0 : BitVec 8).setWidth 64 ≠ (0 : Integer)) := by
  have hr : (RSMI 0 (lostEnv 0) boardState.world).1 = some 0 := by decide +kernel
  exact ⟨_, Prod.ext hr rfl, force_power_restored_iff (lostPad 0) boardState (Prod.ext hr rfl)⟩

/-- With a setting that is driven high for on, a restart is not seen on the pads afterwards. -/
theorem acts_RSMI_same (hFPLV : FPLV.setWidth 1 = (1 : BitVec 1)) :
    KeepsPads F P (RSMI GPCB) := by
  refine (acts_RSMI F).imp ?_
  rintro r y (⟨-, rfl⟩ | ⟨-, rfl⟩)
  · rfl
  · have hne : FPLV ≠ 0 := by
      rintro rfl
      exact absurd hFPLV (by decide)
    rw [Function.update_eq_self_iff, Pad.put_eq_iff, eq_driven_iff]
    rcases level_cases ((P x).get .GGOV) with h0 | h1
    · exact .inr ⟨h0, hne⟩
    · exact .inl ⟨h1, hFPLV⟩

/-- A handler leaves the pads as they were. -/
theorem acts_E42 (hFPLV : FPLV.setWidth 1 = (1 : BitVec 1)) :
    KeepsPads F P (_E42 GPCB) := by
  have hnative : KeepsPads F P (_E42.native GPCB) := by
    refine acts_harmless F harmless_load fun TNAT => ?_
    refine acts_ite (fun _ => ?_) fun _ => acts_pure rfl
    refine acts_keeping F (acts_RSMI_same F hFPLV) fun r => ?_
    refine acts_ite (fun _ => acts_pure rfl) fun _ => ?_
    exact acts_harmless F harmless_DMSI fun _ => acts_pure rfl
  have body : KeepsPads F P (_E42.attempt GPCB) := by
    refine acts_harmless F harmless_WWAK fun _ => ?_
    refine acts_harmless F harmless_WSUB fun _ => ?_
    refine acts_keeping F hnative fun b => ?_
    -- nothing that comes after the restart touches the pads
    refine acts_ite (fun _ => acts_pure rfl) fun _ => keepsPads_of_harmless F ?_
    refine emits_bind harmless_GNIS fun _ => emits_ite emits_pure (emits_seq harmless_PGWA ?_)
    exact emits_seq (harmless_call emits_pure) harmless_handle
  have hpass : KeepsPads F P (_E42.pass GPCB) := by
    refine acts_harmless F harmless_load fun CF2T => ?_
    refine acts_ite (fun _ => ?_) fun _ => body
    refine acts_harmless F harmless_load fun CPGN => ?_
    exact acts_harmless F harmless_CAGS fun _ => body
  refine acts_whileLoop_partial (fun _ y => y = P) rfl ?_
  rintro _ _ rfl
  refine acts_pure ?_
  rw [if_pos rfl]
  refine hpass.imp ?_
  intro r y hy
  cases r with
  | next _ => exact hy
  | leave _ => exact hy

theorem acts_THDR (hFPLV : FPLV.setWidth 1 = (1 : BitVec 1)) :
    KeepsPads F P (THDR GPCB) :=
  acts_serialized (acts_E42 F hFPLV)

theorem acts_L6F (hFPLV : FPLV.setWidth 1 = (1 : BitVec 1))
    (hports : ∀ p ∈ processorPorts, ∀ s, env.hw.reads p.1 s ≠ 1) :
    KeepsPads F P (_L6F GPCB) := by
  have hCGLS : KeepsPads F P CGLS := keepsPads_of_harmless F harmless_CGLS
  have hport {GP WK : Field} (h : (GP, WK) ∈ processorPorts) {L6 : Method σ Unit} :
      KeepsPads F P (_L6F.port GP WK L6) := by
    refine acts_bind (Q := fun v y => v ≠ 1 ∧ y = P) ?_ ?_
    · exact acts_load fun s hs => ⟨hports _ h s, (view_of_harmless F rfl).trans hs⟩
    · rintro v _ ⟨hv, rfl⟩
      exact acts_ite (fun h1 => absurd h1 hv) fun _ => acts_pure rfl
  have hall : KeepsPads F P (_L6F.ports : Method σ Unit) := by
    refine acts_keeping F (hport (by simp [processorPorts])) fun _ => ?_
    refine acts_keeping F (hport (by simp [processorPorts])) fun _ => ?_
    exact hport (by simp [processorPorts])
  refine acts_harmless F harmless_UGPS fun _ => ?_
  refine acts_harmless F harmless_load fun RTD3 => acts_keeping F hall fun _ => ?_
  refine acts_harmless F harmless_load fun TBTS => ?_
  refine acts_ite (fun _ => ?_) fun _ => hCGLS
  refine acts_harmless F harmless_load fun CPGN => ?_
  refine acts_harmless F harmless_ISME fun noted => ?_
  refine acts_ite (fun _ => ?_) fun _ => hCGLS
  exact acts_keeping F (acts_THDR F hFPLV) fun _ => hCGLS

/-- **With such a setting every run of a handler leaves all pads as they were**, however often it
starts over and whatever the device does.  `_L6F` must have no processor port to look after, as it
gives the pad of one that has reported to the host. -/
theorem force_power_kept (hFPLV : FPLV.setWidth 1 = (1 : BitVec 1)) {T : Task}
    (hT : T = ._E42 ∨ T = .THDR ∨ T = ._L6F)
    (hports : T = ._L6F → ∀ p ∈ processorPorts, ∀ s, env.hw.reads p.1 s ≠ 1) (s : State dsdt σ) {w : World dsdt σ}
    (hr : T.run GPCB env s.world = (some (), w)) : F.view w.toState = F.view s := by
  rcases hT with rfl | rfl | rfl
  · exact wp_of_run hr (acts_E42 F hFPLV s.world rfl)
  · exact wp_of_run hr (acts_THDR F hFPLV s.world rfl)
  · exact wp_of_run hr (acts_L6F F hFPLV (hports rfl) s.world rfl)

/-- The controller that does not answer is restarted by a pad that is high for on. -/
theorem force_power_kept_lost :
    ∃ w, Task.run 0 ._L6F (lostEnv 1) boardState.world = (some (), w) ∧
      (lostPad 1).view w.toState = (lostPad 1).view boardState := by
  have hr : (Task.run 0 ._L6F (lostEnv 1) boardState.world).1 = some () := by decide +kernel
  have hFPLV : ((1 : BitVec 8).setWidth 64).setWidth 1 = (1 : BitVec 1) := by decide
  exact ⟨_, Prod.ext hr rfl,
    force_power_kept (lostPad 1) hFPLV (.inr (.inr rfl)) (fun _ => lost_ports) boardState (Prod.ext hr rfl)⟩

end ForcePad

end Dsdt
