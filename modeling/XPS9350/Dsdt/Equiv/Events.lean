import XPS9350.Aml.Countdown
import XPS9350.Aml.Sticky
import XPS9350.Aml.Trace
import XPS9350.Dsdt.Equiv.Pads
import XPS9350.Dsdt.Protocol

/-!
# The events of the pads

The pads of a group that share the event `0x6F` report to a status register, in which a bit is
cleared by writing a one to it.  `UGPS` notes what is pending in `GPES`, and `ISME` tells from there
which pad has reported; `CGPS`, `CGLS` and `CAGS` clear.  New events may come in at any time.

* `event_noted`: an event that is pending is told by `ISME` after the next `UGPS` unless it was
  cleared before, and nothing else is told.
* `events_wiped`: `CAGS` clears the events of all pads of a group that shares the event.
* `hot_plug_served`: a pending hot plug gets its handler called.
-/

namespace Dsdt

open Aml Aml.Prog

variable {σ α β : Type} {env : Env dsdt σ} {E : World dsdt σ → Prop} {PCHS SBRG GPEM : Integer}

/-! ### The chipset -/

/-- The number of groups. -/
def groupCount (PCHS : Integer) : ℕ := if PCHS = 1 then 10 else 8

/-- The address of the status register of a group. -/
def statusAddress (PCHS SBRG : Integer) (g : ℕ) : Integer :=
  BitVec.ofNat 64 (item GCOM (row PCHS) g) + SBRG + BitVec.ofNat 64 (item GPEO (row PCHS) g)

/-- The status register that shows the event of the pad. -/
def PadName.status {PCHS : Integer} (SBRG : Integer) (x : PadName PCHS) : dsdt.Field :=
  Field.STSX (statusAddress PCHS SBRG x.group)

/-- The status registers and what governs them. -/
structure Chipset (hw : Hardware dsdt σ) (PCHS SBRG GPEM : Integer) where
  enabled : ℕ → BitVec 32
  mask : ℕ → BitVec 32
  reads_PCHS : ∀ s, hw.reads .PCHS s = PCHS
  reads_SBRG : ∀ s, hw.reads .SBRG s = SBRG
  reads_GPEM : ∀ s, hw.reads .GPEM s = GPEM
  reads_GENX : ∀ g s, hw.reads (.GENX (statusAddress PCHS SBRG g + 0x20)) s = (enabled g).setWidth 64
  reads_G2L : ∀ g s, hw.reads (.G2L (BitVec.ofNat 64 g)) s = (mask g).setWidth 64
  status : ∀ g, Sticky hw (Field.STSX (statusAddress PCHS SBRG g))

/-- The group `g` shares the event `0x6F`. -/
def Shared (GPEM : Integer) (g : ℕ) : Prop :=
  (GPEM >>> (BitVec.ofNat 64 g * 0x02)) &&& (0x03 : Integer) = 0

instance {g : ℕ} : Decidable (Shared GPEM g) := inferInstanceAs (Decidable (_ = _))

section Chipset

variable {hw : Hardware dsdt σ} (C : Chipset hw PCHS SBRG GPEM) (x : PadName PCHS)

/-- The event is pending. -/
def Chipset.Pending (s : State dsdt σ) : Prop := (C.status x.group).Pending x.number s

/-- The event is one that `UGPS` notes: its group shares the event, and it is enabled. -/
def Chipset.Heard : Prop := Shared GPEM x.group ∧ (C.enabled x.group).getLsbD x.number = true

/-- What is seen of an event: whether it is pending and whether it is noted. -/
def Chipset.view (s : State dsdt σ) : Bool × Bool :=
  (((C.status x.group).pending s.hw).getLsbD x.number,
    (s.names (.GPES (BitVec.ofNat 64 x.group))).getLsbD x.number)

end Chipset

/-! ### Calls -/

/-- The calls that note and clear events. -/
inductive EventCall where
  | UGPS | CGPS | CGLS | CAGS (Arg0 : Integer)

/-- The call itself. -/
def EventCall.run : EventCall → Method σ Unit
  | .UGPS => Dsdt.UGPS
  | .CGPS => Dsdt.CGPS
  | .CGLS => Dsdt.CGLS
  | .CAGS Arg0 => Dsdt.CAGS Arg0

/-- The pad is in a group of the chipset. -/
def EventCall.Valid (PCHS : Integer) : EventCall → Prop
  | .CAGS Arg0 => ∃ g < groupCount PCHS, GGRP Arg0 = BitVec.ofNat 64 g
  | _ => True

/-- The processor port is off, or its pad is one of the chipset. -/
def PortReady (hw : Hardware dsdt σ) (PCHS : Integer) (GP WK : Field) : Prop :=
  (∀ s, hw.reads GP s ≠ 1) ∨
    ∃ pad, (∀ s, hw.reads WK s = pad) ∧ (EventCall.CAGS pad).Valid PCHS

/-- The call clears the event `x`. -/
def Chipset.Clears {hw : Hardware dsdt σ} (C : Chipset hw PCHS SBRG GPEM) (x : PadName PCHS) :
    EventCall → Prop
  | .UGPS => False
  | .CGPS => Shared GPEM x.group
  | .CGLS => Shared GPEM x.group ∧ (C.mask x.group).getLsbD x.number = true
  | .CAGS Arg0 => Shared GPEM x.group ∧ GGRP Arg0 = BitVec.ofNat 64 x.group

/-! ### Addresses -/

section Addresses

variable {g g' : ℕ}

theorem groupCount_le (PCHS : Integer) : groupCount PCHS ≤ 10 := by
  unfold groupCount
  split_ifs <;> decide

/-- Every group has pads. -/
theorem item_pos_of_lt (hg : g < groupCount PCHS) : 0 < item GPPG (row PCHS) g := by
  have hrows : (∀ g < 8, 0 < item GPPG 0 g) ∧ ∀ g < 10, 0 < item GPPG 1 g := by decide
  unfold groupCount at hg
  unfold row
  by_cases h1 : PCHS = 1
  · rw [if_pos h1] at hg
    rw [h1, if_neg (by decide)]
    exact hrows.2 g hg
  · rw [if_neg h1] at hg
    split_ifs
    · exact hrows.1 g hg
    · exact hrows.2 g (by omega)

/-- Each group has a status register of its own. -/
theorem status_ne : ∀ r < 2, ∀ g < 10, ∀ g' < 10,
    0 < item GPPG r g ∧ 0 < item GPPG r g' ∧ g ≠ g' → offset GPEO r g ≠ offset GPEO r g' := by
  decide

theorem statusAddress_eq : statusAddress PCHS SBRG g =
    BitVec.ofNat 64 (offset GPEO (row PCHS) g) + SBRG := by
  unfold statusAddress offset
  apply BitVec.eq_of_toNat_eq
  simp only [BitVec.toNat_add, BitVec.toNat_ofNat]
  omega

theorem offset_GPEO_lt : ∀ r < 2, ∀ g < 10, offset GPEO r g < 2 ^ 64 := by decide

theorem statusAddress_ne (hg : g < groupCount PCHS) (hg' : g' < groupCount PCHS) (h : g ≠ g') :
    statusAddress PCHS SBRG g ≠ statusAddress PCHS SBRG g' := by
  have hle := groupCount_le PCHS
  have hr := row_lt PCHS
  rw [statusAddress_eq, statusAddress_eq]
  refine address_ne (offset_GPEO_lt _ hr _ (by omega)) (offset_GPEO_lt _ hr _ (by omega)) ?_
  exact status_ne _ hr _ (by omega) _ (by omega) ⟨item_pos_of_lt hg, item_pos_of_lt hg', h⟩

end Addresses

/-! ### What is seen of an event -/

/-- What was pending still is, under the condition `P`, and what was noted is as it was. -/
def Spares (P : Prop) (y y' : Bool × Bool) : Prop := (P → y.1 = true → y'.1 = true) ∧ y'.2 = y.2

theorem Spares.refl {P : Prop} {y : Bool × Bool} : Spares P y y := ⟨fun _ h => h, rfl⟩

theorem Spares.trans {P : Prop} {y y' y'' : Bool × Bool} (h : Spares P y y')
    (h' : Spares P y' y'') : Spares P y y'' := ⟨fun hP hy => h'.1 hP (h.1 hP hy), h'.2.trans h.2⟩

section View

variable (C : Chipset env.hw PCHS SBRG GPEM) (x : PadName PCHS) {P : Prop} {V : α → Prop}
  {U : β → Prop} {m : Method σ α}

/-- The program ends with a result in `V` and spares the event `x`. -/
def Tells (P : Prop) (m : Method σ α) (V : α → Prop) : Prop :=
  ∀ y, Acts env (fun _ => False) (C.view x) y m fun a y' => V a ∧ Spares P y y'

variable {C x}

/-- **One step**: only a write of a one to its bit clears an event, and only `GPES` notes it. -/
theorem spares_after {s : State dsdt σ} {e : Event dsdt}
    (hclear : P → (clearing (x.status SBRG) e).getLsbD x.number = false)
    (hset : ∀ v, e ≠ .set (.GPES (BitVec.ofNat 64 x.group)) v) :
    Spares P (C.view x s) (C.view x (env.hw.after s e)) := by
  refine ⟨fun hP hp => Sticky.Pending.after (K := C.status x.group) hp (hclear hP), ?_⟩
  unfold Chipset.view
  have hnames : (env.hw.after s e).names (.GPES (BitVec.ofNat 64 x.group)) =
      s.names (.GPES (BitVec.ofNat 64 x.group)) := by
    cases e with
    | set n v =>
      have hne : Name.GPES (BitVec.ofNat 64 x.group) ≠ n := by
        rintro rfl
        exact hset v rfl
      exact Function.update_of_ne hne v s.names
    | _ => rfl
  rw [hnames]

theorem tells_pure {a : α} (h : V a) : Tells C x P (pure a) V :=
  fun _ => acts_pure ⟨h, .refl⟩

theorem tells_bind {f : α → Method σ β} (hm : Tells C x P m V)
    (hf : ∀ a, V a → Tells C x P (f a) U) : Tells C x P (m >>= f) U := by
  intro y
  refine acts_bind (hm y) ?_
  rintro a y₁ ⟨ha, h₁⟩
  exact (hf a ha y₁).imp fun b y₂ hb => ⟨hb.1, h₁.trans hb.2⟩

theorem tells_ite {c : Prop} [Decidable c] {n : Method σ α} (hm : c → Tells C x P m V)
    (hn : ¬ c → Tells C x P n V) : Tells C x P (if c then m else n) V :=
  fun y => acts_ite (fun h => hm h y) fun h => hn h y

theorem tells_serialized {l : Lock} (h : Tells C x P m V) : Tells C x P (serialized l m) V :=
  fun y => acts_serialized (h y)

theorem tells_reads {f : Field} {v : Integer} (h : ∀ s, env.hw.reads f s = v) :
    Tells C x P (load f) (· = v) := by
  refine fun y => acts_load ?_
  rintro s rfl
  exact ⟨h s, spares_after (fun _ => BitVec.getLsbD_zero) fun _ => nofun⟩

theorem tells_load {f : Field} : Tells C x P (load f) fun _ => True := by
  refine fun y => acts_load ?_
  rintro s rfl
  exact ⟨trivial, spares_after (fun _ => BitVec.getLsbD_zero) fun _ => nofun⟩

theorem tells_get {n : Name} : Tells C x P (Prog.get n) fun _ => True :=
  fun _ => acts_get fun _ _ => ⟨trivial, .refl⟩

theorem tells_set {n : Name} {v : Integer} (h : n ≠ .GPES (BitVec.ofNat 64 x.group)) :
    Tells C x P (set n v) fun _ => True := by
  refine fun y => acts_act ?_
  rintro s rfl
  refine ⟨trivial, spares_after (fun _ => BitVec.getLsbD_zero) fun u heq => h ?_⟩
  cases heq
  rfl

theorem tells_store {f : Field} {v : Integer}
    (h : P → (clearing (x.status SBRG) (.store f (dsdt.cut f v))).getLsbD x.number = false) :
    Tells C x P (store f v) fun _ => True := by
  refine fun y => acts_act ?_
  rintro s rfl
  exact ⟨trivial, spares_after h fun _ => nofun⟩

/-! ### Looking registers up -/

theorem tells_variant :
    Tells C x P (variant : Method σ Integer) (· = BitVec.ofNat 64 (row PCHS)) := by
  refine tells_bind (tells_reads C.reads_PCHS) ?_
  rintro _ rfl
  unfold row
  split_ifs <;> exact tells_pure rfl

variable {g : ℕ}

theorem ofNat_lt_ten (hg : g < groupCount PCHS) : BitVec.ofNat 64 g < (0x0A : Integer) := by
  have hle := groupCount_le PCHS
  exact ofNat_group_lt (by omega)

theorem tells_deref (hg : g < groupCount PCHS) {t : List (List Integer)}
    (ht : t ∈ [GCOM, PCFG, HOWN, GPEO]) :
    Tells C x P (deref t (BitVec.ofNat 64 (row PCHS)) (BitVec.ofNat 64 g) : Method σ Integer)
      (· = BitVec.ofNat 64 (item t (row PCHS) g)) := by
  have hr := row_lt PCHS
  have hle := groupCount_le PCHS
  have hitem := deref_items _ hr g (by omega) (item_pos_of_lt hg) t ht
  unfold deref
  rw [BitVec.toNat_ofNat, BitVec.toNat_ofNat, Nat.mod_eq_of_lt (by omega),
    Nat.mod_eq_of_lt (by omega), hitem]
  exact tells_pure rfl

theorem tells_address (hg : g < groupCount PCHS) {t : List (List Integer)}
    (ht : t ∈ [GCOM, PCFG, HOWN, GPEO]) :
    Tells C x P (GADR (BitVec.ofNat 64 g) t : Method σ Integer)
      (· = BitVec.ofNat 64 (item GCOM (row PCHS) g) + SBRG +
        BitVec.ofNat 64 (item t (row PCHS) g)) := by
  refine tells_bind tells_variant ?_
  rintro _ rfl
  refine tells_bind (tells_deref hg (by simp)) ?_
  rintro _ rfl
  refine tells_bind (tells_reads C.reads_SBRG) ?_
  rintro _ rfl
  refine tells_bind (tells_deref hg ht) ?_
  rintro _ rfl
  exact tells_pure rfl

theorem tells_GADR (hg : g < groupCount PCHS) :
    Tells C x P (GADR (BitVec.ofNat 64 g) GPEO : Method σ Integer)
      (· = statusAddress PCHS SBRG g) := tells_address hg (by simp)

theorem tells_mode : Tells C x P (mode (BitVec.ofNat 64 g) : Method σ Integer)
    fun b => b = 0 ↔ Shared GPEM g := by
  refine tells_bind (tells_reads C.reads_GPEM) ?_
  rintro _ rfl
  exact tells_pure Iff.rfl

theorem tells_groups : Tells C x P (groups : Method σ Integer)
    (· = BitVec.ofNat 64 (groupCount PCHS)) := by
  refine tells_bind (tells_reads C.reads_PCHS) ?_
  rintro _ rfl
  unfold groupCount
  split_ifs <;> exact tells_pure rfl

/-! ### Clearing -/

/-- A write to the status register of a group spares what belongs to another group or has no bit in
the value written. -/
theorem tells_clear (hx : x.group < groupCount PCHS) (hg : g < groupCount PCHS) {v : Integer}
    (h : P → g = x.group → v.getLsbD x.number = false) :
    Tells C x P (store (.STSX (statusAddress PCHS SBRG g)) v) fun _ => True := by
  refine tells_store fun hP => ?_
  by_cases hgx : g = x.group
  · subst hgx
    have hn : x.number < dsdt.width (x.status SBRG) :=
      Nat.lt_trans x.number_lt (show 24 < 32 by decide)
    exact (Sticky.getLsbD_clearing_cut hn).trans (h hP rfl)
  · have hne : Field.STSX (statusAddress PCHS SBRG g) ≠ x.status SBRG := fun heq =>
      statusAddress_ne hg hx hgx (Field.STSX.inj heq)
    rw [clearing, if_neg hne]
    exact BitVec.getLsbD_zero

theorem tells_CGP1 (hx : x.group < groupCount PCHS) (hg : g < groupCount PCHS) {v : Integer}
    (h : P → g = x.group → Shared GPEM g → v.getLsbD x.number = false) :
    Tells C x P (CGP1 (BitVec.ofNat 64 g) v) fun _ => True := by
  refine tells_serialized (tells_bind tells_mode fun b hb => tells_ite (fun h0 => ?_) fun _ => ?_)
  · refine tells_bind (tells_GADR hg) ?_
    rintro _ rfl
    exact tells_clear hx hg fun hP hgx => h hP hgx (hb.mp h0)
  · exact tells_pure trivial

/-- The rule for a pass over all groups, the last one first. -/
theorem acts_eachGroup {l : Loop} {body : Integer → Method σ Unit} {y : Bool × Bool}
    (I : ℕ → Bool × Bool → Prop) (hfuel : 10 < env.fuel)
    (init : ∀ y', Spares True y y' → I (groupCount PCHS) y')
    (hbody : ∀ k < groupCount PCHS, ∀ y', I (k + 1) y' →
      Acts env (fun _ => False) (C.view x) y' (body (BitVec.ofNat 64 k)) fun _ z => I k z) :
    Acts env (fun _ => False) (C.view x) y (eachGroup l body) fun _ z => I 0 z := by
  have hle := groupCount_le PCHS
  refine acts_bind (tells_groups (P := True) y) ?_
  rintro _ y₁ ⟨rfl, h₁⟩
  refine acts_whileLoop (fun i b z => i ≤ groupCount PCHS ∧ b = countdown (groupCount PCHS) i ∧
    I (groupCount PCHS - i) z) (groupCount PCHS) (by omega) ⟨Nat.zero_le _, rfl, init y₁ h₁⟩ ?_
  rintro i _ z ⟨hi, rfl, hI⟩
  refine ⟨hi, acts_pure ?_⟩
  by_cases hlast : i = groupCount PCHS
  · subst hlast
    rw [countdown_self, if_neg (by decide)]
    rwa [Nat.sub_self] at hI
  · have hlt : i < groupCount PCHS := by omega
    rw [if_pos (decide_eq_true (countdown_ne_zero (by omega) hlt))]
    obtain ⟨k, hk⟩ : ∃ k, groupCount PCHS - i = k + 1 := ⟨groupCount PCHS - i - 1, by omega⟩
    have hnext : groupCount PCHS - (i + 1) = k := by omega
    dsimp only
    rw [countdown_sub_one (by omega) hlt]
    have hrest : countdown (groupCount PCHS) (i + 1) = BitVec.ofNat 64 k := by
      rw [countdown, hnext]
    rw [hk] at hI
    rw [hrest]
    refine acts_bind (hbody k (by omega) z hI) fun _ z' hz' => acts_pure ?_
    rw [hnext]
    exact ⟨hlt, rfl, hz'⟩

theorem Spares.mono {P' : Prop} {y y' : Bool × Bool} (h : Spares P y y') (hP : P' → P) :
    Spares P' y y' := ⟨fun h' => h.1 (hP h'), h.2⟩

/-- What spares the event in every group spares it. -/
theorem tells_eachGroup {l : Loop} {body : Integer → Method σ Unit} (hfuel : 10 < env.fuel)
    (h : ∀ k < groupCount PCHS, Tells C x P (body (BitVec.ofNat 64 k)) fun _ => True) :
    Tells C x P (eachGroup l body) fun _ => True := by
  intro y
  refine (acts_eachGroup (fun _ z => Spares P y z) hfuel (fun z hz => hz.mono fun _ => trivial)
    fun k hk z hz => ?_).imp fun _ _ hz => ⟨trivial, hz⟩
  exact (h k hk z).imp fun _ _ hz' => hz.trans hz'.2

theorem tells_CGPS (hfuel : 10 < env.fuel) (hx : x.group < groupCount PCHS) :
    Tells C x (¬ C.Clears x .CGPS) CGPS fun _ => True := by
  refine tells_serialized (tells_eachGroup hfuel fun k hk => tells_CGP1 hx hk ?_)
  intro hnot hkx hshared
  rw [hkx] at hshared
  exact absurd hshared hnot

theorem tells_CGLS (hfuel : 10 < env.fuel) (hx : x.group < groupCount PCHS) :
    Tells C x (¬ C.Clears x .CGLS) CGLS fun _ => True := by
  refine tells_serialized (tells_eachGroup hfuel fun k hk => ?_)
  refine tells_bind (tells_reads (C.reads_G2L k)) ?_
  rintro _ rfl
  refine tells_CGP1 hx hk fun hnot hkx hshared => ?_
  subst hkx
  have hbit : (C.mask x.group).getLsbD x.number = false :=
    eq_false_of_ne_true fun hmask => hnot ⟨hshared, hmask⟩
  rw [BitVec.getLsbD_setWidth, hbit, Bool.and_false]

theorem tells_CAGS {Arg0 : Integer} (hx : x.group < groupCount PCHS)
    (hvalid : (EventCall.CAGS Arg0).Valid PCHS) :
    Tells C x (¬ C.Clears x (.CAGS Arg0)) (CAGS Arg0) fun _ => True := by
  obtain ⟨g, hg, hgroup⟩ := hvalid
  unfold CAGS
  rw [hgroup]
  refine tells_serialized (tells_bind tells_mode fun b hb => tells_ite (fun h0 => ?_) fun _ => ?_)
  · refine tells_bind (tells_GADR hg) ?_
    rintro _ rfl
    refine tells_bind tells_load fun _ _ => tells_bind tells_load fun v _ => ?_
    refine tells_clear hx hg fun hnot hgx => absurd ?_ hnot
    subst hgx
    exact ⟨hb.mp h0, hgroup⟩
  · exact tells_pure trivial

/-! ### Noting -/

/-- What `UGPS` does: it spares the event, and notes it if it is pending then. -/
structure Noted (C : Chipset env.hw PCHS SBRG GPEM) (x : PadName PCHS) (y y' : Bool × Bool) :
    Prop where
  spared : y.1 = true → y'.1 = true
  heard : C.Heard x → y.1 = true → y'.2 = true
  told : y'.2 = true → C.Heard x ∧ y'.1 = true

theorem Noted.after {y y' y'' : Bool × Bool} (h : Noted C x y y') (h' : Spares True y' y'') :
    Noted C x y y'' where
  spared hy := h'.1 trivial (h.spared hy)
  heard hheard hy := h'.2.trans (h.heard hheard hy)
  told hy := by
    rw [h'.2] at hy
    exact ⟨(h.told hy).1, h'.1 trivial (h.told hy).2⟩

theorem Noted.before {y y' y'' : Bool × Bool} (h : Spares True y y') (h' : Noted C x y' y'') :
    Noted C x y y'' where
  spared hy := h'.spared (h.1 trivial hy)
  heard hheard hy := h'.heard hheard (h.1 trivial hy)
  told := h'.told

theorem setEntry_eq {v : Integer} (hg : g < groupCount PCHS) :
    (setEntry .GPES (BitVec.ofNat 64 g) v : Method σ Unit) =
      Prog.set (Name.GPES (BitVec.ofNat 64 g)) v := if_pos (ofNat_lt_ten hg)

/-- `UGP1` on another group. -/
theorem tells_UGP1 (hx : x.group < groupCount PCHS) (hg : g < groupCount PCHS)
    (hgx : g ≠ x.group) : Tells C x True (UGP1 (BitVec.ofNat 64 g)) fun _ => True := by
  have hle := groupCount_le PCHS
  have hname : Name.GPES (BitVec.ofNat 64 g) ≠ .GPES (BitVec.ofNat 64 x.group) :=
    fun heq => hgx (group_inj (by omega) (by omega) (Name.GPES.inj heq))
  have hset {v : Integer} :
      Tells C x True (setEntry .GPES (BitVec.ofNat 64 g) v) fun _ => True := by
    rw [setEntry_eq hg]
    exact tells_set hname
  refine tells_serialized (tells_bind (tells_GADR hg) ?_)
  rintro _ rfl
  refine tells_bind tells_mode fun b hb => tells_ite (fun h0 => ?_) fun _ => hset
  exact tells_bind tells_load fun _ _ => tells_bind tells_load fun _ _ => hset

/-- `UGP1` on the group itself. -/
theorem acts_UGP1 (hx : x.group < groupCount PCHS) {y : Bool × Bool} :
    Acts env (fun _ => False) (C.view x) y (UGP1 (BitVec.ofNat 64 x.group))
      fun _ y' => Noted C x y y' := by
  have hset {v : Integer} {z : Bool × Bool} : Acts env (fun _ => False) (C.view x) z
      (setEntry .GPES (BitVec.ofNat 64 x.group) v)
      fun _ z' => z' = (z.1, v.getLsbD x.number) := by
    rw [setEntry_eq hx]
    refine acts_act ?_
    rintro s rfl
    show (_, (Function.update s.names _ v _).getLsbD x.number) = _
    rw [Function.update_self]
    rfl
  refine acts_serialized (acts_bind (tells_GADR (P := True) hx y) ?_)
  rintro _ y₁ ⟨rfl, h₁⟩
  refine acts_bind (tells_mode (P := True) y₁) ?_
  rintro b y₂ ⟨hb, h₂⟩
  refine acts_ite (fun h0 => ?_) fun h0 => ?_
  · -- the value read shows what is pending, and more may come in from then on
    have hread : Acts env (fun _ => False) (C.view x) y₂ (load (x.status SBRG))
        fun v y' => v.getLsbD x.number = y₂.1 ∧ Spares True y₂ y' := by
      refine acts_load ?_
      rintro s rfl
      refine ⟨?_, spares_after (fun _ => BitVec.getLsbD_zero) fun _ => nofun⟩
      have hn : x.number < 64 := Nat.lt_trans x.number_lt (by decide)
      exact (C.status x.group).getLsbD_reads hn
    refine acts_bind hread fun v y₃ ⟨hv, h₃⟩ => ?_
    refine acts_bind (tells_reads (P := True) (C.reads_GENX x.group) y₃) ?_
    rintro _ y₄ ⟨rfl, h₄⟩
    refine hset.imp ?_
    rintro _ _ rfl
    have hbit : (v &&& (C.enabled x.group).setWidth 64).getLsbD x.number =
        (y₂.1 && (C.enabled x.group).getLsbD x.number) := by
      have hn : x.number < 64 := Nat.lt_trans x.number_lt (by decide)
      rw [BitVec.getLsbD_and, hv, BitVec.getLsbD_setWidth, decide_eq_true hn, Bool.true_and]
    rw [hbit]
    have h₂₄ : y₂.1 = true → y₄.1 = true := (h₃.trans h₄).1 trivial
    refine Noted.before (h₁.trans h₂) ⟨h₂₄, fun hheard hy => ?_, fun hy => ?_⟩
    · show (y₂.1 && _) = true
      rw [hy, hheard.2]
      rfl
    · have hboth := (Bool.and_eq_true _ _).mp hy
      exact ⟨⟨hb.mp h0, hboth.2⟩, h₂₄ hboth.1⟩
  · -- the events of the group are not shared, so none of them is noted
    refine hset.imp ?_
    rintro _ _ rfl
    have hunheard : ¬ C.Heard x := fun h => h0 (hb.mpr h.1)
    have hzero : (0 : Integer).getLsbD x.number = false := BitVec.getLsbD_zero
    refine Noted.before (h₁.trans h₂) ⟨fun hy => hy, fun h => absurd h hunheard, fun hy => ?_⟩
    exact absurd (hzero.symm.trans hy) Bool.false_ne_true

/-- The passes of `UGPS` note the event in its own group and spare it in the others. -/
theorem acts_UGPS (hfuel : 10 < env.fuel) (hx : x.group < groupCount PCHS) {y : Bool × Bool} :
    Acts env (fun _ => False) (C.view x) y UGPS fun _ y' => Noted C x y y' := by
  have hpasses : Acts env (fun _ => False) (C.view x) y (eachGroup .UGPS UGP1) fun _ z =>
      (0 ≤ x.group → Noted C x y z) ∧ (x.group < 0 → Spares True y z) := by
    refine acts_eachGroup
      (fun k z => (k ≤ x.group → Noted C x y z) ∧ (x.group < k → Spares True y z)) hfuel ?_ ?_
    · exact fun z hz => ⟨fun hle => absurd hx (Nat.not_lt.mpr hle), fun _ => hz⟩
    · intro k hk z hz
      -- the passes go down from the last group, so the own group comes after the higher ones
      rcases Nat.lt_trichotomy k x.group with hlt | heq | hgt
      · refine (tells_UGP1 hx hk (by omega) z).imp fun _ z' hz' => ⟨fun _ => ?_, fun hgt => ?_⟩
        · exact (hz.1 (by omega)).after hz'.2
        · omega
      · subst heq
        refine (acts_UGP1 hx).imp fun _ z' hz' => ⟨fun _ => ?_, fun hgt => ?_⟩
        · exact hz'.before (hz.2 (by omega))
        · omega
      · refine (tells_UGP1 hx hk (by omega) z).imp fun _ z' hz' => ⟨fun hle => ?_, fun _ => ?_⟩
        · omega
        · exact (hz.2 (by omega)).trans hz'.2
  exact acts_serialized (hpasses.imp fun _ z hz => hz.1 (Nat.zero_le _))

/-- `ISME` tells what is noted. -/
theorem acts_ISME {Arg0 : Integer} (hx : x.group < groupCount PCHS) (hnamed : x.Named Arg0)
    {y : Bool × Bool} : Acts env (fun _ => False) (C.view x) y (ISME Arg0 : Method σ Integer)
      fun b _ => b = 1 ↔ y.2 = true := by
  have hbit (d : Integer) : d >>> BitVec.ofNat 64 x.number &&& 1 = 1 ↔
      d.getLsbD x.number = true := by
    have hn : x.number < 24 := x.number_lt
    have hnat : (BitVec.ofNat 64 x.number).toNat = x.number := by
      rw [BitVec.toNat_ofNat, Nat.mod_eq_of_lt (by omega)]
    have hget : (d >>> x.number).getLsbD 0 = d.getLsbD x.number := by
      rw [BitVec.getLsbD_ushiftRight, Nat.add_zero]
    rw [BitVec.ushiftRight_eq', hnat, show (1 : Integer) = BitVec.twoPow 64 0 by rfl,
      BitVec.and_twoPow, hget]
    cases d.getLsbD x.number <;> decide
  unfold ISME entry
  rw [hnamed.1, hnamed.2, if_pos (ofNat_lt_ten hx)]
  refine acts_bind (acts_get (Q := fun b _ => b.getLsbD x.number = y.2) ?_) ?_
  · rintro s rfl
    rfl
  · exact fun b _ hb => acts_pure ((hbit b).trans (by rw [hb]))

/-! ### The processor ports -/

theorem tells_wakePort {n pad : Integer} {WK : Field} (hWK : ∀ s, env.hw.reads WK s = pad)
    (hpad : (EventCall.CAGS pad).Valid PCHS) :
    Tells C x False (wakePort n WK) fun _ => True := by
  obtain ⟨g, hg, hgroup⟩ := hpad
  have hISME : Tells C x False (ISME pad : Method σ Integer) fun _ => True := by
    unfold ISME entry
    rw [hgroup, if_pos (ofNat_lt_ten hg)]
    exact tells_bind tells_get fun _ _ => tells_pure trivial
  have hSHPO : Tells C x False (SHPO pad 1) fun _ => True := by
    unfold SHPO
    rw [hgroup]
    refine tells_serialized (tells_bind (tells_address hg (by simp)) fun _ _ => ?_)
    exact tells_bind tells_load fun _ _ => tells_store False.elim
  refine tells_bind (tells_reads hWK) ?_
  rintro _ rfl
  refine tells_bind hISME fun _ _ => tells_ite (fun _ => ?_) fun _ => tells_pure trivial
  refine tells_bind (tells_reads hWK) ?_
  rintro _ rfl
  exact tells_bind hSHPO fun _ _ y => acts_call (tells_pure trivial y)

/-- What is done about a processor port may clear an event, but leaves what is noted alone. -/
theorem tells_port {GP WK : Field} {n : Integer} (hx : x.group < groupCount PCHS)
    (hready : PortReady env.hw PCHS GP WK) :
    Tells C x False (_L6F.port GP WK (wakePort n WK)) fun _ => True := by
  rcases hready with hoff | ⟨pad, hWK, hpad⟩
  · intro y
    refine acts_bind (Q := fun v z => v ≠ 1 ∧ Spares False y z) ?_ ?_
    · refine acts_load ?_
      rintro s rfl
      exact ⟨hoff s, spares_after False.elim fun _ => nofun⟩
    · rintro v z ⟨hv, hz⟩
      rw [if_neg hv]
      exact acts_pure ⟨trivial, hz⟩
  · refine tells_bind tells_load fun v _ => tells_ite (fun _ => ?_) fun _ => tells_pure trivial
    refine tells_bind (tells_wakePort hWK hpad) fun _ _ => tells_bind (tells_reads hWK) ?_
    rintro _ rfl
    exact fun y => (tells_CAGS hx hpad y).imp fun _ z hz => ⟨trivial, hz.2.mono False.elim⟩

theorem tells_ports (hx : x.group < groupCount PCHS)
    (hready : ∀ p ∈ processorPorts, PortReady env.hw PCHS p.1 p.2) :
    Tells C x False (_L6F.ports : Method σ Unit) fun _ => True := by
  have hone {p : Field × Field} (hp : p ∈ processorPorts) {n : Integer} :
      Tells C x False (_L6F.port p.1 p.2 (wakePort n p.2)) fun _ => True :=
    tells_port hx (hready p hp)
  refine tells_bind (hone (p := (.SGGP, .P0WK)) (by simp [processorPorts])) fun _ _ => ?_
  refine tells_bind (hone (p := (.P1GP, .P1WK)) (by simp [processorPorts])) fun _ _ => ?_
  exact hone (p := (.P2GP, .P2WK)) (by simp [processorPorts])

end View

/-! ### A quiet chipset -/

/-- All pads share the event, and all events are enabled and under the masks. -/
def quietFields : (f : Field) → Option (BitVec f.width)
  | .PCHS => some (2 : BitVec 16)
  | .SBRG => some (0xFD000000 : BitVec 32)
  | .GPEM => some (0 : BitVec 32)
  | .TBTS => some (1 : BitVec 8)
  | .CPGN => some (0x02030007 : BitVec 32)
  | .SGGP => some (1 : BitVec 8)
  | .P0WK => some (0x02020007 : BitVec 32)
  | .P1GP | .P2GP => some (0 : BitVec 8)
  | .GENX _ | .G2L _ => some (BitVec.allOnes 32)
  | _ => none

def quietEnv : Env dsdt (Snapshot dsdt) := ⟨quiet quietFields, 11⟩

def quietChipset : Chipset quietEnv.hw 2 0xFD000000 0 where
  enabled _ := BitVec.allOnes 32
  mask _ := BitVec.allOnes 32
  reads_PCHS _ := rfl
  reads_SBRG _ := rfl
  reads_GPEM _ := rfl
  reads_GENX _ _ := rfl
  reads_G2L _ _ := rfl
  status _ := quietSticky rfl

/-- All events are pending. -/
def allPending : State dsdt (Snapshot dsdt) := ⟨fun _ => 0, fun _ => BitVec.allOnes _⟩

theorem quiet_heard : quietChipset.Heard boardPad := by
  constructor <;> decide

/-! ### Runs -/

section Runs

variable (C : Chipset env.hw PCHS SBRG GPEM) {x : PadName PCHS}

variable {C}

/-- **One call** other than `UGPS`: what it does not clear is spared. -/
theorem tells_run {c : EventCall} (hfuel : 10 < env.fuel) (hx : x.group < groupCount PCHS)
    (hvalid : c.Valid PCHS) (hc : c ≠ .UGPS) : Tells C x (¬ C.Clears x c) c.run fun _ => True := by
  cases c with
  | UGPS => exact absurd rfl hc
  | CGPS => exact tells_CGPS hfuel hx
  | CGLS => exact tells_CGLS hfuel hx
  | CAGS Arg0 => exact tells_CAGS hx hvalid

/-- Calls that do not clear the event. -/
theorem acts_calls_pending {cs : List EventCall} (hfuel : 10 < env.fuel)
    (hx : x.group < groupCount PCHS) (hcs : ∀ c ∈ cs, c.Valid PCHS) {y : Bool × Bool} :
    Acts env (fun _ => False) (C.view x) y (cs.forM EventCall.run) fun _ y' =>
      (∀ c ∈ cs, ¬ C.Clears x c) → y.1 = true → y'.1 = true := by
  induction cs generalizing y with
  | nil => exact acts_pure fun _ hy => hy
  | cons c cs ih =>
    have hvalid := hcs c List.mem_cons_self
    have hone : Acts env (fun _ => False) (C.view x) y c.run fun _ y' =>
        ¬ C.Clears x c → y.1 = true → y'.1 = true := by
      by_cases hc : c = .UGPS
      · subst hc
        exact (acts_UGPS hfuel hx).imp fun _ z hz _ hy => hz.spared hy
      · exact (tells_run hfuel hx hvalid hc y).imp fun _ z hz hnot hy => hz.2.1 hnot hy
    refine acts_bind hone fun _ z hz => ?_
    refine (ih fun c' hc' => hcs c' (List.mem_cons_of_mem _ hc')).imp fun _ z' hz' hnot hy => ?_
    have hkept : z.1 = true := hz (hnot c List.mem_cons_self) hy
    exact hz' (fun c' hc' => hnot c' (List.mem_cons_of_mem _ hc')) hkept

/-- Calls without `UGPS`. -/
theorem acts_calls_noted {cs : List EventCall} (hfuel : 10 < env.fuel)
    (hx : x.group < groupCount PCHS) (hcs : ∀ c ∈ cs, c.Valid PCHS ∧ c ≠ .UGPS) {y : Bool × Bool} :
    Acts env (fun _ => False) (C.view x) y (cs.forM EventCall.run) fun _ y' => y'.2 = y.2 := by
  induction cs generalizing y with
  | nil => exact acts_pure rfl
  | cons c cs ih =>
    obtain ⟨hvalid, hc⟩ := hcs c List.mem_cons_self
    refine acts_bind (tells_run hfuel hx hvalid hc y) fun _ z hz => ?_
    refine (ih fun c' hc' => hcs c' (List.mem_cons_of_mem _ hc')).imp fun _ z' hz' => ?_
    exact hz'.trans hz.2.2

/-- **No event is lost, and none made up.**  Whatever is called before `UGPS`, and after it up to
the next `UGPS`, and whenever new events come in: an event that is pending is told by `ISME` unless
one of the calls before `UGPS` clears it, and an event that is told is one to be noted and was
pending when `UGPS` came to its end. -/
theorem event_noted (C : Chipset env.hw PCHS SBRG GPEM) {x : PadName PCHS} {Arg0 : Integer}
    (hfuel : 10 < env.fuel) (hx : x.group < groupCount PCHS) (hnamed : x.Named Arg0)
    {cs cs' : List EventCall} (hcs : ∀ c ∈ cs, c.Valid PCHS)
    (hcs' : ∀ c ∈ cs', c.Valid PCHS ∧ c ≠ .UGPS) (s : State dsdt σ) :
    ∃ u r w, (do cs.forM EventCall.run; UGPS) env s.world = (some (), u) ∧
      (do cs'.forM EventCall.run; ISME Arg0) env u = (some r, w) ∧
      (C.Heard x → C.Pending x s → (∀ c ∈ cs, ¬ C.Clears x c) → r = 1) ∧
      (r = 1 → C.Heard x ∧ C.Pending x u.toState) := by
  have hbefore : Acts env (fun _ => False) (C.view x) (C.view x s) (do cs.forM EventCall.run; UGPS)
      fun _ y => (C.Heard x → C.Pending x s → (∀ c ∈ cs, ¬ C.Clears x c) → y.2 = true) ∧
        (y.2 = true → C.Heard x ∧ y.1 = true) := by
    refine acts_bind (acts_calls_pending hfuel hx hcs) fun _ y₁ h₁ => ?_
    refine (acts_UGPS hfuel hx).imp fun _ y₂ h₂ => ⟨fun hheard hp hnot => ?_, h₂.told⟩
    exact h₂.heard hheard (h₁ hnot hp)
  obtain ⟨_, u, hu, hlost, hmade⟩ := hbefore.run rfl
  have hafter : Acts env (fun _ => False) (C.view x) (C.view x u.toState)
      (do cs'.forM EventCall.run; ISME Arg0) fun r _ => r = 1 ↔ (C.view x u.toState).2 = true := by
    refine acts_bind (acts_calls_noted hfuel hx hcs') fun _ y₁ h₁ => ?_
    refine (acts_ISME hx hnamed).imp fun r _ hr => ?_
    rw [hr, h₁]
  obtain ⟨r, w, hw, hr⟩ := wp_false_iff.mp (hafter u rfl)
  refine ⟨u, r, w, hu, hw, fun hheard hp hnot => hr.mpr (hlost hheard hp hnot), fun h1 => ?_⟩
  exact hmade (hr.mp h1)

/-- An event is told although another group and then its own are cleared. -/
theorem event_noted_quiet :
    ∃ u r w, (do [EventCall.CAGS 0x02020007].forM EventCall.run; UGPS) quietEnv allPending.world =
        (some (), u) ∧
      (do [EventCall.CGLS].forM EventCall.run; ISME 0x02030007) quietEnv u = (some r, w) ∧ r = 1 ∧
      quietChipset.Pending boardPad u.toState := by
  have hnamed : boardPad.Named 0x02030007 := ⟨by decide, by decide⟩
  have hcs : ∀ c ∈ [EventCall.CAGS 0x02020007], c.Valid 2 := by
    intro c hc
    rw [List.mem_singleton.mp hc]
    exact ⟨2, by decide, by decide⟩
  have hcs' : ∀ c ∈ [EventCall.CGLS], c.Valid 2 ∧ c ≠ .UGPS := by
    intro c hc
    rw [List.mem_singleton.mp hc]
    exact ⟨trivial, nofun⟩
  have hnot : ∀ c ∈ [EventCall.CAGS 0x02020007], ¬ quietChipset.Clears boardPad c := by
    intro c hc
    rw [List.mem_singleton.mp hc]
    rintro ⟨-, hgroup⟩
    exact absurd hgroup (by decide)
  obtain ⟨u, r, w, hu, hw, hlost, hmade⟩ :=
    event_noted quietChipset (by decide) (by decide) hnamed hcs hcs' allPending
  have hr : r = 1 := hlost quiet_heard rfl hnot
  exact ⟨u, r, w, hu, hw, hr, (hmade hr).2⟩

/-- **`CAGS` clears the events of the whole group**, though it is called for one pad: all that is
pending afterwards has come in during the call.  This is so for a group that shares the event `0x6F`
(a mode of zero in `GPEM`); in others it writes nothing. -/
theorem events_wiped (C : Chipset env.hw PCHS SBRG GPEM) {Arg0 : Integer} {g : ℕ}
    (hg : g < groupCount PCHS) (hgroup : GGRP Arg0 = BitVec.ofNat 64 g) (hshared : Shared GPEM g)
    (s : State dsdt σ) : ∃ w, CAGS Arg0 env s.world = (some (), w) ∧
      ∀ i, (C.status g).Pending i w.toState → (C.status g).Came i s.world w := by
  let x : PadName PCHS := ⟨g, 0, item_pos_of_lt hg⟩
  have hwp : wp env (fun _ => False) (CAGS Arg0) (fun _ w => (C.status g).Fresh s.world w)
      s.world := by
    unfold CAGS serialized Acquire Release
    rw [hgroup]
    refine Sticky.wp_bind_path (Q := fun _ _ => True) (wp_call.mpr (wp_pure.mpr trivial)) ?_
    rintro _ w₁ - h₁
    refine Sticky.wp_bind_path (Q := fun _ w => (C.status g).Fresh w₁ w) ?_ fun _ w₂ hfresh h₂ => ?_
    · refine Sticky.wp_bind_path (tells_mode (C := C) (x := x) (P := True) _ w₁ rfl) ?_
      rintro b w₂ ⟨hb, -⟩ h₂
      rw [if_pos (hb.mpr hshared)]
      refine Sticky.wp_bind_path (tells_GADR (C := C) (x := x) (P := True) hg _ w₂ rfl) ?_
      rintro _ w₃ ⟨rfl, -⟩ h₃
      refine Sticky.wp_bind_path (tells_load (C := C) (x := x) (P := True) _ w₃ rfl) ?_
      rintro v w₄ - h₄
      -- what was pending at this moment is cleared by the ones that are written
      refine wp_imp (Sticky.wp_store_or (K := C.status g) (show 32 ≤ 64 by decide)) ?_
      exact fun _ w₅ h => h.of_path (h₂.trans (h₃.trans h₄))
    · refine Sticky.wp_bind_path (Q := fun _ _ => True) (wp_call.mpr (wp_pure.mpr trivial)) ?_
      rintro _ w₃ - h₃
      exact wp_pure.mpr ((hfresh.path h₂ h₃).of_path h₁)
  obtain ⟨_, w, hw, hfresh⟩ := wp_false_iff.mp hwp
  exact ⟨w, hw, hfresh⟩

/-- Nothing comes in, so nothing is pending afterwards. -/
theorem events_wiped_quiet :
    ∃ w, CAGS 0x02030007 quietEnv allPending.world = (some (), w) ∧
      ∀ i, (quietChipset.status 3).Pending i w.toState →
        (quietChipset.status 3).Came i allPending.world w :=
  events_wiped quietChipset (by decide) (by decide) (by decide) allPending

/-- What has happened has happened. -/
theorem mem_events_of_path {P : World dsdt σ → Event dsdt → Prop} {w w' : World dsdt σ}
    {e : Event dsdt} (hpath : Path env.hw P w w') (h : e ∈ w.events) : e ∈ w'.events :=
  hpath.invariant (I := fun u => e ∈ u.events) h fun _ _ hu _ _ => List.mem_cons_of_mem _ hu

/-- The handler is called. -/
def handled : Event dsdt := .enter (Invocation.Acquire .THDR)

/-- **A hot plug that is pending is served**: whenever `_L6F` is started while the event of the
Thunderbolt pad is pending, the handler is called, whatever comes in meanwhile.  The pads of the
processor ports, which come first, must be pads of the chipset: the name of another one ends the
method at the package `GPES`. -/
theorem hot_plug_served (C : Chipset env.hw PCHS SBRG GPEM) {GPCB CPGN : Integer} {x : PadName PCHS}
    (hfuel : 10 < env.fuel) (hx : x.group < groupCount PCHS) (hnamed : x.Named CPGN)
    (hTBTS : ∀ s, env.hw.reads .TBTS s = 1) (hCPGN : ∀ s, env.hw.reads .CPGN s = CPGN)
    (hports : ∀ p ∈ processorPorts, PortReady env.hw PCHS p.1 p.2) (hheard : C.Heard x) (s : State dsdt σ) (hpending : C.Pending x s) :
    handled ∈ (_L6F GPCB env s.world).2.events := by
  have hrest {m : Method σ Unit} {w : World dsdt σ} (h : handled ∈ w.events) :
      wp env (fun w' => handled ∈ w'.events) m (fun _ w' => handled ∈ w'.events) w :=
    wp_of_emits (P := fun _ _ => True) (fun u => m.path env u)
      (fun _ hpath => mem_events_of_path hpath h) fun _ _ hpath => mem_events_of_path hpath h
  -- up to the handler the method comes through, and what was noted stays noted
  have next {α : Type} {m : Method σ α} {V : α → Prop} {f : α → Method σ Unit} {w : World dsdt σ}
      (h : Tells C x False m V) (hy : (C.view x w.toState).2 = true)
      (hf : ∀ a w', V a → (C.view x w'.toState).2 = true →
        wp env (fun w' => handled ∈ w'.events) (f a) (fun _ w' => handled ∈ w'.events) w') :
      wp env (fun w' => handled ∈ w'.events) (m >>= f) (fun _ w' => handled ∈ w'.events) w := by
    rw [wp_bind]
    refine wp_mono (h _ w rfl) (fun _ hfalse => hfalse.elim) ?_
    rintro a w' ⟨ha, hspared⟩
    exact hf a w' ha (hspared.2.trans hy)
  refine wp_snd (R := fun w => handled ∈ w.events) ?_
  unfold _L6F
  rw [wp_bind]
  refine wp_mono (acts_UGPS (C := C) hfuel hx s.world rfl) (fun _ hfalse => hfalse.elim) ?_
  intro _ w₁ hnoted
  refine next tells_load (hnoted.heard hheard hpending) fun _ w₂ _ h₂ => ?_
  refine next (tells_ports hx hports) h₂ fun _ w₃ _ h₃ => ?_
  refine next (tells_reads hTBTS) h₃ ?_
  rintro _ w₄ rfl h₄
  rw [if_pos rfl]
  refine next (tells_reads hCPGN) h₄ ?_
  rintro _ w₅ rfl h₅
  rw [wp_bind]
  refine wp_mono (acts_ISME (C := C) hx hnamed w₅ rfl) (fun _ hfalse => hfalse.elim) fun r w₆ hr => ?_
  -- from here on the handler may fail to end, but it has been called
  rw [hr.mpr h₅, if_pos (by decide), wp_bind]
  have hTHDR : wp env (fun w' => handled ∈ w'.events) (THDR GPCB)
      (fun _ w' => handled ∈ w'.events) w₆ := by
    unfold THDR serialized Acquire
    rw [wp_bind, wp_call, wp_pure]
    exact hrest List.mem_cons_self
  exact wp_imp hTHDR fun _ _ h => hrest h

theorem hot_plug_served_quiet : handled ∈ (_L6F 0 quietEnv allPending.world).2.events := by
  have hnamed : boardPad.Named 0x02030007 := ⟨by decide, by decide⟩
  have hports : ∀ p ∈ processorPorts, PortReady quietEnv.hw 2 p.1 p.2 := by
    have hoff : (0 : Integer) ≠ 1 := by decide
    refine List.forall_mem_cons.mpr ⟨.inr ⟨0x02020007, fun _ => rfl, 2, by decide, by decide⟩, ?_⟩
    exact List.forall_mem_cons.mpr ⟨.inl fun _ => hoff,
      List.forall_mem_singleton.mpr (.inl fun _ => hoff)⟩
  exact hot_plug_served quietChipset (by decide) (by decide) hnamed (fun _ => rfl)
    (fun _ => rfl) hports quiet_heard allPending rfl

end Runs

end Dsdt
