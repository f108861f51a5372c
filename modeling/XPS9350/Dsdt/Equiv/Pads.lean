import Mathlib.Algebra.Ring.Nat
import XPS9350.Aml.BitField
import XPS9350.Aml.View
import XPS9350.Dsdt.Gpio

/-!
# Pads

What the accessors of the GPIO controller do to its pads.  A pad has two configuration dwords, an
owner, and the routing of its interrupt that `DIPI` remembers; all of that lies in dwords and
packages that it shares with other pads or that stand next to theirs.

* `Pad` is a pad by itself, and `Call.effect` what a call does to it.
* `calls_refine`: any calls on any pads do to the controller what they do to the pads by themselves.
* `restored_iff`: when `DIPI` and `UIPI` leave the routing of a pad as it was.
-/

namespace Dsdt

open Aml Aml.Prog

variable {σ α : Type} {env : Env dsdt σ}

/-! ### Where a pad is -/

/-- The entry of a package, zero where there is none. -/
def item (t : List (List Integer)) (row group : ℕ) : ℕ :=
  ((t[row]?.bind (·[group]?)).getD 0).toNat

/-- The row of the packages for the chipset `PCHS`. -/
def row (PCHS : Integer) : ℕ := if PCHS = 2 then 0 else 1

/-- The offset of a register of the group `group`. -/
def offset (t : List (List Integer)) (row group : ℕ) : ℕ := item GCOM row group + item t row group

/-- A pad of the chipset. -/
structure PadName (PCHS : Integer) where
  group : ℕ
  number : ℕ
  lt : number < item GPPG (row PCHS) group
  deriving DecidableEq

/-- The offset of its first configuration dword. -/
def PadName.slot {PCHS : Integer} (x : PadName PCHS) : ℕ :=
  offset PCFG (row PCHS) x.group + 8 * x.number

/-- The address of its first configuration dword. -/
def PadName.address {PCHS : Integer} (SBRG : Integer) (x : PadName PCHS) : Integer :=
  BitVec.ofNat 64 (item GCOM (row PCHS) x.group) + SBRG +
    BitVec.ofNat 64 (item PCFG (row PCHS) x.group) + BitVec.ofNat 64 x.number * 8

/-- The address of the host ownership register of its group. -/
def PadName.owner {PCHS : Integer} (SBRG : Integer) (x : PadName PCHS) : Integer :=
  BitVec.ofNat 64 (item GCOM (row PCHS) x.group) + SBRG +
    BitVec.ofNat 64 (item HOWN (row PCHS) x.group)

/-- The argument that names a pad. -/
def PadName.Named {PCHS : Integer} (x : PadName PCHS) (Arg0 : Integer) : Prop :=
  GGRP Arg0 = BitVec.ofNat 64 x.group ∧ GNMB Arg0 = BitVec.ofNat 64 x.number

section Packages

variable {r g : ℕ}

/-- The packages have no more than ten groups. -/
theorem item_GPPG_eq_zero (h : 10 ≤ g) : item GPPG r g = 0 := by
  obtain ⟨k, rfl⟩ := Nat.exists_eq_add_of_le' h
  rcases r with _ | _ | r <;> rfl

/-- The groups of a chipset have their pads in different places. -/
theorem slots_disjoint : ∀ r < 2, ∀ g < 10, ∀ g' < 10, g ≠ g' →
    offset PCFG r g + 8 * item GPPG r g ≤ offset PCFG r g' ∨
      offset PCFG r g' + 8 * item GPPG r g' ≤ offset PCFG r g := by
  decide

/-- The ownership registers are in other places. -/
theorem owners_beside : ∀ r < 2, ∀ g < 10, ∀ g' < 10, 0 < item GPPG r g ∧ 0 < item GPPG r g' →
    offset HOWN r g + 4 ≤ offset PCFG r g' ∨
      offset PCFG r g' + 8 * item GPPG r g' ≤ offset HOWN r g := by
  decide

/-- Each group has an ownership register of its own. -/
theorem owners_ne : ∀ r < 2, ∀ g < 10, ∀ g' < 10,
    0 < item GPPG r g ∧ 0 < item GPPG r g' ∧ g ≠ g' → offset HOWN r g ≠ offset HOWN r g' := by
  decide

theorem item_le : ∀ r < 2, ∀ g < 10, item GPPG r g ≤ 24 ∧ item GCOM r g ≤ 0x00AF0000 ∧
    item PCFG r g ≤ 0x0768 ∧ item HOWN r g ≤ 0xE4 := by
  decide

/-- The packages have an entry for every group with pads. -/
theorem deref_items : ∀ r < 2, ∀ g < 10, 0 < item GPPG r g → ∀ t ∈ [GCOM, PCFG, HOWN, GPEO],
    t[r]?.bind (·[g]?) = some (BitVec.ofNat 64 (item t r g)) := by
  decide

end Packages

section PadName

variable {PCHS SBRG : Integer} {x y : PadName PCHS}

theorem row_lt (PCHS : Integer) : row PCHS < 2 := by
  unfold row
  split_ifs <;> decide

theorem PadName.group_lt (x : PadName PCHS) : x.group < 10 := by
  by_contra h
  have hlt := x.lt
  rw [item_GPPG_eq_zero (by omega)] at hlt
  omega

theorem PadName.number_lt (x : PadName PCHS) : x.number < 24 :=
  Nat.lt_of_lt_of_le x.lt (item_le _ (row_lt PCHS) _ x.group_lt).1

/-- The groups have entries of their own in `GPES` and `RXEV`. -/
theorem ofNat_group_lt (hg : g < 10) : BitVec.ofNat 64 g < (0x0A : Integer) := by bv_omega

theorem group_inj {g' : ℕ} (hg : g < 10) (hg' : g' < 10)
    (h : BitVec.ofNat 64 g = BitVec.ofNat 64 g') : g = g' := by
  have hnat := congrArg BitVec.toNat h
  rw [BitVec.toNat_ofNat, BitVec.toNat_ofNat] at hnat
  omega

theorem PadName.Named.GGRP_lt {x : PadName PCHS} {Arg0 : Integer} (hx : x.Named Arg0) :
    GGRP Arg0 < 0x0A := by
  rw [hx.1]
  exact ofNat_group_lt x.group_lt

theorem PadName.address_eq (x : PadName PCHS) :
    x.address SBRG = BitVec.ofNat 64 x.slot + SBRG := by
  unfold PadName.address PadName.slot offset
  apply BitVec.eq_of_toNat_eq
  simp only [BitVec.toNat_add, BitVec.toNat_mul, BitVec.toNat_ofNat, BitVec.ofNat_eq_ofNat]
  omega

theorem PadName.owner_eq (x : PadName PCHS) :
    x.owner SBRG = BitVec.ofNat 64 (offset HOWN (row PCHS) x.group) + SBRG := by
  unfold PadName.owner offset
  apply BitVec.eq_of_toNat_eq
  simp only [BitVec.toNat_add, BitVec.toNat_ofNat]
  omega

theorem PadName.slot_lt (x : PadName PCHS) : x.slot + 8 < 2 ^ 64 := by
  obtain ⟨h₁, h₂, h₃, -⟩ := item_le _ (row_lt PCHS) _ x.group_lt
  have hlt := x.lt
  unfold PadName.slot offset
  omega

/-- Different pads do not overlap. -/
theorem PadName.slot_disjoint (h : x ≠ y) : x.slot + 8 ≤ y.slot ∨ y.slot + 8 ≤ x.slot := by
  have hx := x.lt
  have hy := y.lt
  unfold PadName.slot
  by_cases hg : x.group = y.group
  · have hn : x.number ≠ y.number := by
      intro hn
      apply h
      cases x
      cases y
      cases hg
      cases hn
      rfl
    rw [hg]
    omega
  · have := slots_disjoint _ (row_lt PCHS) _ x.group_lt _ y.group_lt hg
    omega

/-- Addresses of dwords at different offsets. -/
theorem address_ne {a b : ℕ} (ha : a < 2 ^ 64) (hb : b < 2 ^ 64) (h : a ≠ b) :
    BitVec.ofNat 64 a + SBRG ≠ BitVec.ofNat 64 b + SBRG := by
  intro heq
  have hcancel : BitVec.ofNat 64 a = BitVec.ofNat 64 b := by bv_omega
  have hnat := congrArg BitVec.toNat hcancel
  rw [BitVec.toNat_ofNat, BitVec.toNat_ofNat, Nat.mod_eq_of_lt ha, Nat.mod_eq_of_lt hb] at hnat
  exact h hnat

/-- The two dwords of a pad. -/
theorem PadName.address_add_four (x : PadName PCHS) :
    x.address SBRG + 4 = BitVec.ofNat 64 (x.slot + 4) + SBRG := by
  rw [x.address_eq]
  apply BitVec.eq_of_toNat_eq
  simp only [BitVec.toNat_add, BitVec.toNat_ofNat, BitVec.ofNat_eq_ofNat]
  omega

end PadName

/-! ### Pads by themselves -/

/-- Where a field unit begins in its dword. -/
def PadField.lsb : PadField → ℕ
  | .PDW0 | .PDW1 | .GGOV => 0
  | .GGIV => 1
  | .RDIS => 9
  | .GPMV | .SGWP => 10
  | .SGRA => 20
  | .GGII => 23
  | .RCFG => 25
  | .SRXO => 28

theorem PadField.offset_cases (f : PadField) : f.offset = 0 ∨ f.offset = 4 := by
  cases f <;> first | exact .inl rfl | exact .inr rfl

/-- A pad by itself. -/
@[ext] structure Pad where
  /-- The configuration dwords. -/
  dw0 : BitVec 32
  dw1 : BitVec 32
  /-- Whether the host owns it. -/
  host : BitVec 1
  /-- The routing of its interrupt that is remembered in `RXEV`. -/
  kept : BitVec 2
  deriving DecidableEq

/-- A field unit of a pad. -/
def Pad.get (x : Pad) (f : PadField) : BitVec f.width :=
  (if f.offset = 0 then x.dw0 else x.dw1).extractLsb' f.lsb f.width

/-- The pad with a field unit set. -/
def Pad.put (x : Pad) (f : PadField) (v : BitVec f.width) : Pad :=
  if f.offset = 0 then { x with dw0 := v.insertAt f.lsb x.dw0 }
  else { x with dw1 := v.insertAt f.lsb x.dw1 }

/-- The calls of the accessors. -/
inductive Call where
  | GPC0 | SPC0 (Arg1 : Integer) | GPC1 | SPC1 (Arg1 : Integer) | SRXO (Arg1 : Integer)
  | GGIV | GGOV | SGOV (Arg1 : Integer) | GGII | SGII (Arg1 : Integer)
  | GPMV | SPMV (Arg1 : Integer) | SGRA (Arg1 : Integer) | SGWP (Arg1 : Integer)
  | GHPO | SHPO (Arg1 : Integer) | DIPI | UIPI
  deriving DecidableEq

/-- Call an accessor for the pad `Arg0`; zero stands for no result. -/
def Call.run (Arg0 : Integer) : Call → Method σ Integer
  | .GPC0 => Dsdt.GPC0 Arg0
  | .SPC0 Arg1 => do Dsdt.SPC0 Arg0 Arg1; pure 0
  | .GPC1 => Dsdt.GPC1 Arg0
  | .SPC1 Arg1 => do Dsdt.SPC1 Arg0 Arg1; pure 0
  | .SRXO Arg1 => do Dsdt.SRXO Arg0 Arg1; pure 0
  | .GGIV => Dsdt.GGIV Arg0
  | .GGOV => Dsdt.GGOV Arg0
  | .SGOV Arg1 => do Dsdt.SGOV Arg0 Arg1; pure 0
  | .GGII => Dsdt.GGII Arg0
  | .SGII Arg1 => do Dsdt.SGII Arg0 Arg1; pure 0
  | .GPMV => Dsdt.GPMV Arg0
  | .SPMV Arg1 => do Dsdt.SPMV Arg0 Arg1; pure 0
  | .SGRA Arg1 => do Dsdt.SGRA Arg0 Arg1; pure 0
  | .SGWP Arg1 => do Dsdt.SGWP Arg0 Arg1; pure 0
  | .GHPO => Dsdt.GHPO Arg0
  | .SHPO Arg1 => do Dsdt.SHPO Arg0 Arg1; pure 0
  | .DIPI => do Dsdt.DIPI Arg0; pure 0
  | .UIPI => do Dsdt.UIPI Arg0; pure 0

/-- The ownership of a pad is one bit. -/
def Call.Fits : Call → Prop
  | .SHPO Arg1 => Arg1 = 0 ∨ Arg1 = 1
  | _ => True

/-- What a call does to its pad. -/
def Call.effect (x : Pad) : Call → Integer × Pad
  | .GPC0 => ((x.get .PDW0).setWidth 64, x)
  | .SPC0 Arg1 => (0, x.put .PDW0 (Arg1.setWidth _))
  | .GPC1 => ((x.get .PDW1).setWidth 64, x)
  | .SPC1 Arg1 => (0, x.put .PDW1 (Arg1.setWidth _))
  | .SRXO Arg1 => (0, x.put .SRXO (Arg1.setWidth _))
  | .GGIV => ((x.get .GGIV).setWidth 64, x)
  | .GGOV => ((x.get .GGOV).setWidth 64, x)
  | .SGOV Arg1 => (0, x.put .GGOV (Arg1.setWidth _))
  | .GGII => ((x.get .GGII).setWidth 64, x)
  | .SGII Arg1 => (0, x.put .GGII (Arg1.setWidth _))
  | .GPMV => ((x.get .GPMV).setWidth 64, x)
  | .SPMV Arg1 => (0, x.put .GPMV (Arg1.setWidth _))
  | .SGRA Arg1 => (0, x.put .SGRA (Arg1.setWidth _))
  | .SGWP Arg1 => (0, x.put .SGWP (Arg1.setWidth _))
  | .GHPO => (x.host.setWidth 64, x)
  | .SHPO Arg1 => (0, { x with host := Arg1.setWidth 1 })
  | .DIPI =>
    if x.get .RCFG = 2 then (0, x)
    else (0, ({ x with kept := x.get .RCFG }.put .RCFG 2).put .RDIS 1)
  | .UIPI => if x.kept = 2 then (0, x) else (0, (x.put .RDIS 0).put .RCFG x.kept)

/-- The calls of a program, each with its pad, one after the other. -/
def runCalls : List (Integer × Call) → Method σ (List Integer)
  | [] => pure []
  | (Arg0, c) :: cs => do
    let v ← c.run Arg0
    let vs ← runCalls cs
    pure (v :: vs)

section Outcome

variable {PCHS : Integer}

/-- What calls do to the pads by themselves. -/
def outcome (P : PadName PCHS → Pad) :
    List (PadName PCHS × Call) → List Integer × (PadName PCHS → Pad)
  | [] => ([], P)
  | (x, c) :: cs =>
    let (v, p) := c.effect (P x)
    let (vs, P') := outcome (Function.update P x p) cs
    (v :: vs, P')

end Outcome

/-! ### The controller -/

/-- The names and the dwords of memory. -/
abbrev View : Type := State dsdt (Integer → BitVec 32)

/-- A controller that is accessed through memory, and keeps what is written there while nobody else
changes it. -/
structure Memory (hw : Hardware dsdt σ) (PCHS SBRG : Integer) where
  dword : Integer → σ → BitVec 32
  reads_PCHS : ∀ s, hw.reads .PCHS s = PCHS
  reads_SBRG : ∀ s, hw.reads .SBRG s = SBRG
  load_pad : ∀ f a s, (hw.load (.pad f a) s).1 = (dword a s).extractLsb' f.lsb f.width
  load_HOWN : ∀ a s, (hw.load (.HOWN a) s).1 = dword a s
  load : ∀ f a s, dword a (hw.load f s).2 = dword a s
  store_pad : ∀ f (v : BitVec f.width) a b s,
    dword b (hw.store (.pad f a) v s) = if b = a then v.insertAt f.lsb (dword a s) else dword b s
  store_HOWN : ∀ v a b s, dword b (hw.store (.HOWN a) v s) = if b = a then v else dword b s

/-- What is seen of the state. -/
def Memory.view {hw : Hardware dsdt σ} {PCHS SBRG : Integer} (M : Memory hw PCHS SBRG)
    (s : State dsdt σ) : View := ⟨s.names, fun a => M.dword a s.hw⟩

/-- The view shows the pad `p` under the name `x`. -/
structure ShowsPad {PCHS : Integer} (SBRG : Integer) (v : View) (x : PadName PCHS) (p : Pad) :
    Prop where
  dw0 : v.hw (x.address SBRG) = p.dw0
  dw1 : v.hw (x.address SBRG + 4) = p.dw1
  host : (v.hw (x.owner SBRG)).extractLsb' x.number 1 = p.host
  kept : (v.names (.RXEV (BitVec.ofNat 64 x.group))).extractLsb' (2 * x.number) 2 = p.kept

/-- The view shows all pads. -/
def Shows {PCHS : Integer} (SBRG : Integer) (P : PadName PCHS → Pad) (v : View) : Prop :=
  ∀ x, ShowsPad SBRG v x (P x)

/-- The pads that a view shows. -/
def pads {PCHS : Integer} (SBRG : Integer) (v : View) (x : PadName PCHS) : Pad where
  dw0 := v.hw (x.address SBRG)
  dw1 := v.hw (x.address SBRG + 4)
  host := (v.hw (x.owner SBRG)).extractLsb' x.number 1
  kept := (v.names (.RXEV (BitVec.ofNat 64 x.group))).extractLsb' (2 * x.number) 2

section Shows

variable {PCHS SBRG : Integer} {P : PadName PCHS → Pad} {v : View} {x y : PadName PCHS}

theorem shows_iff : Shows SBRG P v ↔ pads SBRG v = P := by
  constructor
  · intro h
    funext x
    exact Pad.ext (h x).dw0 (h x).dw1 (h x).host (h x).kept
  · rintro rfl x
    exact ⟨rfl, rfl, rfl, rfl⟩

theorem PadName.address_inj (h : x.address SBRG = y.address SBRG) : x = y := by
  by_contra hne
  have hdisjoint := PadName.slot_disjoint hne
  have hx := x.slot_lt
  have hy := y.slot_lt
  rw [x.address_eq, y.address_eq] at h
  exact address_ne (by omega) (by omega) (by omega) h

theorem PadName.address_add_four_inj (h : x.address SBRG + 4 = y.address SBRG + 4) : x = y := by
  by_contra hne
  have hdisjoint := PadName.slot_disjoint hne
  have hx := x.slot_lt
  have hy := y.slot_lt
  rw [x.address_add_four, y.address_add_four] at h
  exact address_ne (by omega) (by omega) (by omega) h

theorem PadName.address_ne_add_four : x.address SBRG ≠ y.address SBRG + 4 := by
  intro h
  have hx := x.slot_lt
  have hy := y.slot_lt
  rw [x.address_eq, y.address_add_four] at h
  by_cases hxy : x = y
  · subst hxy
    exact address_ne (by omega) (by omega) (by omega) h
  · have hdisjoint := PadName.slot_disjoint hxy
    exact address_ne (by omega) (by omega) (by omega) h

/-- The ownership registers are not configuration dwords. -/
theorem PadName.owner_ne (x y : PadName PCHS) :
    y.owner SBRG ≠ x.address SBRG ∧ y.owner SBRG ≠ x.address SBRG + 4 := by
  have hx := x.slot_lt
  have hlt := x.lt
  have hpos := y.lt
  have hbeside := owners_beside _ (row_lt PCHS) _ y.group_lt _ x.group_lt ⟨by omega, by omega⟩
  obtain ⟨-, hcom, -, hown⟩ := item_le _ (row_lt PCHS) _ y.group_lt
  have hle : offset HOWN (row PCHS) y.group < 2 ^ 64 := by
    unfold offset
    omega
  have hslot : x.slot = offset PCFG (row PCHS) x.group + 8 * x.number := rfl
  rw [x.address_add_four, x.address_eq, y.owner_eq]
  exact ⟨address_ne hle (by omega) (by omega), address_ne hle (by omega) (by omega)⟩

theorem PadName.owner_inj (h : x.owner SBRG = y.owner SBRG) : x.group = y.group := by
  by_contra hne
  have hx := x.lt
  have hy := y.lt
  have howner := owners_ne _ (row_lt PCHS) _ x.group_lt _ y.group_lt ⟨by omega, by omega, hne⟩
  have hlt (z : PadName PCHS) : offset HOWN (row PCHS) z.group < 2 ^ 64 := by
    obtain ⟨-, hcom, -, hown⟩ := item_le _ (row_lt PCHS) _ z.group_lt
    unfold offset
    omega
  rw [x.owner_eq, y.owner_eq] at h
  exact address_ne (hlt x) (hlt y) howner h

theorem PadName.ne_of_group (hg : x.group = y.group) (h : x ≠ y) : x.number ≠ y.number := by
  intro hn
  apply h
  cases x
  cases y
  cases hg
  cases hn
  rfl

/-- One pad changes. -/
theorem Shows.update {p : Pad} {v' : View} (h : Shows SBRG P v) (hx : ShowsPad SBRG v' x p)
    (hne : ∀ y ≠ x, ShowsPad SBRG v y (P y) → ShowsPad SBRG v' y (P y)) :
    Shows SBRG (Function.update P x p) v' := by
  intro y
  by_cases hy : y = x
  · subst hy
    rw [Function.update_self]
    exact hx
  · rw [Function.update_of_ne hy]
    exact hne y hy (h y)

/-- Another dword is written. -/
theorem ShowsPad.beside {p : Pad} {a : Integer} {d : BitVec 32} (h : ShowsPad SBRG v x p)
    (h₀ : x.address SBRG ≠ a) (h₁ : x.address SBRG + 4 ≠ a) (ho : x.owner SBRG ≠ a) :
    ShowsPad SBRG ⟨v.names, Function.update v.hw a d⟩ x p where
  dw0 := (Function.update_of_ne h₀ d v.hw).trans h.dw0
  dw1 := (Function.update_of_ne h₁ d v.hw).trans h.dw1
  host := by
    show (Function.update v.hw a d (x.owner SBRG)).extractLsb' x.number 1 = p.host
    rw [Function.update_of_ne ho, h.host]
  kept := h.kept

/-- A pad gets another first dword. -/
theorem Shows.set_dw0 (h : Shows SBRG P v) (x : PadName PCHS) (d : BitVec 32) :
    Shows SBRG (Function.update P x { P x with dw0 := d })
      ⟨v.names, Function.update v.hw (x.address SBRG) d⟩ := by
  refine h.update ⟨Function.update_self (x.address SBRG) d v.hw, ?_, ?_, (h x).kept⟩
    fun y hy hshow => ?_
  · exact (Function.update_of_ne (Ne.symm PadName.address_ne_add_four) d v.hw).trans (h x).dw1
  · show (Function.update v.hw (x.address SBRG) d (x.owner SBRG)).extractLsb' x.number 1 = _
    rw [Function.update_of_ne (PadName.owner_ne x x).1, (h x).host]
  · exact hshow.beside (fun heq => hy (PadName.address_inj heq))
      (Ne.symm PadName.address_ne_add_four) (PadName.owner_ne x y).1

/-- A pad gets another second dword. -/
theorem Shows.set_dw1 (h : Shows SBRG P v) (x : PadName PCHS) (d : BitVec 32) :
    Shows SBRG (Function.update P x { P x with dw1 := d })
      ⟨v.names, Function.update v.hw (x.address SBRG + 4) d⟩ := by
  refine h.update ⟨?_, Function.update_self (x.address SBRG + 4) d v.hw, ?_, (h x).kept⟩
    fun y hy hshow => ?_
  · exact (Function.update_of_ne PadName.address_ne_add_four d v.hw).trans (h x).dw0
  · show (Function.update v.hw (x.address SBRG + 4) d (x.owner SBRG)).extractLsb' x.number 1 = _
    rw [Function.update_of_ne (PadName.owner_ne x x).2, (h x).host]
  · exact hshow.beside PadName.address_ne_add_four
      (fun heq => hy (PadName.address_add_four_inj heq)) (PadName.owner_ne x y).2

/-- A field unit of a pad is set. -/
theorem Shows.put (h : Shows SBRG P v) (x : PadName PCHS) (f : PadField) (d : BitVec f.width) :
    Shows SBRG (Function.update P x ((P x).put f d))
      ⟨v.names, Function.update v.hw (x.address SBRG + f.offset)
        (d.insertAt f.lsb (v.hw (x.address SBRG + f.offset)))⟩ := by
  unfold Pad.put
  rcases f.offset_cases with h0 | h4
  · have hzero : x.address SBRG + 0 = x.address SBRG := BitVec.add_zero (x.address SBRG)
    rw [if_pos h0, h0, hzero, (h x).dw0]
    exact h.set_dw0 x _
  · rw [if_neg (by rw [h4]; decide), h4, (h x).dw1]
    exact h.set_dw1 x _

/-- The owner of a pad is set. -/
theorem Shows.set_host (h : Shows SBRG P v) (x : PadName PCHS) (b : BitVec 1) :
    Shows SBRG (Function.update P x { P x with host := b })
      ⟨v.names, Function.update v.hw (x.owner SBRG)
        (b.insertAt x.number (v.hw (x.owner SBRG)))⟩ := by
  have hbit (y : PadName PCHS) : y.number + 1 ≤ 32 := by
    have hlt := y.number_lt
    omega
  refine h.update ⟨?_, ?_, ?_, (h x).kept⟩ fun y hy hshow => ⟨?_, ?_, ?_, hshow.kept⟩
  · exact (Function.update_of_ne (Ne.symm (PadName.owner_ne x x).1) _ v.hw).trans (h x).dw0
  · exact (Function.update_of_ne (Ne.symm (PadName.owner_ne x x).2) _ v.hw).trans (h x).dw1
  · show (Function.update v.hw (x.owner SBRG) _ (x.owner SBRG)).extractLsb' x.number 1 = b
    rw [Function.update_self, BitVec.extract_insertAt (hbit x)]
  · exact (Function.update_of_ne (Ne.symm (PadName.owner_ne y x).1) _ v.hw).trans hshow.dw0
  · exact (Function.update_of_ne (Ne.symm (PadName.owner_ne y x).2) _ v.hw).trans hshow.dw1
  · show (Function.update v.hw (x.owner SBRG) _ (y.owner SBRG)).extractLsb' y.number 1 = _
    rw [← hshow.host]
    by_cases ho : y.owner SBRG = x.owner SBRG
    · -- another bit of the same register
      have hne := PadName.ne_of_group (PadName.owner_inj ho) hy
      rw [ho, Function.update_self, BitVec.extract_insertAt_of_disjoint (hbit y) (by omega)]
    · rw [Function.update_of_ne ho]

/-- The routing that is remembered for a pad is set. -/
theorem Shows.set_kept (h : Shows SBRG P v) (x : PadName PCHS) (k : BitVec 2) :
    Shows SBRG (Function.update P x { P x with kept := k })
      ⟨Function.update v.names (.RXEV (BitVec.ofNat 64 x.group))
        (k.insertAt (2 * x.number) (v.names (.RXEV (BitVec.ofNat 64 x.group)))), v.hw⟩ := by
  have hbit (y : PadName PCHS) : 2 * y.number + 2 ≤ 64 := by
    have hlt := y.number_lt
    omega
  refine h.update ⟨(h x).dw0, (h x).dw1, (h x).host, ?_⟩ fun y hy hshow =>
    ⟨hshow.dw0, hshow.dw1, hshow.host, ?_⟩
  · show (Function.update v.names _ _ _).extractLsb' (2 * x.number) 2 = k
    rw [Function.update_self, BitVec.extract_insertAt (hbit x)]
  · show (Function.update v.names _ _ _).extractLsb' (2 * y.number) 2 = _
    rw [← hshow.kept]
    by_cases hg : y.group = x.group
    · -- two other bits of the same entry
      have hne := PadName.ne_of_group hg hy
      rw [hg, Function.update_self, BitVec.extract_insertAt_of_disjoint (hbit y) (by omega)]
    · have hne : Name.RXEV (BitVec.ofNat 64 y.group) ≠ .RXEV (BitVec.ofNat 64 x.group) := by
        exact fun heq => hg (group_inj y.group_lt x.group_lt (Name.RXEV.inj heq))
      rw [Function.update_of_ne hne]

end Shows

/-! ### What the methods do -/

section Methods

variable {E : World dsdt σ → Prop} {PCHS SBRG Arg0 Arg1 : Integer} (M : Memory env.hw PCHS SBRG)
  {P : PadName PCHS → Pad} {v : View} {x : PadName PCHS} {f : PadField}

theorem Memory.view_load {g : Field} {u : Integer} {s : State dsdt σ} :
    M.view (env.hw.after s (.load g u)) = M.view s := by
  unfold Memory.view
  congr 1
  funext a
  exact M.load g a s.hw

/-- Reading tells something and leaves the view alone. -/
theorem acts_reads {g : Field} {u : Integer} (h : ∀ s, M.view s = v → env.hw.reads g s = u) :
    Acts env E M.view v (load g) fun b y => b = u ∧ y = v :=
  acts_load fun s hs => ⟨h s hs, M.view_load.trans hs⟩

theorem acts_deref {t : List (List Integer)} (ht : t ∈ [GCOM, PCFG, HOWN, GPEO]) :
    Acts env E M.view v
      (deref t (BitVec.ofNat 64 (row PCHS)) (BitVec.ofNat 64 x.group) : Method σ Integer)
      fun b y => b = BitVec.ofNat 64 (item t (row PCHS) x.group) ∧ y = v := by
  have hr := row_lt PCHS
  have hg := x.group_lt
  have hlt := x.lt
  have hitem := deref_items _ hr _ hg (by omega) t ht
  unfold deref
  rw [BitVec.toNat_ofNat, BitVec.toNat_ofNat, Nat.mod_eq_of_lt (by omega),
    Nat.mod_eq_of_lt (by omega), hitem]
  exact acts_pure ⟨rfl, rfl⟩

theorem acts_GADR {t : List (List Integer)} (ht : t ∈ [GCOM, PCFG, HOWN, GPEO]) :
    Acts env E M.view v (GADR (BitVec.ofNat 64 x.group) t : Method σ Integer) fun b y =>
      b = BitVec.ofNat 64 (item GCOM (row PCHS) x.group) + SBRG +
        BitVec.ofNat 64 (item t (row PCHS) x.group) ∧ y = v := by
  have hvariant : Acts env E M.view v (variant : Method σ Integer) fun b y =>
      b = BitVec.ofNat 64 (row PCHS) ∧ y = v := by
    refine acts_then (acts_reads M fun s _ => M.reads_PCHS s) ?_
    unfold row
    split_ifs <;> exact acts_pure ⟨rfl, rfl⟩
  refine acts_then hvariant (acts_then (acts_deref M (by simp)) ?_)
  refine acts_then (acts_reads M fun s _ => M.reads_SBRG s) ?_
  exact acts_then (acts_deref M ht) (acts_pure ⟨rfl, rfl⟩)

theorem acts_padAddress (hx : x.Named Arg0) :
    Acts env E M.view v (padAddress Arg0 : Method σ Integer) fun b y =>
      b = x.address SBRG ∧ y = v := by
  unfold padAddress
  rw [hx.1, hx.2]
  exact acts_then (acts_GADR M (by simp)) (acts_pure ⟨rfl, rfl⟩)

theorem acts_load_pad {a : Integer} (ha : a = x.address SBRG + f.offset) (h : Shows SBRG P v) :
    Acts env E M.view v (load (.pad f a) : Method σ Integer) fun b y =>
      b = ((P x).get f).setWidth 64 ∧ y = v := by
  refine acts_reads M fun s hs => ?_
  have hdword (a : Integer) : M.dword a s.hw = v.hw a := by rw [← hs]; rfl
  rw [Hardware.reads, M.load_pad, hdword, Pad.get, ha]
  rcases f.offset_cases with h0 | h4
  · have hzero : x.address SBRG + 0 = x.address SBRG := BitVec.add_zero (x.address SBRG)
    rw [if_pos h0, h0, hzero, (h x).dw0]
    rfl
  · rw [if_neg (by rw [h4]; decide), h4, (h x).dw1]
    rfl

theorem acts_store_pad {a : Integer} (ha : a = x.address SBRG + f.offset) (h : Shows SBRG P v) :
    Acts env E M.view v (store (.pad f a) Arg1 : Method σ Unit) fun _ y =>
      Shows SBRG (Function.update P x ((P x).put f (Arg1.setWidth f.width))) y := by
  refine acts_act ?_
  rintro s rfl
  have hview : M.view (env.hw.after s (.store (.pad f a) (dsdt.cut (.pad f a) Arg1))) =
      ⟨s.names, Function.update (M.view s).hw a
        ((Arg1.setWidth f.width).insertAt f.lsb ((M.view s).hw a))⟩ := by
    unfold Memory.view
    congr 1
    funext b
    show M.dword b (env.hw.store _ ((dsdt.cut _ Arg1).setWidth _) s.hw) = _
    rw [Signature.setWidth_cut, Function.update_apply]
    exact M.store_pad f (Arg1.setWidth f.width) a b s.hw
  rw [hview, ha]
  exact h.put x f _

theorem acts_readPad {m : Lock} (hx : x.Named Arg0) (h : Shows SBRG P v) :
    Acts env E M.view v (readPad m f Arg0 : Method σ Integer) fun b y =>
      b = ((P x).get f).setWidth 64 ∧ y = v :=
  acts_serialized (acts_then (acts_padAddress M hx) (acts_load_pad M rfl h))

theorem acts_writePad {m : Lock} (hx : x.Named Arg0) (h : Shows SBRG P v) :
    Acts env E M.view v (writePad m f Arg0 Arg1 : Method σ Unit) fun _ y =>
      Shows SBRG (Function.update P x ((P x).put f (Arg1.setWidth f.width))) y :=
  acts_serialized (acts_then (acts_padAddress M hx) (acts_store_pad M rfl h))

theorem acts_GADR_owner (hx : x.Named Arg0) :
    Acts env E M.view v (GADR (GGRP Arg0) HOWN : Method σ Integer) fun b y =>
      b = x.owner SBRG ∧ y = v := by
  rw [hx.1]
  exact acts_GADR M (by simp)

theorem acts_load_HOWN :
    Acts env E M.view v (load (.HOWN (x.owner SBRG)) : Method σ Integer) fun b y =>
      b = (v.hw (x.owner SBRG)).setWidth 64 ∧ y = v := by
  refine acts_reads M fun s hs => ?_
  rw [Hardware.reads, M.load_HOWN, ← hs]
  rfl

/-- The number of a pad as a shift. -/
theorem toNat_GNMB (hx : x.Named Arg0) : (GNMB Arg0).toNat = x.number := by
  have hlt := x.number_lt
  rw [hx.2, BitVec.toNat_ofNat]
  omega

theorem toNat_two_mul_GNMB (hx : x.Named Arg0) : (GNMB Arg0 * 2).toNat = 2 * x.number := by
  have hlt := x.number_lt
  rw [BitVec.toNat_mul, toNat_GNMB hx]
  show x.number * 2 % 2 ^ 64 = _
  omega

theorem acts_GHPO (hx : x.Named Arg0) (h : Shows SBRG P v) :
    Acts env E M.view v (GHPO Arg0 : Method σ Integer) fun b y =>
      b = (P x).host.setWidth 64 ∧ y = v := by
  refine acts_serialized (acts_then (acts_GADR_owner M hx) ?_)
  refine acts_then (acts_load_HOWN M) (acts_pure ⟨?_, rfl⟩)
  have hn := x.number_lt
  rw [← (h x).host, BitVec.ushiftRight_eq', toNat_GNMB hx]
  have hmask : (1 : Integer) = (BitVec.allOnes 1).setWidth 64 := by decide
  rw [hmask, BitVec.ushiftRight_and_allOnes, BitVec.extractLsb'_setWidth_of_le (by omega)]

/-- The value that `SHPO` stores. -/
theorem masked_owner (d : BitVec 32) {n : ℕ} (hn : n < 32) {b : Integer} (hb : b = 0 ∨ b = 1) :
    (d.setWidth 64 &&& ~~~((1 : Integer) <<< n) ||| b <<< n).setWidth 32 =
      (b.setWidth 1).insertAt n d := by
  apply BitVec.eq_of_getLsbD_eq
  intro i hi
  have hi64 : i < 64 := by omega
  rw [BitVec.getLsbD_insertAt hi]
  simp only [BitVec.getLsbD_setWidth, BitVec.getLsbD_or, BitVec.getLsbD_and, BitVec.getLsbD_not,
    BitVec.getLsbD_shiftLeft, hi, hi64, decide_true, Bool.true_and]
  -- below the bit and above it the register stays as it is
  by_cases hlow : i < n
  · have hout : ¬ (n ≤ i ∧ i < n + 1) := by omega
    rw [if_neg hout]
    simp [hlow]
  · by_cases hn : i = n
    · subst hn
      rcases hb with rfl | rfl <;> simp
    · have hout : ¬ (n ≤ i ∧ i < n + 1) := by omega
      have hpos : i - n ≠ 0 := by omega
      rw [if_neg hout]
      rcases hb with rfl | rfl <;> simp [hlow, hpos]

theorem acts_SHPO (hx : x.Named Arg0) (h : Shows SBRG P v) (hb : Arg1 = 0 ∨ Arg1 = 1) :
    Acts env E M.view v (SHPO Arg0 Arg1 : Method σ Unit) fun _ y =>
      Shows SBRG (Function.update P x { P x with host := Arg1.setWidth 1 }) y := by
  refine acts_serialized (acts_then (acts_GADR_owner M hx) (acts_then (acts_load_HOWN M) ?_))
  refine acts_act ?_
  rintro s rfl
  rw [BitVec.shiftLeft_eq', BitVec.shiftLeft_eq', toNat_GNMB hx]
  have hview : M.view (env.hw.after s (.store (.HOWN (x.owner SBRG))
      (dsdt.cut (.HOWN (x.owner SBRG)) (((M.view s).hw (x.owner SBRG)).setWidth 64 &&&
        ~~~((1 : Integer) <<< x.number) ||| Arg1 <<< x.number)))) =
      ⟨s.names, Function.update (M.view s).hw (x.owner SBRG)
        ((Arg1.setWidth 1).insertAt x.number ((M.view s).hw (x.owner SBRG)))⟩ := by
    have hn := x.number_lt
    unfold Memory.view
    congr 1
    funext b
    show M.dword b (env.hw.store _ ((dsdt.cut _ _).setWidth _) s.hw) = _
    rw [Signature.setWidth_cut, Function.update_apply, ← masked_owner _ (by omega) hb]
    exact M.store_HOWN _ (x.owner SBRG) b s.hw
  rw [hview]
  exact h.set_host x _

/-- The group of a pad has an entry in `RXEV`. -/
theorem acts_entry (hx : x.Named Arg0) :
    Acts env E M.view v (entry .RXEV (GGRP Arg0) : Method σ Integer) fun b y =>
      b = v.names (.RXEV (BitVec.ofNat 64 x.group)) ∧ y = v := by
  unfold entry
  rw [if_pos hx.GGRP_lt, hx.1]
  refine acts_get fun s hs => ⟨?_, rfl⟩
  rw [← hs]
  rfl

theorem acts_setEntry {k : BitVec 2} (hx : x.Named Arg0) (h : Shows SBRG P v)
    (hk : Arg1 = k.insertAt (2 * x.number) (v.names (.RXEV (BitVec.ofNat 64 x.group)))) :
    Acts env E M.view v (setEntry .RXEV (GGRP Arg0) Arg1 : Method σ Unit) fun _ y =>
      Shows SBRG (Function.update P x { P x with kept := k }) y := by
  unfold setEntry
  rw [if_pos hx.GGRP_lt, hx.1, hk]
  refine acts_act ?_
  rintro s rfl
  exact h.set_kept x k

/-- The two bits that the value `0x02` of `RCFG` is compared in. -/
theorem setWidth_eq_two {k : BitVec 2} : k.setWidth 64 = (0x02 : Integer) ↔ k = 2 := by
  rw [show (0x02 : Integer) = (2 : BitVec 2).setWidth 64 by decide,
    BitVec.setWidth_inj_of_le (by decide)]

theorem acts_DIPI (hx : x.Named Arg0) (h : Shows SBRG P v) :
    Acts env E M.view v (DIPI Arg0 : Method σ Unit) fun _ y =>
      Shows SBRG (Function.update P x (Call.DIPI.effect (P x)).2) y := by
  have hzero : x.address SBRG = x.address SBRG + 0 := (BitVec.add_zero (x.address SBRG)).symm
  have hmask : (0x03 : Integer) = (BitVec.allOnes 2).setWidth 64 := by decide
  refine acts_serialized (acts_then (acts_padAddress M hx) ?_)
  refine acts_then (acts_load_pad M hzero h) (acts_ite (fun hne => ?_) fun heq => ?_)
  · have hk : (P x).get .RCFG ≠ 2 := mt setWidth_eq_two.mpr hne
    refine acts_then (acts_entry M hx) (acts_then (acts_load_pad M hzero h) ?_)
    refine acts_bind (acts_setEntry (k := (P x).get .RCFG) M hx h ?_) fun _ y₁ h₁ => ?_
    · rw [BitVec.shiftLeft_eq', BitVec.shiftLeft_eq', toNat_two_mul_GNMB hx, hmask]
      rfl
    refine acts_bind (acts_store_pad M hzero h₁) fun _ y₂ h₂ => ?_
    refine (acts_store_pad M hzero h₂).imp fun _ y₃ h₃ => ?_
    rw [Function.update_self, Function.update_idem, Function.update_self,
      Function.update_idem] at h₃
    rw [Call.effect, if_neg hk]
    exact h₃
  · have hk : (P x).get .RCFG = 2 := setWidth_eq_two.mp (not_not.mp heq)
    refine acts_pure ?_
    rw [Call.effect, if_pos hk, Function.update_eq_self]
    exact h

theorem acts_UIPI (hx : x.Named Arg0) (h : Shows SBRG P v) :
    Acts env E M.view v (UIPI Arg0 : Method σ Unit) fun _ y =>
      Shows SBRG (Function.update P x (Call.UIPI.effect (P x)).2) y := by
  have hzero : x.address SBRG = x.address SBRG + 0 := (BitVec.add_zero (x.address SBRG)).symm
  have hmask : (0x03 : Integer) = (BitVec.allOnes 2).setWidth 64 := by decide
  refine acts_serialized (acts_then (acts_padAddress M hx) (acts_then (acts_entry M hx) ?_))
  rw [BitVec.ushiftRight_eq', toNat_two_mul_GNMB hx, hmask, BitVec.ushiftRight_and_allOnes,
    (h x).kept]
  refine acts_ite (fun hne => ?_) fun heq => ?_
  · have hk : (P x).kept ≠ 2 := mt setWidth_eq_two.mpr hne
    refine acts_bind (acts_store_pad M hzero h) fun _ y₁ h₁ => ?_
    refine (acts_store_pad M hzero h₁).imp fun _ y₂ h₂ => ?_
    rw [Function.update_self, Function.update_idem] at h₂
    have hback :
        (((P x).kept.setWidth 64).setWidth PadField.RCFG.width : BitVec 2) = (P x).kept := by
      show ((P x).kept.setWidth 64).setWidth 2 = _
      rw [BitVec.setWidth_setWidth_of_le _ (by decide), BitVec.setWidth_eq]
    rw [Call.effect, if_neg hk]
    rw [hback] at h₂
    exact h₂
  · have hk : (P x).kept = 2 := setWidth_eq_two.mp (not_not.mp heq)
    refine acts_pure ?_
    rw [Call.effect, if_pos hk, Function.update_eq_self]
    exact h

/-- **A call does to the controller what it does to the pad by itself.** -/
theorem acts_call_run {c : Call} (hx : x.Named Arg0) (hc : c.Fits) (h : Shows SBRG P v) :
    Acts env E M.view v (c.run Arg0) fun b y => b = (c.effect (P x)).1 ∧
      Shows SBRG (Function.update P x (c.effect (P x)).2) y := by
  have reads {m : Lock} {f : PadField} : Acts env E M.view v (readPad m f Arg0 : Method σ Integer)
      fun b y => b = ((P x).get f).setWidth 64 ∧ Shows SBRG (Function.update P x (P x)) y := by
    refine (acts_readPad M hx h).imp ?_
    rintro b _ ⟨hb, rfl⟩
    rw [Function.update_eq_self]
    exact ⟨hb, h⟩
  have writes {m : Method σ Unit} {p : Pad} (hm : Acts env E M.view v m fun _ y =>
      Shows SBRG (Function.update P x p) y) :
      Acts env E M.view v (m >>= fun _ => pure 0) fun b y => b = (0 : Integer) ∧
        Shows SBRG (Function.update P x p) y :=
    acts_bind hm fun _ _ hy => acts_pure ⟨rfl, hy⟩
  cases c with
  | GPC0 | GPC1 | GGIV | GGOV | GGII | GPMV => exact reads
  | SPC0 | SPC1 | SRXO | SGOV | SGII | SPMV | SGRA | SGWP => exact writes (acts_writePad M hx h)
  | GHPO =>
    refine (acts_GHPO M hx h).imp ?_
    rintro b _ ⟨hb, rfl⟩
    refine ⟨hb, ?_⟩
    show Shows SBRG (Function.update P x (P x)) _
    rw [Function.update_eq_self]
    exact h
  | SHPO Arg1 => exact writes (acts_SHPO M hx h hc)
  | DIPI =>
    refine (writes (acts_DIPI M hx h)).imp fun b y hy => ⟨?_, hy.2⟩
    rw [hy.1, Call.effect]
    split_ifs <;> rfl
  | UIPI =>
    refine (writes (acts_UIPI M hx h)).imp fun b y hy => ⟨?_, hy.2⟩
    rw [hy.1, Call.effect]
    split_ifs <;> rfl

/-- Any calls on any pads. -/
theorem acts_runCalls {cs : List (PadName PCHS × Integer × Call)}
    (hcs : ∀ z ∈ cs, z.1.Named z.2.1 ∧ z.2.2.Fits) (h : Shows SBRG P v) :
    Acts env E M.view v (runCalls (cs.map (·.2))) fun vs y =>
      vs = (outcome P (cs.map fun z => (z.1, z.2.2))).1 ∧
        Shows SBRG (outcome P (cs.map fun z => (z.1, z.2.2))).2 y := by
  induction cs generalizing P v with
  | nil => exact acts_pure ⟨rfl, h⟩
  | cons z cs ih =>
    obtain ⟨hx, hc⟩ := hcs z List.mem_cons_self
    refine acts_bind (acts_call_run M hx hc h) ?_
    rintro _ y ⟨rfl, hy⟩
    refine acts_bind (ih (fun z hz => hcs z (List.mem_cons_of_mem _ hz)) hy) ?_
    rintro _ y' ⟨rfl, hy'⟩
    exact acts_pure ⟨rfl, hy'⟩

end Methods

/-! ### Off the interrupt and back -/

section Restored

theorem Pad.get_put {p : Pad} {f : PadField} {b : BitVec f.width} : (p.put f b).get f = b := by
  have hfit : f.lsb + f.width ≤ 32 := by cases f <;> decide
  unfold Pad.put Pad.get
  split_ifs with h
  · exact BitVec.extract_insertAt hfit
  · exact BitVec.extract_insertAt hfit

variable {p q : Pad} {f : PadField}

theorem Pad.kept_put {b : BitVec f.width} : (p.put f b).kept = p.kept := by
  unfold Pad.put
  split_ifs <;> rfl

theorem Pad.dw0_put {b : BitVec f.width} (hf : f.offset = 0) :
    (p.put f b).dw0 = b.insertAt f.lsb p.dw0 := by
  rw [Pad.put, if_pos hf]

theorem Pad.get_congr (hf : f.offset = 0) (h : p.dw0 = q.dw0) : p.get f = q.get f := by
  rw [Pad.get, Pad.get, if_pos hf, if_pos hf, h]

/-- `DIPI` and then `UIPI`, for the pad by itself. -/
def around (p : Pad) : Pad := (Call.UIPI.effect (Call.DIPI.effect p).2).2

/-- The first dword after the routing has been switched off and on again. -/
theorem dw0_off_and_on :
    (((({ p with kept := p.get .RCFG }.put .RCFG 2).put .RDIS 1).put .RDIS 0).put
      .RCFG (p.get .RCFG)).dw0 = (0 : BitVec 1).insertAt 9 p.dw0 := by
  have hRCFG : p.get .RCFG = p.dw0.extractLsb' 25 2 := rfl
  rw [Pad.dw0_put rfl, Pad.dw0_put rfl, Pad.dw0_put rfl, Pad.dw0_put rfl, hRCFG]
  apply BitVec.eq_of_getLsbD_eq
  intro i hi
  show ((p.dw0.extractLsb' 25 2).insertAt 25 ((0 : BitVec 1).insertAt 9 ((1 : BitVec 1).insertAt 9
    ((2 : BitVec 2).insertAt 25 p.dw0)))).getLsbD i = _
  rw [BitVec.getLsbD_insertAt hi, BitVec.getLsbD_insertAt hi, BitVec.getLsbD_insertAt hi,
    BitVec.getLsbD_insertAt hi, BitVec.getLsbD_insertAt hi]
  by_cases h25 : 25 ≤ i ∧ i < 25 + 2
  · have h9 : ¬ (9 ≤ i ∧ i < 9 + 1) := by omega
    have hin : i - 25 < 2 := by omega
    rw [if_pos h25, if_neg h9, BitVec.getLsbD_extractLsb', decide_eq_true hin, Bool.true_and,
      Nat.add_sub_cancel' h25.1]
  · rw [if_neg h25, if_neg h25]
    by_cases h9 : 9 ≤ i ∧ i < 9 + 1
    · rw [if_pos h9, if_pos h9]
    · rw [if_neg h9, if_neg h9, if_neg h9]

theorem effect_DIPI_of_ne (h : p.get .RCFG ≠ 2) : (Call.DIPI.effect p).2 =
    ({ p with kept := p.get .RCFG }.put .RCFG 2).put .RDIS 1 := by
  rw [Call.effect, if_neg h]

theorem effect_UIPI_of_ne (h : p.kept ≠ 2) :
    (Call.UIPI.effect p).2 = (p.put .RDIS 0).put .RCFG p.kept := by
  rw [Call.effect, if_neg h]

/-- The routing of the interrupt was on, or what is remembered says that it was off. -/
theorem around_dw0 (p : Pad) : (around p).dw0 = p.dw0 ↔
    p.get .RCFG ≠ 2 ∧ p.get .RDIS = 0 ∨ p.get .RCFG = 2 ∧ p.kept = 2 := by
  unfold around
  by_cases hk : p.get .RCFG = 2
  · have hDIPI : (Call.DIPI.effect p).2 = p := by rw [Call.effect, if_pos hk]
    rw [hDIPI]
    by_cases hkept : p.kept = 2
    · rw [Call.effect, if_pos hkept]
      exact iff_of_true rfl (.inr ⟨hk, hkept⟩)
    · rw [effect_UIPI_of_ne hkept]
      refine iff_of_false (fun heq => ?_) ?_
      · -- the routing would be the remembered one
        have hget := Pad.get_congr (f := .RCFG) rfl heq
        exact hkept (Pad.get_put.symm.trans (hget.trans hk))
      · rintro (⟨hne, -⟩ | ⟨-, h2⟩)
        · exact hne hk
        · exact hkept h2
  · have hDIPI := effect_DIPI_of_ne hk
    have hkept : ((Call.DIPI.effect p).2).kept = p.get .RCFG := by
      rw [hDIPI, Pad.kept_put, Pad.kept_put]
    have hne : ((Call.DIPI.effect p).2).kept ≠ 2 := fun h => hk (hkept.symm.trans h)
    rw [effect_UIPI_of_ne hne, hkept, hDIPI, dw0_off_and_on]
    constructor
    · intro heq
      left
      refine ⟨hk, ?_⟩
      show p.dw0.extractLsb' 9 1 = 0
      rw [← heq, BitVec.extract_insertAt (by decide)]
    · rintro (⟨-, hRDIS⟩ | ⟨h2, -⟩)
      · rw [← (show p.dw0.extractLsb' 9 1 = 0 from hRDIS)]
        exact BitVec.insertAt_extract
      · exact absurd h2 hk

theorem rest_put {b : BitVec f.width} (hf : f.offset = 0) :
    (p.put f b).dw1 = p.dw1 ∧ (p.put f b).host = p.host := by
  rw [Pad.put, if_pos hf]
  exact ⟨rfl, rfl⟩

theorem rest_DIPI :
    (Call.DIPI.effect p).2.dw1 = p.dw1 ∧ (Call.DIPI.effect p).2.host = p.host := by
  by_cases h : p.get .RCFG = 2
  · rw [Call.effect, if_pos h]
    exact ⟨rfl, rfl⟩
  · rw [effect_DIPI_of_ne h]
    exact ⟨(rest_put rfl).1.trans (rest_put rfl).1, (rest_put rfl).2.trans (rest_put rfl).2⟩

theorem rest_UIPI :
    (Call.UIPI.effect p).2.dw1 = p.dw1 ∧ (Call.UIPI.effect p).2.host = p.host := by
  by_cases h : p.kept = 2
  · rw [Call.effect, if_pos h]
    exact ⟨rfl, rfl⟩
  · rw [effect_UIPI_of_ne h]
    exact ⟨(rest_put rfl).1.trans (rest_put rfl).1, (rest_put rfl).2.trans (rest_put rfl).2⟩

/-- What else belongs to the pad is not touched. -/
theorem around_rest (p : Pad) : (around p).dw1 = p.dw1 ∧ (around p).host = p.host :=
  ⟨rest_UIPI.1.trans rest_DIPI.1, rest_UIPI.2.trans rest_DIPI.2⟩

end Restored

/-! ### A board -/

/-- A chipset of the smaller kind. -/
def board : Hardware dsdt (Integer → BitVec 32) where
  load f s := (match f with
    | .PCHS => (2 : BitVec 16)
    | .SBRG => 0xFD000000
    | .pad f a => (s a).extractLsb' f.lsb f.width
    | .HOWN a => s a
    | _ => 0, s)
  store f v s := match f with
    | .pad f a => fun b => if b = a then BitVec.insertAt (v : BitVec f.width) f.lsb (s a) else s b
    | .HOWN a => fun b => if b = a then v else s b
    | _ => s
  sleep _ s := s
  stall _ s := s
  timer s := (0, s)

def boardEnv : Env dsdt (Integer → BitVec 32) := ⟨board, 0⟩

def boardMemory : Memory boardEnv.hw 2 0xFD000000 where
  dword a s := s a
  reads_PCHS _ := rfl
  reads_SBRG _ := rfl
  load_pad _ _ _ := rfl
  load_HOWN _ _ := rfl
  load _ _ _ := rfl
  store_pad _ _ _ _ _ := rfl
  store_HOWN _ _ _ _ := rfl

/-- The pad 7 of the group 3, and another one of the group. -/
def boardPad : PadName 2 := ⟨3, 7, by decide⟩

def boardPad' : PadName 2 := ⟨3, 8, by decide⟩

def boardState : State dsdt (Integer → BitVec 32) := ⟨fun _ => BitVec.allOnes 64, fun _ => 0⟩

/-! ### The theorems -/

section Theorems

variable {PCHS SBRG : Integer} {P : PadName PCHS → Pad}

/-- **The controller is a set of pads**: calls of the accessors, in any order and on any pads,
return what they return for the pads by themselves, and leave the pads as they leave them by
themselves. -/
theorem calls_refine (M : Memory env.hw PCHS SBRG) (s : State dsdt σ)
    (cs : List (PadName PCHS × Integer × Call)) (hcs : ∀ z ∈ cs, z.1.Named z.2.1 ∧ z.2.2.Fits) :
    ∃ w, runCalls (cs.map (·.2)) env s.world =
        (some (outcome (pads SBRG (M.view s)) (cs.map fun z => (z.1, z.2.2))).1, w) ∧
      pads SBRG (M.view w.toState) =
        (outcome (pads SBRG (M.view s)) (cs.map fun z => (z.1, z.2.2))).2 := by
  obtain ⟨_, w, hrun, rfl, hshows⟩ := (acts_runCalls M hcs (shows_iff.mpr rfl)).run rfl
  exact ⟨w, hrun, shows_iff.mp hshows⟩

/-- The pad is switched on and read back, another one taken off its interrupt in between. -/
theorem calls_refine_board :
    ∃ w, runCalls ([(boardPad, 0x02030007, Call.SGOV 1), (boardPad', 0x02030008, .DIPI),
        (boardPad, 0x02030007, .GGOV)].map (·.2)) boardEnv boardState.world =
        (some (outcome (pads 0xFD000000 (boardMemory.view boardState))
          [(boardPad, .SGOV 1), (boardPad', .DIPI), (boardPad, .GGOV)]).1, w) ∧
      pads 0xFD000000 (boardMemory.view w.toState) =
        (outcome (pads 0xFD000000 (boardMemory.view boardState))
          [(boardPad, .SGOV 1), (boardPad', .DIPI), (boardPad, .GGOV)]).2 := by
  have hnamed : boardPad.Named 0x02030007 ∧ boardPad'.Named 0x02030008 := by
    constructor <;> exact ⟨by decide, by decide⟩
  refine calls_refine boardMemory boardState [(boardPad, 0x02030007, .SGOV 1),
    (boardPad', 0x02030008, .DIPI), (boardPad, 0x02030007, .GGOV)] ?_
  intro z hz
  simp only [List.mem_cons, List.not_mem_nil, or_false] at hz
  rcases hz with rfl | rfl | rfl
  · exact ⟨hnamed.1, trivial⟩
  · exact ⟨hnamed.2, trivial⟩
  · exact ⟨hnamed.1, trivial⟩

/-- Calls on other pads. -/
theorem outcome_of_ne {x : PadName PCHS} {cs : List (PadName PCHS × Call)}
    (h : ∀ z ∈ cs, z.1 ≠ x) : (outcome P cs).2 x = P x := by
  induction cs generalizing P with
  | nil => rfl
  | cons z cs ih =>
    show (outcome _ cs).2 x = P x
    rw [ih fun z hz => h z (List.mem_cons_of_mem _ hz),
      Function.update_of_ne (Ne.symm (h z List.mem_cons_self))]

theorem outcome_append {cs cs' : List (PadName PCHS × Call)} :
    (outcome P (cs ++ cs')).2 = (outcome (outcome P cs).2 cs').2 := by
  induction cs generalizing P with
  | nil => rfl
  | cons z cs ih => exact ih

/-- **When `DIPI` and `UIPI` leave a pad as it was**, whatever is done to other pads in between: its
interrupt was routed and not disabled, or it was not routed and remembered as such.  In any case the
rest of the pad stays. -/
theorem restored_iff (M : Memory env.hw PCHS SBRG) (s : State dsdt σ) {x : PadName PCHS}
    {Arg0 : Integer} (hx : x.Named Arg0) (cs : List (PadName PCHS × Integer × Call))
    (hcs : ∀ z ∈ cs, z.1 ≠ x ∧ z.1.Named z.2.1 ∧ z.2.2.Fits) :
    ∃ vs w, runCalls ((Arg0, .DIPI) :: cs.map (·.2) ++ [(Arg0, .UIPI)]) env s.world = (some vs, w) ∧
      (pads SBRG (M.view w.toState) x).dw1 = (pads SBRG (M.view s) x).dw1 ∧
      (pads SBRG (M.view w.toState) x).host = (pads SBRG (M.view s) x).host ∧
      ((pads SBRG (M.view w.toState) x).dw0 = (pads SBRG (M.view s) x).dw0 ↔
        (pads SBRG (M.view s) x).get .RCFG ≠ 2 ∧ (pads SBRG (M.view s) x).get .RDIS = 0 ∨
          (pads SBRG (M.view s) x).get .RCFG = 2 ∧ (pads SBRG (M.view s) x).kept = 2) := by
  have hall : ∀ z ∈ (x, Arg0, Call.DIPI) :: cs ++ [(x, Arg0, Call.UIPI)],
      z.1.Named z.2.1 ∧ z.2.2.Fits := by
    intro z hz
    rcases List.mem_append.mp hz with hz | hz
    · rcases List.mem_cons.mp hz with rfl | hz
      · exact ⟨hx, trivial⟩
      · exact (hcs z hz).2
    · rw [List.mem_singleton.mp hz]
      exact ⟨hx, trivial⟩
  obtain ⟨vs, w, hrun, -, hshows⟩ := (acts_runCalls M hall (shows_iff.mpr rfl)).run rfl
  rw [List.map_append] at hrun hshows
  set P : PadName PCHS → Pad := pads SBRG (M.view s) with hP
  have hbefore : (outcome P (((x, Arg0, Call.DIPI) :: cs).map fun z => (z.1, z.2.2))).2 x =
      (Call.DIPI.effect (P x)).2 := by
    have hother : ∀ z ∈ cs.map (fun z => (z.1, z.2.2)), z.1 ≠ x := by
      intro z hz
      obtain ⟨z', hz', rfl⟩ := List.mem_map.mp hz
      exact (hcs z' hz').1
    exact (outcome_of_ne hother).trans (Function.update_self x _ P)
  have hpad : (outcome P (((x, Arg0, Call.DIPI) :: cs).map (fun z => (z.1, z.2.2)) ++
      [(x, Arg0, Call.UIPI)].map fun z => (z.1, z.2.2))).2 x = around (P x) := by
    rw [outcome_append]
    refine (Function.update_self x _ _).trans ?_
    rw [hbefore]
    rfl
  refine ⟨vs, w, hrun, ?_⟩
  rw [shows_iff.mp hshows, hpad]
  exact ⟨(around_rest (P x)).1, (around_rest (P x)).2, around_dw0 (P x)⟩

/-- A pad is taken off its interrupt and put back, another one switched on in between. -/
theorem restored_iff_board :
    ∃ vs w, runCalls ((0x02030007, .DIPI) :: [(boardPad', 0x02030008, Call.SGOV 1)].map (·.2) ++
        [(0x02030007, .UIPI)]) boardEnv boardState.world = (some vs, w) ∧
      (pads 0xFD000000 (boardMemory.view w.toState) boardPad).dw1 =
        (pads 0xFD000000 (boardMemory.view boardState) boardPad).dw1 ∧
      (pads 0xFD000000 (boardMemory.view w.toState) boardPad).host =
        (pads 0xFD000000 (boardMemory.view boardState) boardPad).host ∧
      ((pads 0xFD000000 (boardMemory.view w.toState) boardPad).dw0 =
          (pads 0xFD000000 (boardMemory.view boardState) boardPad).dw0 ↔
        (pads 0xFD000000 (boardMemory.view boardState) boardPad).get .RCFG ≠ 2 ∧
            (pads 0xFD000000 (boardMemory.view boardState) boardPad).get .RDIS = 0 ∨
          (pads 0xFD000000 (boardMemory.view boardState) boardPad).get .RCFG = 2 ∧
            (pads 0xFD000000 (boardMemory.view boardState) boardPad).kept = 2) := by
  have hnamed : boardPad.Named 0x02030007 := ⟨by decide, by decide⟩
  refine restored_iff boardMemory boardState hnamed
    [(boardPad', 0x02030008, .SGOV 1)] ?_
  intro z hz
  rw [List.mem_singleton.mp hz]
  exact ⟨by decide, ⟨by decide, by decide⟩, trivial⟩

end Theorems

end Dsdt
