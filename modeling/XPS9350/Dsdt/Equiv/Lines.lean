import XPS9350.Dsdt.Equiv.Pads

/-!
# The interrupts and the events of pads

Which pads `INUM` gives one interrupt and `GGPE` one general purpose event.

* `INUM_eq_iff`: the pads are counted through, and those that are a multiple of `0x60` apart have
  the same interrupt.
* `GGPE_eq_iff`: the groups in mode zero share one event, and of the others those in one mode share
  the event of each number.
-/

namespace Dsdt

open Aml Aml.Prog

variable {σ : Type} {env : Env dsdt σ} {PCHS : Integer}

/-! ### Counting pads -/

/-- The number of pads in the groups before `g`. -/
def padsBefore (r : ℕ) : ℕ → ℕ
  | 0 => 0
  | g + 1 => padsBefore r g + item GPPG r g

/-- The place of a pad when the pads of all groups are counted through. -/
def PadName.place (x : PadName PCHS) : ℕ := x.number + padsBefore (row PCHS) x.group

/-- The number of pads. -/
def padCount (PCHS : Integer) : ℕ := padsBefore (row PCHS) 10

section Counting

variable {r g g' : ℕ} {x y : PadName PCHS}

theorem padsBefore_le (h : g ≤ g') : padsBefore r g ≤ padsBefore r g' := by
  induction h with
  | refl => exact Nat.le_refl _
  | step _ ih => exact Nat.le_trans ih (Nat.le_add_right _ _)

theorem PadName.place_lt_before (h : x.group < g) : x.place < padsBefore (row PCHS) g := by
  have hnumber := x.lt
  have hstep : padsBefore (row PCHS) (x.group + 1) ≤ padsBefore (row PCHS) g := padsBefore_le h
  have hsucc : padsBefore (row PCHS) (x.group + 1) =
      padsBefore (row PCHS) x.group + item GPPG (row PCHS) x.group := rfl
  unfold PadName.place
  omega

theorem PadName.place_lt (x : PadName PCHS) : x.place < padCount PCHS :=
  x.place_lt_before x.group_lt

theorem PadName.before_le_place (x : PadName PCHS) : padsBefore (row PCHS) x.group ≤ x.place :=
  Nat.le_add_left _ _

/-- Pads of different groups are in different places. -/
theorem PadName.group_eq_of_place (h : x.place = y.place) : x.group = y.group := by
  rcases Nat.lt_trichotomy x.group y.group with hlt | heq | hgt
  · have hx := x.place_lt_before hlt
    have hy := y.before_le_place
    omega
  · exact heq
  · have hy := y.place_lt_before hgt
    have hx := x.before_le_place
    omega

theorem PadName.place_injective : Function.Injective fun x : PadName PCHS => x.place := by
  intro x y (h : x.place = y.place)
  have hg := PadName.group_eq_of_place h
  unfold PadName.place at h
  rw [hg] at h
  obtain ⟨group, number, hx⟩ := x
  obtain ⟨group', number', hy⟩ := y
  obtain rfl : group = group' := hg
  obtain rfl : number = number' := Nat.add_right_cancel h
  rfl

/-- No place is left out. -/
theorem exists_place {n : ℕ} (h : n < padsBefore (row PCHS) g) :
    ∃ x : PadName PCHS, x.place = n := by
  induction g with
  | zero => exact absurd h (Nat.not_lt_zero n)
  | succ g ih =>
    by_cases hn : n < padsBefore (row PCHS) g
    · exact ih hn
    · -- it is a place of the last group
      have hlt : n - padsBefore (row PCHS) g < item GPPG (row PCHS) g := by
        have hsucc : n < padsBefore (row PCHS) g + item GPPG (row PCHS) g := h
        omega
      exact ⟨⟨g, n - padsBefore (row PCHS) g, hlt⟩, Nat.sub_add_cancel (Nat.le_of_not_lt hn)⟩

/-- The pads are counted from zero, without a gap. -/
theorem place_bijective :
    Function.Bijective fun x : PadName PCHS => (⟨x.place, x.place_lt⟩ : Fin (padCount PCHS)) := by
  constructor
  · intro x y h
    exact PadName.place_injective (congrArg Fin.val h)
  · rintro ⟨n, hn⟩
    obtain ⟨x, rfl⟩ := exists_place hn
    exact ⟨x, rfl⟩

theorem padCount_le (PCHS : Integer) : padCount PCHS ≤ 204 := by
  have hall : ∀ r < 2, padsBefore r 10 ≤ 204 := by decide
  exact hall _ (row_lt PCHS)

/-- The groups before one with pads have pads. -/
theorem items_pos : ∀ r < 2, ∀ g < 10, 0 < item GPPG r g → ∀ i < g, 0 < item GPPG r i := by
  decide

theorem deref_GPPG : ∀ r < 2, ∀ g < 10, 0 < item GPPG r g →
    GPPG[r]?.bind (·[g]?) = some (BitVec.ofNat 64 (item GPPG r g)) := by
  decide

end Counting

/-! ### Interrupts -/

section Interrupts

variable {E : World dsdt σ → Prop} {x y : PadName PCHS} {Arg0 Arg1 : Integer}

/-- A program of which only the result is seen. -/
abbrev Gives (env : Env dsdt σ) (m : Method σ Integer) (v : Integer) : Prop :=
  Acts env (fun _ => False) (fun _ => ()) () m fun b _ => b = v

theorem gives_load {f : Field} {v : Integer} (h : ∀ s, env.hw.reads f s = v) :
    Gives env (load f) v := acts_load fun s _ => h s

/-- The rule for the sum that `INUM` makes: the pads of the groups before that of `x` are added to
its number. -/
theorem acts_sum (hfuel : 10 < env.fuel) (hx : x.Named Arg0) :
    Gives env (whileLoop .INUM (fun x => pure (decide (x.2 < GGRP Arg0)))
      (fun (Local1, Local3) => do
        pure (.next (Local1 + (← deref GPPG (BitVec.ofNat 64 (row PCHS)) Local3), Local3 + 1)))
      Prod.fst (GNMB Arg0, (0 : Integer))) (BitVec.ofNat 64 x.place) := by
  have hgroup := x.group_lt
  refine acts_whileLoop (fun i b _ => i ≤ x.group ∧
    b = (BitVec.ofNat 64 (x.number + padsBefore (row PCHS) i), BitVec.ofNat 64 i)) x.group
    (by omega) ⟨Nat.zero_le _, ?_⟩ ?_
  · rw [hx.2]
    rfl
  rintro i _ _ ⟨hi, rfl⟩
  refine ⟨hi, acts_pure ?_⟩
  have htest : BitVec.ofNat 64 i < GGRP Arg0 ↔ i < x.group := by
    rw [hx.1, BitVec.lt_def, BitVec.toNat_ofNat, BitVec.toNat_ofNat]
    omega
  by_cases hlt : i < x.group
  · rw [if_pos (decide_eq_true (htest.mpr hlt))]
    have hpads : 0 < item GPPG (row PCHS) x.group := Nat.lt_of_le_of_lt (Nat.zero_le _) x.lt
    have hitem := deref_GPPG _ (row_lt PCHS) i (by omega)
      (items_pos _ (row_lt PCHS) _ hgroup hpads i hlt)
    dsimp only
    unfold deref
    have hrow := row_lt PCHS
    rw [BitVec.toNat_ofNat, BitVec.toNat_ofNat, Nat.mod_eq_of_lt (by omega),
      Nat.mod_eq_of_lt (by omega), hitem]
    refine acts_pure ⟨hlt, Prod.ext ?_ ?_⟩
    · rw [padsBefore, ← Nat.add_assoc, BitVec.ofNat_add _ (item GPPG (row PCHS) i)]
    · exact (BitVec.ofNat_add i 1).symm
  · rw [if_neg (by rw [decide_eq_true_eq]; exact mt htest.mp hlt)]
    rw [Nat.le_antisymm hi (Nat.le_of_not_lt hlt)]
    rfl

theorem gives_variant (hPCHS : ∀ s, env.hw.reads .PCHS s = PCHS) :
    Gives env variant (BitVec.ofNat 64 (row PCHS)) := by
  refine acts_bind (gives_load hPCHS) ?_
  rintro _ _ rfl
  unfold row
  split_ifs <;> exact acts_pure rfl

theorem gives_INUM (hPCHS : ∀ s, env.hw.reads .PCHS s = PCHS) (hfuel : 10 < env.fuel)
    (hx : x.Named Arg0) : Gives env (INUM Arg0) (BitVec.ofNat 64 (0x18 + x.place % 0x60)) := by
  refine acts_bind (gives_variant hPCHS) ?_
  rintro _ _ rfl
  refine acts_bind (acts_sum hfuel hx) ?_
  rintro _ _ rfl
  refine acts_pure ?_
  have hplace := x.place_lt
  have hcount := padCount_le PCHS
  apply BitVec.eq_of_toNat_eq
  rw [BitVec.toNat_add, BitVec.toNat_umod, BitVec.toNat_ofNat, BitVec.toNat_ofNat]
  show (24 + x.place % 2 ^ 64 % 96) % 2 ^ 64 = _
  omega

/-- **Which pads have one interrupt**: those whose places are congruent modulo `0x60`. -/
theorem INUM_eq_iff (hPCHS : ∀ s, env.hw.reads .PCHS s = PCHS) (hfuel : 10 < env.fuel)
    (hx : x.Named Arg0) (hy : y.Named Arg1) (s t : State dsdt σ) :
    ∃ m n v w, INUM Arg0 env s.world = (some m, v) ∧ INUM Arg1 env t.world = (some n, w) ∧
      (0x18 ≤ m ∧ m < 0x78) ∧ (m = n ↔ x.place % 0x60 = y.place % 0x60) := by
  obtain ⟨_, v, hv, rfl⟩ := (gives_INUM hPCHS hfuel hx).run (s := s) rfl
  obtain ⟨_, w, hw, rfl⟩ := (gives_INUM hPCHS hfuel hy).run (s := t) rfl
  refine ⟨_, _, v, w, hv, hw, ⟨?_, ?_⟩, ?_⟩
  · rw [BitVec.le_def, BitVec.toNat_ofNat]
    show 24 ≤ _
    omega
  · rw [BitVec.lt_def, BitVec.toNat_ofNat]
    show _ < 120
    omega
  · rw [← BitVec.toNat_inj, BitVec.toNat_ofNat, BitVec.toNat_ofNat]
    omega

/-- The board, with time for the loop. -/
def linesEnv : Env dsdt (Integer → BitVec 32) := ⟨board, 100⟩

/-- The first pad of the group 0, and that of the group 4, which is `0x60` pads on. -/
def firstPad : PadName 2 := ⟨0, 0, by decide⟩

def wrappedPad : PadName 2 := ⟨4, 0, by decide⟩

theorem firstPad_named : firstPad.Named 0x02000000 := ⟨by decide, by decide⟩

theorem wrappedPad_named : wrappedPad.Named 0x02040000 := ⟨by decide, by decide⟩

theorem INUM_eq_iff_board :
    ∃ m n v w, INUM 0x02000000 linesEnv boardState.world = (some m, v) ∧
      INUM 0x02040000 linesEnv boardState.world = (some n, w) ∧ (0x18 ≤ m ∧ m < 0x78) ∧
      (m = n ↔ firstPad.place % 0x60 = wrappedPad.place % 0x60) :=
  INUM_eq_iff (fun _ => rfl) (by decide) firstPad_named wrappedPad_named boardState boardState

end Interrupts

/-! ### Events -/

section Events

variable {GPEM : Integer} {x y : PadName PCHS} {Arg0 Arg1 : Integer}

/-- The mode of a group in `GPEM`. -/
def groupMode (GPEM : Integer) (g : ℕ) : ℕ :=
  ((GPEM >>> (BitVec.ofNat 64 g * 0x02)) &&& (0x03 : Integer)).toNat

theorem groupMode_lt {g : ℕ} : groupMode GPEM g < 4 := by
  unfold groupMode
  rw [BitVec.toNat_and]
  exact Nat.lt_succ_of_le Nat.and_le_right

/-- The event of a pad. -/
def PadName.event (GPEM : Integer) (x : PadName PCHS) : ℕ :=
  if groupMode GPEM x.group = 0 then 0x6F else (groupMode GPEM x.group - 1) * 0x20 + x.number

theorem gives_GGPE (hGPEM : ∀ s, env.hw.reads .GPEM s = GPEM) (hx : x.Named Arg0) :
    Gives env (GGPE Arg0) (BitVec.ofNat 64 (x.event GPEM)) := by
  have hmode : Gives env (mode (GGRP Arg0)) (BitVec.ofNat 64 (groupMode GPEM x.group)) := by
    refine acts_bind (gives_load hGPEM) ?_
    rintro _ _ rfl
    rw [hx.1]
    refine acts_pure ?_
    rw [groupMode, BitVec.ofNat_toNat, BitVec.setWidth_eq]
  refine acts_bind hmode ?_
  rintro _ _ rfl
  have hlt : groupMode GPEM x.group < 4 := groupMode_lt
  have hzero : BitVec.ofNat 64 (groupMode GPEM x.group) = 0 ↔ groupMode GPEM x.group = 0 := by
    rw [← BitVec.toNat_inj, BitVec.toNat_ofNat, Nat.mod_eq_of_lt (by omega)]
    rfl
  unfold PadName.event
  refine acts_ite (fun h0 => ?_) fun hne => ?_
  · rw [if_pos (hzero.mp h0)]
    exact acts_pure rfl
  · have hpos : groupMode GPEM x.group ≠ 0 := mt hzero.mpr hne
    have hnumber := x.number_lt
    rw [if_neg hpos, hx.2]
    refine acts_pure ?_
    bv_omega

/-- **Which pads have one general purpose event**: all those of groups in mode zero, and otherwise
those with one number in groups of one mode. -/
theorem GGPE_eq_iff (hGPEM : ∀ s, env.hw.reads .GPEM s = GPEM) (hx : x.Named Arg0)
    (hy : y.Named Arg1) (s t : State dsdt σ) :
    ∃ m n v w, GGPE Arg0 env s.world = (some m, v) ∧ GGPE Arg1 env t.world = (some n, w) ∧
      (m = n ↔ groupMode GPEM x.group = groupMode GPEM y.group ∧
        (groupMode GPEM x.group = 0 ∨ x.number = y.number)) := by
  obtain ⟨_, v, hv, rfl⟩ := (gives_GGPE hGPEM hx).run (s := s) rfl
  obtain ⟨_, w, hw, rfl⟩ := (gives_GGPE hGPEM hy).run (s := t) rfl
  refine ⟨_, _, v, w, hv, hw, ?_⟩
  have hmx : groupMode GPEM x.group < 4 := groupMode_lt
  have hmy : groupMode GPEM y.group < 4 := groupMode_lt
  have hnx := x.number_lt
  have hny := y.number_lt
  unfold PadName.event
  rw [← BitVec.toNat_inj, BitVec.toNat_ofNat, BitVec.toNat_ofNat]
  -- the number of a pad is below `0x18`, so no event of another mode is `0x6F`
  split_ifs <;> omega

/-- The board with the group 0 in mode one and the group 4 in mode two. -/
def modesEnv : Env dsdt (Integer → BitVec 32) where
  hw :=
    { board with
      load := fun f s => match f with
        | .GPEM => ((0x201 : BitVec 32), s)
        | f => board.load f s }
  fuel := 0

/-- Two pads of one number, but in groups of different modes. -/
theorem GGPE_eq_iff_board :
    ∃ m n v w, GGPE 0x02000000 modesEnv boardState.world = (some m, v) ∧
      GGPE 0x02040000 modesEnv boardState.world = (some n, w) ∧
      (m = n ↔ groupMode 0x201 firstPad.group = groupMode 0x201 wrappedPad.group ∧
        (groupMode 0x201 firstPad.group = 0 ∨ firstPad.number = wrappedPad.number)) :=
  GGPE_eq_iff (fun _ => rfl) firstPad_named wrappedPad_named boardState boardState

end Events

end Dsdt
