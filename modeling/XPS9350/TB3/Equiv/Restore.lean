import XPS9350.Aml.Registers
import XPS9350.TB3.Equiv.Powered

/-!
# Saving and restoring the configuration

On hardware where every write sticks, the save block of `_INI` puts the registers of `savedRegs`
into their names (`save_yields`) and `CNHI` writes those of `programmed` from theirs
(`CNHI_yields`).  The two lists differ in one entry: `DP2C` is programmed from `R22C`, which
nothing ever stores to.

* `restore_iff`: saving and restoring is lossless exactly when `DP2C` was zero.
-/

namespace TB3.RP01

open Aml Aml.Prog

/-- The contents of the field units. -/
abbrev Regs : Type := (f : Field) → BitVec f.width

variable {fuel : Nat} {n : Name → Integer} {r : Regs}

/-! ### The two lists -/

/-- The names after the save block. -/
def saved (regs : List (Field × Name)) (r : Regs) (n : Name → Integer) : Name → Integer :=
  regs.foldl (fun n x => Function.update n x.2 ((r x.1).setWidth 64)) n

theorem saved_of_not_mem {regs : List (Field × Name)} {x : Name} (h : x ∉ regs.map Prod.snd) :
    saved regs r n x = n x := by
  induction regs generalizing n with
  | nil => rfl
  | cons y regs ih =>
    rw [List.map_cons, List.mem_cons, not_or] at h
    rw [saved, List.foldl_cons, ← saved, ih h.2, Function.update_of_ne h.1]

theorem saved_of_mem {regs : List (Field × Name)} {x : Field × Name}
    (hregs : (regs.map Prod.snd).Nodup) (hx : x ∈ regs) :
    saved regs r n x.2 = (r x.1).setWidth 64 := by
  induction regs generalizing n with
  | nil => cases hx
  | cons y regs ih =>
    rw [List.map_cons, List.nodup_cons] at hregs
    rw [saved, List.foldl_cons, ← saved]
    rcases List.mem_cons.mp hx with rfl | hx
    · rw [saved_of_not_mem hregs.1, Function.update_self]
    · exact ih hregs.2 hx

theorem save_yields (regs : List (Field × Name)) :
    Yields (S := tb3) fuel (save regs) n r () (saved regs r n) r := by
  induction regs generalizing n with
  | nil => exact yields_pure
  | cons x regs ih => exact yields_bind yields_load (yields_bind yields_set ih)

/-- The writes of `program`. -/
def writes (n : Name → Integer) (regs : List (Field × Name)) : List (Field × Integer) :=
  regs.map fun x => (x.1, n x.2)

theorem program_yields (regs : List (Field × Name)) :
    Yields (S := tb3) fuel (program regs) n r () n (applyWrites (S := tb3) r (writes n regs)) := by
  induction regs generalizing r with
  | nil => exact yields_pure
  | cons x regs ih => exact yields_bind yields_get (yields_bind yields_store ih)

/-! ### `CNHI` on such hardware -/

/-- A name holds a value that fits the register it is written to. -/
def Fits (n : Name → Integer) (x : Field × Name) : Prop :=
  ((n x.2).setWidth x.1.width).setWidth 64 = n x.2

/-- A stage whose register reads back is left in its first pass. -/
theorem stage_yields {l : Loop} {tries : Integer} {block : Method (Registers tb3) Unit} {f : Field}
    {x : Name} {r' : Regs} (hfuel : fuel ≠ 0) (htries : tries ≠ 0)
    (hblock : Yields (S := tb3) fuel block n r () n r') (hread : (r' f).setWidth 64 = n x) :
    Yields (S := tb3) fuel (stage l tries block f x) n r true n r' := by
  have hcond : Yields (S := tb3) fuel (pure (decide (tries ≠ 0))) n r true n r := by
    rw [decide_eq_true htries]
    exact yields_pure
  have hbody : Yields (S := tb3) fuel (do
      block
      if (← Prog.get x) = (← load f) then
        pure (.leave ())
      else
        sleep 1
        pure (.next (tries - 1)) : Method (Registers tb3) (Flow Integer Unit)) n r (.leave ()) n r' := by
    refine yields_bind hblock (yields_bind yields_get (yields_bind yields_load ?_))
    rw [if_pos hread.symm]
    exact yields_pure
  have hcheck : Yields (S := tb3) fuel (do pure (decide ((← Prog.get x) = (← load f)))) n r' true
      n r' := by
    refine yields_bind yields_get (yields_bind yields_load ?_)
    rw [decide_eq_true hread.symm]
    exact yields_pure
  exact yields_bind (yields_whileLoop hfuel hcond hbody) hcheck

/-- The links do not train and the upstream port answers. -/
structure LinksUp (r : Regs) : Prop where
  RPLT : r .RPLT = 0
  UPLT : r .UPLT = 0
  DPLT : r .DPLT = 0
  UPVD : (r .UPVD).setWidth 64 &&& 0xFFFF = (0x8086 : Integer)

theorem UPCK_yields (h : LinksUp r) : Yields (S := tb3) fuel UPCK n r 1 n r := by
  refine yields_bind yields_load ?_
  rw [if_pos h.UPVD]
  exact yields_pure

theorem ULTC_yields (h : LinksUp r) : Yields (S := tb3) fuel ULTC n r 1 n r := by
  refine yields_bind yields_load ?_
  rw [if_pos (by rw [h.RPLT]; rfl)]
  refine yields_bind yields_load ?_
  rw [if_pos (by rw [h.UPLT]; rfl)]
  exact yields_pure

theorem DLTC_yields (h : LinksUp r) : Yields (S := tb3) fuel DLTC n r 1 n r := by
  refine yields_bind yields_load ?_
  rw [if_pos (by rw [h.RPLT]; rfl)]
  refine yields_bind yields_load ?_
  rw [if_pos (by rw [h.UPLT]; rfl)]
  refine yields_bind yields_load ?_
  rw [if_pos (by rw [h.DPLT]; rfl)]
  exact yields_pure

theorem waitLink_yields {l : Loop} {check : Method (Registers tb3) Integer} (hfuel : fuel ≠ 0)
    (h : LinksUp r) (h7 : r .RPR4 = 7) (hcheck : Yields (S := tb3) fuel check n r 1 n r) :
    Yields (S := tb3) fuel (waitLink l check) n r 1 n r := by
  have ready : Yields (S := tb3) fuel (linkReady check) n r true n r := by
    refine yields_bind yields_load ?_
    rw [if_pos (by rw [h7]; rfl)]
    refine yields_bind hcheck ?_
    rw [if_pos (by decide)]
    refine yields_bind (UPCK_yields h) ?_
    rw [if_pos (by decide)]
    exact yields_pure
  have hcond : Yields (S := tb3) fuel (pure (decide ((2000 : Integer) ≠ 0))) n r true n r :=
    yields_pure
  exact yields_whileLoop hfuel hcond (yields_bind ready yields_pure)

/-- The writes of the four stages of `CNHI`. -/
def rpWrites (n : Name → Integer) : List (Field × Integer) := writes n rpRegs ++ [(.RPR4, 7)]

def upsbWrites (n : Name → Integer) : List (Field × Integer) := writes n upsbRegs ++ [(.UP04, 7)]

def dsbWrites (n : Name → Integer) : List (Field × Integer) :=
  writes n dsb0Regs ++ [(.DP04, 7)] ++ (writes n dsb1Regs ++ [(.D304, 7)]) ++
    (writes n dsb2Regs ++ [(.D404, 7)])

def nhiWrites (n : Name → Integer) : List (Field × Integer) := writes n nhiRegs ++ [(.NH04, 7)]

@[simp] theorem map_fst_writes {regs : List (Field × Name)} :
    (writes n regs).map Prod.fst = regs.map Prod.fst := by
  simp [writes]

/-- All of them. -/
def allWrites (n : Name → Integer) : List (Field × Integer) :=
  rpWrites n ++ upsbWrites n ++ dsbWrites n ++ nhiWrites n

theorem nodup_allWrites : ((allWrites n).map Prod.fst).Nodup := by
  simp only [allWrites, rpWrites, upsbWrites, dsbWrites, nhiWrites, List.map_append,
    map_fst_writes]
  decide

theorem mem_allWrites {x : Field × Name} (hx : x ∈ programmed) : (x.1, n x.2) ∈ allWrites n := by
  have hw {regs : List (Field × Name)} (h : x ∈ regs) : (x.1, n x.2) ∈ writes n regs :=
    List.mem_map_of_mem h
  simp only [programmed, List.mem_append] at hx
  simp only [allWrites, rpWrites, upsbWrites, dsbWrites, nhiWrites, List.mem_append]
  rcases hx with ((((h | h) | h) | h) | h) | h <;> simp [hw h]

/-- No write touches the link bits and the vendor id. -/
theorem LinksUp.applyWrites {ws : List (Field × Integer)} (h : LinksUp r)
    (hws : ∀ f ∈ [Field.RPLT, .UPLT, .DPLT, .UPVD], f ∉ ws.map Prod.fst) :
    LinksUp (Aml.applyWrites (S := tb3) r ws) where
  RPLT := (applyWrites_of_not_mem (hws _ (by simp))).trans h.RPLT
  UPLT := (applyWrites_of_not_mem (hws _ (by simp))).trans h.UPLT
  DPLT := (applyWrites_of_not_mem (hws _ (by simp))).trans h.DPLT
  UPVD := by rw [applyWrites_of_not_mem (S := tb3) (hws _ (by simp)), h.UPVD]

/-- What the first writes leave in a register, whatever is written next. -/
theorem applyWrites_read {ws : List (Field × Integer)} {x : Field × Name} (hx : Fits n x)
    (hws : (ws.map Prod.fst).Nodup) (h : (x.1, n x.2) ∈ ws) :
    ((Aml.applyWrites (S := tb3) r ws) x.1).setWidth 64 = n x.2 := by
  rw [applyWrites_of_mem (S := tb3) hws h]
  exact hx

/-- A stage of `CNHI` performs its writes. -/
theorem stage_writes {l : Loop} {tries : Integer} {block : Method (Registers tb3) Unit}
    {x : Field × Name} {ws : List (Field × Integer)} (hfuel : fuel ≠ 0) (htries : tries ≠ 0)
    (hblock : Yields (S := tb3) fuel block n r () n (applyWrites (S := tb3) r ws)) (hx : Fits n x)
    (hws : (ws.map Prod.fst).Nodup) (h : (x.1, n x.2) ∈ ws) :
    Yields (S := tb3) fuel (stage l tries block x.1 x.2) n r true n
      (applyWrites (S := tb3) r ws) :=
  stage_yields hfuel htries hblock (applyWrites_read hx hws h)

theorem rp_yields (hfuel : fuel ≠ 0) (hrp : Fits n (.R_20, .R020)) :
    Yields (S := tb3) fuel CNHI.rp n r true n (applyWrites (S := tb3) r (rpWrites n)) := by
  refine stage_writes (x := (.R_20, .R020)) hfuel (by decide) ?_ hrp ?_ ?_
  · rw [rpWrites, applyWrites_append]
    exact yields_bind (program_yields rpRegs) yields_store
  · simp only [rpWrites, List.map_append, map_fst_writes]
    decide
  · simp [rpWrites, writes, rpRegs]

theorem upsb_yields (hfuel : fuel ≠ 0) (hup : Fits n (.UP19, .R119)) :
    Yields (S := tb3) fuel CNHI.upsb n r true n (applyWrites (S := tb3) r (upsbWrites n)) := by
  refine stage_writes (x := (.UP19, .R119)) hfuel (by decide) ?_ hup ?_ ?_
  · rw [upsbWrites, applyWrites_append]
    exact yields_bind (program_yields upsbRegs) yields_store
  · simp only [upsbWrites, List.map_append, map_fst_writes]
    decide
  · simp [upsbWrites, writes, upsbRegs]

theorem dsb_yields (hfuel : fuel ≠ 0) (hdp : Fits n (.DP19, .R219)) :
    Yields (S := tb3) fuel CNHI.dsb n r true n (applyWrites (S := tb3) r (dsbWrites n)) := by
  refine stage_writes (x := (.DP19, .R219)) hfuel (by decide) ?_ hdp ?_ ?_
  · simp only [dsbWrites, applyWrites_append (S := tb3)]
    refine yields_bind (program_yields dsb0Regs) (yields_bind yields_store ?_)
    refine yields_bind (program_yields dsb1Regs) (yields_bind yields_store ?_)
    exact yields_bind (program_yields dsb2Regs) yields_store
  · simp only [dsbWrites, List.map_append, map_fst_writes]
    decide
  · simp [dsbWrites, writes, dsb0Regs]

theorem nhi_yields (hfuel : fuel ≠ 0) (hnh : Fits n (.NH10, .RH10)) :
    Yields (S := tb3) fuel CNHI.nhi n r true n (applyWrites (S := tb3) r (nhiWrites n)) := by
  refine stage_writes (x := (.NH10, .RH10)) hfuel (by decide) ?_ hnh ?_ ?_
  · rw [nhiWrites, applyWrites_append]
    exact yields_bind (program_yields nhiRegs) yields_store
  · simp only [nhiWrites, List.map_append, map_fst_writes]
    decide
  · simp [nhiWrites, writes, nhiRegs]

/-- After the first writes the root port is enabled and the links are still up. -/
theorem links_of_prefix (ws ws' : List (Field × Integer)) (h : LinksUp r)
    (hws : allWrites n = ws ++ ws') (h7 : ((.RPR4, 7) : Field × Integer) ∈ ws) :
    LinksUp (applyWrites (S := tb3) r ws) ∧ applyWrites (S := tb3) r ws .RPR4 = 7 := by
  have untouched : ∀ f ∈ [Field.RPLT, .UPLT, .DPLT, .UPVD], f ∉ (allWrites n).map Prod.fst := by
    simp only [allWrites, rpWrites, upsbWrites, dsbWrites, nhiWrites, List.map_append,
      map_fst_writes]
    decide
  have hnodup := nodup_allWrites (n := n)
  rw [hws, List.map_append] at untouched hnodup
  refine ⟨h.applyWrites fun f hf hm => untouched f hf (List.mem_append_left _ hm), ?_⟩
  exact applyWrites_of_mem (S := tb3) (List.nodup_append.mp hnodup).1 h7

/-- **`CNHI` programs every register from its name** and succeeds. -/
theorem CNHI_yields (hfuel : fuel ≠ 0) (h : LinksUp r) (hrp : Fits n (.R_20, .R020))
    (hup : Fits n (.UP19, .R119)) (hdp : Fits n (.DP19, .R219)) (hnh : Fits n (.NH10, .RH10)) :
    Yields (S := tb3) fuel CNHI n r 1 n (applyWrites (S := tb3) r (allWrites n)) := by
  have hrp7 : ((.RPR4, 7) : Field × Integer) ∈ rpWrites n := by simp [rpWrites]
  obtain ⟨hup2, hup7⟩ := links_of_prefix (n := n) (rpWrites n ++ upsbWrites n)
    (dsbWrites n ++ nhiWrites n) h (by simp [allWrites]) (List.mem_append_left _ hrp7)
  obtain ⟨hdp2, hdp7⟩ := links_of_prefix (n := n) (rpWrites n ++ upsbWrites n ++ dsbWrites n)
    (nhiWrites n) h (by simp [allWrites]) (List.mem_append_left _ (List.mem_append_left _ hrp7))
  rw [allWrites, applyWrites_append]
  unfold CNHI
  refine yields_bind (rp_yields hfuel hrp) ?_
  rw [if_neg (by decide)]
  refine yields_bind (upsb_yields hfuel hup) ?_
  rw [if_neg (by decide), ← applyWrites_append]
  refine yields_bind (waitLink_yields hfuel hup2 hup7 (ULTC_yields hup2)) ?_
  rw [if_neg (by decide)]
  refine yields_bind (dsb_yields hfuel hdp) ?_
  rw [if_neg (by decide), ← applyWrites_append]
  refine yields_bind (waitLink_yields hfuel hdp2 hdp7 (DLTC_yields hdp2)) ?_
  rw [if_neg (by decide)]
  refine yields_bind (nhi_yields hfuel hnh) ?_
  rw [if_neg (by decide)]
  exact yields_pure

/-! ### Saving, then restoring -/

theorem width_le (f : Field) : f.width ≤ 64 := by
  cases f <;> simp [Field.width]

/-- A register survives being kept in an integer. -/
theorem setWidth_back {f : Field} (v : BitVec f.width) :
    ((v.setWidth 64).setWidth f.width) = v := by
  rw [BitVec.setWidth_setWidth_of_le v (width_le f), BitVec.setWidth_eq]

/-- Every programmed register but `DP2C` is also saved. -/
theorem saved_or_DP2C : ∀ x ∈ programmed, x ∈ savedRegs ∨ x = (.DP2C, .R22C) := by
  decide

theorem saved_reg {x : Field × Name} (hx : x ∈ savedRegs) :
    saved savedRegs r n x.2 = (r x.1).setWidth 64 := saved_of_mem (by decide) hx

theorem saved_R22C : saved savedRegs r n .R22C = n .R22C := saved_of_not_mem (by decide)

theorem saved_fits {x : Field × Name} (hx : x ∈ savedRegs) : Fits (saved savedRegs r n) x := by
  rw [Fits, saved_reg hx, setWidth_back]

/-- What saving the registers `c` and restoring them over `c'` leaves. -/
theorem restore_spec (hfuel : fuel ≠ 0) (hn : n .R22C = 0) (c c' : Registers tb3)
    (hlinks : LinksUp c'.regs) :
    ∃ w₁ w₂, save savedRegs ⟨registers tb3, fuel⟩ (State.world ⟨n, c⟩) = (some (), w₁) ∧
      CNHI ⟨registers tb3, fuel⟩ (State.world ⟨w₁.names, c'⟩) = (some 1, w₂) ∧
      ∀ x ∈ programmed, w₂.hw.regs x.1 = if x.1 = .DP2C then 0 else c.regs x.1 := by
  obtain ⟨w₁, h₁, hn₁, -⟩ := (save_yields (n := n) savedRegs).run c rfl
  have hrun := CNHI_yields (n := w₁.names) hfuel hlinks (by rw [hn₁]; exact saved_fits (by decide))
    (by rw [hn₁]; exact saved_fits (by decide)) (by rw [hn₁]; exact saved_fits (by decide))
    (by rw [hn₁]; exact saved_fits (by decide))
  obtain ⟨w₂, h₂, -, hr₂⟩ := hrun.run c' rfl
  refine ⟨w₁, w₂, h₁, h₂, fun x hx => ?_⟩
  rw [hr₂, applyWrites_of_mem (S := tb3) nodup_allWrites (mem_allWrites hx), hn₁]
  rcases saved_or_DP2C x hx with hs | rfl
  · have hne : ∀ x ∈ savedRegs, x.1 ≠ .DP2C := by decide
    rw [if_neg (hne x hs), saved_reg hs]
    exact setWidth_back (f := x.1) (c.regs x.1)
  · have hval : saved savedRegs c.regs n .R22C = 0 := saved_R22C.trans hn
    exact congrArg (BitVec.setWidth 32) hval

/-- **Saving and restoring is lossless exactly when `DP2C` was zero.**  The save block runs after
any calls, on any hardware, with the registers `c`; then `CNHI` runs with the registers `c'`, the
links up and every write sticking.  It always succeeds. -/
theorem restore_iff {σ : Type} {env : Env tb3 σ} {h : σ} {cs : List Call} {w : World tb3 σ}
    (hr : runCalls cs env (loaded h).world = (some (), w)) (hfuel : fuel ≠ 0)
    (c c' : Registers tb3) (hlinks : LinksUp c'.regs) :
    ∃ w₁ w₂, save savedRegs ⟨registers tb3, fuel⟩ (State.world ⟨w.names, c⟩) = (some (), w₁) ∧
      CNHI ⟨registers tb3, fuel⟩ (State.world ⟨w₁.names, c'⟩) = (some 1, w₂) ∧
      ((∀ x ∈ programmed, w₂.hw.regs x.1 = c.regs x.1) ↔ c.regs .DP2C = 0) := by
  obtain ⟨w₁, w₂, h₁, h₂, hregs⟩ := restore_spec hfuel (R22C_runCalls hr) c c' hlinks
  refine ⟨w₁, w₂, h₁, h₂, fun heq => ?_, fun h0 x hx => ?_⟩
  · have hmem : ((.DP2C, .R22C) : Field × Name) ∈ programmed := by decide
    rw [← heq _ hmem, hregs _ hmem, if_pos rfl]
  · rw [hregs x hx]
    split_ifs with hx'
    · rw [hx', h0]
    · rfl

/-- A downstream port whose prefetchable memory ends above 4 GB. -/
def highMemory : Registers tb3 where
  regs
    | .UPVD => 0x15D38086
    | .DP2C => 1
    | _ => 0
  time := 0

theorem highMemory_links : LinksUp highMemory.regs := ⟨rfl, rfl, rfl, by decide⟩

theorem restore_iff_highMemory :
    ∃ w w₁ w₂, runCalls [.PS0 .RP01] ⟨registers tb3, 1⟩ (loaded highMemory).world = (some (), w) ∧
      save savedRegs ⟨registers tb3, 1⟩ (State.world ⟨w.names, highMemory⟩) = (some (), w₁) ∧
      CNHI ⟨registers tb3, 1⟩ (State.world ⟨w₁.names, highMemory⟩) = (some 1, w₂) ∧
      ((∀ x ∈ programmed, w₂.hw.regs x.1 = highMemory.regs x.1) ↔ highMemory.regs .DP2C = 0) := by
  have hr : runCalls [.PS0 .RP01] ⟨registers tb3, 1⟩ (loaded highMemory).world = (some (), _) := rfl
  obtain ⟨w₁, w₂, h⟩ := restore_iff hr Nat.one_ne_zero highMemory highMemory highMemory_links
  exact ⟨_, w₁, w₂, hr, h⟩

/-- `CNHI` right after the save block changes that register. -/
theorem restore_highMemory :
    ¬ ∃ w₁ w₂, save savedRegs ⟨registers tb3, 1⟩ (State.world ⟨Name.init, highMemory⟩) =
        (some (), w₁) ∧
      CNHI ⟨registers tb3, 1⟩ (State.world ⟨w₁.names, highMemory⟩) = (some 1, w₂) ∧
      ∀ x ∈ programmed, w₂.hw.regs x.1 = highMemory.regs x.1 := by
  rintro ⟨w₁, w₂, h₁, h₂, heq⟩
  obtain ⟨v₁, v₂, hv₁, hv₂, hregs⟩ :=
    restore_spec (n := Name.init) Nat.one_ne_zero rfl highMemory highMemory highMemory_links
  have hw₁ : v₁ = w₁ := congrArg Prod.snd (hv₁.symm.trans h₁)
  subst hw₁
  have hw₂ : v₂ = w₂ := congrArg Prod.snd (hv₂.symm.trans h₂)
  subst hw₂
  have hmem : ((.DP2C, .R22C) : Field × Name) ∈ programmed := by decide
  have hzero := (hregs _ hmem).symm.trans (heq _ hmem)
  rw [if_pos rfl] at hzero
  exact absurd hzero (by decide)

end TB3.RP01
