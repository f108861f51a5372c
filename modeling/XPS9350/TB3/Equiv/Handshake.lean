import XPS9350.Aml.BitField
import XPS9350.Aml.Effects
import XPS9350.Aml.Wp
import XPS9350.TB3.Dsdt
import XPS9350.TB3.Port

/-!
# The handshake of the PCIe to Thunderbolt mailbox

`TBTC` and `OSUP` both write a command and read until the device acknowledges it or turns out to be
gone.  `Gone` classifies the values that the reads return.

* `TBTC_run`: `TBTC` always takes the command back; its early exit is dead, because the value that
  it tests for has the acknowledge bit set.
* `OSUP_run`: `OSUP` distinguishes the two cases.
* `handshake_iff`: so they agree exactly when the device is not gone.
-/

namespace TB3

open Aml Aml.Prog

variable {σ : Type} {env : Env tb3 σ} {w : World tb3 σ}

/-! ### The classification -/

/-- A value that ends the handshake: the device is gone, or the acknowledge bit is set. -/
def decisive (v : BitVec 32) : Bool := v = 0xFFFFFFFF#32 || v &&& 1#32 ≠ 0#32

/-- The first decisive value among the first 100. -/
def verdict (vals : ℕ → BitVec 32) : Option (BitVec 32) :=
  ((List.range 100).find? fun i => decisive (vals i)).map vals

/-- The first decisive value says that the device is gone. -/
def Gone (vals : ℕ → BitVec 32) : Prop := verdict vals = some 0xFFFFFFFF#32

instance (vals : ℕ → BitVec 32) : Decidable (Gone vals) :=
  inferInstanceAs (Decidable (verdict vals = some 0xFFFFFFFF#32))

/-- What is stored to the mailbox `f`, newest first: the command, and zero at the end unless the
device is gone. -/
def owed (f : Field) (cmd : Integer) (gone : Bool) : List (Event tb3) :=
  if gone then [.store f cmd] else [.store f 0, .store f cmd]

/-- Hardware on which the `i`-th read returns the `i`-th value. -/
def replies (vals : ℕ → BitVec 32) : Hardware tb3 ℕ where
  load f i := ((vals i).setWidth f.width, i + 1)
  store _ _ i := i
  sleep _ i := i
  stall _ i := i
  timer i := (0, i)

section Verdict

variable {vals : ℕ → BitVec 32} {i : ℕ}

theorem verdict_eq_some (hi : i < 100) (h : decisive (vals i)) (hlt : ∀ j < i, ¬ decisive (vals j)) :
    verdict vals = some (vals i) := by
  have hfind : (List.range 100).find? (fun i => decisive (vals i)) = some i := by
    rw [List.find?_range_eq_some]
    exact ⟨h, List.mem_range.mpr hi, fun j hj => by simpa using hlt j hj⟩
  rw [verdict, hfind, Option.map_some]

theorem verdict_eq_none (h : ∀ j < 100, ¬ decisive (vals j)) : verdict vals = none := by
  have hfind : (List.range 100).find? (fun i => decisive (vals i)) = none := by
    rw [List.find?_eq_none]
    exact fun j hj => h j (List.mem_range.mp hj)
  rw [verdict, hfind, Option.map_none]

end Verdict

/-! ### The values read -/

theorem gone_iff (v : BitVec 32) : v.setWidth 64 = (0xFFFFFFFF : Integer) ↔ v = 0xFFFFFFFF#32 :=
  BitVec.setWidth_inj_of_le (u := 0xFFFFFFFF) (by decide)

theorem acked_iff (v : BitVec 32) : v.setWidth 64 &&& 1 ≠ (0 : Integer) ↔ v &&& 1#32 ≠ 0#32 := by
  have hand : v.setWidth 64 &&& 1 = (v &&& 1#32).setWidth 64 := by
    rw [BitVec.setWidth_and]
    rfl
  rw [hand]
  exact not_congr (BitVec.setWidth_inj_of_le (u := 0) (by decide))

theorem reads_replies (vals : ℕ → BitVec 32) (s : State tb3 ℕ) :
    (replies vals).reads .TB2P s = (vals s.hw).setWidth 64 := by
  show ((vals s.hw).setWidth 32).setWidth 64 = _
  rw [BitVec.setWidth_eq]

/-! ### `TBTC` -/

/-- **`TBTC` always ends without a `Return` and takes the command back**, on any hardware. -/
theorem RP01.TBTC_run (Arg0 : Integer) (hfuel : 100 < env.fuel) :
    ∃ w', TBTC Arg0 env w = (some none, w') ∧
      effects w'.log = owed .P2TR (tb3.cut .P2TR Arg0) false ++ effects w.log := by
  suffices h : wp env (fun _ => False) (TBTC Arg0) (fun r w' => r = none ∧
      effects w'.log = owed .P2TR (tb3.cut .P2TR Arg0) false ++ effects w.log) w by
    obtain ⟨_, w', hr, rfl, he⟩ := wp_false_iff.mp h
    exact ⟨w', hr, he⟩
  -- what is left to do after the loop, from where only the command was stored
  have last (w' : World tb3 σ)
      (he : effects w'.log = .store .P2TR (tb3.cut .P2TR Arg0) :: effects w.log) :
      wp env (fun _ => False)
        (do
          if (none : Option Integer) = none then
            store .P2TR 0
          pure none : Method σ (Option Integer))
        (fun r w' => r = none ∧
          effects w'.log = owed .P2TR (tb3.cut .P2TR Arg0) false ++ effects w.log) w' := by
    rw [if_pos rfl, wp_bind, wp_store, wp_pure, World.perform_log, effects_store, he]
    exact ⟨rfl, by simp [owed]⟩
  unfold TBTC
  rw [wp_bind, wp_store, wp_bind, wp_load, wp_bind]
  refine wp_whileLoop_bounded (fun i x w' => x.1.toNat + i = 100 ∧ 1 ≤ x.1.toNat ∧
    effects w'.log = .store .P2TR (tb3.cut .P2TR Arg0) :: effects w.log) 100 hfuel ?_ ?_
  · exact ⟨rfl, show 1 ≤ (0x64 : Integer).toNat by decide, rfl⟩
  · rintro i ⟨Local0, Local1⟩ w' ⟨hi, h1, he⟩
    refine ⟨by omega, wp_pure.mpr ?_⟩
    by_cases hbit : Local1 &&& 1 = 0
    · rw [if_pos (decide_eq_true hbit)]
      -- a value without the acknowledge bit is not all ones
      have hne : Local1 ≠ 0xFFFFFFFF := by
        rintro rfl
        exact absurd hbit (by decide)
      refine wp_ite_of (fun h => absurd h hne) fun _ => ?_
      refine wp_ite_of (fun _ => wp_pure.mpr (last _ he)) fun h0 => ?_
      rw [wp_bind, wp_load, wp_bind, wp_sleep, wp_pure]
      have hsub : (Local0 - 1).toNat = Local0.toNat - 1 := by bv_omega
      have hpos : (Local0 - 1).toNat ≠ 0 := fun h => h0 (BitVec.eq_of_toNat_eq h)
      dsimp only at hi
      refine ⟨?_, ?_, he⟩
      · show (Local0 - 1).toNat + (i + 1) = 100
        omega
      · show 1 ≤ (Local0 - 1).toNat
        omega
    · rw [if_neg (by simpa using hbit)]
      exact last _ he

/-! ### `OSUP` -/

/-- **`OSUP` takes the command back unless the device is gone.** -/
theorem OSUP_run (Arg0 : Integer) {fuel : ℕ} (hfuel : 100 < fuel) (n : Name → Integer)
    (vals : ℕ → BitVec 32) :
    ∃ w', OSUP Arg0 ⟨replies vals, fuel⟩ (State.world ⟨n, 0⟩) =
        (some (if Gone vals then 2 else 1), w') ∧
      effects w'.log = owed .P2TB 0x0D (Gone vals) := by
  suffices h : wp ⟨replies vals, fuel⟩ (fun _ => False) (OSUP Arg0)
      (fun r w' => r = (if Gone vals then 2 else 1) ∧
        effects w'.log = owed .P2TB 0x0D (Gone vals)) (State.world ⟨n, 0⟩) by
    obtain ⟨_, w', hr, rfl, he⟩ := wp_false_iff.mp h
    exact ⟨w', hr, he⟩
  -- what is left to do after a loop that was not left by `Return`
  have last (w' : World tb3 ℕ) (hgone : ¬ Gone vals)
      (he : effects w'.log = [.store .P2TB 0x0D]) :
      wp ⟨replies vals, fuel⟩ (fun _ => False)
        (do
          store .P2TB 0
          pure 1 : Method ℕ Integer)
        (fun r w' => r = (if Gone vals then 2 else 1) ∧
          effects w'.log = owed .P2TB 0x0D (Gone vals)) w' := by
    rw [wp_bind, wp_store, wp_pure, World.perform_log, effects_store, he]
    simp [owed, hgone]
  unfold OSUP
  rw [wp_call, wp_bind, wp_store, wp_bind]
  refine wp_whileLoop_bounded (fun i Local1 w' => Local1.toNat + i = 100 ∧ w'.hw = i ∧
    (∀ j < i, ¬ decisive (vals j)) ∧ effects w'.log = [.store Field.P2TB 0x0D]) 100 hfuel ?_ ?_
  · exact ⟨rfl, rfl, by simp, rfl⟩
  · rintro i Local1 w' ⟨hi, hhw, hlt, he⟩
    refine ⟨by omega, wp_pure.mpr ?_⟩
    by_cases hpos : 0 < Local1
    · rw [if_pos (decide_eq_true hpos), wp_bind, wp_load]
      have hi100 : i < 100 := by
        have : 0 < Local1.toNat := hpos
        omega
      have hread (u : World tb3 ℕ) (hu : u.hw = i) :
          (⟨replies vals, fuel⟩ : Env tb3 ℕ).hw.reads .TB2P u.toState = (vals i).setWidth 64 := by
        rw [← hu]
        exact reads_replies vals u.toState
      rw [hread ((w'.perform _ (.test .OSUP i)).perform _ (.pass .OSUP i)) hhw]
      refine wp_ite_of (fun h => wp_pure.mpr ?_) fun hne => ?_
      · -- the device is gone
        have hv : vals i = 0xFFFFFFFF#32 := (gone_iff _).mp h
        have hgone : verdict vals = some (vals i) :=
          verdict_eq_some hi100 (by simp [decisive, hv]) hlt
        have hgone : Gone vals := hgone.trans (by rw [hv])
        have he' : effects w'.log = owed .P2TB 0x0D (Gone vals) := by simpa [owed, hgone] using he
        exact wp_pure.mpr ⟨by rw [if_pos hgone], he'⟩
      · have hv : vals i ≠ 0xFFFFFFFF#32 := mt (gone_iff _).mpr hne
        refine wp_ite_of (fun hack => wp_pure.mpr ?_) fun hnack => ?_
        · -- the command is acknowledged
          have hd : decisive (vals i) := by simpa [decisive, hv] using (acked_iff _).mp hack
          have hsome : verdict vals = some (vals i) := verdict_eq_some hi100 hd hlt
          exact last _ (by simp [Gone, hsome, hv]) he
        · have hd : ¬ decisive (vals i) := by
            simpa [decisive, hv] using mt (acked_iff _).mpr hnack
          rw [wp_bind, wp_sleep, wp_pure]
          have hsub : (Local1 - 1).toNat = Local1.toNat - 1 := by bv_omega
          refine ⟨?_, ?_, ?_, he⟩
          · omega
          · show w'.hw + 1 = i + 1
            rw [hhw]
          · intro j hj
            rcases Nat.lt_succ_iff_lt_or_eq.mp hj with hj | rfl
            · exact hlt j hj
            · exact hd
    · rw [if_neg (by simpa using hpos)]
      have hzero : Local1.toNat = 0 := by
        have : ¬ 0 < Local1.toNat := hpos
        omega
      have hnone : verdict vals = none := verdict_eq_none fun j hj => hlt j (by omega)
      exact last _ (by simp [Gone, hnone]) he

/-! ### Both -/

/-- `TBTC` makes the distinction: it exits early when the device is gone and takes the command back
otherwise. -/
def Distinguishes (fuel : ℕ) (n : Name → Integer) (vals : ℕ → BitVec 32) (Arg0 : Integer) : Prop :=
  ∃ w', RP01.TBTC Arg0 ⟨replies vals, fuel⟩ (State.world ⟨n, 0⟩) =
      (some (if Gone vals then some 0 else none), w') ∧
    effects w'.log = owed .P2TR (tb3.cut .P2TR Arg0) (Gone vals)

theorem distinguishes_iff (Arg0 : Integer) {fuel : ℕ} (hfuel : 100 < fuel) (n : Name → Integer)
    (vals : ℕ → BitVec 32) : Distinguishes fuel n vals Arg0 ↔ ¬ Gone vals := by
  obtain ⟨w', hr, he⟩ := RP01.TBTC_run (w := State.world ⟨n, 0⟩) Arg0
    (show 100 < (⟨replies vals, fuel⟩ : Env tb3 ℕ).fuel from hfuel)
  constructor
  · rintro ⟨u, hu, -⟩ hgone
    rw [if_pos hgone, hr] at hu
    simp at hu
  · intro hgone
    refine ⟨w', by rw [if_neg hgone, hr], ?_⟩
    rw [he, decide_eq_false hgone]
    exact List.append_nil _

/-- **`TBTC` and `OSUP` classify the values that they read alike exactly when the device is not
gone**: `OSUP` always makes the distinction. -/
theorem handshake_iff (Arg0 Arg0' : Integer) {fuel : ℕ} (hfuel : 100 < fuel) (n : Name → Integer)
    (vals : ℕ → BitVec 32) :
    (Distinguishes fuel n vals Arg0 ↔ ¬ Gone vals) ∧
    ∃ w', OSUP Arg0' ⟨replies vals, fuel⟩ (State.world ⟨n, 0⟩) =
        (some (if Gone vals then 2 else 1), w') ∧
      effects w'.log = owed .P2TB 0x0D (Gone vals) :=
  ⟨distinguishes_iff Arg0 hfuel n vals, OSUP_run Arg0' hfuel n vals⟩

/-- The value that every register of a removed device reads as. -/
def removed : ℕ → BitVec 32 := fun _ => 0xFFFFFFFF

theorem gone_removed : Gone removed := verdict_eq_some (i := 0) (by decide) (by decide) (by simp)

theorem handshake_iff_removed :
    (Distinguishes 101 Name.init removed 0x05 ↔ ¬ Gone removed) ∧
    ∃ w', OSUP 0 ⟨replies removed, 101⟩ (State.world ⟨Name.init, 0⟩) =
        (some (if Gone removed then 2 else 1), w') ∧
      effects w'.log = owed .P2TB 0x0D (Gone removed) :=
  handshake_iff 0x05 0 (by decide) Name.init removed

theorem not_distinguishes_removed :
    Gone removed ∧ ¬ Distinguishes 101 Name.init removed 0x05 :=
  ⟨gone_removed, fun h => (distinguishes_iff _ (by decide) _ _).mp h gone_removed⟩

end TB3
