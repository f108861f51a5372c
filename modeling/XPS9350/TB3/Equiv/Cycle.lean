import XPS9350.TB3.Equiv.Flags
import XPS9350.TB3.Equiv.Termination

/-!
# A full cycle of suspend and resume

* `runCalls_flags`: sequences of calls refine runs of the flags.
* `cycle_neutral_iff`: suspending a port and its child and resuming them undoes the bookkeeping of
  `RP01` and `DSB2`, and never that of `DSB0`: no method clears `DSB0.IIP3`, because the `PCED`
  that `NHI0._PS0` calls is the one of `UPSB`.
-/

namespace TB3

open Aml Aml.Prog

variable {σ : Type} {env : Env tb3 σ}

/-! ### Runs -/

/-- **Sequences of calls refine runs of the flags.** -/
theorem runCalls_flags (cs : List Call) {names : Name → Integer} {es : List (Event tb3)} :
    Ensures env (runCalls cs) (fun _ n _ => Flags.Run cs (flags names) (flags n)) names es := by
  induction cs generalizing names es with
  | nil => exact ensures_pure .nil
  | cons c cs ih =>
    refine ensures_bind ((run_flags c).imp fun _ n e hstep => ?_)
    obtain ⟨b, hb⟩ := hstep
    exact ih.imp fun _ n' _ hrun => .cons b (hb ▸ hrun)

theorem runCalls_ends (C : Clock env.hw) (hfuel : 10000 < env.fuel) (cs : List Call) :
    C.Ends limits (runCalls cs) := by
  induction cs with
  | nil => exact ends_pure
  | cons c cs ih => exact ends_seq (run_ends c hfuel) ih

/-! ### The cycle -/

/-- The child of a port goes to sleep first and wakes up last. -/
def cycle (p : Port) : List Call := [.PS3 p.child, .PS3 p.scope, .PS0 p.scope, .PS0 p.child]

namespace Flags

theorem Run.cons_iff {c : Call} {cs : List Call} {s s' : Flags} :
    Run (c :: cs) s s' ↔ ∃ b, Run cs (s.step b c) s' :=
  ⟨fun | .cons b h => ⟨b, h⟩, fun ⟨b, h⟩ => .cons b h⟩

theorem Run.nil_iff {s s' : Flags} : Run [] s s' ↔ s' = s :=
  ⟨fun | .nil => rfl, fun h => h ▸ .nil⟩

/-- A port is neutral right after its link was brought up. -/
theorem neutral_relink (p : Port) (up : Bool) (s : Flags) : Neutral p (s.relink p up) where
  IIP3 := Function.update_self ..
  PRSR := Function.update_self ..
  gate := Function.update_self ..

/-- Bringing up the link of another port leaves a suspended port as it is. -/
theorem IIP3_relink {p q : Port} {up : Bool} {s : Flags} (h : p ≠ q) :
    (s.relink q up).IIP3 p = s.IIP3 p := Function.update_of_ne h ..

theorem IIP3_suspend (p : Port) (s : Flags) : (s.suspend p).IIP3 p = 1 :=
  Function.update_self ..

/-- The last step of the cycle decides. -/
theorem run_cycle {p : Port} {s s' : Flags} (h : Run (cycle p) s s') :
    Neutral p s' ↔ p ≠ .DSB0 := by
  simp only [cycle, Run.cons_iff, Run.nil_iff] at h
  obtain ⟨_, _, reset, up, rfl⟩ := h
  cases p with
  | RP01 => exact iff_of_true (neutral_relink .RP01 up _) (by decide)
  | DSB2 => exact iff_of_true (neutral_relink .DSB2 up _) (by decide)
  | DSB0 =>
    refine iff_of_false (fun hn => ?_) (fun hne => hne rfl)
    have hone : (((s.suspend .DSB0).resume .DSB0 reset).relink .RP01 up).IIP3 .DSB0 = 1 :=
      (IIP3_relink (by decide)).trans (IIP3_suspend .DSB0 s)
    have hzero : (1 : Integer) = 0 := hone.symm.trans hn.IIP3
    exact absurd hzero (by decide)

end Flags

/-- **A full cycle restores the bookkeeping of `RP01` and `DSB2` and never that of `DSB0`**, and it
ends as long as the clock does not wrap around. -/
theorem cycle_neutral_iff (p : Port) (w : World tb3 σ) :
    (∀ w', runCalls (cycle p) env w = (some (), w') →
      (Flags.Neutral p (flags w'.names) ↔ p ≠ .DSB0)) ∧
    ∀ C : Clock env.hw, 10000 < env.fuel → C.now (runCalls (cycle p) env w).2.hw < 2 ^ 64 →
      ∃ w', runCalls (cycle p) env w = (some (), w') := by
  refine ⟨fun w' hr => ?_, fun C hfuel hclock => ?_⟩
  · have hrun : Flags.Run (cycle p) (flags w.names) (flags w'.names) := (runCalls_flags _).run hr
    exact Flags.run_cycle hrun
  · obtain ⟨_, w', hr, -⟩ := (runCalls_ends C hfuel _).run hclock
    exact ⟨w', hr⟩

/-- From the flags the table is loaded with, on hardware that reads as zero. -/
theorem cycle_DSB0 :
    ∃ w', runCalls (cycle .DSB0) ⟨zeros tb3, 10001⟩ (loaded 0).world = (some (), w') ∧
      Flags.Neutral .DSB0 (flags (loaded 0).names) ∧ ¬ Flags.Neutral .DSB0 (flags w'.names) := by
  have hr : runCalls (cycle .DSB0) ⟨zeros tb3, 10001⟩ (loaded 0).world = (some (), _) := rfl
  refine ⟨_, hr, ⟨rfl, rfl, rfl⟩, fun h => ?_⟩
  have hrun : Flags.Run (cycle .DSB0) (flags (loaded 0).names) _ := (runCalls_flags _).run hr
  exact absurd rfl ((Flags.run_cycle hrun).mp h)

end TB3
