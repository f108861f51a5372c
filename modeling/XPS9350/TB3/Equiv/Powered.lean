import XPS9350.TB3.Equiv.Flags

/-!
# The link stays powered

The flags that keep the link powered are one when the table is loaded, and no sequence of calls
changes that: with `RTBT` and `RUSB` set, `POFF` is zero, and then `PCDA` only marks its port as
suspended (`PCDA_run`).  So every call is `Safe` from such a state (`run_safe`), and so is every
sequence of calls (`runCalls_safe`).
-/

namespace TB3

open Aml Aml.Prog

variable {σ : Type} {env : Env tb3 σ} {w w' : World tb3 σ}

/-- The flags that keep the link powered are all set. -/
def Powered (names : Name → Integer) : Prop := ∀ n : Name, n.isKept → names n = 1

theorem powered_init : Powered Name.init := by
  intro n hn
  cases n <;> first | rfl | cases hn

theorem Powered.off {names : Name → Integer} (h : Powered names) (p : Port) : p.off names = 0 := by
  have ht : names .RTBT = 1 := h _ rfl
  have hu : names .RUSB = 1 := h _ rfl
  cases p <;> simp [Port.off, ht, hu]

/-- A safe event keeps the flags. -/
theorem Powered.after {e : Event tb3} (h : Powered w.names) (he : Safe w e) :
    Powered (env.hw.after w.toState e).names := by
  intro n hn
  cases e with
  | set m v =>
    by_cases hm : n = m
    · subst hm
      simpa [Hardware.after] using he.2 hn
    · simpa [Hardware.after, Function.update_of_ne hm] using h n hn
  | _ => exact h n hn

theorem Powered.path (h : Powered w.names) (hp : Path env.hw Safe w w') : Powered w'.names :=
  hp.invariant (I := fun u => Powered u.names) h fun _ _ hu _ he => hu.after he

/-! ### Every call is safe -/

theorem POFF_run (p : Port) (w : World tb3 σ) : POFF p env w = (some (p.off w.names), w) := by
  cases p with
  | RP01 =>
    change (some (truth _), w) = _
    simp [Port.off]
  | DSB0 => rfl
  | DSB2 => rfl

/-- With nothing to power off, `PCDA` only marks the port as suspended. -/
theorem PCDA_run {p : Port} (h : p.off w.names = 0) :
    PCDA p env w = (some (), w.perform env.hw (.set (.IIP3 p) 1)) := by
  unfold PCDA
  rw [bind_of_some (POFF_run p w), h]
  rfl

theorem _PS3_run (h : Port.off .RP01 w.names = 0) :
    RP01._PS3 env w = (some (), w.perform env.hw (.set (.IIP3 .RP01) 1)) := by
  refine (bind_of_some (POFF_run .RP01 w)).trans ?_
  rw [h]
  exact PCDA_run h

/-- From a powered state every call is safe. -/
theorem run_safe (c : Call) (h : Powered w.names) : Path env.hw Safe w (c.run env w).2 := by
  have mark (p : Port) : Path env.hw Safe w (w.perform env.hw (.set (.IIP3 p) 1)) :=
    .single trivial ⟨nofun, fun hk => by cases hk⟩
  cases c with
  | INI => exact emits_safe RP01._INI_background w
  | PS0 s =>
    cases s with
    | RP01 => exact emits_safe_of_zeros (PCEU_zeros .RP01) w
    | DSB0 => exact emits_safe_of_zeros (PCEU_zeros .DSB0) w
    | DSB2 => exact emits_safe_of_zeros (PCEU_zeros .DSB2) w
    | UPSB => exact UPSB._PS0_safe w
    | NHI0 => exact NHI0._PS0_safe w
    | XHC2 => exact emits_safe_of_zeros XHC2._PS0_zeros w
  | PS3 s =>
    cases s with
    | RP01 =>
      change Path env.hw Safe w (RP01._PS3 env w).2
      rw [_PS3_run (h.off .RP01)]
      exact mark .RP01
    | DSB0 =>
      change Path env.hw Safe w (PCDA .DSB0 env w).2
      rw [PCDA_run (h.off .DSB0)]
      exact mark .DSB0
    | DSB2 =>
      change Path env.hw Safe w (PCDA .DSB2 env w).2
      rw [PCDA_run (h.off .DSB2)]
      exact mark .DSB2
    | UPSB => exact emits_safe UPSB._PS3_background w
    | NHI0 => exact .refl
    | XHC2 => exact emits_sleep (fun _ => trivial) w

theorem runCalls_safe : ∀ (cs : List Call) (w : World tb3 σ), Powered w.names →
    Path env.hw Safe w (runCalls cs env w).2 := by
  intro cs
  induction cs with
  | nil => exact fun w _ => .refl
  | cons c cs ih =>
    intro w h
    refine path_bind (run_safe c h) (wp_iff.mpr ⟨fun _ w' hr => ih w' ?_, fun _ _ => trivial⟩)
    have hp : Path env.hw Safe w (c.run env w).2 := run_safe c h
    rw [hr] at hp
    exact h.path hp

theorem powered_runCalls {h : σ} {cs : List Call} (hr : runCalls cs env (loaded h).world = (some (), w)) :
    Powered w.names := by
  have hp : Path env.hw Safe _ (runCalls cs env (loaded h).world).2 :=
    runCalls_safe cs _ powered_init
  rw [hr] at hp
  exact powered_init.path hp

/-- No method stores to `R22C`. -/
theorem R22C_runCalls {h : σ} {cs : List Call}
    (hr : runCalls cs env (loaded h).world = (some (), w)) : w.names .R22C = 0 := by
  have hp : Path env.hw Safe _ (runCalls cs env (loaded h).world).2 :=
    runCalls_safe cs _ powered_init
  rw [hr] at hp
  exact hp.names_of_within fun _ hs => hs.1 rfl

end TB3
