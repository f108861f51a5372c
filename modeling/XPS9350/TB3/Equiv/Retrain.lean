import XPS9350.Aml.BitField
import XPS9350.Aml.Latch
import XPS9350.TB3.Equiv.Flags

/-!
# The order in which `UPSB.PCED` retrains the link

`retrain_order`: with `LDXX` and `TSPD` of the root port kept as registers, `PCED` starts a retrain
only over an enabled link with the target speed of the third generation, at most twice, and it
never leaves the link disabled or at the temporary speed.
-/

namespace TB3.UPSB

open Aml Aml.Prog

variable {σ : Type} {env : Env tb3 σ}

section

variable (ldxx : Latch env.hw .LDXX) (tspd : Latch env.hw (.TSPD .RP01))

/-- A retrain is started over an enabled link with the target speed of the third generation. -/
def Armed (x : Entry tb3 σ) : Prop :=
  ∀ v, x.event = .store .LRTN v →
    v = 1 ∧ ldxx.value x.before.hw = 0 ∧ tspd.value x.before.hw = 3

/-- The link bits, the number of retrains so far and the speeds targeted so far, newest first. -/
structure Driven (link : BitVec 1) (speed : BitVec 4) (n : ℕ) (speeds : List Integer)
    (w : World tb3 σ) : Prop where
  link : ldxx.value w.hw = link
  speed : tspd.value w.hw = speed
  retrains : (storesTo (S := tb3) .LRTN (effects w.log)).length = n
  speeds : storesTo (S := tb3) (.TSPD .RP01) (effects w.log) = speeds
  armed : ∀ x ∈ w.log, Armed ldxx tspd x

variable {ldxx tspd} {link : BitVec 1} {speed : BitVec 4} {n : ℕ} {speeds : List Integer}
  {w w' : World tb3 σ}

/-- An event that stores to none of the three fields changes nothing. -/
theorem Driven.step {e : Event tb3} (h : Driven ldxx tspd link speed n speeds w)
    (he : ∀ f ∈ [Field.LDXX, .TSPD .RP01, .LRTN], ∀ v, e ≠ .store f v) :
    Driven ldxx tspd link speed n speeds (w.perform env.hw e) where
  link := (ldxx.value_after _ (he .LDXX (by simp))).trans h.link
  speed := (tspd.value_after _ (he (.TSPD .RP01) (by simp))).trans h.speed
  retrains := by
    rw [World.perform_log, storesTo_effects_of_ne (S := tb3) (he .LRTN (by simp)), h.retrains]
  speeds := by
    rw [World.perform_log, storesTo_effects_of_ne (S := tb3) (he (.TSPD .RP01) (by simp)), h.speeds]
  armed x hx := by
    rcases List.mem_cons.mp hx with rfl | hx
    · exact fun v hv => absurd hv (he .LRTN (by simp) v)
    · exact h.armed x hx

/-- Stores to none of the three fields. -/
abbrev Aside : World tb3 σ → Event tb3 → Prop :=
  Within (fun _ _ => True) (fun f _ => f ∉ [Field.LDXX, .TSPD .RP01, .LRTN])

theorem wp_of_aside {α : Type} {m : Method σ α} (hm : Emits env Aside m)
    (h : Driven ldxx tspd link speed n speeds w) :
    wp env (Driven ldxx tspd link speed n speeds) m
      (fun _ => Driven ldxx tspd link speed n speeds) w := by
  have key {w' : World tb3 σ} (hp : Path env.hw Aside w w') :
      Driven ldxx tspd link speed n speeds w' := by
    refine hp.invariant h fun u e hu _ he => hu.step ?_
    rintro f hf v rfl
    exact he hf
  exact wp_of_emits hm (fun _ => key) fun _ _ => key

theorem Driven.store_LDXX {v : Integer} (h : Driven ldxx tspd link speed n speeds w) :
    Driven ldxx tspd (v.setWidth 1) speed n speeds (w.perform env.hw (.store .LDXX v)) where
  link := ldxx.value_store w.toState
  speed := (tspd.value_after _ (by simp)).trans h.speed
  retrains := by
    rw [World.perform_log, storesTo_effects_of_ne (S := tb3) (by simp), h.retrains]
  speeds := by
    rw [World.perform_log, storesTo_effects_of_ne (S := tb3) (by simp), h.speeds]
  armed x hx := by
    rcases List.mem_cons.mp hx with rfl | hx
    · exact fun u hu => by cases hu
    · exact h.armed x hx

theorem Driven.store_TSPD {v : Integer} (h : Driven ldxx tspd link speed n speeds w) :
    Driven ldxx tspd link (v.setWidth 4) n (v :: speeds)
      (w.perform env.hw (.store (.TSPD .RP01) v)) where
  link := (ldxx.value_after _ (by simp)).trans h.link
  speed := tspd.value_store w.toState
  retrains := by
    rw [World.perform_log, storesTo_effects_of_ne (S := tb3) (by simp), h.retrains]
  speeds := by
    rw [World.perform_log, effects_store, storesTo_store, if_pos rfl, h.speeds]
  armed x hx := by
    rcases List.mem_cons.mp hx with rfl | hx
    · exact fun u hu => by cases hu
    · exact h.armed x hx

/-- A retrain when it may be started. -/
theorem Driven.store_LRTN (h : Driven ldxx tspd 0 3 n speeds w) :
    Driven ldxx tspd 0 3 (n + 1) speeds (w.perform env.hw (.store .LRTN 1)) where
  link := (ldxx.value_after _ (by simp)).trans h.link
  speed := (tspd.value_after _ (by simp)).trans h.speed
  retrains := by
    rw [World.perform_log, effects_store, storesTo_store, if_pos rfl, List.length_cons, h.retrains]
  speeds := by
    rw [World.perform_log, storesTo_effects_of_ne (S := tb3) (by simp), h.speeds]
  armed x hx := by
    rcases List.mem_cons.mp hx with rfl | hx
    · rintro v hv
      cases hv
      exact ⟨rfl, h.link, h.speed⟩
    · exact h.armed x hx

/-- Whatever becomes of the call, at most two retrains were started, each when it might. -/
def Halted (ldxx : Latch env.hw .LDXX) (tspd : Latch env.hw (.TSPD .RP01)) (w : World tb3 σ) :
    Prop :=
  ∃ link speed n speeds, n ≤ 2 ∧ Driven ldxx tspd link speed n speeds w

/-- A part of the call that leaves the three fields alone. -/
theorem wp_aside_bind {α β : Type} {m : Method σ α} {k : α → Method σ β}
    {Q : β → World tb3 σ → Prop} (hm : Emits env Aside m) (hn : n ≤ 2)
    (h : Driven ldxx tspd link speed n speeds w)
    (hk : ∀ a w', Driven ldxx tspd link speed n speeds w' →
      wp env (Halted ldxx tspd) (k a) Q w') :
    wp env (Halted ldxx tspd) (m >>= k) Q w := by
  rw [wp_bind]
  exact wp_mono (wp_of_aside hm h) (fun w' h' => ⟨link, speed, n, speeds, hn, h'⟩) hk

/-! ### The parts of `PCED` -/

theorem gen1_driven {Local0 Local5 : Integer} (h0 : Local0 ≠ 0)
    (h : Driven ldxx tspd link speed 0 [] w) :
    wp env (Halted ldxx tspd) (PCED.gen1 Local0 0 Local5)
      (fun _ => Driven ldxx tspd 0 3 1 [3, 1]) w := by
  unfold PCED.gen1
  rw [wp_bind, wp_store, if_neg (by decide), if_pos h0, wp_bind, wp_store]
  have hlow := (h.store_TSPD (v := tb3.cut (.TSPD .RP01) 1)).store_LDXX (v := tb3.cut .LDXX 0)
  apply wp_aside_bind (waitUntil_quiet trained_quiet) (by omega) hlow
  intro _ w₁ h₁
  apply wp_aside_bind (by grind) (by omega) h₁
  intro _ w₂ h₂
  apply wp_aside_bind (waitUntil_quiet present_quiet) (by omega) h₂
  intro _ w₃ h₃
  rw [wp_bind, wp_store, wp_store]
  exact (h₃.store_TSPD (v := tb3.cut (.TSPD .RP01) 3)).store_LRTN

theorem restore_driven {Local5 : Integer} (hp : w.names (.PRSR .RP01) ≠ 0)
    (h : Driven ldxx tspd link speed 0 [] w) :
    wp env (Halted ldxx tspd) (PCED.restore 1 0 Local5)
      (fun _ => Driven ldxx tspd 0 3 1 [3, 1]) w := by
  unfold PCED.restore
  rw [wp_bind, wp_get, if_pos hp, wp_bind, wp_sleep, if_pos (Or.inl (by decide)), wp_bind]
  have hsleep := h.step (e := .sleep 0x1E) (by simp)
  refine wp_imp (gen1_driven (by decide) hsleep) fun _ w₁ h₁ => ?_
  apply wp_aside_bind (by grind) (by omega) h₁
  intro t w₂ h₂
  apply wp_aside_bind (waitUntil_quiet trained_quiet) (by omega) h₂
  intro _ w₃ h₃
  apply wp_aside_bind (by grind) (by omega) h₃
  intro _ w₄ h₄
  exact wp_pure.mpr h₄

/-- After the last part the target speed is that of the third generation or the one before. -/
def Settles (ldxx : Latch env.hw .LDXX) (tspd : Latch env.hw (.TSPD .RP01)) (speed : BitVec 4)
    (speeds : List Integer) (w : World tb3 σ) : Prop :=
  ∃ speed' n speeds', n ≤ 2 ∧ Driven ldxx tspd 0 speed' n speeds' w ∧
    (speed' = 3 ∨ speed' = speed ∧ speeds' = speeds)

/-- The retrain itself, once the root port has its target speed. -/
theorem relink_driven {speeds' : List Integer} (hn : n ≤ 1)
    (h : Driven ldxx tspd 0 3 n speeds' w) :
    wp env (Halted ldxx tspd) (do
      store .LRTN 1
      let Local2 := (← timer) + second
      if ← waitUntil .PCEDgen3 Local2 PCED.trainedPresent then
        Prog.set (.PCIA .RP01) 1) (fun _ => Settles ldxx tspd speed speeds) w := by
  rw [wp_bind, wp_store]
  have hretrain := h.store_LRTN
  apply wp_aside_bind (by grind) (by omega) hretrain
  intro t w₁ h₁
  apply wp_aside_bind (waitUntil_quiet trainedPresent_quiet) (by omega) h₁
  intro c w₂ h₂
  have hdone {w' : World tb3 σ} (h' : Driven ldxx tspd 0 3 (n + 1) speeds' w') :
      Settles ldxx tspd speed speeds w' := ⟨3, n + 1, speeds', by omega, h', Or.inl rfl⟩
  apply wp_ite_of
  · intro _
    exact wp_set.mpr (hdone (h₂.step (by simp)))
  · intro _
    exact wp_pure.mpr (hdone h₂)

theorem retrain_driven (hn : n ≤ 1) (h : Driven ldxx tspd 0 speed n speeds w) :
    wp env (Halted ldxx tspd) PCED.retrain (fun _ => Settles ldxx tspd speed speeds) w := by
  -- the target speed of the upstream port is no concern
  have tail {speeds' : List Integer} {w' : World tb3 σ} (h' : Driven ldxx tspd 0 3 n speeds' w') :
      wp env (Halted ldxx tspd) (do
        if (← load (.TSPD .UPSB)) ≠ 0x03 then
          store (.TSPD .UPSB) 0x03
        store .LRTN 1
        let Local2 := (← timer) + second
        if ← waitUntil .PCEDgen3 Local2 PCED.trainedPresent then
          Prog.set (.PCIA .RP01) 1) (fun _ => Settles ldxx tspd speed speeds) w' := by
    rw [wp_bind, wp_load]
    have hload := h'.step
      (e := .load (.TSPD .UPSB) (env.hw.reads (.TSPD .UPSB) w'.toState)) (by simp)
    apply wp_ite_of
    · intro _
      rw [wp_bind, wp_store]
      exact relink_driven hn (hload.step (by simp))
    · intro _
      exact relink_driven hn hload
  unfold PCED.retrain
  rw [wp_bind, wp_load]
  have hload := h.step (e := .load (.TSPD .RP01) (env.hw.reads (.TSPD .RP01) w.toState)) (by simp)
  apply wp_ite_of
  · intro _
    rw [wp_bind, wp_store]
    exact tail (hload.store_TSPD (v := tb3.cut (.TSPD .RP01) 3))
  · intro hread
    have hspeed : speed = 3 := by
      rw [not_not, tspd.reads_eq, h.speed] at hread
      exact (BitVec.setWidth_inj_of_le (v := speed) (u := 3#4) (by decide)).mp hread
    subst hspeed
    exact tail hload

theorem gen3_driven (hn : n ≤ 1) (h : Driven ldxx tspd 0 speed n speeds w) :
    wp env (Halted ldxx tspd) PCED.gen3 (fun _ => Settles ldxx tspd speed speeds) w := by
  have hset {w' : World tb3 σ} (h' : Driven ldxx tspd 0 speed n speeds w') :
      wp env (Halted ldxx tspd) (Prog.set (.PCIA .RP01) 1)
        (fun _ => Settles ldxx tspd speed speeds) w' :=
    wp_set.mpr ⟨speed, n, speeds, by omega, h'.step (by simp), Or.inr ⟨rfl, rfl⟩⟩
  unfold PCED.gen3
  apply wp_aside_bind (by grind) (by omega) h
  intro _ w₁ h₁
  apply wp_ite_of
  · intro _
    apply wp_aside_bind (by grind) (by omega) h₁
    intro _ w₂ h₂
    apply wp_ite_of
    · intro _
      apply wp_aside_bind (by grind) (by omega) h₂
      intro _ w₃ h₃
      apply wp_ite_of
      · exact fun _ => retrain_driven hn h₃
      · exact fun _ => hset h₃
    · exact fun _ => hset h₂
  · exact fun _ => hset h₁

/-- What follows the middle part. -/
theorem tail_driven {Local5 : Integer} (hn : n ≤ 1)
    (h : Driven ldxx tspd 0 speed n speeds w) :
    wp env (Halted ldxx tspd) (do
      Prog.set (.PRSR .RP01) 0
      let _ ← waitUntil .PCEDpresent Local5 (present .UPSB)
      PCED.gen3
      Prog.set (.IIP3 .RP01) 0) (fun _ => Settles ldxx tspd speed speeds) w := by
  apply wp_aside_bind (by grind) (by omega) h
  intro _ w₁ h₁
  apply wp_aside_bind (waitUntil_quiet present_quiet) (by omega) h₁
  intro _ w₂ h₂
  rw [wp_bind]
  refine wp_imp (gen3_driven hn h₂) fun _ w₃ h₃ => ?_
  obtain ⟨speed', n', speeds', hn', h', hor⟩ := h₃
  exact wp_set.mpr ⟨speed', n', speeds', hn', h'.step (by simp), hor⟩

/-- The speeds are right in the end: untouched or that of the third generation. -/
theorem PCED_driven (h : Driven ldxx tspd 0 speed 0 [] w) :
    wp env (Halted ldxx tspd) PCED (fun _ w' => ∃ speed' n speeds', n ≤ 2 ∧
      Driven ldxx tspd 0 speed' n speeds' w' ∧ (speeds' ≠ [] → speed' = 3)) w := by
  unfold PCED PCED.disable
  simp only [RP01.UGIO_eq, pure_bind, ne_eq, not_true_eq_false, ↓reduceIte]
  rw [wp_bind, wp_set, wp_bind, wp_bind, wp_get, World.perform_toState]
  have hset := h.step (e := .set .GPCI 1) (by simp)
  by_cases hI : w.names (.IIP3 .RP01) = 0
  · -- the link is not disabled
    have hI' : (env.hw.after w.toState (.set .GPCI 1)).names (.IIP3 .RP01) = 0 := hI
    rw [if_neg (not_not.mpr hI'), wp_pure]
    apply wp_aside_bind (by grind) (by omega) hset
    intro t w₁ h₁
    apply wp_aside_bind restore_quiet.within (by omega) h₁
    intro Local5 w₂ h₂
    refine wp_imp (tail_driven (by omega) h₂) ?_
    rintro _ w₃ ⟨speed', n', speeds', hn', h', hor⟩
    refine ⟨speed', n', speeds', hn', h', fun hne => hor.resolve_right ?_⟩
    rintro ⟨-, hnil⟩
    exact hne hnil
  · -- the link is disabled first
    have hI' : (env.hw.after w.toState (.set .GPCI 1)).names (.IIP3 .RP01) ≠ 0 := hI
    rw [if_pos hI', wp_bind, wp_set, wp_bind, wp_store, wp_pure, wp_bind, wp_timer, wp_bind]
    have hdisable := (hset.step (e := .set (.PRSR .RP01) 1) (by simp)).store_LDXX
      (v := tb3.cut .LDXX 1)
    refine wp_imp (restore_driven ?_ (hdisable.step ?_)) fun Local5 w₁ h₁ => ?_
    · simp [Hardware.after]
    · simp
    refine wp_imp (tail_driven (by omega) h₁) ?_
    rintro _ w₃ ⟨speed', n', speeds', hn', h', hor⟩
    exact ⟨speed', n', speeds', hn', h', fun _ => hor.elim id And.left⟩

end

/-! ### The call -/

/-- **`PCED` retrains in a safe order and leaves a clean state**: with `LDXX` and `TSPD` as
registers and the link enabled at entry, every retrain is started over an enabled link with the
target speed of the third generation, there are at most two of them and one pulse of `LDXX`, and on
return the link is enabled and the target speed, if `PCED` wrote it, that of the third generation,
whatever all other registers and the clock do. -/
theorem retrain_order {hw : Hardware tb3 σ} (ldxx : Latch hw .LDXX) (tspd : Latch hw (.TSPD .RP01))
    (fuel : ℕ) (s : State tb3 σ) (h0 : ldxx.value s.hw = 0) :
    ∃ r w, PCED ⟨hw, fuel⟩ s.world = (r, w) ∧
      (∀ x ∈ w.log, ∀ v, x.event = .store .LRTN v →
        v = 1 ∧ ldxx.value x.before.hw = 0 ∧ tspd.value x.before.hw = 3) ∧
      (storesTo (S := tb3) .LRTN (effects w.log)).length ≤ 2 ∧
      (linkStores w.log = [] ∨ linkStores w.log = [0, 1]) ∧
      (r = some () → ldxx.value w.hw = 0 ∧ w.names (.PRSR .RP01) = 0 ∧
        w.names (.IIP3 .RP01) = 0 ∧ w.names .GPCI = 1 ∧
        (storesTo (S := tb3) (.TSPD .RP01) (effects w.log) ≠ [] → tspd.value w.hw = 3)) := by
  let env : Env tb3 σ := ⟨hw, fuel⟩
  have hstart : @Driven σ env ldxx tspd 0 (tspd.value s.hw) 0 [] s.world :=
    ⟨h0, rfl, rfl, rfl, by simp⟩
  have hdriven := wp_iff.mp (PCED_driven hstart)
  have hlink : linkStores (PCED env s.world).2.log = _ := PCED_linkStores s.world
  rcases hr : PCED env s.world with ⟨r, w⟩
  rw [hr] at hlink
  have hpulse : linkStores w.log = [] ∨ linkStores w.log = [0, 1] := by
    rw [hlink]
    split_ifs
    · exact Or.inr rfl
    · exact Or.inl rfl
  refine ⟨r, w, rfl, ?_⟩
  cases r with
  | none =>
    obtain ⟨link, speed, n, speeds, hn, h⟩ := hdriven.2 w hr
    exact ⟨h.armed, by rw [h.retrains]; exact hn, hpulse, fun h => nomatch h⟩
  | some u =>
    obtain ⟨speed, n, speeds, hn, h, hspeed⟩ := hdriven.1 u w hr
    have hensures : Ensures env PCED _ s.world.names (effects s.world.log) := PCED_flags
    obtain ⟨b, hflags⟩ := hensures.run hr
    have hPRSR : (flags w.names).PRSR .RP01 = 0 := by
      simp [hflags, Flags.relink]
    have hIIP3 : (flags w.names).IIP3 .RP01 = 0 := by
      simp [hflags, Flags.relink]
    have hgate : (flags w.names).gate .RP01 = 1 := by
      simp [hflags, Flags.relink]
    refine ⟨h.armed, by rw [h.retrains]; exact hn, hpulse,
      fun _ => ⟨h.link, hPRSR, hIIP3, hgate, ?_⟩⟩
    rw [h.speeds, h.speed]
    exact hspeed

/-- The root port was suspended, both ends support the third generation, and the link never stops
training. -/
def suspended : State tb3 (Registers tb3) where
  names := Function.update Name.init (.IIP3 .RP01) 1
  hw := { regs := fun | .LTRN _ => (1 : BitVec 1) | .SSPD _ => (3 : BitVec 4) | _ => 0, time := 0 }

/-- All waits time out: `PCED` targets the temporary speed and disables the link, undoes both, and
retrains the link twice. -/
theorem retrain_order_suspended :
    ∃ w, PCED ⟨registers tb3, 102⟩ suspended.world = (some (), w) ∧
      linkStores w.log = [0, 1] ∧
      storesTo (S := tb3) (.TSPD .RP01) (effects w.log) = [3, 1] ∧
      storesTo (S := tb3) .LRTN (effects w.log) = [1, 1] ∧
      (∀ x ∈ w.log, ∀ v, x.event = .store .LRTN v →
        v = 1 ∧ x.before.hw.regs .LDXX = 0 ∧ x.before.hw.regs (.TSPD .RP01) = 3) ∧
      w.hw.regs .LDXX = 0 ∧ w.names (.PRSR .RP01) = 0 ∧ w.names (.IIP3 .RP01) = 0 ∧
      w.names .GPCI = 1 ∧ w.hw.regs (.TSPD .RP01) = 3 := by
  have hstores : let run := PCED ⟨registers tb3, 102⟩ suspended.world
      run.1 = some () ∧ linkStores run.2.log = [0, 1] ∧
        storesTo (S := tb3) (.TSPD .RP01) (effects run.2.log) = [3, 1] ∧
        storesTo (S := tb3) .LRTN (effects run.2.log) = [1, 1] := by
    decide +kernel
  obtain ⟨r, w, hrun, harmed, -, -, hclean⟩ := retrain_order (registersLatch tb3 .LDXX)
    (registersLatch tb3 (.TSPD .RP01)) 102 suspended rfl
  rw [hrun] at hstores
  obtain ⟨hdone, hlink, hspeeds, hretrains⟩ := hstores
  obtain rfl : r = some () := hdone
  obtain ⟨hLDXX, hPRSR, hIIP3, hGPCI, hTSPD⟩ := hclean rfl
  have hwritten : storesTo (S := tb3) (.TSPD .RP01) (effects w.log) ≠ [] := by
    rw [hspeeds]
    exact List.cons_ne_nil _ _
  exact ⟨w, hrun, hlink, hspeeds, hretrains, harmed, hLDXX, hPRSR, hIIP3, hGPCI, hTSPD hwritten⟩

end TB3.UPSB
