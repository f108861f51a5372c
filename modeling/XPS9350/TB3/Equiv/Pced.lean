import XPS9350.TB3.Equiv.Footprint

/-!
# The effects of bringing a link up

`UPSB.PCED_spec`: whatever the hardware answers, the stores of `UPSB.PCED` are those of
`pcedEffects`, where only the choices of the last part depend on what was read.  The link is
disabled and enabled again exactly when `IIP3` was set.  `XHC2.PCED_spec`, `PCEU_spec` and
`PCDA_spec` do the same for the other methods of a port.
-/

namespace TB3

open Aml Aml.Prog

variable {σ : Type} {env : Env tb3 σ}

/-! ### `UPSB.PCED` -/

namespace UPSB

/-- The stores that disable the link and bring it up at the speed of the first generation. -/
def pulse : List (Event tb3) :=
  [.set (.PRSR .RP01) 1, .store .LDXX 1, .store (.TSPD .RP01) 1, .store .LDXX 0,
    .store (.TSPD .RP01) 3, .store .LRTN 1]

/-- The stores of the last part of `PCED`: without a retrain only `PCIA` is set; with one, each
target speed may have been right already and the wait may end without a trained link. -/
def gen3Effects : Option (Bool × Bool × Bool) → List (Event tb3)
  | none => [.set (.PCIA .RP01) 1]
  | some (a, b, c) =>
    (if a then [.store (.TSPD .RP01) 3] else []) ++ (if b then [.store (.TSPD .UPSB) 3] else []) ++
      [.store .LRTN 1] ++ if c then [.set (.PCIA .RP01) 1] else []

/-- The stores of `PCED`, for a root port that was (`suspended`) or was not suspended before. -/
def pcedEffects (suspended : Bool) (r : Option (Bool × Bool × Bool)) : List (Event tb3) :=
  [.set .GPCI 1] ++ (if suspended then pulse else []) ++ [.set (.PRSR .RP01) 0] ++
    gen3Effects r ++ [.set (.IIP3 .RP01) 0]

variable {names : Name → Integer} {es : List (Event tb3)}

theorem retrain_spec :
    Ensures env PCED.retrain (fun _ _ es' => ∃ r, es' = (gen3Effects (some r)).reverse ++ es)
      names es := by
  unfold PCED.retrain
  refine ensures_bind (ensures_load fun _ => ensures_when_store fun a => ?_)
  refine ensures_bind (ensures_load fun _ => ensures_when_store fun b => ?_)
  refine ensures_bind (ensures_store (ensures_bind (ensures_quiet (by grind) fun _ => ?_)))
  refine ensures_bind (ensures_quiet (waitUntil_quiet trainedPresent_quiet) fun _ => ?_)
  refine ensures_ite (fun _ => ensures_set ⟨(a, b, true), ?_⟩)
    fun _ => ensures_pure ⟨(a, b, false), ?_⟩
  all_goals cases a <;> cases b <;> rfl

theorem gen3_spec :
    Ensures env PCED.gen3 (fun _ _ es' => ∃ r, es' = (gen3Effects r).reverse ++ es) names es := by
  unfold PCED.gen3
  refine ensures_bind (ensures_load fun _ =>
    ensures_ite (fun _ => ?_) fun _ => ensures_set ⟨none, rfl⟩)
  refine ensures_bind (ensures_load fun _ =>
    ensures_ite (fun _ => ?_) fun _ => ensures_set ⟨none, rfl⟩)
  refine ensures_bind (ensures_load fun _ =>
    ensures_ite (fun _ => retrain_spec.imp ?_) fun _ => ensures_set ⟨none, rfl⟩)
  exact fun _ _ _ ⟨r, hr⟩ => ⟨some r, hr⟩

theorem gen1_spec {Local0 Local5 : Integer} (h0 : Local0 ≠ 0) :
    Ensures env (PCED.gen1 Local0 0 Local5) (fun _ n es' => n = names ∧
      es' = [.store .LRTN 1, .store (.TSPD .RP01) 3, .store .LDXX 0, .store (.TSPD .RP01) 1] ++ es)
      names es := by
  unfold PCED.gen1
  refine ensures_bind (ensures_store (ensures_ite (fun h => absurd rfl h) fun _ => ?_))
  refine ensures_ite (fun _ => ?_) fun h => absurd h0 h
  refine ensures_bind (ensures_store (ensures_bind ?_))
  refine ensures_quiet (waitUntil_quiet trained_quiet) fun _ => ?_
  refine ensures_bind (ensures_quiet (by grind) fun _ => ensures_bind ?_)
  refine ensures_quiet (waitUntil_quiet present_quiet) fun _ => ?_
  exact ensures_bind (ensures_store (ensures_store ⟨rfl, rfl⟩))

/-- Without a disabled link the middle part of `PCED` only waits. -/
theorem restore_quiet {Local5 : Integer} :
    Emits env Quiet (PCED.restore 0 0 Local5) := by
  have (d : Integer) : Emits env Quiet (waitUntil .PCEDtrain d (trained .RP01)) :=
    waitUntil_quiet trained_quiet
  unfold PCED.restore
  simp only [ne_eq, not_true_eq_false, or_self, ↓reduceIte]
  grind

/-- With a disabled link it brings the link up. -/
theorem restore_spec {Local5 : Integer} (hp : names (.PRSR .RP01) ≠ 0) :
    Ensures env (PCED.restore 1 0 Local5) (fun _ n es' => n = names ∧
      es' = [.store .LRTN 1, .store (.TSPD .RP01) 3, .store .LDXX 0, .store (.TSPD .RP01) 1] ++ es)
      names es := by
  unfold PCED.restore
  refine ensures_bind (ensures_get (ensures_ite (fun _ => ?_) fun h => absurd hp h))
  refine ensures_bind (ensures_quiet (by grind) fun _ => ?_)
  refine ensures_ite (fun _ => ?_) fun h => absurd (Or.inl (by decide)) h
  refine ensures_bind ((gen1_spec (by decide)).imp ?_)
  rintro _ n e ⟨rfl, rfl⟩
  refine ensures_bind (ensures_quiet (by grind) fun _ => ensures_bind ?_)
  refine ensures_quiet (waitUntil_quiet trained_quiet) fun _ => ?_
  exact ensures_bind (ensures_quiet (by grind) fun _ => ensures_pure ⟨rfl, rfl⟩)

/-- **The effects of `UPSB.PCED`.** -/
theorem PCED_spec :
    Ensures env PCED (fun _ _ es' => ∃ r,
      es' = (pcedEffects (names (.IIP3 .RP01) ≠ 0) r).reverse ++ es) names es := by
  -- what follows the middle part, from any names and effects
  have tail : ∀ (n : Name → Integer) (e : List (Event tb3)) (Local5 : Integer),
      Ensures env (do
        Prog.set (.PRSR .RP01) 0
        let _ ← waitUntil .PCEDpresent Local5 (present .UPSB)
        PCED.gen3
        Prog.set (.IIP3 .RP01) 0)
      (fun _ _ es' => ∃ r, es' = [.set (.IIP3 .RP01) 0] ++ (gen3Effects r).reverse ++
        [.set (.PRSR .RP01) 0] ++ e) n e := by
    intro n e Local5
    refine ensures_bind (ensures_set (ensures_bind ?_))
    refine ensures_quiet (waitUntil_quiet present_quiet) fun _ => ?_
    refine ensures_bind (gen3_spec.imp ?_)
    rintro _ n' e' ⟨r, rfl⟩
    exact ensures_set ⟨r, by simp⟩
  unfold PCED
  simp only [RP01.UGIO_eq, pure_bind, ne_eq, not_true_eq_false, ↓reduceIte]
  refine ensures_bind (ensures_set (ensures_bind ?_))
  unfold PCED.disable
  simp only [↓reduceIte]
  refine ensures_bind (ensures_get (ensures_ite (fun hI => ?_) fun hI => ?_))
  · refine ensures_bind (ensures_set (ensures_bind (ensures_store (ensures_pure ?_))))
    refine ensures_bind (ensures_quiet (by grind) fun t => ensures_bind ?_)
    refine (restore_spec (by simp)).imp ?_
    rintro Local5 n e ⟨rfl, rfl⟩
    refine (tail _ _ Local5).imp ?_
    rintro _ _ _ ⟨r, rfl⟩
    have hI' : names (.IIP3 .RP01) ≠ 0 := by simpa using hI
    refine ⟨r, ?_⟩
    rw [pcedEffects, if_pos (decide_eq_true hI')]
    simp only [pulse, List.reverse_append, List.reverse_cons, List.reverse_nil, List.append_assoc,
      List.nil_append, List.cons_append]
    rfl
  · refine ensures_pure (ensures_bind (ensures_quiet (by grind) fun t => ensures_bind ?_))
    refine ensures_quiet restore_quiet fun Local5 => (tail _ _ Local5).imp ?_
    rintro _ _ _ ⟨r, rfl⟩
    have hI' : names (.IIP3 .RP01) = 0 := by simpa using hI
    exact ⟨r, by simp [pcedEffects, hI']⟩

/-! ### The link disable bit -/

/-- Stores anywhere but to the link disable bit of the root port. -/
abbrev KeepsLink : World tb3 σ → Event tb3 → Prop :=
  Within (fun _ _ => True) (fun f _ => f ≠ .LDXX)

/-- The values stored to the link disable bit of the root port, newest first. -/
abbrev linkStores (log : List (Entry tb3 σ)) : List Integer := storesTo (S := tb3) .LDXX (effects log)

theorem wp_of_keepsLink {α : Type} {m : Method σ α} {w : World tb3 σ} {vs : List Integer}
    (hm : Emits env KeepsLink m) (h : linkStores w.log = vs) :
    wp env (fun w' => linkStores w'.log = vs) m (fun _ w' => linkStores w'.log = vs) w := by
  have key {w' : World tb3 σ} (hp : Path env.hw KeepsLink w w') : linkStores w'.log = vs :=
    (hp.storesTo_of_within fun _ hne => hne rfl).trans h
  exact wp_of_emits hm (fun _ => key) fun _ _ => key

theorem gen3_keepsLink : Emits env KeepsLink PCED.gen3 := by
  have : Emits env KeepsLink PCED.retrain := by
    unfold PCED.retrain
    refine emits_bind (by grind) fun _ => emits_ite (emits_bind (by grind) fun _ => ?_) ?_ <;>
    grind
  unfold PCED.gen3
  grind

/-- What follows the middle part of `PCED` leaves the bit alone. -/
theorem tail_keepsLink (Local5 : Integer) : Emits env KeepsLink (do
    Prog.set (.PRSR .RP01) 0
    let _ ← waitUntil .PCEDpresent Local5 (present .UPSB)
    PCED.gen3
    Prog.set (.IIP3 .RP01) 0) := by
  grind [gen3_keepsLink]

/-- The middle part enables the link before it waits for anything. -/
theorem restore_linkStores {w : World tb3 σ} {Local5 : Integer} {vs : List Integer}
    (hp : w.names (.PRSR .RP01) ≠ 0) (h : linkStores w.log = vs) :
    wp env (fun w' => linkStores w'.log = 0 :: vs) (PCED.restore 1 0 Local5)
      (fun _ w' => linkStores w'.log = 0 :: vs) w := by
  have hwait : Emits env KeepsLink (do
      let _ ← waitUntil .PCEDgen1train Local5 (trained .RP01)
      sleep 0x78
      let _ ← waitUntil .PCEDgen1present Local5 (present .UPSB)
      store (.TSPD .RP01) 0x03
      store .LRTN 1) := by grind
  have htrain : Emits env KeepsLink (do
      let Local5 := (← timer) + second
      let _ ← waitUntil .PCEDtrain Local5 (trained .RP01)
      sleep 0xFA
      pure Local5) := by grind
  unfold PCED.restore PCED.gen1
  rw [wp_bind, wp_get, if_pos hp, wp_bind, wp_sleep, if_pos (Or.inl (by decide)), wp_bind, wp_bind,
    wp_store, if_neg (by decide), if_pos (by decide), wp_bind, wp_store]
  refine wp_imp (wp_of_keepsLink hwait ?_) fun _ _ => wp_of_keepsLink htrain
  simpa [linkStores] using h

/-- **Whatever becomes of `PCED`**, it has disabled the link of the root port and enabled it again
if the port was suspended, and has left the link alone otherwise. -/
theorem PCED_linkStores (w : World tb3 σ) :
    linkStores (PCED env w).2.log =
      (if w.names (.IIP3 .RP01) ≠ 0 then [0, 1] else []) ++ linkStores w.log := by
  -- the same for the two outcomes, with and without a result
  suffices ∀ vs, vs = (if w.names (.IIP3 .RP01) ≠ 0 then [0, 1] else []) ++ linkStores w.log →
      wp env (fun w' => linkStores w'.log = vs) PCED (fun _ w' => linkStores w'.log = vs) w by
    have h := wp_iff.mp (this _ rfl)
    rcases hr : PCED env w with ⟨_ | _, w'⟩
    · exact h.2 w' hr
    · exact h.1 _ w' hr
  intro vs hvs
  unfold PCED PCED.disable
  simp only [RP01.UGIO_eq, pure_bind, ne_eq, not_true_eq_false, ↓reduceIte]
  rw [wp_bind, wp_set, wp_bind, wp_bind, wp_get, World.perform_toState]
  by_cases hI : w.names (.IIP3 .RP01) = 0
  · have hI' : (env.hw.after w.toState (.set .GPCI 1)).names (.IIP3 .RP01) = 0 := hI
    have hrest : Emits env KeepsLink (do
        let Local5 ← PCED.restore 0 0 ((← timer) + second)
        Prog.set (.PRSR .RP01) 0
        let _ ← waitUntil .PCEDpresent Local5 (present .UPSB)
        PCED.gen3
        Prog.set (.IIP3 .RP01) 0) := by
      refine emits_bind (by grind) fun _ => emits_bind restore_quiet.within tail_keepsLink
    rw [if_neg (not_not.mpr hI'), wp_pure]
    rw [if_neg (not_not.mpr hI), List.nil_append] at hvs
    refine wp_of_keepsLink hrest ?_
    simpa [linkStores] using hvs.symm
  · have hI' : (env.hw.after w.toState (.set .GPCI 1)).names (.IIP3 .RP01) ≠ 0 := hI
    rw [if_pos hI', wp_bind, wp_set, wp_bind, wp_store, wp_pure, wp_bind, wp_timer, wp_bind]
    rw [if_pos hI] at hvs
    subst hvs
    refine wp_imp (restore_linkStores ?_ ?_) fun Local5 _ => wp_of_keepsLink (tail_keepsLink Local5)
    · simp [Hardware.after]
    · simp [linkStores]
      rfl

end UPSB

end TB3
