import XPS9350.TB3.Equiv.Pced
import XPS9350.TB3.Flags

/-!
# The calls refine the steps of the flags

`flags_run`: a completed call changes the flags as `Flags.step` does, for some outcome of what the
hardware decides.
-/

namespace TB3

open Aml Aml.Prog

variable {σ : Type} {env : Env tb3 σ} {w w' : World tb3 σ}

/-! ### Methods that change no flag -/

theorem flags_eq {names names' : Name → Integer}
    (h : ∀ n : Name, n.isFlag → names' n = names n) : flags names' = flags names := by
  have hgate (p : Port) : names' p.gate = names p.gate := h _ (by cases p <;> rfl)
  refine Flags.ext (funext fun p => h _ ?_) (funext fun p => h _ ?_) (funext fun p => h _ ?_)
    (funext hgate) (h _ ?_) (h _ ?_) <;> rfl

theorem path_flags_eq (h : Path env.hw Background w w') : flags w'.names = flags w.names :=
  flags_eq fun _ hn => h.names_of_within fun _ hb => absurd hn (by simp [hb.1])

/-- In the middle of a program a method without flags may be skipped. -/
theorem ensures_background {α : Type} {m : Method σ α}
    {Q : α → (Name → Integer) → List (Event tb3) → Prop} {names : Name → Integer}
    {es : List (Event tb3)} (hm : Emits env Background m)
    (h : ∀ a n e, flags n = flags names → Q a n e) : Ensures env m Q names es := by
  rintro w rfl rfl
  exact wp_of_emits hm (fun _ _ => trivial) fun a w' hp => h a _ _ (path_flags_eq hp)

/-! ### Stores to the flags of one port -/

section Update

variable {names : Name → Integer} {p : Port} {v : Integer}

theorem gate_injective {p q : Port} (h : p.gate = q.gate) : p = q := by
  cases p <;> cases q <;> first | rfl | cases h

@[simp] theorem flags_IIP3 : flags (Function.update names (.IIP3 p) v) =
    { flags names with IIP3 := Function.update (flags names).IIP3 p v } := by
  refine Flags.ext (funext fun q => ?_) rfl rfl (funext fun q => ?_) rfl rfl
  · by_cases h : q = p
    · simp [flags, h]
    · simp [flags, h]
  · cases q <;> rfl

@[simp] theorem flags_PRSR : flags (Function.update names (.PRSR p) v) =
    { flags names with PRSR := Function.update (flags names).PRSR p v } := by
  refine Flags.ext rfl (funext fun q => ?_) rfl (funext fun q => ?_) rfl rfl
  · by_cases h : q = p
    · simp [flags, h]
    · simp [flags, h]
  · cases q <;> rfl

@[simp] theorem flags_PCIA : flags (Function.update names (.PCIA p) v) =
    { flags names with PCIA := Function.update (flags names).PCIA p v } := by
  refine Flags.ext rfl rfl (funext fun q => ?_) (funext fun q => ?_) rfl rfl
  · by_cases h : q = p
    · simp [flags, h]
    · simp [flags, h]
  · cases q <;> rfl

@[simp] theorem flags_gate : flags (Function.update names p.gate v) =
    { flags names with gate := Function.update (flags names).gate p v } := by
  refine Flags.ext ?_ ?_ ?_ (funext fun q => ?_) ?_ ?_
  case refine_4 =>
    by_cases h : q = p
    · simp [flags, h]
    · have : q.gate ≠ p.gate := fun he => h (gate_injective he)
      simp [flags, h, this]
  all_goals cases p <;> rfl

end Update

/-! ### The methods of a port -/

section Methods

variable {names : Name → Integer} {es : List (Event tb3)} {p : Port}

@[simp] theorem flags_GPCI {v : Integer} : flags (Function.update names .GPCI v) =
    { flags names with gate := Function.update (flags names).gate .RP01 v } :=
  flags_gate (p := .RP01)

@[simp] theorem flags_GXCI {v : Integer} : flags (Function.update names .GXCI v) =
    { flags names with gate := Function.update (flags names).gate .DSB2 v } :=
  flags_gate (p := .DSB2)

theorem off_ne_zero : p.off names ≠ 0 ↔ (flags names).off p := by
  cases p with
  | RP01 =>
    change _ ↔ (decide (names .RTBT = 0) && decide (names .RUSB = 0)) = true
    simp [Port.off]
  | DSB0 =>
    change _ ↔ decide (names .RTBT = 0) = true
    simp [Port.off]
  | DSB2 =>
    change _ ↔ decide (names .RUSB = 0) = true
    simp [Port.off]

theorem ensures_POFF {Q : Integer → (Name → Integer) → List (Event tb3) → Prop}
    (h : Q (p.off names) names es) : Ensures env (POFF p) Q names es := by
  cases p with
  | RP01 =>
    refine ensures_bind (ensures_get (ensures_bind (ensures_get (ensures_pure ?_))))
    simpa [Port.off] using h
  | DSB0 => exact ensures_bind (ensures_get (ensures_pure h))
  | DSB2 => exact ensures_bind (ensures_get (ensures_pure h))

theorem PCEU_flags :
    Ensures env (PCEU p) (fun _ n _ => ∃ b, flags n = (flags names).resume p b) names es := by
  unfold PCEU
  refine ensures_bind (ensures_set (ensures_bind (ensures_load fun _ => ensures_ite ?_ ?_)))
  · refine fun _ => ensures_bind (ensures_set (ensures_bind (ensures_store ?_)))
    refine ensures_bind (ensures_load fun _ => ensures_ite ?_ ?_)
    · exact fun _ => ensures_bind (ensures_set (ensures_store ⟨true, by simp [Flags.resume]⟩))
    · exact fun _ => ensures_pure ⟨true, by simp [Flags.resume]⟩
  · refine fun _ => ensures_bind (ensures_load fun _ => ensures_ite ?_ ?_)
    · exact fun _ => ensures_bind (ensures_set (ensures_store ⟨true, by simp [Flags.resume]⟩))
    · exact fun _ => ensures_pure ⟨false, by simp [Flags.resume]⟩

theorem PCDA_flags :
    Ensures env (PCDA p) (fun _ n _ => flags n = (flags names).suspend p) names es := by
  unfold PCDA
  refine ensures_bind (ensures_POFF (ensures_ite (fun h => ?_) fun h => ?_))
  · refine ensures_bind (ensures_set (ensures_bind (ensures_store (ensures_bind (ensures_store ?_)))))
    refine ensures_bind (ensures_quiet (by grind) fun _ => ensures_bind ?_)
    refine ensures_quiet (by grind) fun _ => ensures_bind (ensures_set ?_)
    rw [RP01.UGIO_eq, pure_bind]
    exact ensures_set (by simp [Flags.suspend, off_ne_zero.mp h])
  · refine ensures_set ?_
    simp [Flags.suspend, mt off_ne_zero.mpr h]

theorem PCED_flags :
    Ensures env UPSB.PCED (fun _ n _ => ∃ b, flags n = (flags names).relink .RP01 b) names es := by
  rintro w rfl rfl
  refine wp_iff.mpr ⟨fun _ w' hr => ?_, fun _ _ => trivial⟩
  obtain ⟨r, he⟩ := UPSB.PCED_spec.run hr
  rw [names_of_effects hr he]
  -- the effects are known, so the flags they leave can be computed
  have key (susp : Bool) : ∃ b, flags ((UPSB.pcedEffects susp r).foldl (replay (S := tb3)) w.names) =
      (flags w.names).relink .RP01 b := by
    rcases r with _ | ⟨a, b, c⟩
    · refine ⟨true, ?_⟩
      cases susp <;>
      simp [UPSB.pcedEffects, UPSB.pulse, UPSB.gen3Effects, replay, Flags.relink]
    · refine ⟨c, ?_⟩
      cases susp <;> cases a <;> cases b <;> cases c <;>
      simp [UPSB.pcedEffects, UPSB.pulse, UPSB.gen3Effects, replay, Flags.relink]
  exact key _

theorem XHC2.PCED_flags :
    Ensures env XHC2.PCED (fun _ n _ => ∃ b, flags n = (flags names).relink .DSB2 b) names es := by
  unfold PCED
  simp only [RP01.UGIO_eq, pure_bind, ne_eq, not_true_eq_false, ↓reduceIte]
  have tail : ∀ n e (Local5 : Integer), flags n = { flags names with gate := Function.update (flags names).gate .DSB2 1 } →
      Ensures env (do
        Prog.set (.PRSR .DSB2) 0
        if ← waitUntil .XHC2present Local5 (present .XHC2) then
          Prog.set (.PCIA .DSB2) 1
        Prog.set (.IIP3 .DSB2) 0)
      (fun _ n _ => ∃ b, flags n = (flags names).relink .DSB2 b) n e := by
    intro n e Local5 hn
    refine ensures_bind (ensures_set (ensures_bind (ensures_quiet (by grind) fun b => ?_)))
    refine ensures_ite (fun _ => ensures_bind (ensures_set (ensures_set ⟨true, ?_⟩))) fun _ =>
      ensures_set ⟨false, ?_⟩
    · simp [Flags.relink, hn]
    · simp [Flags.relink, hn]
  refine ensures_bind (ensures_set (ensures_bind (ensures_quiet (by grind) fun _ => ?_)))
  refine ensures_bind (ensures_quiet ?_ fun Local5 => tail _ _ Local5 (by simp))
  unfold PCED.restore
  grind

/-! ### The calls -/

/-- A method that refines the step of a port may be followed by methods without flags. -/
theorem ensures_then {α β : Type} {m : Method σ α} {k : α → Method σ β} {R : Flags → Prop}
    (hm : Ensures env m (fun _ n _ => R (flags n)) names es)
    (hk : ∀ a, Emits env Background (k a)) :
    Ensures env (m >>= k) (fun _ n _ => R (flags n)) names es :=
  ensures_bind (hm.imp fun a _ _ hR => ensures_background (hk a) fun _ _ _ h => h ▸ hR)

/-- **Every call refines its step.** -/
theorem run_flags (c : Call) :
    Ensures env c.run (fun _ n _ => ∃ b, flags n = (flags names).step b c) names es := by
  have skip {m : Method σ Unit} (hm : Emits env Background m) :
      Ensures env m (fun _ n _ => ∃ _ : Bool, flags n = flags names) names es :=
    ensures_background hm fun _ _ _ h => ⟨true, h⟩
  have suspend {m : Port} : Ensures env (PCDA m)
      (fun _ n _ => ∃ _ : Bool, flags n = (flags names).suspend m) names es :=
    PCDA_flags.imp fun _ _ _ h => ⟨true, h⟩
  cases c with
  | INI =>
    rw [Call.run]
    exact skip RP01._INI_background
  | PS0 s =>
    cases s <;> rw [Call.run]
    case RP01 => exact PCEU_flags
    case DSB0 => exact PCEU_flags
    case DSB2 => exact PCEU_flags
    case UPSB =>
      refine ensures_then (R := (∃ b, · = (flags names).relink .RP01 b)) PCED_flags fun _ => ?_
      exact emits_bind (UPSB.CRMW_background _ _ _ _ _) fun _ =>
        emits_bind (UPSB.CRMW_background _ _ _ _ _) fun _ => emits_pure
    case NHI0 =>
      exact ensures_then (R := (∃ b, · = (flags names).relink .RP01 b)) PCED_flags fun _ =>
        RP01.CTBT_background
    case XHC2 => exact ensures_bind (ensures_quiet (by grind) fun _ => XHC2.PCED_flags)
  | PS3 s =>
    cases s <;> rw [Call.run]
    case RP01 =>
      refine ensures_bind (ensures_POFF (p := .RP01) (ensures_ite (fun _ => ?_) fun _ => suspend))
      refine ensures_bind (ensures_background RP01.CTBT_background fun _ n _ h => ?_)
      exact PCDA_flags.imp fun _ _ _ hn => ⟨true, h ▸ hn⟩
    case DSB0 => exact suspend
    case DSB2 => exact suspend
    case UPSB =>
      refine skip (emits_bind (by grind) fun _ => emits_ite ?_ ?_)
      · rw [RP01.UTLK_eq]
        exact emits_bind emits_pure fun _ => emits_bind (RP01.TBTC_background _) fun _ => emits_pure
      · exact emits_bind (RP01.TBTC_background _) fun _ => emits_pure
    case NHI0 => exact skip emits_pure
    case XHC2 => exact skip (emits_sleep fun _ => trivial)

end Methods

end TB3
