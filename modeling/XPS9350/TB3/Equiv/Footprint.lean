import XPS9350.Aml.Effects
import XPS9350.TB3.Power

/-!
# What the methods store to

For each method of the table the names and field units it can store to, whatever the hardware
does.  `UGIO` and `UTLK`, whose accesses are all behind an `If (Zero)`, do nothing at all.
-/

namespace TB3

open Aml Aml.Prog

variable {σ : Type} {env : Env tb3 σ}

/-! ### Methods without effect -/

theorem RP01.UGIO_eq : (RP01.UGIO : Method σ Integer) = pure 0 := by
  ext1
  simp only [ UGIO, ne_eq, not_true_eq_false, and_false, ↓reduceIte]
  rfl

theorem RP01.UTLK_eq (Arg0 Arg1 : Integer) : (RP01.UTLK Arg0 Arg1 : Method σ Unit) = pure () := by
  simp [UTLK]

/-- The stores of a list, one after the other. -/
def storeAll : List (Field × Integer) → Method σ Unit
  | [] => pure ()
  | (f, v) :: xs => do
    store f v
    storeAll xs

theorem command_eq (Arg0 Arg1 Arg2 cmd0 : Integer) :
    (UPSB.command Arg0 Arg1 Arg2 cmd0 : Method σ Unit) =
      storeAll [(.DWIX, Arg0), (.PORT, Arg1), (.SPCE, Arg2), (.CMD0, cmd0), (.CMD1, 0), (.CMD2, 0),
        (.TMOT, 0), (.PROG, 1)] := by
  simp only [UPSB.command, storeAll, bind_pure_unit]

/-! Methods that only read and wait are within any bounds. -/

section

variable {N : Name → Integer → Prop} {F : Field → Integer → Prop}

@[grind ←] theorem waitUntil_quiet {l : Loop} {deadline : Integer} {test : Method σ Bool}
    (ht : Emits env (Within N F) test) : Emits env (Within N F) (waitUntil l deadline test) := by
  refine emits_whileLoop ?_ ?_ ?_ ?_ <;> grind

@[grind ←] theorem trained_quiet {p : Port} : Emits env (Within N F) (trained p) := by
  unfold trained
  grind

@[grind ←] theorem present_quiet {s : Scope} : Emits env (Within N F) (present s) := by
  unfold present
  grind

@[grind ←] theorem linkDown_quiet {p : Port} : Emits env (Within N F) (linkDown p) := by
  unfold linkDown
  grind

@[grind ←] theorem UPSB.trainedPresent_quiet :
    Emits env (Within N F) UPSB.PCED.trainedPresent := by
  unfold PCED.trainedPresent
  grind

@[grind ←] theorem UPSB.poll_quiet {l : Loop} : Emits env (Within N F) (UPSB.poll l) := by
  refine emits_whileLoop ?_ ?_ ?_ ?_ <;> grind

@[grind ←] theorem UPSB.status_quiet {l : Loop} : Emits env (Within N F) (UPSB.status l) := by
  unfold status
  grind

namespace RP01

@[grind ←] theorem UPCK_quiet : Emits env (Within N F) UPCK := by
  unfold UPCK
  grind

@[grind ←] theorem ULTC_quiet : Emits env (Within N F) ULTC := by
  unfold ULTC
  grind

@[grind ←] theorem DLTC_quiet : Emits env (Within N F) DLTC := by
  unfold DLTC
  grind

@[grind ←] theorem linkReady_quiet {check : Method σ Integer} (h : Emits env (Within N F) check) :
    Emits env (Within N F) (linkReady check) := by
  unfold linkReady
  grind

theorem waitLink_quiet {l : Loop} {check : Method σ Integer} (h : Emits env (Within N F) check) :
    Emits env (Within N F) (waitLink l check) := by
  refine emits_whileLoop ?_ ?_ ?_ ?_ <;> grind

@[grind ←] theorem WTLT_quiet : Emits env (Within N F) WTLT := waitLink_quiet ULTC_quiet

@[grind ←] theorem WTDL_quiet : Emits env (Within N F) WTDL := waitLink_quiet DLTC_quiet

@[grind ←] theorem ready_quiet : Emits env (Within N F) ICMD.ready := by
  refine emits_whileLoop ?_ ?_ ?_ ?_ <;> grind

end RP01

end

/-! ### Methods outside the port state machines -/

/-- The names that the ports keep their state in. -/
def Name.isFlag : Name → Bool
  | .IIP3 _ | .PRSR _ | .PCIA _ | .GPCI | .GNHI | .GXCI | .RTBT | .RUSB => true
  | _ => false

/-- The field units that control the power and the link of a port. -/
def Field.isControl : Field → Bool
  | .PSTA _ | .LDXX | .LDIS _ | .LRTN | .TSPD _ => true
  | _ => false

/-- Stores to no flag and to no control field.  `R22C` is stored to by no method at all. -/
abbrev Background : World tb3 σ → Event tb3 → Prop :=
  Within (fun n _ => n.isFlag = false ∧ n ≠ .R22C) (fun f _ => f.isControl = false)

namespace UPSB

theorem command_background (Arg0 Arg1 Arg2 cmd0 : Integer) :
    Emits env Background (command Arg0 Arg1 Arg2 cmd0) := by
  unfold command
  iterate 7 refine emits_bind (emits_store fun _ => rfl) fun _ => ?_
  exact emits_store fun _ => rfl

theorem CIOW_background (Arg0 Arg1 Arg2 Arg3 : Integer) :
    Emits env Background (CIOW Arg0 Arg1 Arg2 Arg3) := by
  unfold CIOW
  grind [Field.isControl, command_background]

theorem CIOR_background (Arg0 Arg1 Arg2 : Integer) :
    Emits env Background (CIOR Arg0 Arg1 Arg2) := by
  unfold CIOR
  grind [Field.isControl, command_background]

theorem attempt_background (Arg0 Arg1 Arg2 Arg3 Arg4 : Integer) :
    Emits env Background (CRMW.attempt Arg0 Arg1 Arg2 Arg3 Arg4) := by
  unfold CRMW.attempt
  grind [CIOR_background, CIOW_background]

theorem CRMW_background (Arg0 Arg1 Arg2 Arg3 Arg4 : Integer) :
    Emits env Background (CRMW Arg0 Arg1 Arg2 Arg3 Arg4) := by
  unfold CRMW
  refine emits_bind (by grind) fun _ => emits_ite ?_ emits_pure
  refine emits_whileLoop ?_ ?_ ?_ ?_ <;> grind [attempt_background]

end UPSB

namespace RP01

theorem TBTC_background (Arg0 : Integer) : Emits env Background (TBTC Arg0) := by
  unfold TBTC
  refine emits_bind (by grind [Field.isControl]) fun _ => emits_bind (by grind) fun _ => ?_
  refine emits_bind ?_ fun _ => by grind [Field.isControl]
  refine emits_whileLoop ?_ ?_ ?_ ?_ <;> grind

theorem CTBT_background : Emits env Background CTBT := by
  unfold CTBT
  grind [Name.isFlag, UPSB.CRMW_background]

section

variable {P : World tb3 σ → Event tb3 → Prop}

/-- `program` stores the values that the names have. -/
theorem program_emits_cut {regs : List (Field × Name)}
    (h : ∀ x ∈ regs, ∀ w : World tb3 σ, P w (.store x.1 (tb3.cut x.1 (w.names x.2)))) :
    Emits env P (program regs) := by
  induction regs with
  | nil => exact emits_pure
  | cons x regs ih =>
    have hx : Emits env P (do store x.1 (← get x.2)) :=
      fun w => .single answers_store (h x List.mem_cons_self w)
    have hregs := ih fun y hy => h y (List.mem_cons_of_mem _ hy)
    have hall : Emits env P ((do store x.1 (← get x.2)) >>= fun _ => program regs) :=
      emits_seq hx hregs
    rwa [bind_assoc] at hall

theorem program_emits {regs : List (Field × Name)} (h : ∀ x ∈ regs, ∀ w v, P w (.store x.1 v)) :
    Emits env P (program regs) := program_emits_cut fun x hx w => h x hx w _

theorem stage_emits {l : Loop} {tries : Integer} {block : Method σ Unit} {f : Field} {n : Name}
    (ht : ∀ w i, P w (.test l i)) (hp : ∀ w i, P w (.pass l i)) (hf : ∀ w v, P w (.load f v))
    (hs : ∀ w, P w (.sleep 1)) (hblock : Emits env P block) :
    Emits env P (stage l tries block f n) := by
  have hread : Emits env P (load f) := emits_load hf
  unfold stage
  refine emits_bind ?_ fun _ => emits_bind emits_get fun _ => emits_bind hread fun _ => emits_pure
  refine emits_whileLoop ht hp (fun _ => emits_pure) fun Local0 => emits_seq hblock ?_
  refine emits_bind emits_get fun _ => emits_bind hread fun _ => emits_ite emits_pure ?_
  exact emits_seq (emits_sleep hs) emits_pure

theorem waitLink_emits {l : Loop} {check : Method σ Integer} (ht : ∀ w i, P w (.test l i))
    (hp : ∀ w i, P w (.pass l i)) (hs : ∀ w, P w (.sleep 1)) (hrp : ∀ w v, P w (.load .RPR4 v))
    (hup : ∀ w v, P w (.load .UPVD v)) (hcheck : Emits env P check) :
    Emits env P (waitLink l check) := by
  have hUPCK : Emits env P UPCK := emits_bind (emits_load hup) fun _ => emits_ite emits_pure emits_pure
  have hready : Emits env P (linkReady check) := by
    unfold linkReady
    refine emits_bind (emits_load hrp) fun _ => emits_ite ?_ emits_pure
    refine emits_bind hcheck fun _ => emits_ite ?_ emits_pure
    exact emits_bind hUPCK fun _ => emits_ite emits_pure emits_pure
  refine emits_whileLoop ht hp (fun _ => emits_pure) fun Local0 => emits_bind hready fun ready => ?_
  exact emits_ite emits_pure (emits_seq (emits_sleep hs) emits_pure)

end

section

variable {N : Name → Integer → Prop} {F : Field → Integer → Prop}

theorem program_within {regs : List (Field × Name)} (h : ∀ x ∈ regs, ∀ v, F x.1 v) :
    Emits env (Within N F) (program regs) := program_emits fun x hx _ => h x hx

theorem stage_within {l : Loop} {tries : Integer} {block : Method σ Unit} {f : Field} {n : Name}
    (h : Emits env (Within N F) block) : Emits env (Within N F) (stage l tries block f n) := by
  refine stage_emits ?_ ?_ ?_ ?_ h <;> grind

/-- `CNHI` stores to the registers it programs and to the command registers only. -/
theorem CNHI_within (hprogrammed : ∀ x ∈ programmed, ∀ v, F x.1 v)
    (hcommand : ∀ f ∈ [Field.RPR4, .UP04, .DP04, .D304, .D404, .NH04], ∀ v, F f v) :
    Emits env (Within N F) CNHI := by
  have part {regs : List (Field × Name)} (hregs : ∀ x ∈ regs, x ∈ programmed) :
      Emits env (Within N F) (program regs) :=
    program_within fun x hx => hprogrammed x (hregs x hx)
  have command (f : Field) (v : Integer)
      (hf : f ∈ [Field.RPR4, .UP04, .DP04, .D304, .D404, .NH04]) :
      Emits env (Within N F) (store f v) := emits_store fun _ => hcommand f hf _
  have hrp : Emits env (Within N F) CNHI.rp := stage_within
    (emits_seq (part (by decide)) (command .RPR4 _ (by decide)))
  have hup : Emits env (Within N F) CNHI.upsb := stage_within
    (emits_seq (part (by decide)) (command .UP04 _ (by decide)))
  have hnhi : Emits env (Within N F) CNHI.nhi := stage_within
    (emits_seq (part (by decide)) (command .NH04 _ (by decide)))
  have hdsb : Emits env (Within N F) CNHI.dsb := by
    refine stage_within (emits_seq (part (by decide)) (emits_seq (command .DP04 _ (by decide)) ?_))
    refine emits_seq (part (by decide)) (emits_seq (command .D304 _ (by decide)) ?_)
    exact emits_seq (part (by decide)) (command .D404 _ (by decide))
  unfold CNHI
  grind

/-- The firmware reset also stores to `ICME`. -/
theorem configured_within (h : ∀ v, F .ICME v) : Emits env (Within N F) ICMD.configured := by
  have hreset : Emits env (Within N F) ICMD.reset := by
    unfold ICMD.reset
    grind
  unfold ICMD.configured
  grind

end

theorem save_background {regs : List (Field × Name)}
    (h : ∀ x ∈ regs, x.2.isFlag = false ∧ x.2 ≠ .R22C) : Emits env Background (save regs) := by
  induction regs with
  | nil => exact emits_pure
  | cons x regs ih =>
    have hx := h x List.mem_cons_self
    have := ih fun y hy => h y (List.mem_cons_of_mem _ hy)
    unfold save
    grind

theorem ICMD_background : Emits env Background ICMD := by
  have hcnhi : Emits env Background CNHI := CNHI_within
    (fun x hx _ => (by decide : ∀ x ∈ programmed, x.1.isControl = false) x hx)
    (fun f hf _ => (by decide : ∀ f ∈ [Field.RPR4, .UP04, .DP04, .D304, .D404, .NH04],
      f.isControl = false) f hf)
  have hconfigured : Emits env Background ICMD.configured := configured_within fun _ => rfl
  unfold ICMD
  grind [Name.isFlag]

theorem _INI_background : Emits env Background _INI := by
  have : Emits env Background (save savedRegs) := save_background (by decide)
  unfold _INI
  grind [ICMD_background]

end RP01

theorem UPSB._PS3_background : Emits env Background UPSB._PS3 := by
  unfold _PS3
  simp only [RP01.UTLK_eq]
  grind [RP01.TBTC_background]

/-! ### Methods that take no power away -/

/-- The flags that keep the link powered. -/
def Name.isKept : Name → Bool
  | .PCIA _ | .GPCI | .GNHI | .GXCI | .RTBT | .RUSB => true
  | _ => false

theorem Name.isFlag_of_isKept {n : Name} (h : n.isKept) : n.isFlag := by
  cases n <;> first | rfl | exact h

/-- Stores that take no power away: the flags are only set to one, no port enters D3hot and no
downstream port has its link disabled. -/
abbrev Safe : World tb3 σ → Event tb3 → Prop :=
  Within (fun n v => n ≠ .R22C ∧ (n.isKept → v = 1))
    (fun f v => ∀ p, (f = .PSTA p → v ≠ 3) ∧ (f = .LDIS p → v ≠ 1))

theorem emits_safe {α : Type} {m : Method σ α} (h : Emits env Background m) :
    Emits env Safe m := by
  refine h.within_mono (fun n _ hn => ⟨hn.2, fun hk => ?_⟩) fun f _ hf p => ⟨?_, ?_⟩
  · exact absurd (Name.isFlag_of_isKept hk) (by simp [hn.1])
  · rintro rfl
    cases hf
  · rintro rfl
    cases hf

/-- Stores of zeros only, to the fields. -/
abbrev Zeros : World tb3 σ → Event tb3 → Prop :=
  Within (fun n v => n ≠ .R22C ∧ (n.isKept → v = 1)) (fun _ v => v = 0)

theorem PCEU_zeros (p : Port) : Emits env Zeros (PCEU p) := by
  unfold PCEU
  grind [Name.isKept, Signature.cut_zero]

theorem XHC2._PS0_zeros : Emits env Zeros XHC2._PS0 := by
  have (Local5 : Integer) : Emits env Zeros (PCED.restore Local5) := by
    unfold PCED.restore
    grind
  unfold _PS0 PCED
  simp only [RP01.UGIO_eq, pure_bind, ne_eq, not_true_eq_false, ↓reduceIte]
  refine emits_seq (by grind) (emits_seq (by grind) (emits_bind (by grind) fun _ => ?_))
  grind [Name.isKept]

theorem emits_safe_of_zeros {α : Type} {m : Method σ α} (h : Emits env Zeros m) :
    Emits env Safe m := by
  refine h.within_mono (fun _ _ hn => hn) fun f v hv p => ⟨fun _ => ?_, fun _ => ?_⟩
  · rw [hv]
    decide
  · rw [hv]
    decide

namespace UPSB

theorem gen1_safe {Local0 Local1 Local5 : Integer} :
    Emits env Safe (PCED.gen1 Local0 Local1 Local5) := by
  unfold PCED.gen1
  refine emits_seq (by grind) (emits_ite ?_ (emits_ite (emits_seq (by grind) ?_) ?_)) <;> grind

theorem restore_safe {Local0 Local1 Local5 : Integer} :
    Emits env Safe (PCED.restore Local0 Local1 Local5) := by
  unfold PCED.restore
  grind [gen1_safe]

theorem retrain_safe : Emits env Safe PCED.retrain := by
  unfold PCED.retrain
  refine emits_bind (by grind) fun _ => emits_ite (emits_bind (by grind) fun _ => ?_) ?_ <;>
  grind

theorem gen3_safe : Emits env Safe PCED.gen3 := by
  unfold PCED.gen3
  grind [retrain_safe]

theorem PCED_safe : Emits env Safe PCED := by
  have hd : Emits env Safe (PCED.disable 0) := by
    unfold PCED.disable
    grind [Name.isKept]
  unfold PCED
  simp only [RP01.UGIO_eq, pure_bind, ne_eq, not_true_eq_false, ↓reduceIte]
  refine emits_seq (by grind) (emits_bind hd fun _ => ?_)
  grind [restore_safe, gen3_safe, Name.isKept]

theorem _PS0_safe : Emits env Safe _PS0 := by
  have (Arg0 Arg1 Arg2 Arg3 Arg4 : Integer) : Emits env Safe (CRMW Arg0 Arg1 Arg2 Arg3 Arg4) :=
    emits_safe (CRMW_background Arg0 Arg1 Arg2 Arg3 Arg4)
  unfold _PS0
  grind [PCED_safe]

end UPSB

theorem NHI0._PS0_safe : Emits env Safe NHI0._PS0 := by
  have : Emits env Safe RP01.CTBT := emits_safe RP01.CTBT_background
  unfold NHI0._PS0
  rw [callPCED_eq]
  grind [UPSB.PCED_safe]

end TB3
