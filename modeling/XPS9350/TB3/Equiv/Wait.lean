import XPS9350.Aml.BitField
import XPS9350.Aml.Countdown
import XPS9350.Aml.Snapshots
import XPS9350.TB3.Icm

/-!
# The link waits are exact

`wait_exact`: over a sequence of snapshots, one per poll, `WTLT` and `WTDL` return one exactly when
one of the first 2000 snapshots shows the links they wait for, and stop at the first that does.

`WTDL` asks for more than `WTLT`, so that on the same snapshots its success is the later one.
-/

namespace TB3.RP01

open Aml Aml.Prog

/-! ### What one poll looks for -/

/-- `WTLT`: the root port is enabled, neither link of the upstream port trains and an Intel device
answers behind the root port. -/
structure UplinkUp (r : Snapshot tb3) : Prop where
  RPR4 : r .RPR4 = 0x07
  RPLT : r .RPLT = 0
  UPLT : r .UPLT = 0
  vendor : (r .UPVD).setWidth 16 = 0x8086#16

/-- `WTDL`: the link of `DSB0` does not train either. -/
structure DownlinkUp (r : Snapshot tb3) : Prop extends UplinkUp r where
  DPLT : r .DPLT = 0

/-- The result `v` and the number `n` of polls of an exact wait for `up`. -/
def Exact (up : ℕ → Prop) (v : Integer) (n : ℕ) : Prop :=
  (v = 1 ∧ ∃ k < 2000, up k ∧ (∀ j < k, ¬ up j) ∧ n = k + 1) ∨
    (v = 0 ∧ (∀ k < 2000, ¬ up k) ∧ n = 2000)

theorem Exact.eq_one_iff {up : ℕ → Prop} {v : Integer} {n : ℕ} (h : Exact up v n) :
    v = 1 ↔ ∃ k < 2000, up k := by
  rcases h with ⟨hv, k, hk, hup, -, -⟩ | ⟨hv, hnone, -⟩
  · exact iff_of_true hv ⟨k, hk, hup⟩
  · refine iff_of_false (by rw [hv]; decide) ?_
    rintro ⟨k, hk, hup⟩
    exact hnone k hk hup

/-- A wait for something stronger succeeds later. -/
theorem Exact.of_imp {up up' : ℕ → Prop} {v v' : Integer} {n n' : ℕ} (h : Exact up v n)
    (h' : Exact up' v' n') (himp : ∀ k, up' k → up k) (hv' : v' = 1) : v = 1 ∧ n ≤ n' := by
  obtain ⟨k', hk', hup'⟩ := h'.eq_one_iff.mp hv'
  have hv : v = 1 := h.eq_one_iff.mpr ⟨k', hk', himp k' hup'⟩
  refine ⟨hv, ?_⟩
  rcases h with ⟨-, k, -, -, hleast, hn⟩ | ⟨hv0, -, -⟩
  · rcases h' with ⟨-, m, -, hm, -, hn'⟩ | ⟨hv0', -, -⟩
    · have hkm : k ≤ m := by
        by_contra hlt
        exact hleast m (by omega) (himp m hm)
      omega
    · rw [hv'] at hv0'
      exact absurd hv0' (by decide)
  · rw [hv] at hv0
    exact absurd hv0 (by decide)

/-! ### One poll -/

section

variable {snap : ℕ → Snapshot tb3} {fuel : ℕ} {E : World tb3 ℕ → Prop} {w : World tb3 ℕ}
  {l : Loop}

theorem width_one {b : BitVec 1} : b.setWidth 64 = 0#64 ↔ b = 0 := by
  revert b
  decide

theorem low_word {d : BitVec 32} :
    d.setWidth 64 &&& 0xFFFF#64 = 0x8086#64 ↔ d.setWidth 16 = 0x8086#16 := by
  have hcut : d.setWidth 64 &&& 0xFFFF#64 = (d.setWidth 16).setWidth 64 := by
    apply BitVec.eq_of_toNat_eq
    have hmod : d.toNat &&& 0xFFFF = d.toNat % 2 ^ 16 := Nat.and_two_pow_sub_one_eq_mod d.toNat 16
    have hlt := d.isLt
    simp only [BitVec.toNat_and, BitVec.toNat_setWidth, BitVec.toNat_ofNat]
    rw [Nat.mod_eq_of_lt (a := d.toNat) (by omega), hmod]
    omega
  rw [hcut]
  exact BitVec.setWidth_inj_of_le (v := d.setWidth 16) (u := 0x8086#16) (by decide)

theorem UPCK_samples :
    Samples (S := tb3) snap UPCK fun r =>
      if (r .UPVD).setWidth 16 = 0x8086#16 then 1 else 0 := by
  unfold UPCK
  refine (samples_bind samples_load fun _ => samples_ite samples_pure samples_pure).congr ?_
  exact fun r => if_congr low_word rfl rfl

theorem ULTC_samples :
    Samples (S := tb3) snap ULTC fun r => if r .RPLT = 0 ∧ r .UPLT = 0 then 1 else 0 := by
  unfold ULTC
  refine (samples_bind samples_load fun _ => samples_ite (samples_bind samples_load fun _ =>
    samples_ite samples_pure samples_pure) samples_pure).congr ?_
  intro r
  rw [ite_and]
  exact if_congr width_one (if_congr width_one rfl rfl) rfl

theorem DLTC_samples :
    Samples (S := tb3) snap DLTC fun r =>
      if r .RPLT = 0 ∧ r .UPLT = 0 ∧ r .DPLT = 0 then 1 else 0 := by
  unfold DLTC
  refine (samples_bind samples_load fun _ => samples_ite (samples_bind samples_load fun _ =>
    samples_ite (samples_bind samples_load fun _ => samples_ite samples_pure samples_pure)
      samples_pure) samples_pure).congr ?_
  intro r
  rw [ite_and, ite_and]
  exact if_congr width_one (if_congr width_one (if_congr width_one rfl rfl) rfl) rfl

/-- One poll succeeds exactly when the snapshot shows the links up, if the check does for them. -/
theorem linkReady_samples {check : Method ℕ Integer} {links : Snapshot tb3 → Prop}
    [DecidablePred links]
    (hcheck : Samples (S := tb3) snap check fun r => if links r then 1 else 0) :
    Samples (S := tb3) snap (linkReady check) fun r =>
      decide (r .RPR4 = 0x07 ∧ links r ∧ (r .UPVD).setWidth 16 = 0x8086#16) := by
  unfold linkReady
  refine (samples_bind samples_load fun _ => samples_ite (samples_bind hcheck fun _ =>
    samples_ite (samples_bind UPCK_samples fun _ => samples_ite samples_pure samples_pure)
      samples_pure) samples_pure).congr ?_
  intro r
  have hRPR4 : (r .RPR4).setWidth 64 = (0x07 : Integer) ↔ r .RPR4 = 0x07 :=
    BitVec.setWidth_inj_of_le (v := r .RPR4) (u := 0x07#8) (by decide)
  by_cases h4 : r .RPR4 = 0x07
  · rw [if_pos (hRPR4.mpr h4)]
    by_cases hl : links r
    · by_cases hv : (r .UPVD).setWidth 16 = 0x8086#16
      · rw [decide_eq_true ⟨h4, hl, hv⟩, if_pos hl, if_pos hv]
        rfl
      · rw [decide_eq_false fun h => hv h.2.2, if_pos hl, if_neg hv]
        rfl
    · rw [decide_eq_false fun h => hl h.2.1, if_neg hl]
      rfl
  · rw [if_neg (mt hRPR4.mp h4), decide_eq_false fun h => h4 h.1]

/-! ### The loop -/

/-- **A wait polls until the first snapshot that is ready, 2000 times at most.** -/
theorem waitLink_exact {check : Method ℕ Integer} {up : Snapshot tb3 → Prop} [DecidablePred up]
    (hfuel : 2000 < fuel)
    (hpoll : Samples (S := tb3) snap (linkReady check) fun r => decide (up r)) :
    wp ⟨snapshots snap, fuel⟩ (fun _ => False) (waitLink l check)
      (fun v w' => ∃ n, Exact (fun k => up (snap (w.hw + k))) v n ∧
        passes l w'.log = passes l w.log + n) w := by
  refine wp_countdown (n := 2000) (fun i u => u.hw = w.hw + i ∧
    passes l u.log = passes l w.log + i ∧ ∀ j < i, ¬ up (snap (w.hw + j)))
    (by decide) hfuel ⟨rfl, rfl, fun _ h => absurd h (Nat.not_lt_zero _)⟩ ?_ ?_
  · rintro i u hi ⟨hhw, hpass, hnone⟩
    rw [wp_bind]
    refine wp_imp (hpoll fuel _ l _) ?_
    rintro _ u₁ ⟨rfl, hhw₁, hpass₁⟩
    have hstart : u₁.hw = w.hw + i := hhw₁.trans hhw
    have hcount : passes l u₁.log = passes l w.log + (i + 1) := by
      rw [hpass₁, World.perform_log, passes_pass (S := tb3), World.perform_log,
        passes_test (S := tb3), hpass]
      omega
    show wp _ _ (if decide (up (snap u.hw)) = true then _ else _) _ _
    rw [hhw]
    by_cases hup : up (snap (w.hw + i))
    · rw [decide_eq_true hup, if_pos rfl, wp_pure]
      exact ⟨i + 1, .inl ⟨rfl, i, hi, hup, hnone, rfl⟩, hcount⟩
    · rw [decide_eq_false hup, if_neg (by decide), wp_bind, wp_sleep, wp_pure]
      refine ⟨countdown_sub_one (by decide) hi, ?_, ?_, ?_⟩
      · show u₁.hw + 1 = w.hw + (i + 1)
        omega
      · rwa [World.perform_log, passes_sleep (S := tb3)]
      · intro j hj
        rcases Nat.lt_succ_iff_lt_or_eq.mp hj with hlt | rfl
        · exact hnone j hlt
        · exact hup
  · rintro u ⟨-, hpass, hnone⟩
    -- no poll was successful
    exact ⟨2000, .inr ⟨rfl, hnone, rfl⟩, by
      rw [World.perform_log, passes_test (S := tb3), hpass]⟩

end

instance : DecidablePred UplinkUp := fun r =>
  decidable_of_iff (r .RPR4 = 0x07 ∧ (r .RPLT = 0 ∧ r .UPLT = 0) ∧
      (r .UPVD).setWidth 16 = 0x8086#16)
    ⟨fun ⟨h4, ⟨hr, hu⟩, hv⟩ => ⟨h4, hr, hu, hv⟩, fun h => ⟨h.RPR4, ⟨h.RPLT, h.UPLT⟩, h.vendor⟩⟩

instance : DecidablePred DownlinkUp := fun r =>
  decidable_of_iff (UplinkUp r ∧ r .DPLT = 0)
    ⟨fun ⟨h, hd⟩ => ⟨h, hd⟩, fun h => ⟨h.toUplinkUp, h.DPLT⟩⟩

section

variable {snap : ℕ → Snapshot tb3}

theorem WTLT_poll :
    Samples (S := tb3) snap (linkReady ULTC) fun r => decide (UplinkUp r) := by
  refine (linkReady_samples ULTC_samples).congr fun r => ?_
  exact decide_eq_decide.mpr
    ⟨fun ⟨h4, ⟨hr, hu⟩, hv⟩ => ⟨h4, hr, hu, hv⟩, fun h => ⟨h.RPR4, ⟨h.RPLT, h.UPLT⟩, h.vendor⟩⟩

theorem WTDL_poll :
    Samples (S := tb3) snap (linkReady DLTC) fun r => decide (DownlinkUp r) := by
  refine (linkReady_samples DLTC_samples).congr fun r => ?_
  exact decide_eq_decide.mpr
    ⟨fun ⟨h4, ⟨hr, hu, hd⟩, hv⟩ => ⟨⟨h4, hr, hu, hv⟩, hd⟩,
      fun h => ⟨h.RPR4, ⟨h.RPLT, h.UPLT, h.DPLT⟩, h.vendor⟩⟩

/-- **The link waits are exact.**  Started at any snapshot, `WTLT` and `WTDL` end with the result
and after the number of polls that `Exact` gives for what they wait for; where `WTDL` succeeds,
`WTLT` does with no more polls. -/
theorem wait_exact (fuel : ℕ) (w : World tb3 ℕ) :
    ∃ v n w₁ v' n' w₂,
      WTLT ⟨snapshots snap, 2001 + fuel⟩ w = (some v, w₁) ∧
      passes (S := tb3) .WTLT w₁.log = passes (S := tb3) .WTLT w.log + n ∧
      Exact (fun k => UplinkUp (snap (w.hw + k))) v n ∧
      WTDL ⟨snapshots snap, 2001 + fuel⟩ w = (some v', w₂) ∧
      passes (S := tb3) .WTDL w₂.log = passes (S := tb3) .WTDL w.log + n' ∧
      Exact (fun k => DownlinkUp (snap (w.hw + k))) v' n' ∧
      (v' = 1 → v = 1 ∧ n ≤ n') := by
  have hfuel : 2000 < 2001 + fuel := by omega
  obtain ⟨v, w₁, hr, n, hexact, hn⟩ := wp_false_iff.mp (waitLink_exact (l := .WTLT) (w := w)
    hfuel WTLT_poll)
  obtain ⟨v', w₂, hr', n', hexact', hn'⟩ := wp_false_iff.mp (waitLink_exact (l := .WTDL) (w := w)
    hfuel WTDL_poll)
  exact ⟨v, n, w₁, v', n', w₂, hr, hn, hexact, hr', hn', hexact',
    hexact.of_imp hexact' fun k h => h.toUplinkUp⟩

end

end TB3.RP01
