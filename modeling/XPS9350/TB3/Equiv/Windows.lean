import XPS9350.TB3.Equiv.Footprint
import XPS9350.TB3.Windows

/-!
# Where the windows point

`windows_follow_iff`: an access through a window goes to the function it is meant for exactly when
the bus number in force is the one the window was declared for, and a run keeps to that when it
holds before every call of `UPCK`, `TBTC`, `ULTC` and `DLTC`, and when `CNHI` programs these numbers.
-/

namespace TB3

open Aml Aml.Prog

variable {σ : Type} {P : Platform} {m₀ m : Memory}

/-! ### Addresses and bus numbers -/

/-- An access goes to the address that the bus numbers in force give. -/
def Follows (P : Platform) (m₀ : Memory) (memory : σ → Memory) (x : Entry tb3 σ) : Prop :=
  ∀ r bit, access x.event = some (r, bit) →
    r.base P m₀ + BitVec.ofNat 64 (bit / 8) =
      r.live P (memory x.before.hw) + BitVec.ofNat 64 (bit / 8)

/-- The bus number in force is the one that the window was declared for. -/
def Window.Current (P : Platform) (m₀ m : Memory) : Window → Prop
  | .UPSM => (P.SBUS m).setWidth 64 * 0x00100000 = 0x00000000EF000000 - P.GPCB
  | .DNSM | .DS3M | .DS4M => P.UP19 m = loadedUP19 m₀
  | .NHIM => P.DP19 m = loadedDP19 P m₀

theorem MMIO_inj {b b' : BitVec 8} {Arg1 Arg2 : Integer} :
    P.MMIO (b.setWidth 64) Arg1 Arg2 = P.MMIO (b'.setWidth 64) Arg1 Arg2 ↔ b = b' := by
  unfold Platform.MMIO
  rw [BitVec.add_left_inj, BitVec.add_left_inj, BitVec.add_right_inj]
  constructor
  · intro h
    have hb := b.isLt
    have hb' := b'.isLt
    have hnat := congrArg BitVec.toNat h
    simp only [BitVec.toNat_shiftLeft, BitVec.toNat_setWidth, Nat.shiftLeft_eq] at hnat
    apply BitVec.eq_of_toNat_eq
    omega
  · rintro rfl
    rfl

theorem base_eq_live_iff {r : Window} : r.base P m₀ = r.live P m ↔ r.Current P m₀ m := by
  cases r with
  | UPSM =>
    show 0x00000000EF000000 = P.GPCB + (P.SBUS m).setWidth 64 * 0x00100000 ↔
      (P.SBUS m).setWidth 64 * 0x00100000 = 0x00000000EF000000 - P.GPCB
    rw [BitVec.eq_sub_iff_add_eq, BitVec.add_comm, eq_comm]
  | DNSM => exact MMIO_inj.trans eq_comm
  | DS3M => exact MMIO_inj.trans eq_comm
  | DS4M => exact MMIO_inj.trans eq_comm
  | NHIM => exact MMIO_inj.trans eq_comm

theorem follows_iff {memory : σ → Memory} {x : Entry tb3 σ} : Follows P m₀ memory x ↔
    ∀ r bit, access x.event = some (r, bit) → r.Current P m₀ (memory x.before.hw) := by
  unfold Follows
  simp only [BitVec.add_left_inj, base_eq_live_iff]

/-! ### Bus numbers within a call -/

/-- The bus numbers change within a method call only by its own writes, and these only change the
function they go to, as long as they go where they should; what is read of them is what is in
force.  Everything else about the hardware is open. -/
structure Bus (P : Platform) (m₀ : Memory) (hw : Hardware tb3 σ) where
  memory : σ → Memory
  SBUS_after : ∀ s e, Follows P m₀ memory ⟨s, e⟩ →
    P.SBUS (memory (hw.after s e).hw) = P.SBUS (memory s.hw)
  UP19_after : ∀ s e, Follows P m₀ memory ⟨s, e⟩ → (∀ v, e ≠ .store .UP19 v) →
    P.UP19 (memory (hw.after s e).hw) = P.UP19 (memory s.hw)
  DP19_after : ∀ s e, Follows P m₀ memory ⟨s, e⟩ → (∀ v, e ≠ .store .UP19 v) →
    (∀ v, e ≠ .store .DP19 v) → P.DP19 (memory (hw.after s e).hw) = P.DP19 (memory s.hw)
  reads_UP19 : ∀ s v, Follows P m₀ memory ⟨s, .load .UP19 v⟩ →
    hw.reads .UP19 s = (P.UP19 (memory s.hw)).setWidth 64
  reads_DP19 : ∀ s v, Follows P m₀ memory ⟨s, .load .DP19 v⟩ →
    hw.reads .DP19 s = (P.DP19 (memory s.hw)).setWidth 64

/-- How far down a window reaches: the upstream port, the downstream ports, the host interface. -/
def Window.level : Window → ℕ
  | .UPSM => 0
  | .DNSM | .DS3M | .DS4M => 1
  | .NHIM => 2

/-- A field unit that is reached through a window of level `k` at most. -/
def Field.within (k : ℕ) (f : Field) : Bool :=
  match f.window with
  | some (r, _) => r.level ≤ k
  | none => true

/-- An event that uses windows up to level `k` and does not change the numbers these depend on. -/
def Through (k : ℕ) (_ : World tb3 σ) (e : Event tb3) : Prop :=
  match e with
  | .set _ _ => False
  | .load f _ => f.within k
  | .store f _ => f.within k ∧ (f = .UP19 → k = 0) ∧ (f = .DP19 → k ≤ 1)
  | _ => True

variable {env : Env tb3 σ} {B : Bus P m₀ env.hw} {k : ℕ} {names : Name → Integer}
  {w w' : World tb3 σ}

/-- The windows up to level `k` are current, and every access so far followed the numbers. -/
structure Sound (B : Bus P m₀ env.hw) (names : Name → Integer) (k : ℕ) (w : World tb3 σ) : Prop where
  names : w.names = names
  current : ∀ r : Window, r.level ≤ k → r.Current P m₀ (B.memory w.hw)
  follows : ∀ x ∈ w.log, Follows P m₀ B.memory x

theorem follows_of_through {e : Event tb3} (h : Sound B names k w) (he : Through k w e) :
    Follows P m₀ B.memory ⟨w.toState, e⟩ := by
  apply follows_iff.mpr
  intro r bit hr
  apply h.current
  cases e with
  | load f v =>
    have hf : f.window = some (r, bit) := hr
    have hwithin : f.within k := he
    rw [Field.within, hf] at hwithin
    exact of_decide_eq_true hwithin
  | store f v =>
    have hf : f.window = some (r, bit) := hr
    have hwithin : f.within k := he.1
    rw [Field.within, hf] at hwithin
    exact of_decide_eq_true hwithin
  | _ => exact absurd hr (Option.some_ne_none _).symm

/-- **One step**: such an event follows the numbers and leaves the windows current. -/
theorem Sound.step {e : Event tb3} (h : Sound B names k w) (he : Through k w e) :
    Sound B names k (w.perform env.hw e) where
  names := by
    cases e with
    | set n v => exact he.elim
    | _ => exact h.names
  follows x hx := by
    rcases List.mem_cons.mp hx with rfl | hx
    · exact follows_of_through h he
    · exact h.follows x hx
  current r hr := by
    have hfollows := follows_of_through h he
    have hcurrent := h.current r hr
    have hUP19 (hk : 1 ≤ k) (v : Integer) : e ≠ .store .UP19 v := by
      rintro rfl
      have := he.2.1 rfl
      omega
    have hDP19 (hk : 2 ≤ k) (v : Integer) : e ≠ .store .DP19 v := by
      rintro rfl
      have := he.2.2 rfl
      omega
    cases r with
    | UPSM =>
      show (P.SBUS (B.memory (env.hw.after w.toState e).hw)).setWidth 64 * 0x00100000 = _
      rw [B.SBUS_after _ _ hfollows]
      exact hcurrent
    | NHIM =>
      have hk : 2 ≤ k := hr
      exact (B.DP19_after _ _ hfollows (hUP19 (by omega)) (hDP19 hk)).trans hcurrent
    | DNSM => exact (B.UP19_after _ _ hfollows (hUP19 hr)).trans hcurrent
    | DS3M => exact (B.UP19_after _ _ hfollows (hUP19 hr)).trans hcurrent
    | DS4M => exact (B.UP19_after _ _ hfollows (hUP19 hr)).trans hcurrent

/-- Whatever becomes of a call, its accesses follow the numbers. -/
abbrev AllFollow (B : Bus P m₀ env.hw) (w : World tb3 σ) : Prop :=
  ∀ x ∈ w.log, Follows P m₀ B.memory x

theorem wp_of_through {α : Type} {m : Method σ α} (hm : Emits env (Through k) m)
    (h : Sound B names k w) : wp env (AllFollow B) m (fun _ => Sound B names k) w := by
  have key {w' : World tb3 σ} (hpath : Path env.hw (Through k) w w') : Sound B names k w' :=
    hpath.invariant h fun _ _ hu _ he => hu.step he
  exact wp_of_emits hm (fun _ hpath => (key hpath).follows) fun _ _ => key

/-! ### The methods -/

section

variable {f : Field}

theorem Field.within_mono {j : ℕ} (h : f.within j) (hjk : j ≤ k) : f.within k := by
  rw [Field.within] at h ⊢
  rcases hf : f.window with _ | ⟨r, bit⟩
  · rfl
  · rw [hf] at h
    have hr : r.level ≤ j := of_decide_eq_true h
    exact decide_eq_true (Nat.le_trans hr hjk)

theorem load_through (hf : f.within 0) : Emits env (Through k) (load f) :=
  emits_load fun _ _ => Field.within_mono hf k.zero_le

/-- A store that changes no bus number. -/
theorem store_through {v : Integer} (hf : f.within k) (hne : f ≠ .UP19 ∧ f ≠ .DP19) :
    Emits env (Through k) (store f v) :=
  emits_store fun _ => ⟨hf, fun h => absurd h hne.1, fun h => absurd h hne.2⟩

end

theorem UPCK_through : Emits env (Through k) RP01.UPCK :=
  emits_bind (load_through rfl) fun _ => emits_ite emits_pure emits_pure

theorem ULTC_through : Emits env (Through k) RP01.ULTC := by
  refine emits_bind (load_through rfl) fun _ => emits_ite ?_ emits_pure
  exact emits_bind (load_through rfl) fun _ => emits_ite emits_pure emits_pure

theorem DLTC_through (hk : 1 ≤ k) : Emits env (Through k) RP01.DLTC := by
  have hDPLT : Emits env (Through k) (load .DPLT) := emits_load fun _ _ =>
    Field.within_mono rfl hk
  refine emits_bind (load_through rfl) fun _ => emits_ite ?_ emits_pure
  refine emits_bind (load_through rfl) fun _ => emits_ite ?_ emits_pure
  exact emits_bind hDPLT fun _ => emits_ite emits_pure emits_pure

theorem TBTC_through (Arg0 : Integer) : Emits env (Through 0) (RP01.TBTC Arg0) := by
  have hstore (v : Integer) : Emits env (Through 0) (store .P2TR v) :=
    store_through rfl (by decide)
  unfold RP01.TBTC
  refine emits_seq (hstore Arg0) (emits_bind (load_through rfl) fun _ => emits_bind ?_ fun _ => ?_)
  · refine emits_whileLoop (fun _ _ => trivial) (fun _ _ => trivial) (fun _ => emits_pure) ?_
    intro x
    refine emits_ite emits_pure (emits_ite emits_pure ?_)
    exact emits_bind (load_through rfl) fun _ => emits_seq (emits_sleep fun _ => trivial) emits_pure
  · exact emits_ite (emits_seq (hstore 0) emits_pure) emits_pure

/-- A wait for the links uses the windows that its check uses. -/
theorem waitLink_through {l : Loop} {check : Method σ Integer}
    (hcheck : Emits env (Through k) check) : Emits env (Through k) (RP01.waitLink l check) :=
  RP01.waitLink_emits (fun _ _ => trivial) (fun _ _ => trivial) (fun _ => trivial)
    (fun _ _ => rfl) (fun _ _ => Field.within_mono rfl k.zero_le) hcheck

/-- A block of writes to registers through the windows up to level `k`. -/
theorem program_through {regs : List (Field × Name)}
    (h : ∀ x ∈ regs, x.1.within k ∧ (x.1 = .UP19 → k = 0) ∧ (x.1 = .DP19 → k ≤ 1)) :
    Emits env (Through k) (RP01.program regs) := RP01.program_emits fun x hx _ _ => h x hx

/-! ### The stages of `CNHI` -/

/-- A stage reads its register at the end; when it succeeds, the bus number in that register is the
one in the name. -/
theorem stage_sound {l : Loop} {tries : Integer} {block : Method σ Unit} {f : Field} {n : Name}
    (hblock : Emits env (Through k) block) (hf : f.within k) (h : Sound B names k w) :
    wp env (AllFollow B) (RP01.stage l tries block f n)
      (fun b w' => Sound B names k w' ∧ (b = true → ∃ u : World tb3 σ, Sound B names k u ∧
        names n = env.hw.reads f u.toState ∧
        w' = u.perform env.hw (.load f (env.hw.reads f u.toState)))) w := by
  have hread : Emits env (Through k) (load f) := emits_load fun _ _ => hf
  unfold RP01.stage
  rw [wp_bind]
  refine wp_imp (wp_of_through (k := k) ?_ h) ?_
  · refine emits_whileLoop (fun _ _ => trivial) (fun _ _ => trivial) (fun _ => emits_pure) ?_
    intro Local0
    refine emits_seq hblock (emits_bind emits_get fun _ => emits_bind hread fun _ => ?_)
    exact emits_ite emits_pure (emits_seq (emits_sleep fun _ => trivial) emits_pure)
  · intro _ u hu
    rw [wp_bind, wp_get, wp_bind, wp_load, wp_pure]
    refine ⟨hu.step hf, fun hb => ⟨u, hu, ?_, rfl⟩⟩
    rw [← hu.names]
    exact of_decide_eq_true hb

/-- With the number of the upstream port the windows to the downstream ports are current. -/
theorem Sound.downstream (h : Sound B names 0 w)
    (hUP19 : P.UP19 (B.memory w.hw) = Window.loadedUP19 m₀) : Sound B names 1 w where
  names := h.names
  follows := h.follows
  current r hr := by
    cases r with
    | UPSM => exact h.current .UPSM (Nat.le_refl 0)
    | NHIM => exact absurd hr (by decide)
    | DNSM => exact hUP19
    | DS3M => exact hUP19
    | DS4M => exact hUP19

/-- With the number of `DSB0` the window to the host interface is current too. -/
theorem Sound.host (h : Sound B names 1 w)
    (hDP19 : P.DP19 (B.memory w.hw) = Window.loadedDP19 P m₀) : Sound B names 2 w where
  names := h.names
  follows := h.follows
  current r hr := by
    cases r with
    | NHIM => exact hDP19
    | _ => exact h.current _ (by decide)

theorem upsb_sound (h : Sound B names 0 w)
    (hn : (names .R119).setWidth 8 = Window.loadedUP19 m₀) :
    wp env (AllFollow B) RP01.CNHI.upsb
      (fun b w' => Sound B names 0 w' ∧ (b = true → Sound B names 1 w')) w := by
  refine wp_imp (stage_sound ?_ rfl h) ?_
  · exact emits_seq (program_through (by decide)) (store_through rfl (by decide))
  · rintro b w' ⟨h', hb⟩
    refine ⟨h', fun htrue => ?_⟩
    obtain ⟨u, hu, hread, rfl⟩ := hb htrue
    have hfollows (v : Integer) : Follows P m₀ B.memory ⟨u.toState, .load .UP19 v⟩ :=
      follows_of_through hu rfl
    apply h'.downstream
    calc P.UP19 (B.memory (u.perform env.hw (.load .UP19 _)).hw)
        = P.UP19 (B.memory u.hw) := B.UP19_after _ _ (hfollows _) nofun
      _ = (names .R119).setWidth 8 := by
        rw [hread, B.reads_UP19 _ 0 (hfollows 0), BitVec.setWidth_setWidth_of_le _ (by decide),
          BitVec.setWidth_eq]
      _ = Window.loadedUP19 m₀ := hn

theorem dsb_sound (h : Sound B names 1 w)
    (hn : (names .R219).setWidth 8 = Window.loadedDP19 P m₀) :
    wp env (AllFollow B) RP01.CNHI.dsb
      (fun b w' => Sound B names 1 w' ∧ (b = true → Sound B names 2 w')) w := by
  refine wp_imp (stage_sound ?_ rfl h) ?_
  · refine emits_seq (program_through (by decide)) (emits_seq (store_through rfl (by decide)) ?_)
    refine emits_seq (program_through (by decide)) (emits_seq (store_through rfl (by decide)) ?_)
    exact emits_seq (program_through (by decide)) (store_through rfl (by decide))
  · rintro b w' ⟨h', hb⟩
    refine ⟨h', fun htrue => ?_⟩
    obtain ⟨u, hu, hread, rfl⟩ := hb htrue
    have hfollows (v : Integer) : Follows P m₀ B.memory ⟨u.toState, .load .DP19 v⟩ :=
      follows_of_through hu rfl
    apply h'.host
    calc P.DP19 (B.memory (u.perform env.hw (.load .DP19 _)).hw)
        = P.DP19 (B.memory u.hw) :=
          B.DP19_after _ _ (hfollows _) nofun nofun
      _ = (names .R219).setWidth 8 := by
        rw [hread, B.reads_DP19 _ 0 (hfollows 0), BitVec.setWidth_setWidth_of_le _ (by decide),
          BitVec.setWidth_eq]
      _ = Window.loadedDP19 P m₀ := hn

/-- **`CNHI`**: each stage makes the windows of the next one current. -/
theorem CNHI_follows (h : Sound B names 0 w)
    (hR119 : (names .R119).setWidth 8 = Window.loadedUP19 m₀)
    (hR219 : (names .R219).setWidth 8 = Window.loadedDP19 P m₀) :
    wp env (AllFollow B) RP01.CNHI (fun _ => AllFollow B) w := by
  have hrp : Emits env (Through 0) RP01.CNHI.rp := by
    refine RP01.stage_emits ?_ ?_ ?_ ?_ ?_
    · exact fun _ _ => trivial
    · exact fun _ _ => trivial
    · exact fun _ _ => rfl
    · exact fun _ => trivial
    · exact emits_seq (program_through (by decide)) (store_through rfl (by decide))
  have hnhi : Emits env (Through 2) RP01.CNHI.nhi := by
    refine RP01.stage_emits ?_ ?_ ?_ ?_ ?_
    · exact fun _ _ => trivial
    · exact fun _ _ => trivial
    · exact fun _ _ => rfl
    · exact fun _ => trivial
    · exact emits_seq (program_through (by decide)) (store_through rfl (by decide))
  unfold RP01.CNHI
  refine wp_bind.mpr (wp_imp (wp_of_through hrp h) fun b w₁ h₁ => ?_)
  cases b with
  | false => exact wp_pure.mpr h₁.follows
  | true =>
  refine wp_bind.mpr (wp_imp (upsb_sound h₁ hR119) fun b w₂ ⟨h₂, hb⟩ => ?_)
  cases b with
  | false => exact wp_pure.mpr h₂.follows
  | true =>
  refine wp_bind.mpr (wp_imp (wp_of_through (waitLink_through ULTC_through) (hb rfl)) ?_)
  refine fun v w₃ h₃ => wp_ite_of (fun _ => wp_pure.mpr h₃.follows) fun _ => ?_
  refine wp_bind.mpr (wp_imp (dsb_sound h₃ hR219) fun b w₄ ⟨h₄, hb⟩ => ?_)
  cases b with
  | false => exact wp_pure.mpr h₄.follows
  | true =>
  refine wp_bind.mpr (wp_imp (wp_of_through (waitLink_through (DLTC_through (by decide))) (hb rfl)) ?_)
  refine fun v w₅ h₅ => wp_ite_of (fun _ => wp_pure.mpr h₅.follows) fun _ => ?_
  refine wp_bind.mpr (wp_imp (wp_of_through hnhi h₅) fun b w₆ h₆ => ?_)
  cases b with
  | false => exact wp_pure.mpr h₆.follows
  | true => exact wp_pure.mpr h₆.follows

/-! ### Runs -/

/-- What a call needs of the bus numbers before it. -/
def WindowCall.Needs (P : Platform) (m₀ m : Memory) (names : Name → Integer) : WindowCall → Prop
  | .UPCK | .TBTC _ | .ULTC => Window.UPSM.Current P m₀ m
  | .DLTC => Window.UPSM.Current P m₀ m ∧ Window.DNSM.Current P m₀ m
  | .CNHI => Window.UPSM.Current P m₀ m ∧ (names .R119).setWidth 8 = Window.loadedUP19 m₀ ∧
      (names .R219).setWidth 8 = Window.loadedDP19 P m₀

theorem sound_zero (hcurrent : Window.UPSM.Current P m₀ (B.memory w.hw)) (h : AllFollow B w) :
    Sound B w.names 0 w where
  names := rfl
  follows := h
  current r hr := by
    cases r with
    | UPSM => exact hcurrent
    | _ => exact absurd hr (by decide)

theorem call_follows (c : WindowCall) (h : AllFollow B w)
    (hc : c.Needs P m₀ (B.memory w.hw) w.names) : AllFollow B (c.run env w).2 := by
  have through {α : Type} {k : ℕ} {m : Method σ α} (hm : Emits env (Through k) m)
      (hw : Sound B w.names k w) : wp env (AllFollow B) (do let _ ← m) (fun _ => AllFollow B) w :=
    wp_bind.mpr (wp_imp (wp_of_through hm hw) fun _ _ h' => wp_pure.mpr h'.follows)
  apply wp_snd
  cases c with
  | UPCK => exact through UPCK_through (sound_zero hc h)
  | TBTC Arg0 => exact through (TBTC_through Arg0) (sound_zero hc h)
  | ULTC => exact through ULTC_through (sound_zero hc h)
  | DLTC => exact through (DLTC_through (Nat.le_refl 1)) ((sound_zero hc.1 h).downstream hc.2)
  | CNHI =>
    obtain ⟨hUPSM, hR119, hR219⟩ := hc
    exact wp_bind.mpr (wp_imp (CNHI_follows (sound_zero hUPSM h) hR119 hR219) fun _ _ h' =>
      wp_pure.mpr h')

/-- A run in which every call finds the bus numbers it needs. -/
theorem run_follows {steps : List (WindowStep σ)} (h : AllFollow B w)
    (hsteps : ∀ pre c post, steps = pre ++ .call c :: post →
      c.Needs P m₀ (B.memory (runWindows env pre w).hw) (runWindows env pre w).names) :
    AllFollow B (runWindows env steps w) := by
  induction steps generalizing w with
  | nil => exact h
  | cons step steps ih =>
    refine ih (w := step.run env w) ?_ fun pre c post hpre => ?_
    · cases step with
      | call c => exact call_follows c h (hsteps [] c steps rfl)
      | other change => exact h
    · exact hsteps (step :: pre) c post (by rw [hpre, List.cons_append])

/-- **The windows**: in every run, an access goes where the bus numbers in force put its register
exactly when these are the ones the window was declared for.  A run whose calls all find them so
keeps to it. -/
theorem windows_follow_iff (P : Platform) (m₀ : Memory) (hw : Hardware tb3 σ) (B : Bus P m₀ hw)
    (fuel : ℕ) (steps : List (WindowStep σ)) (s : State tb3 σ) :
    ((∀ x ∈ (runWindows ⟨hw, fuel⟩ steps s.world).log, Follows P m₀ B.memory x) ↔
      ∀ x ∈ (runWindows ⟨hw, fuel⟩ steps s.world).log, ∀ r bit, access x.event = some (r, bit) →
        r.Current P m₀ (B.memory x.before.hw)) ∧
    ((∀ pre c post, steps = pre ++ .call c :: post →
        c.Needs P m₀ (B.memory (runWindows ⟨hw, fuel⟩ pre s.world).hw)
          (runWindows ⟨hw, fuel⟩ pre s.world).names) →
      ∀ x ∈ (runWindows ⟨hw, fuel⟩ steps s.world).log, Follows P m₀ B.memory x) := by
  constructor
  · exact forall₂_congr fun x _ => follows_iff
  · have hstart : @AllFollow σ P m₀ ⟨hw, fuel⟩ B s.world := fun x hx => absurd hx List.not_mem_nil
    exact @run_follows σ P m₀ ⟨hw, fuel⟩ B s.world steps hstart

/-! ### Renumbered buses -/

/-- Devices that show the bus numbers in the memory; every other register reads as zero and writes
are dropped. -/
def numbered (P : Platform) : Hardware tb3 Memory where
  load f m :=
    let number : BitVec 8 := if f = .UP19 then P.UP19 m else if f = .DP19 then P.DP19 m else 0
    (number.setWidth _, m)
  store _ _ m := m
  sleep _ m := m
  stall _ m := m
  timer m := (0, m)

def numberedBus (P : Platform) (m₀ : Memory) : Bus P m₀ (numbered P) where
  memory m := m
  SBUS_after s e _ := by cases e <;> rfl
  UP19_after s e _ _ := by cases e <;> rfl
  DP19_after s e _ _ _ := by cases e <;> rfl
  reads_UP19 _ _ _ := rfl
  reads_DP19 _ _ _ := rfl

/-- The configuration base `0xE0000000` and the root port at device `0x1C`. -/
def platform : Platform := { GPCB := 0xE0000000, TBTD := 0x1C, TBTF := 0 }

/-- The bus below the root port has the number `b`, the one below the upstream port the next. -/
def enumerated (b : BitVec 8) : Memory := fun a =>
  if a = platform.MMRP + 0x19 then b
  else if a = platform.GPCB + b.setWidth 64 * 0x00100000 + 0x19 then b + 1
  else 0

/-- The bus below the root port is renumbered to `b`. -/
def renumber (b : BitVec 8) : WindowStep Memory := .other fun s => { s with hw := enumerated b }

/-- `TINI` numbers the bus below the root port `0xF0`.  The calls made while it has this number
follow it, also when the bus had another one in between. -/
theorem windows_follow_iff_TINI :
    let steps := [.call .DLTC, renumber 1, renumber 0xF0, .call .DLTC, .call .UPCK]
    let log := (runWindows ⟨numbered platform, 1⟩ steps (loaded (enumerated 0xF0)).world).log
    log.length = 7 ∧ ∀ x ∈ log, Follows platform (enumerated 0xF0) (fun m => m) x := by
  have hUPSM : Window.UPSM.Current platform (enumerated 0xF0) (enumerated 0xF0) := by
    unfold Window.Current
    decide
  have hDNSM : Window.DNSM.Current platform (enumerated 0xF0) (enumerated 0xF0) := by
    unfold Window.Current
    decide
  refine ⟨rfl, ?_⟩
  refine (windows_follow_iff platform (enumerated 0xF0) _ (numberedBus _ _) 1 _ _).2 ?_
  intro pre c post hpre
  rcases pre with _ | ⟨_, _ | ⟨_, _ | ⟨_, _ | ⟨_, _ | ⟨_, pre⟩⟩⟩⟩⟩
  · cases hpre
    exact ⟨hUPSM, hDNSM⟩
  · cases hpre
  · cases hpre
  · cases hpre
    exact ⟨hUPSM, hDNSM⟩
  · cases hpre
    exact hUPSM
  · cases pre <;> cases hpre

/-- The bus below the root port has the number 1: `UPCK` reads at `0xEF000000`, the upstream port
is at `0xE0100000`. -/
theorem not_follows_UPCK :
    ∃ x ∈ (runWindows ⟨numbered platform, 1⟩ [.call .UPCK] (loaded (enumerated 1)).world).log,
      ¬ Follows platform (enumerated 1) (numberedBus platform (enumerated 1)).memory x := by
  refine ⟨⟨loaded (enumerated 1), .load .UPVD 0⟩, List.mem_singleton.mpr rfl, fun h => ?_⟩
  exact absurd (h .UPSM 0 rfl) (by decide)

end TB3
