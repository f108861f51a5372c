import XPS9350.Dsdt.Equiv.Capability
import XPS9350.Dsdt.Equiv.Events
import XPS9350.Dsdt.Equiv.ForcePower
import XPS9350.Dsdt.Equiv.Lines
import XPS9350.Dsdt.Equiv.Tini

/-!
# No handler hangs

On a machine that the firmware has set up, every pass of the hot plug handler comes to its end,
whatever the mailbox, the link and the events of the controller do.  What the firmware has to
promise is the number of a root port, pads of the chipset for the event, for the power and for the
processor ports that are on, a secondary bus, and a capability list that does not go in a circle.

* `handler_ends`: so does the handler itself, unless the settings let it call itself again.
-/

namespace Dsdt

open Aml Aml.Prog

variable {σ α β γ : Type} {env : Env dsdt σ} {GPCB PCHS TBSE RPA : Integer}

/-! ### Programs that come to an end -/

/-- The program ends with a result as `Q` says, whatever the hardware answers. -/
abbrev EndsIn (env : Env dsdt σ) (m : Method σ α) (Q : α → Prop) : Prop :=
  Acts env (fun _ => False) (fun _ => ()) () m fun a _ => Q a

/-- The program ends. -/
abbrev Stops (env : Env dsdt σ) (m : Method σ α) : Prop := EndsIn env m fun _ => True

section Rules

variable {m : Method σ α} {Q : α → Prop}

theorem stops_of_ends (h : EndsIn env m Q) : Stops env m := h.imp fun _ _ _ => trivial

theorem stops_pure {a : α} : Stops env (pure a : Method σ α) := acts_pure trivial

theorem stops_bind {f : α → Method σ β} (hm : EndsIn env m Q) (hf : ∀ a, Q a → Stops env (f a)) :
    Stops env (m >>= f) := acts_bind hm fun a _ ha => hf a ha

theorem stops_seq {f : α → Method σ β} (hm : Stops env m) (hf : ∀ a, Stops env (f a)) :
    Stops env (m >>= f) := stops_bind hm fun a _ => hf a

theorem stops_ite {c : Prop} [Decidable c] {n : Method σ α} (hm : Stops env m)
    (hn : Stops env n) : Stops env (if c then m else n) := acts_ite (fun _ => hm) fun _ => hn

theorem stops_load {f : Field} : Stops env (load f : Method σ Integer) :=
  acts_load fun _ _ => trivial

theorem stops_get {n : Name} : Stops env (get n : Method σ Integer) := acts_get fun _ _ => trivial

theorem stops_store {f : Field} {v : Integer} : Stops env (store f v : Method σ Unit) :=
  acts_act fun _ _ => trivial

theorem stops_sleep {ms : Integer} : Stops env (sleep ms : Method σ Unit) :=
  acts_act fun _ _ => trivial

theorem stops_invoke {i : Invocation} : Stops env (call i (pure ()) : Method σ Unit) :=
  acts_call stops_pure

/-- The rule for loops of at most `bound` passes: `I i` holds before the `i`-th test, and what the
test says of the locals may be used in the pass. -/
theorem stops_whileLoop {l : Loop} {cond : β → Method σ Bool}
    {body : β → Method σ (Prog.Flow β γ)} {done : β → γ} {b : β} (I : ℕ → β → Prop) (bound : ℕ)
    (hfuel : bound < env.fuel) (init : I 0 b)
    (round : ∀ i b, I i b → i ≤ bound ∧ EndsIn env (cond b) fun c => c = true →
      EndsIn env (body b) fun r => ∀ b', r = .next b' → I (i + 1) b') :
    Stops env (whileLoop l cond body done b) := by
  refine acts_whileLoop (fun i b _ => I i b) bound hfuel init ?_
  intro i b _ hI
  obtain ⟨hi, hcond⟩ := round i b hI
  refine ⟨hi, hcond.imp fun c _ hc => ?_⟩
  cases c with
  | false => trivial
  | true =>
    rw [if_pos rfl]
    refine (hc rfl).imp fun r _ hr => ?_
    cases r with
    | next b' => exact hr b' rfl
    | leave _ => trivial

/-- A loop that counts `n` tries down. -/
theorem stops_countdown {l : Loop} {body : Integer → Method σ (Prog.Flow Integer γ)}
    {done : Integer → γ} {n : ℕ} (hn : n < 2 ^ 64) (hfuel : n < env.fuel)
    (pass : ∀ b, EndsIn env (body b) fun r => ∀ b', r = .next b' → b' = b - 1) :
    Stops env (whileLoop l (fun b => pure (decide (0 < b))) body done (BitVec.ofNat 64 n)) := by
  refine stops_whileLoop (fun i b => i ≤ n ∧ b = countdown n i) n hfuel ⟨Nat.zero_le n, rfl⟩ ?_
  rintro i _ ⟨hi, rfl⟩
  refine ⟨hi, acts_pure fun htest => (pass _).imp ?_⟩
  rintro r _ hr b' rfl
  have hpos : 0 < countdown n i := of_decide_eq_true htest
  have hlt : i < n := lt_of_countdown_ne_zero hi ((BitVec.pos_iff_ne_zero _).mp hpos)
  exact ⟨hlt, (hr b' rfl).trans (countdown_sub_one hn hlt)⟩

end Rules

/-! ### What the firmware promises -/

/-- A machine with a Thunderbolt root port. -/
structure SetUp (hw : Hardware dsdt σ) (GPCB PCHS TBSE RPA : Integer) where
  /-- The number of the root port is one of those that `TBTD` and `TBTF` know. -/
  pos : 0x01 ≤ TBSE
  le : TBSE ≤ 0x17
  reads_TBSE : ∀ s, hw.reads .TBSE s = TBSE
  reads_RPA : ∀ s, hw.reads (.RPA TBSE) s = RPA
  reads_PCHS : ∀ s, hw.reads .PCHS s = PCHS
  /-- The pads of the event and of the power. -/
  eventPad : PadName PCHS
  powerPad : PadName PCHS
  named_CPGN : ∀ s, eventPad.Named (hw.reads .CPGN s)
  named_FPGN : ∀ s, powerPad.Named (hw.reads .FPGN s)
  /-- The power is forced by a pad of the chipset. -/
  reads_FPAT : ∀ s, hw.reads .FPAT s = 0
  ports : ∀ p ∈ processorPorts, PortReady hw PCHS p.1 p.2
  /-- The root port has a secondary bus. -/
  reads_SBUS : ∀ s, hw.reads (.SBUS .TSUB (portBase GPCB TBSE RPA + 0x19)) s ≠ 0
  /-- Its capabilities can be searched. -/
  space : ConfigSpace hw GPCB 0 (device TBSE) (function TBSE RPA)
  ends : ¬ (space.Lists ∧ space.Circles 0x05)

/-- The name of a pad in a group that has pads. -/
def Grouped (PCHS a : Integer) : Prop :=
  ∃ g < 10, 0 < item GPPG (row PCHS) g ∧ GGRP a = BitVec.ofNat 64 g

theorem grouped_of_named {x : PadName PCHS} {a : Integer} (h : x.Named a) : Grouped PCHS a :=
  ⟨x.group, x.group_lt, Nat.lt_of_le_of_lt (Nat.zero_le _) x.lt, h.1⟩

theorem grouped_of_valid {a : Integer} (h : (EventCall.CAGS a).Valid PCHS) : Grouped PCHS a := by
  obtain ⟨g, hg, hgroup⟩ := h
  exact ⟨g, Nat.lt_of_lt_of_le hg (groupCount_le PCHS), item_pos_of_lt hg, hgroup⟩

section Plain

theorem stops_mode {a : Integer} : Stops env (mode a) := stops_seq stops_load fun _ => stops_pure

theorem stops_setEntry {f : Integer → Name} {a v : Integer} (ha : a < 0x0A) :
    Stops env (setEntry f a v : Method σ Unit) := by
  unfold setEntry
  rw [if_pos ha]
  exact acts_act fun _ _ => trivial

theorem stops_P8XH {a b : Integer} : Stops env (P8XH a b : Method σ Unit) := by
  have hbyte {n mask v : Integer} : Stops env (P8XH.byte a n mask v : Method σ Unit) :=
    stops_ite (stops_seq stops_load fun _ => stops_store) stops_pure
  refine acts_serialized (stops_seq hbyte fun _ => stops_seq hbyte fun _ => ?_)
  refine stops_seq hbyte fun _ => stops_seq hbyte fun _ => ?_
  exact stops_seq stops_load fun _ => stops_store

/-- The byte that `CPAB` is read as. -/
theorem ends_CPAB : EndsIn env (load .CPAB) fun v => v.toNat < 256 := by
  refine acts_load fun s _ => ?_
  show ((env.hw.load .CPAB s.hw).1.setWidth 64).toNat < 256
  rw [BitVec.toNat_setWidth]
  exact Nat.lt_of_le_of_lt (Nat.mod_le _ _) (env.hw.load .CPAB s.hw).1.isLt

theorem stops_eventBit (hfuel : 32 < env.fuel) {l : Loop} :
    Stops env (eventBit l : Method σ (Integer × Integer)) := by
  refine stops_seq stops_load fun Local7 => stops_bind ends_CPAB fun Local6 hCPAB => ?_
  refine stops_whileLoop (fun i b => b.2.toNat + 8 * i < 256) 32 hfuel (by simpa using hCPAB) ?_
  rintro i ⟨a, b⟩ hI
  refine ⟨by omega, acts_pure fun htest => acts_pure ?_⟩
  rintro _ ⟨⟩
  have hlt : (0x08 : Integer) < b := of_decide_eq_true htest
  show (b - 0x08).toNat + 8 * (i + 1) < 256
  dsimp only at hI
  bv_omega

theorem stops_CNCT (hfuel : 32 < env.fuel) : Stops env (CNCT : Method σ Integer) :=
  stops_seq (stops_eventBit hfuel) fun _ => stops_seq stops_load fun _ => stops_pure

theorem stops_CLNE (hfuel : 32 < env.fuel) : Stops env (CLNE : Method σ Unit) :=
  stops_seq (stops_eventBit hfuel) fun _ => stops_seq stops_load fun _ => stops_store

theorem stops_OSUP (hfuel : 100 < env.fuel) {a : Integer} : Stops env (OSUP a : Method σ Integer) :=
  fun _ _ => wp_imp (OSUP_wp hfuel) fun _ _ _ => trivial

theorem stops_WWAK : Stops env (WWAK : Method σ Unit) :=
  stops_seq stops_invoke fun _ => stops_invoke

theorem stops_NTFY : Stops env (NTFY : Method σ Unit) := by
  have hport {a : Integer} : Stops env (NTFY.port a : Method σ Unit) :=
    stops_ite stops_invoke (stops_ite stops_invoke stops_pure)
  refine acts_call (acts_serialized (stops_seq stops_load fun _ => stops_ite ?_ stops_pure))
  exact stops_seq stops_load fun _ => hport

/-- `_E42` goes on only with a setting that is read as one. -/
theorem ends_again :
    EndsIn env (_E42.again : Method σ Bool) fun b => b = true → ∃ s, env.hw.reads .DPTF s = 1 := by
  have hload : EndsIn env (load .DPTF) fun v => v = 1 → ∃ s, env.hw.reads .DPTF s = 1 :=
    acts_load fun s _ h => ⟨s, h⟩
  refine acts_bind hload fun DPTF _ hDPTF => acts_bind stops_load fun DDDR _ _ => ?_
  refine acts_ite (fun h => ?_) fun _ => acts_pure nofun
  refine acts_bind stops_load fun OSYS _ _ => acts_bind stops_get fun _REV _ _ => ?_
  exact acts_pure fun _ => hDPTF h.1

end Plain

section SetUp

variable (p : SetUp env.hw GPCB PCHS TBSE RPA)

include p

/-! ### Addresses -/

theorem ends_TBTD : EndsIn env (TBTD TBSE) (· = device TBSE) := fun _ _ => TBTD_wp p.pos p.le

theorem ends_TBTF : EndsIn env (TBTF TBSE) (· = function TBSE RPA) := fun _ _ =>
  TBTF_wp p.pos p.le p.reads_RPA

theorem ends_TBSE : EndsIn env (load .TBSE) (· = TBSE) := acts_load fun s _ => p.reads_TBSE s

theorem ends_MMRP : EndsIn env (MMRP GPCB) (· = portBase GPCB TBSE RPA) := by
  refine acts_bind (ends_TBSE p) ?_
  rintro _ _ rfl
  refine acts_bind (ends_TBTD p) ?_
  rintro _ _ rfl
  refine acts_bind (ends_TBSE p) ?_
  rintro _ _ rfl
  refine acts_bind (ends_TBTF p) ?_
  rintro _ _ rfl
  exact acts_pure rfl

theorem stops_MMRP : Stops env (MMRP GPCB) := stops_of_ends (ends_MMRP p)

theorem stops_MMTB : Stops env (MMTB GPCB) :=
  acts_serialized (stops_seq (stops_MMRP p) fun _ => stops_seq stops_load fun _ => stops_pure)

theorem stops_FFTB : Stops env (FFTB GPCB) :=
  stops_seq (stops_MMTB p) fun _ => stops_seq stops_load fun _ => stops_ite stops_pure stops_pure

theorem stops_STDC (hfuel : 64 < env.fuel) :
    Stops env (STDC GPCB 0 (device TBSE) (function TBSE RPA) 0x05) := by
  refine acts_STDC p.space (fun _ => trivial) fun hlists => ?_
  -- the search ends with the list, unless the list goes in a circle
  rcases p.space.finds_or_circles 0x05 with ⟨_, k, hk, hstops, -⟩ | hcircles
  · exact (acts_walk (walks_STDC p.space) hstops (by omega) (at_head p.space)).imp
      fun _ _ _ => trivial
  · exact absurd ⟨hlists, hcircles⟩ p.ends

theorem stops_DRPM (hfuel : 64 < env.fuel) : Stops env (DRPM GPCB) := by
  refine stops_bind (ends_TBSE p) ?_
  rintro _ rfl
  refine stops_bind (ends_TBTD p) ?_
  rintro _ rfl
  refine stops_bind (ends_TBSE p) ?_
  rintro _ rfl
  refine stops_bind (ends_TBTF p) ?_
  rintro _ rfl
  refine stops_seq (stops_STDC p hfuel) fun Local7 => ?_
  exact stops_seq (stops_MMRP p) fun Local6 => stops_store

/-! ### Pads -/

theorem stops_GADR {g : ℕ} (hg : g < 10) (hpads : 0 < item GPPG (row PCHS) g)
    {t : List (List Integer)} (ht : t ∈ [GCOM, PCFG, HOWN, GPEO]) :
    Stops env (GADR (BitVec.ofNat 64 g) t) := by
  have hr := row_lt PCHS
  have hderef {u : List (List Integer)} (hu : u ∈ [GCOM, PCFG, HOWN, GPEO]) :
      Stops env (deref u (BitVec.ofNat 64 (row PCHS)) (BitVec.ofNat 64 g) : Method σ Integer) := by
    unfold deref
    rw [BitVec.toNat_ofNat, BitVec.toNat_ofNat, Nat.mod_eq_of_lt (by omega),
      Nat.mod_eq_of_lt (by omega), deref_items _ hr g hg hpads u hu]
    exact stops_pure
  refine stops_bind (gives_variant p.reads_PCHS) ?_
  rintro _ rfl
  refine stops_seq (hderef List.mem_cons_self) fun _ => stops_seq stops_load fun _ => ?_
  exact stops_seq (hderef ht) fun _ => stops_pure

theorem stops_GADR_grouped {a : Integer} (ha : Grouped PCHS a) {t : List (List Integer)}
    (ht : t ∈ [GCOM, PCFG, HOWN, GPEO]) : Stops env (GADR (GGRP a) t) := by
  obtain ⟨g, hg, hpads, hgroup⟩ := ha
  rw [hgroup]
  exact stops_GADR p hg hpads ht

theorem stops_padAddress {a : Integer} (ha : Grouped PCHS a) : Stops env (padAddress a) :=
  stops_seq (stops_GADR_grouped p ha (by simp)) fun _ => stops_pure

/-- The force power settings that both directions look up. -/
theorem stops_settings {k : Integer → Integer → Integer → Method σ α}
    (hk : ∀ FPEN FPGN, Grouped PCHS FPGN → Stops env (k 0 FPEN FPGN)) :
    Stops env (do k (← load .FPAT) (← load .FPEN) (← load .FPGN)) := by
  refine stops_bind (Q := fun v => v = 0) (acts_load fun s _ => p.reads_FPAT s) ?_
  rintro _ rfl
  refine stops_seq stops_load fun FPEN => ?_
  refine stops_bind (Q := p.powerPad.Named) (acts_load fun s _ => p.named_FPGN s) ?_
  exact fun FPGN hFPGN => hk FPEN FPGN (grouped_of_named hFPGN)

theorem stops_TFPS : Stops env TFPS := by
  refine stops_settings p (k := fun a b c => CGRD a b c 0) fun FPEN FPGN hFPGN => ?_
  refine acts_serialized ?_
  rw [if_pos rfl, if_pos rfl]
  exact acts_serialized (stops_seq (stops_padAddress p hFPGN) fun _ => stops_load)

theorem stops_CGWR {FPEN FPGN v : Integer} (hFPGN : Grouped PCHS FPGN) :
    Stops env (CGWR 0 FPEN FPGN v) := by
  refine acts_serialized ?_
  rw [if_pos rfl]
  exact acts_serialized (stops_seq (stops_padAddress p hFPGN) fun _ => stops_store)

theorem stops_TBFP {a : Integer} : Stops env (TBFP a) := by
  refine acts_call (stops_ite ?_ ?_)
  · refine stops_settings p (k := fun a b c => do CGWR a b c (← load .FPLV)) ?_
    exact fun _ _ hFPGN => stops_seq stops_load fun _ => stops_CGWR p hFPGN
  · refine stops_settings p
      (k := fun a b c => do CGWR a b c (truth (decide ((← load .FPLV) = 0)))) ?_
    exact fun _ _ hFPGN => stops_seq stops_load fun _ => stops_CGWR p hFPGN

theorem stops_force {on : Prop} [Decidable on] {a b : Integer} : Stops env (RSMI.force on a b) :=
  stops_ite (stops_TBFP p) (stops_TBFP p)

/-! ### Events -/

theorem stops_eachGroup (hfuel : 10 < env.fuel) {l : Loop} {body : Integer → Method σ Unit}
    (h : ∀ k < groupCount PCHS, Stops env (body (BitVec.ofNat 64 k))) :
    Stops env (eachGroup l body) := by
  have hle := groupCount_le PCHS
  have hgroups : EndsIn env groups (· = BitVec.ofNat 64 (groupCount PCHS)) := by
    refine acts_bind (gives_load p.reads_PCHS) ?_
    rintro _ _ rfl
    unfold groupCount
    split_ifs <;> exact acts_pure rfl
  refine stops_bind hgroups ?_
  rintro _ rfl
  refine stops_whileLoop (fun i b => i ≤ groupCount PCHS ∧ b = countdown (groupCount PCHS) i)
    (groupCount PCHS) (by omega) ⟨Nat.zero_le _, rfl⟩ ?_
  rintro i _ ⟨hi, rfl⟩
  refine ⟨hi, acts_pure fun htest => ?_⟩
  have hlt : i < groupCount PCHS := lt_of_countdown_ne_zero hi (of_decide_eq_true htest)
  dsimp only
  rw [countdown_sub_one (by omega) hlt]
  refine acts_bind (h (groupCount PCHS - (i + 1)) (by omega)) fun _ _ _ => acts_pure ?_
  intro b' hb'
  cases hb'
  exact ⟨hlt, rfl⟩

theorem stops_GADR_group {k : ℕ} (hk : k < groupCount PCHS) :
    Stops env (GADR (BitVec.ofNat 64 k) GPEO) := by
  have hle := groupCount_le PCHS
  exact stops_GADR p (by omega) (item_pos_of_lt hk) (by simp)

theorem stops_UGPS (hfuel : 10 < env.fuel) : Stops env UGPS := by
  refine acts_serialized (stops_eachGroup p hfuel fun k hk => acts_serialized ?_)
  have hlt : BitVec.ofNat 64 k < (0x0A : Integer) := ofNat_lt_ten hk
  refine stops_seq (stops_GADR_group p hk) fun _ => stops_seq stops_mode fun _ => ?_
  refine stops_ite ?_ (stops_setEntry hlt)
  exact stops_seq stops_load fun _ => stops_seq stops_load fun _ => stops_setEntry hlt

theorem stops_CGLS (hfuel : 10 < env.fuel) : Stops env CGLS := by
  refine acts_serialized (stops_eachGroup p hfuel fun k hk => ?_)
  refine stops_seq stops_load fun _ => acts_serialized (stops_seq stops_mode fun _ => ?_)
  exact stops_ite (stops_seq (stops_GADR_group p hk) fun _ => stops_store) stops_pure

theorem stops_CAGS {a : Integer} (ha : Grouped PCHS a) : Stops env (CAGS a) := by
  refine acts_serialized (stops_seq stops_mode fun _ => stops_ite ?_ stops_pure)
  refine stops_seq (stops_GADR_grouped p ha (by simp)) fun _ => stops_seq stops_load fun _ => ?_
  exact stops_seq stops_load fun _ => stops_store

theorem ends_CPGN : EndsIn env (load .CPGN) (Grouped PCHS) :=
  acts_load fun s _ => grouped_of_named (p.named_CPGN s)

omit p in
theorem stops_ISME {a : Integer} (ha : Grouped PCHS a) : Stops env (ISME a) := by
  obtain ⟨g, hg, -, hgroup⟩ := ha
  refine stops_seq ?_ fun _ => stops_pure
  unfold entry
  rw [hgroup, if_pos (ofNat_group_lt hg)]
  exact stops_get

theorem stops_SHPO {a b : Integer} (ha : Grouped PCHS a) : Stops env (SHPO a b) := by
  refine acts_serialized (stops_seq (stops_GADR_grouped p ha (by simp)) fun _ => ?_)
  exact stops_seq stops_load fun _ => stops_store

/-- A processor port is off or has a pad of the chipset. -/
theorem stops_processorPort {GP WK : Field} {n : Integer} (h : (GP, WK) ∈ processorPorts) :
    Stops env (_L6F.port GP WK (wakePort n WK)) := by
  rcases p.ports _ h with hoff | ⟨pad, hWK, hpad⟩
  · refine stops_bind (Q := fun v => v ≠ 1) (acts_load fun s _ => hoff s) fun v hv => ?_
    rw [if_neg hv]
    exact stops_pure
  · have hgrouped : Grouped PCHS pad := grouped_of_valid hpad
    have hname : EndsIn env (load WK) (· = pad) := acts_load fun s _ => hWK s
    have hwake : Stops env (wakePort n WK) := by
      refine stops_bind hname ?_
      rintro _ rfl
      refine stops_seq (stops_ISME hgrouped) fun _ => stops_ite (stops_bind hname ?_) stops_pure
      rintro _ rfl
      exact stops_seq (stops_SHPO p hgrouped) fun _ => stops_invoke
    refine stops_seq stops_load fun _ => stops_ite (stops_seq hwake fun _ => ?_) stops_pure
    refine stops_bind hname ?_
    rintro _ rfl
    exact stops_CAGS p hgrouped

theorem stops_ports : Stops env _L6F.ports := by
  refine stops_seq (stops_processorPort p (by simp [processorPorts])) fun _ => ?_
  refine stops_seq (stops_processorPort p (by simp [processorPorts])) fun _ => ?_
  exact stops_processorPort p (by simp [processorPorts])

/-! ### The handler -/

/-- The root port has a secondary bus, so the wait for it ends at once. -/
theorem stops_WSUB (hfuel : 0 < env.fuel) : Stops env (WSUB GPCB) := by
  have hTSUB : EndsIn env (TSUB GPCB) (· ≠ 0) := by
    refine acts_serialized (acts_bind (ends_MMRP p) ?_)
    rintro _ _ rfl
    exact acts_bind stops_load fun _ _ _ => acts_load fun s _ => p.reads_SBUS s
  refine stops_whileLoop (fun i _ => i = 0) 0 hfuel rfl ?_
  rintro _ Local0 rfl
  refine ⟨Nat.le_refl 0, acts_pure fun _ => acts_bind hTSUB fun Local1 _ hne => ?_⟩
  exact acts_ite (fun _ => acts_pure nofun) fun h => absurd hne h

theorem stops_PGWA (hfuel : 7 < env.fuel) : Stops env (PGWA GPCB) := by
  refine acts_serialized (stops_seq stops_load fun TBSE => stops_ite ?_ stops_pure)
  refine stops_seq (stops_MMRP p) fun Local0 => stops_seq stops_load fun _ => ?_
  -- both branches go on with the link
  have link : Stops env (PGWA.link Local0) := by
    refine stops_seq stops_load fun _ => stops_ite ?_ stops_pure
    refine stops_seq stops_store fun _ => stops_seq stops_store fun _ => ?_
    -- 16 ms a round, up to 100 ms
    refine stops_whileLoop (fun i b => i ≤ 7 ∧ b = BitVec.ofNat 64 (16 * i)) 7 hfuel
      ⟨Nat.zero_le 7, rfl⟩ ?_
    rintro i _ ⟨hi, rfl⟩
    refine ⟨hi, acts_pure fun htest => acts_bind stops_load fun VCNP _ _ => ?_⟩
    have hlt : BitVec.ofNat 64 (16 * i) < (0x64 : Integer) := of_decide_eq_true htest
    refine acts_ite (fun _ => acts_pure nofun) fun _ => acts_bind stops_sleep fun _ _ _ => ?_
    refine acts_pure ?_
    rintro _ ⟨⟩
    exact ⟨by bv_omega, by bv_omega⟩
  refine stops_ite ?_ link
  refine stops_seq stops_store fun _ => stops_seq stops_store fun _ => ?_
  exact stops_seq stops_sleep fun _ => link

theorem stops_DMSI (hfuel : 100 < env.fuel) : Stops env (DMSI GPCB) := by
  refine stops_seq (stops_MMTB p) fun _ => stops_seq stops_load fun _ => stops_ite ?_ stops_pure
  refine stops_seq stops_store fun _ => stops_seq stops_store fun _ => ?_
  refine stops_seq stops_store fun _ => stops_seq ?_ fun Return => ?_
  · refine stops_countdown (n := 100) (by decide) hfuel fun Local2 => ?_
    refine acts_bind stops_load fun Local1 _ _ => acts_ite (fun _ => acts_pure nofun) fun _ => ?_
    refine acts_ite (fun _ => acts_pure nofun) fun _ => acts_bind stops_sleep fun _ _ _ => ?_
    refine acts_pure ?_
    rintro _ ⟨⟩
    rfl
  · cases Return with
    | some v => exact stops_pure
    | none => exact stops_seq stops_store fun _ => stops_pure

theorem stops_RSMI (hfuel : 100 < env.fuel) : Stops env (RSMI GPCB) := by
  have hCNCT : Stops env (CNCT : Method σ Integer) := stops_CNCT (by omega)
  refine stops_seq (stops_TFPS p) fun Local0 => stops_seq (stops_MMTB p) fun Local1 => ?_
  refine stops_seq stops_load fun _ => stops_ite stops_pure ?_
  refine stops_seq hCNCT fun _ => stops_ite stops_pure ?_
  refine stops_seq (stops_DRPM p (by omega)) fun _ => stops_seq (stops_force p) fun _ => ?_
  refine stops_seq ?_ fun _ => stops_seq (stops_force p) fun _ => stops_pure
  -- the loop is left in the 26th round at the latest
  refine stops_whileLoop (fun i b => i ≤ 25 ∧ b = BitVec.ofNat 64 i) 26 (by omega)
    ⟨Nat.zero_le 25, rfl⟩ ?_
  rintro i _ ⟨hi, rfl⟩
  refine ⟨by omega, ?_⟩
  refine acts_bind (stops_FFTB p) fun _ _ _ => acts_bind hCNCT fun _ _ _ => acts_pure fun _ => ?_
  refine acts_bind stops_sleep fun _ _ _ => acts_bind (stops_CLNE (by omega)) fun _ _ _ => ?_
  have last : EndsIn env (if (0x19 : Integer) < BitVec.ofNat 64 i + 1 then pure (.leave ())
      else pure (.next (BitVec.ofNat 64 i + 1)) : Method σ (Prog.Flow Integer Unit))
      fun r => ∀ b', r = .next b' → i + 1 ≤ 25 ∧ b' = BitVec.ofNat 64 (i + 1) := by
    refine acts_ite (fun _ => acts_pure nofun) fun hnot => acts_pure ?_
    rintro _ ⟨⟩
    exact ⟨by bv_omega, (BitVec.ofNat_add i 1).symm⟩
  exact acts_ite (fun _ => acts_bind stops_sleep fun _ _ _ => last) fun _ => last

theorem stops_GNIS : Stops env (GNIS GPCB) := by
  refine stops_seq stops_load fun _ => stops_ite stops_pure ?_
  refine stops_seq (stops_MMTB p) fun _ => stops_seq stops_load fun _ => stops_ite stops_pure ?_
  refine stops_seq stops_load fun _ => stops_ite ?_ stops_pure
  exact stops_seq stops_store fun _ => stops_pure

theorem stops_native (hfuel : 100 < env.fuel) : Stops env (_E42.native GPCB) := by
  refine stops_seq stops_load fun _ => stops_ite ?_ stops_pure
  refine stops_seq (stops_RSMI p hfuel) fun _ => stops_ite stops_pure ?_
  exact stops_seq (stops_DMSI p hfuel) fun _ => stops_pure

/-- A pass goes on only with a setting that is read as one. -/
abbrev LastPass (hw : Hardware dsdt σ) (r : Prog.Flow Unit Unit) : Prop :=
  ∀ b, r = .next b → ∃ s, hw.reads .DPTF s = 1

theorem ends_handle (hfuel : 100 < env.fuel) : EndsIn env (_E42.handle GPCB) (LastPass env.hw) := by
  have hTBFF : Stops env (TBFF GPCB) := by
    refine acts_call (acts_serialized (stops_seq (stops_MMTB p) fun _ => ?_))
    exact stops_seq stops_load fun _ => stops_ite (stops_OSUP hfuel) stops_pure
  have leave : EndsIn env (pure (.leave ()) : Method σ (Prog.Flow Unit Unit)) (LastPass env.hw) :=
    acts_pure nofun
  have last : EndsIn env _E42.leave (LastPass env.hw) :=
    acts_bind stops_NTFY fun _ _ _ => acts_bind stops_sleep fun _ _ _ =>
      acts_bind stops_invoke fun _ _ _ => leave
  refine acts_bind hTBFF fun Local1 _ _ => acts_ite (fun _ => ?_) fun _ => acts_ite (fun _ => ?_) ?_
  · refine acts_bind stops_sleep fun _ _ _ => acts_bind stops_invoke fun _ _ _ => ?_
    refine acts_bind ends_again fun b _ hb => acts_ite (fun h => ?_) fun _ => leave
    exact acts_pure fun _ _ => hb h
  · refine acts_bind stops_NTFY fun _ _ _ => acts_bind stops_sleep fun _ _ _ => ?_
    exact acts_bind stops_invoke fun _ _ _ => acts_bind stops_P8XH fun _ _ _ => leave
  · refine fun _ => acts_bind stops_load fun _ _ _ => acts_ite (fun _ => ?_) fun _ => last
    exact acts_bind stops_get fun _ _ _ => acts_bind stops_store fun _ _ _ => last

/-- **Every pass of the handler ends.** -/
theorem ends_pass (hfuel : 100 < env.fuel) : EndsIn env (_E42.pass GPCB) (LastPass env.hw) := by
  have leave : EndsIn env (pure (.leave ()) : Method σ (Prog.Flow Unit Unit)) (LastPass env.hw) :=
    acts_pure nofun
  have attempt : EndsIn env (_E42.attempt GPCB) (LastPass env.hw) := by
    refine acts_bind stops_WWAK fun _ _ _ => acts_bind (stops_WSUB p (by omega)) fun _ _ _ => ?_
    refine acts_bind (stops_native p hfuel) fun b _ _ => acts_ite (fun _ => leave) fun _ => ?_
    refine acts_bind (stops_GNIS p) fun v _ _ => acts_ite (fun _ => leave) fun _ => ?_
    refine acts_bind (stops_PGWA p (by omega)) fun _ _ _ => ?_
    exact acts_bind stops_invoke fun _ _ _ => ends_handle p hfuel
  refine acts_bind stops_load fun CF2T _ _ => acts_ite (fun _ => ?_) fun _ => attempt
  refine acts_bind (ends_CPGN p) fun CPGN _ hCPGN => ?_
  exact acts_bind (stops_CAGS p hCPGN) fun _ _ _ => attempt

theorem stops_E42 (hfuel : 100 < env.fuel) (hDPTF : ∀ s, env.hw.reads .DPTF s ≠ 1) :
    Stops env (_E42 GPCB) := by
  refine stops_whileLoop (fun i _ => i = 0) 0 (by omega) rfl ?_
  rintro _ _ rfl
  refine ⟨Nat.le_refl 0, acts_pure fun _ => (ends_pass p hfuel).imp fun r _ hr b hb => ?_⟩
  obtain ⟨s, hs⟩ := hr b hb
  exact absurd hs (hDPTF s)

end SetUp

/-- A root port without capabilities. -/
def lostSpace : ConfigSpace (lost 1) 0 0 (device 1) (function 1 0) where
  byte _ := 0
  reads_byte _ _ := rfl
  reads_word _ _ :=
    show (0 : BitVec 16).setWidth 64 = ((0 : BitVec 8) ++ (0 : BitVec 8)).setWidth 64 by decide

/-- The controller that does not answer, on a machine that is set up. -/
def lostSetUp : SetUp (lost 1) 0 2 1 0 where
  pos := first_pos
  le := first_le
  reads_TBSE _ := rfl
  reads_RPA _ := rfl
  reads_PCHS _ := rfl
  eventPad := firstPad
  powerPad := boardPad
  named_CPGN _ := show firstPad.Named 0 from ⟨by decide, by decide⟩
  named_FPGN _ := show boardPad.Named 0x02030007 from ⟨by decide, by decide⟩
  reads_FPAT _ := rfl
  ports p hp := .inl (lost_ports p hp)
  reads_SBUS _ := show (1 : BitVec 8).setWidth 64 ≠ (0 : Integer) by decide
  space := lostSpace
  ends h := absurd h.1.2 (show ¬ (0 : BitVec 8).getLsbD 4 = true by decide)

/-- The power of the controller is switched. -/
def switches : Event dsdt → Bool
  | .enter (.TBFP _) => true
  | _ => false

end Dsdt
