import XPS9350.Dsdt.Protocol

/-!
# The discipline of the methods

Every method keeps to the protocol of `Dsdt.protocol`, on any hardware.
-/

namespace Dsdt

open Aml Aml.Prog

variable {σ α : Type} {env : Env dsdt σ} {r : ℕ} {K : List Lock} {GPCB : Integer}

/-! ### Events that have no part in the handshake -/

/-- Nothing that belongs inside `OSUM` or concerns it, and nothing that concerns the gate. -/
def aside (e : Event dsdt) : Bool :=
  match kind e with
  | .plain => true
  | .acquire m | .release m => m ≠ .OSUM
  | _ => false

theorem aside_of_plain {e : Event dsdt} (h : kind e = .plain) : aside e = true := by
  rw [aside, h]

theorem nests_serialized {m : Lock} {body : Method σ α} (hr : r ≤ rank m)
    (h : Nests env protocol (rank m + 1) (m :: K) body) :
    Nests env protocol r K (serialized m body) := by
  unfold serialized
  exact nests_locked (p := protocol) (l := m) rfl rfl hr h

/-- Locks are taken in order from the rank `r` on, and no part is taken in the handshake. -/
def Proper (env : Env dsdt σ) (r : ℕ) (m : Method σ α) : Prop :=
  (∀ K, Nests env protocol r K m) ∧ Emits env (fun _ e => aside e = true) m

section Proper

variable {β γ : Type} {m : Method σ α}

theorem proper_pure {a : α} : Proper env r (pure a : Method σ α) :=
  ⟨fun _ => nests_pure, emits_pure⟩

theorem proper_halt : Proper env r (halt : Method σ α) := ⟨fun _ => nests_halt, fun _ => .refl⟩

theorem proper_bind {f : α → Method σ β} (hm : Proper env r m) (hf : ∀ a, Proper env r (f a)) :
    Proper env r (m >>= f) :=
  ⟨fun K => nests_bind (hm.1 K) fun a => (hf a).1 K, emits_bind hm.2 fun a => (hf a).2⟩

theorem proper_seq {m : Method σ Unit} {f : Unit → Method σ β} (hm : Proper env r m)
    (hf : Proper env r (f ())) : Proper env r (m >>= f) := proper_bind hm fun _ => hf

theorem proper_ite {c : Prop} [Decidable c] {n : Method σ α} (hm : Proper env r m)
    (hn : Proper env r n) : Proper env r (if c then m else n) :=
  ⟨fun K => nests_ite (hm.1 K) (hn.1 K), emits_ite hm.2 hn.2⟩

theorem proper_get {n : Name} : Proper env r (get n : Method σ Integer) :=
  ⟨fun _ => nests_get, emits_get⟩

theorem proper_act {e : Event dsdt} {ha : ∀ (hw : Hardware dsdt σ) s, hw.Answers s e}
    (he : kind e = .plain) : Proper env r (act e ha) :=
  ⟨fun _ => nests_act (.inl he), emits_act fun _ => aside_of_plain he⟩

theorem proper_load {f : Field} (he : ∀ v, kind (.load f v) = .plain) :
    Proper env r (load f : Method σ Integer) :=
  ⟨fun _ => nests_load fun v => .inl (he v), emits_load fun _ v => aside_of_plain (he v)⟩

theorem proper_call {i : Invocation} (he : kind (.enter i) = .plain) (h : Proper env r m) :
    Proper env r (call i m) :=
  ⟨fun K => nests_call (.inl he) (h.1 K), emits_call (fun _ => aside_of_plain he) h.2⟩

theorem proper_whileLoop {l : Loop} {cond : β → Method σ Bool} {body : β → Method σ (Prog.Flow β γ)}
    {done : β → γ} {b : β} (hc : ∀ b, Proper env r (cond b)) (hb : ∀ b, Proper env r (body b)) :
    Proper env r (whileLoop l cond body done b) := by
  constructor
  · exact fun K => nests_whileLoop (fun _ => rfl) (fun _ => rfl) (fun b => (hc b).1 K)
      fun b => (hb b).1 K
  · exact emits_whileLoop (fun _ _ => rfl) (fun _ _ => rfl) (fun b => (hc b).2) fun b => (hb b).2

theorem proper_forM {f : β → Method σ PUnit} {xs : List β} (h : ∀ b, Proper env r (f b)) :
    Proper env r (xs.forM f) := by
  induction xs with
  | nil => exact proper_pure
  | cons b xs ih => exact proper_bind (h b) fun _ => ih

/-- A `Serialized` method. -/
theorem proper_serialized {m : Lock} {body : Method σ α} (hm : m ≠ .OSUM) (hr : r ≤ rank m)
    (h : Proper env (rank m + 1) body) : Proper env r (serialized m body) := by
  have hlock : aside (.enter (.Acquire m)) = true ∧ aside (.enter (.Release m)) = true :=
    ⟨decide_eq_true hm, decide_eq_true hm⟩
  constructor
  · exact fun K => nests_serialized hr (h.1 (m :: K))
  · unfold serialized
    refine emits_seq (emits_call (fun _ => hlock.1) emits_pure) (emits_bind h.2 fun _ => ?_)
    exact emits_seq (emits_call (fun _ => hlock.2) emits_pure) emits_pure

end Proper

/-! ### Configuration space -/

theorem proper_TBTD {Arg0 : Integer} (hr : r ≤ 4) : Proper env r (TBTD Arg0) := by
  unfold TBTD
  refine proper_serialized (by decide) hr ?_
  refine proper_ite proper_pure (proper_ite proper_pure (proper_ite proper_pure ?_))
  exact proper_ite proper_pure proper_halt

theorem proper_TBTF {Arg0 : Integer} (hr : r ≤ 4) : Proper env r (TBTF Arg0) := by
  unfold TBTF
  refine proper_serialized (by decide) hr (proper_ite ?_ ?_)
  · exact proper_bind (proper_load fun _ => rfl) fun _ => proper_pure
  · refine proper_ite proper_pure (proper_ite proper_pure ?_)
    exact proper_ite proper_pure proper_halt

theorem proper_MMRP (hr : r ≤ 4) : Proper env r (MMRP GPCB) := by
  unfold MMRP
  refine proper_bind (proper_load fun _ => rfl) fun _ => ?_
  refine proper_bind (proper_TBTD hr) fun _ => ?_
  refine proper_bind (proper_load fun _ => rfl) fun _ => ?_
  exact proper_bind (proper_TBTF hr) fun _ => proper_pure

theorem proper_MMTB (hr : r ≤ 3) : Proper env r (MMTB GPCB) := by
  unfold MMTB
  refine proper_serialized (by decide) hr ?_
  refine proper_bind (proper_MMRP (Nat.le_refl 4)) fun _ => ?_
  exact proper_bind (proper_load fun _ => rfl) fun _ => proper_pure

theorem proper_TSUB (hr : r ≤ 3) : Proper env r (TSUB GPCB) := by
  unfold TSUB
  refine proper_serialized (by decide) hr ?_
  refine proper_bind (proper_MMRP (Nat.le_refl 4)) fun _ => ?_
  exact proper_bind (proper_load fun _ => rfl) fun _ => proper_load fun _ => rfl

theorem proper_FFTB (hr : r ≤ 3) : Proper env r (FFTB GPCB) := by
  unfold FFTB
  refine proper_bind (proper_MMTB hr) fun _ => ?_
  exact proper_bind (proper_load fun _ => rfl) fun _ => proper_ite proper_pure proper_pure

theorem proper_SXTB (hr : r ≤ 3) : Proper env r (SXTB GPCB) := by
  unfold SXTB
  exact proper_bind (proper_MMTB hr) fun _ => proper_act rfl

theorem proper_PERB {a b c d e : Integer} (hr : r ≤ 3) :
    Proper env r (PERB a b c d e) := by
  unfold PERB
  exact proper_serialized (by decide) hr (proper_load fun _ => rfl)

theorem proper_PERW {a b c d e : Integer} (hr : r ≤ 3) :
    Proper env r (PERW a b c d e) := by
  unfold PERW
  exact proper_serialized (by decide) hr (proper_load fun _ => rfl)

theorem proper_STDC {a b c d e : Integer} (hr : r ≤ 2) :
    Proper env r (STDC a b c d e) := by
  unfold STDC
  refine proper_serialized (by decide) hr ?_
  have hbyte {a b c d e : Integer} : Proper env (rank .STDC + 1)
      (PERB a b c d e) := proper_PERB (Nat.le_refl 3)
  refine proper_bind (proper_PERW (Nat.le_refl 3)) fun _ => proper_ite proper_pure ?_
  refine proper_bind (proper_PERW (Nat.le_refl 3)) fun _ => proper_ite proper_pure ?_
  refine proper_bind hbyte fun _ => ?_
  refine proper_whileLoop (fun _ => proper_pure) fun Local2 => ?_
  refine proper_ite proper_pure (proper_bind hbyte fun _ => proper_ite proper_pure ?_)
  exact proper_bind hbyte fun _ => proper_pure

theorem proper_byte {a n mask v : Integer} : Proper env r (P8XH.byte a n mask v) := by
  unfold P8XH.byte
  refine proper_ite (proper_bind (proper_load fun _ => rfl) fun _ => ?_) proper_pure
  exact proper_act rfl

theorem proper_P8XH {a b : Integer} (hr : r ≤ 3) : Proper env r (P8XH a b) := by
  unfold P8XH
  refine proper_serialized (by decide) hr (proper_seq proper_byte (proper_seq proper_byte ?_))
  refine proper_seq proper_byte (proper_seq proper_byte ?_)
  exact proper_bind (proper_load fun _ => rfl) fun _ => proper_act rfl

/-! ### The GPIO controller -/

theorem proper_deref {t : List (List Integer)} {i j : Integer} :
    Proper env r (deref t i j) := by
  unfold deref
  split
  · exact proper_pure
  · exact proper_halt

theorem proper_GADR {a : Integer} {t : List (List Integer)} :
    Proper env r (GADR a t) := by
  unfold GADR variant
  refine proper_bind (proper_bind (proper_load fun _ => rfl) fun _ => ?_) fun _ => ?_
  · exact proper_ite proper_pure proper_pure
  · refine proper_bind proper_deref fun _ => proper_bind (proper_load fun _ => rfl) fun _ => ?_
    exact proper_bind proper_deref fun _ => proper_pure

theorem proper_padAddress {a : Integer} : Proper env r (padAddress a) := by
  unfold padAddress
  exact proper_bind proper_GADR fun _ => proper_pure

theorem proper_readPad {m : Lock} {f : PadField} {a : Integer} (hm : m ≠ .OSUM)
    (hr : r ≤ rank m) :
    Proper env r (readPad m f a) := by
  unfold readPad
  refine proper_serialized hm hr (proper_bind proper_padAddress fun _ => ?_)
  exact proper_load fun _ => rfl

theorem proper_writePad {m : Lock} {f : PadField} {a b : Integer} (hm : m ≠ .OSUM)
    (hr : r ≤ rank m) :
    Proper env r (writePad m f a b) := by
  unfold writePad
  refine proper_serialized hm hr (proper_bind proper_padAddress fun _ => ?_)
  exact proper_act rfl

theorem proper_mode {a : Integer} : Proper env r (mode a) := by
  unfold mode
  exact proper_bind (proper_load fun _ => rfl) fun _ => proper_pure

theorem proper_setEntry {f : Integer → Name} {a v : Integer} :
    Proper env r (setEntry f a v) := by
  unfold setEntry
  exact proper_ite (proper_act rfl) proper_halt

theorem proper_eachGroup {l : Loop} {body : Integer → Method σ Unit}
    (h : ∀ a, Proper env r (body a)) : Proper env r (eachGroup l body) := by
  unfold eachGroup groups
  refine proper_bind (proper_bind (proper_load fun _ => rfl) fun _ => ?_) fun _ => ?_
  · exact proper_ite proper_pure proper_pure
  · refine proper_whileLoop (fun _ => proper_pure) fun _ => ?_
    exact proper_seq (h _) proper_pure

theorem proper_UGPS (hr : r ≤ 2) : Proper env r UGPS := by
  unfold UGPS
  refine proper_serialized (by decide) hr (proper_eachGroup fun a => ?_)
  unfold UGP1
  refine proper_serialized (by decide) (Nat.le_refl 3) (proper_bind proper_GADR fun _ => ?_)
  refine proper_bind proper_mode fun _ => proper_ite ?_ proper_setEntry
  refine proper_bind (proper_load fun _ => rfl) fun _ => ?_
  exact proper_bind (proper_load fun _ => rfl) fun _ => proper_setEntry

theorem proper_CGP1 {a b : Integer} (hr : r ≤ 3) : Proper env r (CGP1 a b) := by
  unfold CGP1
  refine proper_serialized (by decide) hr (proper_bind proper_mode fun _ => ?_)
  refine proper_ite ?_ proper_pure
  exact proper_bind proper_GADR fun _ => proper_act rfl

theorem proper_CGLS (hr : r ≤ 2) : Proper env r CGLS := by
  unfold CGLS
  refine proper_serialized (by decide) hr (proper_eachGroup fun a => ?_)
  exact proper_bind (proper_load fun _ => rfl) fun _ => proper_CGP1 (Nat.le_refl 3)

theorem proper_CAGS {a : Integer} (hr : r ≤ 3) : Proper env r (CAGS a) := by
  unfold CAGS
  refine proper_serialized (by decide) hr (proper_bind proper_mode fun _ => ?_)
  refine proper_ite ?_ proper_pure
  refine proper_bind proper_GADR fun _ => proper_bind (proper_load fun _ => rfl) fun _ => ?_
  exact proper_bind (proper_load fun _ => rfl) fun _ => proper_act rfl

theorem proper_ISME {a : Integer} : Proper env r (ISME a) := by
  unfold ISME entry
  exact proper_bind (proper_ite proper_get proper_halt) fun _ => proper_pure

theorem proper_SHPO {a b : Integer} (hr : r ≤ 3) : Proper env r (SHPO a b) := by
  unfold SHPO
  refine proper_serialized (by decide) hr (proper_bind proper_GADR fun _ => ?_)
  exact proper_bind (proper_load fun _ => rfl) fun _ => proper_act rfl

/-- What is done about the processor ports has no part in the handshake. -/
theorem proper_ports (hr : r ≤ 3) : Proper env r (_L6F.ports : Method σ Unit) := by
  have hport {GP WK : Field} {n : Integer} (hGP : ∀ v, kind (.load GP v) = .plain)
      (hWK : ∀ v, kind (.load WK v) = .plain) :
      Proper env r (_L6F.port GP WK (wakePort n WK)) := by
    have hwake : Proper env r (wakePort n WK) := by
      unfold wakePort
      refine proper_bind (proper_load hWK) fun _ => proper_bind proper_ISME fun _ => ?_
      refine proper_ite (proper_bind (proper_load hWK) fun _ => ?_) proper_pure
      exact proper_seq (proper_SHPO hr) (proper_call rfl proper_pure)
    unfold _L6F.port
    refine proper_bind (proper_load hGP) fun _ => proper_ite (proper_seq hwake ?_) proper_pure
    exact proper_bind (proper_load hWK) fun _ => proper_CAGS hr
  refine proper_seq (hport (fun _ => rfl) fun _ => rfl) ?_
  exact proper_seq (hport (fun _ => rfl) fun _ => rfl) (hport (fun _ => rfl) fun _ => rfl)

/-! ### The handshake -/

/-- `OSUP` belongs inside `OSUM`. -/
theorem nests_OSUP {a : Integer} (hr : r ≤ 3) (hK : .OSUM ∈ K) :
    Nests env protocol r K (OSUP a) := by
  unfold OSUP
  refine nests_call (.inr ⟨_, hK, rfl⟩) (nests_serialized hr ?_)
  have hK' : .OSUM ∈ (.OSUP :: K : List Lock) := List.mem_cons_of_mem _ hK
  refine nests_seq (nests_act (.inr ⟨_, hK', rfl⟩)) (nests_bind ?_ fun Return => ?_)
  · refine nests_whileLoop (fun _ => rfl) (fun _ => rfl) (fun _ => nests_pure) fun Local1 => ?_
    refine nests_bind (nests_load fun _ => .inr ⟨_, hK', rfl⟩) fun _ => ?_
    refine nests_ite nests_pure (nests_ite nests_pure ?_)
    exact nests_seq (nests_act (.inl rfl)) nests_pure
  · rcases Return with _ | v
    · exact nests_seq (nests_act (.inr ⟨_, hK', rfl⟩)) nests_pure
    · exact nests_pure

theorem nests_TBFF (hr : r ≤ 2) (hK : .OSUM ∈ K) : Nests env protocol r K (TBFF GPCB) := by
  unfold TBFF
  refine nests_call (.inr ⟨_, hK, rfl⟩) (nests_serialized hr ?_)
  have hK' : .OSUM ∈ (.TBFF :: K : List Lock) := List.mem_cons_of_mem _ hK
  refine nests_bind ((proper_MMTB (Nat.le_refl 3)).1 _) fun _ => ?_
  refine nests_bind (nests_load fun _ => .inr ⟨_, hK', rfl⟩) fun _ => ?_
  exact nests_ite (nests_OSUP (Nat.le_refl 3) hK') nests_pure

theorem nests_TINI (hr : r ≤ 3) (hK : .OSUM ∈ K) : Nests env protocol r K (TINI GPCB) := by
  unfold TINI
  refine nests_call (.inr ⟨_, hK, rfl⟩) ?_
  refine nests_bind ((proper_MMRP (by omega)).1 _) fun _ => ?_
  refine nests_bind (nests_load fun _ => .inr ⟨_, hK, rfl⟩) fun _ => ?_
  refine nests_seq (nests_act (.inr ⟨_, hK, rfl⟩)) ?_
  refine nests_bind ((proper_MMTB hr).1 _) fun _ => nests_bind (nests_OSUP hr hK) fun _ => ?_
  exact nests_act (.inr ⟨_, hK, rfl⟩)

theorem proper_port {a : Integer} : Proper env r (NTFY.port a) := by
  unfold NTFY.port
  refine proper_ite (proper_call rfl proper_pure) ?_
  exact proper_ite (proper_call rfl proper_pure) proper_pure

theorem nests_NTFY (hr : r ≤ 2) (hK : .OSUM ∈ K) : Nests env protocol r K NTFY := by
  unfold NTFY
  refine nests_call (.inr ⟨_, hK, rfl⟩) (nests_serialized hr ?_)
  refine nests_bind (nests_load fun _ => .inl rfl) fun _ => nests_ite ?_ nests_pure
  exact nests_bind (nests_load fun _ => .inl rfl) fun _ => proper_port.1 _

/-! ### What the handler does before -/

theorem proper_WSUB (hr : r ≤ 3) : Proper env r (WSUB GPCB) := by
  unfold WSUB
  refine proper_whileLoop (fun _ => proper_pure) fun _ => ?_
  refine proper_bind (proper_TSUB hr) fun _ => proper_ite proper_pure ?_
  have hsleep {ms : Integer} {k : Unit → Method σ (Prog.Flow Integer Unit)}
      (hk : Proper env r (k ())) : Proper env r (sleep ms >>= k) :=
    proper_seq (proper_act rfl) hk
  exact proper_ite (hsleep proper_pure) (hsleep proper_pure)

theorem proper_PGWA (hr : r ≤ 2) : Proper env r (PGWA GPCB) := by
  unfold PGWA
  refine proper_serialized (by decide) hr (proper_bind (proper_load fun _ => rfl) fun _ => ?_)
  refine proper_ite ?_ proper_pure
  refine proper_bind (proper_MMRP (by decide)) fun Local0 => ?_
  refine proper_bind (proper_load fun _ => rfl) fun _ => ?_
  -- both branches go on with the link
  have link : Proper env (rank .PGWA + 1) (PGWA.link Local0) := by
    refine proper_bind (proper_load fun _ => rfl) fun _ => proper_ite ?_ proper_pure
    refine proper_seq (proper_act rfl) (proper_seq (proper_act rfl) ?_)
    refine proper_whileLoop (fun _ => proper_pure) fun _ => ?_
    refine proper_bind (proper_load fun _ => rfl) fun _ => proper_ite proper_pure ?_
    exact proper_seq (proper_act rfl) proper_pure
  refine proper_ite ?_ link
  refine proper_seq (proper_act rfl) (proper_seq (proper_act rfl) ?_)
  exact proper_seq (proper_act rfl) link

/-! ### The expander -/

theorem proper_timer : Proper env r (timer : Method σ Integer) :=
  ⟨fun _ => nests_of_emits (emits_timer fun _ _ => .inl rfl), emits_timer fun _ _ => rfl⟩

theorem proper_R3DC {a b c : Integer} : Proper env r (GEXP.R3DC a b c) :=
  proper_ite proper_get proper_halt

theorem proper_W3DC {a b c d : Integer} : Proper env r (GEXP.W3DC a b c d) :=
  proper_ite (proper_act rfl) proper_halt

theorem proper_INVC : Proper env r (GEXP.INVC : Method σ Unit) := by
  refine proper_whileLoop (fun _ => proper_pure) fun _ => ?_
  have forget {m : Method σ (Prog.Flow Integer Unit)} {a i : Integer} (hm : Proper env r m) :
      Proper env r (do
        if (← GEXP.R3DC a i 0) = 0x02 then GEXP.W3DC a i 0 1
        m) :=
    proper_bind proper_R3DC fun _ => proper_ite (proper_seq proper_W3DC hm) hm
  exact forget (forget proper_pure)

theorem proper_select {a : Integer} : Proper env r (GEXP.select a) := by
  unfold GEXP.select
  refine proper_seq (proper_act rfl) (proper_seq (proper_act rfl) ?_)
  refine proper_bind (proper_load fun _ => rfl) fun _ => ?_
  refine proper_bind (proper_load fun _ => rfl) fun _ => ?_
  refine proper_seq (proper_act rfl) (proper_seq (proper_act rfl) ?_)
  refine proper_seq (proper_act rfl) (proper_seq (proper_act rfl) ?_)
  exact proper_seq (proper_act rfl) (proper_act rfl)

theorem proper_await {l : Loop} {f : Field} {v d : Integer} (hf : ∀ v, kind (.load f v) = .plain) :
    Proper env r (GEXP.await l f v d) := by
  unfold GEXP.await
  refine proper_whileLoop (fun _ => ?_) fun _ => ?_
  · exact proper_bind (proper_load hf) fun _ => proper_pure
  · exact proper_bind proper_timer fun _ => proper_ite proper_pure proper_pure

theorem proper_WREG {a b c d : Integer} (hr : r ≤ 5) : Proper env r (GEXP.WREG a b c d) := by
  unfold GEXP.WREG
  have hzero : Proper env (rank .WREG + 1) (pure 0 : Method σ Integer) := proper_pure
  refine proper_serialized (by decide) hr (proper_bind proper_timer fun _ => ?_)
  refine proper_seq proper_select (proper_bind (proper_await fun _ => rfl) fun _ => ?_)
  refine proper_ite (proper_seq (proper_act rfl) (proper_seq (proper_act rfl) ?_)) hzero
  refine proper_bind (proper_await fun _ => rfl) fun _ => ?_
  refine proper_ite (proper_seq (proper_act rfl) ?_) hzero
  refine proper_bind (proper_await fun _ => rfl) fun _ => proper_ite ?_ hzero
  refine proper_seq proper_W3DC (proper_bind proper_R3DC fun _ => ?_)
  exact proper_ite (proper_seq proper_W3DC hzero) hzero

theorem proper_RREG {a b c : Integer} (hr : r ≤ 5) : Proper env r (GEXP.RREG a b c) := by
  unfold GEXP.RREG
  have hzero : Proper env (rank .RREG + 1) (pure 0 : Method σ Integer) := proper_pure
  have hknown : Proper env (rank .RREG + 1) (GEXP.RREG.known b c) :=
    proper_ite (proper_bind proper_R3DC fun _ => proper_pure) proper_pure
  refine proper_serialized (by decide) hr (proper_bind hknown fun known => ?_)
  refine proper_ite proper_R3DC (proper_bind proper_timer fun _ => ?_)
  refine proper_seq proper_select (proper_bind (proper_await fun _ => rfl) fun _ => ?_)
  refine proper_ite (proper_seq (proper_act rfl) (proper_seq (proper_act rfl) ?_)) hzero
  refine proper_bind (proper_await fun _ => rfl) fun _ => proper_ite ?_ hzero
  refine proper_bind (proper_load fun _ => rfl) fun _ => proper_seq (proper_act rfl) ?_
  exact proper_bind (proper_await fun _ => rfl) fun _ => proper_ite proper_pure hzero

theorem proper_power {m : Lock} {v a : Integer} (hm : m ≠ .OSUM) (hr : r ≤ rank m) :
    Proper env r (GEXP.power m v a) :=
  proper_serialized hm hr
    (proper_seq (proper_act rfl) (proper_bind (proper_load fun _ => rfl) fun _ => proper_pure))

theorem proper_CSER {a b c d e : Integer} (hr : r ≤ 4) : Proper env r (GEXP.CSER a b c d e) := by
  unfold GEXP.CSER
  refine proper_serialized (by decide) hr (proper_ite proper_pure ?_)
  refine proper_bind (proper_load fun _ => rfl) fun _ => ?_
  refine proper_bind (proper_load fun _ => rfl) fun _ => ?_
  refine proper_bind (proper_load fun _ => rfl) fun _ => ?_
  refine proper_ite proper_pure (proper_ite proper_pure (proper_ite proper_pure ?_))
  refine proper_ite proper_pure (proper_ite proper_pure ?_)
  have hregister {t : List Integer} {i : Integer} :
      Proper env (rank .CSER + 1) (GEXP.CSER.register t i) := by
    unfold GEXP.CSER.register
    split
    · exact proper_pure
    · exact proper_halt
  have haccess {s REGA PINN : Integer} :
      Proper env (rank .CSER + 1) (GEXP.CSER.access s b REGA PINN d e) := by
    refine proper_bind (proper_RREG (Nat.le_refl 5)) fun _ => ?_
    refine proper_ite proper_pure (proper_ite ?_ proper_pure)
    exact proper_bind (proper_WREG (Nat.le_refl 5)) fun _ => proper_pure
  refine proper_seq (proper_power (by decide) (Nat.le_refl 5)) (proper_bind hregister fun _ => ?_)
  refine proper_bind haccess fun _ => ?_
  exact proper_seq (proper_power (by decide) (Nat.le_refl 5)) proper_pure

theorem proper_SGEP {a b c : Integer} (hr : r ≤ 3) : Proper env r (GEXP.SGEP a b c) := by
  unfold GEXP.SGEP
  refine proper_serialized (by decide) hr (proper_bind (proper_load fun _ => rfl) fun _ => ?_)
  exact proper_bind (proper_CSER (Nat.le_refl 4)) fun _ => proper_pure

theorem proper_GEPS {a b : Integer} (hr : r ≤ 3) : Proper env r (GEXP.GEPS a b) := by
  unfold GEXP.GEPS
  refine proper_serialized (by decide) hr (proper_bind (proper_load fun _ => rfl) fun _ => ?_)
  exact proper_CSER (Nat.le_refl 4)

theorem proper_CGWR {a b c d : Integer} (hr : r ≤ 2) : Proper env r (CGWR a b c d) := by
  unfold CGWR SGOV
  refine proper_serialized (by decide) hr (proper_ite ?_ ?_)
  · exact proper_writePad (by decide) (Nat.le_refl 3)
  · exact proper_ite (proper_SGEP (Nat.le_refl 3)) proper_pure

theorem proper_CGRD {a b c d : Integer} (hr : r ≤ 2) : Proper env r (CGRD a b c d) := by
  unfold CGRD GGOV GGIV
  have hread {m : Lock} {f : PadField} (hm : m ≠ .OSUM) (hrank : rank .CGRD + 1 ≤ rank m) :
      Proper env (rank .CGRD + 1) (readPad m f c) := proper_readPad hm hrank
  refine proper_serialized (by decide) hr (proper_ite ?_ ?_)
  · refine proper_ite (hread (by decide) (Nat.le_refl 3)) ?_
    exact proper_ite (hread (by decide) (Nat.le_refl 3)) proper_halt
  · exact proper_ite (proper_GEPS (Nat.le_refl 3)) proper_halt

theorem proper_TFPS (hr : r ≤ 2) : Proper env r TFPS := by
  unfold TFPS
  refine proper_bind (proper_load fun _ => rfl) fun _ => ?_
  refine proper_bind (proper_load fun _ => rfl) fun _ => ?_
  exact proper_bind (proper_load fun _ => rfl) fun _ => proper_CGRD hr

theorem proper_TBFP {a : Integer} (hr : r ≤ 2) : Proper env r (TBFP a) := by
  unfold TBFP
  have hload {f : Field} {k : Integer → Method σ Unit} (hf : ∀ v, kind (.load f v) = .plain)
      (hk : ∀ v, Proper env r (k v)) : Proper env r (load f >>= k) :=
    proper_bind (proper_load hf) hk
  refine proper_call rfl (proper_ite ?_ ?_)
  · refine hload (fun _ => rfl) fun _ => hload (fun _ => rfl) fun _ => ?_
    exact hload (fun _ => rfl) fun _ => hload (fun _ => rfl) fun _ => proper_CGWR hr
  · refine hload (fun _ => rfl) fun _ => hload (fun _ => rfl) fun _ => ?_
    exact hload (fun _ => rfl) fun _ => hload (fun _ => rfl) fun _ => proper_CGWR hr

theorem proper_eventBit {l : Loop} : Proper env r (eventBit l) := by
  unfold eventBit
  refine proper_bind (proper_load fun _ => rfl) fun _ => ?_
  refine proper_bind (proper_load fun _ => rfl) fun _ => ?_
  exact proper_whileLoop (fun _ => proper_pure) fun _ => proper_pure

theorem proper_CNCT : Proper env r CNCT := by
  unfold CNCT
  refine proper_bind proper_eventBit fun _ => ?_
  exact proper_bind (proper_load fun _ => rfl) fun _ => proper_pure

theorem proper_CLNE : Proper env r CLNE := by
  unfold CLNE
  refine proper_bind proper_eventBit fun _ => ?_
  exact proper_bind (proper_load fun _ => rfl) fun _ => proper_act rfl

theorem proper_DRPM (hr : r ≤ 2) : Proper env r (DRPM GPCB) := by
  unfold DRPM
  refine proper_bind (proper_load fun _ => rfl) fun _ => ?_
  refine proper_bind (proper_TBTD (by omega)) fun _ => ?_
  refine proper_bind (proper_load fun _ => rfl) fun _ => ?_
  refine proper_bind (proper_TBTF (by omega)) fun _ => proper_bind (proper_STDC hr) fun _ => ?_
  exact proper_bind (proper_MMRP (by omega)) fun _ => proper_act rfl

theorem proper_DMSI (hr : r ≤ 3) : Proper env r (DMSI GPCB) := by
  unfold DMSI
  refine proper_bind (proper_MMTB hr) fun _ => proper_bind (proper_load fun _ => rfl) fun _ => ?_
  refine proper_ite ?_ proper_pure
  refine proper_seq (proper_act rfl) (proper_seq (proper_act rfl) ?_)
  refine proper_seq (proper_act rfl) (proper_bind ?_ fun Return => ?_)
  · refine proper_whileLoop (fun _ => proper_pure) fun _ => ?_
    refine proper_bind (proper_load fun _ => rfl) fun _ => ?_
    refine proper_ite proper_pure (proper_ite proper_pure ?_)
    exact proper_seq (proper_act rfl) proper_pure
  · rcases Return with _ | v
    · exact proper_seq (proper_act rfl) proper_pure
    · exact proper_pure

theorem proper_force {on : Prop} [Decidable on] {a b : Integer} (hr : r ≤ 2) :
    Proper env r (RSMI.force on a b) := by
  unfold RSMI.force
  exact proper_ite (proper_TBFP hr) (proper_TBFP hr)

theorem proper_RSMI (hr : r ≤ 2) : Proper env r (RSMI GPCB) := by
  unfold RSMI
  refine proper_bind (proper_TFPS hr) fun _ => proper_bind (proper_MMTB (by omega)) fun _ => ?_
  refine proper_bind (proper_load fun _ => rfl) fun _ => proper_ite proper_pure ?_
  refine proper_bind proper_CNCT fun _ => proper_ite proper_pure ?_
  refine proper_bind (proper_DRPM hr) fun _ => proper_seq (proper_force hr) ?_
  refine proper_seq ?_ (proper_seq (proper_force hr) proper_pure)
  refine proper_whileLoop (fun _ => ?_) fun _ => ?_
  · refine proper_bind (proper_FFTB (by omega)) fun _ => ?_
    exact proper_bind proper_CNCT fun _ => proper_pure
  · refine proper_seq (proper_act rfl) (proper_seq proper_CLNE ?_)
    have hlast {c : Prop} [Decidable c] {b : Integer} : Proper env r
        (if c then pure (.leave ()) else pure (.next b) : Method σ (Prog.Flow Integer Unit)) :=
      proper_ite proper_pure proper_pure
    exact proper_ite (proper_seq (proper_act rfl) hlast) hlast

theorem proper_GNIS (hr : r ≤ 3) : Proper env r (GNIS GPCB) := by
  unfold GNIS
  refine proper_bind (proper_load fun _ => rfl) fun _ => proper_ite proper_pure ?_
  refine proper_bind (proper_MMTB hr) fun _ => ?_
  refine proper_bind (proper_load fun _ => rfl) fun _ => proper_ite proper_pure ?_
  refine proper_bind (proper_load fun _ => rfl) fun _ => proper_ite ?_ proper_pure
  exact proper_seq (proper_act rfl) proper_pure

/-! ### The handler -/

section Handler

variable {x : Sync.Place Lock}

/-- With no lock but those of lower rank, and off the way through the gate. -/
def Free (x : Sync.Place Lock) : Prop := x.passing = false ∧ ∀ k ∈ x.held, rank k < 1

theorem free_start {opener : Bool} : Free (.start opener) := ⟨rfl, fun _ hk => by cases hk⟩

/-- The method keeps to the protocol from `x` on, and comes back to `x`. -/
abbrev Returns (env : Env dsdt σ) (x : Sync.Place Lock) (m : Method σ α) : Prop :=
  Keeps env (Sync.Place.next protocol) x m fun _ y => y = x

theorem Free.keeps {m : Method σ α} (hx : Free x) (h : Proper env 1 m) : Returns env x m :=
  h.1 [] x hx.1 hx.2 fun _ hk => by cases hk

/-- The place with `OSUM` acquired. -/
abbrev withOSUM (x : Sync.Place Lock) : Sync.Place Lock := { x with held := .OSUM :: x.held }

theorem Free.acquire (hx : Free x) :
    x.next protocol (.enter (.Acquire .OSUM)) = some (withOSUM x) := by
  have hkind : protocol.kind (.enter (.Acquire .OSUM)) = .acquire .OSUM := rfl
  exact (Sync.next_acquire hkind).mpr ⟨hx, rfl⟩

theorem Free.release (hx : Free x) :
    (withOSUM x).next protocol (.enter (.Release .OSUM)) = some x :=
  (Sync.next_release rfl).mpr ⟨⟨hx.1, rfl⟩, rfl⟩

/-- What may be done under `OSUM`. -/
theorem Free.keeps_inside {m : Method σ α} (hx : Free x) (h : Nests env protocol 2 [.OSUM] m) :
    Returns env (withOSUM x) m := by
  refine h _ hx.1 ?_ ?_
  · intro k hk
    rcases List.mem_cons.mp hk with rfl | hk
    · exact Nat.lt_succ_self 1
    · exact Nat.lt_succ_of_lt (hx.2 k hk)
  · intro k hk
    rw [List.mem_singleton.mp hk]
    exact List.mem_cons_self

/-- The gate is passed without any lock that its openers may need. -/
theorem keeps_WWAK (hx : Free x) (ho : x.opener = false) : Returns env x WWAK := by
  have hwait : x.next protocol (.enter .Wait) = some { x with passing := true } :=
    (Sync.next_wait rfl).mpr ⟨⟨hx.1, ho, hx.2⟩, rfl⟩
  have hsignal : Sync.Place.next protocol { x with passing := true } (.enter .Signal) = some x := by
    refine (Sync.next_signal rfl).mpr ⟨.inl rfl, ?_⟩
    rw [← hx.1]
  unfold WWAK Wait Signal
  exact keeps_call_seq hwait (keeps_call hsignal (keeps_pure rfl))

theorem proper_again : Proper env r (_E42.again : Method σ Bool) := by
  unfold _E42.again
  refine proper_bind (proper_load fun _ => rfl) fun _ => ?_
  refine proper_bind (proper_load fun _ => rfl) fun _ => proper_ite ?_ proper_pure
  refine proper_bind (proper_load fun _ => rfl) fun _ => ?_
  exact proper_bind proper_get fun _ => proper_pure

theorem keeps_handle (hx : Free x) :
    Keeps env (Sync.Place.next protocol) (withOSUM x) (_E42.handle GPCB) fun _ y => y = x := by
  unfold _E42.handle Release
  have hsleep {ms : Integer} {k : Unit → Method σ (Prog.Flow Unit Unit)}
      (hk : Keeps env (Sync.Place.next protocol) (withOSUM x) (k ()) fun _ y => y = x) :
      Keeps env (Sync.Place.next protocol) (withOSUM x) (sleep ms >>= k) fun _ y => y = x :=
    keeps_seq (hx.keeps_inside (nests_act (.inl rfl))) fun _ => hk
  have hNTFY : Returns env (withOSUM x) NTFY :=
    hx.keeps_inside (nests_NTFY (Nat.le_refl 2) List.mem_cons_self)
  have hTBFF : Returns env (withOSUM x) (TBFF GPCB) :=
    hx.keeps_inside (nests_TBFF (Nat.le_refl 2) List.mem_cons_self)
  refine keeps_seq hTBFF fun Local1 => ?_
  refine keeps_ite (fun _ => ?_) fun _ => keeps_ite (fun _ => ?_) fun _ => ?_
  · -- the firmware has acknowledged the command
    refine hsleep (keeps_call_seq hx.release (keeps_seq (hx.keeps proper_again) fun b => ?_))
    exact keeps_ite (fun _ => keeps_pure rfl) fun _ => keeps_pure rfl
  · -- the device is gone
    refine keeps_seq hNTFY fun _ => hsleep (keeps_call_seq hx.release ?_)
    exact keeps_seq (hx.keeps (proper_P8XH (by omega))) fun _ => keeps_pure rfl
  · -- the device is there
    refine keeps_seq (hx.keeps_inside (nests_load fun _ => .inl rfl)) fun _ => ?_
    have last : Keeps env (Sync.Place.next protocol) (withOSUM x) _E42.leave fun _ y => y = x :=
      keeps_seq hNTFY fun _ => hsleep (keeps_call_seq hx.release (keeps_pure rfl))
    refine keeps_ite (fun _ => ?_) fun _ => last
    refine keeps_seq (hx.keeps_inside nests_get) fun _ => ?_
    exact keeps_seq (hx.keeps_inside (nests_act (.inl rfl))) fun _ => last

theorem proper_native (hr : r ≤ 2) : Proper env r (_E42.native GPCB) := by
  unfold _E42.native
  refine proper_bind (proper_load fun _ => rfl) fun _ => proper_ite ?_ proper_pure
  refine proper_bind (proper_RSMI hr) fun _ => proper_ite proper_pure ?_
  exact proper_bind (proper_DMSI (by omega)) fun _ => proper_pure

theorem keeps_pass (hx : Free x) (ho : x.opener = false) : Returns env x (_E42.pass GPCB) := by
  have body : Returns env x (_E42.attempt GPCB) := by
    refine keeps_seq (keeps_WWAK hx ho) fun _ => ?_
    refine keeps_seq (hx.keeps (proper_WSUB (by omega))) fun _ => ?_
    refine keeps_seq (hx.keeps (proper_native (by omega))) fun b => ?_
    refine keeps_ite (fun _ => keeps_pure rfl) fun _ => ?_
    refine keeps_seq (hx.keeps (proper_GNIS (by omega))) fun _ => ?_
    refine keeps_ite (fun _ => keeps_pure rfl) fun _ => ?_
    refine keeps_seq (hx.keeps (proper_PGWA (by omega))) fun _ => ?_
    exact keeps_call_seq hx.acquire (keeps_handle hx)
  unfold _E42.pass
  refine keeps_seq (hx.keeps (proper_load fun _ => rfl)) fun _ => ?_
  refine keeps_ite (fun _ => ?_) fun _ => body
  refine keeps_seq (hx.keeps (proper_load fun _ => rfl)) fun _ => ?_
  exact keeps_seq (hx.keeps (proper_CAGS (by omega))) fun _ => body

theorem keeps_E42 (hx : Free x) (ho : x.opener = false) : Returns env x (_E42 GPCB) :=
  keeps_whileLoop_same (fun _ _ => rfl) (fun _ _ => rfl) (fun _ => keeps_pure rfl)
    fun _ => keeps_pass hx ho

end Handler

/-! ### The tasks -/

/-- A `Serialized` method that is called with no lock held. -/
theorem keeps_serialized {m : Lock} {body : Method σ α} {opener : Bool} (hm : rank m = 0)
    (h : ∀ x, Free x → x.opener = opener → Returns env x body) :
    Returns env (.start opener) (serialized m body) := by
  have hx : Free (⟨[m], false, opener⟩ : Sync.Place Lock) := by
    refine ⟨rfl, fun k hk => ?_⟩
    rw [List.mem_singleton.mp hk, hm]
    exact Nat.one_pos
  unfold serialized Acquire Release
  refine keeps_call_seq (y := ⟨[m], false, opener⟩) ?_ (keeps_seq (h _ hx rfl) fun _ => ?_)
  · exact (Sync.next_acquire rfl).mpr ⟨⟨rfl, fun _ hk => by cases hk⟩, rfl⟩
  · exact keeps_call_seq ((Sync.next_release rfl).mpr ⟨⟨rfl, rfl⟩, rfl⟩) (keeps_pure rfl)

theorem keeps_THDR {opener : Bool} (ho : opener = false) :
    Returns env (.start opener) (THDR GPCB) :=
  keeps_serialized rfl fun _ hx hx' => keeps_E42 hx (hx'.trans ho)

theorem keeps_L6F : Returns env (.start false) (_L6F GPCB) := by
  unfold _L6F
  have hCGLS : Returns env (.start false) CGLS :=
    free_start.keeps (proper_CGLS (by omega))
  refine keeps_seq (free_start.keeps (proper_UGPS (by omega))) fun _ => ?_
  refine keeps_seq (free_start.keeps (proper_load fun _ => rfl)) fun _ => ?_
  refine keeps_seq (free_start.keeps (proper_ports (by omega))) fun _ => ?_
  refine keeps_seq (free_start.keeps (proper_load fun _ => rfl)) fun _ => ?_
  refine keeps_ite (fun _ => ?_) fun _ => hCGLS
  refine keeps_seq (free_start.keeps (proper_load fun _ => rfl)) fun _ => ?_
  refine keeps_seq (free_start.keeps proper_ISME) fun _ => keeps_ite (fun _ => ?_) fun _ => hCGLS
  exact keeps_seq (keeps_THDR rfl) fun _ => hCGLS

/-- The handshake of `TINI`, with `OSUM` acquired. -/
theorem keeps_TINI {x : Sync.Place Lock} {k : Unit → Method σ α} {Q : α → Sync.Place Lock → Prop}
    (hx : Free x) (hk : Keeps env (Sync.Place.next protocol) x (k ()) Q) :
    Keeps env (Sync.Place.next protocol) (withOSUM x)
      (TINI GPCB >>= fun _ => Release .OSUM >>= k) Q := by
  refine keeps_seq (hx.keeps_inside (nests_TINI (by omega) List.mem_cons_self)) fun _ => ?_
  exact keeps_call_seq hx.release hk

/-- An opener signals without having passed the gate. -/
theorem keeps_Signal {x : Sync.Place Lock} (hx : Free x) (ho : x.opener = true) :
    Returns env x Signal := by
  refine keeps_call ((Sync.next_signal rfl).mpr ⟨.inr ho, ?_⟩) (keeps_pure rfl)
  rw [← hx.1]

theorem keeps_INI {_OSI : String → Bool} : Returns env (.start true) (_INI GPCB _OSI) := by
  refine keeps_serialized rfl fun x hx ho => ?_
  refine keeps_seq (hx.keeps (proper_act rfl)) fun _ => ?_
  refine keeps_seq (hx.keeps (proper_forM fun a => ?_)) fun _ => ?_
  · exact proper_ite (proper_act rfl) proper_pure
  · refine keeps_seq (hx.keeps (proper_load fun _ => rfl)) fun _ => ?_
    refine keeps_ite (fun _ => ?_) fun _ => keeps_pure rfl
    refine keeps_call_seq hx.acquire ?_
    refine keeps_seq (hx.keeps_inside ((proper_P8XH (by omega)).1 _)) fun _ => ?_
    exact keeps_TINI hx (keeps_Signal hx ho)

theorem keeps_RPTS {Arg0 : Integer} : Returns env (.start false) (RPTS GPCB Arg0) := by
  have hx : Free (.start false) := free_start
  have last : Returns env (.start false) (RPTS.last Arg0) :=
    hx.keeps (proper_ite (proper_act rfl) proper_pure)
  have reset : Returns env (.start false) (do Reset; RPTS.last Arg0) :=
    keeps_call_seq ((Sync.next_reset rfl).mpr ⟨rfl, rfl⟩) last
  unfold RPTS
  refine keeps_seq (hx.keeps (proper_act rfl)) fun _ => ?_
  refine keeps_seq (hx.keeps (proper_P8XH (by omega))) fun _ => ?_
  refine keeps_seq (hx.keeps (proper_load fun _ => rfl)) fun _ => ?_
  refine keeps_ite (fun _ => ?_) fun _ => last
  refine keeps_seq (hx.keeps (proper_FFTB (by omega))) fun _ => ?_
  refine keeps_seq (hx.keeps (proper_load fun _ => rfl)) fun _ => ?_
  refine keeps_ite (fun _ => ?_) fun _ => reset
  exact keeps_seq (hx.keeps (proper_SXTB (by omega))) fun _ => reset

theorem proper_notify {a : Integer} : Proper env r (RWAK.notify a) := by
  unfold RWAK.notify Notify
  refine proper_bind (proper_load fun _ => rfl) fun _ => proper_ite ?_ proper_pure
  refine proper_ite ?_ (proper_call rfl proper_pure)
  refine proper_bind (proper_load fun _ => rfl) fun _ => proper_ite ?_ proper_pure
  exact proper_call rfl proper_pure

theorem keeps_RWAK {Arg0 : Integer} : Returns env (.start true) (RWAK GPCB Arg0) := by
  refine keeps_serialized rfl fun x hx ho => ?_
  have last : Returns env x RWAK.last := by
    refine keeps_seq (hx.keeps (proper_load fun _ => rfl)) fun _ => ?_
    exact keeps_ite (fun _ => keeps_Signal hx ho) fun _ => keeps_pure rfl
  have ports : Returns env x RWAK.ports :=
    keeps_seq (hx.keeps (proper_forM fun _ => proper_notify)) fun _ => last
  have wake : Returns env x (RWAK.wake GPCB Arg0) := by
    refine keeps_ite (fun _ => ?_) fun _ => last
    refine keeps_seq (hx.keeps (proper_load fun _ => rfl)) fun _ => ?_
    refine keeps_ite (fun _ => ?_) fun _ => ports
    exact keeps_call_seq hx.acquire (keeps_TINI hx ports)
  refine keeps_seq (hx.keeps (proper_P8XH (by omega))) fun _ => ?_
  refine keeps_seq (hx.keeps proper_INVC) fun _ => keeps_ite (fun _ => ?_) fun _ => wake
  exact keeps_seq (hx.keeps (proper_act rfl)) fun _ => wake

/-- **Every task keeps to the protocol**, and gives back every lock that it takes. -/
theorem keeps_task (T : Task) : Returns env (.start T.opener) (T.run GPCB) := by
  cases T with
  | _E42 => exact keeps_E42 free_start rfl
  | THDR => exact keeps_THDR rfl
  | _L6F => exact keeps_L6F
  | _INI _OSI => exact keeps_INI
  | RPTS Arg0 => exact keeps_RPTS
  | RWAK Arg0 => exact keeps_RWAK

theorem Task.Spawns.follow {T : Task} {es : List (Event dsdt)} (h : T.Spawns GPCB es) :
    (Sync.follow protocol (.start T.opener) es).isSome := by
  obtain ⟨σ, env, s, rfl⟩ := h
  exact (keeps_task T).scan s

theorem Task.Completes.follow {T : Task} {es : List (Event dsdt)} (h : T.Completes GPCB es) :
    Sync.follow protocol (.start T.opener) es = some (.start T.opener) := by
  obtain ⟨σ, env, s, w, hr, rfl⟩ := h
  obtain ⟨_, hy, rfl⟩ := (keeps_task T).scan_eq hr
  exact hy

end Dsdt
