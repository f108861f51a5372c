import XPS9350.Dsdt.Equiv.Notify

/-!
# The bus number of the root port

`TINI` gives the root port another bus for the time of its handshake, and what the handler does is
aimed at whatever bus it reads.  Nothing but the gate keeps the two apart.

* `bus_restored`: with one task that opens the gate, no handler reads the bus number before that
  task has put it back, and it is not changed again.
-/

namespace Dsdt

open Aml Aml.Prog

variable {σ α : Type} {env : Env dsdt σ} {GPCB : Integer} {b : Bool}

/-- The bus number of the root port is read. -/
def seesBus : Event dsdt → Bool
  | .load (.SBUS _ _) _ => true
  | _ => false

/-- The register with the bus numbers is read or written. -/
def movesBus : Event dsdt → Bool
  | .load (.REG6 _) _ | .store (.REG6 _) _ => true
  | _ => false

/-! ### The handler waits first -/

/-- Whether the gate has been passed.  The bus number is not read before. -/
def waited (b : Bool) : Event dsdt → Option Bool
  | .enter .Wait => some true
  | .load (.SBUS _ _) _ => if b then some true else none
  | _ => some b

theorem waited_true {e : Event dsdt} : waited true e = some true := by
  unfold waited
  split <;> rfl

theorem keeps_waited_true {m : Method σ α} : Keeps env waited true m fun _ y => y = true :=
  keeps_of_emits (fun w => (m.path env w).mono fun _ _ _ => waited_true) fun _ => rfl

/-- The bus number is not read, nor is there a wait at the gate. -/
def Blind (env : Env dsdt σ) (m : Method σ α) : Prop :=
  Emits env (fun _ e => waited false e = some false) m

theorem Blind.keeps {m : Method σ α} (h : Blind env m) : Keeps env waited b m fun _ y => y = b := by
  cases b with
  | false => exact keeps_of_emits h fun _ => rfl
  | true => exact keeps_waited_true

section Blind

theorem blind_load {f : Field} (h : ∀ v, waited false (.load f v) = some false) :
    Blind env (load f : Method σ Integer) := emits_load fun _ => h

theorem blind_serialized {m : Lock} {body : Method σ α} (h : Blind env body) :
    Blind env (serialized m body) := by
  unfold serialized Acquire Release
  refine emits_seq (emits_call (fun _ => rfl) emits_pure) (emits_bind h fun _ => ?_)
  exact emits_seq (emits_call (fun _ => rfl) emits_pure) emits_pure

theorem blind_deref {t : List (List Integer)} {i j : Integer} :
    Blind env (deref t i j : Method σ Integer) := by
  unfold deref
  split
  · exact emits_pure
  · exact fun _ => .refl

theorem blind_GADR {a : Integer} {t : List (List Integer)} :
    Blind env (GADR a t : Method σ Integer) := by
  have hvariant : Blind env (variant : Method σ Integer) :=
    emits_bind (blind_load fun _ => rfl) fun _ => emits_ite emits_pure emits_pure
  refine emits_bind hvariant fun _ => emits_bind blind_deref fun _ => ?_
  refine emits_bind (blind_load fun _ => rfl) fun _ => ?_
  exact emits_bind blind_deref fun _ => emits_pure

theorem blind_mode {a : Integer} : Blind env (mode a : Method σ Integer) :=
  emits_bind (blind_load fun _ => rfl) fun _ => emits_pure

theorem blind_eachGroup {l : Loop} {body : Integer → Method σ Unit} (h : ∀ i, Blind env (body i)) :
    Blind env (eachGroup l body) := by
  have hgroups : Blind env (groups : Method σ Integer) :=
    emits_bind (blind_load fun _ => rfl) fun _ => emits_ite emits_pure emits_pure
  refine emits_bind hgroups fun _ => emits_whileLoop (fun _ _ => rfl) (fun _ _ => rfl) ?_ ?_
  · exact fun _ => emits_pure
  · exact fun i => emits_seq (h (i - 1)) emits_pure

theorem blind_UGPS : Blind env (UGPS : Method σ Unit) := by
  have hset {i v : Integer} : Blind env (setEntry .GPES i v : Method σ Unit) :=
    emits_ite (emits_set fun _ => rfl) fun _ => .refl
  refine blind_serialized (blind_eachGroup fun i => blind_serialized ?_)
  refine emits_bind blind_GADR fun _ => emits_bind blind_mode fun _ => emits_ite ?_ hset
  refine emits_bind (blind_load fun _ => rfl) fun _ => ?_
  exact emits_bind (blind_load fun _ => rfl) fun _ => hset

theorem blind_CGLS : Blind env (CGLS : Method σ Unit) := by
  refine blind_serialized (blind_eachGroup fun i => ?_)
  refine emits_bind (blind_load fun _ => rfl) fun _ => blind_serialized ?_
  refine emits_bind blind_mode fun _ => emits_ite ?_ emits_pure
  exact emits_bind blind_GADR fun _ => emits_store fun _ => rfl

theorem blind_CAGS {a : Integer} : Blind env (CAGS a : Method σ Unit) := by
  refine blind_serialized (emits_bind blind_mode fun _ => emits_ite ?_ emits_pure)
  refine emits_bind blind_GADR fun _ => emits_bind (blind_load fun _ => rfl) fun _ => ?_
  exact emits_bind (blind_load fun _ => rfl) fun _ => emits_store fun _ => rfl

theorem blind_ISME {a : Integer} : Blind env (ISME a : Method σ Integer) :=
  emits_bind (emits_ite emits_get fun _ => .refl) fun _ => emits_pure

theorem blind_SHPO {a b : Integer} : Blind env (SHPO a b : Method σ Unit) := by
  refine blind_serialized (emits_bind blind_GADR fun _ => ?_)
  exact emits_bind (blind_load fun _ => rfl) fun _ => emits_store fun _ => rfl

theorem blind_ports : Blind env (_L6F.ports : Method σ Unit) := by
  have hport {GP WK : Field} {n : Integer} (hGP : ∀ v, waited false (.load GP v) = some false)
      (hWK : ∀ v, waited false (.load WK v) = some false) :
      Blind env (_L6F.port GP WK (wakePort n WK)) := by
    have hwake : Blind env (wakePort n WK) := by
      refine emits_bind (blind_load hWK) fun _ => emits_bind blind_ISME fun _ => ?_
      refine emits_ite (emits_bind (blind_load hWK) fun _ => emits_seq blind_SHPO ?_) emits_pure
      exact emits_call (fun _ => rfl) emits_pure
    refine emits_bind (blind_load hGP) fun _ => emits_ite (emits_seq hwake ?_) emits_pure
    exact emits_bind (blind_load hWK) fun _ => blind_CAGS
  refine emits_seq (hport (fun _ => rfl) fun _ => rfl) ?_
  exact emits_seq (hport (fun _ => rfl) fun _ => rfl) (hport (fun _ => rfl) fun _ => rfl)

end Blind

theorem keeps_waited_pass : Keeps env waited b (_E42.pass GPCB) fun _ _ => True := by
  unfold _E42.pass
  have body : Keeps env waited b (_E42.attempt GPCB) fun _ _ => True := by
    have hWWAK : Keeps env waited b (WWAK : Method σ Unit) fun _ y => y = true :=
      keeps_call_seq (y := true) rfl (keeps_call rfl (keeps_pure rfl))
    refine keeps_bind hWWAK ?_
    rintro _ _ rfl
    exact keeps_waited_true.imp fun _ _ _ => trivial
  refine keeps_seq (blind_load fun _ => rfl).keeps fun _ => keeps_ite (fun _ => ?_) fun _ => body
  refine keeps_seq (blind_load fun _ => rfl).keeps fun _ => ?_
  exact keeps_seq blind_CAGS.keeps fun _ => body

theorem keeps_waited_E42 : Keeps env waited b (_E42 GPCB) fun _ _ => True := by
  refine keeps_whileLoop (fun _ _ => True) (fun _ _ => rfl) (fun _ _ => rfl) trivial ?_
  intro _ y _
  refine keeps_pure (keeps_waited_pass.imp ?_)
  rintro (_ | _) _ _ <;> trivial

/-- The handler reads the bus number only after it has passed the gate. -/
theorem keeps_waited_task {T : Task} (hT : T.handler = true) :
    Keeps env waited false (T.run GPCB) fun _ _ => True := by
  have hTHDR : Keeps env waited false (THDR GPCB) fun _ _ => True := by
    unfold THDR serialized Acquire Release
    refine keeps_call_seq rfl (keeps_bind keeps_waited_E42 fun _ y _ => ?_)
    exact keeps_call_seq rfl (keeps_pure trivial)
  have hCGLS {b : Bool} : Keeps env waited b (CGLS : Method σ Unit) fun _ _ => True :=
    blind_CGLS.keeps.imp fun _ _ _ => trivial
  cases T with
  | _E42 => exact keeps_waited_E42
  | THDR => exact hTHDR
  | _L6F =>
    show Keeps env waited false (_L6F GPCB) fun _ _ => True
    unfold _L6F
    refine keeps_seq blind_UGPS.keeps fun _ => keeps_seq (blind_load fun _ => rfl).keeps fun _ => ?_
    refine keeps_seq blind_ports.keeps fun _ => keeps_seq (blind_load fun _ => rfl).keeps fun _ => ?_
    refine keeps_ite (fun _ => ?_) fun _ => hCGLS
    refine keeps_seq (blind_load fun _ => rfl).keeps fun _ => keeps_seq blind_ISME.keeps fun _ => ?_
    exact keeps_ite (fun _ => keeps_bind hTHDR fun _ _ _ => hCGLS) fun _ => hCGLS
  | _INI _ => cases hT
  | RPTS _ => cases hT
  | RWAK _ => cases hT

/-- A gate that was passed is in the history. -/
theorem wait_mem_of_waited {es : List (Event dsdt)}
    (h : es.reverse.foldlM waited false = some true) : .enter .Wait ∈ es := by
  induction es with
  | nil => cases h
  | cons e es ih =>
    obtain ⟨b, hb, hc⟩ := foldlM_reverse_cons.mp h
    cases b with
    | true => exact List.mem_cons_of_mem e (ih hb)
    | false =>
      unfold waited at hc
      split at hc
      · exact List.mem_cons_self
      · cases hc
      · cases hc

/-! ### Whoever opens the gate has put the bus number back -/

/-- What may have been done to the register when the gate is opened, newest first: nothing, or it
was read, given the bus `0xF0` and given back what had been read. -/
def Restored (es : List (Event dsdt)) : Prop :=
  es = [] ∨ ∃ a v, es = [.store (.REG6 a) v, .store (.REG6 a) 0x00F0F000, .load (.REG6 a) v]

/-- What has been done to the register, and whether the gate has been opened. -/
structure BusLog where
  moves : List (Event dsdt)
  opened : Bool

open Classical in
/-- The gate is opened when the register is as it was, and nothing is done to it afterwards. -/
noncomputable def BusLog.next (x : BusLog) (e : Event dsdt) : Option BusLog :=
  if movesBus e then
    if x.opened then none else some { x with moves := e :: x.moves }
  else if e = .enter .Signal then
    if Restored x.moves then some { x with opened := true } else none
  else some x

section BusLog

variable {x y : BusLog} {e : Event dsdt} {moves : List (Event dsdt)}

theorem BusLog.next_other (hm : movesBus e = false) (hs : e ≠ .enter .Signal) :
    x.next e = some x := by
  rw [BusLog.next, if_neg (by rw [hm]; decide), if_neg hs]

theorem BusLog.next_move (hm : movesBus e = true) :
    BusLog.next ⟨moves, false⟩ e = some ⟨e :: moves, false⟩ := by
  rw [BusLog.next, if_pos hm, if_neg Bool.false_ne_true]

theorem BusLog.next_signal (h : Restored x.moves) :
    x.next (.enter .Signal) = some { x with opened := true } := by
  rw [BusLog.next, if_neg (by decide), if_pos rfl, if_pos h]

/-- What an event tells the monitor. -/
theorem BusLog.next_cases (h : x.next e = some y) :
    (movesBus e = true ∧ x.opened = false ∧ y = ⟨e :: x.moves, false⟩) ∨
    (movesBus e = false ∧ e = .enter .Signal ∧ Restored x.moves ∧ y = ⟨x.moves, true⟩) ∨
    movesBus e = false ∧ e ≠ .enter .Signal ∧ y = x := by
  obtain ⟨moves, opened⟩ := x
  unfold BusLog.next at h
  split_ifs at h with hm ho hs hr
  · obtain rfl := Option.some.inj h
    cases opened
    · exact .inl ⟨hm, rfl, rfl⟩
    · exact absurd rfl ho
  · obtain rfl := Option.some.inj h
    exact .inr (.inl ⟨Bool.eq_false_iff.mpr hm, hs, hr, rfl⟩)
  · obtain rfl := Option.some.inj h
    exact .inr (.inr ⟨Bool.eq_false_iff.mpr hm, hs, rfl⟩)

/-- What the monitor has seen. -/
theorem BusLog.moves_eq {es : List (Event dsdt)}
    (h : es.reverse.foldlM BusLog.next ⟨[], false⟩ = some x) : x.moves = es.filter movesBus := by
  induction es generalizing x with
  | nil =>
    obtain rfl := Option.some.inj h
    rfl
  | cons e es ih =>
    obtain ⟨y, hy, hz⟩ := foldlM_reverse_cons.mp h
    rcases BusLog.next_cases hz with ⟨hm, -, rfl⟩ | ⟨hm, -, -, rfl⟩ | ⟨hm, -, rfl⟩
    · rw [List.filter_cons_of_pos hm, ← ih hy]
    · rw [List.filter_cons_of_neg (by rw [hm]; decide), ← ih hy]
    · rw [List.filter_cons_of_neg (by rw [hm]; decide), ← ih hy]

/-- Before a signal the register has been restored, and after it nothing is done to it. -/
theorem BusLog.of_signal {newer older : List (Event dsdt)}
    (h : (newer ++ .enter .Signal :: older).reverse.foldlM BusLog.next ⟨[], false⟩ = some x) :
    x.opened = true ∧ (∀ e ∈ newer, movesBus e = false) ∧ Restored (older.filter movesBus) := by
  induction newer generalizing x with
  | nil =>
    obtain ⟨y, hy, hz⟩ := foldlM_reverse_cons.mp h
    rcases BusLog.next_cases hz with ⟨hm, -⟩ | ⟨-, -, hr, rfl⟩ | ⟨-, hs, -⟩
    · cases hm
    · rw [BusLog.moves_eq hy] at hr
      exact ⟨rfl, by simp, hr⟩
    · exact absurd rfl hs
  | cons e newer ih =>
    obtain ⟨y, hy, hz⟩ := foldlM_reverse_cons.mp h
    obtain ⟨hopened, hnewer, hr⟩ := ih hy
    have hcons (hm : movesBus e = false) : ∀ x ∈ e :: newer, movesBus x = false := by
      intro x hx
      rcases List.mem_cons.mp hx with rfl | hx
      · exact hm
      · exact hnewer x hx
    rcases BusLog.next_cases hz with ⟨-, hclosed, -⟩ | ⟨hm, -, -, rfl⟩ | ⟨hm, -, rfl⟩
    · rw [hopened] at hclosed
      cases hclosed
    · exact ⟨rfl, hcons hm, hr⟩
    · exact ⟨hopened, hcons hm, hr⟩

end BusLog

/-! ### The openers -/

theorem busLog_aside {e : Event dsdt} (h : aside e = true) : movesBus e = false ∧
    e ≠ .enter .Signal := by
  constructor
  · unfold movesBus
    split
    · cases h
    · cases h
    · rfl
  · rintro rfl
    cases h

section Openers

variable {x : BusLog} {r : ℕ}

theorem keeps_busLog_aside {m : Method σ α} (h : Proper env r m) :
    Keeps env BusLog.next x m fun _ y => y = x :=
  keeps_of_emits (h.2.mono fun _ _ he => BusLog.next_other (busLog_aside he).1 (busLog_aside he).2)
    fun _ => rfl

theorem emits_OSUP {a : Integer} :
    Emits env (fun _ e => movesBus e = false ∧ e ≠ .enter .Signal) (OSUP a) := by
  unfold OSUP serialized Acquire Release
  refine emits_call (fun _ => ⟨rfl, nofun⟩) ?_
  refine emits_seq (emits_call (fun _ => ⟨rfl, nofun⟩) emits_pure) (emits_bind ?_ fun _ => ?_)
  · refine emits_seq (emits_store fun _ => ⟨rfl, nofun⟩) (emits_bind ?_ fun r => ?_)
    · refine emits_whileLoop (fun _ _ => ⟨rfl, nofun⟩) (fun _ _ => ⟨rfl, nofun⟩)
        (fun _ => emits_pure) fun _ => ?_
      refine emits_bind (emits_load fun _ _ => ⟨rfl, nofun⟩) fun _ => emits_ite emits_pure ?_
      exact emits_ite emits_pure (emits_seq (emits_sleep fun _ => ⟨rfl, nofun⟩) emits_pure)
    · cases r with
      | some v => exact emits_pure
      | none => exact emits_seq (emits_store fun _ => ⟨rfl, nofun⟩) emits_pure
  · exact emits_seq (emits_call (fun _ => ⟨rfl, nofun⟩) emits_pure) emits_pure

theorem keeps_busLog_OSUP {a : Integer} : Keeps env BusLog.next x (OSUP a) fun _ y => y = x :=
  keeps_of_emits (emits_OSUP.mono fun _ _ he => BusLog.next_other he.1 he.2) fun _ => rfl

/-- The bus numbers that `TINI` stores fit the register. -/
theorem cut_REG6 {a : Integer} : dsdt.cut (.REG6 a) 0x00F0F000 = 0x00F0F000 := by
  show ((0x00F0F000 : BitVec 64).setWidth 32).setWidth 64 = 0x00F0F000
  decide

/-- `TINI` puts the bus number back. -/
theorem keeps_busLog_TINI :
    Keeps env BusLog.next ⟨[], false⟩ (TINI GPCB) fun _ y => Restored y.moves := by
  unfold TINI
  refine keeps_call (BusLog.next_other rfl nofun) ?_
  refine keeps_seq (keeps_busLog_aside (proper_MMRP (Nat.le_refl 4))) fun Local0 => ?_
  have hload : Keeps env BusLog.next ⟨[], false⟩ (load (.REG6 (Local0 + 0x18))) fun v y =>
      dsdt.cut (.REG6 (Local0 + 0x18)) v = v ∧
        y = ⟨[.load (.REG6 (Local0 + 0x18)) v], false⟩ :=
    keeps_load_cut fun v hv => ⟨_, BusLog.next_move rfl, hv, rfl⟩
  refine keeps_bind hload ?_
  rintro Local1 _ ⟨hcut, rfl⟩
  have hmove (moves : List (Event dsdt)) (v : Integer) :
      Keeps env BusLog.next ⟨moves, false⟩ (store (.REG6 (Local0 + 0x18)) v) fun _ y =>
        y = ⟨.store (.REG6 (Local0 + 0x18)) (dsdt.cut (.REG6 (Local0 + 0x18)) v) :: moves, false⟩ :=
    keeps_act (BusLog.next_move rfl) rfl
  refine keeps_bind (hmove _ _) ?_
  rintro _ _ rfl
  refine keeps_seq (keeps_busLog_aside (proper_MMTB (Nat.le_refl 3))) fun Local2 => ?_
  refine keeps_seq keeps_busLog_OSUP fun _ => (hmove _ _).imp ?_
  rintro _ _ rfl
  rw [hcut, cut_REG6]
  exact .inr ⟨Local0 + 0x18, Local1, rfl⟩

/-- Opening the gate when the register is as it was. -/
theorem keeps_busLog_Signal (h : Restored x.moves) :
    Keeps env BusLog.next x Signal fun _ _ => True :=
  keeps_call (BusLog.next_signal h) (keeps_pure trivial)

/-- The handshake and what follows it. -/
theorem keeps_busLog_handshake {k : Unit → Method σ Unit}
    (hk : ∀ y : BusLog, Restored y.moves → Keeps env BusLog.next y (k ()) fun _ _ => True) :
    Keeps env BusLog.next ⟨[], false⟩ (TINI GPCB >>= fun _ => Release .OSUM >>= k)
      fun _ _ => True := by
  refine keeps_bind keeps_busLog_TINI fun _ y hy => ?_
  exact keeps_call_seq (BusLog.next_other rfl nofun) (hk y hy)

theorem keeps_busLog_serialized {m : Lock} {body : Method σ Unit}
    (h : Keeps env BusLog.next x body fun _ _ => True) :
    Keeps env BusLog.next x (serialized m body) fun _ _ => True := by
  unfold serialized Acquire Release
  refine keeps_call_seq (BusLog.next_other rfl nofun) (keeps_bind h fun _ _ _ => ?_)
  exact keeps_call_seq (BusLog.next_other rfl nofun) (keeps_pure trivial)

theorem keeps_busLog_INI {_OSI : String → Bool} :
    Keeps env BusLog.next ⟨[], false⟩ (_INI GPCB _OSI) fun _ _ => True := by
  refine keeps_busLog_serialized ?_
  refine keeps_seq (keeps_busLog_aside (r := 0) (proper_act rfl)) fun _ => ?_
  refine keeps_seq (keeps_busLog_aside (r := 0) (proper_forM fun _ => ?_)) fun _ => ?_
  · exact proper_ite (proper_act rfl) proper_pure
  refine keeps_seq (keeps_busLog_aside (r := 0) (proper_load fun _ => rfl)) fun _ => ?_
  refine keeps_ite (fun _ => ?_) fun _ => keeps_pure trivial
  refine keeps_call_seq (BusLog.next_other rfl nofun) ?_
  refine keeps_seq (keeps_busLog_aside (proper_P8XH (Nat.le_refl 3))) fun _ => ?_
  exact keeps_busLog_handshake fun _ hy => keeps_busLog_Signal hy

theorem keeps_busLog_RWAK {Arg0 : Integer} :
    Keeps env BusLog.next ⟨[], false⟩ (RWAK GPCB Arg0) fun _ _ => True := by
  have last {x : BusLog} (hx : Restored x.moves) :
      Keeps env BusLog.next x RWAK.last fun _ _ => True := by
    refine keeps_seq (keeps_busLog_aside (r := 0) (proper_load fun _ => rfl)) fun _ => ?_
    exact keeps_ite (fun _ => keeps_busLog_Signal hx) fun _ => keeps_pure trivial
  have ports {x : BusLog} (hx : Restored x.moves) :
      Keeps env BusLog.next x RWAK.ports fun _ _ => True :=
    keeps_seq (keeps_busLog_aside (r := 0) (proper_forM fun _ => proper_notify)) fun _ => last hx
  have wake : Keeps env BusLog.next ⟨[], false⟩ (RWAK.wake GPCB Arg0) fun _ _ => True := by
    refine keeps_ite (fun _ => ?_) fun _ => last (.inl rfl)
    refine keeps_seq (keeps_busLog_aside (r := 0) (proper_load fun _ => rfl)) fun _ => ?_
    refine keeps_ite (fun _ => ?_) fun _ => ports (.inl rfl)
    refine keeps_call_seq (BusLog.next_other rfl nofun) ?_
    exact keeps_busLog_handshake fun _ hy => ports hy
  refine keeps_busLog_serialized ?_
  refine keeps_seq (keeps_busLog_aside (proper_P8XH (Nat.le_refl 3))) fun _ => ?_
  refine keeps_seq (keeps_busLog_aside (r := 0) proper_INVC) fun _ => ?_
  refine keeps_ite (fun _ => ?_) fun _ => wake
  exact keeps_seq (keeps_busLog_aside (r := 0) (proper_act rfl)) fun _ => wake

theorem keeps_busLog_task {T : Task} (hT : T.opener = true) :
    Keeps env BusLog.next ⟨[], false⟩ (T.run GPCB) fun _ _ => True := by
  cases T with
  | _E42 => cases hT
  | THDR => cases hT
  | _L6F => cases hT
  | _INI _OSI => exact keeps_busLog_INI
  | RPTS _ => cases hT
  | RWAK Arg0 => exact keeps_busLog_RWAK

end Openers

/-! ### Nobody else changes the bus number -/

section Still

variable {r : ℕ}

/-- The register with the bus numbers is neither read nor written. -/
def Still (env : Env dsdt σ) (m : Method σ α) : Prop := Emits env (fun _ e => movesBus e = false) m

theorem still_of_proper {m : Method σ α} (h : Proper env r m) : Still env m :=
  h.2.mono fun _ _ he => (busLog_aside he).1

theorem still_call {i : Invocation} : Still env (call i (pure ()) : Method σ Unit) :=
  emits_call (fun _ => rfl) emits_pure

theorem still_serialized {m : Lock} {body : Method σ α} (h : Still env body) :
    Still env (serialized m body) :=
  emits_seq still_call (emits_bind h fun _ => emits_seq still_call emits_pure)

theorem still_handle : Still env (_E42.handle GPCB : Method σ (Prog.Flow Unit Unit)) := by
  have hTBFF : Still env (TBFF GPCB) := by
    refine emits_call (fun _ => rfl) (still_serialized ?_)
    refine emits_bind (still_of_proper (proper_MMTB (Nat.le_refl 3))) fun _ => ?_
    refine emits_bind (emits_load fun _ _ => rfl) fun _ => emits_ite ?_ emits_pure
    exact emits_OSUP.mono fun _ _ he => he.1
  have hNTFY : Still env (NTFY : Method σ Unit) := by
    refine emits_call (fun _ => rfl) (still_serialized ?_)
    refine emits_bind (emits_load fun _ _ => rfl) fun _ => emits_ite ?_ emits_pure
    exact emits_bind (emits_load fun _ _ => rfl) fun _ => still_of_proper (r := 0) proper_port
  have hsleep : Still env (sleep 0x10 : Method σ Unit) := emits_sleep fun _ => rfl
  refine emits_bind hTBFF fun _ => emits_ite ?_ (emits_ite ?_ ?_)
  · refine emits_seq hsleep (emits_seq still_call ?_)
    exact emits_bind (still_of_proper (r := 0) proper_again) fun _ =>
      emits_ite emits_pure emits_pure
  · refine emits_seq hNTFY (emits_seq hsleep (emits_seq still_call ?_))
    exact emits_seq (still_of_proper (proper_P8XH (Nat.le_refl 3))) emits_pure
  · have last : Still env (_E42.leave : Method σ (Prog.Flow Unit Unit)) :=
      emits_seq hNTFY (emits_seq hsleep (emits_seq still_call emits_pure))
    refine emits_bind (emits_load fun _ _ => rfl) fun _ => emits_ite ?_ last
    exact emits_bind emits_get fun _ => emits_seq (emits_store fun _ => rfl) last

theorem still_E42 : Still env (_E42 GPCB : Method σ Unit) := by
  refine emits_whileLoop (fun _ _ => rfl) (fun _ _ => rfl) (fun _ => emits_pure) fun _ => ?_
  have body : Still env (_E42.attempt GPCB) := by
    refine emits_seq (emits_seq still_call still_call) ?_
    refine emits_seq (still_of_proper (proper_WSUB (Nat.le_refl 3))) ?_
    refine emits_bind (still_of_proper (proper_native (Nat.le_refl 2))) fun _ => ?_
    refine emits_ite emits_pure ?_
    refine emits_bind (still_of_proper (proper_GNIS (Nat.le_refl 3))) fun _ => ?_
    refine emits_ite emits_pure (emits_seq (still_of_proper (proper_PGWA (Nat.le_refl 2))) ?_)
    exact emits_seq still_call still_handle
  unfold _E42.pass
  refine emits_bind (emits_load fun _ _ => rfl) fun _ => emits_ite ?_ body
  refine emits_bind (emits_load fun _ _ => rfl) fun _ => ?_
  exact emits_seq (still_of_proper (proper_CAGS (Nat.le_refl 3))) body

/-- Only a task that opens the gate changes the bus number. -/
theorem still_task {T : Task} (hT : T.opener = false) : Still env (T.run GPCB) := by
  have hTHDR : Still env (THDR GPCB : Method σ Unit) := still_serialized still_E42
  cases T with
  | _E42 => exact still_E42
  | THDR => exact hTHDR
  | _L6F =>
    have hCGLS : Still env (CGLS : Method σ Unit) := still_of_proper (proper_CGLS (Nat.le_refl 2))
    refine emits_seq (still_of_proper (proper_UGPS (Nat.le_refl 2))) ?_
    refine emits_bind (emits_load fun _ _ => rfl) fun _ => ?_
    refine emits_seq (still_of_proper (proper_ports (Nat.le_refl 3))) ?_
    refine emits_bind (emits_load fun _ _ => rfl) fun _ => emits_ite ?_ hCGLS
    refine emits_bind (emits_load fun _ _ => rfl) fun _ => ?_
    refine emits_bind (still_of_proper (r := 0) proper_ISME) fun _ => emits_ite ?_ hCGLS
    exact emits_seq hTHDR hCGLS
  | _INI _ => cases hT
  | RPTS Arg0 =>
    have last : Still env (RPTS.last Arg0 : Method σ Unit) :=
      emits_ite (emits_store fun _ => rfl) emits_pure
    refine emits_seq (emits_store fun _ => rfl) ?_
    refine emits_seq (still_of_proper (proper_P8XH (Nat.le_refl 3))) ?_
    refine emits_bind (emits_load fun _ _ => rfl) fun _ => emits_ite ?_ last
    refine emits_bind (still_of_proper (proper_FFTB (Nat.le_refl 3))) fun _ => ?_
    refine emits_bind (emits_load fun _ _ => rfl) fun _ => emits_ite ?_ (emits_seq still_call last)
    exact emits_seq (still_of_proper (proper_SXTB (Nat.le_refl 3))) (emits_seq still_call last)
  | RWAK _ => cases hT

end Still

/-! ### The theorem -/

section Interleaved

variable {ι : Type} [DecidableEq ι] {tasks : ι → Task} {threads : ι → List (Event dsdt)}
  {newer older : List (ι × Event dsdt)} {s : Sync.System ι Lock (Event dsdt)} {t : ι}
  {e : Event dsdt}

/-- Every event of a thread that does not open the gate leaves the bus number alone. -/
theorem opener_of_moves (ht : Spawned GPCB tasks threads)
    (h : Sync.Run protocol (.start threads) older s) {x : ι × Event dsdt} (hx : x ∈ older)
    (hm : movesBus x.2 = true) : (tasks x.1).opener = true := by
  by_contra hopener
  have hmem : x.2 ∈ threads x.1 := by
    show x.2 ∈ (Sync.System.start (L := Lock) threads).todo x.1
    rw [h.part_append x.1]
    exact List.mem_append_left _ (List.mem_reverse.mpr (Sync.mem_part.mpr hx))
  obtain ⟨σ, env, s, heq⟩ := ht x.1
  have hpath : Path env.hw _ s.world ((tasks x.1).run GPCB env s.world).2 :=
    still_task (Bool.eq_false_iff.mpr hopener) s.world
  have hall := hpath.forall_log (R := fun y => movesBus y.event = false)
    (fun _ _ _ he => he) (by simp)
  rw [heq, List.mem_reverse, World.events, List.mem_map] at hmem
  obtain ⟨y, hy, hxy⟩ := hmem
  rw [← hxy, hall y hy] at hm
  cases hm

/-- A handler that reads the bus number has passed the gate. -/
theorem wait_of_seesBus (ht : Spawned GPCB tasks threads) (hT : (tasks t).handler = true)
    (h : Sync.Run protocol (.start threads) ((t, e) :: older) s) (he : seesBus e = true) :
    (t, .enter .Wait) ∈ older := by
  have hscan : ((threads t).foldlM waited false).isSome := by
    obtain ⟨σ, env, s, heq⟩ := ht t
    rw [heq]
    exact (keeps_waited_task hT).scan s
  have hpart := h.monitored hscan
  rw [Sync.part_cons_self, List.reverse_cons, List.foldlM_append] at hpart
  obtain ⟨b, hb⟩ := Option.isSome_iff_exists.mp (Option.isSome_of_isSome_bind hpart)
  rw [hb] at hpart
  cases b with
  | true => exact Sync.mem_part.mp (wait_mem_of_waited hb)
  | false =>
    -- without the gate, the monitor lets no bus number be read
    unfold seesBus at he
    split at he
    · cases hpart
    · cases he

/-- A task that opens the gate has put back the bus number, and leaves it alone from then on. -/
theorem settled_of_signal {o : ι} (ht : Spawned GPCB tasks threads) (ho : (tasks o).opener = true)
    (h : Sync.Run protocol (.start threads) (newer ++ (o, .enter .Signal) :: older) s) :
    (∀ x ∈ newer, x.1 = o → movesBus x.2 = false) ∧
      Restored ((Sync.part o older).filter movesBus) := by
  have hscan : ((threads o).foldlM BusLog.next ⟨[], false⟩).isSome := by
    obtain ⟨σ, env, s, heq⟩ := ht o
    rw [heq]
    exact (keeps_busLog_task ho).scan s
  obtain ⟨x, hx⟩ := Option.isSome_iff_exists.mp (h.monitored hscan)
  rw [Sync.part_append, Sync.part_cons_self] at hx
  obtain ⟨-, hstill, hrestored⟩ := BusLog.of_signal hx
  refine ⟨fun x hx hxo => hstill x.2 (Sync.mem_part.mpr ?_), hrestored⟩
  rw [← hxo]
  exact hx

/-- **No handler sees the bus of the handshake**: when a handler reads the bus number, a task that
opens the gate has put back what it found there, if it has changed it at all, and will not change it
any more.  Nobody but such a task ever changes it. -/
theorem bus_restored (ht : Spawned GPCB tasks threads) (hT : (tasks t).handler = true)
    (h : Sync.Run protocol (.start threads) (newer ++ (t, e) :: older) s)
    (he : seesBus e = true) :
    (∃ o, (tasks o).opener = true ∧ Restored ((Sync.part o older).filter movesBus) ∧
      ∀ x ∈ newer, x.1 = o → movesBus x.2 = false) ∧
      ∀ x ∈ newer ++ (t, e) :: older, movesBus x.2 = true → (tasks x.1).opener = true := by
  refine ⟨?_, fun x hx hm => opener_of_moves ht h hx hm⟩
  obtain ⟨s₁, hrun⟩ := h.of_append
  obtain ⟨newer₁, older₁, rfl⟩ := List.append_of_mem (wait_of_seesBus ht hT hrun he)
  -- somebody has opened the gate for it
  obtain ⟨s₂, _, hbefore, -⟩ := hrun.of_cons
  obtain ⟨s₃, hgate⟩ := hbefore.of_append
  obtain ⟨newer₂, o, e', older₂, rfl, hsignal, hopener⟩ := hgate.opened ht.disciplined rfl
  obtain rfl := kind_eq_signal hsignal
  set mid := newer₁ ++ (t, .enter .Wait) :: newer₂ with hmid
  have hsplit : newer₁ ++ (t, .enter .Wait) :: (newer₂ ++ (o, .enter .Signal) :: older₂) =
      mid ++ (o, .enter .Signal) :: older₂ := by
    rw [hmid, List.append_assoc, List.cons_append]
  rw [hsplit] at h ⊢
  rw [← List.cons_append, ← List.append_assoc] at h
  obtain ⟨hstill, hrestored⟩ := settled_of_signal ht hopener h
  -- the opener has done nothing to the bus number between its signal and the read
  have hnone : (Sync.part o mid).filter movesBus = [] := by
    rw [List.filter_eq_nil_iff]
    intro x hx hm
    have hmem : (o, x) ∈ newer ++ (t, e) :: mid :=
      List.mem_append_right _ (List.mem_cons_of_mem _ (Sync.mem_part.mp hx))
    rw [hstill (o, x) hmem rfl] at hm
    cases hm
  refine ⟨o, hopener, ?_, fun x hx => hstill x (List.mem_append_left _ hx)⟩
  rw [Sync.part_append, Sync.part_cons_self, List.filter_append, hnone, List.nil_append,
    List.filter_cons_of_neg (by decide)]
  exact hrestored

set_option maxRecDepth 4000 in
/-- The handler reads the bus number after the initialisation has come to its end. -/
theorem bus_restored_INI :
    (∃ o, (twoTasks o).opener = true ∧ Restored ((Sync.part o
      (twoPlay (List.replicate 15 false ++ List.replicate 42 true)).1).filter movesBus) ∧
      ∀ x ∈ ([] : List (Bool × Event dsdt)), x.1 = o → movesBus x.2 = false) ∧
      ∀ x ∈ [] ++ (false, .load (.SBUS .TSUB 0xE0019) 1) ::
        (twoPlay (List.replicate 15 false ++ List.replicate 42 true)).1,
        movesBus x.2 = true → (twoTasks x.1).opener = true := by
  have hrun : Sync.Run protocol (.start twoThreads)
      (twoPlay (List.replicate 16 false ++ List.replicate 42 true)).1
      (twoPlay (List.replicate 16 false ++ List.replicate 42 true)).2 := Sync.run_play _
  exact bus_restored (t := false) twoThreads_completed.spawned rfl hrun rfl

end Interleaved

end Dsdt
