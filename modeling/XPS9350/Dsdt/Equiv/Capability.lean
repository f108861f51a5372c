import XPS9350.Aml.BitField
import XPS9350.Aml.Walk
import XPS9350.Dsdt.Pci

/-!
# The search for a capability

`STDC` follows the list of capabilities in the configuration space of a function: the byte at `0x34`
points to the first one, and the byte after the id of a capability points to the next one.  A zero
ends the list.  Nothing bounds the search, so a list that comes back to itself is searched for ever.

* `STDC_exact`: what `STDC` finds, and when it does not end.
-/

namespace Dsdt

open Aml Aml.Prog

variable {σ : Type} {env : Env dsdt σ} {Arg0 Arg1 Arg2 Arg3 Arg4 : Integer}

/-- The configuration space of function `Arg3` of device `Arg2` on bus `Arg1`, which stays as it
is. -/
structure ConfigSpace (hw : Hardware dsdt σ) (Arg0 Arg1 Arg2 Arg3 : Integer) where
  byte : BitVec 8 → BitVec 8
  reads_byte : ∀ (r : BitVec 8) s,
    hw.reads (.TEMP .PERB (PERB.address Arg0 Arg1 Arg2 Arg3 (r.setWidth 64))) s =
      (byte r).setWidth 64
  reads_word : ∀ (r : BitVec 8) s,
    hw.reads (.TEMP .PERW (PERB.address Arg0 Arg1 Arg2 Arg3 (r.setWidth 64))) s =
      (byte (r + 1) ++ byte r).setWidth 64

namespace ConfigSpace

variable {hw : Hardware dsdt σ} (C : ConfigSpace hw Arg0 Arg1 Arg2 Arg3) (Arg4 : Integer)

/-- The function is there and has a list of capabilities. -/
def Lists : Prop := C.byte 1 ++ C.byte 0 ≠ 0xFFFF#16 ∧ (C.byte 0x06).getLsbD 4 = true

/-- A pointer of the list, without the bits that are reserved. -/
def pointer (r : BitVec 8) : BitVec 8 := C.byte r &&& 0xFC

/-- The pointer to the first capability, and to the one after the capability at `p`. -/
def head : BitVec 8 := C.pointer 0x34

def next (p : BitVec 8) : BitVec 8 := C.pointer (p + 1)

/-- The list ends at `p`, or the capability at `p` is the wanted one. -/
def Wanted (p : BitVec 8) : Prop := p = 0 ∨ (C.byte p).setWidth 64 = Arg4

instance : DecidablePred (C.Wanted Arg4) :=
  fun p => inferInstanceAs (Decidable (p = 0 ∨ (C.byte p).setWidth 64 = Arg4))

/-- The search comes to `p`, which is the first wanted one, in less than 64 steps. -/
def Finds (p : BitVec 8) : Prop :=
  ∃ k < 64, StopsAt C.next (C.Wanted Arg4) C.head k ∧ C.next^[k] C.head = p

/-- The list comes back to itself, within 64 steps and with nothing wanted on it. -/
def Circles : Prop := ∃ i j, i < j ∧ j ≤ 64 ∧ C.next^[i] C.head = C.next^[j] C.head ∧
  ∀ k < j, ¬ C.Wanted Arg4 (C.next^[k] C.head)

/-! ### Pointers -/

/-- The pointers without reserved bits. -/
def pointers : Finset (BitVec 8) := (Finset.range 64).image fun i => BitVec.ofNat 8 (4 * i)

theorem card_pointers : pointers.card = 64 := by decide +kernel

theorem mem_pointers {p : BitVec 8} : p ∈ pointers ↔ ∃ i < 64, BitVec.ofNat 8 (4 * i) = p := by
  simp only [pointers, Finset.mem_image, Finset.mem_range]

variable {C} {Arg4} {p : BitVec 8}

theorem pointer_mem {r : BitVec 8} : C.pointer r ∈ pointers := by
  have hmask : ∀ d : BitVec 8, BitVec.ofNat 8 (4 * (d.toNat / 4)) = d &&& 0xFC := by decide +kernel
  have hlt := (C.byte r).isLt
  exact mem_pointers.mpr ⟨(C.byte r).toNat / 4, by omega, hmask (C.byte r)⟩

/-- The byte after the pointer. -/
theorem setWidth_add_one (hp : p ∈ pointers) :
    p.setWidth 64 + (1 : Integer) = (p + 1).setWidth 64 := by
  -- a multiple of four is never the last byte, so nothing carries
  obtain ⟨i, hi, rfl⟩ := mem_pointers.mp hp
  apply BitVec.eq_of_toNat_eq
  have hone : (1 : BitVec 8).toNat = 1 ∧ (1 : Integer).toNat = 1 := ⟨rfl, rfl⟩
  simp only [BitVec.toNat_add, BitVec.toNat_setWidth, BitVec.toNat_ofNat, hone]
  omega

variable (C Arg4) in
theorem finds_or_circles : (∃ p, C.Finds Arg4 p) ∨ C.Circles Arg4 := by
  have hcases : (∃ k, StopsAt C.next (C.Wanted Arg4) C.head k) ∨
      Endless C.next (C.Wanted Arg4) C.head := stopsAt_or_endless
  -- a path through the 64 pointers that is longer than that meets one of them twice
  rcases hcases with ⟨k, hk⟩ | h
  · have hlt := hk.lt_card (fun _ _ => pointer_mem) pointer_mem
    rw [card_pointers] at hlt
    exact .inl ⟨_, k, hlt, hk, rfl⟩
  · obtain ⟨i, j, hij, hj, hback, hgo⟩ :=
      (endless_iff_recurs (t := pointers) (fun _ _ => pointer_mem) pointer_mem).mp h
    rw [card_pointers] at hj
    exact .inr ⟨i, j, hij, hj, hback, hgo⟩

theorem Circles.endless (h : C.Circles Arg4) : Endless C.next (C.Wanted Arg4) C.head := by
  obtain ⟨i, j, hij, hj, hback, hgo⟩ := h
  refine (endless_iff_recurs (t := pointers) (fun _ _ => pointer_mem) pointer_mem).mpr ?_
  rw [card_pointers]
  exact ⟨i, j, hij, hj, hback, hgo⟩

theorem Finds.unique {q : BitVec 8} (h : C.Finds Arg4 p) (h' : C.Finds Arg4 q) : p = q := by
  obtain ⟨k, -, hk, rfl⟩ := h
  obtain ⟨k', -, hk', rfl⟩ := h'
  rw [hk.unique hk']

theorem Finds.not_circles (h : C.Finds Arg4 p) : ¬ C.Circles Arg4 := by
  obtain ⟨k, -, hk, -⟩ := h
  exact fun hcircles => hk.not_endless hcircles.endless

end ConfigSpace

/-! ### The search -/

section Search

variable (C : ConfigSpace env.hw Arg0 Arg1 Arg2 Arg3) {E : World dsdt σ → Prop} {u : Unit}

/-- A read of the configuration space, of which nothing is seen. -/
theorem acts_read {f : Field} {v : Integer} (h : ∀ s, env.hw.reads f s = v) :
    Acts env E (fun _ => ()) u (load f) fun b y => b = v ∧ y = u :=
  acts_load fun s _ => ⟨h s, rfl⟩

theorem acts_PERB (r : BitVec 8) :
    Acts env E (fun _ => ()) u (PERB Arg0 Arg1 Arg2 Arg3 (r.setWidth 64)) fun b y =>
      b = (C.byte r).setWidth 64 ∧ y = u :=
  acts_serialized (acts_read (C.reads_byte r))

theorem acts_PERW (r : BitVec 8) :
    Acts env E (fun _ => ()) u (PERW Arg0 Arg1 Arg2 Arg3 (r.setWidth 64)) fun b y =>
      b = (C.byte (r + 1) ++ C.byte r).setWidth 64 ∧ y = u :=
  acts_serialized (acts_read (C.reads_word r))

/-- One step of the search. -/
def STDC.pass (Arg0 Arg1 Arg2 Arg3 Arg4 Local2 : Integer) :
    Method σ (Prog.Flow Integer Integer) := do
  let Local2 := Local2 &&& 0xFC
  if Local2 = 0 then
    pure (.leave 0)
  else if Arg4 = (← PERB Arg0 Arg1 Arg2 Arg3 Local2) then
    pure (.leave Local2)
  else
    pure (.next (← PERB Arg0 Arg1 Arg2 Arg3 (Local2 + 1)))

theorem walks_STDC : Walks env (fun _ => ()) u (STDC.pass Arg0 Arg1 Arg2 Arg3 Arg4) C.next
    (C.Wanted Arg4) (fun p b => ∃ r, p = C.pointer r ∧ b = (C.byte r).setWidth 64)
    (fun p => p.setWidth 64) := by
  rintro _ _ ⟨r, rfl, rfl⟩
  have hmask : (C.byte r).setWidth 64 &&& (0xFC : Integer) = (C.pointer r).setWidth 64 := by
    rw [show (0xFC : Integer) = (0xFC : BitVec 8).setWidth 64 from rfl, ← BitVec.setWidth_and]
    rfl
  have hzero {p : BitVec 8} : p.setWidth 64 = (0 : Integer) ↔ p = 0 :=
    BitVec.setWidth_inj_of_le (u := 0) (by decide)
  unfold STDC.pass
  rw [hmask]
  refine acts_ite (fun h0 => ?_) fun h0 => ?_
  · -- the end of the list
    have hend := hzero.mp h0
    rw [hend]
    exact acts_pure ⟨rfl, .inl ⟨.inl rfl, rfl⟩⟩
  · refine acts_then (acts_PERB C (C.pointer r)) (acts_ite (fun hid => ?_) fun hid => ?_)
    · exact acts_pure ⟨rfl, .inl ⟨.inr hid.symm, rfl⟩⟩
    · -- another capability
      have hgo : ¬ C.Wanted Arg4 (C.pointer r) := by
        rintro (hend | hfound)
        · exact h0 (hzero.mpr hend)
        · exact hid hfound.symm
      rw [ConfigSpace.setWidth_add_one ConfigSpace.pointer_mem]
      refine acts_then (acts_PERB C (C.pointer r + 1)) ?_
      exact acts_pure ⟨rfl, .inr ⟨hgo, _, ⟨_, rfl, rfl⟩, rfl⟩⟩

/-- Up to the search. -/
theorem acts_STDC {Q : Integer → Unit → Prop} (hnot : ¬ C.Lists → Q 0 u)
    (hlist : C.Lists → Acts env E (fun _ => ()) u (whileLoop .STDC (fun _ => pure true)
        (STDC.pass Arg0 Arg1 Arg2 Arg3 Arg4) id ((C.byte 0x34).setWidth 64)) Q) :
    Acts env E (fun _ => ()) u (STDC Arg0 Arg1 Arg2 Arg3 Arg4) Q := by
  have hword {d : BitVec 16} : d.setWidth 64 = (0xFFFF : Integer) ↔ d = 0xFFFF#16 :=
    BitVec.setWidth_inj_of_le (u := 0xFFFF#16) (by decide)
  have hbit {d e : BitVec 8} :
      (d ++ e).setWidth 64 &&& (0x10 : Integer) = 0 ↔ e.getLsbD 4 = false := by
    have hget : ((d ++ e).setWidth 64).getLsbD 4 = e.getLsbD 4 := by
      rw [BitVec.getLsbD_setWidth, BitVec.getLsbD_append]
      rfl
    rw [show (0x10 : Integer) = BitVec.twoPow 64 4 from rfl, BitVec.and_twoPow, hget]
    cases e.getLsbD 4 <;> decide
  refine acts_serialized (acts_then (acts_PERW C 0) (acts_ite (fun h => ?_) fun h => ?_))
  · -- there is no such function
    refine acts_pure (hnot fun hlists => hlists.1 ?_)
    exact hword.mp h
  refine acts_then (acts_PERW C 0x06) (acts_ite (fun h' => ?_) fun h' => ?_)
  · -- it has no list of capabilities
    refine acts_pure (hnot fun hlists => ?_)
    rw [hbit, hlists.2] at h'
    exact absurd h' (by decide)
  refine acts_then (acts_PERB C 0x34) (hlist ⟨fun hones => h (hword.mpr hones), ?_⟩)
  rw [hbit] at h'
  exact Bool.eq_true_of_not_eq_false h'

end Search

/-! ### The theorem -/

section Exact

variable (C : ConfigSpace env.hw Arg0 Arg1 Arg2 Arg3) {s : State dsdt σ}

theorem at_head : ∃ r, C.head = C.pointer r ∧
    (C.byte 0x34).setWidth 64 = ((C.byte r).setWidth 64 : Integer) := ⟨0x34, rfl, rfl⟩

/-- Without a list nothing is found. -/
theorem STDC_of_not_lists (h : ¬ C.Lists) :
    (STDC Arg0 Arg1 Arg2 Arg3 Arg4 env s.world).1 = some 0 := by
  have hacts : Acts env (fun _ => False) (fun _ => ()) () (STDC Arg0 Arg1 Arg2 Arg3 Arg4)
      fun r _ => r = 0 := acts_STDC C (fun _ => rfl) fun hlists => absurd hlists h
  obtain ⟨r, w, hrun, rfl⟩ := hacts.run (s := s) rfl
  rw [hrun]

theorem STDC_of_finds {p : BitVec 8} (hfuel : 64 ≤ env.fuel) (h : C.Lists) (hp : C.Finds Arg4 p) :
    (STDC Arg0 Arg1 Arg2 Arg3 Arg4 env s.world).1 = some (p.setWidth 64) := by
  obtain ⟨k, hk, hstops, rfl⟩ := hp
  have hacts : Acts env (fun _ => False) (fun _ => ()) () (STDC Arg0 Arg1 Arg2 Arg3 Arg4)
      fun r _ => r = (C.next^[k] C.head).setWidth 64 :=
    acts_STDC C (fun hnot => absurd h hnot) fun _ =>
      (acts_walk (walks_STDC C) hstops (by omega) (at_head C)).imp fun _ _ hr => hr.1
  obtain ⟨r, w, hrun, rfl⟩ := hacts.run (s := s) rfl
  rw [hrun]

theorem STDC_of_circles (h : C.Lists) (hcircles : C.Circles Arg4) :
    (STDC Arg0 Arg1 Arg2 Arg3 Arg4 env s.world).1 = none := by
  have hacts : Acts env (fun _ => True) (fun _ => ()) () (STDC Arg0 Arg1 Arg2 Arg3 Arg4)
      fun _ _ => False :=
    acts_STDC C (fun hnot => absurd h hnot) fun _ =>
      acts_endless (walks_STDC C) hcircles.endless (at_head C)
  cases hrun : STDC Arg0 Arg1 Arg2 Arg3 Arg4 env s.world with
  | mk r w =>
    cases r with
    | some r => exact (wp_of_run hrun (hacts s.world rfl)).elim
    | none => rfl

/-- **What the search finds**, in the list of a function that stays as it is: the first capability
that is wanted; nothing, when there is no list or it ends before; and when the list comes back to
itself before, the search does not end. -/
theorem STDC_exact (Arg4 : Integer) (hfuel : 64 ≤ env.fuel) (s : State dsdt σ) :
    (∀ p : BitVec 8, p ≠ 0 →
      ((STDC Arg0 Arg1 Arg2 Arg3 Arg4 env s.world).1 = some (p.setWidth 64) ↔
        C.Lists ∧ C.Finds Arg4 p)) ∧
    ((STDC Arg0 Arg1 Arg2 Arg3 Arg4 env s.world).1 = some 0 ↔ ¬ C.Lists ∨ C.Finds Arg4 0) ∧
    ((STDC Arg0 Arg1 Arg2 Arg3 Arg4 env s.world).1 = none ↔ C.Lists ∧ C.Circles Arg4) := by
  have hinj {p q : BitVec 8} : some (p.setWidth 64 : Integer) = some (q.setWidth 64) ↔ p = q :=
    Option.some_inj.trans (BitVec.setWidth_inj_of_le (by decide))
  have hzero : (0 : Integer) = (0 : BitVec 8).setWidth 64 := rfl
  have hfinds (h : C.Lists) {p q : BitVec 8} (hp : C.Finds Arg4 p) :
      (STDC Arg0 Arg1 Arg2 Arg3 Arg4 env s.world).1 = some (q.setWidth 64) ↔ C.Finds Arg4 q := by
    rw [STDC_of_finds C hfuel h hp, hinj]
    constructor
    · rintro rfl
      exact hp
    · exact hp.unique
  by_cases h : C.Lists
  · rcases C.finds_or_circles Arg4 with ⟨p, hp⟩ | hcircles
    · refine ⟨fun q _ => ?_, ?_, ?_⟩
      · rw [hfinds h hp, and_iff_right h]
      · rw [or_iff_right (not_not_intro h), hzero, hfinds h hp]
      · rw [STDC_of_finds C hfuel h hp]
        exact iff_of_false (Option.some_ne_none _) fun hcircles => hp.not_circles hcircles.2
    · have hnone : (STDC Arg0 Arg1 Arg2 Arg3 Arg4 env s.world).1 = none :=
        STDC_of_circles C h hcircles
      have hnot (q : BitVec 8) : ¬ C.Finds Arg4 q := fun hq => hq.not_circles hcircles
      rw [hnone]
      refine ⟨fun q _ => iff_of_false (Option.some_ne_none _).symm fun hq => hnot q hq.2, ?_, ?_⟩
      · exact iff_of_false (Option.some_ne_none _).symm (not_or_intro (not_not_intro h) (hnot 0))
      · exact iff_of_true rfl ⟨h, hcircles⟩
  · rw [STDC_of_not_lists C h]
    refine ⟨fun q hq => iff_of_false ?_ fun hlists => h hlists.1, ?_, ?_⟩
    · rw [hzero, hinj]
      exact fun h0 => hq h0.symm
    · exact iff_of_true rfl (.inl h)
    · exact iff_of_false (Option.some_ne_none _) fun hlists => h hlists.1

end Exact

/-- A function with two capabilities, the second one pointing back to the first. -/
def circle (r : BitVec 8) : BitVec 8 :=
  if r = 0 then 0x86 else if r = 0x06 then 0x10 else if r = 0x34 then 0x40
  else if r = 0x40 then 0x01 else if r = 0x41 then 0x48
  else if r = 0x48 then 0x10 else if r = 0x49 then 0x40 else 0

def circleHardware : Hardware dsdt Unit where
  load f s := (match f with
    | .TEMP .PERB a => circle (a.setWidth 8)
    | .TEMP .PERW a => circle (a.setWidth 8 + 1) ++ circle (a.setWidth 8)
    | _ => 0, s)
  store _ _ s := s
  sleep _ s := s
  stall _ s := s
  timer s := (0, s)

def circleSpace : ConfigSpace circleHardware 0 0 0 0 where
  byte := circle
  reads_byte r s := by
    have haddress : (PERB.address 0 0 0 0 (r.setWidth 64)).setWidth 8 = r := by
      simp [PERB.address]
    show (circle _).setWidth 64 = _
    rw [haddress]
  reads_word r s := by
    have haddress : (PERB.address 0 0 0 0 (r.setWidth 64)).setWidth 8 = r := by
      simp [PERB.address]
    show (circle _ ++ circle _ : BitVec 16).setWidth 64 = _
    rw [haddress]

/-- The first of the two is found, and a search for any other capability does not end. -/
theorem STDC_exact_circle :
    (STDC 0 0 0 0 0x01 ⟨circleHardware, 64⟩ (State.world ⟨fun _ => 0, ()⟩)).1 =
      some ((0x40 : BitVec 8).setWidth 64) ∧
    (STDC 0 0 0 0 0x05 ⟨circleHardware, 64⟩ (State.world ⟨fun _ => 0, ()⟩)).1 = none := by
  have hlists : circleSpace.Lists := by
    constructor <;> decide
  have hfinds : circleSpace.Finds 0x01 0x40 := by
    refine ⟨0, by decide, ⟨.inr ?_, fun j hj => absurd hj (Nat.not_lt_zero j)⟩, ?_⟩
    · decide
    · decide
  have hcircles : circleSpace.Circles 0x05 := by
    refine ⟨0, 2, by decide, by decide, ?_, ?_⟩
    · show circleSpace.head = circleSpace.next (circleSpace.next circleSpace.head)
      decide
    · show ∀ k < 2, ¬ circleSpace.Wanted 0x05 (circleSpace.next^[k] circleSpace.head)
      decide
  have hfuel : 64 ≤ (⟨circleHardware, 64⟩ : Env dsdt Unit).fuel := Nat.le_refl 64
  constructor
  · have h := STDC_exact circleSpace 0x01 hfuel ⟨fun _ => 0, ()⟩
    exact (h.1 0x40 (by decide)).mpr ⟨hlists, hfinds⟩
  · have h := STDC_exact circleSpace 0x05 hfuel ⟨fun _ => 0, ()⟩
    exact h.2.2.mpr ⟨hlists, hcircles⟩

end Dsdt
