import XPS9350.Aml.Runs

/-!
# Hardware on which every write sticks

`registers S` is the hardware whose field units read back what was written last.  On it a program
is a function of the names and the registers: `Yields fuel m n r a n' r'` says that `m` takes the
names `n` and the registers `r` to `n'` and `r'` with the result `a`.
-/

namespace Aml

variable {S : Signature} {α β γ : Type}

/-- A value of every field unit, and the time. -/
structure Registers (S : Signature) where
  regs : (f : S.Field) → BitVec (S.width f)
  time : Nat

/-- Field units that read what was written last; only `Sleep` and `Stall` take time. -/
def registers (S : Signature) : Hardware S (Registers S) where
  load f s := (s.regs f, s)
  store f v s := { s with regs := Function.update s.regs f v }
  sleep ms s := { s with time := s.time + 10000 * ms.toNat }
  stall us s := { s with time := s.time + 10 * us.toNat }
  timer s := (BitVec.ofNat 64 s.time, s)

/-- The names and the registers. -/
def contents (s : State S (Registers S)) :
    (S.Name → Integer) × ((f : S.Field) → BitVec (S.width f)) := (s.names, s.hw.regs)

/-- `m` takes the names `n` and the registers `r` to `n'` and `r'` with the result `a`. -/
def Yields (fuel : Nat) (m : Prog S (Registers S) α) (n : S.Name → Integer)
    (r : (f : S.Field) → BitVec (S.width f)) (a : α) (n' : S.Name → Integer)
    (r' : (f : S.Field) → BitVec (S.width f)) : Prop :=
  Runs ⟨registers S, fuel⟩ contents m (n, r) a (n', r')

section Yields

variable {fuel : Nat} {m : Prog S (Registers S) α} {n n' n'' : S.Name → Integer}
  {r r' r'' : (f : S.Field) → BitVec (S.width f)} {a : α} {b : β}

/-- The world at the end. -/
theorem Yields.run (h : Yields fuel m n r a n' r') (c : Registers S) (hc : c.regs = r) :
    ∃ w', m ⟨registers S, fuel⟩ (State.world ⟨n, c⟩) = (some a, w') ∧ w'.names = n' ∧
      w'.hw.regs = r' := by
  obtain ⟨w', hr, hw'⟩ := h (State.world ⟨n, c⟩) (by rw [← hc]; rfl)
  exact ⟨w', hr, congrArg Prod.fst hw', congrArg Prod.snd hw'⟩

theorem yields_pure : Yields fuel (pure a) n r a n r := runs_pure

theorem yields_bind {f : α → Prog S (Registers S) β} (hm : Yields fuel m n r a n' r')
    (hf : Yields fuel (f a) n' r' b n'' r'') : Yields fuel (m >>= f) n r b n'' r'' :=
  runs_bind hm hf

theorem yields_get {x : S.Name} : Yields fuel (Prog.get x) n r (n x) n r :=
  runs_get fun _ hs => congrFun (congrArg Prod.fst hs) x

theorem yields_set {x : S.Name} {v : Integer} :
    Yields fuel (Prog.set x v) n r () (Function.update n x v) r := by
  refine runs_act fun s hs => ?_
  obtain ⟨rfl, rfl⟩ := Prod.mk.inj hs
  rfl

theorem yields_load {f : S.Field} : Yields fuel (Prog.load f) n r ((r f).setWidth 64) n r :=
  runs_load (fun _ hs => by obtain ⟨-, rfl⟩ := Prod.mk.inj hs; rfl) fun _ hs => hs

theorem yields_store {f : S.Field} {v : Integer} :
    Yields fuel (Prog.store f v) n r () n (Function.update r f (v.setWidth (S.width f))) := by
  refine runs_store fun s hs => ?_
  obtain ⟨rfl, rfl⟩ := Prod.mk.inj hs
  rfl

/-- A loop that is left in its first pass. -/
theorem yields_whileLoop {l : S.Loop} {cond : β → Prog S (Registers S) Bool}
    {body : β → Prog S (Registers S) (Prog.Flow β γ)} {done : β → γ} {c : γ} (hfuel : fuel ≠ 0)
    (hcond : Yields fuel (cond b) n r true n r)
    (hbody : Yields fuel (body b) n r (.leave c) n' r') :
    Yields fuel (Prog.whileLoop l cond body done b) n r c n' r' :=
  runs_whileLoop_leave (k := 0) (Nat.pos_of_ne_zero hfuel) (fun _ => b) (fun _ => (n, r))
    (fun _ _ => hcond) (fun _ hi => absurd hi (Nat.not_lt_zero _)) hbody

end Yields

/-! ### Lists of writes -/

/-- The registers after some writes. -/
def applyWrites (r : (f : S.Field) → BitVec (S.width f)) (ws : List (S.Field × Integer)) :
    (f : S.Field) → BitVec (S.width f) :=
  ws.foldl (fun r x => Function.update r x.1 (x.2.setWidth (S.width x.1))) r

section Writes

variable {r : (f : S.Field) → BitVec (S.width f)} {ws ws' : List (S.Field × Integer)}

@[simp] theorem applyWrites_nil : applyWrites r [] = r := rfl

@[simp] theorem applyWrites_cons {x : S.Field × Integer} :
    applyWrites r (x :: ws) = applyWrites (Function.update r x.1 (x.2.setWidth _)) ws := rfl

theorem applyWrites_append : applyWrites r (ws ++ ws') = applyWrites (applyWrites r ws) ws' :=
  List.foldl_append

theorem applyWrites_of_not_mem {f : S.Field} (h : f ∉ ws.map Prod.fst) :
    applyWrites r ws f = r f := by
  induction ws generalizing r with
  | nil => rfl
  | cons x ws ih =>
    rw [List.map_cons, List.mem_cons, not_or] at h
    rw [applyWrites_cons, ih h.2, Function.update_of_ne h.1]

/-- Without two writes to one field, each field holds what was written to it. -/
theorem applyWrites_of_mem {x : S.Field × Integer} (hws : (ws.map Prod.fst).Nodup) (hx : x ∈ ws) :
    applyWrites r ws x.1 = x.2.setWidth (S.width x.1) := by
  induction ws generalizing r with
  | nil => cases hx
  | cons y ws ih =>
    rw [List.map_cons, List.nodup_cons] at hws
    rw [applyWrites_cons]
    rcases List.mem_cons.mp hx with rfl | hx
    · rw [applyWrites_of_not_mem hws.1, Function.update_self]
    · exact ih hws.2 hx

end Writes

end Aml
