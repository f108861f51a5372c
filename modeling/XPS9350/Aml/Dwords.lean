import XPS9350.Aml.BitField
import XPS9350.Aml.Hardware

/-!
# Field units in dwords

A region that is declared with `DWordAcc` and `Preserve` is read and written 32 bits at a time: a
store to a field unit reads the dword, replaces the bits of the unit and writes the dword back,
and only a unit that is the whole dword is written without a read.  `Hardware.withDwords` puts
field units into the dwords of a `Device`, which sees only whole dwords.
-/

namespace Aml

variable {S : Signature} {σ R : Type}

/-- Registers of 32 bits. -/
structure Device (R σ : Type) where
  read : R → σ → BitVec 32 × σ
  write : R → BitVec 32 → σ → σ

/-- The state in which the write of a store to `len` bits of the dword `r` reaches the device:
after the read, if the store needs one. -/
def Device.reached (dev : Device R σ) (r : R) (len : ℕ) (s : σ) : σ :=
  if len = 32 then s else (dev.read r s).2

/-- `hw`, except that the field units of `place` lie in dwords of `dev`, from the given bit on. -/
def Hardware.withDwords (hw : Hardware S σ) (place : S.Field → Option (R × ℕ)) (dev : Device R σ) :
    Hardware S σ where
  load f s :=
    match place f with
    | some (r, lsb) => ((dev.read r s).1.extractLsb' lsb (S.width f), (dev.read r s).2)
    | none => hw.load f s
  store f v s :=
    match place f with
    -- nothing of the old dword is left where the unit is the whole dword
    | some (r, lsb) =>
      dev.write r (v.insertAt lsb (dev.read r s).1) (dev.reached r (S.width f) s)
    | none => hw.store f v s
  sleep := hw.sleep
  stall := hw.stall
  timer := hw.timer

/-- The state in which the write of a store to `f` reaches the device. -/
def Device.halfway (dev : Device R σ) (place : S.Field → Option (R × ℕ)) (f : S.Field) (s : σ) : σ :=
  match place f with
  | some (r, _) => dev.reached r (S.width f) s
  | none => s

/-- The field units lie inside their dwords, and two of them share no bit. -/
structure Layout (place : S.Field → Option (R × ℕ)) : Prop where
  fits : ∀ f r lsb, place f = some (r, lsb) → lsb + S.width f ≤ 32
  apart : ∀ f g r lsb lsb', f ≠ g → place f = some (r, lsb) → place g = some (r, lsb') →
    lsb + S.width f ≤ lsb' ∨ lsb' + S.width g ≤ lsb

/-- The value that an event writes to the dword `r`. -/
def Device.written [DecidableEq R] (dev : Device R σ) (place : S.Field → Option (R × ℕ)) (r : R)
    (x : Entry S σ) : Option (BitVec 32) :=
  match x.event with
  | .store f v =>
    match place f with
    | some (r', lsb) =>
      if r' = r then some ((v.setWidth (S.width f)).insertAt lsb (dev.read r x.before.hw).1)
      else none
    | none => none
  | _ => none

section

variable {hw : Hardware S σ} {place : S.Field → Option (R × ℕ)} {dev : Device R σ} {f : S.Field}
  {r : R} {lsb : ℕ}

theorem withDwords_load (h : place f = some (r, lsb)) (s : σ) :
    (hw.withDwords place dev).load f s =
      ((dev.read r s).1.extractLsb' lsb (S.width f), (dev.read r s).2) := by
  simp only [Hardware.withDwords, h]

theorem withDwords_store (h : place f = some (r, lsb)) (v : BitVec (S.width f)) (s : σ) :
    (hw.withDwords place dev).store f v s =
      dev.write r (v.insertAt lsb (dev.read r s).1) (dev.reached r (S.width f) s) := by
  simp only [Hardware.withDwords, h]

theorem withDwords_load_none (h : place f = none) (s : σ) :
    (hw.withDwords place dev).load f s = hw.load f s := by
  simp only [Hardware.withDwords, h]

theorem withDwords_store_none (h : place f = none) (v : BitVec (S.width f)) (s : σ) :
    (hw.withDwords place dev).store f v s = hw.store f v s := by
  simp only [Hardware.withDwords, h]

theorem Device.halfway_some (h : place f = some (r, lsb)) (s : σ) :
    dev.halfway place f s = dev.reached r (S.width f) s := by
  simp only [Device.halfway, h]

/-- A read that changes nothing leaves the state to the write. -/
theorem Device.reached_eq {s : σ} {len : ℕ} (h : (dev.read r s).2 = s) :
    dev.reached r len s = s := by
  unfold Device.reached
  split_ifs
  · rfl
  · exact h

/-- What holds before a store, and is kept by a read, holds when the write arrives. -/
theorem Device.reached_of {I : σ → Prop} {s : σ} {len : ℕ} (h : I s)
    (hread : I s → I (dev.read r s).2) : I (dev.reached r len s) := by
  unfold Device.reached
  split_ifs
  · exact h
  · exact hread h

/-- The value on the log is the one that reaches the device. -/
theorem Device.written_store [DecidableEq R] (h : place f = some (r, lsb)) (v : Integer)
    (s : State S σ) :
    dev.written place r ⟨s, .store f v⟩ =
      some ((v.setWidth (S.width f)).insertAt lsb (dev.read r s.hw).1) := by
  simp only [Device.written, h, ↓reduceIte]

end

end Aml
