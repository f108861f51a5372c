import XPS9350.Aml.Effects
import XPS9350.Aml.Registers

/-!
# Latches

A `Latch` of a field unit says that the unit keeps the last value written to it, whatever the rest
of the hardware does.  `Latch.value_path`: along a path without stores to it, it keeps its value.
-/

namespace Aml

variable {S : Signature} {σ : Type} {hw : Hardware S σ} {f : S.Field}

/-- The field unit `f` of the hardware keeps the last value written to it. -/
structure Latch (hw : Hardware S σ) (f : S.Field) where
  value : σ → BitVec (S.width f)
  reads : ∀ s, (hw.load f s).1 = value s
  load : ∀ g s, value (hw.load g s).2 = value s
  store : ∀ v s, value (hw.store f v s) = v
  store_ne : ∀ g v s, g ≠ f → value (hw.store g v s) = value s
  sleep : ∀ ms s, value (hw.sleep ms s) = value s
  stall : ∀ us s, value (hw.stall us s) = value s
  timer : ∀ s, value (hw.timer s).2 = value s

/-- Every field unit of `registers S` is one. -/
def registersLatch (S : Signature) (f : S.Field) : Latch (registers S) f where
  value s := s.regs f
  reads _ := rfl
  load _ _ := rfl
  store _ _ := Function.update_self ..
  store_ne _ _ _ h := Function.update_of_ne (Ne.symm h) ..
  sleep _ _ := rfl
  stall _ _ := rfl
  timer _ := rfl

namespace Latch

variable (L : Latch hw f) {w w' : World S σ} {v : Integer}

theorem value_store (s : State S σ) :
    L.value (hw.after s (.store f v)).hw = v.setWidth (S.width f) := L.store _ s.hw

/-- Only a store to it changes the value. -/
theorem value_after (s : State S σ) {e : Event S} (he : ∀ u, e ≠ .store f u) :
    L.value (hw.after s e).hw = L.value s.hw := by
  cases e with
  | load g u => exact L.load g s.hw
  | store g u =>
    apply L.store_ne
    rintro rfl
    exact he u rfl
  | sleep ms => exact L.sleep ms s.hw
  | stall us => exact L.stall us s.hw
  | timer t => exact L.timer s.hw
  | _ => rfl

/-- What is read is the value. -/
theorem reads_eq (s : State S σ) : hw.reads f s = (L.value s.hw).setWidth 64 := by
  rw [Hardware.reads, L.reads]

end Latch

end Aml
