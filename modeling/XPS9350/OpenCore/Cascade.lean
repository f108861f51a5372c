import XPS9350.OpenCore.Config

/-!
# The patches do not cascade

`patches_never_cascade`: whatever the table and whichever occurrences are replaced, no enabled patch
of `config.plist` finds a word that an earlier one put together, and no byte is altered twice.
-/

namespace OpenCore

open Bytes

/-- No replacement of an enabled patch overlaps the word of a later one in a byte it alters. -/
theorem enabled_clear : ClearInOrder enabled := by decide +kernel

/-- **The enabled patches never cascade**: applied in file order, each to any of the occurrences
that a scan from left to right finds, every one of them finds its word only where the original table
has it, and every byte is altered by at most one of them. -/
theorem patches_never_cascade (keep : ℕ → ℕ → Bool) (t : List UInt8) :
    (∀ j (hj : j < enabled.length) p,
      OccursAt enabled[j].find (after enabled keep t j) p → OccursAt enabled[j].find t p) ∧
      ∀ k i j, Alters enabled keep t i k → Alters enabled keep t j k → i = j := by
  refine ⟨fun j hj p h => ?_, fun k i j => altered_once enabled_clear⟩
  exact not_cascade enabled_clear (List.getElem?_eq_getElem hj) (Nat.le_refl j) h

-- the order matters: with `SBTN` to `SLPB` first, `SBTNTN` becomes `SLPBTN`, which has a `PBTN`
example : ¬ ClearInOrder [enabled[13], enabled[12]] := by decide +kernel

end OpenCore
