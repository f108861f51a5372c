import XPS9350.TB3.Table

/-!
# Methods of the DSDT

`_GPE.OSUP`, the firmware's own use of the mailbox between PCIe and Thunderbolt.  Its debug output
is left out.
-/

namespace TB3

open Aml Aml.Prog

variable {σ : Type}

/-- Send the command `0x0D`: two when the device is gone, one otherwise.  The region `PXVD` with
`TB2P` and `P2TB` lies at `Arg0 + 0x0548`, where `UPSM` has `T2PR` and `P2TR`. -/
def OSUP (Arg0 : Integer) : Method σ Integer :=
  call (.OSUP Arg0) do
    store .P2TB 0x0D
    let Return ← whileLoop .OSUP (fun Local1 => pure (decide (0 < Local1)))
      (fun Local1 => do
        let Local2 ← load .TB2P
        if Local2 = 0xFFFFFFFF then
          pure (.leave (some 2))
        else if Local2 &&& 1 ≠ 0 then
          pure (.leave none)
        else
          sleep 0x32
          pure (.next (Local1 - 1)))
      (fun _ => none) (0x64 : Integer)
    match Return with
    | some v => pure v
    | none =>
      store .P2TB 0
      pure 1

end TB3
