import XPS9350.Dsdt.Gexp
import XPS9350.Dsdt.Gpio

/-!
# The hot plug handler

`_GPE._E42`, which the GPIO event of the Thunderbolt controller starts, and what it calls.  It waits
until the machine has woken up (`WWAK`) and the root port has a bus (`WSUB`), gets the controller
going (`RSMI`, `DMSI`, `PGWA`), and under the mutex `OSUM` asks the firmware of the controller
whether the device is there (`TBFF`, `OSUP`) before it notifies the system (`NTFY`).  `TINI` makes
the same handshake when the system starts or wakes up.

Output to `ADBG` is left out.  `_E42` ends by calling itself in one case; here that is one more pass
of the loop `_E42`.
-/

namespace Dsdt

open Aml Aml.Prog

variable {σ : Type} (GPCB : Integer)

/-! ### The mailbox -/

/-- Send the command `0x0D` to the device at `Arg0`: two when the device is gone, one otherwise. -/
def OSUP (Arg0 : Integer) : Method σ Integer :=
  call (.OSUP Arg0) do
    serialized .OSUP do
      let Local0 := Arg0 + 0x0548
      store (.P2TB .OSUP Local0) 0x0D
      let Return ← whileLoop .OSUP (fun Local1 => pure (decide (0 < Local1)))
        (fun Local1 => do
          let Local2 ← load (.TB2P .OSUP Local0)
          if Local2 = 0xFFFFFFFF then
            pure (.leave (some 2))
          else if Local2 &&& 1 ≠ 0 then
            pure (.leave none)
          else
            sleep 0x32
            pure (.next (Local1 - 1)))
        (fun _ => none) (0x64 : Integer)
      match Return with
      | some v => pure v
      | none =>
        store (.P2TB .OSUP Local0) 0
        pure 1

/-- Whether the upstream port is there; if not, the result of the handshake with it. -/
def TBFF : Method σ Integer :=
  call .TBFF do
    serialized .TBFF do
      let Local0 ← MMTB GPCB
      if (← load (.VEDI Local0)) = 0xFFFFFFFF then OSUP Local0 else pure 0

/-- Give the root port the bus `0xF0` for the time of a handshake. -/
def TINI : Method σ Unit :=
  call .TINI do
    let Local0 ← MMRP GPCB
    let Local1 ← load (.REG6 (Local0 + 0x18))
    store (.REG6 (Local0 + 0x18)) 0x00F0F000
    let Local2 ← MMTB GPCB
    let _ ← OSUP Local2
    store (.REG6 (Local0 + 0x18)) Local1

/-! ### Waiting -/

/-- Wait until the machine has woken up, and let the next one through. -/
def WWAK : Method σ Unit := do
  Wait
  Signal

/-- Wait until the root port has a secondary bus. -/
def WSUB : Method σ Unit :=
  whileLoop .WSUB (fun _ => pure true)
    (fun Local0 => do
      let Local1 ← TSUB GPCB
      if Local1 ≠ 0 then
        pure (.leave ())
      else
        let Local0 := Local0 + 1
        if 0x03E8 < Local0 then sleep 0x03E8 else sleep 0x10
        pure (.next Local0))
    (fun _ => ()) (0 : Integer)

/-- Bring a port of the processor into a state in which its link is up. -/
def PGWA : Method σ Unit :=
  serialized .PGWA do
    if 0x15 ≤ (← load .TBSE) then
      let Local0 ← MMRP GPCB
      if (← load (.PWRS (Local0 + 0x84))) ≠ 0 then
        store (.PWRS (Local0 + 0x84)) 0
        store .POWS 0
        sleep 0x10
      if (← load (.LNKD (Local0 + 0xB0))) ≠ 0 then
        store (.LNKD (Local0 + 0xB0)) 0
        store (.TREN (Local0 + 0x508)) 1
        whileLoop .PGWA (fun Local6 => pure (decide (Local6 < 0x64)))
          (fun Local6 => do
            if (← load (.VCNP (Local0 + 0x11A))) = 0 then
              pure (.leave ())
            else
              sleep 0x10
              pure (.next (Local6 + 0x10)))
          (fun _ => ()) (0 : Integer)

/-! ### Force power -/

/-- Set the output of a pad of the chipset or of the expander. -/
def CGWR (Arg0 Arg1 Arg2 Arg3 : Integer) : Method σ Unit :=
  serialized .CGWR do
    if Arg0 = 0 then SGOV Arg2 Arg3
    else if Arg0 = 1 then GEXP.SGEP Arg1 Arg2 Arg3
    else pure ()

/-- The output of such a pad, or its input when `Arg3` is one. -/
def CGRD (Arg0 Arg1 Arg2 Arg3 : Integer) : Method σ Integer :=
  serialized .CGRD do
    if Arg0 = 0 then
      if Arg3 = 0 then GGOV Arg2
      else if Arg3 = 1 then GGIV Arg2
      else halt
    else if Arg0 = 1 then GEXP.GEPS Arg1 Arg2
    else halt

/-- Whether the controller is kept powered. -/
def TFPS : Method σ Integer := do
  CGRD (← load .FPAT) (← load .FPEN) (← load .FPGN) 0

/-- Keep the controller powered, or leave its power to itself. -/
def TBFP (Arg0 : Integer) : Method σ Unit :=
  call (.TBFP Arg0) do
    if Arg0 ≠ 0 then
      CGWR (← load .FPAT) (← load .FPEN) (← load .FPGN) (← load .FPLV)
    else
      CGWR (← load .FPAT) (← load .FPEN) (← load .FPGN) (truth (decide ((← load .FPLV) = 0)))

/-! ### The event bit -/

/-- The byte and bit of the register at `CPAD` that `CPAB` counts to, as `CNCT` and `CLNE` find
them. -/
def eventBit (l : Loop) : Method σ (Integer × Integer) := do
  let Local7 ← load .CPAD
  let Local6 ← load .CPAB
  whileLoop l (fun x => pure (decide (0x08 < x.2)))
    (fun (Local7, Local6) => pure (.next (Local7 + 1, Local6 - 0x08)))
    id (Local7, Local6)

/-- Whether the event of the controller is pending. -/
def CNCT : Method σ Integer := do
  let (Local7, Local6) ← eventBit .CNCT
  pure (((← load (.TEMP .CNCT Local7)) >>> Local6) &&& 1)

/-- Clear the event of the controller. -/
def CLNE : Method σ Unit := do
  let (Local7, Local6) ← eventBit .CLNE
  store (.TEMP .CLNE Local7) ((← load (.TEMP .CLNE Local7)) ||| (1 : Integer) <<< Local6)

/-- Switch the message signaled interrupts of the root port off. -/
def DRPM : Method σ Unit := do
  let Local7 ← STDC GPCB 0 (← TBTD (← load .TBSE)) (← TBTF (← load .TBSE)) 0x05
  let Local6 ← MMRP GPCB
  store (.MSIC (Local7 + Local6)) 0

/-! ### Switching modes -/

/-- Let the firmware of the controller switch its mode; one when it did. -/
def DMSI : Method σ Integer := do
  let Local0 := (← MMTB GPCB) + 0x0548
  if (← load (.TB2P .DMSI Local0)) = 0x25 then
    store .TBSF 0x17
    store .SSMP 0xF7
    store (.P2TB .DMSI Local0) 0x25
    let Return ← whileLoop .DMSI (fun Local2 => pure (decide (0 < Local2)))
      (fun Local2 => do
        let Local1 ← load (.TB2P .DMSI Local0)
        if Local1 = 0xFFFFFFFF then
          pure (.leave (some 0))
        else if Local1 = 0x24 then
          pure (.leave none)
        else
          sleep 0x32
          pure (.next (Local2 - 1)))
      (fun _ => none) (0x64 : Integer)
    match Return with
    | some v => pure v
    | none =>
      store (.P2TB .DMSI Local0) 0
      pure 1
  else
    pure 0

/-- The toggle of the force power that `RSMI` makes, `on` being its state at the start. -/
def RSMI.force (on : Prop) [Decidable on] (a b : Integer) : Method σ Unit :=
  if on then TBFP a else TBFP b

/-- Restart a controller that does not answer although its event is pending: toggle its power until
it is back and quiet, for at most `0x1A` rounds. -/
def RSMI : Method σ Integer := do
  let Local0 ← TFPS
  let Local1 ← MMTB GPCB
  if (← load (.TB2P .RSMI (Local1 + 0x548))) ≠ 0xFFFFFFFF then
    pure 1
  else if (← CNCT) = 0 then
    pure 0x02
  else
    DRPM GPCB
    RSMI.force (Local0 ≠ 0) 0 1
    whileLoop .RSMI
      (fun _ => do
        let Local4 ← FFTB GPCB
        let Local5 ← CNCT
        pure (decide (Local4 ≠ 0 ∨ Local5 ≠ 0)))
      (fun Local3 => do
        sleep 0x05
        CLNE
        let Local3 := Local3 + 1
        if 0x14 < Local3 then
          sleep 0x03E8
        if 0x19 < Local3 then
          pure (.leave ())
        else
          pure (.next Local3))
      (fun _ => ()) (0 : Integer)
    RSMI.force (Local0 ≠ 0) 1 0
    pure 0

/-- Whether a general purpose event calls for no hot plug: one when there is none. -/
def GNIS : Method σ Integer := do
  if (← load .GP5F) = 0 then
    pure 0
  else
    let Local0 := (← MMTB GPCB) + 0x0544
    if (← load (.TB2P .GNIS (Local0 + 0x04))) = 0xFFFFFFFF then
      pure 0
    else if (← load (.HPFI Local0)) = 1 then
      store (.HPFI Local0) 0
      pure 0
    else
      pure 1

/-! ### The handler -/

/-- The `Switch` of `NTFY`. -/
def NTFY.port (TBSE : Integer) : Method σ Unit :=
  if 0x01 ≤ TBSE ∧ TBSE ≤ 0x14 then Notify (.RP TBSE) 0
  else if 0x15 ≤ TBSE ∧ TBSE ≤ 0x17 then Notify (.PEG (TBSE - 0x15)) 0
  else pure ()

/-- Notify the port `TBSE` of a bus check. -/
def NTFY : Method σ Unit :=
  call .NTFY do
    serialized .NTFY do
      if (← load .NOHP) = 1 then
        NTFY.port (← load .TBSE)

namespace _E42

/-- What `_E42` does first when the controller is in native mode; true when that is all. -/
def native : Method σ Bool := do
  if (← load .TNAT) = 1 then
    if (← RSMI GPCB) = 0 then
      pure true
    else
      pure (decide ((← DMSI GPCB) ≠ 0))
  else
    pure false

/-- Whether `_E42` calls itself after the firmware has acknowledged the command. -/
def again : Method σ Bool := do
  let DPTF ← load .DPTF
  let DDDR ← load .DDDR
  if DPTF = 1 ∧ DDDR = 1 then
    let OSYS ← load .OSYS
    pure (decide (¬ (OSYS = 0x07DD ∧ (← get ._REV) = 0x05)))
  else
    pure false

/-- The end of `_E42`, with `OSUM` acquired. -/
def handle : Method σ (Prog.Flow Unit Unit) := do
  let Local1 ← TBFF GPCB
  if Local1 = 1 then
    sleep 0x10
    Release .OSUM
    if ← again then pure (.next ()) else pure (.leave ())
  else if Local1 = 0x02 then
    NTFY
    sleep 0x10
    Release .OSUM
    P8XH 0 0x7D
    pure (.leave ())
  else
    if (← load .SOHP) = 1 then
      store .SSMP (← get .TBSW)
    NTFY
    sleep 0x10
    Release .OSUM
    pure (.leave ())

/-- `_E42` up to the point where it ends or calls itself. -/
def pass : Method σ (Prog.Flow Unit Unit) := do
  if (← load .CF2T) = 1 then
    CAGS (← load .CPGN)
  WWAK
  WSUB GPCB
  if ← native GPCB then
    pure (.leave ())
  else if (← GNIS GPCB) ≠ 0 then
    pure (.leave ())
  else
    PGWA GPCB
    Acquire .OSUM
    handle GPCB

end _E42

/-- The handler of the general purpose event `0x42`. -/
def _E42 : Method σ Unit :=
  whileLoop ._E42 (fun _ => pure true) (fun _ => _E42.pass GPCB) id ()

/-- The handler, called for a GPIO event. -/
def THDR : Method σ Unit := serialized .THDR (_E42 GPCB)

/-! ### The shared event -/

/-- Wake the processor port `n` if the event of its pad was noted.  `ISME` takes one argument; what
the listing shows as two more of them is the body of the `If`. -/
def wakePort (n : Integer) (WK : Field) : Method σ Unit := do
  if (← ISME (← load WK)) ≠ 0 then
    SHPO (← load WK) 1
    Notify (.PEG n) 0x02

def P0L6 : Method σ Unit := wakePort 0 .P0WK
def P1L6 : Method σ Unit := wakePort 1 .P1WK
def P2L6 : Method σ Unit := wakePort 2 .P2WK

/-- What `_L6F` does about a processor port. -/
def _L6F.port (GP WK : Field) (L6 : Method σ Unit) : Method σ Unit := do
  if (← load GP) = 1 then
    L6
    CAGS (← load WK)

/-- The same for all of them. -/
def _L6F.ports : Method σ Unit := do
  _L6F.port .SGGP .P0WK P0L6
  _L6F.port .P1GP .P1WK P1L6
  _L6F.port .P2GP .P2WK P2L6

/-- The handler of the event that the GPIO pads share. -/
def _L6F : Method σ Unit := do
  UGPS
  -- no table has the method `AL6F` that would be called if this is one
  let _ ← load .RTD3
  _L6F.ports
  if (← load .TBTS) = 1 then
    if (← ISME (← load .CPGN)) ≠ 0 then
      THDR GPCB
  CGLS

end Dsdt
