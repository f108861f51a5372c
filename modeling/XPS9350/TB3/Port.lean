import XPS9350.TB3.Mailbox

/-!
# The methods of the ports

`TBTC`, `UPCK`, `UTLK`, `CTBT` and `UGIO` of `RP01`, and the `POFF`/`PCEU`/`PCDA` methods that
`RP01`, `DSB0` and `DSB2` each declare.  A statement `If (Zero)` of the source is kept as
`if (0 : Integer) ≠ 0`.
-/

namespace TB3

open Aml Aml.Prog

variable {σ : Type}

/-- One second in units of the `Timer`. -/
def second : Integer := 0x00989680

/-! ### Waiting for a link -/

/-- The body of a link training wait of port `p`: leave when the port does not train and, if it
reports link activity, the link is active. -/
def trained (p : Port) : Method σ Bool := do
  if (← load (.LACR p)) = 0 then
    pure (decide ((← load (.LTRN p)) ≠ 1))
  else
    pure (decide ((← load (.LTRN p)) ≠ 1 ∧ (← load (.LACT p)) = 1))

/-- `While ((Timer <= deadline))` around a test every 10 ms; whether the loop was left by `Break`. -/
def waitUntil (l : Loop) (deadline : Integer) (test : Method σ Bool) : Method σ Bool :=
  whileLoop l (fun _ => do pure (decide ((← timer) ≤ deadline)))
    (fun _ => do
      if ← test then
        pure (.leave true)
      else
        sleep 0x0A
        pure (.next ()))
    (fun _ => false) ()

/-- The presence test of a device: its vendor and device id do not read as all ones. -/
def present (s : Scope) : Method σ Bool := do
  pure (decide ((← load (.AVND s)) ≠ 0xFFFFFFFF))

/-! ### The root port -/

namespace RP01

/-- Send the command `Arg0` through the PCIe to Thunderbolt mailbox.  The result is what an explicit
`Return` gives; `none` when the method ends without one. -/
def TBTC (Arg0 : Integer) : Method σ (Option Integer) := do
  store .P2TR Arg0
  let Local1 ← load .T2PR
  let Return ← whileLoop .TBTC (fun x => pure (decide (x.2 &&& 1 = 0)))
    (fun (Local0, Local1) => do
      if Local1 = 0xFFFFFFFF then
        pure (.leave (some 0))
      else if Local0 - 1 = 0 then
        pure (.leave none)
      else
        let Local1 ← load .T2PR
        sleep 0x32
        pure (.next (Local0 - 1, Local1)))
    (fun _ => none) ((0x64 : Integer), Local1)
  if Return = none then
    store .P2TR 0
  pure Return

/-- Whether the upstream port answers with Intel's vendor id. -/
def UPCK : Method σ Integer := do
  if (← load .UPVD) &&& 0xFFFF = 0x8086 then pure 1 else pure 0

/-- Power-cycle the link, at most five times; disabled by an `If (Zero)`. -/
def UTLK (_Arg0 Arg1 : Integer) : Method σ Unit := do
  if (0 : Integer) ≠ 0 then
    store (.PSTA .RP01) 0
    whileLoop .UTLK (fun _ => pure true)
      (fun Local0 => do
        if (← load .LDXX) = 1 then
          store .LDXX 0
        let Local2 := (← timer) + second
        let _ ← waitUntil .UTLKtrain Local2 (trained .RP01)
        sleep Arg1
        let Local1 ← waitUntil .UTLKpresent Local2 (present .UPSB)
        if Local1 then
          store .MABT 1
          pure (.leave ())
        else if Local0 = 0x04 then
          pure (.leave ())
        else
          sleep 0x03E8
          pure (.next (Local0 + 1)))
      (fun _ => ()) (0 : Integer)

/-- Disconnect the Thunderbolt controller from its power. -/
def CTBT : Method σ Unit := do
  if ← present .UPSB then
    let Local2 ← UPSB.CRMW 0x3C 0 0x02 0x04000000 0x04000000
    if Local2 = 0 then
      set .CTPD 1

/-- Switch the power of the Thunderbolt and USB halves; every GPIO access is disabled by an
`If (Zero)`. -/
def UGIO : Method σ Integer := do
  let Local0 := truth ((← get .GNHI) ≠ 0 || (← get .RTBT) ≠ 0)
  let Local1 := truth ((← get .GXCI) ≠ 0 || (← get .RUSB) ≠ 0)
  let raise := (← get .GPCI) ≠ 0 ∧ Local0 = 0 ∧ Local1 = 0
  let Local0 := if raise then 1 else Local0
  let Local1 := if raise then 1 else Local1
  let Local2 ←
    if Local0 ≠ 0 ∧ (0 : Integer) ≠ 0 then do
      set .CTPD 0
      pure 1
    else pure (0 : Integer)
  let Local2 := if Local1 ≠ 0 ∧ (0 : Integer) ≠ 0 then 1 else Local2
  if Local2 ≠ 0 then
    sleep 0x01F4
  let Local3 ←
    if Local0 = 0 ∧ (0 : Integer) ≠ 0 then do
      CTBT
      if (← get .CTPD) ≠ 0 then pure 1 else pure 0
    else pure (0 : Integer)
  let Local3 := if Local1 = 0 ∧ (0 : Integer) ≠ 0 then 1 else Local3
  if Local3 ≠ 0 then
    sleep 0x64
  return Local2

end RP01

/-! ### `POFF`, `PCEU` and `PCDA` -/

/-- The field that disables the link of a port. -/
def Port.linkDisable : Port → Field
  | .RP01 => .LDXX
  | p => .LDIS p

/-- The flag of a port that gates its power in `UGIO`. -/
def Port.gate : Port → Name
  | .RP01 => .GPCI
  | .DSB0 => .GNHI
  | .DSB2 => .GXCI

/-- The function below a port. -/
def Port.child : Port → Scope
  | .RP01 => .UPSB
  | .DSB0 => .NHI0
  | .DSB2 => .XHC2

/-- Whether the port `p` is to be powered off, from the values of the names. -/
def Port.off (p : Port) (names : Name → Integer) : Integer :=
  match p with
  | .RP01 => truth (names .RTBT = 0 && names .RUSB = 0)
  | .DSB0 => truth (names .RTBT = 0)
  | .DSB2 => truth (names .RUSB = 0)

/-- `RP01.POFF`: `!RTBT && !RUSB`. -/
def RP01.POFF : Method σ Integer := do
  return truth (truth ((← get .RTBT) = 0) ≠ 0 && truth ((← get .RUSB) = 0) ≠ 0)

/-- `DSB0.POFF`: `!RTBT`. -/
def DSB0.POFF : Method σ Integer := do
  return truth ((← get .RTBT) = 0)

/-- `DSB2.POFF`: `!RUSB`. -/
def DSB2.POFF : Method σ Integer := do
  return truth ((← get .RUSB) = 0)

/-- `POFF` of the port `p`. -/
def POFF : Port → Method σ Integer
  | .RP01 => RP01.POFF
  | .DSB0 => DSB0.POFF
  | .DSB2 => DSB2.POFF

/-- `PCEU` of the port `p`: bring the port back to D0 and enable its link. -/
def PCEU (p : Port) : Method σ Unit := do
  set (.PRSR p) 0
  if (← load (.PSTA p)) ≠ 0 then
    set (.PRSR p) 1
    store (.PSTA p) 0
  if (← load p.linkDisable) = 1 then
    set (.PRSR p) 1
    store p.linkDisable 0

/-- The test of the wait in `PCDA`: the link of `p` went down, or its child is gone. -/
def linkDown (p : Port) : Method σ Bool := do
  if (← load (.LACR p)) = 1 then
    pure (decide ((← load (.LACT p)) = 0))
  else
    pure (decide ((← load (.AVND p.child)) = 0xFFFFFFFF))

/-- `PCDA` of the port `p`: put the port into D3hot and disable its link when `POFF` says so. -/
def PCDA (p : Port) : Method σ Unit := do
  if (← POFF p) ≠ 0 then
    set (.PCIA p) 0
    store (.PSTA p) 0x03
    store p.linkDisable 1
    let Local5 := (← timer) + second
    let _ ← waitUntil (.PCDA p) Local5 (linkDown p)
    set p.gate 0
    let _ ← RP01.UGIO
  set (.IIP3 p) 1

namespace RP01

def PCEU : Method σ Unit := TB3.PCEU .RP01
def PCDA : Method σ Unit := TB3.PCDA .RP01

def _PS0 : Method σ Unit := PCEU

def _PS3 : Method σ Unit := do
  if (← POFF) ≠ 0 then
    CTBT
  PCDA

end RP01

namespace DSB0

def PCEU : Method σ Unit := TB3.PCEU .DSB0
def PCDA : Method σ Unit := TB3.PCDA .DSB0

def _PS0 : Method σ Unit := PCEU
def _PS3 : Method σ Unit := PCDA

end DSB0

namespace DSB2

def PCEU : Method σ Unit := TB3.PCEU .DSB2
def PCDA : Method σ Unit := TB3.PCDA .DSB2

def _PS0 : Method σ Unit := PCEU
def _PS3 : Method σ Unit := PCDA

end DSB2

end TB3
