import XPS9350.TB3.Icm

/-!
# Power transitions

`UPSB.PCED` and `XHC2.PCED`, which bring a link up again, the `_PS0` and `_PS3` methods and the
sequences in which they may be called.
-/

namespace TB3

open Aml Aml.Prog

variable {σ : Type}

namespace UPSB

/-- The first part of `PCED` after the link was disabled: enable it at the speed of the first
generation, wait until `Local5` for it to train and for `UPSB` to show up, then retrain it at full
speed. -/
def PCED.gen1 (Local0 Local1 Local5 : Integer) : Method σ Unit := do
  store (.TSPD .RP01) 1
  if Local1 ≠ 0 then
    pure ()
  else if Local0 ≠ 0 then
    store .LDXX 0
  let _ ← waitUntil .PCEDgen1train Local5 (trained .RP01)
  sleep 0x78
  let _ ← waitUntil .PCEDgen1present Local5 (present .UPSB)
  store (.TSPD .RP01) 0x03
  store .LRTN 1

/-- The test of the last wait in `PCED`: the link is trained and `UPSB` answers. -/
def PCED.trainedPresent : Method σ Bool := do
  if (← load (.LACR .RP01)) = 0 then
    pure (decide ((← load (.LTRN .RP01)) ≠ 1 ∧ (← load (.AVND .UPSB)) ≠ 0xFFFFFFFF))
  else
    pure (decide (((← load (.LTRN .RP01)) ≠ 1 ∧ (← load (.LACT .RP01)) = 1) ∧
      (← load (.AVND .UPSB)) ≠ 0xFFFFFFFF))

/-- Retrain the link at the speed of the third generation. -/
def PCED.retrain : Method σ Unit := do
  if (← load (.TSPD .RP01)) ≠ 0x03 then
    store (.TSPD .RP01) 0x03
  if (← load (.TSPD .UPSB)) ≠ 0x03 then
    store (.TSPD .UPSB) 0x03
  store .LRTN 1
  let Local2 := (← timer) + second
  if ← waitUntil .PCEDgen3 Local2 PCED.trainedPresent then
    set (.PCIA .RP01) 1

/-- The last part of `PCED`: retrain a link that both ends support at the speed of the third
generation but that does not run at it. -/
def PCED.gen3 : Method σ Unit := do
  if (← load .CSPD) ≠ 0x03 then
    if (← load (.SSPD .RP01)) = 0x03 then
      if (← load (.SSPD .UPSB)) = 0x03 then
        PCED.retrain
      else
        set (.PCIA .RP01) 1
    else
      set (.PCIA .RP01) 1
  else
    set (.PCIA .RP01) 1

/-- The middle part of `PCED`, when the port was reset: the new deadline is the result. -/
def PCED.restore (Local0 Local1 Local5 : Integer) : Method σ Integer := do
  if (← get (.PRSR .RP01)) ≠ 0 then
    sleep 0x1E
    if Local0 ≠ 0 ∨ Local1 ≠ 0 then
      PCED.gen1 Local0 Local1 Local5
    let Local5 := (← timer) + second
    let _ ← waitUntil .PCEDtrain Local5 (trained .RP01)
    sleep 0xFA
    pure Local5
  else
    pure Local5

/-- Disable the link if `RP01` was suspended since the last time; whether it was. -/
def PCED.disable (Local1 : Integer) : Method σ Integer := do
  if Local1 = 0 then
    if (← get (.IIP3 .RP01)) ≠ 0 then
      set (.PRSR .RP01) 1
      store .LDXX 1
      return 1
  return 0

/-- Bring up the link between the root port and `UPSB`. -/
def PCED : Method σ Unit := do
  set .GPCI 1
  if (← RP01.UGIO) ≠ 0 then
    set (.PRSR .RP01) 1
  let Local1 : Integer := 0
  let Local0 ← PCED.disable Local1
  let Local5 := (← timer) + second
  let Local5 ← PCED.restore Local0 Local1 Local5
  set (.PRSR .RP01) 0
  let _ ← waitUntil .PCEDpresent Local5 (present .UPSB)
  PCED.gen3
  set (.IIP3 .RP01) 0

def _PS0 : Method σ Unit := do
  PCED
  let _ ← CRMW 0x013E 0 0x02 0x0200 0x0200
  let _ ← CRMW 0x023E 0 0x02 0x0200 0x0200

def _PS3 : Method σ Unit := do
  if (← RP01.UPCK) = 0 then
    RP01.UTLK 1 0x03E8
  let _ ← RP01.TBTC 0x05

end UPSB

namespace XHC2

/-- The wait of `PCED` for the link, when the port was reset: the new deadline is the result. -/
def PCED.restore (Local5 : Integer) : Method σ Integer := do
  if (← get (.PRSR .DSB2)) ≠ 0 then
    let Local5 := (← timer) + second
    let _ ← waitUntil .XHC2train Local5 (trained .DSB2)
    sleep 0x96
    pure Local5
  else
    pure Local5

/-- Bring up the link between `DSB2` and the USB controller. -/
def PCED : Method σ Unit := do
  set .GXCI 1
  if (← RP01.UGIO) ≠ 0 then
    set (.PRSR .DSB2) 1
  let Local5 := (← timer) + second
  let Local5 ← PCED.restore Local5
  set (.PRSR .DSB2) 0
  if ← waitUntil .XHC2present Local5 (present .XHC2) then
    set (.PCIA .DSB2) 1
  set (.IIP3 .DSB2) 0

def _PS0 : Method σ Unit := do
  sleep 0xC8
  PCED

def _PS3 : Method σ Unit := sleep 0xC8

end XHC2

/-- The method that an unqualified `PCED ()` in the device `s` runs. -/
def callPCED (s : Scope) : Method σ Unit :=
  match s.resolvePCED with
  | some .UPSB => UPSB.PCED
  | some .XHC2 => XHC2.PCED
  | _ => pure ()

namespace NHI0

def _PS0 : Method σ Unit := do
  callPCED .NHI0
  RP01.CTBT

def _PS3 : Method σ Unit := pure ()

theorem callPCED_eq : (callPCED .NHI0 : Method σ Unit) = UPSB.PCED := rfl

end NHI0

/-! ### Sequences of calls -/

/-- The methods that the operating system calls on a power transition, and `RP01._INI`. -/
inductive Call where
  | PS0 (s : Scope)
  | PS3 (s : Scope)
  | INI
  deriving DecidableEq

/-- The method behind a call. -/
def Call.run : Call → Method σ Unit
  | .PS0 .RP01 => RP01._PS0
  | .PS0 .UPSB => UPSB._PS0
  | .PS0 .DSB0 => DSB0._PS0
  | .PS0 .NHI0 => NHI0._PS0
  | .PS0 .DSB2 => DSB2._PS0
  | .PS0 .XHC2 => XHC2._PS0
  | .PS3 .RP01 => RP01._PS3
  | .PS3 .UPSB => UPSB._PS3
  | .PS3 .DSB0 => DSB0._PS3
  | .PS3 .NHI0 => NHI0._PS3
  | .PS3 .DSB2 => DSB2._PS3
  | .PS3 .XHC2 => XHC2._PS3
  | .INI => RP01._INI

/-- The calls of a list, one after the other. -/
def runCalls : List Call → Method σ Unit
  | [] => pure ()
  | c :: cs => do
    c.run
    runCalls cs

end TB3
