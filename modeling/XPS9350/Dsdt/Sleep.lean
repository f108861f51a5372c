import XPS9350.Dsdt.HotPlug

/-!
# Starting, sleeping and waking up

`_SB.PCI0._INI`, `RPTS` and `RWAK`, which make the handshake of `TINI` and open or shut the gate
`WFEV` of the hot plug handler.  Of what they do besides, the part that belongs to the root ports,
to the debug port, to the expander and to the version of the operating system is kept.
-/

namespace Dsdt

open Aml Aml.Prog

variable {σ : Type} (GPCB : Integer)

/-- The names that `_INI` asks `_OSI` for, in order, with the value that each gives `OSYS`. -/
def osNames : List (String × Integer) :=
  [("Linux", 0x03E8), ("Windows 2001", 0x07D1), ("Windows 2001 SP1", 0x07D1),
    ("Windows 2001 SP2", 0x07D2), ("Windows 2001.1", 0x07D3), ("Windows 2006", 0x07D6),
    ("Windows 2009", 0x07D9), ("Windows 2012", 0x07DC), ("Windows 2013", 0x07DD),
    ("Windows 2015", 0x07DF)]

/-- `_SB.PCI0._INI`, the answers of `_OSI` given. -/
def _INI (_OSI : String → Bool) : Method σ Unit :=
  serialized ._INI do
    store .OSYS 0x07D0
    osNames.forM fun x => if _OSI x.1 then store .OSYS x.2 else pure ()
    if (← load .TBTS) = 1 then
      Acquire .OSUM
      P8XH 0 0x51
      TINI GPCB
      Release .OSUM
      Signal

/-- Prepare to sleep. -/
def RPTS (Arg0 : Integer) : Method σ Unit := do
  store .P80D 0
  P8XH 0 Arg0
  if (← load .TBTS) = 1 then
    let Local0 ← FFTB GPCB
    if Local0 = 1 ∧ (← load .AICS) = 1 then
      SXTB GPCB
    Reset
  if Arg0 = 0x05 then
    store .SSMP 0xE3

/-- The root ports, in the order in which `RWAK` notifies them. -/
def rootPorts : List Integer := (List.range 20).map fun i => BitVec.ofNat 64 (i + 1)

/-- The root ports that `RWAK` notifies only when `DSTS` is zero. -/
def onlyWithoutDSTS (Arg0 : Integer) : Bool := Arg0 = 0x07 ∨ Arg0 = 0x08

/-- Notify the root port `Arg0` of a bus check if it is there. -/
def RWAK.notify (Arg0 : Integer) : Method σ Unit := do
  if (← load (.VDID Arg0)) ≠ 0xFFFFFFFF then
    if onlyWithoutDSTS Arg0 then
      if (← load .DSTS) = 0 then
        Notify (.RP Arg0) 0
    else
      Notify (.RP Arg0) 0

/-- Wake up. -/
def RWAK (Arg0 : Integer) : Method σ Unit :=
  serialized .RWAK do
    P8XH 1 0xAB
    GEXP.INVC
    if Arg0 = 0x03 then
      store .SSMP 0x0E
    if Arg0 = 0x03 ∨ Arg0 = 0x04 then
      if (← load .TBTS) = 1 then
        Acquire .OSUM
        TINI GPCB
        Release .OSUM
      rootPorts.forM RWAK.notify
    if (← load .TBTS) = 1 then
      Signal

end Dsdt
