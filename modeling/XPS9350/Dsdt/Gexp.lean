import XPS9350.Dsdt.Pci

/-!
# The GPIO expander

`GEXP`, an I2C expander behind a serial bus controller, which forces the power of the controller
where no pad of the chipset does (`FPAT` one).  `CSER` wakes the bus controller `GEXN`, changes one
bit of a register of the expander or reads it, and puts the bus controller to sleep again.  `RREG`
and `WREG` talk to the expander; they poll the bus controller for 5 ms at most and give up silently.
What is written is remembered in the package `CACH`.
-/

namespace Dsdt

open Aml Aml.Prog

variable {σ : Type}

namespace GEXP

/-! ### The names that nothing stores to -/

/-- Pins of a register. -/
def PPR : Integer := 0x08

/-- The registers for input, output and configuration. -/
def INR : List Integer := [0, 1, 2]
def OUTR : List Integer := [0x04, 0x05, 0x06]
def CFGR : List Integer := [0x0C, 0x0D, 0x0E]

/-- The address of the expander, whether `CACH` is used, and the commands of the bus. -/
def EXPA : Integer := 0x22
def UCCH : Integer := 1
def END : Integer := 0x0200
def READ : Integer := 0x0100

/-! ### What is remembered -/

/-- An entry of `CACH` for the register `Arg1`: its state, two for known, and its value. -/
def R3DC (Arg0 Arg1 Arg2 : Integer) : Method σ Integer :=
  if Arg0 < 0x02 ∧ Arg1 < 0x10 ∧ Arg2 < 0x02 then get (.CACH Arg0 Arg1 Arg2) else halt

def W3DC (Arg0 Arg1 Arg2 Arg3 : Integer) : Method σ Unit :=
  if Arg0 < 0x02 ∧ Arg1 < 0x10 ∧ Arg2 < 0x02 then set (.CACH Arg0 Arg1 Arg2) Arg3 else halt

/-- Forget the values: what was known has to be read again. -/
def INVC : Method σ Unit :=
  whileLoop .INVC (fun Local0 => pure (decide (Local0 < 0x10)))
    (fun Local0 => do
      if (← R3DC 0 Local0 0) = 0x02 then
        W3DC 0 Local0 0 1
      if (← R3DC 1 Local0 0) = 0x02 then
        W3DC 1 Local0 0 1
      pure (.next (Local0 + 1)))
    (fun _ => ()) (0 : Integer)

/-! ### The bus -/

/-- What `RREG` and `WREG` begin with: the bus controller is set up for the expander `Arg1`. -/
def select (Arg1 : Integer) : Method σ Unit := do
  store .RST 0x07
  store .ENB 0
  let _ ← load .RBCK
  let _ ← load .CLR
  store .HOLD 0x001C001C
  store .HCNT 0x0210
  store .LCNT 0x0280
  store .TAR (EXPA + Arg1)
  store .ICON 0x65
  store .ENB 1

/-- Poll `f` until it reads `v`; false if it does not up to the time `Local1`. -/
def await (l : Loop) (f : Field) (v Local1 : Integer) : Method σ Bool :=
  whileLoop l (fun _ => do pure (decide ((← load f) ≠ v)))
    (fun _ => do
      if Local1 < (← timer) then
        pure (.leave false)
      else
        pure (.next ()))
    (fun _ => true) ()

/-- Write `Arg3` to the register `Arg2` of the expander `Arg1`. -/
def WREG (_Arg0 Arg1 Arg2 Arg3 : Integer) : Method σ Integer :=
  serialized .WREG do
    let Local1 := (← timer) + 0xC350
    select Arg1
    if ← await .WREGon .ENSB 1 Local1 then
      store .DATA Arg2
      store .DATA (END + Arg3)
      if ← await .WREGbusy .ACTV 0 Local1 then
        store .ENB 0
        if ← await .WREGoff .ENSB 0 Local1 then
          W3DC Arg1 Arg2 1 Arg3
          if (← R3DC Arg1 Arg2 0) = 1 then
            W3DC Arg1 Arg2 0 0x02
    pure 0

/-- Whether the register `Arg2` is known from `CACH`. -/
def RREG.known (Arg1 Arg2 : Integer) : Method σ Bool := do
  if UCCH = 1 then
    pure (decide ((← R3DC Arg1 Arg2 0) = 0x02))
  else
    pure false

/-- The register `Arg2` of the expander `Arg1`. -/
def RREG (_Arg0 Arg1 Arg2 : Integer) : Method σ Integer :=
  serialized .RREG do
    if ← RREG.known Arg1 Arg2 then
      R3DC Arg1 Arg2 1
    else
      let Local1 := (← timer) + 0xC350
      select Arg1
      if ← await .RREGon .ENSB 1 Local1 then
        store .DATA Arg2
        store .DATA (END + READ)
        if ← await .RREGbusy .ACTV 0 Local1 then
          let Local0 ← load .DATA
          store .ENB 0
          if ← await .RREGoff .ENSB 0 Local1 then
            pure Local0
          else
            pure 0
        else
          pure 0
      else
        pure 0

/-! ### One pin -/

/-- Put the bus controller at `Arg0` into the power state `v` and read that back. -/
def power (m : Lock) (v Arg0 : Integer) : Method σ Unit :=
  serialized m do
    store (.D0D3 Arg0) v
    let _ ← load (.D0D3 Arg0)

def PS0 (Arg0 : Integer) : Method σ Unit := power .PS0 0 Arg0
def PS3 (Arg0 : Integer) : Method σ Unit := power .PS3 0x03 Arg0

/-- The package of registers that `Arg4` chooses. -/
def CSER.registers (Arg4 : Integer) : List Integer :=
  if Arg4 = 0 then OUTR else if Arg4 = 1 then CFGR else INR

/-- `DerefOf (Local0 [REGN])`. -/
def CSER.register (Local0 : List Integer) (REGN : Integer) : Method σ Integer :=
  match Local0[REGN.toNat]? with
  | some REGA => pure REGA
  | none => halt

/-- What `CSER` does with the bit `PINN` of the register `REGA` while the bus controller is awake. -/
def CSER.access (SB0X Arg1 REGA PINN Arg3 Arg4 : Integer) : Method σ Integer := do
  let OLDV ← RREG SB0X Arg1 REGA
  if Arg4 = 0x02 then
    pure (1 &&& OLDV >>> PINN)
  else
    let NEWV := OLDV &&& ~~~((1 : Integer) <<< PINN)
    let NEWV := NEWV ||| Arg3 <<< PINN
    if NEWV ≠ OLDV then
      let _ ← WREG SB0X Arg1 REGA NEWV
    pure 0

/-- Set the pin `Arg2` of the expander `Arg1` to `Arg3`, or return it if `Arg4` is two, over the bus
controller `Arg0`. -/
def CSER (Arg0 Arg1 Arg2 Arg3 Arg4 : Integer) : Method σ Integer :=
  serialized .CSER do
    if 0x05 < Arg0 then
      pure 0
    else
      let SB1X ← load (.SB1 Arg0)
      let SB0X ← load (.SB0 Arg0)
      let SMDX ← load (.SMD Arg0)
      if 0x01 < Arg1 then pure 0
      else if 0x17 < Arg2 then pure 0
      else if 0x01 < Arg3 then pure 0
      else if 0x02 < Arg4 then pure 0
      else if SMDX ≠ 0x03 then pure 0
      else
        PS0 SB1X
        let PINN := Arg2 % PPR
        let REGA ← CSER.register (CSER.registers Arg4) (Arg2 / PPR)
        let RETV ← CSER.access SB0X Arg1 REGA PINN Arg3 Arg4
        PS3 SB1X
        pure RETV

/-- Set an output pin. -/
def SGEP (Arg0 Arg1 Arg2 : Integer) : Method σ Unit :=
  serialized .SGEP do
    let _ ← CSER (← load .GEXN) Arg0 Arg1 Arg2 0

/-- Read an input pin. -/
def GEPS (Arg0 Arg1 : Integer) : Method σ Integer :=
  serialized .GEPS do
    CSER (← load .GEXN) Arg0 Arg1 0 0x02

end GEXP

end Dsdt
