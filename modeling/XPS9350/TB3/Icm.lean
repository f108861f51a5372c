import XPS9350.TB3.Port

/-!
# Initialisation

`RP01._INI` saves the configuration of the six functions of the controller, and `ICMD` disables
its connection manager firmware: `CNHI` programs the saved configuration back in four stages, with
`WTLT` and `WTDL` waiting for the links in between.

The tables below list the registers in the order of the source.  Output to `Debug` is left out;
the reads of `ICME` that `ICMD` makes for it are kept.
-/

namespace TB3.RP01

open Aml Aml.Prog

variable {σ : Type}

/-! ### The register tables -/

/-- Registers that `CNHI` writes to the root port, with the names they are saved in. -/
def rpRegs : List (Field × Name) :=
  [(.R_20, .R020), (.R_24, .R024), (.R_28, .R028), (.R_2C, .R02C)]

/-- Registers that `CNHI` writes to `UPSB`. -/
def upsbRegs : List (Field × Name) :=
  [(.UP18, .R118), (.UP19, .R119), (.UP1A, .R11A), (.UP1C, .R11C), (.UP20, .R120), (.UP24, .R124),
    (.UP28, .R128), (.UP2C, .R12C)]

/-- Registers that `CNHI` writes to `DSB0`. -/
def dsb0Regs : List (Field × Name) :=
  [(.DP18, .R218), (.DP19, .R219), (.DP1A, .R21A), (.DP1C, .R21C), (.DP20, .R220), (.DP24, .R224),
    (.DP28, .R228), (.DP2C, .R22C)]

/-- Registers that `CNHI` writes to `DSB1`. -/
def dsb1Regs : List (Field × Name) :=
  [(.D318, .R318), (.D319, .R319), (.D31A, .R31A), (.D31C, .R31C), (.D320, .R320), (.D324, .R324),
    (.D328, .R328), (.D32C, .R32C)]

/-- Registers that `CNHI` writes to `DSB2`. -/
def dsb2Regs : List (Field × Name) :=
  [(.D418, .R418), (.D419, .R419), (.D41A, .R41A), (.D41C, .R41C), (.D420, .R420), (.D424, .R424),
    (.D428, .R428), (.D42C, .R42C), (.DVES, .RVES)]

/-- Registers that `CNHI` writes to `NHI0`. -/
def nhiRegs : List (Field × Name) := [(.NH10, .RH10), (.NH14, .RH14)]

/-- The registers that `CNHI` programs from a saved name. -/
def programmed : List (Field × Name) :=
  rpRegs ++ upsbRegs ++ dsb0Regs ++ dsb1Regs ++ dsb2Regs ++ nhiRegs

/-- The registers that the save block of `_INI` reads. -/
def savedRegs : List (Field × Name) :=
  [(.R_20, .R020), (.R_24, .R024), (.R_28, .R028), (.R_2C, .R02C),
    (.UP18, .R118), (.UP19, .R119), (.UP1A, .R11A), (.UP1C, .R11C), (.UP20, .R120), (.UP24, .R124),
    (.UP28, .R128), (.UP2C, .R12C),
    (.DP18, .R218), (.DP19, .R219), (.DP1A, .R21A), (.DP1C, .R21C), (.DP20, .R220), (.DP24, .R224),
    (.DP28, .R228),
    (.D318, .R318), (.D319, .R319), (.D31A, .R31A), (.D31C, .R31C), (.D320, .R320), (.D324, .R324),
    (.D328, .R328), (.D32C, .R32C),
    (.D418, .R418), (.D419, .R419), (.D41A, .R41A), (.D41C, .R41C), (.D420, .R420), (.D424, .R424),
    (.D428, .R428), (.D42C, .R42C), (.DVES, .RVES),
    (.NH10, .RH10), (.NH14, .RH14)]

/-- Write each register from its name. -/
def program : List (Field × Name) → Method σ Unit
  | [] => pure ()
  | (f, n) :: regs => do
    store f (← get n)
    program regs

/-- Read each register into its name. -/
def save : List (Field × Name) → Method σ Unit
  | [] => pure ()
  | (f, n) :: regs => do
    set n (← load f)
    save regs

/-! ### Waiting for the links -/

/-- Downlink training check. -/
def DLTC : Method σ Integer := do
  if (← load .RPLT) = 0 then
    if (← load .UPLT) = 0 then
      if (← load .DPLT) = 0 then
        return 1
  return 0

/-- Uplink training check. -/
def ULTC : Method σ Integer := do
  if (← load .RPLT) = 0 then
    if (← load .UPLT) = 0 then
      return 1
  return 0

/-- One poll of `WTLT` and `WTDL`: the root port is enabled, the links do not train and the
upstream port answers. -/
def linkReady (check : Method σ Integer) : Method σ Bool := do
  if (← load .RPR4) = 0x07 then
    if (← check) ≠ 0 then
      if (← UPCK) ≠ 0 then
        return true
  return false

/-- The loop of `WTLT` and `WTDL`: at most 2000 polls, 1 ms apart. -/
def waitLink (l : Loop) (check : Method σ Integer) : Method σ Integer :=
  whileLoop l (fun Local0 => pure (decide (Local0 ≠ 0)))
    (fun Local0 => do
      if ← linkReady check then
        pure (.leave 1)
      else
        sleep 1
        pure (.next (Local0 - 1)))
    (fun _ => 0) (2000 : Integer)

/-- Wait for downlink training. -/
def WTDL : Method σ Integer := waitLink .WTDL DLTC

/-- Wait for link training. -/
def WTLT : Method σ Integer := waitLink .WTLT ULTC

/-! ### `CNHI` -/

/-- One stage of `CNHI`: repeat a block of writes until the register `f` reads back as the name
`n`, `tries` times at most, and check it once more. -/
def stage (l : Loop) (tries : Integer) (block : Method σ Unit) (f : Field) (n : Name) :
    Method σ Bool := do
  whileLoop l (fun Local0 => pure (decide (Local0 ≠ 0)))
    (fun Local0 => do
      block
      if (← get n) = (← load f) then
        pure (.leave ())
      else
        sleep 1
        pure (.next (Local0 - 1)))
    (fun _ => ()) tries
  pure (decide ((← get n) = (← load f)))

/-- Configure the root port. -/
def CNHI.rp : Method σ Bool :=
  stage .CNHIrp 10 (do program rpRegs; store .RPR4 0x07) .R_20 .R020

/-- Configure `UPSB`. -/
def CNHI.upsb : Method σ Bool :=
  stage .CNHIup 10 (do program upsbRegs; store .UP04 0x07) .UP19 .R119

/-- Configure the three downstream ports. -/
def CNHI.dsb : Method σ Bool :=
  stage .CNHIdsb 10
    (do
      program dsb0Regs
      store .DP04 0x07
      program dsb1Regs
      store .D304 0x07
      program dsb2Regs
      store .D404 0x07)
    .DP19 .R219

/-- Configure `NHI0`. -/
def CNHI.nhi : Method σ Bool :=
  stage .CNHInhi 100 (do program nhiRegs; store .NH04 0x07) .NH10 .RH10

/-- Program the saved configuration into the controller; one on success. -/
def CNHI : Method σ Integer := do
  if !(← CNHI.rp) then
    return 0
  if !(← CNHI.upsb) then
    return 0
  if (← WTLT) ≠ 1 then
    return 0
  if !(← CNHI.dsb) then
    return 0
  if (← WTDL) ≠ 1 then
    return 0
  if !(← CNHI.nhi) then
    return 0
  return 1

/-! ### `ICMD` and `_INI` -/

/-- The wait of `ICMD` for the firmware to come up again. -/
def ICMD.ready : Method σ Unit :=
  whileLoop .ICMD (fun _ => do pure (decide ((← load .ICME) &&& 0x80000000 = 0)))
    (fun Local0 => do
      if Local0 - 1 = 0 then
        pure (.leave ())
      else
        sleep 1
        pure (.next (Local0 - 1)))
    (fun _ => ()) (1000 : Integer)

/-- Reset a firmware that has started. -/
def ICMD.reset : Method σ Unit := do
  store .ICME ((← load .ICME) ||| 0x06)
  ICMD.ready
  let _ ← load .ICME
  sleep 1000

/-- The part of `ICMD` after a successful `CNHI`. -/
def ICMD.configured : Method σ Unit := do
  let _ ← load .ICME
  if (← load .ICME) ≠ 0xFFFFFFFF then
    let _ ← WTLT
    let _ ← load .ICME
    if (← load .ICME) &&& 0x80000000 = 0 then
      ICMD.reset

/-- Disable the connection manager firmware. -/
def ICMD : Method σ Unit := do
  set .POC0 1
  let _ ← load .ICME
  if (← load .ICME) ≠ 0x800001A3 then
    if (← CNHI) ≠ 0 then
      ICMD.configured
  set .POC0 0

def _INI : Method σ Unit := do
  save savedRegs
  sleep 1
  ICMD

end TB3.RP01
