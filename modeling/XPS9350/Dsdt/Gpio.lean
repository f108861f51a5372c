import XPS9350.Dsdt.Pci

/-!
# The GPIO controller

A pad is named by an integer with the number of its group in bits 16 to 23 and its own number in
the low 16 bits (`GGRP`, `GNMB`).  The packages below hold, for the two variants of the chipset, the
offsets of the groups; `GADR` looks an address up.  The accessors of a pad differ in the field unit
they read or write, those of a group in its register.

`GGRP` and `GNMB` only compute and are functions here.  An index past the end of a package aborts
the method, which is `halt`.
-/

namespace Dsdt

open Aml Aml.Prog

variable {σ : Type}

/-! ### The packages -/

/-- The offset of the community of a group. -/
def GCOM : List (List Integer) :=
  [[0x00AF0000, 0x00AF0000, 0x00AE0000, 0x00AE0000, 0x00AE0000, 0x00AC0000, 0x00AC0000, 0x00AD0000],
    [0x00AF0000, 0x00AF0000, 0x00AE0000, 0x00AE0000, 0x00AE0000, 0x00AE0000, 0x00AE0000, 0x00AE0000,
      0x00AC0000, 0x00AD0000]]

/-- The number of pads of a group. -/
def GPPG : List (List Integer) :=
  [[0x18, 0x18, 0x18, 0x18, 0x18, 0x18, 0x08, 0x0C],
    [0x18, 0x18, 0x18, 0x18, 0x0D, 0x18, 0x18, 0x18, 0x0B, 0x0C]]

/-- The offset of the configuration dwords of a group. -/
def PCFG : List (List Integer) :=
  [[0x0400, 0x04C0, 0x0400, 0x04C0, 0x0580, 0x0400, 0x04C0, 0x0400],
    [0x0400, 0x04C0, 0x0400, 0x04C0, 0x0580, 0x05E8, 0x06A8, 0x0768, 0x0400, 0x0400]]

/-- The offset of the host ownership register. -/
def HOWN : List (List Integer) :=
  [[0xD0, 0xD4, 0xD0, 0xD4, 0xD8, 0xD0, 0xD4, 0xD0],
    [0xD0, 0xD4, 0xD0, 0xD4, 0xD8, 0xDC, 0xE0, 0xE4, 0xD0, 0xD0]]

/-- The offset of the pad ownership registers. -/
def POWN : List (List Integer) :=
  [[0x20, 0x30, 0x20, 0x30, 0x40, 0x20, 0x30, 0x20],
    [0x20, 0x2C, 0x20, 0x2C, 0x38, 0x40, 0x4C, 0x58, 0x20, 0x20]]

/-- The offset of the status register of the general purpose events; `GENX` is `0x20` above it. -/
def GPEO : List (List Integer) :=
  [[0x0140, 0x0144, 0x0140, 0x0144, 0x0148, 0x0140, 0x0144, 0x0140],
    [0x0140, 0x0144, 0x0140, 0x0144, 0x0148, 0x014C, 0x0150, 0x0154, 0x0140, 0x0140]]

/-- `DerefOf (DerefOf (t [i]) [j])`. -/
def deref (t : List (List Integer)) (i j : Integer) : Method σ Integer :=
  match t[i.toNat]?.bind (·[j.toNat]?) with
  | some v => pure v
  | none => halt

/-! ### Names and addresses of pads -/

/-- The group of a pad. -/
def GGRP (Arg0 : Integer) : Integer := (Arg0 &&& 0x00FF0000) >>> 0x10

/-- The number of a pad in its group. -/
def GNMB (Arg0 : Integer) : Integer := Arg0 &&& 0xFFFF

/-- The row of the packages for the chipset at hand. -/
def variant : Method σ Integer := do
  if (← load .PCHS) = 0x02 then pure 0 else pure 1

/-- The interrupt of a pad: pads are numbered through, and the interrupts repeat after `0x60`. -/
def INUM (Arg0 : Integer) : Method σ Integer := do
  let Local0 ← variant
  let Local1 ← whileLoop .INUM (fun x => pure (decide (x.2 < GGRP Arg0)))
    (fun (Local1, Local3) => do
      pure (.next (Local1 + (← deref GPPG Local0 Local3), Local3 + 1)))
    Prod.fst (GNMB Arg0, (0 : Integer))
  pure (0x18 + Local1 % 0x60)

/-- The address of a register of the group `Arg0`, whose offset is in the package `Arg1`. -/
def GADR (Arg0 : Integer) (Arg1 : List (List Integer)) : Method σ Integer := do
  let Local0 ← variant
  let Local1 := (← deref GCOM Local0 Arg0) + (← load .SBRG)
  pure (Local1 + (← deref Arg1 Local0 Arg0))

/-- The mode of the events of a group in `GPEM`; zero means that they share one event. -/
def mode (Arg0 : Integer) : Method σ Integer := do
  pure (((← load .GPEM) >>> (Arg0 * 0x02)) &&& 0x03)

/-- The general purpose event of a pad. -/
def GGPE (Arg0 : Integer) : Method σ Integer := do
  let Local2 ← mode (GGRP Arg0)
  if Local2 = 0 then pure 0x6F else pure ((Local2 - 1) * 0x20 + GNMB Arg0)

/-! ### The accessors of a pad -/

/-- The address of the configuration dwords of a pad. -/
def padAddress (Arg0 : Integer) : Method σ Integer := do
  pure ((← GADR (GGRP Arg0) PCFG) + GNMB Arg0 * 0x08)

/-- The offset of the dword that holds a field unit. -/
def PadField.offset : PadField → Integer
  | .PDW1 | .SGWP => 0x04
  | _ => 0

/-- Read the field unit `f` of a pad. -/
def readPad (m : Lock) (f : PadField) (Arg0 : Integer) : Method σ Integer :=
  serialized m do
    let Local2 := (← padAddress Arg0) + f.offset
    load (.pad f Local2)

/-- Write the field unit `f` of a pad. -/
def writePad (m : Lock) (f : PadField) (Arg0 Arg1 : Integer) : Method σ Unit :=
  serialized m do
    let Local2 := (← padAddress Arg0) + f.offset
    store (.pad f Local2) Arg1

def GPC0 (Arg0 : Integer) : Method σ Integer := readPad .GPC0 .PDW0 Arg0
def SPC0 (Arg0 Arg1 : Integer) : Method σ Unit := writePad .SPC0 .PDW0 Arg0 Arg1
def GPC1 (Arg0 : Integer) : Method σ Integer := readPad .GPC1 .PDW1 Arg0
def SPC1 (Arg0 Arg1 : Integer) : Method σ Unit := writePad .SPC1 .PDW1 Arg0 Arg1
def SRXO (Arg0 Arg1 : Integer) : Method σ Unit := writePad .SRXO .SRXO Arg0 Arg1
def GGIV (Arg0 : Integer) : Method σ Integer := readPad .GGIV .GGIV Arg0
def GGOV (Arg0 : Integer) : Method σ Integer := readPad .GGOV .GGOV Arg0
def SGOV (Arg0 Arg1 : Integer) : Method σ Unit := writePad .SGOV .GGOV Arg0 Arg1
def GGII (Arg0 : Integer) : Method σ Integer := readPad .GGII .GGII Arg0
def SGII (Arg0 Arg1 : Integer) : Method σ Unit := writePad .SGII .GGII Arg0 Arg1
def GPMV (Arg0 : Integer) : Method σ Integer := readPad .GPMV .GPMV Arg0
def SPMV (Arg0 Arg1 : Integer) : Method σ Unit := writePad .SPMV .GPMV Arg0 Arg1
def SGRA (Arg0 Arg1 : Integer) : Method σ Unit := writePad .SGRA .SGRA Arg0 Arg1
def SGWP (Arg0 Arg1 : Integer) : Method σ Unit := writePad .SGWP .SGWP Arg0 Arg1

/-- Whether the host owns a pad. -/
def GHPO (Arg0 : Integer) : Method σ Integer :=
  serialized .GHPO do
    let PREG ← GADR (GGRP Arg0) HOWN
    pure (((← load (.HOWN PREG)) >>> GNMB Arg0) &&& 1)

/-- Give the pad `Arg0` to the host or take it away. -/
def SHPO (Arg0 Arg1 : Integer) : Method σ Unit :=
  serialized .SHPO do
    let Local1 := GNMB Arg0
    let PREG ← GADR (GGRP Arg0) HOWN
    store (.HOWN PREG) ((← load (.HOWN PREG)) &&& ~~~((1 : Integer) <<< Local1) ||| Arg1 <<< Local1)

/-- The owner of a pad. -/
def GGPO (Arg0 : Integer) : Method σ Integer :=
  serialized .GGPO do
    let Local1 := GNMB Arg0
    let Local2 := (← GADR (GGRP Arg0) POWN) + (Local1 >>> 0x03) * 0x04
    pure (((← load (.POWN Local2)) >>> ((Local1 &&& 0x07) * 0x04)) &&& 0x03)

/-! ### Events -/

/-- An entry of the package `GPES` or `RXEV`, both of ten entries. -/
def entry (f : Integer → Name) (Arg0 : Integer) : Method σ Integer :=
  if Arg0 < 0x0A then get (f Arg0) else halt

/-- Store to an entry. -/
def setEntry (f : Integer → Name) (Arg0 v : Integer) : Method σ Unit :=
  if Arg0 < 0x0A then set (f Arg0) v else halt

/-- The number of groups. -/
def groups : Method σ Integer := do
  if (← load .PCHS) = 1 then pure 0x0A else pure 0x08

/-- `While (Local0)` over the groups, the last one first. -/
def eachGroup (l : Loop) (body : Integer → Method σ Unit) : Method σ Unit := do
  whileLoop l (fun Local0 => pure (decide (Local0 ≠ 0)))
    (fun Local0 => do
      let Local0 := Local0 - 1
      body Local0
      pure (.next Local0))
    (fun _ => ()) (← groups)

/-- Note the pending events of a group. -/
def UGP1 (Arg0 : Integer) : Method σ Unit :=
  serialized .UGP1 do
    let GPPX ← GADR Arg0 GPEO
    if (← mode Arg0) = 0 then
      setEntry .GPES Arg0 ((← load (.STSX GPPX)) &&& (← load (.GENX (GPPX + 0x20))))
    else
      setEntry .GPES Arg0 0

/-- Note the pending events of all groups. -/
def UGPS : Method σ Unit := serialized .UGPS (eachGroup .UGPS UGP1)

/-- Write `Arg1` to the status register of a group, which clears the events with a one. -/
def CGP1 (Arg0 Arg1 : Integer) : Method σ Unit :=
  serialized .CGP1 do
    if (← mode Arg0) = 0 then
      store (.STSX (← GADR Arg0 GPEO)) Arg1

/-- Clear all events. -/
def CGPS : Method σ Unit := serialized .CGPS (eachGroup .CGPS fun Local0 => CGP1 Local0 0xFFFFFFFF)

/-- Clear the events under the masks `G2L0`, …, `G2L9`. -/
def CGLS : Method σ Unit :=
  serialized .CGLS (eachGroup .CGLS fun Local0 => do CGP1 Local0 (← load (.G2L Local0)))

/-- Clear the event of a pad. -/
def CAGS (Arg0 : Integer) : Method σ Unit :=
  serialized .CAGS do
    let Local0 := GGRP Arg0
    if (← mode Local0) = 0 then
      let GPPX ← GADR Local0 GPEO
      let _ ← load (.STSX GPPX)
      store (.STSX GPPX) ((← load (.STSX GPPX)) ||| (1 : Integer) <<< GNMB Arg0)

/-- Whether the event of a pad was noted. -/
def ISME (Arg0 : Integer) : Method σ Integer := do
  pure (((← entry .GPES (GGRP Arg0)) >>> GNMB Arg0) &&& 1)

/-! ### Interrupts of pads -/

/-- Take a pad off its interrupt: remember its routing and switch it off. -/
def DIPI (Arg0 : Integer) : Method σ Unit :=
  serialized .DIPI do
    let Local0 := GGRP Arg0
    let Local1 := GNMB Arg0
    let Local2 ← padAddress Arg0
    if (← load (.pad .RCFG Local2)) ≠ 0x02 then
      let Local3 ← entry .RXEV Local0
      let Local3 := Local3 &&& ~~~((0x03 : Integer) <<< (Local1 * 0x02))
      setEntry .RXEV Local0 (Local3 ||| (← load (.pad .RCFG Local2)) <<< (Local1 * 0x02))
      store (.pad .RCFG Local2) 0x02
      store (.pad .RDIS Local2) 1

/-- Put a pad back on its interrupt. -/
def UIPI (Arg0 : Integer) : Method σ Unit :=
  serialized .UIPI do
    let Local0 := GGRP Arg0
    let Local1 := GNMB Arg0
    let Local2 ← padAddress Arg0
    let Local3 := ((← entry .RXEV Local0) >>> (Local1 * 0x02)) &&& 0x03
    if Local3 ≠ 0x02 then
      store (.pad .RDIS Local2) 0
      store (.pad .RCFG Local2) Local3

end Dsdt
