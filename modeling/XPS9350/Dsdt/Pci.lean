import XPS9350.Aml.View
import XPS9350.Dsdt.Table

/-!
# Configuration space

How the DSDT reaches the configuration space of the root port and of the Thunderbolt controller:
`TBTD` and `TBTF` give the device and function number of the root port with the number `TBSE`,
`MMRP` and `MMTB` the configuration bases of the root port and of the upstream port, `PERB`, `PERW`
and `STDC` read configuration registers and search the capability list.

`GPCB` is the configuration base that the method of this name returns.  A method that reads a local
before it stores to it is aborted by the interpreter, which is `halt` here.  Output to `ADBG` is
left out; the read of `SBUS` that `TSUB` makes for it is kept.
-/

namespace Dsdt

open Aml Aml.Prog

variable {σ α : Type} (GPCB : Integer)

/-! ### Synchronization -/

/-- `Acquire (m, 0xFFFF)`. -/
def Acquire (m : Lock) : Method σ Unit := call (.Acquire m) (pure ())

/-- `Release (m)`. -/
def Release (m : Lock) : Method σ Unit := call (.Release m) (pure ())

/-- `Wait (WFEV, 0xFFFF)`. -/
def Wait : Method σ Unit := call .Wait (pure ())

/-- `Signal (WFEV)`. -/
def Signal : Method σ Unit := call .Signal (pure ())

/-- `Reset (WFEV)`. -/
def Reset : Method σ Unit := call .Reset (pure ())

/-- `Notify (o, v)`. -/
def Notify (o : Target) (v : Integer) : Method σ Unit := call (.Notify o v) (pure ())

/-- The body of a `Serialized` method. -/
def serialized (m : Lock) (body : Method σ α) : Method σ α := do
  Acquire m
  let Return ← body
  Release m
  pure Return

theorem acts_serialized {X : Type} {env : Env dsdt σ} {E : World dsdt σ → Prop}
    {view : State dsdt σ → X} {y : X} {m : Lock} {body : Method σ α} {Q : α → X → Prop}
    (h : Acts env E view y body Q) : Acts env E view y (serialized m body) Q := by
  unfold serialized Acquire Release
  refine acts_bind (acts_call (Q := fun _ z => z = y) (acts_pure rfl)) ?_
  rintro _ _ rfl
  refine acts_bind h fun a z ha => ?_
  refine acts_bind (acts_call (Q := fun _ z' => z' = z) (acts_pure rfl)) ?_
  rintro _ _ rfl
  exact acts_pure ha

/-! ### Addresses -/

/-- The device number of the port `Arg0`. -/
def TBTD (Arg0 : Integer) : Method σ Integer :=
  serialized .TBTD do
    if 0x01 ≤ Arg0 ∧ Arg0 ≤ 0x08 then pure 0x1C
    else if 0x09 ≤ Arg0 ∧ Arg0 ≤ 0x10 then pure 0x1D
    else if 0x11 ≤ Arg0 ∧ Arg0 ≤ 0x14 then pure 0x1B
    else if 0x15 ≤ Arg0 ∧ Arg0 ≤ 0x17 then pure 1
    else halt

/-- The function number of the port `Arg0`. -/
def TBTF (Arg0 : Integer) : Method σ Integer :=
  serialized .TBTF do
    if 0x01 ≤ Arg0 ∧ Arg0 ≤ 0x14 then
      pure ((← load (.RPA Arg0)) &&& 0x0F)
    else if Arg0 = 0x15 then pure 0
    else if Arg0 = 0x16 then pure 1
    else if Arg0 = 0x17 then pure 2
    else halt

/-- The configuration base of the root port. -/
def MMRP : Method σ Integer := do
  let Local0 := GPCB + ((← TBTD (← load .TBSE)) <<< 0x0F)
  pure (Local0 + ((← TBTF (← load .TBSE)) <<< 0x0C))

/-- The configuration base of the upstream port, on the secondary bus of the root port. -/
def MMTB : Method σ Integer :=
  serialized .MMTB do
    let Local0 ← MMRP GPCB
    let Local2 ← load (.SBUS .MMTB (Local0 + 0x19))
    pure (GPCB + Local2 * 0x00100000)

/-- The secondary bus of the root port. -/
def TSUB : Method σ Integer :=
  serialized .TSUB do
    let Local0 ← MMRP GPCB
    let _ ← load (.SBUS .TSUB (Local0 + 0x19))
    load (.SBUS .TSUB (Local0 + 0x19))

/-- Whether the mailbox reads as all ones. -/
def FFTB : Method σ Integer := do
  let Local0 := (← MMTB GPCB) + 0x0548
  if (← load (.TB2P .FFTB Local0)) = 0xFFFFFFFF then pure 1 else pure 0

/-- Send the sleep command through the mailbox. -/
def SXTB : Method σ Unit := do
  let Local0 := (← MMTB GPCB) + 0x0548
  store (.P2TB .SXTB Local0) (0x02 <<< 1)

/-! ### Configuration registers -/

/-- The address of register `Arg4` of function `Arg3` of device `Arg2` on bus `Arg1`. -/
def PERB.address (Arg0 Arg1 Arg2 Arg3 Arg4 : Integer) : Integer :=
  Arg0 ||| Arg1 <<< 0x14 ||| Arg2 <<< 0x0F ||| Arg3 <<< 0x0C ||| Arg4

/-- Read a byte. -/
def PERB (Arg0 Arg1 Arg2 Arg3 Arg4 : Integer) : Method σ Integer :=
  serialized .PERB do
    load (.TEMP .PERB (PERB.address Arg0 Arg1 Arg2 Arg3 Arg4))

/-- Read a word. -/
def PERW (Arg0 Arg1 Arg2 Arg3 Arg4 : Integer) : Method σ Integer :=
  serialized .PERW do
    load (.TEMP .PERW (PERB.address Arg0 Arg1 Arg2 Arg3 Arg4))

/-- The offset of the capability `Arg4` of a function, zero when it has none. -/
def STDC (Arg0 Arg1 Arg2 Arg3 Arg4 : Integer) : Method σ Integer :=
  serialized .STDC do
    if (← PERW Arg0 Arg1 Arg2 Arg3 0) = 0xFFFF then
      pure 0
    else if (← PERW Arg0 Arg1 Arg2 Arg3 0x06) &&& 0x10 = 0 then
      pure 0
    else
      let Local2 ← PERB Arg0 Arg1 Arg2 Arg3 0x34
      whileLoop .STDC (fun _ => pure true)
        (fun Local2 => do
          let Local2 := Local2 &&& 0xFC
          if Local2 = 0 then
            pure (.leave 0)
          else if Arg4 = (← PERB Arg0 Arg1 Arg2 Arg3 Local2) then
            pure (.leave Local2)
          else
            pure (.next (← PERB Arg0 Arg1 Arg2 Arg3 (Local2 + 1))))
        id Local2

/-! ### The debug port -/

/-- Replace the bits of `P80D` outside `mask` by `v`, if `Arg0` is the byte `n`. -/
def P8XH.byte (Arg0 n mask v : Integer) : Method σ Unit := do
  if Arg0 = n then
    store .P80D ((← load .P80D) &&& mask ||| v)

/-- Show `Arg1` in the byte `Arg0` of the debug port. -/
def P8XH (Arg0 Arg1 : Integer) : Method σ Unit :=
  serialized .P8XH do
    P8XH.byte Arg0 0 0xFFFFFF00 Arg1
    P8XH.byte Arg0 1 0xFFFF00FF (Arg1 <<< 0x08)
    P8XH.byte Arg0 0x02 0xFF00FFFF (Arg1 <<< 0x10)
    P8XH.byte Arg0 0x03 0x00FFFFFF (Arg1 <<< 0x18)
    store .P80H (← load .P80D)

end Dsdt
