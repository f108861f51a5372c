import XPS9350.TB3.Table

/-!
# The mailbox of the upstream port

`CIOW`, `CIOR` and `CRMW` of `UPSB`: a command is written to the dword at configuration offset
`0x530` field by field and started by setting `PROG`, which the device clears when it is done.
-/

namespace TB3.UPSB

open Aml Aml.Prog

variable {σ : Type}

/-- The wait of `CIOW` and `CIOR` for the device to clear `PROG`: zero when it did within `0x2710`
polls, one otherwise. -/
def poll (l : Loop) : Method σ Integer :=
  whileLoop l (fun Local0 => pure (decide (0 < Local0)))
    (fun Local0 => do
      if (← load .PROG) = 0 then
        pure (.leave 0)
      else
        stall 0x19
        pure (.next (Local0 - 1)))
    (fun _ => 1) (0x2710 : Integer)

/-- The stores of `CIOW` and `CIOR` that fill in the command and start it. -/
def command (Arg0 Arg1 Arg2 cmd0 : Integer) : Method σ Unit := do
  store .DWIX Arg0
  store .PORT Arg1
  store .SPCE Arg2
  store .CMD0 cmd0
  store .CMD1 0
  store .CMD2 0
  store .TMOT 0
  store .PROG 1

/-- The end of `CIOW` and `CIOR`: a command that completed may still have timed out. -/
def status (l : Loop) : Method σ Integer := do
  let Local1 ← poll l
  if Local1 = 0 then load .TMOT else pure Local1

/-- Write `Arg3` to register `Arg0` of port `Arg1` in space `Arg2`; zero on success. -/
def CIOW (Arg0 Arg1 Arg2 Arg3 : Integer) : Method σ Integer :=
  call (.CIOW Arg0 Arg1 Arg2 Arg3) do
    store .WDAT Arg3
    command Arg0 Arg1 Arg2 1
    status .CIOW

/-- Read register `Arg0` of port `Arg1` in space `Arg2`: the status and the data. -/
def CIOR (Arg0 Arg1 Arg2 : Integer) : Method σ (Integer × Integer) :=
  call (.CIOR Arg0 Arg1 Arg2) do
    store .RDAT 0
    command Arg0 Arg1 Arg2 0
    let Local1 ← status .CIOR
    if Local1 = 0 then
      return (0, ← load .RDAT)
    else
      return (1, ← load .RDAT)

/-- One attempt of `CRMW`: read, write the merged word, read back; whether the bits under the mask
`Arg4` read back as `Arg3`. -/
def CRMW.attempt (Arg0 Arg1 Arg2 Arg3 Arg4 : Integer) : Method σ Bool := do
  let Local2 ← CIOR Arg0 Arg1 Arg2
  if Local2.1 = 0 then
    let Local2 ← CIOW Arg0 Arg1 Arg2 (Local2.2 &&& ~~~Arg4 ||| Arg3)
    if Local2 = 0 then
      let Local2 ← CIOR Arg0 Arg1 Arg2
      if Local2.1 = 0 then
        pure (decide (Local2.2 &&& Arg4 = Arg3))
      else pure false
    else pure false
  else pure false

/-- Replace the bits of a register under the mask `Arg4` by `Arg3`, in at most five attempts; zero
on success. -/
def CRMW (Arg0 Arg1 Arg2 Arg3 Arg4 : Integer) : Method σ Integer := do
  if (← load (.AVND .UPSB)) ≠ 0xFFFFFFFF then
    whileLoop .CRMW (fun Local3 => pure (decide (Local3 ≤ 0x04)))
      (fun Local3 => do
        if ← CRMW.attempt Arg0 Arg1 Arg2 Arg3 Arg4 then
          pure (.leave 0)
        else
          sleep 0x64
          pure (.next (Local3 + 1)))
      (fun _ => 1) (0 : Integer)
  else
    pure 1

end TB3.UPSB
