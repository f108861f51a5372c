import XPS9350.TB3.H530

/-!
# The device behind the mailbox

An abstract model of the device that `CIOR`, `CIOW` and `CRMW` talk to: a file of registers, and a
mailbox that performs one command at a time on it.  A command is started by setting `PROG`; the
device clears it after a number of polls that may be different every time.
-/

namespace TB3

open Aml

/-- Space, port and index of a register. -/
abbrev Address : Type := BitVec 2 × BitVec 6 × BitVec 13

/-- The register that a command is about. -/
def Command.address (c : Command) : Address := (c.SPCE, c.PORT, c.DWIX)

/-- The state of the device: its registers, the dwords of the mailbox, the number of polls that the
current command still takes, the number of commands started, and everything outside of `H530`. -/
structure Router where
  file : Address → BitVec 32
  command : BitVec 32
  wdat : BitVec 32
  rdat : BitVec 32
  pending : ℕ
  started : ℕ
  regs : (f : Field) → BitVec f.width

namespace Router

/-- The command dword when the command is done: `PROG` and `TMOT` are cleared. -/
def finished (d : BitVec 32) : BitVec 32 := (0 : BitVec 1).insertAt 31 ((0 : BitVec 1).insertAt 30 d)

/-- Perform the command `c`: store the data to the addressed register or load from it. -/
def perform (c : Command) (s : Router) : Router :=
  if c.CMD0 = 1 then { s with file := Function.update s.file c.address s.wdat }
  else { s with rdat := s.file c.address }

/-- A write of `d` to the command dword that sets `PROG`; the device takes `latency i` polls for the
`i`-th command. -/
def start (latency : ℕ → ℕ) (d : BitVec 32) (s : Router) : Router :=
  { (s.perform (.ofDword d)) with
    command := d, pending := latency s.started, started := s.started + 1 }

/-- A read of the command dword. -/
def readCommand (s : Router) : BitVec 32 × Router :=
  if PROG s.command = 1 then
    match s.pending with
    | 0 => (finished s.command, { s with command := finished s.command })
    | k + 1 => (s.command, { s with pending := k })
  else (s.command, s)

/-- A write to the command dword. -/
def writeCommand (latency : ℕ → ℕ) (d : BitVec 32) (s : Router) : Router :=
  if PROG s.command = 0 ∧ PROG d = 1 then s.start latency d else { s with command := d }

/-- The mailbox. -/
def device (latency : ℕ → ℕ) : Device Dword Router where
  read
    | .command, s => s.readCommand
    | .WDAT, s => (s.wdat, s)
    | .RDAT, s => (s.rdat, s)
  write
    | .command, d, s => s.writeCommand latency d
    | .WDAT, d, s => { s with wdat := d }
    | .RDAT, d, s => { s with rdat := d }

/-- The registers outside of the mailbox. -/
def others : Hardware tb3 Router where
  load f s := (s.regs f, s)
  store f v s := { s with regs := Function.update s.regs f v }
  sleep _ s := s
  stall _ s := s
  timer s := (0, s)

/-- The device with its registers. -/
def hardware (latency : ℕ → ℕ) : Hardware tb3 Router := others.withDwords H530 (device latency)

end Router

end TB3
