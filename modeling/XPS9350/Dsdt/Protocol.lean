import XPS9350.Aml.Threads
import XPS9350.Dsdt.Sleep

/-!
# The locks and the gate of the table

The mutexes are the locks and the event `WFEV` is the gate.  What belongs inside `OSUM` is the
handshake of `OSUP`, `TBFF` and `TINI`, with the bus that `TINI` gives the root port for it, and
`NTFY`.  The locks of `Serialized` methods are ranked by who calls whom.
-/

namespace Dsdt

open Aml Aml.Prog

/-- What an event does to the locks and the gate. -/
def kind : Event dsdt → Sync.Kind Lock
  | .enter (.Acquire m) => .acquire m
  | .enter (.Release m) => .release m
  | .enter .Wait => .wait
  | .enter .Signal => .signal
  | .enter .Reset => .reset
  | .enter (.OSUP _) | .enter .TBFF | .enter .TINI | .enter .NTFY => .inside .OSUM
  | .load (.TB2P .OSUP _) _ | .store (.P2TB .OSUP _) _ => .inside .OSUM
  | .load (.VEDI _) _ | .load (.REG6 _) _ | .store (.REG6 _) _ => .inside .OSUM
  | _ => .plain

/-- The order in which locks are taken. -/
def rank : Lock → ℕ
  | .THDR | .RWAK | ._INI => 0
  | .OSUM => 1
  | .TBFF | .NTFY | .PGWA | .STDC | .CGWR | .CGRD | .UGPS | .CGPS | .CGLS => 2
  | .TBTD | .TBTF | .CSER => 4
  | .RREG | .WREG | .PS0 | .PS3 => 5
  | _ => 3

/-- Nobody waits at the gate with `OSUM` acquired. -/
def protocol : Sync.Protocol Lock (Event dsdt) := ⟨kind, rank, 1⟩

/-! ### Threads -/

/-- The methods that the system starts threads with. -/
inductive Task where
  | _E42 | THDR | _L6F
  | _INI (_OSI : String → Bool) | RPTS (Arg0 : Integer) | RWAK (Arg0 : Integer)

variable {σ : Type}

/-- The body of a task. -/
def Task.run (GPCB : Integer) : Task → Method σ Unit
  | ._E42 => Dsdt._E42 GPCB
  | .THDR => Dsdt.THDR GPCB
  | ._L6F => Dsdt._L6F GPCB
  | ._INI _OSI => Dsdt._INI GPCB _OSI
  | .RPTS Arg0 => Dsdt.RPTS GPCB Arg0
  | .RWAK Arg0 => Dsdt.RWAK GPCB Arg0

/-- The tasks that open the gate. -/
def Task.opener : Task → Bool
  | ._INI _ | .RWAK _ => true
  | _ => false

/-- The processor ports that `_L6F` looks after: the setting that says so and the name of the pad. -/
def processorPorts : List (Field × Field) := [(.SGGP, .P0WK), (.P1GP, .P1WK), (.P2GP, .P2WK)]

/-! ### What the methods end with -/

section Ends

variable (GPCB : Integer)

/-- The second half of `PGWA`, where the link is enabled again. -/
def PGWA.link (Local0 : Integer) : Method σ Unit := do
  if (← load (.LNKD (Local0 + 0xB0))) ≠ 0 then
    store (.LNKD (Local0 + 0xB0)) 0
    store (.TREN (Local0 + 0x508)) 1
    whileLoop .PGWA (fun Local6 => pure (decide (Local6 < 0x64)))
      (fun Local6 => do
        if (← load (.VCNP (Local0 + 0x11A))) = 0 then
          pure (.leave ())
        else
          sleep 0x10
          pure (.next (Local6 + 0x10)))
      (fun _ => ()) (0 : Integer)

/-- The end of `_E42.handle` with a notification. -/
def _E42.leave : Method σ (Prog.Flow Unit Unit) := do
  NTFY
  sleep 0x10
  Release .OSUM
  pure (.leave ())

/-- `_E42.pass` from the gate on. -/
def _E42.attempt : Method σ (Prog.Flow Unit Unit) := do
  WWAK
  WSUB GPCB
  if ← _E42.native GPCB then
    pure (.leave ())
  else if (← GNIS GPCB) ≠ 0 then
    pure (.leave ())
  else
    PGWA GPCB
    Acquire .OSUM
    _E42.handle GPCB

/-- The end of `RPTS`. -/
def RPTS.last (Arg0 : Integer) : Method σ Unit := do
  if Arg0 = 0x05 then
    store .SSMP 0xE3

/-- The end of `RWAK`, which opens the gate. -/
def RWAK.last : Method σ Unit := do
  if (← load .TBTS) = 1 then
    Signal

/-- `RWAK` after the handshake. -/
def RWAK.ports : Method σ Unit := do
  rootPorts.forM RWAK.notify
  RWAK.last

/-- `RWAK` after the debug port. -/
def RWAK.wake (Arg0 : Integer) : Method σ Unit := do
  if Arg0 = 0x03 ∨ Arg0 = 0x04 then
    if (← load .TBTS) = 1 then
      Acquire .OSUM
      TINI GPCB
      Release .OSUM
    rootPorts.forM RWAK.notify
  RWAK.last

end Ends

/-! ### Runs -/

/-- The thread `es` is a run of the task, up to its end or up to some point of a loop without end.
The hardware is arbitrary: what the others do to the registers meanwhile is part of it. -/
def Task.Spawns (GPCB : Integer) (T : Task) (es : List (Event dsdt)) : Prop :=
  ∃ (σ : Type) (env : Env dsdt σ) (s : State dsdt σ),
    es = (T.run GPCB env s.world).2.events.reverse

/-- The thread `es` is a run of the task up to its end. -/
def Task.Completes (GPCB : Integer) (T : Task) (es : List (Event dsdt)) : Prop :=
  ∃ (σ : Type) (env : Env dsdt σ) (s : State dsdt σ) (w : World dsdt σ),
    T.run GPCB env s.world = (some (), w) ∧ es = w.events.reverse

end Dsdt
