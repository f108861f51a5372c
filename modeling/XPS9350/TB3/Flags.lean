import XPS9350.TB3.Power

/-!
# The ports as flags

An abstract model of the power transitions: the flags of the three ports and nothing else.  A call
of `_PS0` or `_PS3` changes them in a way that depends on the hardware through one bit only, which
the model leaves open.  `Equiv.Flags` proves that every call of the table refines its step.
-/

namespace TB3

open Aml

/-- The flags of the ports; `gate` is `GPCI`, `GNHI` and `GXCI`. -/
@[ext] structure Flags where
  IIP3 : Port → Integer
  PRSR : Port → Integer
  PCIA : Port → Integer
  gate : Port → Integer
  RTBT : Integer
  RUSB : Integer

/-- The flags among the names. -/
def flags (names : Name → Integer) : Flags where
  IIP3 p := names (.IIP3 p)
  PRSR p := names (.PRSR p)
  PCIA p := names (.PCIA p)
  gate p := names p.gate
  RTBT := names .RTBT
  RUSB := names .RUSB

namespace Flags

/-- Whether `POFF` of the port powers it off. -/
def off (s : Flags) : Port → Bool
  | .RP01 => s.RTBT = 0 && s.RUSB = 0
  | .DSB0 => s.RTBT = 0
  | .DSB2 => s.RUSB = 0

/-- `PCDA`: the port is marked as suspended, and as powered off where `POFF` says so. -/
def suspend (p : Port) (s : Flags) : Flags where
  IIP3 := Function.update s.IIP3 p 1
  PRSR := s.PRSR
  PCIA := if s.off p then Function.update s.PCIA p 0 else s.PCIA
  gate := if s.off p then Function.update s.gate p 0 else s.gate
  RTBT := s.RTBT
  RUSB := s.RUSB

/-- `PCEU`: the port is marked as reset when it was not in D0 or had its link disabled. -/
def resume (p : Port) (reset : Bool) (s : Flags) : Flags :=
  { s with PRSR := Function.update s.PRSR p (if reset then 1 else 0) }

/-- `PCED`: the link below the port is up again. -/
def relink (p : Port) (up : Bool) (s : Flags) : Flags where
  IIP3 := Function.update s.IIP3 p 0
  PRSR := Function.update s.PRSR p 0
  PCIA := if up then Function.update s.PCIA p 1 else s.PCIA
  gate := Function.update s.gate p 1
  RTBT := s.RTBT
  RUSB := s.RUSB

/-- One call; `b` is what it learns from the hardware. -/
def step (b : Bool) : Call → Flags → Flags
  | .PS3 .RP01 => suspend .RP01
  | .PS3 .DSB0 => suspend .DSB0
  | .PS3 .DSB2 => suspend .DSB2
  | .PS0 .RP01 => resume .RP01 b
  | .PS0 .DSB0 => resume .DSB0 b
  | .PS0 .DSB2 => resume .DSB2 b
  | .PS0 .UPSB => relink .RP01 b
  | .PS0 .NHI0 => relink .RP01 b
  | .PS0 .XHC2 => relink .DSB2 b
  | _ => id

/-- A sequence of calls, whatever each of them learns from the hardware. -/
inductive Run : List Call → Flags → Flags → Prop
  | nil {s : Flags} : Run [] s s
  | cons {c : Call} {cs : List Call} {s s' : Flags} (b : Bool) (h : Run cs (s.step b c) s') :
      Run (c :: cs) s s'

/-- The bookkeeping of a port that is neither suspended nor being brought up. -/
structure Neutral (p : Port) (s : Flags) : Prop where
  IIP3 : s.IIP3 p = 0
  PRSR : s.PRSR p = 0
  gate : s.gate p = 1

end Flags

end TB3
