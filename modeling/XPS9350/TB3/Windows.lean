import XPS9350.TB3.Icm

/-!
# The memory windows

The operation regions of the table in system memory, through which it reaches the configuration
space of the Thunderbolt controller.  They are declared at scope level, so their addresses are
evaluated once, when the table is loaded; `Window.base` gives these.  `Window.live` gives the
addresses that the same expressions, and the DSDT's `MMTB`, have in any other state.
-/

namespace TB3

open Aml

/-- What the addresses depend on besides the memory: the configuration base that `GPCB` returns,
and the device and function number of the root port. -/
structure Platform where
  GPCB : Integer
  TBTD : Integer
  TBTF : Integer

/-- Physical memory, in which the configuration space lies. -/
abbrev Memory := Integer → BitVec 8

namespace Platform

variable (P : Platform) (m : Memory)

/-- PCI base address of a bus, device and function. -/
def MMIO (Arg0 Arg1 Arg2 : Integer) : Integer :=
  P.GPCB + (Arg0 <<< 20) + (Arg1 <<< 15) + (Arg2 <<< 12)

/-- `MMRP` of the DSDT: the configuration base of the root port. -/
def MMRP : Integer := P.GPCB + (P.TBTD <<< 0x0F) + (P.TBTF <<< 0x0C)

/-- The secondary bus number of the root port, in the region `MMMM` that `MMTB` declares. -/
def SBUS : BitVec 8 := m (P.MMRP + 0x19)

/-- `MMTB` of the DSDT: the configuration base of the upstream port. -/
def MMTB : Integer := P.GPCB + (P.SBUS m).setWidth 64 * 0x00100000

/-- The secondary bus number of `UPSB`. -/
def UP19 : BitVec 8 := m (P.MMTB m + 0x19)

/-- The secondary bus number of `DSB0`. -/
def DP19 : BitVec 8 := m (P.MMIO ((P.UP19 m).setWidth 64) 0 0 + 0x19)

end Platform

/-- The windows. -/
inductive Window where
  | UPSM | DNSM | DS3M | DS4M | NHIM
  deriving DecidableEq

namespace Window

/-- `UP19`, read through `UPSM` when the table is loaded. -/
def loadedUP19 (m₀ : Memory) : BitVec 8 := m₀ (0x00000000EF000000 + 0x19)

/-- `DP19`, read through `DNSM` when the table is loaded. -/
def loadedDP19 (P : Platform) (m₀ : Memory) : BitVec 8 :=
  m₀ (P.MMIO ((loadedUP19 m₀).setWidth 64) 0 0 + 0x19)

/-- The address of a window, `m₀` being the memory when the table is loaded. -/
def base (P : Platform) (m₀ : Memory) : Window → Integer
  | .UPSM => 0x00000000EF000000
  | .DNSM => P.MMIO ((loadedUP19 m₀).setWidth 64) 0 0
  | .DS3M => P.MMIO ((loadedUP19 m₀).setWidth 64) 1 0
  | .DS4M => P.MMIO ((loadedUP19 m₀).setWidth 64) 2 0
  | .NHIM => P.MMIO ((loadedDP19 P m₀).setWidth 64) 0 0

/-- The address that a window is meant to have, with the bus numbers in force. -/
def live (P : Platform) (m : Memory) : Window → Integer
  | .UPSM => P.MMTB m
  | .DNSM => P.MMIO ((P.UP19 m).setWidth 64) 0 0
  | .DS3M => P.MMIO ((P.UP19 m).setWidth 64) 1 0
  | .DS4M => P.MMIO ((P.UP19 m).setWidth 64) 2 0
  | .NHIM => P.MMIO ((P.DP19 m).setWidth 64) 0 0

end Window

/-- The window of a field unit and its offset in bits. -/
def Field.window : Field → Option (Window × ℕ)
  | .UPVD => some (.UPSM, 8 * 0x00)
  | .UP04 => some (.UPSM, 8 * 0x04)
  | .UP18 => some (.UPSM, 8 * 0x18)
  | .UP19 => some (.UPSM, 8 * 0x19)
  | .UP1A => some (.UPSM, 8 * 0x1A)
  | .UP1C => some (.UPSM, 8 * 0x1C)
  | .UP20 => some (.UPSM, 8 * 0x20)
  | .UP24 => some (.UPSM, 8 * 0x24)
  | .UP28 => some (.UPSM, 8 * 0x28)
  | .UP2C => some (.UPSM, 8 * 0x2C)
  | .UPLT => some (.UPSM, 8 * 0xD2 + 11)
  | .T2PR => some (.UPSM, 8 * 0x548)
  | .P2TR => some (.UPSM, 8 * 0x54C)
  | .DP04 => some (.DNSM, 8 * 0x04)
  | .DP18 => some (.DNSM, 8 * 0x18)
  | .DP19 => some (.DNSM, 8 * 0x19)
  | .DP1A => some (.DNSM, 8 * 0x1A)
  | .DP1C => some (.DNSM, 8 * 0x1C)
  | .DP20 => some (.DNSM, 8 * 0x20)
  | .DP24 => some (.DNSM, 8 * 0x24)
  | .DP28 => some (.DNSM, 8 * 0x28)
  | .DP2C => some (.DNSM, 8 * 0x2C)
  | .DPLT => some (.DNSM, 8 * 0xD2 + 11)
  | .D304 => some (.DS3M, 8 * 0x04)
  | .D318 => some (.DS3M, 8 * 0x18)
  | .D319 => some (.DS3M, 8 * 0x19)
  | .D31A => some (.DS3M, 8 * 0x1A)
  | .D31C => some (.DS3M, 8 * 0x1C)
  | .D320 => some (.DS3M, 8 * 0x20)
  | .D324 => some (.DS3M, 8 * 0x24)
  | .D328 => some (.DS3M, 8 * 0x28)
  | .D32C => some (.DS3M, 8 * 0x2C)
  | .D404 => some (.DS4M, 8 * 0x04)
  | .D418 => some (.DS4M, 8 * 0x18)
  | .D419 => some (.DS4M, 8 * 0x19)
  | .D41A => some (.DS4M, 8 * 0x1A)
  | .D41C => some (.DS4M, 8 * 0x1C)
  | .D420 => some (.DS4M, 8 * 0x20)
  | .D424 => some (.DS4M, 8 * 0x24)
  | .D428 => some (.DS4M, 8 * 0x28)
  | .D42C => some (.DS4M, 8 * 0x2C)
  | .DVES => some (.DS4M, 8 * 0x564)
  | .NH04 => some (.NHIM, 8 * 0x04)
  | .NH10 => some (.NHIM, 8 * 0x10)
  | .NH14 => some (.NHIM, 8 * 0x14)
  | _ => none

/-- The window and offset of an access. -/
def access : Event tb3 → Option (Window × ℕ)
  | .load f _ | .store f _ => f.window
  | _ => none

/-! ### The functions behind them -/

/-- The root port and the functions of the controller. -/
inductive Device where
  | RP | UPSB | DSB0 | DSB1 | DSB2 | NHI0
  deriving DecidableEq

/-- The function that a window shows. -/
def Window.device : Window → Device
  | .UPSM => .UPSB
  | .DNSM => .DSB0
  | .DS3M => .DSB1
  | .DS4M => .DSB2
  | .NHIM => .NHI0

/-- The offset in bits of a register of the root port in `RPSM`. -/
def Field.rpsm : Field → Option ℕ
  | .RPR4 => some (8 * 0x04)
  | .R_20 => some (8 * 0x20)
  | .R_24 => some (8 * 0x24)
  | .R_28 => some (8 * 0x28)
  | .R_2C => some (8 * 0x2C)
  | .RPLT => some (8 * 0x52 + 11)
  | _ => none

/-- The dword that a configuration register lies in, as its function and number, and the bit it
starts at.  All these regions are declared with `DWordAcc` and `Preserve`. -/
def Field.dword (f : Field) : Option ((Device × ℕ) × ℕ) :=
  match f.window with
  | some (r, n) => some ((r.device, n / 32), n % 32)
  | none => f.rpsm.map fun n => ((.RP, n / 32), n % 32)

/-- The function of a configuration register. -/
def Field.device (f : Field) : Option Device := f.dword.map fun x => x.1.1

/-! ### Runs -/

/-- The methods that use the windows. -/
inductive WindowCall where
  | UPCK
  | TBTC (Arg0 : Integer)
  | ULTC
  | DLTC
  | CNHI

variable {σ : Type}

/-- The method behind a call. -/
def WindowCall.run : WindowCall → Method σ Unit
  | .UPCK => do let _ ← RP01.UPCK
  | .TBTC Arg0 => do let _ ← RP01.TBTC Arg0
  | .ULTC => do let _ ← RP01.ULTC
  | .DLTC => do let _ ← RP01.DLTC
  | .CNHI => do let _ ← RP01.CNHI

/-- A step of a run: one of the methods is called, or others change the state in any way. -/
inductive WindowStep (σ : Type) where
  | call (c : WindowCall)
  | other (change : State tb3 σ → State tb3 σ)

/-- The world after a step. -/
def WindowStep.run (env : Env tb3 σ) : WindowStep σ → World tb3 σ → World tb3 σ
  | .call c, w => (c.run env w).2
  | .other change, w => { w with toState := change w.toState }

/-- The world after a sequence of steps. -/
def runWindows (env : Env tb3 σ) (steps : List (WindowStep σ)) (w : World tb3 σ) : World tb3 σ :=
  steps.foldl (fun w step => step.run env w) w

end TB3
