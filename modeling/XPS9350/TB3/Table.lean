import XPS9350.Aml.Prog

/-!
# The objects of the Thunderbolt table

The names, field units and loops of `patches/thunderbolt/SSDT-TB3.dsl` that its power and
initialisation methods use, under the table's own names, together with the two field units of
`_GPE.OSUP` in the DSDT.  Every name that the table declares more than once (`IIP3` of `RP01`,
`DSB0` and `DSB2`, `AVND` of four devices) carries the device it is declared in.
-/

namespace TB3

open Aml

/-- The devices with methods: `RP01` is the root port, `UPSB` the upstream port below it, and the
other four are its downstream ports `DSB0` and `DSB2` with their children. -/
inductive Scope where
  | RP01 | UPSB | DSB0 | NHI0 | DSB2 | XHC2
  deriving DecidableEq

/-- The device that a device is declared in; that of `RP01` is outside the table. -/
def Scope.parent : Scope → Option Scope
  | .RP01 => none
  | .UPSB => some .RP01
  | .DSB0 | .DSB2 => some .UPSB
  | .NHI0 => some .DSB0
  | .XHC2 => some .DSB2

/-- The devices that declare a method `PCED`. -/
def Scope.declaresPCED : Scope → Bool
  | .UPSB | .XHC2 => true
  | _ => false

/-- The upward search of ACPI for a single name segment: the device itself first, then the devices
around it, `n` of them at most. -/
def Scope.search (declares : Scope → Bool) : Nat → Scope → Option Scope
  | 0, _ => none
  | n + 1, s => if declares s then some s else s.parent.bind (Scope.search declares n)

/-- The device whose `PCED` an unqualified call in the device `s` runs. -/
def Scope.resolvePCED (s : Scope) : Option Scope := s.search Scope.declaresPCED 4

example : Scope.resolvePCED .NHI0 = some .UPSB := rfl
example : Scope.resolvePCED .XHC2 = some .XHC2 := rfl

/-- The ports with a `PCEU`/`PCDA` pair and the flags `IIP3`, `PRSR` and `PCIA`. -/
inductive Port where
  | RP01 | DSB0 | DSB2
  deriving DecidableEq

/-- The device of a port. -/
def Port.scope : Port → Scope
  | .RP01 => .RP01
  | .DSB0 => .DSB0
  | .DSB2 => .DSB2

/-- The integer objects. -/
inductive Name where
  /-- Saved registers of the root port. -/
  | R020 | R024 | R028 | R02C
  /-- Saved registers of `UPSB`. -/
  | R118 | R119 | R11A | R11C | R120 | R124 | R128 | R12C
  /-- Saved registers of `DSB0`. -/
  | R218 | R219 | R21A | R21C | R220 | R224 | R228 | R22C
  /-- Saved registers of `DSB1`. -/
  | R318 | R319 | R31A | R31C | R320 | R324 | R328 | R32C
  /-- Saved registers of `DSB2`. -/
  | R418 | R419 | R41A | R41C | R420 | R424 | R428 | R42C | RVES
  /-- Saved registers of `NHI0`. -/
  | RH10 | RH14
  | IIP3 (p : Port) | PRSR (p : Port) | PCIA (p : Port)
  | GPCI | GNHI | GXCI | RTBT | RUSB | CTPD | POC0
  deriving DecidableEq

/-- The values that the table is loaded with. -/
def Name.init : Name → Integer
  | .PCIA _ | .GPCI | .GNHI | .GXCI | .RTBT | .RUSB => 1
  | _ => 0

/-- The field units. -/
inductive Field where
  /-- `RPSM`, the root port. -/
  | RPR4 | R_20 | R_24 | R_28 | R_2C | RPLT
  /-- `UPSM`, the upstream port. -/
  | UPVD | UP04 | UP18 | UP19 | UP1A | UP1C | UP20 | UP24 | UP28 | UP2C | UPLT | T2PR | P2TR
  /-- `DNSM`, `DSB0`. -/
  | DP04 | DP18 | DP19 | DP1A | DP1C | DP20 | DP24 | DP28 | DP2C | DPLT
  /-- `DS3M`, `DSB1`. -/
  | D304 | D318 | D319 | D31A | D31C | D320 | D324 | D328 | D32C
  /-- `DS4M`, `DSB2`. -/
  | D404 | D418 | D419 | D41A | D41C | D420 | D424 | D428 | D42C | DVES
  /-- `NHIM`, the native host interface. -/
  | NH04 | NH10 | NH14
  /-- `RSTR`, its firmware status. -/
  | ICME
  /-- `A1E0`, the first configuration registers of a device. -/
  | AVND (s : Scope) | MABT
  /-- `A1E1`, the link registers of a port. -/
  | SSPD (s : Scope) | LACR (p : Port) | LDXX | LDIS (p : Port) | LRTN | CSPD | LTRN (p : Port)
  | LACT (p : Port) | TSPD (s : Scope)
  /-- `A1E2`, the power state of a port. -/
  | PSTA (p : Port)
  /-- `H530`, the mailbox of `UPSB`. -/
  | DWIX | PORT | SPCE | CMD0 | CMD1 | CMD2 | PROG | TMOT | WDAT | RDAT
  /-- `PXVD`, declared inside `_GPE.OSUP`. -/
  | TB2P | P2TB
  deriving DecidableEq

/-- The width of a field unit as its `Field` list declares it. -/
def Field.width : Field → Nat
  | .RPLT | .UPLT | .DPLT => 1
  | .RPR4 | .UP04 | .DP04 | .D304 | .D404 | .NH04 => 8
  | .UP18 | .UP19 | .UP1A | .DP18 | .DP19 | .DP1A => 8
  | .D318 | .D319 | .D31A | .D418 | .D419 | .D41A => 8
  | .UP1C | .DP1C | .D31C | .D41C => 16
  | .MABT | .LACR _ | .LDXX | .LDIS _ | .LRTN | .LTRN _ | .LACT _ => 1
  | .SSPD _ | .CSPD | .TSPD _ => 4
  | .PSTA _ => 2
  | .DWIX => 13
  | .PORT => 6
  | .SPCE => 2
  | .CMD0 | .CMD1 | .CMD2 | .PROG | .TMOT => 1
  | _ => 32

/-- The methods of the two mailboxes, with their arguments. -/
inductive Invocation where
  | CIOW (Arg0 Arg1 Arg2 Arg3 : Integer)
  | CIOR (Arg0 Arg1 Arg2 : Integer)
  | OSUP (Arg0 : Integer)
  deriving DecidableEq

/-- The `While` statements, under the name of their method where it has only one. -/
inductive Loop where
  | TBTC
  | PCDA (p : Port)
  | UTLK | UTLKtrain | UTLKpresent
  | ICMD
  | CNHIrp | CNHIup | CNHIdsb | CNHInhi
  | WTDL | WTLT
  /-- Those of `UPSB.PCED`, in order. -/
  | PCEDgen1train | PCEDgen1present | PCEDtrain | PCEDpresent | PCEDgen3
  /-- Those of `XHC2.PCED`, in order. -/
  | XHC2train | XHC2present
  | CIOW | CIOR | CRMW
  | OSUP
  deriving DecidableEq

/-- The table. -/
abbrev tb3 : Signature where
  Name := Name
  Field := Field
  Method := Invocation
  Loop := Loop
  width := Field.width

/-- The body of a control method. -/
abbrev Method (σ α : Type) : Type := Prog tb3 σ α

/-- The state right after the table is loaded. -/
def loaded {σ : Type} (h : σ) : State tb3 σ := ⟨Name.init, h⟩

end TB3
