import XPS9350.Aml.Prog

/-!
# The objects of the DSDT

The field units, names and loops of the DSDT that its Thunderbolt hot plug handler uses, and those
of its GPIO controller, under the table's own names.  A method that declares an operation region of
its own puts it where its arguments say, so such a field unit carries the address of the region,
and the method too where several declare the same one.

The mutex `OSUM`, the event `WFEV` and `Notify` are invocations that the log records; what they do
to other threads is the matter of `Sync`.  A `Serialized` method runs under a mutex of its own.
-/

namespace Dsdt

open Aml

/-- Methods that declare a region with the mailbox or another field unit they share the name of. -/
inductive Owner where
  | MMTB | TSUB | FFTB | SXTB | OSUP | DMSI | RSMI | GNIS | CNCT | CLNE | PERB | PERW
  deriving DecidableEq

/-- The field units of one pad: those of its two configuration dwords. -/
inductive PadField where
  /-- `TEMP` of the accessors that read or write a whole dword. -/
  | PDW0 | PDW1
  /-- `TEMP` of `SGOV` and `GGOV`, `GGIV`, `GPMV` and `SPMV`, `SGRA`, `GGII` and `SGII`, `SRXO`. -/
  | GGOV | GGIV | GPMV | SGRA | GGII | SRXO
  /-- `TEMP` of `SGWP`. -/
  | SGWP
  /-- Those of `DIPI` and `UIPI`. -/
  | RDIS | RCFG
  deriving DecidableEq

/-- The integer objects. -/
inductive Name where
  | _REV | TBSW
  /-- The entries of the packages `GPES` and `RXEV`. -/
  | GPES (Arg0 : Integer) | RXEV (Arg0 : Integer)
  /-- An integer in the package `CACH` of `GEXP`. -/
  | CACH (Arg0 Arg1 Arg2 : Integer)
  deriving DecidableEq

/-- The field units. -/
inductive Field where
  /-- The mailbox between PCIe and Thunderbolt, in the region `PXVD` of a method. -/
  | TB2P (m : Owner) (a : Integer) | P2TB (m : Owner) (a : Integer)
  /-- `TBFF`, `GNIS` and `TINI`. -/
  | VEDI (a : Integer) | HPFI (a : Integer) | REG6 (a : Integer)
  /-- The secondary bus number of the root port. -/
  | SBUS (m : Owner) (a : Integer)
  /-- `PGWA`. -/
  | PWRS (a : Integer) | LNKD (a : Integer) | VCNP (a : Integer) | TREN (a : Integer)
  /-- `DRPM`. -/
  | MSIC (a : Integer)
  /-- A byte or word of `CNCT`, `CLNE`, `PERB` and `PERW`. -/
  | TEMP (m : Owner) (a : Integer)
  /-- The command port of the firmware and the debug port. -/
  | SSMP | P80H
  /-- `GNVS`, `PNVA` and `SANV`, what the firmware has set up. -/
  | TBTS | TBSE | NOHP | TNAT | CF2T | CPGN | GP5F | TBSF | SOHP | DPTF | DDDR | OSYS | AICS
  | FPAT | FPEN | FPGN | FPLV | CPAD | CPAB | P80D | DSTS | POWS
  | PCHS | SBRG | GPEM | G2L (Arg0 : Integer)
  | RTD3 | SGGP | P1GP | P2GP | P0WK | P1WK | P2WK
  /-- `RPA1`, …, `RPAK`. -/
  | RPA (Arg0 : Integer)
  /-- A pad of the GPIO controller. -/
  | pad (f : PadField) (a : Integer)
  /-- Registers of a pad group: `TEMP` of `GHPO` and `SHPO`, `TEMP` of `GGPO`, `STSX`, `GENX`. -/
  | HOWN (a : Integer) | POWN (a : Integer) | STSX (a : Integer) | GENX (a : Integer)
  /-- `GEXP`: its bus controller, the power state of one, and `SB10`, …, `SB00`, …, `SMD0`, …. -/
  | ICON | TAR | DATA | HCNT | LCNT | RBCK | CLR | ENB | ACTV | HOLD | ENSB | RST
  | D0D3 (a : Integer) | GEXN
  | SB1 (Arg0 : Integer) | SB0 (Arg0 : Integer) | SMD (Arg0 : Integer)
  /-- The vendor and device id of the root port `RP01`, …, `RP20`. -/
  | VDID (Arg0 : Integer)
  deriving DecidableEq

/-- The width of the field units of a pad. -/
def PadField.width : PadField → Nat
  | .PDW0 | .PDW1 => 32
  | .GPMV => 3
  | .SGWP => 4
  | .RCFG => 2
  | _ => 1

/-- The width of a field unit as its `Field` list declares it. -/
def Field.width : Field → Nat
  | .SBUS _ _ | .SSMP => 8
  | .PWRS _ => 2
  | .HPFI _ | .LNKD _ | .VCNP _ | .TREN _ | .MSIC _ => 1
  | .TEMP .PERW _ => 16
  | .TEMP _ _ => 8
  | .TBTS | .TBSE | .NOHP | .TNAT | .CF2T | .GP5F | .TBSF | .SOHP | .DPTF | .DDDR | .AICS => 8
  | .FPAT | .FPEN | .FPLV | .CPAB | .DSTS | .POWS | .RTD3 | .SGGP | .P1GP | .P2GP => 8
  | .OSYS | .CPAD | .PCHS => 16
  | .pad f _ => f.width
  | .ENB | .ACTV | .ENSB => 1
  | .D0D3 _ => 2
  | .GEXN | .SMD _ => 8
  | _ => 32

/-- The objects that `Notify` is called on. -/
inductive Target where
  | RP (Arg0 : Integer) | PEG (Arg0 : Integer)
  deriving DecidableEq

/-- The mutex `OSUM`, and the methods that are `Serialized`. -/
inductive Lock where
  | OSUM
  | THDR | RWAK | _INI
  | OSUP | PGWA | TBFF | TSUB | NTFY | MMTB | TBTD | TBTF | PERB | PERW | STDC | P8XH
  | CGWR | CGRD
  | SGEP | GEPS | CSER | RREG | WREG | PS0 | PS3
  /-- Those of the GPIO controller. -/
  | GPC0 | SPC0 | GPC1 | SPC1 | SRXO | GGIV | GGOV | SGOV | GGII | SGII | GPMV | SPMV | GHPO | SHPO
  | GGPO | SGRA | SGWP | UGP1 | UGPS | CGP1 | CGPS | CGLS | CAGS | DIPI | UIPI
  deriving DecidableEq

/-- Invocations that the log records. -/
inductive Invocation where
  /-- `Acquire` and `Release`, with a timeout that never ends. -/
  | Acquire (m : Lock) | Release (m : Lock)
  /-- `Wait`, `Signal` and `Reset` of `WFEV`. -/
  | Wait | Signal | Reset
  | Notify (o : Target) (v : Integer)
  /-- The methods that use the mailbox, `NTFY`, `TINI` and `TBFP`. -/
  | OSUP (Arg0 : Integer) | TBFF | NTFY | TINI | TBFP (Arg0 : Integer)
  deriving DecidableEq

/-- The `While` statements, and `_E42`, which ends by calling itself. -/
inductive Loop where
  | OSUP | PGWA | WSUB | CNCT | CLNE | DMSI | RSMI | STDC | _E42
  | INUM | UGPS | CGPS | CGLS
  | INVC | WREGon | WREGbusy | WREGoff | RREGon | RREGbusy | RREGoff
  deriving DecidableEq

/-- The table. -/
abbrev dsdt : Signature where
  Name := Name
  Field := Field
  Method := Invocation
  Loop := Loop
  width := Field.width

/-- The body of a control method. -/
abbrev Method (σ α : Type) : Type := Prog dsdt σ α

end Dsdt
