import XPS9350.Bytes.Patch

/-!
# The ACPI patches of `config.plist`

The entries of `ACPI/Patch`: the words they look for, the words they put in their place and whether
they are enabled.  Which tables and which of the occurrences an entry is restricted to is left to
the `keep` of `Bytes.after`.
-/

namespace OpenCore

open Bytes

/-- An entry of `ACPI/Patch`. -/
structure Entry extends Bytes.Patch UInt8 where
  Enabled : Bool

/-- An entry, whose words are checked where it is listed. -/
def Entry.of (Enabled : Bool) (find replace : List UInt8) (h : find ≠ [] := by decide)
    (h' : replace.length = find.length := by decide) : Entry :=
  ⟨⟨find, replace, h, h'⟩, Enabled⟩

/-- `ACPI/Patch`, in file order. -/
def Patch : List Entry :=
  [ -- OSID to XSID
    .of true [0x4F, 0x53, 0x49, 0x44] [0x58, 0x53, 0x49, 0x44],
    -- _OSI to XOSI
    .of true [0x5F, 0x4F, 0x53, 0x49] [0x58, 0x4F, 0x53, 0x49],
    -- _PTS to ZPTS, with the flags of its method
    .of true [0x5F, 0x50, 0x54, 0x53, 0x01] [0x5A, 0x50, 0x54, 0x53, 0x01],
    -- _WAK to ZWAK, with the flags of its method
    .of true [0x5F, 0x57, 0x41, 0x4B, 0x01] [0x5A, 0x57, 0x41, 0x4B, 0x01],
    -- GPRW to XPRW, with the flags of its method
    .of true [0x47, 0x50, 0x52, 0x57, 0x02] [0x58, 0x50, 0x52, 0x57, 0x02],
    -- ECDV to EC__
    .of true [0x45, 0x43, 0x44, 0x56] [0x45, 0x43, 0x5F, 0x5F],
    -- _RMV to XRMV, with the head and the flags of its method
    .of true [0x14, 0x24, 0x5F, 0x52, 0x4D, 0x56, 0x00] [0x14, 0x24, 0x58, 0x52, 0x4D, 0x56, 0x00],
    -- _PS0 to XPS0
    .of false [0x5F, 0x50, 0x53, 0x30] [0x58, 0x50, 0x53, 0x30],
    -- _PS3 to XPS3
    .of false [0x5F, 0x50, 0x53, 0x33] [0x58, 0x50, 0x53, 0x33],
    -- _INI to XINI
    .of false [0x5F, 0x49, 0x4E, 0x49] [0x58, 0x49, 0x4E, 0x49],
    -- %_CRS to %XCRS
    .of true [0x25, 0x5F, 0x43, 0x52, 0x53] [0x25, 0x58, 0x43, 0x52, 0x53],
    -- IPIC IRQ 2
    .of true [0x22, 0x04, 0x00, 0x79, 0x00] [0x22, 0x00, 0x00, 0x79, 0x00],
    -- RTC IRQ 8
    .of true [0x22, 0x00, 0x01, 0x79, 0x00] [0x22, 0x00, 0x00, 0x79, 0x00],
    -- TIMR IRQ 0
    .of true [0x22, 0x01, 0x00, 0x79, 0x00] [0x22, 0x00, 0x00, 0x79, 0x00],
    -- SAT0 to SATA
    .of true [0x53, 0x41, 0x54, 0x30] [0x53, 0x41, 0x54, 0x41],
    -- PBTN to PWRB
    .of true [0x50, 0x42, 0x54, 0x4E] [0x50, 0x57, 0x52, 0x42],
    -- SBTN to SLPB
    .of true [0x53, 0x42, 0x54, 0x4E] [0x53, 0x4C, 0x50, 0x42],
    -- PNLF to XNLF
    .of true [0x50, 0x4E, 0x4C, 0x46] [0x58, 0x4E, 0x4C, 0x46] ]

/-- The patches that are applied. -/
def enabled : List (Bytes.Patch UInt8) :=
  (Patch.filter (·.Enabled)).map Entry.toPatch

end OpenCore
