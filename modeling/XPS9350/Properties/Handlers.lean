import XPS9350.Aml.Hardware

/-!
# The device-property handlers

The `_DSM` methods through which a device hands its properties to macOS: those of
`patches/SSDT-TB3.dsl`, which answer themselves, and those of the full Thunderbolt table, which
leave the answer to `DTGP`.
-/

namespace Properties

open Aml

/-- A UUID: the buffer that `ToUUID` makes. -/
abbrev UUID := Vector UInt8 16

/-- An element of a package of properties. -/
inductive Element where
  | string (s : String)
  | integer (v : Integer)
  | buffer (bytes : List UInt8)
deriving DecidableEq

/-- What a handler is given as `Arg3`, and what it returns. -/
inductive Object where
  | integer (v : Integer)
  | buffer (bytes : List UInt8)
  | package (elements : List Element)
deriving DecidableEq

/-- A `_DSM` method: the UUID, the revision, the function index and its arguments. -/
abbrev Handler := UUID → Integer → Integer → Object → Object

/-- `ToUUID ("a0b5b7c6-1318-441c-b0c9-fe695eaf949b")`; the first three groups are stored with the
least significant byte first. -/
def uuid : UUID :=
  #v[0xC6, 0xB7, 0xB5, 0xA0, 0x18, 0x13, 0x1C, 0x44,
    0xB0, 0xC9, 0xFE, 0x69, 0x5E, 0xAF, 0x94, 0x9B]

/-- The state is the local that `Arg4` refers to: a store to `Arg4` writes through to it. -/
def DTGP (Arg0 : UUID) (Arg1 Arg2 : Integer) (_Arg3 : Object) : StateM Object Integer := do
  if Arg0 = uuid then
    if Arg1 = 1 then
      if Arg2 = 0 then
        set (Object.buffer [0x03])
        return 1
      if Arg2 = 1 then
        return 1
  set (Object.buffer [0x00])
  return 0

/-- The properties of `TBL1` and `DSB0`. -/
def hotplug : Object := .package [.string "PCIHotplugCapable", .integer 0]

/-- The properties of either `NHI0`. -/
def powerSave : Object := .package [.string "power-save", .integer 1, .buffer [0x00]]

/-! ### `patches/SSDT-TB3.dsl` -/

def TBL1._DSM : Handler := fun Arg0 _Arg1 Arg2 _Arg3 =>
  if Arg0 = uuid then
    if Arg2 = 0 then .buffer [0x03] else hotplug
  else .integer 0

def TBL1.NHI0._DSM : Handler := fun _Arg0 _Arg1 Arg2 _Arg3 =>
  if Arg2 = 0 then .buffer [0x03] else powerSave

/-! ### `patches/thunderbolt/SSDT-TB3.dsl` -/

def DSB0._DSM : Handler := fun Arg0 Arg1 Arg2 Arg3 =>
  if Arg0 = uuid then
    ((DTGP Arg0 Arg1 Arg2 Arg3).run hotplug).2
  else .integer 0

def DSB0.NHI0._DSM : Handler := fun Arg0 Arg1 Arg2 Arg3 =>
  ((DTGP Arg0 Arg1 Arg2 Arg3).run powerSave).2

end Properties
