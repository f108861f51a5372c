import XPS9350.Aml.Dwords
import XPS9350.TB3.Mailbox

/-!
# The dwords of the mailbox

The region `H530` at configuration offset `0x530` of the upstream port has three dwords: the
command, the data to write and the data read.
-/

namespace TB3

open Aml

/-- The dwords of `H530`. -/
inductive Dword where
  | command | WDAT | RDAT
  deriving DecidableEq

/-- Where the field units of `H530` lie; six bits between `CMD2` and `PROG` have no name. -/
def H530 : Field → Option (Dword × ℕ)
  | .DWIX => some (.command, 0)
  | .PORT => some (.command, 13)
  | .SPCE => some (.command, 19)
  | .CMD0 => some (.command, 21)
  | .CMD1 => some (.command, 22)
  | .CMD2 => some (.command, 23)
  | .PROG => some (.command, 30)
  | .TMOT => some (.command, 31)
  | .WDAT => some (.WDAT, 0)
  | .RDAT => some (.RDAT, 0)
  | _ => none

/-- A command: what to do with which register. -/
@[ext] structure Command where
  DWIX : BitVec 13
  PORT : BitVec 6
  SPCE : BitVec 2
  CMD0 : BitVec 1
  CMD1 : BitVec 1
  CMD2 : BitVec 1
  deriving DecidableEq

/-- The command in a command dword. -/
def Command.ofDword (d : BitVec 32) : Command where
  DWIX := d.extractLsb' 0 13
  PORT := d.extractLsb' 13 6
  SPCE := d.extractLsb' 19 2
  CMD0 := d.extractLsb' 21 1
  CMD1 := d.extractLsb' 22 1
  CMD2 := d.extractLsb' 23 1

/-- The bit `PROG` of a command dword. -/
def PROG (d : BitVec 32) : BitVec 1 := d.extractLsb' 30 1

/-- The bits of a command dword without a name. -/
def reserved (d : BitVec 32) : BitVec 6 := d.extractLsb' 24 6

/-- The values that `UPSB.command` stores, as a command. -/
def Command.ofArgs (Arg0 Arg1 Arg2 cmd0 : Integer) : Command where
  DWIX := Arg0.setWidth 13
  PORT := Arg1.setWidth 6
  SPCE := Arg2.setWidth 2
  CMD0 := cmd0.setWidth 1
  CMD1 := 0
  CMD2 := 0

/-! ### The effect of one store -/

section Insert

variable {d : BitVec 32}

@[simp] theorem Command.ofDword_DWIX (v : BitVec 13) :
    ofDword (v.insertAt 0 d) = { ofDword d with DWIX := v } := by
  simp [ofDword, BitVec.extract_insertAt, BitVec.extract_insertAt_of_disjoint]

@[simp] theorem Command.ofDword_PORT (v : BitVec 6) :
    ofDword (v.insertAt 13 d) = { ofDword d with PORT := v } := by
  simp [ofDword, BitVec.extract_insertAt, BitVec.extract_insertAt_of_disjoint]

@[simp] theorem Command.ofDword_SPCE (v : BitVec 2) :
    ofDword (v.insertAt 19 d) = { ofDword d with SPCE := v } := by
  simp [ofDword, BitVec.extract_insertAt, BitVec.extract_insertAt_of_disjoint]

@[simp] theorem Command.ofDword_CMD0 (v : BitVec 1) :
    ofDword (v.insertAt 21 d) = { ofDword d with CMD0 := v } := by
  simp [ofDword, BitVec.extract_insertAt, BitVec.extract_insertAt_of_disjoint]

@[simp] theorem Command.ofDword_CMD1 (v : BitVec 1) :
    ofDword (v.insertAt 22 d) = { ofDword d with CMD1 := v } := by
  simp [ofDword, BitVec.extract_insertAt, BitVec.extract_insertAt_of_disjoint]

@[simp] theorem Command.ofDword_CMD2 (v : BitVec 1) :
    ofDword (v.insertAt 23 d) = { ofDword d with CMD2 := v } := by
  simp [ofDword, BitVec.extract_insertAt, BitVec.extract_insertAt_of_disjoint]

/-- `PROG` and `TMOT` lie outside the command. -/
@[simp] theorem Command.ofDword_insertAt {lsb : ℕ} (v : BitVec 1) (h : 24 ≤ lsb) :
    ofDword (v.insertAt lsb d) = ofDword d := by
  simp (disch := omega) only [ofDword, BitVec.extract_insertAt_of_disjoint]

@[simp] theorem PROG_insertAt (v : BitVec 1) : PROG (v.insertAt 30 d) = v :=
  BitVec.extract_insertAt (by decide)

theorem PROG_insertAt_of_disjoint {len lsb : ℕ} {v : BitVec len} (h : lsb + len ≤ 30 ∨ 31 ≤ lsb) :
    PROG (v.insertAt lsb d) = PROG d :=
  BitVec.extract_insertAt_of_disjoint (by decide) (by omega)

theorem reserved_insertAt {len lsb : ℕ} {v : BitVec len} (h : lsb + len ≤ 24 ∨ 30 ≤ lsb) :
    reserved (v.insertAt lsb d) = reserved d :=
  BitVec.extract_insertAt_of_disjoint (by decide) (by omega)

end Insert

end TB3
