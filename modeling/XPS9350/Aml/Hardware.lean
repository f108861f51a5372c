import Mathlib.Logic.Function.Basic
import Mathlib.Tactic.Common

/-!
# Named objects, field units and time

The bodies of ACPI control methods read and write two kinds of objects: *names*, which hold an
integer in the interpreter, and *field units*, which stand for a few bits of hardware.  Besides
that they sleep, stall and read the `Timer`.  A `Signature` lists the objects of a table and a
`Hardware` says what the field units and the clock do.

A `World` holds the values of the names, the state of the hardware and a log of everything done so
far, newest entry first.  Each log entry keeps the state it was made in, so a statement about
every state that a run visits is a statement about its log.  `Path hw P w w'` says that the world
`w'` is reached from `w` by events that `P` allows; an invariant that every allowed event preserves
holds along the whole path (`Path.invariant`).
-/

namespace Aml

/-- An integer of a table of revision 2 or later. -/
abbrev Integer := BitVec 64

/-- What the logical operators return: all ones for true, zero for false. -/
def truth (b : Bool) : Integer := if b then BitVec.allOnes 64 else 0

@[simp] theorem truth_eq_zero {b : Bool} : truth b = 0#64 ↔ b = false := by
  cases b <;> simp [truth]

/-- The objects of a table. -/
structure Signature where
  /-- Integer objects declared by `Name`. -/
  Name : Type
  /-- Field units. -/
  Field : Type
  /-- Method invocations that the log records. -/
  Method : Type
  /-- The `While` statements. -/
  Loop : Type
  /-- The width of a field unit in bits. -/
  width : Field → Nat
  [decName : DecidableEq Name]
  [decField : DecidableEq Field]

attribute [instance] Signature.decName Signature.decField

/-- One action of a program. -/
inductive Event (S : Signature) where
  | set (n : S.Name) (v : Integer)
  | load (f : S.Field) (v : Integer)
  | store (f : S.Field) (v : Integer)
  | sleep (ms : Integer)
  | stall (us : Integer)
  | timer (t : Integer)
  /-- A method is entered. -/
  | enter (m : S.Method)
  /-- The predicate of a `While` is evaluated for the `i`-th time. -/
  | test (l : S.Loop) (i : Nat)
  /-- The body of a `While` is entered for the `i`-th time. -/
  | pass (l : S.Loop) (i : Nat)

/-- The behaviour of the field units and of the clock over a hardware state. -/
structure Hardware (S : Signature) (σ : Type) where
  load : (f : S.Field) → σ → BitVec (S.width f) × σ
  store : (f : S.Field) → BitVec (S.width f) → σ → σ
  sleep : Integer → σ → σ
  stall : Integer → σ → σ
  timer : σ → Integer × σ

/-- The hardware a program runs on and the number of passes each `While` may make. -/
structure Env (S : Signature) (σ : Type) where
  hw : Hardware S σ
  fuel : Nat

/-- The values of the names and the state of the hardware. -/
structure State (S : Signature) (σ : Type) where
  names : S.Name → Integer
  hw : σ

/-- A log entry: an event and the state it happened in. -/
structure Entry (S : Signature) (σ : Type) where
  before : State S σ
  event : Event S

/-- The state together with the log, newest entry first. -/
structure World (S : Signature) (σ : Type) extends State S σ where
  log : List (Entry S σ)

variable {S : Signature} {σ α β γ : Type}

/-- A state with an empty log. -/
def State.world (s : State S σ) : World S σ := ⟨s, []⟩

@[simp] theorem State.world_log (s : State S σ) : s.world.log = [] := rfl
@[simp] theorem State.world_toState (s : State S σ) : s.world.toState = s := rfl

/-- An integer cut to the width of a field unit. -/
def Signature.cut (S : Signature) (f : S.Field) (v : Integer) : Integer :=
  (v.setWidth (S.width f)).setWidth 64

@[simp] theorem Signature.setWidth_cut (S : Signature) (f : S.Field) (v : Integer) :
    (S.cut f v).setWidth (S.width f) = v.setWidth (S.width f) := by
  ext i hi
  simp only [Signature.cut, BitVec.getElem_setWidth, BitVec.getLsbD_setWidth]
  by_cases h : i < 64
  · simp [h, hi]
  · simp [h, BitVec.getLsbD_of_ge v i (by omega)]

@[simp] theorem Signature.cut_zero (S : Signature) (f : S.Field) : S.cut f 0#64 = 0#64 := by
  simp [Signature.cut]

/-- The state after an event. -/
def Hardware.after (hw : Hardware S σ) (s : State S σ) : Event S → State S σ
  | .set n v => ⟨Function.update s.names n v, s.hw⟩
  | .load f _ => ⟨s.names, (hw.load f s.hw).2⟩
  | .store f v => ⟨s.names, hw.store f (v.setWidth (S.width f)) s.hw⟩
  | .sleep ms => ⟨s.names, hw.sleep ms s.hw⟩
  | .stall us => ⟨s.names, hw.stall us s.hw⟩
  | .timer _ => ⟨s.names, (hw.timer s.hw).2⟩
  | .enter _ | .test _ _ | .pass _ _ => s

/-- The value that a field unit reads in the state `s`. -/
def Hardware.reads (hw : Hardware S σ) (f : S.Field) (s : State S σ) : Integer :=
  (hw.load f s.hw).1.setWidth 64

/-- `w` after the event `e`, which is put on the log. -/
def World.perform (hw : Hardware S σ) (w : World S σ) (e : Event S) : World S σ :=
  ⟨hw.after w.toState e, ⟨w.toState, e⟩ :: w.log⟩

/-- The states that a run which ends in `w` has gone through. -/
def World.Visits (w : World S σ) (s : State S σ) : Prop :=
  s = w.toState ∨ ∃ x ∈ w.log, s = x.before

@[simp] theorem World.perform_toState (hw : Hardware S σ) (w : World S σ) (e : Event S) :
    (w.perform hw e).toState = hw.after w.toState e := rfl
@[simp] theorem World.perform_log (hw : Hardware S σ) (w : World S σ) (e : Event S) :
    (w.perform hw e).log = ⟨w.toState, e⟩ :: w.log := rfl

/-! ### Paths -/

section Path

variable {hw : Hardware S σ} {P P' : World S σ → Event S → Prop} {w w' w'' : World S σ}

/-- The values that an event reports are those of the hardware. -/
def Hardware.Answers (hw : Hardware S σ) (s : State S σ) : Event S → Prop
  | .load f v => v = hw.reads f s
  | .timer t => t = (hw.timer s.hw).1
  | _ => True

section Answers

variable {hw : Hardware S σ} {s : State S σ} {v : Integer}

theorem answers_set {n : S.Name} : hw.Answers s (.set n v) := trivial

theorem answers_store {f : S.Field} : hw.Answers s (.store f v) := trivial

theorem answers_sleep : hw.Answers s (.sleep v) := trivial

theorem answers_stall : hw.Answers s (.stall v) := trivial

theorem answers_enter {m : S.Method} : hw.Answers s (.enter m) := trivial

theorem answers_test {l : S.Loop} {i : Nat} : hw.Answers s (.test l i) := trivial

theorem answers_pass {l : S.Loop} {i : Nat} : hw.Answers s (.pass l i) := trivial

end Answers

/-- `w'` is reached from `w` by events that `P` allows in the world they happen in. -/
inductive Path (hw : Hardware S σ) (P : World S σ → Event S → Prop) (w : World S σ) :
    World S σ → Prop
  | refl : Path hw P w w
  | step {w' : World S σ} {e : Event S} (h : Path hw P w w') (answer : hw.Answers w'.toState e)
      (allowed : P w' e) : Path hw P w (w'.perform hw e)

namespace Path

theorem single {e : Event S} (answer : hw.Answers w.toState e) (allowed : P w e) :
    Path hw P w (w.perform hw e) := .step .refl answer allowed

theorem trans (h : Path hw P w w') (h' : Path hw P w' w'') : Path hw P w w'' := by
  induction h' with
  | refl => exact h
  | step _ answer allowed ih => exact .step ih answer allowed

theorem mono (h : Path hw P w w') (hP : ∀ w e, P w e → P' w e) : Path hw P' w w' := by
  induction h with
  | refl => exact .refl
  | step _ answer allowed ih => exact .step ih answer (hP _ _ allowed)

/-- **The invariant rule**: what every allowed event preserves holds along the path. -/
theorem invariant {I : World S σ → Prop} (h : Path hw P w w') (init : I w)
    (step : ∀ w e, I w → hw.Answers w.toState e → P w e → I (w.perform hw e)) : I w' := by
  induction h with
  | refl => exact init
  | step _ answer allowed ih => exact step _ _ ih answer allowed

/-- The path again, with an invariant recorded at every event. -/
theorem strengthen {I : World S σ → Prop} (h : Path hw P w w') (init : I w)
    (step : ∀ w e, I w → hw.Answers w.toState e → P w e → I (w.perform hw e)) :
    Path hw (fun w e => I w ∧ P w e) w w' := by
  induction h with
  | refl => exact .refl
  | step h answer allowed ih =>
    exact .step ih answer ⟨h.invariant init step, allowed⟩

/-- A name that no allowed event sets keeps its value. -/
theorem names_eq (h : Path hw P w w') (n : S.Name) (hP : ∀ w v, ¬ P w (.set n v)) :
    w'.names n = w.names n := by
  refine h.invariant (I := fun u => u.names n = w.names n) rfl fun u e hu _ he => ?_
  cases e with
  | set m v =>
    have hne : n ≠ m := by rintro rfl; exact hP _ _ he
    simpa [Hardware.after, Function.update_of_ne hne] using hu
  | _ => exact hu

/-- What is read off the log is unchanged when no allowed event shows. -/
theorem filterMap_log (h : Path hw P w w') (f : Entry S σ → Option β)
    (hP : ∀ w e, P w e → f ⟨w.toState, e⟩ = none) :
    w'.log.filterMap f = w.log.filterMap f := by
  refine h.invariant (I := fun u => u.log.filterMap f = w.log.filterMap f) rfl
    fun u e hu _ he => ?_
  rw [World.perform_log, List.filterMap_cons, hP u e he, hu]

/-- The log grows by allowed entries. -/
theorem log_append (h : Path hw P w w') :
    ∃ new, w'.log = new ++ w.log ∧
      ∀ x ∈ new, ∃ u : World S σ, x.before = u.toState ∧ P u x.event := by
  induction h with
  | refl => exact ⟨[], rfl, by simp⟩
  | step _ _ allowed ih =>
    obtain ⟨new, hlog, hnew⟩ := ih
    refine ⟨⟨_, _⟩ :: new, by rw [World.perform_log, hlog, List.cons_append], ?_⟩
    rintro x (_ | ⟨_, hx⟩)
    · exact ⟨_, rfl, allowed⟩
    · exact hnew x hx

/-- A property of entries that every allowed event has holds of the whole log. -/
theorem forall_log (h : Path hw P w w') {R : Entry S σ → Prop}
    (hP : ∀ w e, hw.Answers w.toState e → P w e → R ⟨w.toState, e⟩) (hw' : ∀ x ∈ w.log, R x) :
    ∀ x ∈ w'.log, R x := by
  refine h.invariant (I := fun u => ∀ x ∈ u.log, R x) hw' fun u e hu ha he x hx => ?_
  rcases List.mem_cons.mp hx with rfl | hx
  · exact hP u e ha he
  · exact hu x hx

end Path

end Path

end Aml
