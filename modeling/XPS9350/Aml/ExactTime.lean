import XPS9350.Aml.Emits

/-!
# Exact time

`ExactClock` is the time behind the `Timer` when reads and writes take none of it and `Sleep` takes
exactly what it is asked for.  With it the moment of every event can be told from the sleeps before
it.  `lastRound` and `readSince` look back in the log: to the last test or pass of a `While`, and to
the reads of a field since then.
-/

namespace Aml

variable {S : Signature} {σ α : Type} {hw : Hardware S σ} {env : Env S σ}
  {P : World S σ → Event S → Prop} {w w' : World S σ}

/-- The value of the `Timer`, which only `Sleep` and `Stall` change. -/
structure ExactClock (hw : Hardware S σ) where
  now : σ → Integer
  timer : ∀ s, (hw.timer s).1 = now s
  now_timer : ∀ s, now (hw.timer s).2 = now s
  now_load : ∀ f s, now (hw.load f s).2 = now s
  now_store : ∀ f v s, now (hw.store f v s) = now s
  now_sleep : ∀ ms s, now (hw.sleep ms s) = now s + 10000 * ms

/-- Events that take no time. -/
def Event.instant : Event S → Bool
  | .sleep _ | .stall _ => false
  | _ => true

theorem ExactClock.now_after (C : ExactClock hw) {s : State S σ} {e : Event S}
    (he : e.instant = true) : C.now (hw.after s e).hw = C.now s.hw := by
  cases e with
  | load f v => exact C.now_load f s.hw
  | store f v => exact C.now_store f _ s.hw
  | timer t => exact C.now_timer s.hw
  | sleep ms => exact absurd he Bool.false_ne_true
  | stall us => exact absurd he Bool.false_ne_true
  | _ => rfl

theorem ExactClock.now_path (C : ExactClock hw) (h : Path hw P w w')
    (hP : ∀ u e, P u e → e.instant = true) : C.now w'.hw = C.now w.hw :=
  h.invariant (I := fun u => C.now u.hw = C.now w.hw) rfl fun u e hu _ he =>
    (C.now_after (hP u e he)).trans hu

/-! ### Looking back -/

section

variable [DecidableEq S.Loop]

/-- A test or a pass of the `While` `l`. -/
def Event.ofLoop (l : S.Loop) : Event S → Bool
  | .test l' _ | .pass l' _ => l' = l
  | _ => false

/-- A read of the field `f`. -/
def Event.reads (f : S.Field) : Event S → Bool
  | .load f' _ => f' = f
  | _ => false

/-- The last test or pass of `l`. -/
def lastRound (l : S.Loop) (log : List (Entry S σ)) : Option (Entry S σ) :=
  log.find? fun x => x.event.ofLoop l

/-- The field `f` was read since the last test or pass of `l`. -/
def readSince (l : S.Loop) (f : S.Field) : List (Entry S σ) → Bool
  | [] => false
  | x :: log => x.event.reads f || !x.event.ofLoop l && readSince l f log

variable {l : S.Loop} {f : S.Field} {x : Entry S σ} {log : List (Entry S σ)}

theorem lastRound_of_ofLoop (h : x.event.ofLoop l = true) : lastRound l (x :: log) = some x :=
  List.find?_cons_of_pos h

theorem lastRound_of_not_ofLoop (h : x.event.ofLoop l = false) :
    lastRound l (x :: log) = lastRound l log :=
  List.find?_cons_of_neg (by rw [h]; decide)

theorem readSince_of_reads (h : x.event.reads f = true) : readSince l f (x :: log) = true := by
  rw [readSince, h, Bool.true_or]

theorem readSince_of_ofLoop (h : x.event.ofLoop l = true) (h' : x.event.reads f = false) :
    readSince l f (x :: log) = false := by
  rw [readSince, h, h']
  rfl

theorem readSince_of_not_ofLoop (h : x.event.ofLoop l = false) (h' : x.event.reads f = false) :
    readSince l f (x :: log) = readSince l f log := by
  rw [readSince, h, h', Bool.false_or, Bool.not_false, Bool.true_and]

theorem World.lastRound_perform {e : Event S} (h : e.ofLoop l = false) :
    lastRound l (w.perform hw e).log = lastRound l w.log :=
  lastRound_of_not_ofLoop h

theorem World.readSince_perform {e : Event S} (h : e.ofLoop l = false) (h' : e.reads f = false) :
    readSince l f (w.perform hw e).log = readSince l f w.log :=
  readSince_of_not_ofLoop h h'

theorem Path.lastRound_eq (h : Path hw P w w') (hP : ∀ u e, P u e → e.ofLoop l = false) :
    lastRound l w'.log = lastRound l w.log :=
  h.invariant (I := fun u => lastRound l u.log = lastRound l w.log) rfl fun u e hu _ he =>
    (lastRound_of_not_ofLoop (hP u e he)).trans hu

/-- What was read since the last round stays read until the next one. -/
theorem Path.readSince_mono (h : Path hw P w w') (hP : ∀ u e, P u e → e.ofLoop l = false)
    (hread : readSince l f w.log = true) : readSince l f w'.log = true := by
  refine h.invariant (I := fun u => readSince l f u.log = true) hread fun u e hu _ he => ?_
  rw [World.perform_log, readSince, hu, hP u e he, Bool.not_false, Bool.true_and, Bool.or_true]

theorem Path.readSince_eq (h : Path hw P w w')
    (hP : ∀ u e, P u e → e.ofLoop l = false ∧ e.reads f = false) :
    readSince l f w'.log = readSince l f w.log :=
  h.invariant (I := fun u => readSince l f u.log = readSince l f w.log) rfl fun u e hu _ he =>
    (readSince_of_not_ofLoop (hP u e he).1 (hP u e he).2).trans hu

end

end Aml
