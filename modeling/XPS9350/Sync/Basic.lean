import Mathlib.Logic.Function.Basic
import Mathlib.Tactic.Common

/-!
# Threads with locks and a gate

A thread is the list of the events that it is going to perform.  A `Protocol` says which events take
and give back a lock, wait at the gate, open or shut it, and which of them belong inside a lock;
the locks and the gate have ranks.

* `follow` goes through one thread by itself.  It fails when the thread takes a lock out of order,
  does something outside the lock it belongs in, or waits at the gate with a lock that whoever opens
  the gate may need.
* `Run` interleaves the threads in any order that the locks and the gate allow.  The gate counts:
  each `signal` lets one `wait` through, and `reset` takes back what has not been used.
-/

namespace Sync

variable {L E ι : Type}

/-- What an event does to the locks and the gate. -/
inductive Kind (L : Type) where
  | acquire (l : L)
  | release (l : L)
  | wait
  | signal
  | reset
  /-- It belongs inside the lock `l`. -/
  | inside (l : L)
  | plain

/-- The meaning of the events, and the order of the locks. -/
structure Protocol (L E : Type) where
  kind : E → Kind L
  rank : L → ℕ
  /-- Only locks of a rank below this one may be held while waiting at the gate. -/
  gate : ℕ

/-! ### One thread -/

/-- Where a thread stands. -/
structure Place (L : Type) where
  /-- The locks it holds, the last one first. -/
  held : List L
  /-- It has passed the gate and not yet let the next one through. -/
  passing : Bool
  /-- It opens the gate for others and never waits there itself. -/
  opener : Bool

/-- Where a thread starts and has to end. -/
def Place.start (opener : Bool) : Place L := ⟨[], false, opener⟩

section Next

variable [DecidableEq L] (p : Protocol L E)

/-- The place after an event, if the event is allowed.  Nobody stops on the way through the gate. -/
def Place.next (x : Place L) (e : E) : Option (Place L) :=
  match p.kind e, x.passing with
  | .plain, _ => some x
  | .signal, true => some { x with passing := false }
  | .signal, false => if x.opener then some x else none
  | .reset, false => some x
  | .acquire l, false =>
    if ∀ k ∈ x.held, p.rank k < p.rank l then some { x with held := l :: x.held } else none
  | .release l, false => if x.held.head? = some l then some { x with held := x.held.tail } else none
  | .wait, false =>
    if x.opener = false ∧ ∀ k ∈ x.held, p.rank k < p.gate then some { x with passing := true }
    else none
  | .inside l, false => if l ∈ x.held then some x else none
  | _, true => none

/-- The place after some events, the oldest one first. -/
def follow (x : Place L) (es : List E) : Option (Place L) := es.foldlM (Place.next p) x

variable {p} {x y : Place L} {e : E} {l : L} {es : List E}

theorem follow_cons : follow p x (e :: es) = (x.next p e).bind (follow p · es) := rfl

theorem next_plain (h : p.kind e = .plain) : x.next p e = some x := by
  simp only [Place.next, h]

theorem next_signal (h : p.kind e = .signal) :
    x.next p e = some y ↔
      (x.passing = true ∨ x.opener = true) ∧ y = { x with passing := false } := by
  rcases x with ⟨held, _ | _, _ | _⟩ <;> simp [Place.next, h, eq_comm]

theorem next_reset (h : p.kind e = .reset) :
    x.next p e = some y ↔ x.passing = false ∧ y = x := by
  rcases x with ⟨held, _ | _, opener⟩ <;> simp [Place.next, h, eq_comm]

theorem next_acquire (h : p.kind e = .acquire l) :
    x.next p e = some y ↔ (x.passing = false ∧ ∀ k ∈ x.held, p.rank k < p.rank l) ∧
      y = { x with held := l :: x.held } := by
  rcases x with ⟨held, _ | _, opener⟩ <;> simp [Place.next, h, eq_comm]

theorem next_release (h : p.kind e = .release l) :
    x.next p e = some y ↔ (x.passing = false ∧ x.held.head? = some l) ∧
      y = { x with held := x.held.tail } := by
  rcases x with ⟨held, _ | _, opener⟩ <;> simp [Place.next, h, eq_comm]

theorem next_wait (h : p.kind e = .wait) :
    x.next p e = some y ↔
      (x.passing = false ∧ x.opener = false ∧ ∀ k ∈ x.held, p.rank k < p.gate) ∧
        y = { x with passing := true } := by
  rcases x with ⟨held, _ | _, _ | _⟩ <;> simp [Place.next, h, eq_comm]

theorem next_inside (h : p.kind e = .inside l) :
    x.next p e = some y ↔ (x.passing = false ∧ l ∈ x.held) ∧ y = x := by
  rcases x with ⟨held, _ | _, opener⟩ <;> simp [Place.next, h, eq_comm]

/-- **What an event can do to the place of a thread.** -/
theorem next_cases (h : x.next p e = some y) :
    (p.kind e = .plain ∧ y = x) ∨
    (p.kind e = .signal ∧ (x.passing = true ∨ x.opener = true) ∧
      y = { x with passing := false }) ∨
    (p.kind e = .reset ∧ x.passing = false ∧ y = x) ∨
    (∃ l, p.kind e = .acquire l ∧ x.passing = false ∧ (∀ k ∈ x.held, p.rank k < p.rank l) ∧
      y = { x with held := l :: x.held }) ∨
    (∃ l, p.kind e = .release l ∧ x.passing = false ∧ x.held = l :: y.held ∧
      y = { x with held := y.held }) ∨
    (p.kind e = .wait ∧ (x.passing = false ∧ x.opener = false ∧
      ∀ k ∈ x.held, p.rank k < p.gate) ∧ y = { x with passing := true }) ∨
    ∃ l, p.kind e = .inside l ∧ x.passing = false ∧ l ∈ x.held ∧ y = x := by
  cases hk : p.kind e with
  | plain => simp_all [next_plain hk]
  | signal => simpa using (next_signal hk).mp h
  | reset => simpa using (next_reset hk).mp h
  | acquire l => simpa [and_assoc] using (next_acquire hk).mp h
  | release l =>
    obtain ⟨⟨hpass, hhead⟩, rfl⟩ := (next_release hk).mp h
    obtain ⟨rest, hcons⟩ := List.head?_eq_some_iff.mp hhead
    simp [hpass, hcons]
  | wait => simpa using (next_wait hk).mp h
  | inside l => simpa [and_assoc] using (next_inside hk).mp h

end Next

/-! ### Many threads -/

/-- What the threads have yet to do, who holds each lock and how many the gate lets through. -/
structure System (ι L E : Type) where
  todo : ι → List E
  owner : L → Option ι
  count : ℕ

/-- No lock is held and the gate is shut. -/
def System.start (threads : ι → List E) : System ι L E := ⟨threads, fun _ => none, 0⟩

section System

variable [DecidableEq ι] [DecidableEq L] (p : Protocol L E)

/-- Whether an event can happen now.  A thread never takes a lock that it holds (`next_acquire`), so
it does not matter here that a mutex could be taken again by its owner. -/
def System.Enabled (s : System ι L E) (e : E) : Prop :=
  match p.kind e with
  | .acquire l => s.owner l = none
  | .wait => 0 < s.count
  | _ => True

/-- The thread `t` performs its next event, which is `e`. -/
def System.after (s : System ι L E) (t : ι) (e : E) : System ι L E where
  todo := Function.update s.todo t (s.todo t).tail
  owner :=
    match p.kind e with
    | .acquire l => Function.update s.owner l (some t)
    | .release l => Function.update s.owner l none
    | _ => s.owner
  count :=
    match p.kind e with
    | .wait => s.count - 1
    | .signal => s.count + 1
    | .reset => 0
    | _ => s.count

/-- The threads run from `s₀` to the given system; the history has the newest event first. -/
inductive Run (s₀ : System ι L E) : List (ι × E) → System ι L E → Prop
  | start : Run s₀ [] s₀
  | step {past : List (ι × E)} {s : System ι L E} {t : ι} {e : E} {rest : List E}
      (run : Run s₀ past s) (head : s.todo t = e :: rest) (enabled : s.Enabled p e) :
      Run s₀ ((t, e) :: past) (s.after p t e)

variable {p} {s₀ s : System ι L E} {past newer older : List (ι × E)} {t : ι} {e : E}

theorem Run.of_cons (h : Run p s₀ ((t, e) :: past) s) :
    ∃ s' rest, Run p s₀ past s' ∧ s'.todo t = e :: rest ∧ s'.Enabled p e ∧ s = s'.after p t e := by
  cases h with
  | step run head enabled => exact ⟨_, _, run, head, enabled, rfl⟩

/-- A run up to some moment. -/
theorem Run.of_append (h : Run p s₀ (newer ++ older) s) : ∃ s', Run p s₀ older s' := by
  induction newer generalizing s with
  | nil => exact ⟨s, h⟩
  | cons x newer ih =>
    obtain ⟨s', _, hrun, -⟩ := h.of_cons
    exact ih hrun

/-! ### Schedules -/

instance System.decidableEnabled (s : System ι L E) (e : E) : Decidable (s.Enabled p e) :=
  match h : p.kind e with
  | .acquire l => decidable_of_iff (s.owner l = none) (by rw [System.Enabled, h])
  | .wait => decidable_of_iff (0 < s.count) (by rw [System.Enabled, h])
  | .release _ | .signal | .reset | .inside _ | .plain =>
    .isTrue (by rw [System.Enabled, h]; trivial)

variable (p) in
/-- The thread `t` performs its next event if it has one that can happen now. -/
def System.turn (t : ι) (x : List (ι × E) × System ι L E) : List (ι × E) × System ι L E :=
  match x.2.todo t with
  | [] => x
  | e :: _ => if x.2.Enabled p e then ((t, e) :: x.1, x.2.after p t e) else x

variable (p) in
/-- The threads take turns as the schedule says, the last turn first. -/
def System.play (s₀ : System ι L E) (schedule : List ι) : List (ι × E) × System ι L E :=
  schedule.foldr (System.turn p) ([], s₀)

/-- What a schedule leads to is a run. -/
theorem run_play (schedule : List ι) :
    Run p s₀ (s₀.play p schedule).1 (s₀.play p schedule).2 := by
  induction schedule with
  | nil => exact .start
  | cons t schedule ih =>
    show Run p s₀ (System.turn p t (s₀.play p schedule)).1 (System.turn p t (s₀.play p schedule)).2
    unfold System.turn
    split
    · exact ih
    · rename_i e rest hhead
      split_ifs with henabled
      · exact ih.step hhead henabled
      · exact ih

/-- **Every run has a schedule.** -/
theorem Run.schedule (h : Run p s₀ past s) : s₀.play p (past.map (·.1)) = (past, s) := by
  induction h with
  | start => rfl
  | @step past s t e rest run head enabled ih =>
    show System.turn p t (s₀.play p (past.map (·.1))) = _
    rw [ih, System.turn]
    simp only [head, if_pos enabled]

/-! ### The part of one thread -/

/-- What the thread `t` has done, newest first. -/
def part (t : ι) (past : List (ι × E)) : List E :=
  past.filterMap fun x => if x.1 = t then some x.2 else none

theorem part_cons_self : part t ((t, e) :: past) = e :: part t past := by
  simp [part]

theorem part_cons_of_ne {u : ι} (h : u ≠ t) : part t ((u, e) :: past) = part t past := by
  simp [part, h]

theorem part_append : part t (newer ++ older) = part t newer ++ part t older :=
  List.filterMap_append

/-- An event of a thread in the history of all. -/
theorem exists_of_part {a b : List E} (h : part t past = a ++ e :: b) :
    ∃ mid older, past = mid ++ (t, e) :: older ∧ part t mid = a := by
  induction past generalizing a with
  | nil => exact absurd h.symm (List.append_ne_nil_of_right_ne_nil a (List.cons_ne_nil e b))
  | cons x past ih =>
    obtain ⟨u, e'⟩ := x
    by_cases hu : u = t
    · subst hu
      rw [part_cons_self] at h
      rcases a with _ | ⟨e'', a⟩
      · obtain ⟨rfl, -⟩ := List.cons.inj h
        exact ⟨[], past, rfl, rfl⟩
      · obtain ⟨rfl, hpart⟩ := List.cons.inj h
        obtain ⟨mid, older, rfl, rfl⟩ := ih hpart
        exact ⟨(u, e') :: mid, older, rfl, part_cons_self⟩
    · rw [part_cons_of_ne hu] at h
      obtain ⟨mid, older, rfl, rfl⟩ := ih h
      exact ⟨(u, e') :: mid, older, rfl, part_cons_of_ne hu⟩

theorem mem_part : e ∈ part t past ↔ (t, e) ∈ past := by
  simp only [part, List.mem_filterMap, Option.ite_none_right_eq_some, Option.some.injEq]
  constructor
  · rintro ⟨⟨u, e'⟩, hmem, rfl, rfl⟩
    exact hmem
  · exact fun hmem => ⟨(t, e), hmem, rfl, rfl⟩

/-- A thread does its events in order. -/
theorem Run.part_append (h : Run p s₀ past s) (t : ι) :
    s₀.todo t = (part t past).reverse ++ s.todo t := by
  induction h with
  | start => rfl
  | @step past s u e rest run head enabled ih =>
    show s₀.todo t = _ ++ Function.update s.todo u (s.todo u).tail t
    by_cases hu : u = t
    · subst hu
      rw [part_cons_self, Function.update_self, ih, head, List.reverse_cons, List.append_assoc]
      rfl
    · rw [part_cons_of_ne hu, Function.update_of_ne (Ne.symm hu)]
      exact ih

/-- A monitor of a whole thread is one of what the thread has done so far. -/
theorem Run.monitored {X : Type} {next : X → E → Option X} {x₀ : X} (h : Run p s₀ past s)
    (ht : ((s₀.todo t).foldlM next x₀).isSome) :
    ((part t past).reverse.foldlM next x₀).isSome := by
  rw [h.part_append t, List.foldlM_append] at ht
  exact Option.isSome_of_isSome_bind ht

end System

end Sync
