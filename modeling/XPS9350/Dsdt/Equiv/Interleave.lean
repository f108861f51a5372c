import XPS9350.Dsdt.Equiv.Discipline
import XPS9350.Sync.Extension

/-!
# The tasks together

Any number of tasks run at the same time and are interleaved in any way that the mutexes and the
event `WFEV` allow.

* `handshake_alone`: a handshake is not disturbed until its thread gives `OSUM` back.
* `gate_opened`: the handler goes on only after `_INI` or `RWAK` has opened the gate.
* `progress`: the tasks never block each other for good.
-/

namespace Dsdt

open Aml

variable {ι : Type} {GPCB : Integer} {tasks : ι → Task} {threads : ι → List (Event dsdt)}

/-- The threads are runs of the tasks. -/
def Spawned (GPCB : Integer) (tasks : ι → Task) (threads : ι → List (Event dsdt)) : Prop :=
  ∀ t, (tasks t).Spawns GPCB (threads t)

/-- The threads are runs of the tasks that come to their end. -/
def Completed (GPCB : Integer) (tasks : ι → Task) (threads : ι → List (Event dsdt)) : Prop :=
  ∀ t, (tasks t).Completes GPCB (threads t)

theorem Spawned.disciplined (h : Spawned GPCB tasks threads) :
    Sync.Disciplined protocol (fun t => (tasks t).opener) threads := fun t => (h t).follow

theorem Completed.spawned (h : Completed GPCB tasks threads) : Spawned GPCB tasks threads := by
  intro t
  obtain ⟨σ, env, s, w, hr, hes⟩ := h t
  exact ⟨σ, env, s, by rw [hr, hes]⟩

/-! ### The kinds of events -/

section Kinds

variable {e : Event dsdt} {m : Lock}

theorem kind_eq_release (h : kind e = .release m) : e = .enter (.Release m) := by
  unfold kind at h
  split at h <;> first | (obtain rfl := Sync.Kind.release.inj h; rfl) | cases h

theorem kind_eq_signal (h : kind e = .signal) : e = .enter .Signal := by
  unfold kind at h
  split at h <;> first | rfl | cases h

theorem kind_eq_wait (h : kind e = .wait) : e = .enter .Wait := by
  unfold kind at h
  split at h <;> first | rfl | cases h

theorem kind_eq_reset (h : kind e = .reset) : e = .enter .Reset := by
  unfold kind at h
  split at h <;> first | rfl | cases h

theorem rank_lt (m : Lock) : protocol.rank m < 6 := by
  cases m <;> decide

end Kinds

/-! ### Two tasks -/

/-- Hardware that answers every read of a field unit with the same value. -/
def answers (v : Field → Integer) : Hardware dsdt Unit where
  load f s := ((v f).setWidth f.width, s)
  store _ _ s := s
  sleep _ s := s
  stall _ s := s
  timer s := (0, s)

/-- A controller at the first root port whose firmware answers at once. -/
def ready : Env dsdt Unit :=
  ⟨answers fun
    | .TBTS | .TBSE | .SBUS _ _ | .TB2P _ _ => 1
    | _ => 0, 2⟩

/-- A run of a task on it. -/
def readyRun (T : Task) : Option Unit × World dsdt Unit :=
  T.run 0 ready (State.world ⟨fun _ => 0, ()⟩)

/-- The initialisation and the handler. -/
def twoTasks (b : Bool) : Task := if b then ._INI fun _ => false else ._E42

/-- Their events. -/
def twoThreads (b : Bool) : List (Event dsdt) := (readyRun (twoTasks b)).2.events.reverse

/-- The history and the system after a schedule, the last turn first. -/
def twoPlay (schedule : List Bool) :
    List (Bool × Event dsdt) × Sync.System Bool Lock (Event dsdt) :=
  (Sync.System.start twoThreads).play protocol schedule

theorem twoThreads_completed : Completed 0 twoTasks twoThreads := by
  intro b
  refine ⟨Unit, ready, ⟨fun _ => 0, ()⟩, (readyRun (twoTasks b)).2, ?_, rfl⟩
  have hend : (readyRun (twoTasks b)).1 = some () := by cases b <;> rfl
  exact Prod.ext hend rfl

/-! ### The theorems -/

section Interleaved

variable [DecidableEq ι] {past newer mid older : List (ι × Event dsdt)}
  {s : Sync.System ι Lock (Event dsdt)} {t : ι} {e : Event dsdt}

/-- **A handshake is not disturbed**: from any event of a handshake until the thread gives `OSUM`
back, no other thread takes part in a handshake. -/
theorem handshake_alone (ht : Spawned GPCB tasks threads)
    (h : Sync.Run protocol (.start threads) (mid ++ (t, e) :: older) s)
    (he : kind e = .inside .OSUM)
    (hmid : ∀ x ∈ mid, x.1 = t → x.2 ≠ .enter (.Release .OSUM)) :
    ∀ x ∈ mid, kind x.2 = .inside .OSUM → x.1 = t :=
  (h.alone ht.disciplined he fun x hx hxt hk => hmid x hx hxt (kind_eq_release hk)).2

/-- The handler starts while the initialisation has given the root port another bus. -/
theorem handshake_alone_TINI : kind (.load (.REG6 0xE0018) 0) = .inside .OSUM ∧
    ∀ x ∈ ([(true, .store (.REG6 0xE0018) 0xF0F000), (false, .pass ._E42 0),
      (false, .test ._E42 0)] : List (Bool × Event dsdt)),
      kind x.2 = .inside .OSUM → x.1 = true := by
  have hrun : Sync.Run protocol (.start twoThreads)
      (twoPlay ([true, false, false] ++ List.replicate 19 true)).1
      (twoPlay ([true, false, false] ++ List.replicate 19 true)).2 := Sync.run_play _
  refine ⟨rfl, handshake_alone (t := true) (e := .load (.REG6 0xE0018) 0)
    twoThreads_completed.spawned hrun rfl ?_⟩
  intro x hx _ hrel
  simp only [List.mem_cons, List.not_mem_nil, or_false] at hx
  rcases hx with rfl | rfl | rfl <;> cases hrel

/-- **The gate**: whenever a handler gets through, `_INI` or `RWAK` has signalled since the last
`Reset`, or a handler was between its `Wait` and its `Signal` at that moment. -/
theorem gate_opened (ht : Spawned GPCB tasks threads)
    (h : Sync.Run protocol (.start threads) ((t, .enter .Wait) :: past) s) :
    ∃ newer x older, past = newer ++ x :: older ∧ (∀ y ∈ newer, y.2 ≠ .enter .Reset) ∧
      (x.2 = .enter .Signal ∧ (tasks x.1).opener = true ∨
        x.2 = .enter .Reset ∧ ∃ u newer' older', older = newer' ++ (u, .enter .Wait) :: older' ∧
          ∀ y ∈ newer', y.1 = u → y.2 ≠ .enter .Signal) := by
  obtain ⟨newer, x, older, hpast, hnewer, hx⟩ := h.through_gate ht.disciplined rfl
  refine ⟨newer, x, older, hpast, fun y hy hreset => hnewer y hy (by rw [hreset]; rfl), ?_⟩
  rcases hx with ⟨hsignal, hopener⟩ | ⟨hreset, u, y, hplace, hpass⟩
  · exact .inl ⟨kind_eq_signal hsignal, hopener⟩
  · right
    refine ⟨kind_eq_reset hreset, ?_⟩
    obtain ⟨newer', e', older', rfl, he', hnewer'⟩ := Sync.waited_of_passing hplace hpass
    obtain rfl := kind_eq_wait he'
    exact ⟨u, newer', older', rfl, fun y hy hyu hsig => hnewer' y hy hyu (by rw [hsig]; rfl)⟩

/-- The handler goes on after the initialisation has come to its end. -/
theorem gate_opened_INI :
    ∃ newer x older, (twoPlay (List.replicate 3 false ++ List.replicate 42 true)).1 =
        newer ++ x :: older ∧ (∀ y ∈ newer, y.2 ≠ .enter .Reset) ∧
      (x.2 = .enter .Signal ∧ (twoTasks x.1).opener = true ∨
        x.2 = .enter .Reset ∧ ∃ u newer' older', older = newer' ++ (u, .enter .Wait) :: older' ∧
          ∀ y ∈ newer', y.1 = u → y.2 ≠ .enter .Signal) :=
  have hrun : Sync.Run protocol (.start twoThreads)
      (twoPlay (List.replicate 4 false ++ List.replicate 42 true)).1
      (twoPlay (List.replicate 4 false ++ List.replicate 42 true)).2 := Sync.run_play _
  gate_opened (t := false) twoThreads_completed.spawned hrun

end Interleaved

/-! ### Progress -/

section Progress

variable {L' E' : Type} [DecidableEq L'] {p' : Sync.Protocol L' E'}
  (X : Sync.Extension protocol p')

/-- The threads are runs of the tasks up to their ends, with what the tasks leave out put in between:
code that keeps to a larger protocol and gives back what it takes. -/
def Embedded (GPCB : Integer) (tasks : ι → Task) (threads : ι → List E') : Prop :=
  ∀ t, ∃ es, (tasks t).Completes GPCB es ∧ X.Inserted (.start (tasks t).opener) es (threads t)

variable {X} [DecidableEq ι] {threads : ι → List E'} {past : List (ι × E')}
  {s : Sync.System ι L' E'} {n : ℕ}

omit [DecidableEq ι] in
theorem Embedded.complete (h : Embedded X GPCB tasks threads) :
    Sync.Complete p' (fun t => (tasks t).opener) threads := by
  refine Sync.complete_of_inserted (X := X) fun t => ?_
  obtain ⟨es, hes, hinserted⟩ := h t
  exact ⟨es, hes.follow, hinserted⟩

/-- **Progress**: when no task can go on, `OSUM` is free, and if `_INI` or `RWAK` has signalled
since the gate was last shut all tasks have come to their end.  What the tasks leave out may take
any further mutexes, as long as all mutexes are taken in one order. -/
theorem progress (ht : Embedded X GPCB tasks threads) (hrank : ∀ l, p'.rank l < n)
    (h : Sync.Run p' (.start threads) past s) (hs : Sync.Stuck p' s) :
    s.owner (X.lock .OSUM) = none ∧
      ∀ newer x older, past = newer ++ x :: older → (∀ y ∈ newer, p'.kind y.2 ≠ .reset) →
        p'.kind x.2 = .signal → (tasks x.1).opener = true → ∀ u, s.todo u = [] := by
  have hOSUM : p'.gate ≤ p'.rank (X.lock .OSUM) := by
    by_contra hlt
    have hgate : rank .OSUM < 1 := X.gate_iff.mp (Nat.lt_of_not_le hlt)
    exact absurd hgate (by decide)
  refine ⟨h.free_of_stuck ht.complete hrank hs _ hOSUM, ?_⟩
  rintro newer ⟨t, e⟩ older rfl hnewer hsignal hopener u
  exact h.done_of_opened ht.complete hrank hs hopener hsignal hnewer u

/-- The protocol with the mutex `SMIX` of `GENS`, which the other events take and give back. -/
def withSMIX : Sync.Protocol (Option Lock) (Event dsdt ⊕ Bool) where
  kind
    | .inl e => (kind e).map some
    | .inr true => .acquire none
    | .inr false => .release none
  rank
    | some l => rank l
    | none => 6
  gate := 1

def extensionSMIX : Sync.Extension protocol withSMIX where
  lock := some
  event := .inl
  kind_event _ := rfl
  rank_lt h := h
  gate_iff := Iff.rfl

/-- The two tasks; `_INI` calls `GENS` before it gives its own mutex back. -/
def threadsSMIX (b : Bool) : List (Event dsdt ⊕ Bool) :=
  if b then
    ((twoThreads true).take 41).map .inl ++
      ([.inr true, .inr false] ++ ((twoThreads true).drop 41).map .inl)
  else
    (twoThreads false).map .inl

theorem threadsSMIX_embedded : Embedded extensionSMIX 0 twoTasks threadsSMIX := by
  intro b
  refine ⟨twoThreads b, twoThreads_completed b, ?_⟩
  have hfollow := (twoThreads_completed b).follow
  cases b with
  | false => exact Sync.inserted_map hfollow
  | true =>
    have hbefore : Sync.follow protocol (.start true) ((twoThreads true).take 41) =
        some ⟨[._INI], false, true⟩ := rfl
    have hafter : Sync.follow protocol ⟨[._INI], false, true⟩ ((twoThreads true).drop 41) =
        some (.start true) := rfl
    have hblock : Sync.follow withSMIX (Sync.Place.map some ⟨[._INI], false, true⟩)
        [.inr true, .inr false] = some (Sync.Place.map some ⟨[._INI], false, true⟩) := rfl
    have h := Sync.inserted_block (X := extensionSMIX) hbefore hafter hblock
    rwa [List.take_append_drop] at h

/-- Their history and the system after a schedule. -/
def playSMIX (schedule : List Bool) :
    List (Bool × (Event dsdt ⊕ Bool)) × Sync.System Bool (Option Lock) (Event dsdt ⊕ Bool) :=
  (Sync.System.start threadsSMIX).play withSMIX schedule

set_option maxRecDepth 4000 in
/-- Both tasks have come to their end. -/
theorem progress_done :
    (playSMIX (List.replicate 45 false ++ List.replicate 44 true)).2.owner (some .OSUM) = none ∧
      ∀ newer x older, (playSMIX (List.replicate 45 false ++ List.replicate 44 true)).1 =
          newer ++ x :: older → (∀ y ∈ newer, withSMIX.kind y.2 ≠ .reset) →
        withSMIX.kind x.2 = .signal → (twoTasks x.1).opener = true → ∀ u,
          (playSMIX (List.replicate 45 false ++ List.replicate 44 true)).2.todo u = [] := by
  have hrank (l : Option Lock) : withSMIX.rank l < 7 := by
    cases l with
    | none => decide
    | some m => exact Nat.lt_succ_of_lt (rank_lt m)
  refine progress threadsSMIX_embedded hrank (Sync.run_play _) fun b e rest hhead => ?_
  have hdone : (playSMIX (List.replicate 45 false ++ List.replicate 44 true)).2.todo b = [] := by
    cases b <;> rfl
  exact absurd (hdone.symm.trans hhead) (List.cons_ne_nil e rest).symm

end Progress

end Dsdt
