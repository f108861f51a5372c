import Mathlib.Algebra.Ring.Nat
import XPS9350.Aml.ExactTime
import XPS9350.TB3.Equiv.Footprint

/-!
# The presence check after a trained link

Both `PCED` methods wait for a link to train and then, after a pause, for the function below it to
answer, and both waits share one deadline.  `presence_iff` says, with exact time, for which moments
of the training the function is asked at all.
-/

namespace TB3

open Aml Aml.Prog

variable {σ : Type} {env : Env tb3 σ} {C : ExactClock env.hw} {l l' : Loop} {f : Field}
  {test : Method σ Bool} {deadline t : Integer} {w : World tb3 σ}

/-! ### Waits -/

/-- The time that `k` rounds of a wait take, 10 ms each. -/
def rounds (k : ℕ) : Integer := 100000 * BitVec.ofNat 64 k

theorem rounds_succ (k : ℕ) : rounds (k + 1) = rounds k + 10000 * 0x0A := by
  have hcast : BitVec.ofNat 64 (k + 1) = BitVec.ofNat 64 k + 1 := BitVec.ofNat_add k 1
  rw [rounds, hcast, BitVec.mul_add]
  rfl

theorem lastRound_perform {e : Event tb3} (h : e.ofLoop l = false) :
    lastRound l (w.perform env.hw e).log = lastRound l w.log := World.lastRound_perform h

theorem readSince_perform {e : Event tb3} (h : e.ofLoop l = false) (h' : e.reads f = false) :
    readSince l f (w.perform env.hw e).log = readSince l f w.log := World.readSince_perform h h'

/-- Events that take no time, belong to no round of `l` and do not read `f`. -/
abbrev Beside (l : Loop) (f : Field) : World tb3 σ → Event tb3 → Prop :=
  fun _ e => e.instant = true ∧ e.ofLoop l = false ∧ e.reads f = false

theorem load_beside {g : Field} (h : g ≠ f) : Emits env (Beside l f) (load g) :=
  emits_load fun _ _ => ⟨rfl, rfl, decide_eq_false h⟩

theorem trained_beside {p : Port} {s : Scope} :
    Emits env (Beside l (.AVND s)) (trained p) := by
  unfold trained
  apply emits_bind (load_beside (by simp))
  intro v
  apply emits_ite
  · exact emits_bind (load_beside (by simp)) fun _ => emits_pure
  · exact emits_bind (load_beside (by simp)) fun _ =>
      emits_bind (load_beside (by simp)) fun _ => emits_pure

/-- A wait that is left by its `Break` in round `k` ends `k` rounds after it began. -/
theorem waitUntil_exact (hnow : C.now w.hw = t) (htest : Emits env (Beside l f) test) :
    wp env (fun _ => True) (waitUntil l deadline test) (fun _ w' =>
      readSince l f w'.log = false ∧ ∃ x, lastRound l w'.log = some x ∧
        ∀ k, x.event = .pass l k →
          C.now x.before.hw = t + rounds k ∧ C.now w'.hw = C.now x.before.hw) w := by
  apply wp_whileLoop (fun i _ u => C.now u.hw = t + rounds i)
  · rw [hnow, rounds]
    simp
  · intro i _ u _ hu
    unfold Round
    rw [wp_bind, wp_timer, wp_pure]
    have htimer : C.now (env.hw.timer u.hw).2 = t + rounds i := (C.now_timer u.hw).trans hu
    split_ifs with h
    · -- a round: the wait is left, or there is a pause before the next one
      rw [wp_bind]
      refine wp_of_emits htest (fun _ _ => trivial) fun b u' hpath => ?_
      have hend : C.now u'.hw = t + rounds i :=
        (C.now_path hpath fun _ _ he => he.1).trans htimer
      have hlast := hpath.lastRound_eq fun _ _ he => he.2.1
      have hread := hpath.readSince_eq fun _ _ he => he.2
      apply wp_ite_of
      · intro _
        refine wp_pure.mpr ⟨hread.trans (readSince_of_ofLoop (by simp [Event.ofLoop]) rfl), _,
          hlast.trans (lastRound_of_ofLoop (by simp [Event.ofLoop])), fun k hk => ?_⟩
        obtain ⟨-, rfl⟩ := Event.pass.inj hk
        exact ⟨htimer, hend.trans htimer.symm⟩
      · intro _
        rw [wp_bind, wp_sleep]
        refine wp_pure.mpr ((C.now_sleep 0x0A u'.hw).trans ?_)
        rw [hend, rounds_succ, BitVec.add_assoc]
    · -- the deadline has passed
      refine ⟨?_, ⟨u.toState, .test l i⟩, ?_, fun k hk => by cases hk⟩
      · rw [readSince_perform rfl rfl]
        exact readSince_of_ofLoop (by simp [Event.ofLoop]) rfl
      · rw [lastRound_perform rfl]
        exact lastRound_of_ofLoop (by simp [Event.ofLoop])
  · exact fun _ _ _ => trivial

/-- A test that reads `f` in a round of its own does so unless the deadline has passed before. -/
theorem waitUntil_reads (hl : l' ≠ l) (hnow : C.now w.hw = t)
    (hread : readSince l f w.log = false)
    (htest : ∀ u, wp env (fun _ => True) test (fun _ u' => readSince (S := tb3) l f u'.log = true) u) :
    wp env (fun _ => True) (waitUntil l' deadline test) (fun _ w' =>
      (readSince l f w'.log = true ↔ t ≤ deadline) ∧ (¬ t ≤ deadline → C.now w'.hw = t)) w := by
  have hround {i : ℕ} : (Event.test l' i : Event tb3).ofLoop l = false := decide_eq_false hl
  -- before every round `f` was read already, or no time has passed
  apply wp_whileLoop (fun _ _ (u : World tb3 σ) =>
    C.now u.hw = t ∧ readSince l f u.log = false ∨ readSince l f u.log = true ∧ t ≤ deadline)
  · exact Or.inl ⟨hnow, hread⟩
  · intro i _ u _ hu
    unfold Round
    rw [wp_bind, wp_timer, wp_pure]
    have htimer : (env.hw.timer u.hw).1 = C.now u.hw := C.timer u.hw
    split_ifs with h
    · have hle : t ≤ deadline := by
        rcases hu with ⟨ht, -⟩ | ⟨-, hle⟩
        · rw [← ht, ← htimer]
          exact of_decide_eq_true h
        · exact hle
      rw [wp_bind]
      refine wp_imp (htest _) fun b u' hu' => ?_
      apply wp_ite_of
      · intro _
        exact wp_pure.mpr ⟨iff_of_true hu' hle, fun hlt => absurd hle hlt⟩
      · intro _
        rw [wp_bind, wp_sleep]
        exact wp_pure.mpr (Or.inr ⟨(readSince_perform rfl rfl).trans hu', hle⟩)
    · have hlog {v : Integer} : readSince l f ((u.perform env.hw (.test l' i)).perform env.hw
          (.timer v)).log = readSince l f u.log := by
        rw [readSince_perform rfl rfl, readSince_perform hround rfl]
      rcases hu with ⟨ht, hfalse⟩ | ⟨htrue, hle⟩
      · have hlt : ¬ t ≤ deadline := by
          rw [← ht, ← htimer]
          exact fun hle => h (decide_eq_true hle)
        refine ⟨iff_of_false ?_ hlt, fun _ => (C.now_timer u.hw).trans ht⟩
        rw [hlog, hfalse]
        exact Bool.false_ne_true
      · exact ⟨iff_of_true (hlog.trans htrue) hle, fun hlt => absurd hle hlt⟩
  · exact fun _ _ _ => trivial

/-! ### The wait and the pause behind it -/

/-- The moment `t` at which the presence loop is reached, and its deadline, when the call began at
`t0`: right away if the link needed no wait, else the pause `settle` after the wait. -/
structure Timed {hw : Hardware tb3 σ} (C : ExactClock hw) (l : Loop) (settle t0 t deadline : Integer)
    (log : List (Entry tb3 σ)) : Prop where
  unneeded : lastRound l log = none → t = t0 ∧ deadline = t0 + second
  trained : ∀ x k, lastRound l log = some x → x.event = .pass l k →
    t = C.now x.before.hw + settle ∧ deadline = C.now x.before.hw - rounds k + second

theorem Timed.congr {settle t0 : Integer} {log log' : List (Entry tb3 σ)}
    (h : Timed C l settle t0 t deadline log) (hlog : lastRound l log' = lastRound l log) :
    Timed C l settle t0 t deadline log' where
  unneeded h' := h.unneeded (hlog.symm.trans h')
  trained x k hx := h.trained x k (hlog.symm.trans hx)

/-- The last link training wait, with its own deadline, and the pause. -/
def settle (l : Loop) (p : Port) (ms : Integer) : Method σ Integer := do
  let Local5 := (← timer) + second
  let _ ← waitUntil l Local5 (trained p)
  sleep ms
  pure Local5

theorem settle_timed {ms t0 : Integer} {p : Port} {s : Scope} :
    wp env (fun _ => True) (settle l p ms) (fun deadline w' =>
      readSince l (Field.AVND s) w'.log = false ∧
        Timed C l (10000 * ms) t0 (C.now w'.hw) deadline w'.log) w := by
  unfold settle
  rw [wp_bind, wp_timer, wp_bind, C.timer]
  have hnow : C.now (env.hw.timer w.hw).2 = C.now w.hw := C.now_timer w.hw
  have hbeside : Emits env (Beside l (.AVND s)) (trained p) := trained_beside
  refine wp_imp (waitUntil_exact hnow hbeside) ?_
  rintro _ w' ⟨hread, x, hx, hpass⟩
  rw [wp_bind, wp_sleep, wp_pure]
  have hlast : lastRound l (w'.perform env.hw (.sleep ms)).log = some x :=
    (lastRound_perform rfl).trans hx
  refine ⟨(readSince_perform rfl rfl).trans hread, ?_, ?_⟩
  · intro hnone
    exact absurd (hlast.symm.trans hnone) (Option.some_ne_none x)
  · intro y k hy hk
    obtain rfl : x = y := Option.some.inj (hlast.symm.trans hy)
    obtain ⟨hbefore, hafter⟩ := hpass k hk
    refine ⟨?_, ?_⟩
    · rw [← hafter]
      exact C.now_sleep ms w'.hw
    · rw [hbefore, BitVec.add_sub_cancel]

theorem emits_waitUntil {P : World tb3 σ → Event tb3 → Prop} (ht : ∀ w i, P w (.test l i))
    (hp : ∀ w i, P w (.pass l i)) (htimer : ∀ w t, P w (.timer t)) (hsleep : ∀ w, P w (.sleep 0x0A))
    (htest : Emits env P test) : Emits env P (waitUntil l deadline test) := by
  apply emits_whileLoop ht hp
  · exact fun _ => emits_bind (emits_timer htimer) fun _ => emits_pure
  · intro _
    refine emits_bind htest fun b => emits_ite emits_pure ?_
    exact emits_seq (emits_sleep hsleep) emits_pure

/-- The presence loop. -/
theorem present_timed {settle t0 : Integer} {s : Scope} (hl : l' ≠ l)
    (hread : readSince l (Field.AVND s) w.log = false)
    (h : Timed C l settle t0 (C.now w.hw) deadline w.log) :
    wp env (fun _ => True) (waitUntil l' deadline (present s)) (fun _ w' =>
      ∃ t, Timed C l settle t0 t deadline w'.log ∧
        (readSince l (Field.AVND s) w'.log = true ↔ t ≤ deadline) ∧
        (¬ t ≤ deadline → C.now w'.hw = t)) w := by
  have htest (u : World tb3 σ) : wp env (fun _ => True) (present s)
      (fun _ u' => readSince (S := tb3) l (.AVND s) u'.log = true) u := by
    unfold present
    rw [wp_bind, wp_load, wp_pure]
    exact readSince_of_reads (decide_eq_true rfl)
  have hrounds : Emits env (fun _ e => Event.ofLoop (S := tb3) l e = false)
      (waitUntil l' deadline (present s)) := by
    apply emits_waitUntil
    · exact fun _ _ => decide_eq_false hl
    · exact fun _ _ => decide_eq_false hl
    · exact fun _ _ => rfl
    · exact fun _ => rfl
    · exact emits_bind (emits_load fun _ _ => rfl) fun _ => emits_pure
  have hnow : C.now w.hw = C.now w.hw := rfl
  refine wp_imp (wp_with_path (waitUntil_reads hl hnow hread htest) hrounds) ?_
  rintro _ w' ⟨⟨hiff, hnow⟩, hpath⟩
  exact ⟨C.now w.hw, h.congr (hpath.lastRound_eq fun _ _ he => he), hiff, hnow⟩

/-- When the function is asked: at once if the link needed no wait and the `Timer` does not
overflow, and behind a wait left in round `k` if the pause ends before the deadline or `rescued`
says so. -/
structure Checks {hw : Hardware tb3 σ} (C : ExactClock hw) (l : Loop) (f : Field) (settle : Integer)
    (rescued : Integer → Prop) (s : State tb3 σ) (log : List (Entry tb3 σ)) : Prop where
  unneeded : lastRound l log = none →
    (readSince l f log = true ↔ C.now s.hw ≤ C.now s.hw + second)
  trained : ∀ x k, lastRound l log = some x → x.event = .pass l k →
    (readSince l f log = true ↔
      C.now x.before.hw + settle ≤ C.now x.before.hw - rounds k + second ∨
        rescued (C.now x.before.hw + settle))

theorem Timed.checks {settle : Integer} {rescued : Integer → Prop} {s : State tb3 σ}
    {log : List (Entry tb3 σ)} (h : Timed C l settle (C.now s.hw) t deadline log)
    (hread : readSince l f log = true ↔ t ≤ deadline ∨ rescued t)
    (hrescued : rescued t → t ≤ t + second) : Checks C l f settle rescued s log where
  unneeded hnone := by
    obtain ⟨rfl, rfl⟩ := h.unneeded hnone
    rw [hread]
    exact or_iff_left_of_imp hrescued
  trained x k hx hk := by
    obtain ⟨rfl, rfl⟩ := h.trained x k hx hk
    exact hread

/-- Nothing has happened that matters yet. -/
structure Fresh (C : ExactClock env.hw) (l : Loop) (f : Field) (t0 : Integer) (w : World tb3 σ) :
    Prop where
  now : C.now w.hw = t0
  last : lastRound l w.log = none
  read : readSince l f w.log = false

theorem Fresh.step {t0 : Integer} {e : Event tb3} (h : Fresh C l f t0 w)
    (he : Beside l f w e) : Fresh C l f t0 (w.perform env.hw e) where
  now := (C.now_after he.1).trans h.now
  last := (lastRound_perform he.2.1).trans h.last
  read := (readSince_perform he.2.1 he.2.2).trans h.read

theorem Fresh.timed {settle t0 : Integer} (h : Fresh C l f t0 w) (ht : t = t0)
    (hd : deadline = t0 + second) : Timed C l settle t0 t deadline w.log where
  unneeded _ := ⟨ht, hd⟩
  trained _ _ hx := absurd (h.last.symm.trans hx) (Option.some_ne_none _).symm

/-! ### `XHC2.PCED` -/

namespace XHC2

theorem restore_timed {t0 : Integer} (h : Fresh C .XHC2train (.AVND .XHC2) t0 w) :
    wp env (fun _ => True) (PCED.restore (t0 + second)) (fun deadline w' =>
      readSince (S := tb3) .XHC2train (.AVND .XHC2) w'.log = false ∧
        Timed C .XHC2train 1500000 t0 (C.now w'.hw) deadline w'.log) w := by
  unfold PCED.restore
  rw [wp_bind, wp_get]
  apply wp_ite_of
  · intro _
    exact settle_timed
  · intro _
    exact wp_pure.mpr ⟨h.read, h.timed h.now rfl⟩

theorem PCED_checks {s : State tb3 σ} :
    wp env (fun _ => True) PCED (fun _ w' => ∃ y log, w'.log = y :: log ∧
      y.event = .set (.IIP3 .DSB2) 0 ∧
      Checks C .XHC2train (.AVND .XHC2) 1500000 (fun _ => False) s log) s.world := by
  have hstart : Fresh C .XHC2train (.AVND .XHC2) (C.now s.hw) s.world := ⟨rfl, rfl, rfl⟩
  unfold PCED
  simp only [RP01.UGIO_eq, pure_bind, ne_eq, not_true_eq_false, ↓reduceIte]
  rw [wp_bind, wp_set, wp_bind, wp_timer, C.timer, wp_bind]
  have hset := hstart.step (e := .set .GXCI 1) ⟨rfl, rfl, rfl⟩
  have htimer := hset.step (e := .timer (C.now s.hw)) ⟨rfl, rfl, rfl⟩
  refine wp_imp (restore_timed htimer) ?_
  rintro deadline w₁ ⟨hread₁, htimed₁⟩
  replace htimed₁ : Timed C .XHC2train 1500000 (C.now s.hw) (C.now w₁.hw) deadline w₁.log :=
    htimed₁
  rw [wp_bind, wp_set, wp_bind]
  refine wp_imp (present_timed (by decide) ((readSince_perform rfl rfl).trans hread₁)
    (htimed₁.congr (lastRound_perform rfl))) ?_
  rintro found w₃ ⟨t, htimed₃, hiff, -⟩
  -- the function was asked in time or not at all
  have hchecks {w₄ : World tb3 σ}
      (hlast : lastRound Loop.XHC2train w₄.log = lastRound Loop.XHC2train w₃.log)
      (hread : readSince Loop.XHC2train (Field.AVND .XHC2) w₄.log =
        readSince Loop.XHC2train (Field.AVND .XHC2) w₃.log) :
      Checks C .XHC2train (.AVND .XHC2) 1500000 (fun _ => False) s w₄.log := by
    apply (htimed₃.congr hlast).checks
    · rw [hread, hiff, or_false]
    · exact fun h => absurd h id
  apply wp_ite_of
  · intro _
    rw [wp_bind, wp_set, wp_set]
    exact ⟨_, _, rfl, rfl, hchecks (lastRound_perform rfl) (readSince_perform rfl rfl)⟩
  · intro _
    rw [wp_set]
    exact ⟨_, _, rfl, rfl, hchecks rfl rfl⟩

end XHC2

/-! ### `UPSB.PCED` -/

namespace UPSB

/-- `UPSB` was asked for its speed and reported that of the third generation; `PCED` asks only when
the link runs slower and the root port supports that speed too. -/
def Supports (log : List (Entry tb3 σ)) : Prop :=
  ∃ x ∈ log, x.event = .load (.SSPD .UPSB) 3

/-- Everything but rounds of the training wait and that answer. -/
def Early (_ : World tb3 σ) (e : Event tb3) : Prop :=
  e.ofLoop Loop.PCEDtrain = false ∧ e ≠ .load (.SSPD .UPSB) 3

section Early

variable {v : Integer} {i : ℕ}

@[grind ←] theorem early_set {n : Name} : Early w (.set n v) := ⟨rfl, by simp⟩

@[grind ←] theorem early_store : Early w (.store f v) := ⟨rfl, by simp⟩

@[grind ←] theorem early_sleep : Early w (.sleep v) := ⟨rfl, by simp⟩

@[grind ←] theorem early_timer : Early w (.timer v) := ⟨rfl, by simp⟩

@[grind ←] theorem early_load (h : f ≠ .SSPD .UPSB) : Early w (.load f v) := ⟨rfl, by simp [h]⟩

theorem waitUntil_early (hl : l ≠ .PCEDtrain) (htest : Emits env Early test) :
    Emits env Early (waitUntil l deadline test) := by
  apply emits_waitUntil
  · exact fun _ _ => ⟨decide_eq_false hl, by simp⟩
  · exact fun _ _ => ⟨decide_eq_false hl, by simp⟩
  · exact fun _ _ => early_timer
  · exact fun _ => early_sleep
  · exact htest

end Early

theorem supports_perform {e : Event tb3} (he : e ≠ .load (.SSPD .UPSB) 3) :
    Supports (w.perform env.hw e).log ↔ Supports w.log := by
  constructor
  · rintro ⟨x, hx, hload⟩
    rcases List.mem_cons.mp hx with rfl | hx
    · exact absurd hload he
    · exact ⟨x, hx, hload⟩
  · rintro ⟨x, hx, hload⟩
    exact ⟨x, List.mem_cons_of_mem _ hx, hload⟩

theorem supports_path {P : World tb3 σ → Event tb3 → Prop} {w' : World tb3 σ}
    (h : Path env.hw P w w') (hP : ∀ u e, P u e → e ≠ .load (.SSPD .UPSB) 3) :
    Supports w'.log ↔ Supports w.log :=
  h.invariant (I := fun u => Supports u.log ↔ Supports w.log) Iff.rfl fun u e hu _ he =>
    (supports_perform (hP u e he)).trans hu

/-- No time has passed, and the function was not asked. -/
structure Idle (C : ExactClock env.hw) (t : Integer) (w : World tb3 σ) : Prop where
  now : C.now w.hw = t
  read : readSince Loop.PCEDtrain (Field.AVND .UPSB) w.log = false

theorem Idle.step {e : Event tb3} (h : Idle C t w) (he : Beside .PCEDtrain (.AVND .UPSB) w e) :
    Idle C t (w.perform env.hw e) where
  now := (C.now_after he.1).trans h.now
  read := (readSince_perform he.2.1 he.2.2).trans h.read

/-- The last wait of `PCED` asks the function in every round. -/
theorem trainedPresent_reads (u : World tb3 σ) :
    wp env (fun _ => True) PCED.trainedPresent (fun _ u' =>
      readSince Loop.PCEDtrain (Field.AVND .UPSB) u'.log = true) u := by
  unfold PCED.trainedPresent
  rw [wp_bind, wp_load]
  apply wp_ite_of
  · intro _
    simp only [wp_bind, wp_load, wp_pure]
    exact readSince_of_reads rfl
  · intro _
    simp only [wp_bind, wp_load, wp_pure]
    exact readSince_of_reads rfl

theorem trained_early {p : Port} : Emits env Early (trained p) := by
  unfold trained
  grind

theorem present_early {s : Scope} : Emits env Early (present s) := by
  unfold present
  grind

theorem trainedPresent_early : Emits env Early (PCED.trainedPresent : Method σ Bool) := by
  unfold PCED.trainedPresent
  grind

theorem retrain_early : Emits env Early (PCED.retrain : Method σ Unit) := by
  have hwait : Emits env Early (do
      store .LRTN 1
      let Local2 := (← timer) + second
      if ← waitUntil .PCEDgen3 Local2 PCED.trainedPresent then
        Prog.set (.PCIA .RP01) 1 : Method σ Unit) := by
    refine emits_seq (emits_store fun _ => early_store) ?_
    refine emits_bind (emits_timer fun _ _ => early_timer) fun t => ?_
    refine emits_bind (waitUntil_early (by decide) trainedPresent_early) fun b => ?_
    exact emits_ite (emits_set fun _ => early_set) emits_pure
  have hupstream : Emits env Early (do
      if (← load (.TSPD .UPSB)) ≠ 0x03 then
        store (.TSPD .UPSB) 0x03
      store .LRTN 1
      let Local2 := (← timer) + second
      if ← waitUntil .PCEDgen3 Local2 PCED.trainedPresent then
        Prog.set (.PCIA .RP01) 1 : Method σ Unit) := by
    refine emits_bind (emits_load fun _ _ => early_load (by simp)) fun v => ?_
    exact emits_ite (emits_seq (emits_store fun _ => early_store) hwait) hwait
  unfold PCED.retrain
  refine emits_bind (emits_load fun _ _ => early_load (by simp)) fun v => ?_
  exact emits_ite (emits_seq (emits_store fun _ => early_store) hupstream) hupstream

theorem gen1_early {Local0 Local1 Local5 : Integer} :
    Emits env Early (PCED.gen1 Local0 Local1 Local5 : Method σ Unit) := by
  have hwaits : Emits env Early (do
      let _ ← waitUntil .PCEDgen1train Local5 (trained .RP01)
      sleep 0x78
      let _ ← waitUntil .PCEDgen1present Local5 (present .UPSB)
      store (.TSPD .RP01) 0x03
      store .LRTN 1 : Method σ Unit) := by
    refine emits_bind (waitUntil_early (by decide) trained_early) fun _ => ?_
    refine emits_seq (emits_sleep fun _ => early_sleep) ?_
    refine emits_bind (waitUntil_early (by decide) present_early) fun _ => ?_
    exact emits_seq (emits_store fun _ => early_store) (emits_store fun _ => early_store)
  unfold PCED.gen1
  refine emits_seq (emits_store fun _ => early_store) ?_
  refine emits_ite hwaits (emits_ite ?_ hwaits)
  exact emits_seq (emits_store fun _ => early_store) hwaits

theorem retrain_reads (h : Idle C t w) :
    wp env (fun _ => True) PCED.retrain (fun _ w' =>
      readSince Loop.PCEDtrain (Field.AVND .UPSB) w'.log = true ↔ t ≤ t + second) w := by
  -- the stores take no time, so the wait begins at `t`
  have hrelink {u : World tb3 σ} (hu : Idle C t u) : wp env (fun _ => True) (do
      store .LRTN 1
      let Local2 := (← timer) + second
      if ← waitUntil .PCEDgen3 Local2 PCED.trainedPresent then
        Prog.set (.PCIA .RP01) 1) (fun _ w' =>
      readSince Loop.PCEDtrain (Field.AVND .UPSB) w'.log = true ↔ t ≤ t + second) u := by
    rw [wp_bind, wp_store, wp_bind, wp_timer, wp_bind, C.timer]
    have hstore := hu.step (e := .store .LRTN (tb3.cut .LRTN 1)) ⟨rfl, rfl, rfl⟩
    rw [hstore.now]
    have htimer := hstore.step (e := .timer t) ⟨rfl, rfl, rfl⟩
    refine wp_imp (waitUntil_reads (by decide) htimer.now htimer.read trainedPresent_reads) ?_
    rintro b u' ⟨hiff, -⟩
    apply wp_ite_of
    · intro _
      rw [wp_set, readSince_perform rfl rfl]
      exact hiff
    · intro _
      exact wp_pure.mpr hiff
  have hupstream {u : World tb3 σ} (hu : Idle C t u) : wp env (fun _ => True) (do
      if (← load (.TSPD .UPSB)) ≠ 0x03 then
        store (.TSPD .UPSB) 0x03
      store .LRTN 1
      let Local2 := (← timer) + second
      if ← waitUntil .PCEDgen3 Local2 PCED.trainedPresent then
        Prog.set (.PCIA .RP01) 1) (fun _ w' =>
      readSince Loop.PCEDtrain (Field.AVND .UPSB) w'.log = true ↔ t ≤ t + second) u := by
    rw [wp_bind, wp_load]
    have hload := hu.step
      (e := .load (.TSPD .UPSB) (env.hw.reads (.TSPD .UPSB) u.toState)) ⟨rfl, rfl, rfl⟩
    apply wp_ite_of
    · intro _
      rw [wp_bind, wp_store]
      exact hrelink (hload.step ⟨rfl, rfl, rfl⟩)
    · intro _
      exact hrelink hload
  unfold PCED.retrain
  rw [wp_bind, wp_load]
  have hload := h.step
    (e := .load (.TSPD .RP01) (env.hw.reads (.TSPD .RP01) w.toState)) ⟨rfl, rfl, rfl⟩
  apply wp_ite_of
  · intro _
    rw [wp_bind, wp_store]
    exact hupstream (hload.step ⟨rfl, rfl, rfl⟩)
  · intro _
    exact hupstream hload

/-- Neither was the function asked nor did `UPSB` report the speed of the third generation. -/
structure Undecided (C : ExactClock env.hw) (t : Integer) (w : World tb3 σ) : Prop
    extends Idle C t w where
  unsupported : ¬ Supports w.log

theorem Undecided.step {e : Event tb3} (h : Undecided C t w)
    (he : Beside .PCEDtrain (.AVND .UPSB) w e) (he' : e ≠ .load (.SSPD .UPSB) 3) :
    Undecided C t (w.perform env.hw e) where
  toIdle := h.toIdle.step he
  unsupported := (supports_perform he').not.mpr h.unsupported

/-- The last part asks the function exactly when it retrains the link. -/
theorem gen3_reads (h : Undecided C t w) :
    wp env (fun _ => True) PCED.gen3 (fun _ w' =>
      readSince Loop.PCEDtrain (Field.AVND .UPSB) w'.log = true ↔
        Supports w'.log ∧ t ≤ t + second) w := by
  -- no retrain
  have hset {u : World tb3 σ} (hu : Undecided C t u) :
      wp env (fun _ => True) (Prog.set (.PCIA .RP01) 1) (fun _ w' =>
        readSince Loop.PCEDtrain (Field.AVND .UPSB) w'.log = true ↔
          Supports w'.log ∧ t ≤ t + second) u := by
    rw [wp_set, readSince_perform rfl rfl, hu.read, supports_perform (by simp)]
    exact iff_of_false Bool.false_ne_true fun h => hu.unsupported h.1
  unfold PCED.gen3
  rw [wp_bind, wp_load]
  have h₁ := h.step (e := .load .CSPD (env.hw.reads .CSPD w.toState)) ⟨rfl, rfl, rfl⟩ (by simp)
  apply wp_ite_of
  · intro _
    rw [wp_bind, wp_load]
    generalize w.perform env.hw (.load .CSPD (env.hw.reads .CSPD w.toState)) = w₁ at h₁
    have h₂ := h₁.step (e := .load (.SSPD .RP01) (env.hw.reads (.SSPD .RP01) w₁.toState))
      ⟨rfl, rfl, rfl⟩ (by simp)
    apply wp_ite_of
    · intro _
      rw [wp_bind, wp_load]
      generalize w₁.perform env.hw (.load (.SSPD .RP01) (env.hw.reads (.SSPD .RP01) w₁.toState)) =
        w₂ at h₂
      generalize hv : env.hw.reads (.SSPD .UPSB) w₂.toState = v
      apply wp_ite_of
      · rintro rfl
        -- the retrain
        have hidle := h₂.toIdle.step (e := .load (.SSPD .UPSB) 3) ⟨rfl, rfl, rfl⟩
        have hsupports : Supports (w₂.perform env.hw (.load (.SSPD .UPSB) 3)).log :=
          ⟨_, List.mem_cons_self, rfl⟩
        refine wp_imp (wp_with_path (retrain_reads hidle) retrain_early) ?_
        rintro _ w' ⟨hiff, hpath⟩
        rw [hiff]
        have hstill := (supports_path hpath fun _ _ he => he.2).mpr hsupports
        exact (and_iff_right hstill).symm
      · intro hne
        exact hset (h₂.step ⟨rfl, rfl, rfl⟩ (by simpa using hne))
    · intro _
      exact hset h₂
  · intro _
    exact hset h₁

theorem restore_timed {t0 Local0 Local1 : Integer}
    (h : Fresh C .PCEDtrain (.AVND .UPSB) t0 w) (hnot : ¬ Supports w.log) :
    wp env (fun _ => True) (PCED.restore Local0 Local1 (t0 + second)) (fun deadline w' =>
      (readSince Loop.PCEDtrain (Field.AVND .UPSB) w'.log = false ∧
        Timed C .PCEDtrain 2500000 t0 (C.now w'.hw) deadline w'.log) ∧ ¬ Supports w'.log) w := by
  -- the wait, whatever came before it
  have hwait {u : World tb3 σ} (hu : ¬ Supports u.log) :
      wp env (fun _ => True) (settle .PCEDtrain .RP01 0xFA) (fun deadline w' =>
        (readSince Loop.PCEDtrain (Field.AVND .UPSB) w'.log = false ∧
          Timed C .PCEDtrain 2500000 t0 (C.now w'.hw) deadline w'.log) ∧ ¬ Supports w'.log) u := by
    have hunasked : Emits env (fun _ e => e ≠ .load (Field.SSPD .UPSB) 3)
        (settle .PCEDtrain .RP01 0xFA : Method σ Integer) := by
      unfold settle
      refine emits_bind (emits_timer (by simp)) fun t => ?_
      refine emits_bind ?_ fun _ => emits_seq (emits_sleep (by simp)) emits_pure
      apply emits_waitUntil (by simp) (by simp) (by simp) (by simp)
      exact trained_early.mono fun _ _ he => he.2
    have htimed : wp env (fun _ => True) (settle .PCEDtrain .RP01 0xFA) (fun deadline w' =>
        readSince Loop.PCEDtrain (Field.AVND .UPSB) w'.log = false ∧
          Timed C .PCEDtrain 2500000 t0 (C.now w'.hw) deadline w'.log) u := settle_timed
    refine wp_imp (wp_with_path htimed hunasked) ?_
    rintro deadline w' ⟨h', hpath⟩
    exact ⟨h', (supports_path hpath fun _ _ he => he).not.mpr hu⟩
  unfold PCED.restore
  rw [wp_bind, wp_get]
  apply wp_ite_of
  · intro _
    rw [wp_bind, wp_sleep]
    have hsleep : ¬ Supports (w.perform env.hw (.sleep 0x1E)).log :=
      (supports_perform (by simp)).not.mpr hnot
    apply wp_ite_of
    · intro _
      rw [wp_bind]
      apply wp_of_emits gen1_early (fun _ _ => trivial)
      intro _ w' hpath
      exact hwait ((supports_path hpath fun _ _ he => he.2).not.mpr hsleep)
    · intro _
      exact hwait hsleep
  · intro _
    exact wp_pure.mpr ⟨⟨h.read, h.timed h.now rfl⟩, hnot⟩

/-- The last part has no training wait. -/
theorem gen3_rounds :
    Emits env (fun _ e => Event.ofLoop Loop.PCEDtrain e = false) (PCED.gen3 : Method σ Unit) := by
  have hset : Emits env (fun _ e => Event.ofLoop Loop.PCEDtrain e = false)
      (Prog.set (.PCIA .RP01) 1 : Method σ Unit) := emits_set fun _ => rfl
  unfold PCED.gen3
  refine emits_bind (emits_load fun _ _ => rfl) fun _ => emits_ite ?_ hset
  refine emits_bind (emits_load fun _ _ => rfl) fun _ => emits_ite ?_ hset
  refine emits_bind (emits_load fun _ _ => rfl) fun _ => emits_ite ?_ hset
  exact retrain_early.mono fun _ _ he => he.1

/-- What `PCED` does before it waits leaves everything fresh. -/
structure Untouched (C : ExactClock env.hw) (t0 : Integer) (w : World tb3 σ) : Prop
    extends Fresh C .PCEDtrain (.AVND .UPSB) t0 w where
  unsupported : ¬ Supports w.log

theorem Untouched.step {t0 : Integer} {e : Event tb3} (h : Untouched C t0 w)
    (he : Beside .PCEDtrain (.AVND .UPSB) w e) (he' : e ≠ .load (.SSPD .UPSB) 3) :
    Untouched C t0 (w.perform env.hw e) where
  toFresh := h.toFresh.step he
  unsupported := (supports_perform he').not.mpr h.unsupported

theorem disable_untouched {t0 Local1 : Integer} (h : Untouched C t0 w) :
    wp env (fun _ => True) (PCED.disable Local1) (fun _ => Untouched C t0) w := by
  unfold PCED.disable
  apply wp_ite_of
  · intro _
    rw [wp_bind, wp_get]
    apply wp_ite_of
    · intro _
      rw [wp_bind, wp_set, wp_bind, wp_store, wp_pure]
      have hset := h.step (e := .set (.PRSR .RP01) 1) ⟨rfl, rfl, rfl⟩ (by simp)
      exact hset.step ⟨rfl, rfl, rfl⟩ (by simp)
    · intro _
      exact wp_pure.mpr h
  · intro _
    exact wp_pure.mpr h

theorem PCED_checks {s : State tb3 σ} :
    wp env (fun _ => True) PCED (fun _ w' => ∃ y log, w'.log = y :: log ∧
      y.event = .set (.IIP3 .RP01) 0 ∧
      Checks C .PCEDtrain (.AVND .UPSB) 2500000
        (fun t => Supports log ∧ t ≤ t + second) s log) s.world := by
  have hstart : Untouched C (C.now s.hw) s.world :=
    ⟨⟨rfl, rfl, rfl⟩, by simp [Supports]⟩
  unfold PCED
  simp only [RP01.UGIO_eq, pure_bind, ne_eq, not_true_eq_false, ↓reduceIte]
  rw [wp_bind, wp_set, wp_bind]
  have hset := hstart.step (e := .set .GPCI 1) ⟨rfl, rfl, rfl⟩ (by simp)
  refine wp_imp (disable_untouched hset) fun Local0 w₁ h₁ => ?_
  rw [wp_bind, wp_timer, C.timer, h₁.now, wp_bind]
  have htimer := h₁.step (e := .timer (C.now s.hw)) ⟨rfl, rfl, rfl⟩ (by simp)
  refine wp_imp (restore_timed htimer.toFresh htimer.unsupported) ?_
  rintro deadline w₂ ⟨⟨hread₂, htimed₂⟩, hunsupported₂⟩
  rw [wp_bind, wp_set, wp_bind]
  -- the presence loop
  have hpresent : Emits env (fun _ e => e ≠ .load (Field.SSPD .UPSB) 3)
      (waitUntil .PCEDpresent deadline (present .UPSB) : Method σ Bool) :=
    (waitUntil_early (by decide) present_early).mono fun _ _ he => he.2
  refine wp_imp (wp_with_path (present_timed (by decide)
    ((readSince_perform rfl rfl).trans hread₂) (htimed₂.congr (lastRound_perform rfl)))
    hpresent) ?_
  rintro _ w₃ ⟨⟨t, htimed₃, hiff, hnow⟩, hpath₃⟩
  have hunsupported₃ : ¬ Supports w₃.log := by
    rw [supports_path hpath₃ fun _ _ he => he, supports_perform (by simp)]
    exact hunsupported₂
  rw [wp_bind]
  by_cases hle : t ≤ deadline
  · -- asked already; what follows does not change that
    refine wp_of_emits gen3_rounds (fun _ _ => trivial) fun _ w₄ hpath₄ => ?_
    have hlast : lastRound Loop.PCEDtrain w₄.log = lastRound Loop.PCEDtrain w₃.log :=
      hpath₄.lastRound_eq fun _ _ he => he
    rw [wp_set]
    refine ⟨_, _, rfl, rfl, (htimed₃.congr hlast).checks ?_ And.right⟩
    exact iff_of_true (hpath₄.readSince_mono (fun _ _ he => he) (hiff.mpr hle)) (Or.inl hle)
  · have hundecided : Undecided C t w₃ :=
      ⟨⟨hnow hle, Bool.eq_false_iff.mpr (hiff.not.mpr hle)⟩, hunsupported₃⟩
    refine wp_imp (wp_with_path (gen3_reads hundecided) gen3_rounds) ?_
    rintro _ w₄ ⟨hiff₄, hpath₄⟩
    have hlast : lastRound Loop.PCEDtrain w₄.log = lastRound Loop.PCEDtrain w₃.log :=
      hpath₄.lastRound_eq fun _ _ he => he
    rw [wp_set]
    refine ⟨_, _, rfl, rfl, (htimed₃.congr hlast).checks ?_ And.right⟩
    rw [hiff₄]
    exact (or_iff_right hle).symm

end UPSB

/-! ### The check -/

/-- **When the function below a trained link is asked**, with exact time: if the link needed no
wait, unless the `Timer` overflows within a second; behind a wait that was left in round `k` if the
pause ends before the deadline the wait had too, or, in `UPSB.PCED`, if the link is retrained. -/
theorem presence_iff {hw : Hardware tb3 σ} (C : ExactClock hw) (fuel : ℕ) (s : State tb3 σ) :
    (∀ w, UPSB.PCED ⟨hw, fuel⟩ s.world = (some (), w) → ∃ y log, w.log = y :: log ∧
      y.event = .set (.IIP3 .RP01) 0 ∧
      Checks C .PCEDtrain (.AVND .UPSB) 2500000
        (fun t => UPSB.Supports log ∧ t ≤ t + second) s log) ∧
    (∀ w, XHC2.PCED ⟨hw, fuel⟩ s.world = (some (), w) → ∃ y log, w.log = y :: log ∧
      y.event = .set (.IIP3 .DSB2) 0 ∧
      Checks C .XHC2train (.AVND .XHC2) 1500000 (fun _ => False) s log) :=
  ⟨fun _ hr => wp_of_run hr UPSB.PCED_checks, fun _ hr => wp_of_run hr XHC2.PCED_checks⟩

/-- Without an overflow, and `k` rounds after the wait began, the pause ends in time up to round 75
of `UPSB.PCED`, whose pause takes 250 ms, and up to round 85 of `XHC2.PCED`, whose takes 150 ms. -/
theorem inTime_iff {settle : Integer} {k : ℕ} (hsettle : settle.toNat ≤ 2500000)
    (hk : 100000 * k ≤ t.toNat) (ht : t.toNat + 10000000 < 2 ^ 64) :
    t + settle ≤ t - rounds k + second ↔ 100000 * k + settle.toNat ≤ 10000000 := by
  have hrounds : (rounds k).toNat = 100000 * k := by
    have hten : (100000 : Integer).toNat = 100000 := rfl
    rw [rounds, BitVec.toNat_mul, BitVec.toNat_ofNat, Nat.mul_mod_mod, hten]
    exact Nat.mod_eq_of_lt (by omega)
  have hsecond : second.toNat = 10000000 := rfl
  rw [BitVec.le_def, BitVec.toNat_add, BitVec.toNat_add, BitVec.toNat_sub, hrounds, hsecond]
  omega

/-! ### A link that trains late -/

/-- A link below `DSB2` that reports training for 900 ms; the state is the time. -/
def slowLink : Hardware tb3 Integer where
  load f t := (if f = .LTRN .DSB2 ∧ t < 9000000 then 1 else 0, t)
  store _ _ t := t
  sleep ms t := t + 10000 * ms
  stall us t := t + 10 * us
  timer t := (t, t)

/-- Its time is exact. -/
def slowLinkClock : ExactClock slowLink where
  now t := t
  timer _ := rfl
  now_timer _ := rfl
  now_load _ _ := rfl
  now_store _ _ _ := rfl
  now_sleep _ _ := rfl

/-- `DSB2` was reset when `XHC2.PCED` is called. -/
def slowLinkState : State tb3 Integer := ⟨Function.update Name.init (.PRSR .DSB2) 1, 0⟩

/-- Both methods return on it, and `presence_iff` says when they ask. -/
theorem presence_iff_slowLink :
    (∃ w y log, UPSB.PCED ⟨slowLink, 100⟩ slowLinkState.world = (some (), w) ∧ w.log = y :: log ∧
      Checks slowLinkClock .PCEDtrain (.AVND .UPSB) 2500000
        (fun t => UPSB.Supports log ∧ t ≤ t + second) slowLinkState log) ∧
    ∃ w y log, XHC2.PCED ⟨slowLink, 100⟩ slowLinkState.world = (some (), w) ∧ w.log = y :: log ∧
      Checks slowLinkClock .XHC2train (.AVND .XHC2) 1500000 (fun _ => False) slowLinkState log := by
  have hUPSB : (UPSB.PCED ⟨slowLink, 100⟩ slowLinkState.world).1 = some () := by decide +kernel
  have hXHC2 : (XHC2.PCED ⟨slowLink, 100⟩ slowLinkState.world).1 = some () := by decide +kernel
  have hchecks := presence_iff slowLinkClock 100 slowLinkState
  constructor
  · rcases hrun : UPSB.PCED ⟨slowLink, 100⟩ slowLinkState.world with ⟨r, w⟩
    rw [hrun] at hUPSB
    obtain rfl : r = some () := hUPSB
    obtain ⟨y, log, hlog, -, h⟩ := hchecks.1 w hrun
    exact ⟨w, y, log, rfl, hlog, h⟩
  · rcases hrun : XHC2.PCED ⟨slowLink, 100⟩ slowLinkState.world with ⟨r, w⟩
    rw [hrun] at hXHC2
    obtain rfl : r = some () := hXHC2
    obtain ⟨y, log, hlog, -, h⟩ := hchecks.2 w hrun
    exact ⟨w, y, log, rfl, hlog, h⟩

/-- The round in which a wait was left by its `Break`. -/
def leftInRound {S : Signature} {σ : Type} (x : Entry S σ) : Option ℕ :=
  match x.event with
  | .pass _ k => some k
  | _ => none

/-- The wait for the link is left by its `Break` in round 90, and then `XHC2` is never asked. -/
theorem not_checked_slowLink :
    (XHC2.PCED ⟨slowLink, 100⟩ slowLinkState.world).1 = some () ∧
      (lastRound Loop.XHC2train (XHC2.PCED ⟨slowLink, 100⟩ slowLinkState.world).2.log).bind
        leftInRound = some 90 ∧
      readSince Loop.XHC2train (Field.AVND .XHC2)
        (XHC2.PCED ⟨slowLink, 100⟩ slowLinkState.world).2.log = false := by
  decide +kernel

end TB3
