import Mathlib.Data.List.Nodup
import XPS9350.Sync.Basic

/-!
# Exclusion and the gate

Every thread of a run stays where `follow` takes it (`Run.place`), and it holds exactly the locks
that the system says it owns (`Run.owner_iff`).

* `Run.alone`: while a thread holds a lock, nobody else does anything that belongs inside it.
* `Run.count_add_afoot`: what the gate still lets through and those on their way through it account
  for the signals given since it was shut, and for those who were on their way at that moment.
-/

namespace Sync

variable {L E ι : Type} [DecidableEq ι] [DecidableEq L] {p : Protocol L E} {threads : ι → List E}
  {opener : ι → Bool} {past newer mid older : List (ι × E)} {s s' : System ι L E} {t u : ι} {e : E}
  {l : L} {x y : Place L}

/-! ### Places -/

variable (p) in
/-- The place of the thread `t` after the given history. -/
def place (opener : ι → Bool) (t : ι) : List (ι × E) → Option (Place L)
  | [] => some (.start (opener t))
  | (u, e) :: past =>
    if u = t then (place opener t past).bind (·.next p e) else place opener t past

variable (p) in
/-- Every thread keeps to the protocol. -/
def Disciplined (opener : ι → Bool) (threads : ι → List E) : Prop :=
  ∀ t, (follow p (.start (opener t)) (threads t)).isSome

/-- In a run each thread has gone the first part of its way. -/
theorem Run.place (h : Run p (.start threads) past s) (hd : Disciplined p opener threads) (t : ι) :
    ∃ x, place p opener t past = some x ∧
      follow p x (s.todo t) = follow p (.start (opener t)) (threads t) := by
  induction h with
  | start => exact ⟨_, rfl, rfl⟩
  | @step past s u e rest run head enabled ih =>
    obtain ⟨x, hx, hfollow⟩ := ih
    by_cases hu : u = t
    · subst hu
      rw [head, follow_cons] at hfollow
      have hsome : ((x.next p e).bind (follow p · rest)).isSome := by
        rw [hfollow]
        exact hd u
      obtain ⟨y, hy⟩ : ∃ y, x.next p e = some y := by
        rcases hnext : x.next p e with _ | y
        · rw [hnext] at hsome
          cases hsome
        · exact ⟨y, rfl⟩
      refine ⟨y, ?_, ?_⟩
      · rw [Sync.place, if_pos rfl, hx]
        exact hy
      · rw [hy] at hfollow
        show follow p y (Function.update s.todo u (s.todo u).tail u) = _
        rw [Function.update_self, head]
        exact hfollow
    · refine ⟨x, ?_, ?_⟩
      · rw [Sync.place, if_neg hu]
        exact hx
      · show follow p x (Function.update s.todo u (s.todo u).tail t) = _
        rw [Function.update_of_ne (Ne.symm hu)]
        exact hfollow

/-- The place before and after the last event. -/
theorem Run.next (h : Run p (.start threads) ((t, e) :: past) s)
    (hd : Disciplined p opener threads) :
    ∃ x y, Sync.place p opener t past = some x ∧ x.next p e = some y ∧
      Sync.place p opener t ((t, e) :: past) = some y := by
  obtain ⟨s', _, hrun, -⟩ := h.of_cons
  obtain ⟨x, hx, -⟩ := hrun.place hd t
  obtain ⟨y, hy, -⟩ := h.place hd t
  refine ⟨x, y, hx, ?_, hy⟩
  rw [Sync.place, if_pos rfl, hx] at hy
  exact hy

theorem place_of_ne (h : u ≠ t) : place p opener t ((u, e) :: past) = place p opener t past :=
  if_neg h

omit [DecidableEq ι] in
theorem next_opener (h : x.next p e = some y) : y.opener = x.opener := by
  rcases next_cases h with ⟨-, rfl⟩ | ⟨-, -, rfl⟩ | ⟨-, -, rfl⟩ | ⟨k, -, -, -, rfl⟩ |
    ⟨k, -, -, -, hy⟩ | ⟨-, -, rfl⟩ | ⟨k, -, -, -, rfl⟩
  · rfl
  · rfl
  · rfl
  · rfl
  · rw [hy]
  · rfl
  · rfl

/-- Whether a thread is an opener never changes. -/
theorem opener_place (h : place p opener t past = some x) : x.opener = opener t := by
  induction past generalizing x with
  | nil =>
    obtain rfl := Option.some.inj h
    rfl
  | cons a past ih =>
    obtain ⟨u, e⟩ := a
    rw [place] at h
    split_ifs at h
    · obtain ⟨y, hy, hnext⟩ := Option.bind_eq_some_iff.mp h
      rw [next_opener hnext]
      exact ih hy
    · exact ih h

/-! ### Locks -/

/-- The locks of a place have different ranks, those taken later the higher ones. -/
def Ranked (p : Protocol L E) (x : Place L) : Prop :=
  x.held.Pairwise fun k l => p.rank l < p.rank k

theorem Ranked.next (h : Ranked p x) (hn : x.next p e = some y) : Ranked p y := by
  rcases next_cases hn with ⟨-, rfl⟩ | ⟨-, -, rfl⟩ | ⟨-, -, rfl⟩ | ⟨l, -, -, hrank, rfl⟩ |
    ⟨l, -, -, hheld, -⟩ | ⟨-, -, rfl⟩ | ⟨l, -, -, -, rfl⟩
  · exact h
  · exact h
  · exact h
  · exact List.pairwise_cons.mpr ⟨hrank, h⟩
  · have htail : (l :: y.held).Pairwise fun k l => p.rank l < p.rank k := by
      rw [← hheld]
      exact h
    exact (List.pairwise_cons.mp htail).2
  · exact h
  · exact h

theorem ranked_place (h : place p opener t past = some x) : Ranked p x := by
  induction past generalizing x with
  | nil =>
    obtain rfl := Option.some.inj h
    exact List.Pairwise.nil
  | cons a past ih =>
    obtain ⟨u, e⟩ := a
    rw [place] at h
    split_ifs at h
    · obtain ⟨y, hy, hnext⟩ := Option.bind_eq_some_iff.mp h
      exact (ih hy).next hnext
    · exact ih h

omit [DecidableEq L] in
/-- A lock that was just given back is not held any more. -/
theorem Ranked.not_mem_release (h : Ranked p x) (hheld : x.held = l :: y.held) : l ∉ y.held := by
  intro hmem
  have hcons : (l :: y.held).Pairwise fun k l => p.rank l < p.rank k := by
    rw [← hheld]
    exact h
  exact Nat.lt_irrefl _ ((List.pairwise_cons.mp hcons).1 l hmem)

variable (p) in
/-- The thread `t` holds the lock `l`. -/
def Holds (opener : ι → Bool) (past : List (ι × E)) (t : ι) (l : L) : Prop :=
  ∃ x, place p opener t past = some x ∧ l ∈ x.held

theorem holds_iff (h : place p opener t past = some x) :
    Holds p opener past t l ↔ l ∈ x.held := by
  constructor
  · rintro ⟨x', hx', hmem⟩
    obtain rfl : x = x' := Option.some.inj (h.symm.trans hx')
    exact hmem
  · exact fun hmem => ⟨x, h, hmem⟩

theorem holds_of_ne (h : u ≠ t) :
    Holds p opener ((u, e) :: past) t l ↔ Holds p opener past t l := by
  unfold Holds
  rw [place_of_ne h]

/-- **What an event does to the locks**, in the system and in the place of the thread. -/
theorem owner_cases (hn : x.next p e = some y) (he : s.Enabled p e) :
    ((s.after p t e).owner = s.owner ∧ y.held = x.held) ∨
    (∃ k, s.owner k = none ∧ (s.after p t e).owner = Function.update s.owner k (some t) ∧
      y.held = k :: x.held) ∨
    ∃ k, (s.after p t e).owner = Function.update s.owner k none ∧ x.held = k :: y.held := by
  unfold System.Enabled at he
  unfold System.after
  rcases next_cases hn with ⟨hk, rfl⟩ | ⟨hk, -, rfl⟩ | ⟨hk, -, rfl⟩ | ⟨k, hk, -, -, rfl⟩ |
    ⟨k, hk, -, hheld, -⟩ | ⟨hk, -, rfl⟩ | ⟨k, hk, -, -, rfl⟩
  · exact .inl ⟨by simp only [hk], rfl⟩
  · exact .inl ⟨by simp only [hk], rfl⟩
  · exact .inl ⟨by simp only [hk], rfl⟩
  · exact .inr (.inl ⟨k, by simpa only [hk] using he, by simp only [hk], rfl⟩)
  · exact .inr (.inr ⟨k, by simp only [hk], hheld⟩)
  · exact .inl ⟨by simp only [hk], rfl⟩
  · exact .inl ⟨by simp only [hk], rfl⟩

/-- **A thread owns the locks that it holds.** -/
theorem Run.owner_iff (h : Run p (.start threads) past s) (hd : Disciplined p opener threads) :
    s.owner l = some t ↔ Holds p opener past t l := by
  induction h generalizing l t with
  | start =>
    rw [holds_iff (x := .start (opener t)) rfl]
    simp [System.start, Place.start]
  | @step past s u e rest run head enabled ih =>
    obtain ⟨x, y, hx, hnext, hy⟩ := (Run.step run head enabled).next hd
    have hmover (k : L) : s.owner k = some u ↔ k ∈ x.held := ih.trans (holds_iff hx)
    rcases owner_cases (t := u) hnext enabled with ⟨howner, hheld⟩ | ⟨k, hfree, howner, hheld⟩ |
      ⟨k, howner, hheld⟩
    · -- the locks stay as they are
      rw [howner]
      by_cases hu : u = t
      · subst hu
        rw [holds_iff hy, hheld]
        exact hmover l
      · rw [holds_of_ne hu]
        exact ih
    · -- the thread takes the lock `k`
      rw [howner]
      by_cases hlk : l = k
      · subst hlk
        rw [Function.update_self, Option.some_inj]
        constructor
        · rintro rfl
          rw [holds_iff hy, hheld]
          exact List.mem_cons_self
        · intro hold
          by_contra hu
          -- nobody held the lock before
          rw [holds_of_ne hu, ← ih, hfree] at hold
          cases hold
      · rw [Function.update_of_ne hlk]
        by_cases hu : u = t
        · subst hu
          rw [holds_iff hy, hheld, hmover, List.mem_cons]
          simp [hlk]
        · rw [holds_of_ne hu]
          exact ih
    · -- the thread gives the lock `k` back
      rw [howner]
      by_cases hlk : l = k
      · subst hlk
        have hmine : s.owner l = some u := (hmover l).mpr (by rw [hheld]; exact List.mem_cons_self)
        rw [Function.update_self]
        constructor
        · intro hnone
          cases hnone
        · intro hold
          by_cases hu : u = t
          · subst hu
            rw [holds_iff hy] at hold
            exact absurd hold ((ranked_place hx).not_mem_release hheld)
          · rw [holds_of_ne hu, ← ih, hmine, Option.some_inj] at hold
            exact absurd hold hu
      · rw [Function.update_of_ne hlk]
        by_cases hu : u = t
        · subst hu
          rw [holds_iff hy, hmover, hheld, List.mem_cons]
          simp [hlk]
        · rw [holds_of_ne hu]
          exact ih

/-! ### Exclusion -/

/-- Whoever does something that belongs inside a lock owns it. -/
theorem Run.owner_of_inside (h : Run p (.start threads) ((t, e) :: past) s)
    (hd : Disciplined p opener threads) (he : p.kind e = .inside l) : Holds p opener past t l := by
  obtain ⟨x, y, hx, hnext, -⟩ := h.next hd
  obtain ⟨⟨-, hmem⟩, -⟩ := (next_inside he).mp hnext
  exact ⟨x, hx, hmem⟩

/-- Two threads do not hold the same lock. -/
theorem Run.holds_unique (h : Run p (.start threads) past s) (hd : Disciplined p opener threads)
    (ht : Holds p opener past t l) (hu : Holds p opener past u l) : t = u := by
  have howner := (h.owner_iff hd).mpr ht
  rw [(h.owner_iff hd).mpr hu] at howner
  exact (Option.some.inj howner).symm

/-- A lock is held until it is given back. -/
theorem Run.holds_step (h : Run p (.start threads) ((u, e) :: past) s)
    (hd : Disciplined p opener threads) (ht : Holds p opener past t l)
    (he : u = t → p.kind e ≠ .release l) : Holds p opener ((u, e) :: past) t l := by
  by_cases hu : u = t
  · subst hu
    obtain ⟨x, y, hx, hnext, hy⟩ := h.next hd
    rw [holds_iff hx] at ht
    rw [holds_iff hy]
    rcases next_cases hnext with ⟨-, rfl⟩ | ⟨-, -, rfl⟩ | ⟨-, -, rfl⟩ | ⟨k, -, -, -, rfl⟩ |
      ⟨k, hk, -, hheld, -⟩ | ⟨-, -, rfl⟩ | ⟨k, -, -, -, rfl⟩
    · exact ht
    · exact ht
    · exact ht
    · exact List.mem_cons_of_mem k ht
    · rw [hheld, List.mem_cons] at ht
      rcases ht with rfl | ht
      · exact absurd hk (he rfl)
      · exact ht
    · exact ht
    · exact ht
  · rw [holds_of_ne hu]
    exact ht

/-- **Exclusion**: from the moment a thread does something inside a lock until it gives the lock
back, everything that belongs inside it is done by that thread. -/
theorem Run.alone (h : Run p (.start threads) (mid ++ (t, e) :: older) s)
    (hd : Disciplined p opener threads) (he : p.kind e = .inside l)
    (hmid : ∀ x ∈ mid, x.1 = t → p.kind x.2 ≠ .release l) :
    Holds p opener (mid ++ (t, e) :: older) t l ∧
      ∀ x ∈ mid, p.kind x.2 = .inside l → x.1 = t := by
  induction mid generalizing s with
  | nil =>
    have hold := h.owner_of_inside hd he
    refine ⟨h.holds_step hd hold fun _ hrel => ?_, fun x hx => by cases hx⟩
    rw [he] at hrel
    cases hrel
  | cons x mid ih =>
    obtain ⟨u, e'⟩ := x
    obtain ⟨s', _, hrun, -⟩ := h.of_cons
    obtain ⟨hold, hall⟩ := ih hrun fun x hx => hmid x (List.mem_cons_of_mem _ hx)
    refine ⟨h.holds_step hd hold fun hu => hmid _ List.mem_cons_self hu, ?_⟩
    intro x hx hx'
    rcases List.mem_cons.mp hx with rfl | hx
    · exact hrun.holds_unique hd (h.owner_of_inside hd hx') hold
    · exact hall x hx hx'

/-! ### The gate -/

variable (p) in
/-- The threads on their way through the gate. -/
def afoot : List (ι × E) → List ι
  | [] => []
  | (t, e) :: past =>
    match p.kind e with
    | .wait => t :: afoot past
    | .signal => (afoot past).erase t
    | _ => afoot past

variable (p) in
/-- How many the gate may have let through since it was shut: one for each signal of a thread that
was not on its way through, and those who were on their way when it was shut. -/
def credit : List (ι × E) → ℕ
  | [] => 0
  | (t, e) :: past =>
    match p.kind e with
    | .signal => if t ∈ afoot p past then credit past else credit past + 1
    | .reset => (afoot p past).length
    | _ => credit past

/-- **The account of the gate.** -/
theorem Run.count_add_afoot (h : Run p (.start threads) past s) :
    s.count + (afoot p past).length = credit p past := by
  induction h with
  | start => rfl
  | @step past s t e rest run head enabled ih =>
    unfold System.Enabled at enabled
    rw [afoot, credit]
    unfold System.after
    cases hk : p.kind e with
    | wait =>
      simp only [hk] at enabled
      show s.count - 1 + ((afoot p past).length + 1) = credit p past
      omega
    | signal =>
      show s.count + 1 + ((afoot p past).erase t).length = _
      by_cases ht : t ∈ afoot p past
      · -- the thread passes on what it got from the gate
        have hpos : 0 < (afoot p past).length := List.length_pos_of_mem ht
        simp only [if_pos ht, List.length_erase_of_mem ht]
        omega
      · simp only [if_neg ht, List.erase_of_not_mem ht]
        omega
    | reset => exact Nat.zero_add _
    | _ => exact ih

/-- Those on their way through are known by their places, and each is counted once. -/
theorem Run.afoot (h : Run p (.start threads) past s) (hd : Disciplined p opener threads) :
    (afoot p past).Nodup ∧ ∀ t, t ∈ afoot p past ↔
      ∃ x, Sync.place p opener t past = some x ∧ x.passing = true := by
  induction h with
  | start =>
    refine ⟨List.nodup_nil, fun t => ?_⟩
    constructor
    · intro hmem
      cases hmem
    · rintro ⟨_, ⟨⟩, hpass⟩
      cases hpass
  | @step past s u e rest run head enabled ih =>
    obtain ⟨hnodup, hmem⟩ := ih
    obtain ⟨x, y, hx, hnext, hy⟩ := (Run.step run head enabled).next hd
    have hmover : u ∈ Sync.afoot p past ↔ x.passing = true := by
      rw [hmem]
      exact ⟨fun ⟨z, hz, hpass⟩ => by rwa [Option.some.inj (hx.symm.trans hz)],
        fun hpass => ⟨x, hx, hpass⟩⟩
    -- it is enough to look at the thread that moves
    suffices hnew : (Sync.afoot p ((u, e) :: past)).Nodup ∧
        (u ∈ Sync.afoot p ((u, e) :: past) ↔ y.passing = true) ∧
        ∀ t, u ≠ t → (t ∈ Sync.afoot p ((u, e) :: past) ↔ t ∈ Sync.afoot p past) by
      obtain ⟨hnodup', hu, hothers⟩ := hnew
      refine ⟨hnodup', fun t => ?_⟩
      by_cases ht : u = t
      · subst ht
        rw [hu, hy]
        simp
      · rw [hothers t ht, hmem, place_of_ne ht]
    have hkeep (hsame : Sync.afoot p ((u, e) :: past) = Sync.afoot p past)
        (hpass : y.passing = x.passing) : (Sync.afoot p ((u, e) :: past)).Nodup ∧
        (u ∈ Sync.afoot p ((u, e) :: past) ↔ y.passing = true) ∧
        ∀ t, u ≠ t → (t ∈ Sync.afoot p ((u, e) :: past) ↔ t ∈ Sync.afoot p past) := by
      rw [hpass, hsame]
      exact ⟨hnodup, hmover, fun _ _ => Iff.rfl⟩
    -- only a signal and a wait change who is on the way
    rcases next_cases hnext with ⟨hk, rfl⟩ | ⟨hk, -, rfl⟩ | ⟨hk, -, rfl⟩ | ⟨k, hk, -, -, rfl⟩ |
      ⟨k, hk, -, -, hy'⟩ | ⟨hk, ⟨hpass, -⟩, rfl⟩ | ⟨k, hk, -, -, rfl⟩
    · exact hkeep (by simp only [Sync.afoot, hk]) rfl
    · simp only [Sync.afoot, hk]
      refine ⟨hnodup.erase u, ?_, fun t ht => List.mem_erase_of_ne (Ne.symm ht)⟩
      simpa using hnodup.not_mem_erase
    · exact hkeep (by simp only [Sync.afoot, hk]) rfl
    · exact hkeep (by simp only [Sync.afoot, hk]) rfl
    · exact hkeep (by simp only [Sync.afoot, hk]) (by rw [hy'])
    · simp only [Sync.afoot, hk]
      have hnot : u ∉ Sync.afoot p past := by
        rw [hmover, hpass]
        exact Bool.false_ne_true
      refine ⟨List.nodup_cons.mpr ⟨hnot, hnodup⟩, by simp, fun t ht => ?_⟩
      rw [List.mem_cons, or_iff_right (Ne.symm ht)]
    · exact hkeep (by simp only [Sync.afoot, hk]) rfl

omit [DecidableEq L] in
/-- Where the credit comes from. -/
theorem credit_pos (h : 0 < credit p past) :
    ∃ newer x older, past = newer ++ x :: older ∧ (∀ y ∈ newer, p.kind y.2 ≠ .reset) ∧
      (p.kind x.2 = .signal ∧ x.1 ∉ Sync.afoot p older ∨
        p.kind x.2 = .reset ∧ Sync.afoot p older ≠ []) := by
  induction past with
  | nil => exact absurd h (Nat.lt_irrefl 0)
  | cons x past ih =>
    obtain ⟨t, e⟩ := x
    -- an event that leaves the credit as it was
    have hsame (hpos : 0 < credit p past) (hk : p.kind e ≠ .reset) :
        ∃ newer x older, (t, e) :: past = newer ++ x :: older ∧
          (∀ y ∈ newer, p.kind y.2 ≠ .reset) ∧
          (p.kind x.2 = .signal ∧ x.1 ∉ Sync.afoot p older ∨
            p.kind x.2 = .reset ∧ Sync.afoot p older ≠ []) := by
      obtain ⟨newer, x, older, rfl, hnewer, hx⟩ := ih hpos
      refine ⟨(t, e) :: newer, x, older, rfl, ?_, hx⟩
      intro y hy
      rcases List.mem_cons.mp hy with rfl | hy
      · exact hk
      · exact hnewer y hy
    rw [credit] at h
    cases hk : p.kind e with
    | signal =>
      simp only [hk] at h
      by_cases ht : t ∈ Sync.afoot p past
      · rw [if_pos ht] at h
        exact hsame h (by simp [hk])
      · exact ⟨[], (t, e), past, rfl, by simp, .inl ⟨hk, ht⟩⟩
    | reset =>
      simp only [hk] at h
      exact ⟨[], (t, e), past, rfl, by simp, .inr ⟨hk, List.ne_nil_of_length_pos h⟩⟩
    | _ =>
      simp only [hk] at h
      exact hsame h (by simp [hk])

/-- **The gate**: whoever gets through owes it to a signal that an opener gave since the gate was
last shut, unless someone was on the way through when it was shut. -/
theorem Run.through_gate (h : Run p (.start threads) ((t, e) :: past) s)
    (hd : Disciplined p opener threads) (he : p.kind e = .wait) :
    ∃ newer x older, past = newer ++ x :: older ∧ (∀ y ∈ newer, p.kind y.2 ≠ .reset) ∧
      (p.kind x.2 = .signal ∧ opener x.1 = true ∨
        p.kind x.2 = .reset ∧ ∃ u y, Sync.place p opener u older = some y ∧ y.passing = true) := by
  obtain ⟨s', _, hrun, -, henabled, -⟩ := h.of_cons
  have hcount : 0 < s'.count := by
    unfold System.Enabled at henabled
    simpa only [he] using henabled
  have hcredit : 0 < credit p past := by
    rw [← hrun.count_add_afoot]
    omega
  obtain ⟨newer, ⟨u, e'⟩, older, rfl, hnewer, hx⟩ := credit_pos hcredit
  obtain ⟨s'', hcut⟩ := hrun.of_append
  obtain ⟨s₁, _, hbefore, -⟩ := hcut.of_cons
  refine ⟨newer, (u, e'), older, rfl, hnewer, ?_⟩
  rcases hx with ⟨hsignal, hnot⟩ | ⟨hreset, hne⟩
  · -- a thread that signals without being on its way through must be an opener
    left
    refine ⟨hsignal, ?_⟩
    obtain ⟨x, y, hx, hnext, -⟩ := hcut.next hd
    rcases ((next_signal hsignal).mp hnext).1 with hpass | hopener
    · exact absurd (((hbefore.afoot hd).2 u).mpr ⟨x, hx, hpass⟩) hnot
    · rwa [opener_place hx] at hopener
  · right
    obtain ⟨u', hu'⟩ := List.exists_mem_of_ne_nil _ hne
    exact ⟨hreset, u', ((hbefore.afoot hd).2 u').mp hu'⟩

/-- Whoever is on the way through the gate has waited there and not signalled since. -/
theorem waited_of_passing (h : place p opener t past = some x) (hx : x.passing = true) :
    ∃ newer e older, past = newer ++ (t, e) :: older ∧ p.kind e = .wait ∧
      ∀ y ∈ newer, y.1 = t → p.kind y.2 ≠ .signal := by
  induction past generalizing x with
  | nil =>
    obtain rfl := Option.some.inj h
    cases hx
  | cons a past ih =>
    obtain ⟨u, e⟩ := a
    -- an event that is no signal of the thread keeps the wait that was found
    have hold {z : Place L} (hz : place p opener t past = some z) (hpass : z.passing = true)
        (hk : u = t → p.kind e ≠ .signal) :
        ∃ newer e' older, (u, e) :: past = newer ++ (t, e') :: older ∧ p.kind e' = .wait ∧
          ∀ y ∈ newer, y.1 = t → p.kind y.2 ≠ .signal := by
      obtain ⟨newer, e', older, rfl, he', hnewer⟩ := ih hz hpass
      refine ⟨(u, e) :: newer, e', older, rfl, he', fun y hy => ?_⟩
      rcases List.mem_cons.mp hy with rfl | hy
      · exact hk
      · exact hnewer y hy
    rw [place] at h
    split_ifs at h with hu
    · obtain ⟨z, hz, hnext⟩ := Option.bind_eq_some_iff.mp h
      rcases next_cases hnext with ⟨hk, rfl⟩ | ⟨hk, -, rfl⟩ | ⟨hk, -, rfl⟩ | ⟨k, hk, -, -, rfl⟩ |
        ⟨k, hk, hpass, -, hx'⟩ | ⟨hk, -, rfl⟩ | ⟨k, hk, -, -, rfl⟩
      · exact hold hz hx (by simp [hk])
      · cases hx
      · exact hold hz hx (by simp [hk])
      · exact hold hz hx (by simp [hk])
      · rw [hx', hpass] at hx
        cases hx
      · -- the wait itself
        subst hu
        exact ⟨[], e, past, rfl, hk, by simp⟩
      · exact hold hz hx (by simp [hk])
    · exact hold h hx fun heq => absurd heq hu

/-- **Nobody gets through before an opener has signalled.** -/
theorem Run.opened (h : Run p (.start threads) ((t, e) :: past) s)
    (hd : Disciplined p opener threads) (he : p.kind e = .wait) :
    ∃ newer u e' older, past = newer ++ (u, e') :: older ∧ p.kind e' = .signal ∧
      opener u = true := by
  induction hn : past.length using Nat.strongRecOn generalizing past s t e with
  | ind n ih =>
    obtain ⟨newer, ⟨u, e'⟩, older, rfl, -, hx⟩ := h.through_gate hd he
    rcases hx with ⟨hsignal, hopener⟩ | ⟨-, v, y, hplace, hpass⟩
    · exact ⟨newer, u, e', older, rfl, hsignal, hopener⟩
    · -- somebody was on the way through, so the gate had been opened before
      obtain ⟨newer', e'', older', rfl, hwait, -⟩ := waited_of_passing hplace hpass
      have heq : (t, e) :: (newer ++ (u, e') :: (newer' ++ (v, e'') :: older')) =
          ((t, e) :: newer ++ (u, e') :: newer') ++ (v, e'') :: older' := by
        simp only [List.cons_append, List.append_assoc]
      rw [heq] at h
      obtain ⟨s', hrun⟩ := h.of_append
      have hlt : older'.length < n := by
        rw [← hn]
        simp only [List.length_append, List.length_cons]
        omega
      obtain ⟨newest, w, e₃, older'', rfl, hsignal, hopener⟩ := ih _ hlt hrun hwait rfl
      exact ⟨newer ++ (u, e') :: (newer' ++ (v, e'') :: newest), w, e₃, older'', by simp, hsignal,
        hopener⟩

end Sync
