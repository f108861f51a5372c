import XPS9350.Sync.Safety

/-!
# Progress

Threads that take locks in the order of their ranks and give all of them back never block each
other for good: in a state where nobody can go on, everybody left waits for the gate, directly or
for a lock whose owner does, and the gate has not been opened since it was last shut (`Run.stuck`).
-/

namespace Sync

variable {L E ι : Type} [DecidableEq ι] [DecidableEq L] {p : Protocol L E} {threads : ι → List E}
  {opener : ι → Bool} {past newer older : List (ι × E)} {s : System ι L E} {t u : ι} {e : E}
  {l : L} {x : Place L} {rest : List E} {n : ℕ}

variable (p) in
/-- Every thread keeps to the protocol and ends without a lock. -/
def Complete (opener : ι → Bool) (threads : ι → List E) : Prop :=
  ∀ t, follow p (.start (opener t)) (threads t) = some (.start (opener t))

variable (p) in
/-- No thread can go on. -/
def Stuck (s : System ι L E) : Prop := ∀ t e rest, s.todo t = e :: rest → ¬ s.Enabled p e

omit [DecidableEq ι] in
theorem Complete.disciplined (h : Complete p opener threads) : Disciplined p opener threads := by
  intro t
  rw [h t]
  rfl

/-- A thread that has come to its end is back where it started. -/
theorem Run.place_of_done (h : Run p (.start threads) past s) (hc : Complete p opener threads)
    (hdone : s.todo t = []) : Sync.place p opener t past = some (.start (opener t)) := by
  obtain ⟨x, hx, hfollow⟩ := h.place hc.disciplined t
  rw [hdone, hc t] at hfollow
  exact hx.trans hfollow

/-- Whoever holds a lock still has to give it back. -/
theorem Run.todo_of_holds (h : Run p (.start threads) past s) (hc : Complete p opener threads)
    (hold : Holds p opener past t l) : ∃ e rest, s.todo t = e :: rest := by
  rcases htodo : s.todo t with _ | ⟨e, rest⟩
  · rw [holds_iff (h.place_of_done hc htodo)] at hold
    cases hold
  · exact ⟨e, rest, rfl⟩

/-- **What keeps a thread from going on**: the gate, or a lock above all those that it holds. -/
theorem Run.blocked (h : Run p (.start threads) past s) (hd : Disciplined p opener threads)
    (hs : Stuck p s) (ht : s.todo t = e :: rest) :
    (s.count = 0 ∧ ∀ k, Holds p opener past t k → p.rank k < p.gate) ∨
      ∃ l u, s.owner l = some u ∧ ∀ k, Holds p opener past t k → p.rank k < p.rank l := by
  have hnot := hs t e rest ht
  unfold System.Enabled at hnot
  obtain ⟨x, hx, hfollow⟩ := h.place hd t
  obtain ⟨y, hnext⟩ : ∃ y, x.next p e = some y := by
    have hsome : (follow p x (s.todo t)).isSome := by
      rw [hfollow]
      exact hd t
    rw [ht, follow_cons] at hsome
    rcases hnext : x.next p e with _ | y
    · rw [hnext] at hsome
      cases hsome
    · exact ⟨y, rfl⟩
  cases hk : p.kind e with
  | wait =>
    left
    simp only [hk] at hnot
    refine ⟨by omega, fun k hold => ?_⟩
    rw [holds_iff hx] at hold
    exact ((next_wait hk).mp hnext).1.2.2 k hold
  | acquire l =>
    right
    simp only [hk] at hnot
    obtain ⟨u, hu⟩ := Option.ne_none_iff_exists'.mp hnot
    refine ⟨l, u, hu, fun k hold => ?_⟩
    rw [holds_iff hx] at hold
    exact ((next_acquire hk).mp hnext).1.2 k hold
  | _ => exact absurd trivial (by simpa only [hk] using hnot)

/-- When nobody can go on, nobody is on the way through the gate. -/
theorem Run.afoot_of_stuck (h : Run p (.start threads) past s) (hc : Complete p opener threads)
    (hs : Stuck p s) : Sync.afoot p past = [] := by
  rw [List.eq_nil_iff_forall_not_mem]
  intro t hmem
  obtain ⟨x, hx, hpass⟩ := ((h.afoot hc.disciplined).2 t).mp hmem
  obtain ⟨x', hx', hfollow⟩ := h.place hc.disciplined t
  obtain rfl : x = x' := Option.some.inj (hx.symm.trans hx')
  rcases htodo : s.todo t with _ | ⟨e, rest⟩
  · have hstart := h.place_of_done hc htodo
    rw [hx] at hstart
    rw [Option.some.inj hstart] at hpass
    cases hpass
  · -- the next event of such a thread is never held up
    apply hs t e rest htodo
    have hsome : (follow p x (s.todo t)).isSome := by
      rw [hfollow]
      exact hc.disciplined t
    rw [htodo, follow_cons] at hsome
    unfold System.Enabled
    cases hk : p.kind e with
    | acquire l => simp [Place.next, hk, hpass] at hsome
    | wait => simp [Place.next, hk, hpass] at hsome
    | _ => trivial

/-- The locks from the rank of the gate on are free when nobody can go on. -/
theorem Run.free_of_stuck (h : Run p (.start threads) past s) (hc : Complete p opener threads)
    (hrank : ∀ l, p.rank l < n) (hs : Stuck p s) (l : L) (hl : p.gate ≤ p.rank l) :
    s.owner l = none := by
  -- the induction is on how many ranks there are above the lock
  induction hm : n - p.rank l using Nat.strongRecOn generalizing l with
  | ind m ih =>
    rcases hown : s.owner l with _ | t
    · rfl
    · exfalso
      have hold := (h.owner_iff hc.disciplined).mp hown
      obtain ⟨e, rest, htodo⟩ := h.todo_of_holds hc hold
      rcases h.blocked hc.disciplined hs htodo with ⟨-, hheld⟩ | ⟨k, u, hu, hheld⟩
      · have hlt := hheld l hold
        omega
      · have hlt := hheld l hold
        have hk := hrank k
        have hfree := ih (n - p.rank k) (by omega) k (by omega) rfl
        rw [hu] at hfree
        cases hfree

/-- When nobody can go on but someone has not finished, the gate lets nobody through. -/
theorem Run.count_of_stuck (h : Run p (.start threads) past s) (hc : Complete p opener threads)
    (hrank : ∀ l, p.rank l < n) (hs : Stuck p s) (ht : s.todo t = e :: rest) : s.count = 0 := by
  have owned (l : L) : ∀ u, s.owner l = some u → s.count = 0 := by
    -- the owner of a lock waits at the gate, or for a lock of a higher rank
    induction hm : n - p.rank l using Nat.strongRecOn generalizing l with
    | ind m ih =>
      intro u hown
      have hold := (h.owner_iff hc.disciplined).mp hown
      obtain ⟨e, rest, htodo⟩ := h.todo_of_holds hc hold
      rcases h.blocked hc.disciplined hs htodo with ⟨hcount, -⟩ | ⟨k, v, hv, hheld⟩
      · exact hcount
      · have hlt := hheld l hold
        have hk := hrank k
        exact ih (n - p.rank k) (by omega) k rfl v hv
  rcases h.blocked hc.disciplined hs ht with ⟨hcount, -⟩ | ⟨l, u, hu, -⟩
  · exact hcount
  · exact owned l u hu

/-- **Progress**: when no thread can go on, the locks that the openers of the gate may need are
free, and all threads have finished unless the gate is shut. -/
theorem Run.stuck (h : Run p (.start threads) past s) (hc : Complete p opener threads)
    (hrank : ∀ l, p.rank l < n) (hs : Stuck p s) :
    (∀ l, p.gate ≤ p.rank l → s.owner l = none) ∧
      ((∀ t, s.todo t = []) ∨ credit p past = 0) := by
  refine ⟨h.free_of_stuck hc hrank hs, ?_⟩
  by_cases hall : ∀ t, s.todo t = []
  · exact .inl hall
  · right
    obtain ⟨t, ht⟩ := not_forall.mp hall
    obtain ⟨e, rest, htodo⟩ := List.exists_cons_of_ne_nil ht
    have hcount := h.count_of_stuck hc hrank hs htodo
    rw [← h.count_add_afoot, hcount, h.afoot_of_stuck hc hs]
    rfl

/-! ### Openers -/

/-- An opener is never on its way through the gate. -/
theorem Run.opener_not_afoot (h : Run p (.start threads) past s)
    (hd : Disciplined p opener threads) (ht : opener t = true) : t ∉ Sync.afoot p past := by
  induction h with
  | start => exact List.not_mem_nil
  | @step past s u e rest run head enabled ih =>
    obtain ⟨x, y, hx, hnext, hy⟩ := (Run.step run head enabled).next hd
    rw [Sync.afoot]
    cases hk : p.kind e with
    | wait =>
      rw [List.mem_cons, not_or]
      refine ⟨?_, ih⟩
      rintro rfl
      have hopener := ((next_wait hk).mp hnext).1.2.1
      rw [opener_place hx, ht] at hopener
      cases hopener
    | signal => exact fun hmem => ih (List.mem_of_mem_erase hmem)
    | _ => exact ih

/-- A signal that an opener has given since the gate was last shut is worth a passage. -/
theorem Run.credit_of_opened (h : Run p (.start threads) (newer ++ (t, e) :: older) s)
    (hd : Disciplined p opener threads) (ht : opener t = true) (he : p.kind e = .signal)
    (hnewer : ∀ y ∈ newer, p.kind y.2 ≠ .reset) : 0 < credit p (newer ++ (t, e) :: older) := by
  induction newer generalizing s with
  | nil =>
    -- the opener is not on the way through, so its signal adds to the credit
    obtain ⟨s', _, hrun, -⟩ := h.of_cons
    rw [List.nil_append, credit]
    simp only [he, if_neg (hrun.opener_not_afoot hd ht)]
    omega
  | cons x newer ih =>
    obtain ⟨u, e'⟩ := x
    obtain ⟨s', _, hrun, -⟩ := h.of_cons
    have hpos := ih hrun fun y hy => hnewer y (List.mem_cons_of_mem _ hy)
    rw [List.cons_append, credit]
    have hreset : p.kind e' ≠ .reset := hnewer _ List.mem_cons_self
    cases hk : p.kind e' with
    | signal =>
      dsimp only
      split_ifs
      · exact hpos
      · exact Nat.succ_pos _
    | reset => exact absurd hk hreset
    | _ => exact hpos

/-- **Once the gate has been opened everything comes to its end.** -/
theorem Run.done_of_opened (h : Run p (.start threads) (newer ++ (t, e) :: older) s)
    (hc : Complete p opener threads) (hrank : ∀ l, p.rank l < n) (hs : Stuck p s)
    (ht : opener t = true) (he : p.kind e = .signal)
    (hnewer : ∀ y ∈ newer, p.kind y.2 ≠ .reset) (u : ι) : s.todo u = [] := by
  rcases (h.stuck hc hrank hs).2 with hall | hcredit
  · exact hall u
  · have hpos := h.credit_of_opened hc.disciplined ht he hnewer
    omega

end Sync
