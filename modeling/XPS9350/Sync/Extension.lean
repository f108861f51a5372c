import XPS9350.Sync.Progress

/-!
# Threads that do more than is known

An `Extension` takes the locks and events of a protocol into a larger one that orders those locks in
the same way.  `Inserted` puts further events into a thread, in blocks that keep to the larger
protocol and come back to the place where they start.  The thread then keeps to the larger protocol
as it kept to the smaller one (`Inserted.follow`), and what is known of complete threads holds with
the further events too (`complete_of_inserted`).
-/

namespace Sync

variable {L L' E E' ι : Type}

/-! ### Locks under another name -/

/-- What is done to the locks, under their other names. -/
def Kind.map (f : L → L') : Kind L → Kind L'
  | .acquire l => .acquire (f l)
  | .release l => .release (f l)
  | .wait => .wait
  | .signal => .signal
  | .reset => .reset
  | .inside l => .inside (f l)
  | .plain => .plain

/-- The place with the other names. -/
def Place.map (f : L → L') (x : Place L) : Place L' := ⟨x.held.map f, x.passing, x.opener⟩

/-- The locks and events of `p` are among those of `p'`, with the same meaning and order. -/
structure Extension (p : Protocol L E) (p' : Protocol L' E') where
  lock : L → L'
  event : E → E'
  kind_event : ∀ e, p'.kind (event e) = (p.kind e).map lock
  rank_lt : ∀ {k l}, p.rank k < p.rank l → p'.rank (lock k) < p'.rank (lock l)
  gate_iff : ∀ {k}, p'.rank (lock k) < p'.gate ↔ p.rank k < p.gate

section Extension

variable [DecidableEq L] [DecidableEq L'] {p : Protocol L E} {p' : Protocol L' E'}
  (X : Extension p p') {x y : Place L} {e : E} {es fs : List E} {es' block : List E'}

/-- **One event** does the same in the larger protocol. -/
theorem next_map (h : x.next p e = some y) :
    (x.map X.lock).next p' (X.event e) = some (y.map X.lock) := by
  have hkind := X.kind_event e
  rcases next_cases h with ⟨hk, rfl⟩ | ⟨hk, hpass, rfl⟩ | ⟨hk, hpass, rfl⟩ |
    ⟨l, hk, hpass, hrank, rfl⟩ | ⟨l, hk, hpass, hheld, hy⟩ | ⟨hk, ⟨hpass, hopener, hgate⟩, rfl⟩ |
    ⟨l, hk, hpass, hmem, rfl⟩
  all_goals rw [hk] at hkind
  · exact next_plain hkind
  · exact (next_signal hkind).mpr ⟨hpass, rfl⟩
  · exact (next_reset hkind).mpr ⟨hpass, rfl⟩
  · refine (next_acquire hkind).mpr ⟨⟨hpass, fun k hk' => ?_⟩, rfl⟩
    obtain ⟨k, hmem, rfl⟩ := List.mem_map.mp hk'
    exact X.rank_lt (hrank k hmem)
  · have hmap : (x.map X.lock).held = X.lock l :: y.held.map X.lock := congrArg (List.map _) hheld
    refine (next_release hkind).mpr ⟨⟨hpass, ?_⟩, ?_⟩
    · rw [hmap]
      rfl
    · rw [hmap, hy]
      rfl
  · refine (next_wait hkind).mpr ⟨⟨hpass, hopener, fun k hk' => ?_⟩, rfl⟩
    obtain ⟨k, hmem, rfl⟩ := List.mem_map.mp hk'
    exact X.gate_iff.mpr (hgate k hmem)
  · exact (next_inside hkind).mpr ⟨⟨hpass, List.mem_map_of_mem hmem⟩, rfl⟩

/-- A thread from the place `x` on, with further events in between. -/
inductive Extension.Inserted : Place L → List E → List E' → Prop
  | nil {x : Place L} : Inserted x [] []
  | event {x y : Place L} {e : E} {es : List E} {es' : List E'} (next : x.next p e = some y)
      (rest : Inserted y es es') : Inserted x (e :: es) (X.event e :: es')
  | block {x : Place L} {es : List E} {es' block : List E'}
      (balanced : follow p' (x.map X.lock) block = some (x.map X.lock))
      (rest : Inserted x es es') : Inserted x es (block ++ es')

variable {X}

theorem follow_append {x : Place L} : follow p x (es ++ fs) =
    (follow p x es).bind (follow p · fs) := List.foldlM_append

/-- **The further events do no harm.** -/
theorem Extension.Inserted.follow (h : X.Inserted x es es') (hes : Sync.follow p x es = some y) :
    Sync.follow p' (x.map X.lock) es' = some (y.map X.lock) := by
  induction h with
  | nil =>
    obtain rfl := Option.some.inj hes
    rfl
  | event next rest ih =>
    rw [follow_cons, next] at hes
    rw [follow_cons, next_map X next]
    exact ih hes
  | block balanced rest ih =>
    rw [follow_append, balanced]
    exact ih hes

/-- Nothing has to be put in. -/
theorem inserted_map (h : follow p x es = some y) : X.Inserted x es (es.map X.event) := by
  induction es generalizing x with
  | nil => exact .nil
  | cons e es ih =>
    rw [follow_cons] at h
    obtain ⟨z, hz, hrest⟩ := Option.bind_eq_some_iff.mp h
    exact .event hz (ih hrest)

/-- A block between two parts of a thread. -/
theorem inserted_block {z : Place L} (hes : follow p x es = some y) (hfs : follow p y fs = some z)
    (balanced : follow p' (y.map X.lock) block = some (y.map X.lock)) :
    X.Inserted x (es ++ fs) (es.map X.event ++ (block ++ fs.map X.event)) := by
  induction es generalizing x with
  | nil =>
    obtain rfl := Option.some.inj hes
    show X.Inserted x fs (block ++ fs.map X.event)
    exact .block balanced (inserted_map hfs)
  | cons e es ih =>
    rw [follow_cons] at hes
    obtain ⟨u, hu, hrest⟩ := Option.bind_eq_some_iff.mp hes
    exact .event hu (ih hrest)

/-- Threads that keep to the smaller protocol up to their ends keep to the larger one. -/
theorem complete_of_inserted {opener : ι → Bool} {threads : ι → List E'}
    (h : ∀ t, ∃ es, Sync.follow p (.start (opener t)) es = some (.start (opener t)) ∧
      X.Inserted (.start (opener t)) es (threads t)) : Complete p' opener threads := by
  intro t
  obtain ⟨es, hes, hinserted⟩ := h t
  exact hinserted.follow hes

end Extension

end Sync
