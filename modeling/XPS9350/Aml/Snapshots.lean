import XPS9350.Aml.Wp

/-!
# Sampled hardware

A polling loop that sleeps once per round sees the hardware through one snapshot of its field units
per poll.  `snapshots snap` answers every read from the current snapshot and moves on to the next
one at a `Sleep`.  `passes l` counts the polls of a loop on the log.
-/

namespace Aml

variable {S : Signature} {σ α β : Type}

/-- One value for each field unit. -/
abbrev Snapshot (S : Signature) : Type := (f : S.Field) → BitVec (S.width f)

/-- Hardware that shows one snapshot after the other; the state is the number of the current one. -/
def snapshots (snap : ℕ → Snapshot S) : Hardware S ℕ where
  load f i := (snap i f, i)
  store _ _ i := i
  sleep _ i := i + 1
  stall _ i := i
  timer i := (0, i)

@[simp] theorem snapshots_reads {snap : ℕ → Snapshot S} {f : S.Field} {s : State S ℕ} :
    (snapshots snap).reads f s = (snap s.hw f).setWidth 64 := rfl

@[simp] theorem snapshots_after_load {snap : ℕ → Snapshot S} {f : S.Field} {v : Integer}
    {s : State S ℕ} : (snapshots snap).after s (.load f v) = s := rfl

@[simp] theorem snapshots_after_sleep {snap : ℕ → Snapshot S} {ms : Integer} {s : State S ℕ} :
    (snapshots snap).after s (.sleep ms) = ⟨s.names, s.hw + 1⟩ := rfl

@[simp] theorem snapshots_after_test {snap : ℕ → Snapshot S} {l : S.Loop} {i : ℕ}
    {s : State S ℕ} : (snapshots snap).after s (.test l i) = s := rfl

@[simp] theorem snapshots_after_pass {snap : ℕ → Snapshot S} {l : S.Loop} {i : ℕ}
    {s : State S ℕ} : (snapshots snap).after s (.pass l i) = s := rfl

/-! ### Counting passes -/

section Passes

variable [DecidableEq S.Loop] {l : S.Loop} {s : State S σ} {log : List (Entry S σ)}

/-- Whether the body of the loop `l` is entered. -/
def Event.isPass (l : S.Loop) : Event S → Bool
  | .pass k _ => k = l
  | _ => false

/-- How often the body of the loop `l` was entered. -/
def passes (l : S.Loop) (log : List (Entry S σ)) : ℕ := log.countP (·.event.isPass l)

@[simp] theorem passes_pass {i : ℕ} : passes l (⟨s, .pass l i⟩ :: log) = passes l log + 1 :=
  List.countP_cons_of_pos (by simp [Event.isPass])

@[simp] theorem passes_load {f : S.Field} {v : Integer} :
    passes l (⟨s, .load f v⟩ :: log) = passes l log :=
  List.countP_cons_of_neg (by simp [Event.isPass])

@[simp] theorem passes_sleep {ms : Integer} :
    passes l (⟨s, .sleep ms⟩ :: log) = passes l log :=
  List.countP_cons_of_neg (by simp [Event.isPass])

@[simp] theorem passes_test {k : S.Loop} {i : ℕ} :
    passes l (⟨s, .test k i⟩ :: log) = passes l log :=
  List.countP_cons_of_neg (by simp [Event.isPass])

end Passes

/-! ### Programs that read one snapshot -/

/-- `m` reads its result off the current snapshot and takes no part in the count of the passes. -/
def Samples (snap : ℕ → Snapshot S) (m : Prog S ℕ α) (f : Snapshot S → α) : Prop :=
  ∀ (fuel : ℕ) (E : World S ℕ → Prop) [DecidableEq S.Loop] (l : S.Loop) (w : World S ℕ),
    wp ⟨snapshots snap, fuel⟩ E m
      (fun a w' => a = f (snap w.hw) ∧ w'.hw = w.hw ∧ passes l w'.log = passes l w.log) w

section Samples

variable {snap : ℕ → Snapshot S}

theorem Samples.congr {m : Prog S ℕ α} {f g : Snapshot S → α} (h : Samples snap m f)
    (hfg : ∀ r, f r = g r) : Samples snap m g := by
  rwa [← funext hfg]

theorem samples_pure {a : α} : Samples snap (pure a) fun _ => a := by
  intro fuel E _ l w
  exact wp_pure.mpr ⟨rfl, rfl, rfl⟩

theorem samples_load {f : S.Field} : Samples snap (Prog.load f) fun r => (r f).setWidth 64 := by
  intro fuel E _ l w
  rw [wp_load]
  exact ⟨rfl, rfl, passes_load⟩

theorem samples_bind {m : Prog S ℕ α} {k : α → Prog S ℕ β} {f : Snapshot S → α}
    {g : α → Snapshot S → β} (hm : Samples snap m f) (hk : ∀ a, Samples snap (k a) (g a)) :
    Samples snap (m >>= k) fun r => g (f r) r := by
  intro fuel E _ l w
  rw [wp_bind]
  refine wp_imp (hm fuel E l w) ?_
  rintro _ w₁ ⟨rfl, hhw, hpass⟩
  refine wp_imp (hk _ fuel E l w₁) ?_
  rintro _ w₂ ⟨rfl, hhw', hpass'⟩
  rw [hhw', hpass', hhw]
  exact ⟨rfl, rfl, hpass⟩

theorem samples_ite {c : Prop} [Decidable c] {m n : Prog S ℕ α} {f g : Snapshot S → α}
    (hm : Samples snap m f) (hn : Samples snap n g) :
    Samples snap (if c then m else n) fun r => if c then f r else g r := by
  split_ifs
  · exact hm
  · exact hn

end Samples

end Aml
