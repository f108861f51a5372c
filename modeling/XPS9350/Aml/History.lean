import XPS9350.Aml.Emits

/-!
# Properties of a history

A log is a history: every entry stands before those made later.  `Throughout P log` says that `P`
holds of every entry, given the entries older than it.
-/

namespace Aml

variable {S : Signature} {σ α β : Type} {hw : Hardware S σ} {env : Env S σ}
  {P Q R : Entry S σ → List (Entry S σ) → Prop} {w w' : World S σ} {log log' : List (Entry S σ)}

/-- `P` holds of every entry with the entries before it. -/
def Throughout (P : Entry S σ → List (Entry S σ) → Prop) : List (Entry S σ) → Prop
  | [] => True
  | x :: older => P x older ∧ Throughout P older

theorem Throughout.imp (h : Throughout P log) (hPQ : ∀ x older, P x older → Q x older) :
    Throughout Q log := by
  induction log with
  | nil => trivial
  | cons x older ih => exact ⟨hPQ x older h.1, ih h.2⟩

/-- Two properties that agree wherever a third holds. -/
theorem throughout_congr (h : Throughout R log) (hPQ : ∀ x older, R x older → (P x older ↔ Q x older)) :
    Throughout P log ↔ Throughout Q log := by
  induction log with
  | nil => exact Iff.rfl
  | cons x older ih => exact and_congr (hPQ x older h.1) (ih h.2)

/-- It held earlier, too. -/
theorem Throughout.of_append (h : Throughout P (log' ++ log)) : Throughout P log := by
  induction log' with
  | nil => exact h
  | cons x newer ih => exact ih h.2

/-- A property that every allowed event has in its history. -/
theorem Path.throughout {A : World S σ → Event S → Prop} (h : Path hw A w w')
    (hA : ∀ u e, A u e → P ⟨u.toState, e⟩ u.log) (h₀ : Throughout P w.log) : Throughout P w'.log := by
  induction h with
  | refl => exact h₀
  | step _ _ allowed ih => exact ⟨hA _ _ allowed, ih⟩

/-- A property of the history that follows, at every event, from another one up to there. -/
theorem Path.throughout_imp {A : World S σ → Event S → Prop} (h : Path hw A w w')
    (hA : ∀ u e, A u e → Throughout Q (⟨u.toState, e⟩ :: u.log) → P ⟨u.toState, e⟩ u.log)
    (h₀ : Throughout Q w.log → Throughout P w.log) : Throughout Q w'.log → Throughout P w'.log := by
  induction h with
  | refl => exact h₀
  | step _ _ allowed ih => exact fun hQ => ⟨hA _ _ allowed hQ, ih hQ.2⟩

/-- What holds throughout a run held when it started. -/
theorem throughout_start {m : Prog S σ α} (h : Throughout P (m env w).2.log) :
    Throughout P w.log := by
  obtain ⟨new, hlog, -⟩ := (m.path env w).log_append
  rw [hlog] at h
  exact h.of_append

/-- What holds throughout a run held when its first part ended. -/
theorem throughout_bind {m : Prog S σ α} {f : α → Prog S σ β} (w : World S σ)
    (h : Throughout P ((m >>= f) env w).2.log) : Throughout P (m env w).2.log := by
  rcases hr : m env w with ⟨_ | a, w'⟩
  · rwa [Prog.bind_of_none hr] at h
  · rw [Prog.bind_of_some hr] at h
    exact throughout_start h

end Aml
