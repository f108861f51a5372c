import Mathlib.Data.List.Basic
import Mathlib.Data.Nat.Init

/-!
# Search-and-replace patches

A patch replaces occurrences of one word in a table by another of the same length.  Patches are
applied one after the other, each to some of the occurrences that a scan from left to right finds.

`not_cascade`: when no replacement can help a later patch to an occurrence (`Clear`), a later patch
finds only what it would have found in the original table, so that no position is altered twice.
-/

namespace Bytes

variable {α : Type} {w r t : List α} {p q k : ℕ}

/-! ### Occurrences -/

/-- `w` occurs in `t` at position `p`. -/
def OccursAt (w t : List α) (p : ℕ) : Prop :=
  w <+: t.drop p

instance [DecidableEq α] : Decidable (OccursAt w t p) :=
  inferInstanceAs (Decidable (w <+: t.drop p))

theorem occursAt_iff : OccursAt w t p ↔ ∀ m < w.length, t[p + m]? = w[m]? := by
  unfold OccursAt
  rw [List.prefix_iff_getElem?]
  constructor
  · intro h m hm
    rw [← List.getElem?_drop, h m hm, List.getElem?_eq_getElem hm]
  · intro h m hm
    rw [List.getElem?_drop, h m hm, List.getElem?_eq_getElem hm]

theorem OccursAt.getElem? (h : OccursAt w t p) (hp : p ≤ k) (hk : k < p + w.length) :
    t[k]? = w[k - p]? := by
  have hm := occursAt_iff.mp h (k - p) (by omega)
  rwa [Nat.add_sub_of_le hp] at hm

/-- The positions at which a scan from left to right finds `w`; it goes on behind each of them.
The first argument counts the elements still to be passed over, the second is the position. -/
def spots [DecidableEq α] (w : List α) : ℕ → ℕ → List α → List ℕ
  | _, _, [] => []
  | skip + 1, i, _ :: t => spots w skip (i + 1) t
  | 0, i, x :: t =>
    if w <+: x :: t then i :: spots w (w.length - 1) (i + 1) t else spots w 0 (i + 1) t

/-- A scan finds occurrences only, and none before it is done passing over. -/
theorem mem_spots [DecidableEq α] {skip i : ℕ} (h : q ∈ spots w skip i t) :
    i + skip ≤ q ∧ OccursAt w t (q - i) := by
  induction t generalizing skip i with
  | nil => simp [spots] at h
  | cons x t ih =>
    -- what is found behind the first element
    have later {skip' : ℕ} (h : q ∈ spots w skip' (i + 1) t) :
        i + 1 + skip' ≤ q ∧ OccursAt w (x :: t) (q - i) := by
      obtain ⟨hle, hocc⟩ := ih h
      have hq : q - i = q - (i + 1) + 1 := by omega
      refine ⟨hle, ?_⟩
      rw [hq]
      exact hocc
    cases skip with
    | succ skip =>
      have := later h
      exact ⟨by omega, this.2⟩
    | zero =>
      rw [spots] at h
      split_ifs at h with hw
      · rcases List.mem_cons.mp h with rfl | h
        · rw [Nat.sub_self]
          exact ⟨Nat.le_refl _, hw⟩
        · have := later h
          exact ⟨by omega, this.2⟩
      · have := later h
        exact ⟨by omega, this.2⟩

/-- The occurrences that a scan finds do not overlap. -/
theorem pairwise_spots [DecidableEq α] (hw : w ≠ []) (skip i : ℕ) :
    (spots w skip i t).Pairwise fun p q => p + w.length ≤ q := by
  induction t generalizing skip i with
  | nil => simp [spots]
  | cons x t ih =>
    cases skip with
    | succ skip => exact ih skip (i + 1)
    | zero =>
      rw [spots]
      split_ifs
      · refine List.pairwise_cons.mpr ⟨fun q hq => ?_, ih _ _⟩
        have hle := (mem_spots hq).1
        have hpos := List.length_pos_iff.mpr hw
        omega
      · exact ih 0 (i + 1)

/-! ### Overwriting -/

/-- `r` is written over the table at position `p`. -/
def overwrite (r t : List α) (p : ℕ) : List α :=
  t.take p ++ r ++ t.drop (p + r.length)

theorem length_overwrite (h : p + r.length ≤ t.length) :
    (overwrite r t p).length = t.length := by
  simp only [overwrite, List.length_append, List.length_take, List.length_drop]
  omega

theorem getElem?_overwrite (h : p + r.length ≤ t.length) :
    (overwrite r t p)[k]? = if p ≤ k ∧ k < p + r.length then r[k - p]? else t[k]? := by
  have hlength : (t.take p).length = p := by
    rw [List.length_take]
    omega
  rw [overwrite, List.append_assoc]
  by_cases hlow : k < p
  · rw [if_neg (by omega), List.getElem?_append_left (by omega), List.getElem?_take_of_lt hlow]
  · rw [List.getElem?_append_right (by omega), hlength]
    by_cases hhigh : k < p + r.length
    · rw [if_pos (by omega), List.getElem?_append_left (by omega)]
    · rw [if_neg (by omega), List.getElem?_append_right (by omega), List.getElem?_drop]
      congr 1
      omega

/-- `k` is one of the positions of a word of length `n` at one of the positions `ps`. -/
def Covered (n : ℕ) (ps : List ℕ) (k : ℕ) : Prop :=
  ∃ q ∈ ps, q ≤ k ∧ k < q + n

section Foldl

variable {ps : List ℕ}

theorem length_foldl_overwrite (h : ∀ q ∈ ps, q + r.length ≤ t.length) :
    (ps.foldl (overwrite r) t).length = t.length := by
  induction ps generalizing t with
  | nil => rfl
  | cons q ps ih =>
    have hq := length_overwrite (h q List.mem_cons_self)
    rw [List.foldl_cons, ih, hq]
    intro q' hq'
    rw [hq]
    exact h q' (List.mem_cons_of_mem q hq')

theorem foldl_overwrite_of_not_covered (h : ∀ q ∈ ps, q + r.length ≤ t.length)
    (hk : ¬ Covered r.length ps k) : (ps.foldl (overwrite r) t)[k]? = t[k]? := by
  induction ps generalizing t with
  | nil => rfl
  | cons q ps ih =>
    have hq := h q List.mem_cons_self
    rw [List.foldl_cons, ih]
    · rw [getElem?_overwrite hq, if_neg]
      intro hcovered
      exact hk ⟨q, List.mem_cons_self, hcovered⟩
    · intro q' hq'
      rw [length_overwrite hq]
      exact h q' (List.mem_cons_of_mem q hq')
    · rintro ⟨q', hq', hcovered⟩
      exact hk ⟨q', List.mem_cons_of_mem q hq', hcovered⟩

/-- Words that are written apart from each other all stay. -/
theorem occursAt_foldl_overwrite (hps : ps.Pairwise fun p q => p + r.length ≤ q)
    (h : ∀ q ∈ ps, q + r.length ≤ t.length) (hp : p ∈ ps) :
    OccursAt r (ps.foldl (overwrite r) t) p := by
  induction ps generalizing t with
  | nil => simp at hp
  | cons q ps ih =>
    obtain ⟨hapart, hps⟩ := List.pairwise_cons.mp hps
    have hq := h q List.mem_cons_self
    have hrest : ∀ q' ∈ ps, q' + r.length ≤ (overwrite r t q).length := by
      intro q' hq'
      rw [length_overwrite hq]
      exact h q' (List.mem_cons_of_mem q hq')
    rw [List.foldl_cons]
    rcases List.mem_cons.mp hp with rfl | hp
    · -- the later words are written behind this one
      apply occursAt_iff.mpr
      intro m hm
      rw [foldl_overwrite_of_not_covered hrest, getElem?_overwrite hq, if_pos (by omega)]
      · congr 1
        omega
      · rintro ⟨q', hq', hle, -⟩
        have := hapart q' hq'
        omega
    · exact ih hps hrest hp

end Foldl

/-! ### Patches -/

/-- A word to look for and a word of the same length to put in its place. -/
structure Patch (α : Type) where
  find : List α
  replace : List α
  find_ne_nil : find ≠ []
  length_eq : replace.length = find.length

theorem OccursAt.le_length {P : Patch α} (h : OccursAt P.find t q) :
    q + P.replace.length ≤ t.length := by
  have hle := List.IsPrefix.length_le h
  have hpos := List.length_pos_iff.mpr P.find_ne_nil
  rw [List.length_drop] at hle
  rw [P.length_eq]
  omega

variable [DecidableEq α]

/-- One patch is applied to those of the occurrences found that `keep` picks. -/
def Patch.apply (P : Patch α) (keep : ℕ → Bool) (t : List α) : List α :=
  ((spots P.find 0 0 t).filter keep).foldl (overwrite P.replace) t

/-- The table after the first `j` patches. -/
def after (Ps : List (Patch α)) (keep : ℕ → ℕ → Bool) (t : List α) : ℕ → List α
  | 0 => t
  | j + 1 =>
    match Ps[j]? with
    | some P => P.apply (keep j) (after Ps keep t j)
    | none => after Ps keep t j

/-- Patch `j` alters the element at position `k`. -/
def Alters (Ps : List (Patch α)) (keep : ℕ → ℕ → Bool) (t : List α) (j k : ℕ) : Prop :=
  (after Ps keep t (j + 1))[k]? ≠ (after Ps keep t j)[k]?

/-- Two words agree as far as both go. -/
def agree : List α → List α → Bool
  | x :: xs, y :: ys => x = y && agree xs ys
  | _, _ => true

theorem agree_iff_getElem {xs ys : List α} :
    agree xs ys ↔ ∀ m, m < xs.length → m < ys.length → xs[m]? = ys[m]? := by
  induction xs generalizing ys with
  | nil => simp [agree]
  | cons x xs ih =>
    cases ys with
    | nil => simp [agree]
    | cons y ys =>
      rw [agree, Bool.and_eq_true, ih, decide_eq_true_eq]
      constructor
      · rintro ⟨rfl, h⟩ m hx hy
        cases m with
        | zero => rfl
        | succ m => exact h m (by simpa using hx) (by simpa using hy)
      · intro h
        refine ⟨by simpa using h 0 (by simp) (by simp), fun m hx hy => ?_⟩
        simpa using h (m + 1) (by simpa using hx) (by simpa using hy)

/-- What the patch alters is no part of an occurrence of `g`: wherever a replacement and `g` agree
as far as they overlap, the patch has altered nothing of the overlap.  Either word may begin
first. -/
def Patch.Clear (P : Patch α) (g : List α) : Prop :=
  (∀ d < P.replace.length, agree (P.replace.drop d) g →
    (P.replace.drop d).take g.length = (P.find.drop d).take g.length) ∧
  ∀ d < g.length, agree P.replace (g.drop d) →
    P.replace.take (g.length - d) = P.find.take (g.length - d)

instance (P : Patch α) (g : List α) : Decidable (P.Clear g) :=
  inferInstanceAs (Decidable (_ ∧ _))

section Apply

variable {P : Patch α} {keep : ℕ → Bool} {g : List α}

theorem Patch.mem_spots (h : q ∈ (spots P.find 0 0 t).filter keep) : OccursAt P.find t q :=
  (Bytes.mem_spots (List.mem_of_mem_filter h)).2

theorem Patch.length_apply : (P.apply keep t).length = t.length :=
  length_foldl_overwrite fun _ hq => OccursAt.le_length (P.mem_spots hq)

/-- An element stays as it is or belongs to a replacement. -/
theorem Patch.apply_cases (k : ℕ) :
    (P.apply keep t)[k]? = t[k]? ∨
      ∃ q, q ≤ k ∧ k < q + P.find.length ∧ OccursAt P.find t q ∧
        OccursAt P.replace (P.apply keep t) q := by
  by_cases hk : Covered P.replace.length ((spots P.find 0 0 t).filter keep) k
  · obtain ⟨q, hq, hle, hlt⟩ := hk
    refine Or.inr ⟨q, hle, by rwa [← P.length_eq], P.mem_spots hq, ?_⟩
    refine occursAt_foldl_overwrite ?_ (fun _ hq => OccursAt.le_length (P.mem_spots hq)) hq
    rw [P.length_eq]
    exact (pairwise_spots P.find_ne_nil 0 0).filter keep
  · exact Or.inl (foldl_overwrite_of_not_covered
      (fun _ hq => OccursAt.le_length (P.mem_spots hq)) hk)

/-- The overlap of a replacement with an occurrence of a word that it is clear of. -/
theorem Patch.Clear.overlap (h : P.Clear g) {t' : List α} (hr : OccursAt P.replace t' q)
    (hg : OccursAt g t' p) (hq : q ≤ k) (hq' : k < q + P.replace.length) (hp : p ≤ k)
    (hp' : k < p + g.length) : P.replace[k - q]? = P.find[k - q]? := by
  rcases Nat.le_total q p with hqp | hpq
  · -- the replacement begins first
    obtain ⟨d, rfl⟩ := Nat.exists_eq_add_of_le hqp
    have hagree : agree (P.replace.drop d) g := by
      apply agree_iff_getElem.mpr
      intro m hm hm'
      rw [List.length_drop] at hm
      rw [List.getElem?_drop, ← occursAt_iff.mp hg m hm', ← occursAt_iff.mp hr (d + m) (by omega)]
      congr 1
      omega
    have heq := congrArg (fun l : List α => l[k - (q + d)]?) (h.1 d (by omega) hagree)
    have hk : d + (k - (q + d)) = k - q := by omega
    simpa only [List.getElem?_take_of_lt (show k - (q + d) < g.length by omega),
      List.getElem?_drop, hk] using heq
  · -- the occurrence begins first
    obtain ⟨d, rfl⟩ := Nat.exists_eq_add_of_le hpq
    have hagree : agree P.replace (g.drop d) := by
      apply agree_iff_getElem.mpr
      intro m hm hm'
      rw [List.length_drop] at hm'
      rw [List.getElem?_drop, ← occursAt_iff.mp hr m hm, ← occursAt_iff.mp hg (d + m) (by omega)]
      congr 1
      omega
    have heq := congrArg (fun l : List α => l[k - (p + d)]?) (h.2 d (by omega) hagree)
    simpa only [List.getElem?_take_of_lt (show k - (p + d) < g.length - d by omega)] using heq

/-- **A clear patch makes no new occurrence.** -/
theorem Patch.Clear.occursAt (h : P.Clear g) (hg : OccursAt g (P.apply keep t) p) :
    OccursAt g t p := by
  apply occursAt_iff.mpr
  intro m hm
  have happly := occursAt_iff.mp hg m hm
  rcases P.apply_cases (p + m) with hsame | ⟨q, hle, hlt, hfind, hreplace⟩
  · rw [← hsame, happly]
  · -- the patch has altered nothing here
    rw [← P.length_eq] at hlt
    have hoverlap := h.overlap hreplace hg hle hlt (Nat.le_add_right p m) (by omega)
    rw [← happly, hreplace.getElem? hle hlt, hoverlap,
      hfind.getElem? hle (by rwa [← P.length_eq])]

end Apply

/-! ### Runs of patches -/

/-- Every patch is clear of the words of the later ones. -/
def ClearInOrder (Ps : List (Patch α)) : Prop :=
  Ps.Pairwise fun P Q => P.Clear Q.find

instance (Ps : List (Patch α)) : Decidable (ClearInOrder Ps) :=
  inferInstanceAs (Decidable (Ps.Pairwise fun P Q => P.Clear Q.find))

theorem ClearInOrder.clear {Ps : List (Patch α)} {P Q : Patch α} {i j : ℕ} (h : ClearInOrder Ps)
    (hij : i < j) (hP : Ps[i]? = some P) (hQ : Ps[j]? = some Q) : P.Clear Q.find := by
  obtain ⟨hi, rfl⟩ := List.getElem?_eq_some_iff.mp hP
  obtain ⟨hj, rfl⟩ := List.getElem?_eq_some_iff.mp hQ
  exact List.pairwise_iff_getElem.mp h i j hi hj hij

section Runs

variable {Ps : List (Patch α)} {keep : ℕ → ℕ → Bool} {i j : ℕ}

theorem length_after : (after Ps keep t j).length = t.length := by
  induction j with
  | zero => rfl
  | succ j ih =>
    rw [after]
    cases Ps[j]? with
    | none => exact ih
    | some P => exact P.length_apply.trans ih

/-- **A patch finds only what it would have found in the original table**, and so does it in the
tables before it. -/
theorem not_cascade {P : Patch α} (hclear : ClearInOrder Ps) (hP : Ps[j]? = some P) (hij : i ≤ j)
    (h : OccursAt P.find (after Ps keep t i) p) : OccursAt P.find t p := by
  induction i with
  | zero => exact h
  | succ i ih =>
    rw [after] at h
    cases hQ : Ps[i]? with
    | none =>
      rw [hQ] at h
      exact ih (by omega) h
    | some Q =>
      rw [hQ] at h
      have hQP : Q.Clear P.find := hclear.clear hij hQ hP
      exact ih (by omega) (hQP.occursAt h)

/-- A patch alters only elements that no patch altered before. -/
theorem original_of_alters (hclear : ClearInOrder Ps) (h : Alters Ps keep t j k) :
    (after Ps keep t j)[k]? = t[k]? := by
  unfold Alters at h
  rw [after] at h
  cases hP : Ps[j]? with
  | none =>
    rw [hP] at h
    exact absurd rfl h
  | some P =>
    rw [hP] at h
    obtain ⟨q, hle, hlt, hfind, -⟩ := (P.apply_cases k).resolve_left h
    have hold := not_cascade hclear hP (Nat.le_refl j) hfind
    rw [hfind.getElem? hle hlt, hold.getElem? hle hlt]

/-- An element that was altered stays as it is. -/
theorem after_of_altered (hclear : ClearInOrder Ps) (hij : i ≤ j)
    (h : (after Ps keep t i)[k]? ≠ t[k]?) :
    (after Ps keep t j)[k]? = (after Ps keep t i)[k]? := by
  induction j, hij using Nat.le_induction with
  | base => rfl
  | succ j _ ih =>
    rw [← ih] at h ⊢
    by_contra hne
    exact h (original_of_alters hclear hne)

/-- **No element is altered by two patches.** -/
theorem altered_once (hclear : ClearInOrder Ps) (hi : Alters Ps keep t i k)
    (hj : Alters Ps keep t j k) : i = j := by
  have key {i j : ℕ} (hij : i < j) (hi : Alters Ps keep t i k) : ¬ Alters Ps keep t j k := by
    intro hj
    have haltered : (after Ps keep t (i + 1))[k]? ≠ t[k]? := by
      rw [← original_of_alters hclear hi]
      exact hi
    have hstays := after_of_altered hclear hij haltered
    rw [original_of_alters hclear hj] at hstays
    exact haltered hstays.symm
  rcases Nat.lt_trichotomy i j with hij | hij | hij
  · exact absurd hj (key hij hi)
  · exact hij
  · exact absurd hi (key hij hj)

end Runs

end Bytes
