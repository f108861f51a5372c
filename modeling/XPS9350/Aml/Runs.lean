import XPS9350.Aml.Prog

/-!
# Runs that end as computed

On hardware with known answers a program can be executed.  `Runs env view m x a x'` says that `m`,
started where the `view` of the state is `x`, ends with the result `a` where it is `x'`; the view
leaves out what the program does not depend on, such as the time.
-/

namespace Aml

variable {S : Signature} {σ α β γ X : Type}

/-- `m` takes the view `x` to `x'` with the result `a`. -/
def Runs (env : Env S σ) (view : State S σ → X) (m : Prog S σ α) (x : X) (a : α) (x' : X) : Prop :=
  ∀ w : World S σ, view w.toState = x → ∃ w', m env w = (some a, w') ∧ view w'.toState = x'

variable {env : Env S σ} {view : State S σ → X} {x x' x'' : X} {m : Prog S σ α} {a : α} {b : β}

theorem runs_pure : Runs env view (pure a) x a x := fun w hx => ⟨w, rfl, hx⟩

theorem runs_bind {f : α → Prog S σ β} (hm : Runs env view m x a x')
    (hf : Runs env view (f a) x' b x'') : Runs env view (m >>= f) x b x'' := by
  intro w hx
  obtain ⟨w', hw', hx'⟩ := hm w hx
  rw [Prog.bind_of_some hw']
  exact hf w' hx'

theorem runs_act {e : Event S} {he : ∀ (hw : Hardware S σ) s, hw.Answers s e}
    (h : ∀ s, view s = x → view (env.hw.after s e) = x') : Runs env view (Prog.act e he) x () x' :=
  fun w hx => ⟨w.perform env.hw e, rfl, h w.toState hx⟩

theorem runs_get {n : S.Name} {v : Integer} (h : ∀ s, view s = x → s.names n = v) :
    Runs env view (Prog.get n) x v x := fun w hx =>
  ⟨w, by rw [← h w.toState hx]; rfl, hx⟩

theorem runs_load {f : S.Field} {v : Integer} (hv : ∀ s, view s = x → env.hw.reads f s = v)
    (h : ∀ s, view s = x → view (env.hw.after s (.load f v)) = x') :
    Runs env view (Prog.load f) x v x' := fun w hx =>
  ⟨w.perform env.hw (.load f v), by rw [← hv w.toState hx]; rfl, h w.toState hx⟩

theorem runs_store {f : S.Field} {v : Integer}
    (h : ∀ s, view s = x → view (env.hw.after s (.store f v)) = x') :
    Runs env view (Prog.store f v) x () x' := by
  refine runs_act fun s hx => ?_
  -- the value on the log is cut, and the store cuts it again
  have hcut : env.hw.after s (.store f (S.cut f v)) = env.hw.after s (.store f v) := by
    simp only [Hardware.after, S.setWidth_cut]
  rw [hcut]
  exact h s hx

theorem runs_call {i : S.Method} (h : Runs env view m x a x') :
    Runs env view (Prog.call i m) x a x' :=
  runs_bind (a := ()) (runs_act fun _ hx => hx) h

/-! ### Loops -/

section Loop

variable {l : S.Loop} {cond : β → Prog S σ Bool} {body : β → Prog S σ (Prog.Flow β γ)}
  {done : β → γ} {c : γ}

/-- One pass that does not leave the loop. -/
theorem runs_go_next {b' : β} {n i : ℕ} {x₀ : X} (hcond : Runs env view (cond b) x₀ true x)
    (hbody : Runs env view (body b) x (.next b') x')
    (h : Runs env view (Prog.whileLoop.go l cond body done n (i + 1) b') x' c x'') :
    Runs env view (Prog.whileLoop.go l cond body done (n + 1) i b) x₀ c x'' := by
  rw [Prog.whileLoop.go]
  refine runs_bind (a := ()) (runs_act fun _ hx => hx) (runs_bind hcond ?_)
  exact runs_bind (a := ()) (runs_act fun _ hx => hx) (runs_bind hbody h)

/-- A pass that leaves it. -/
theorem runs_go_leave {n i : ℕ} {x₀ : X} (hcond : Runs env view (cond b) x₀ true x)
    (hbody : Runs env view (body b) x (.leave c) x') :
    Runs env view (Prog.whileLoop.go l cond body done (n + 1) i b) x₀ c x' := by
  rw [Prog.whileLoop.go]
  refine runs_bind (a := ()) (runs_act fun _ hx => hx) (runs_bind hcond ?_)
  exact runs_bind (a := ()) (runs_act fun _ hx => hx) (runs_bind hbody runs_pure)

theorem runs_go_done {n i : ℕ} (hcond : Runs env view (cond b) x false x') :
    Runs env view (Prog.whileLoop.go l cond body done (n + 1) i b) x (done b) x' := by
  rw [Prog.whileLoop.go]
  exact runs_bind (a := ()) (runs_act fun _ hx => hx) (runs_bind hcond runs_pure)

/-- `k` passes with the locals `b i` in the states `x i`, whatever comes after them. -/
theorem runs_whileLoop {k : ℕ} (hfuel : k < env.fuel) (b : ℕ → β) (x : ℕ → X)
    (hcond : ∀ i < k, Runs env view (cond (b i)) (x i) true (x i))
    (hnext : ∀ i < k, Runs env view (body (b i)) (x i) (.next (b (i + 1))) (x (i + 1)))
    (hlast : ∀ n, Runs env view (Prog.whileLoop.go l cond body done (n + 1) k (b k)) (x k) c x') :
    Runs env view (Prog.whileLoop l cond body done (b 0)) (x 0) c x' := by
  have key : ∀ j ≤ k, Runs env view
      (Prog.whileLoop.go l cond body done (env.fuel - (k - j)) (k - j) (b (k - j))) (x (k - j)) c
        x' := by
    intro j hj
    induction j with
    | zero =>
      have hn := hlast (env.fuel - k - 1)
      rwa [Nat.sub_add_cancel (by omega)] at hn
    | succ j ih =>
      have hlt : k - (j + 1) < k := by omega
      have hstep : k - (j + 1) + 1 = k - j := by omega
      have hrest := ih (by omega)
      have hfuel' : env.fuel - (k - (j + 1)) = env.fuel - (k - j) + 1 := by omega
      rw [hfuel']
      refine runs_go_next (hcond _ hlt) (hnext _ hlt) ?_
      rwa [hstep]
  have h := key k (Nat.le_refl k)
  rw [Nat.sub_self, Nat.sub_zero] at h
  exact fun w hx => h w hx

/-- A loop that is left in the pass after the first `k`. -/
theorem runs_whileLoop_leave {k : ℕ} (hfuel : k < env.fuel) (b : ℕ → β) (x : ℕ → X)
    (hcond : ∀ i ≤ k, Runs env view (cond (b i)) (x i) true (x i))
    (hnext : ∀ i < k, Runs env view (body (b i)) (x i) (.next (b (i + 1))) (x (i + 1)))
    (hleave : Runs env view (body (b k)) (x k) (.leave c) x') :
    Runs env view (Prog.whileLoop l cond body done (b 0)) (x 0) c x' :=
  runs_whileLoop hfuel b x (fun i hi => hcond i (Nat.le_of_lt hi)) hnext fun _ =>
    runs_go_leave (hcond k (Nat.le_refl k)) hleave

/-- A loop whose predicate fails after `k` passes. -/
theorem runs_whileLoop_done {k : ℕ} (hfuel : k < env.fuel) (b : ℕ → β) (x : ℕ → X)
    (hcond : ∀ i < k, Runs env view (cond (b i)) (x i) true (x i))
    (hnext : ∀ i < k, Runs env view (body (b i)) (x i) (.next (b (i + 1))) (x (i + 1)))
    (hdone : Runs env view (cond (b k)) (x k) false x') :
    Runs env view (Prog.whileLoop l cond body done (b 0)) (x 0) (done (b k)) x' :=
  runs_whileLoop hfuel b x hcond hnext fun _ => runs_go_done hdone

end Loop

end Aml
