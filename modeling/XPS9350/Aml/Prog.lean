import XPS9350.Aml.Hardware

/-!
# Programs

`Prog S σ α` is a method body over the objects of `S` and hardware with the states `σ`: a function
from worlds to worlds that performs events and may stop with `none` when it is out of fuel.  That
it changes the world by events only is part of the type (`Prog.path`), so the facts about paths
hold of every program.  `whileLoop` is the only source of divergence; it runs at most `fuel` times.
-/

namespace Aml

variable {S : Signature} {σ α β γ : Type}

/-- A method body: `none` means that the fuel ran out. -/
@[ext] structure Prog (S : Signature) (σ α : Type) where
  run : Env S σ → World S σ → Option α × World S σ
  path : ∀ env w, Path env.hw (fun _ _ => True) w (run env w).2

namespace Prog

instance : CoeFun (Prog S σ α) fun _ => Env S σ → World S σ → Option α × World S σ := ⟨run⟩

/-- The continuation of a run, if it ended. -/
def andThen (f : α → Prog S σ β) (env : Env S σ) : Option α × World S σ → Option β × World S σ
  | (some a, w) => f a env w
  | (none, w) => (none, w)

/-- Continue after `m` if it ended. -/
def bind (m : Prog S σ α) (f : α → Prog S σ β) : Prog S σ β where
  run env w := andThen f env (m env w)
  path env w := by
    have h := m.path env w
    rcases hm : m env w with ⟨_ | a, w'⟩ <;> rw [hm] at h
    · exact h
    · exact h.trans ((f a).path env w')

instance : Monad (Prog S σ) where
  pure a := ⟨fun _ w => (some a, w), fun _ _ => .refl⟩
  bind := bind

theorem run_bind (m : Prog S σ α) (f : α → Prog S σ β) (env : Env S σ) (w : World S σ) :
    (m >>= f) env w = andThen f env (m env w) := rfl

instance : LawfulMonad (Prog S σ) :=
  LawfulMonad.mk' _
    (fun m => by
      ext1
      funext env w
      change andThen (fun a => pure a) env (m env w) = m env w
      rcases m env w with ⟨_ | a, w'⟩ <;> rfl)
    (fun _ _ => rfl)
    (fun m f g => by
      ext1
      funext env w
      change andThen g env (andThen f env (m env w)) = andThen (fun a => f a >>= g) env (m env w)
      rcases m env w with ⟨_ | a, w'⟩ <;> rfl)

section

variable {env : Env S σ} {m : Prog S σ α} {f : α → Prog S σ β} {w w' : World S σ} {a : α}

theorem bind_of_some (h : m env w = (some a, w')) : (m >>= f) env w = f a env w' := by
  rw [run_bind, h, andThen]

theorem bind_of_none (h : m env w = (none, w')) : (m >>= f) env w = (none, w') := by
  rw [run_bind, h, andThen]

end

/-- Out of fuel. -/
def halt : Prog S σ α := ⟨fun _ w => (none, w), fun _ _ => .refl⟩

/-- The value of a name. -/
def get (n : S.Name) : Prog S σ Integer := ⟨fun _ w => (some (w.names n), w), fun _ _ => .refl⟩

/-- An action without a result. -/
def act (e : Event S) (he : ∀ (hw : Hardware S σ) s, hw.Answers s e) : Prog S σ Unit where
  run env w := (some (), w.perform env.hw e)
  path _ _ := .single (he _ _) trivial

/-- Store an integer in a name. -/
def set (n : S.Name) (v : Integer) : Prog S σ Unit := act (.set n v) fun _ _ => answers_set

/-- Read a field unit. -/
def load (f : S.Field) : Prog S σ Integer where
  run env w :=
    let v := env.hw.reads f w.toState
    (some v, w.perform env.hw (.load f v))
  path _ _ := .single rfl trivial

/-- Write a field unit; the value is cut to the width of the unit. -/
def store (f : S.Field) (v : Integer) : Prog S σ Unit :=
  act (.store f (S.cut f v)) fun _ _ => answers_store

/-- `Sleep (ms)`. -/
def sleep (ms : Integer) : Prog S σ Unit := act (.sleep ms) fun _ _ => answers_sleep

/-- `Stall (us)`. -/
def stall (us : Integer) : Prog S σ Unit := act (.stall us) fun _ _ => answers_stall

/-- `Timer`, in units of 100 ns. -/
def timer : Prog S σ Integer where
  run env w :=
    let t := (env.hw.timer w.hw).1
    (some t, w.perform env.hw (.timer t))
  path _ _ := .single rfl trivial

/-- The body of method `m`, its entry recorded. -/
def call (m : S.Method) (body : Prog S σ α) : Prog S σ α := do
  act (.enter m) fun _ _ => answers_enter
  body

/-- How one pass through the body of a `While` ends: the predicate is tested again, or the loop
is left by `Break` or `Return`. -/
inductive Flow (β γ : Type) where
  | next (b : β)
  | leave (c : γ)

/-- `whileLoop` with its fuel and the number of passes made so far. -/
def whileLoop.go (l : S.Loop) (cond : β → Prog S σ Bool) (body : β → Prog S σ (Flow β γ))
    (done : β → γ) : Nat → Nat → β → Prog S σ γ
  | 0, _, _ => halt
  | n + 1, i, b => do
    act (.test l i) fun _ _ => answers_test
    if ← cond b then
      act (.pass l i) fun _ _ => answers_pass
      match ← body b with
      | .next b' => whileLoop.go l cond body done n (i + 1) b'
      | .leave c => pure c
    else
      pure (done b)

/-- `While (cond) {body}` over the locals `b`; `done` gives the result when the predicate is
false. -/
def whileLoop (l : S.Loop) (cond : β → Prog S σ Bool) (body : β → Prog S σ (Flow β γ))
    (done : β → γ) (b : β) : Prog S σ γ where
  run env w := whileLoop.go l cond body done env.fuel 0 b env w
  path env w := (whileLoop.go l cond body done env.fuel 0 b).path env w

end Prog

end Aml
