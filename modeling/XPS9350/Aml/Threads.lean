import XPS9350.Aml.Monitor
import XPS9350.Sync.Progress

/-!
# Programs as threads

The events of a run are those of a thread, and a protocol of locks and a gate is a monitor of them.
`Nests env p r K m` says that `m` keeps to the protocol `p` wherever the locks held are below the
rank `r` and those of `K` among them, and that it ends in the place where it started.
-/

namespace Aml

open Sync (Place Protocol)

variable {S : Signature} {σ α β γ L : Type} [DecidableEq L] {env : Env S σ}
  {p : Protocol L (Event S)} {x : Place L} {e : Event S} {r : ℕ} {K : List L}

/-! ### Nested locks -/

/-- Wherever the thread is not on its way through the gate, holds only locks below the rank `r` and
holds those of `K`, the program keeps to the protocol and ends where it started. -/
def Nests (env : Env S σ) (p : Protocol L (Event S)) (r : ℕ) (K : List L) (m : Prog S σ α) : Prop :=
  ∀ x : Place L, x.passing = false → (∀ k ∈ x.held, p.rank k < r) → (∀ k ∈ K, k ∈ x.held) →
    Keeps env (Place.next p) x m fun _ y => y = x

variable (p) in
/-- An event that has nothing to do with the locks, or belongs inside one of `K`. -/
def Allowed (K : List L) (e : Event S) : Prop :=
  p.kind e = .plain ∨ ∃ l ∈ K, p.kind e = .inside l

theorem Allowed.next (h : Allowed p K e) (hpass : x.passing = false) (hK : ∀ k ∈ K, k ∈ x.held) :
    x.next p e = some x := by
  rcases h with h | ⟨l, hl, h⟩
  · exact Sync.next_plain h
  · exact (Sync.next_inside h).mpr ⟨⟨hpass, hK l hl⟩, rfl⟩

section Nests

variable {m : Prog S σ α}

theorem nests_of_emits (h : Emits env (fun _ e => Allowed p K e) m) : Nests env p r K m :=
  fun _ hpass _ hin => keeps_of_emits (h.mono fun _ _ he => he.next hpass hin) fun _ => rfl

theorem nests_pure {a : α} : Nests env p r K (pure a : Prog S σ α) := fun _ _ _ _ => keeps_pure rfl

theorem nests_halt : Nests env p r K (Prog.halt : Prog S σ α) := fun _ _ _ _ => keeps_halt

theorem nests_bind {f : α → Prog S σ β} (hm : Nests env p r K m) (hf : ∀ a, Nests env p r K (f a)) :
    Nests env p r K (m >>= f) := fun x hpass hheld hin =>
  keeps_bind (hm x hpass hheld hin) fun a y hy => by
    subst hy
    exact hf a y hpass hheld hin

/-- Sequencing after a program without a result. -/
theorem nests_seq {m : Prog S σ Unit} {f : Unit → Prog S σ β} (hm : Nests env p r K m)
    (hf : Nests env p r K (f ())) : Nests env p r K (m >>= f) := nests_bind hm fun _ => hf

theorem nests_ite {c : Prop} [Decidable c] {n : Prog S σ α} (hm : Nests env p r K m)
    (hn : Nests env p r K n) : Nests env p r K (if c then m else n) := by
  split_ifs
  · exact hm
  · exact hn

theorem nests_get {n : S.Name} : Nests env p r K (Prog.get n) := nests_of_emits emits_get

theorem nests_act {ha : ∀ (hw : Hardware S σ) s, hw.Answers s e} (he : Allowed p K e) :
    Nests env p r K (Prog.act e ha) := nests_of_emits (emits_act fun _ => he)

theorem nests_load {f : S.Field} (he : ∀ v, Allowed p K (.load f v)) :
    Nests env p r K (Prog.load f) := nests_of_emits (emits_load fun _ => he)

theorem nests_call {i : S.Method} (he : Allowed p K (.enter i)) (h : Nests env p r K m) :
    Nests env p r K (Prog.call i m) := nests_seq (nests_act he) h

theorem nests_whileLoop {l : S.Loop} {cond : β → Prog S σ Bool}
    {body : β → Prog S σ (Prog.Flow β γ)} {done : β → γ} {b : β}
    (ht : ∀ i, p.kind (.test l i) = .plain) (hp : ∀ i, p.kind (.pass l i) = .plain)
    (hc : ∀ b, Nests env p r K (cond b)) (hb : ∀ b, Nests env p r K (body b)) :
    Nests env p r K (Prog.whileLoop l cond body done b) := fun x hpass hheld hin =>
  keeps_whileLoop_same (fun _ i => Sync.next_plain (ht i)) (fun _ i => Sync.next_plain (hp i))
    (fun b => hc b x hpass hheld hin) fun b => hb b x hpass hheld hin

/-- Take the lock `l`, run `m` under it and give it back. -/
theorem nests_locked {l : L} {i j : S.Method} (hi : p.kind (.enter i) = .acquire l)
    (hj : p.kind (.enter j) = .release l) (hr : r ≤ p.rank l)
    (h : Nests env p (p.rank l + 1) (l :: K) m) :
    Nests env p r K (do
      Prog.call i (pure ())
      let a ← m
      Prog.call j (pure ())
      pure a) := by
  intro x hpass hheld hin
  have hbelow : ∀ k ∈ x.held, p.rank k < p.rank l := fun k hk =>
    Nat.lt_of_lt_of_le (hheld k hk) hr
  have hacquire : x.next p (.enter i) = some { x with held := l :: x.held } :=
    (Sync.next_acquire hi).mpr ⟨⟨hpass, hbelow⟩, rfl⟩
  have hrelease : Place.next p { x with held := l :: x.held } (.enter j) = some x :=
    (Sync.next_release hj).mpr ⟨⟨hpass, rfl⟩, rfl⟩
  refine keeps_call_seq hacquire (keeps_seq (h _ hpass ?_ ?_) fun a => ?_)
  · intro k hk
    rcases List.mem_cons.mp hk with rfl | hk
    · exact Nat.lt_succ_self _
    · exact Nat.lt_succ_of_lt (hbelow k hk)
  · intro k hk
    rcases List.mem_cons.mp hk with rfl | hk
    · exact List.mem_cons_self
    · exact List.mem_cons_of_mem l (hin k hk)
  · exact keeps_call_seq hrelease (keeps_pure rfl)

end Nests

end Aml
