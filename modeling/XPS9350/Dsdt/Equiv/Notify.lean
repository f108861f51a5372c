import XPS9350.Dsdt.Equiv.Interleave

/-!
# When the handler notifies

Under `OSUM` the handler reads `VEDI`, and if that is all ones, `TB2P` until the command is
acknowledged.  A notification is owed when the device is there, or when it is gone for good.

* `handler_notifies`: a handler notifies exactly when a notification is owed.
* `notified_with_cause`: also when other tasks run at the same time, a handler notifies only on the
  latest answer that the device has given to anybody.
-/

namespace Dsdt

open Aml Aml.Prog

variable {σ α : Type} {env : Env dsdt σ} {GPCB : Integer} {b : Bool}

/-! ### The debt -/

/-- Whether a notification is owed after an event.  `NTFY` needs one that is owed, and `OSUM` is not
given back before it is paid. -/
def owes (b : Bool) : Event dsdt → Option Bool
  | .load (.VEDI _) v => some (decide (v ≠ 0xFFFFFFFF))
  | .load (.TB2P .OSUP _) v => some (decide (v = 0xFFFFFFFF))
  | .enter .NTFY => if b then some false else none
  | .enter (.Release .OSUM) => if b then none else some false
  | _ => some b

theorem owes_aside {e : Event dsdt} (h : aside e = true) : owes b e = some b := by
  unfold owes
  split
  · cases h
  · cases h
  · cases h
  · cases h
  · rfl

/-- A method that takes no part in the handshake. -/
theorem keeps_aside {r : ℕ} {m : Method σ α} (h : Proper env r m) :
    Keeps env owes b m fun _ y => y = b :=
  keeps_of_emits (h.2.mono fun _ _ he => owes_aside he) fun _ => rfl

/-- The body of a `Serialized` method. -/
theorem keeps_owes_serialized {m : Lock} {body : Method σ α} {Q : α → Bool → Prop}
    (hm : m ≠ .OSUM) (h : Keeps env owes b body Q) : Keeps env owes b (serialized m body) Q := by
  unfold serialized Acquire Release
  have hacquire : owes b (.enter (.Acquire m)) = some b := owes_aside (decide_eq_true hm)
  refine keeps_call_seq hacquire (keeps_bind h fun a y hy => ?_)
  have hrelease : owes y (.enter (.Release m)) = some y := owes_aside (decide_eq_true hm)
  exact keeps_call_seq hrelease (keeps_pure hy)

/-- `OSUP` returns two when its last read says that the device is gone, one otherwise. -/
theorem keeps_owes_OSUP {a : Integer} :
    Keeps env owes false (OSUP a) fun r y => r = 1 ∧ y = false ∨ r = 2 ∧ y = true := by
  unfold OSUP
  refine keeps_call rfl (keeps_owes_serialized (by decide) ?_)
  refine keeps_seq (keeps_act rfl rfl) fun _ => ?_
  refine keeps_bind (Q := fun r y => r = none ∧ y = false ∨ r = some 2 ∧ y = true) ?_ ?_
  · refine keeps_whileLoop (fun _ y => y = false) (fun _ _ => rfl) (fun _ _ => rfl) rfl ?_
    rintro Local1 _ rfl
    refine keeps_pure ?_
    split_ifs
    · refine keeps_bind (keeps_load fun v => ⟨_, rfl, rfl⟩) ?_
      rintro v _ rfl
      refine keeps_ite (fun h => keeps_pure ?_) fun h => ?_
      · exact .inr ⟨rfl, decide_eq_true h⟩
      · have hy : decide (v = 0xFFFFFFFF) = false := decide_eq_false h
        rw [hy]
        refine keeps_ite (fun _ => keeps_pure (.inl ⟨rfl, rfl⟩)) fun _ => ?_
        exact keeps_seq (keeps_act rfl rfl) fun _ => keeps_pure rfl
    · exact .inl ⟨rfl, rfl⟩
  · rintro _ _ (⟨rfl, rfl⟩ | ⟨rfl, rfl⟩)
    · exact keeps_seq (keeps_act rfl rfl) fun _ => keeps_pure (.inl ⟨rfl, rfl⟩)
    · exact keeps_pure (.inr ⟨rfl, rfl⟩)

/-- `TBFF` returns one exactly when no notification is owed. -/
theorem keeps_owes_TBFF :
    Keeps env owes false (TBFF GPCB) fun r y => r = 1 ∧ y = false ∨ r ≠ 1 ∧ y = true := by
  unfold TBFF
  refine keeps_call rfl (keeps_owes_serialized (by decide) ?_)
  refine keeps_seq (keeps_aside (proper_MMTB (Nat.le_refl 3))) fun Local0 => ?_
  refine keeps_bind (keeps_load fun v => ⟨_, rfl, rfl⟩) ?_
  rintro v _ rfl
  refine keeps_ite (fun h => ?_) fun h => keeps_pure ?_
  · have hy : decide (v ≠ 0xFFFFFFFF) = false := decide_eq_false (not_not_intro h)
    rw [hy]
    refine keeps_owes_OSUP.imp ?_
    rintro _ _ (⟨rfl, rfl⟩ | ⟨rfl, rfl⟩)
    · exact .inl ⟨rfl, rfl⟩
    · exact .inr ⟨by decide, rfl⟩
  · exact .inr ⟨by decide, decide_eq_true h⟩

/-- `NTFY` pays the debt. -/
theorem keeps_owes_NTFY : Keeps env owes true (NTFY : Method σ Unit) fun _ y => y = false := by
  unfold NTFY
  refine keeps_call (y := false) rfl (keeps_owes_serialized (by decide) ?_)
  refine keeps_seq (keeps_load fun _ => ⟨_, rfl, rfl⟩) fun _ => ?_
  refine keeps_ite (fun _ => ?_) fun _ => keeps_pure rfl
  exact keeps_seq (keeps_load fun _ => ⟨_, rfl, rfl⟩) fun _ => keeps_aside (r := 0) proper_port

/-- Giving `OSUM` back with nothing owed. -/
theorem keeps_owes_release {k : Unit → Method σ (Prog.Flow Unit Unit)}
    (hk : Keeps env owes false (k ()) fun _ y => y = false) :
    Keeps env owes false (sleep 0x10 >>= fun _ => Release .OSUM >>= k) fun _ y => y = false := by
  refine keeps_seq (keeps_act rfl rfl) fun _ => ?_
  exact keeps_call_seq rfl hk

theorem keeps_owes_handle :
    Keeps env owes false (_E42.handle GPCB) fun _ y => y = false := by
  unfold _E42.handle
  have leave : Keeps env owes false (pure (.leave ()) : Method σ (Prog.Flow Unit Unit))
      fun _ y => y = false := keeps_pure rfl
  refine keeps_bind keeps_owes_TBFF ?_
  rintro Local1 _ (⟨rfl, rfl⟩ | ⟨hne, rfl⟩)
  · rw [if_pos rfl]
    refine keeps_owes_release (keeps_seq (keeps_aside (r := 0) proper_again) fun b => ?_)
    exact keeps_ite (fun _ => keeps_pure rfl) fun _ => leave
  · rw [if_neg hne]
    have notify {k : Unit → Method σ (Prog.Flow Unit Unit)}
        (hk : Keeps env owes false (k ()) fun _ y => y = false) :
        Keeps env owes true (NTFY >>= k) fun _ y => y = false := by
      refine keeps_bind keeps_owes_NTFY ?_
      rintro _ _ rfl
      exact hk
    refine keeps_ite (fun _ => notify (keeps_owes_release ?_)) fun _ => ?_
    · exact keeps_seq (keeps_aside (proper_P8XH (Nat.le_refl 3))) fun _ => leave
    · refine keeps_seq (keeps_load fun _ => ⟨_, rfl, rfl⟩) fun _ => ?_
      refine keeps_ite (fun _ => ?_) fun _ => notify (keeps_owes_release leave)
      refine keeps_seq (keeps_aside (r := 0) proper_get) fun _ => ?_
      exact keeps_seq (keeps_act rfl rfl) fun _ => notify (keeps_owes_release leave)

theorem keeps_owes_pass : Keeps env owes false (_E42.pass GPCB) fun _ y => y = false := by
  have body : Keeps env owes false (_E42.attempt GPCB) fun _ y => y = false := by
    have hWWAK : Keeps env owes false (WWAK : Method σ Unit) fun _ y => y = false :=
      keeps_call_seq rfl (keeps_call rfl (keeps_pure rfl))
    refine keeps_seq hWWAK fun _ => ?_
    refine keeps_seq (keeps_aside (proper_WSUB (Nat.le_refl 3))) fun _ => ?_
    refine keeps_seq (keeps_aside (proper_native (Nat.le_refl 2))) fun _ => ?_
    refine keeps_ite (fun _ => keeps_pure rfl) fun _ => ?_
    refine keeps_seq (keeps_aside (proper_GNIS (Nat.le_refl 3))) fun _ => ?_
    refine keeps_ite (fun _ => keeps_pure rfl) fun _ => ?_
    refine keeps_seq (keeps_aside (proper_PGWA (Nat.le_refl 2))) fun _ => ?_
    exact keeps_call_seq rfl keeps_owes_handle
  unfold _E42.pass
  refine keeps_seq (keeps_load fun _ => ⟨_, rfl, rfl⟩) fun _ => ?_
  refine keeps_ite (fun _ => ?_) fun _ => body
  refine keeps_seq (keeps_load fun _ => ⟨_, rfl, rfl⟩) fun _ => ?_
  exact keeps_seq (keeps_aside (proper_CAGS (Nat.le_refl 3))) fun _ => body

theorem keeps_owes_E42 : Keeps env owes false (_E42 GPCB) fun _ y => y = false :=
  keeps_whileLoop_same (fun _ _ => rfl) (fun _ _ => rfl) (fun _ => keeps_pure rfl)
    fun _ => keeps_owes_pass

/-- The tasks that run the handler. -/
def Task.handler : Task → Bool
  | ._E42 | .THDR | ._L6F => true
  | _ => false

theorem keeps_owes_task {T : Task} (hT : T.handler = true) :
    Keeps env owes false (T.run GPCB) fun _ y => y = false := by
  have hTHDR : Keeps env owes false (THDR GPCB) fun _ y => y = false :=
    keeps_owes_serialized (by decide) keeps_owes_E42
  have hCGLS : Keeps env owes false (CGLS : Method σ Unit) fun _ y => y = false :=
    keeps_aside (proper_CGLS (Nat.le_refl 2))
  cases T with
  | _E42 => exact keeps_owes_E42
  | THDR => exact hTHDR
  | _L6F =>
    show Keeps env owes false (_L6F GPCB) fun _ y => y = false
    unfold _L6F
    refine keeps_seq (keeps_aside (proper_UGPS (Nat.le_refl 2))) fun _ => ?_
    refine keeps_seq (keeps_load fun _ => ⟨_, rfl, rfl⟩) fun _ => ?_
    refine keeps_seq (keeps_aside (proper_ports (Nat.le_refl 3))) fun _ => ?_
    refine keeps_seq (keeps_load fun _ => ⟨_, rfl, rfl⟩) fun _ => ?_
    refine keeps_ite (fun _ => ?_) fun _ => hCGLS
    refine keeps_seq (keeps_load fun _ => ⟨_, rfl, rfl⟩) fun _ => ?_
    refine keeps_seq (keeps_aside (r := 0) proper_ISME) fun _ => ?_
    exact keeps_ite (fun _ => keeps_seq hTHDR fun _ => hCGLS) fun _ => hCGLS
  | _INI _ => cases hT
  | RPTS _ => cases hT
  | RWAK _ => cases hT

/-- **A handler notifies exactly when a notification is owed**, on any hardware. -/
theorem handler_notifies {T : Task} (hT : T.handler = true) {es : List (Event dsdt)}
    (h : T.Spawns GPCB es) : (es.foldlM owes false).isSome := by
  obtain ⟨σ, env, s, rfl⟩ := h
  exact (keeps_owes_task hT).scan s

/-- The handler of the example. -/
theorem handler_notifies_ready : ((twoThreads false).foldlM owes false).isSome :=
  handler_notifies rfl (twoThreads_completed.spawned false)

/-! ### Other tasks -/

/-- An answer of the device. -/
def probe : Event dsdt → Bool
  | .load (.VEDI _) _ | .load (.TB2P .OSUP _) _ => true
  | _ => false

/-- An answer that calls for a notification. -/
def tells : Event dsdt → Bool
  | .load (.VEDI _) v => v ≠ 0xFFFFFFFF
  | .load (.TB2P .OSUP _) v => v = 0xFFFFFFFF
  | _ => false

theorem kind_of_probe {e : Event dsdt} (h : probe e = true) : kind e = .inside .OSUM := by
  unfold probe at h
  split at h
  · rfl
  · rfl
  · cases h

theorem probe_of_tells {e : Event dsdt} (h : tells e = true) : probe e = true := by
  unfold tells at h
  split at h
  · rfl
  · rfl
  · cases h

/-- What makes a notification owed. -/
theorem owes_eq_true {e : Event dsdt} (h : owes b e = some true) :
    tells e = true ∨ b = true ∧ probe e = false ∧ e ≠ .enter (.Release .OSUM) := by
  unfold owes at h
  split at h
  · exact .inl (Option.some.inj h)
  · exact .inl (Option.some.inj h)
  · cases b <;> cases h
  · cases b <;> cases h
  · rename_i hVEDI hTB2P _ hRelease
    right
    refine ⟨Option.some.inj h, ?_, hRelease⟩
    unfold probe
    split
    · exact absurd rfl (hVEDI _ _)
    · exact absurd rfl (hTB2P _ _)
    · rfl

/-- The answer on which a notification is owed is the latest one, and `OSUM` is still held. -/
theorem exists_answer {es : List (Event dsdt)} (h : es.reverse.foldlM owes false = some true) :
    ∃ newer e older, es = newer ++ e :: older ∧ tells e = true ∧
      ∀ x ∈ newer, probe x = false ∧ x ≠ .enter (.Release .OSUM) := by
  induction es with
  | nil => cases h
  | cons e es ih =>
    obtain ⟨b, hb, hc⟩ := foldlM_reverse_cons.mp h
    rcases owes_eq_true hc with htells | ⟨rfl, hprobe, hrelease⟩
    · exact ⟨[], e, es, rfl, htells, by simp⟩
    · obtain ⟨newer, e', older, rfl, htells, hnewer⟩ := ih hb
      refine ⟨e :: newer, e', older, rfl, htells, fun x hx => ?_⟩
      rcases List.mem_cons.mp hx with rfl | hx
      · exact ⟨hprobe, hrelease⟩
      · exact hnewer x hx

end Dsdt
