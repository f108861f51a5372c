import XPS9350.Aml.Dwords
import XPS9350.Aml.Emits

/-!
# Hardware that shows up late

The dwords of a table belong to devices, and a device may be absent at first: its reads return all
ones and its writes are dropped.  `Arrivals` states this of any hardware whose field units lie in
dwords, for the field units in `kept`, which hold what was written to them.

A store to a part of a dword reads it before it writes it, and the device may show up in between.
The store then reaches the device and carries the all ones that it read into the rest of the dword.
`Took`: a write of a field unit reached its device.  `Torn`: its device showed up in the middle of
a store to a neighbour.  `arriving` is such hardware, with a moment of arrival for each device.
-/

namespace Aml

variable {S : Signature} {σ R D α : Type} {hw : Hardware S σ} {place : S.Field → Option (R × ℕ)}
  {home : R → D} {kept : S.Field → Prop} {P : World S σ → Event S → Prop} {w w' : World S σ}
  {f g : S.Field} {r : R} {lsb : ℕ}

/-- Each device is absent up to some moment and there from then on.  What a field unit holds while
its device is absent is what it will hold when the device shows up. -/
structure Arrivals (hw : Hardware S σ) (place : S.Field → Option (R × ℕ)) (home : R → D)
    (kept : S.Field → Prop) where
  /-- What is not in a dword, and the clock. -/
  others : Hardware S σ
  dev : Device R σ
  dwords : hw = others.withDwords place dev
  here : D → σ → Prop
  content : σ → (f : S.Field) → BitVec (S.width f)
  read_stays : ∀ d r s, here d s → here d (dev.read r s).2
  write_stays : ∀ d r v s, here d s → here d (dev.write r v s)
  others_stay : ∀ d s e, here d s.hw → here d (others.after s e).hw
  read_here : ∀ f r lsb s, kept f → place f = some (r, lsb) → here (home r) s →
    (dev.read r s).1.extractLsb' lsb (S.width f) = content s f
  read_absent : ∀ r s, ¬ here (home r) s → (dev.read r s).1 = BitVec.allOnes 32
  write_here : ∀ f r lsb v s, kept f → place f = some (r, lsb) → here (home r) s →
    content (dev.write r v s) f = v.extractLsb' lsb (S.width f)
  write_absent : ∀ f r v s, kept f → ¬ here (home r) s → content (dev.write r v s) f = content s f
  write_other : ∀ f r lsb r' v s, kept f → place f = some (r, lsb) → r ≠ r' →
    content (dev.write r' v s) f = content s f
  read_keeps : ∀ f r s, kept f → content (dev.read r s).2 f = content s f
  others_keep : ∀ f s e, kept f → content (others.after s e).hw f = content s.hw f

namespace Arrivals

variable (A : Arrivals hw place home kept)

/-- The device of the field unit `f` is there. -/
def Up (f : S.Field) (s : σ) : Prop := ∀ r ∈ (place f).map Prod.fst, A.here (home r) s

/-- The event takes effect on `f`: it is a store, and the device is there for its write. -/
def Takes (f : S.Field) (s : σ) (e : Event S) : Prop :=
  (∃ v, e = .store f v) ∧ A.Up f (A.dev.halfway place f s)

/-- The event tears `f`: it is a store to another field unit of its dword, and the device shows up
between the read and the write. -/
def Tears (f : S.Field) (s : σ) (e : Event S) : Prop :=
  ∃ g v, e = .store g v ∧ g ≠ f ∧ (place g).map Prod.fst = (place f).map Prod.fst ∧
    ¬ A.Up g s ∧ A.Up g (A.dev.halfway place g s)

/-- A write of `f` has reached its device. -/
def Took (f : S.Field) (w : World S σ) : Prop := ∃ x ∈ w.log, A.Takes f x.before.hw x.event

/-- A store to a neighbour has torn `f`. -/
def Torn (f : S.Field) (w : World S σ) : Prop := ∃ x ∈ w.log, A.Tears f x.before.hw x.event

/-- The field unit holds `v`: its device is there and has it. -/
def Holds (f : S.Field) (v : Integer) (s : σ) : Prop :=
  A.Up f s ∧ (A.content s f).setWidth 64 = v

variable {A}

theorem up_iff (h : place f = some (r, lsb)) {s : σ} : A.Up f s ↔ A.here (home r) s := by
  simp [Up, h]

theorem up_congr (h : (place g).map Prod.fst = (place f).map Prod.fst) {s : σ} :
    A.Up g s ↔ A.Up f s := by
  rw [Up, Up, h]

/-! ### The accesses -/

theorem load_eq (A : Arrivals hw place home kept) (h : place f = some (r, lsb)) (s : σ) :
    hw.load f s = ((A.dev.read r s).1.extractLsb' lsb (S.width f), (A.dev.read r s).2) :=
  (congrArg (fun hw => hw.load f s) A.dwords).trans (withDwords_load h s)

theorem store_eq (A : Arrivals hw place home kept) (h : place f = some (r, lsb))
    (v : BitVec (S.width f)) (s : σ) :
    hw.store f v s =
      A.dev.write r (v.insertAt lsb (A.dev.read r s).1) (A.dev.halfway place f s) := by
  rw [Device.halfway_some h]
  exact (congrArg (fun hw => hw.store f v s) A.dwords).trans (withDwords_store h v s)

/-- An event changes the state by a read, by a write after a read at most, or as the others do. -/
theorem after_cases (A : Arrivals hw place home kept) (s : State S σ) (e : Event S) :
    (∃ g r lsb v, e = .load g v ∧ place g = some (r, lsb) ∧
      (hw.after s e).hw = (A.dev.read r s.hw).2) ∨
    (∃ g r lsb v, e = .store g v ∧ place g = some (r, lsb) ∧
      (hw.after s e).hw = A.dev.write r ((v.setWidth (S.width g)).insertAt lsb
        (A.dev.read r s.hw).1) (A.dev.halfway place g s.hw)) ∨
    (hw.after s e).hw = (A.others.after s e).hw := by
  have hafter : hw.after s e = (A.others.withDwords place A.dev).after s e :=
    congrArg (fun hw => hw.after s e) A.dwords
  cases e with
  | load g v =>
    cases hg : place g with
    | some x => exact .inl ⟨g, x.1, x.2, v, rfl, hg, congrArg Prod.snd (A.load_eq hg s.hw)⟩
    | none =>
      rw [hafter]
      exact .inr (.inr (congrArg Prod.snd (withDwords_load_none hg s.hw)))
  | store g v =>
    cases hg : place g with
    | some x => exact .inr (.inl ⟨g, x.1, x.2, v, rfl, hg, A.store_eq hg _ s.hw⟩)
    | none =>
      rw [hafter]
      exact .inr (.inr (withDwords_store_none hg _ s.hw))
  | _ =>
    rw [hafter]
    exact .inr (.inr rfl)

/-- A device that is there is there for the write of a store. -/
theorem here_halfway {d : D} {s : σ} (h : A.here d s) : A.here d (A.dev.halfway place g s) := by
  unfold Device.halfway
  cases place g with
  | none => exact h
  | some x => exact Device.reached_of h (A.read_stays d x.1 s)

theorem here_after {d : D} {s : State S σ} {e : Event S} (h : A.here d s.hw) :
    A.here d (hw.after s e).hw := by
  rcases A.after_cases s e with
    ⟨g, r, lsb, v, -, -, heq⟩ | ⟨g, r, lsb, v, -, -, heq⟩ | heq
  · exact heq ▸ A.read_stays d r s.hw h
  · exact heq ▸ A.write_stays d r _ _ (here_halfway h)
  · exact heq ▸ A.others_stay d s e h

theorem Up.halfway {s : σ} (h : A.Up f s) : A.Up f (A.dev.halfway place g s) :=
  fun r hr => here_halfway (h r hr)

theorem Up.after {s : State S σ} {e : Event S} (h : A.Up f s.hw) : A.Up f (hw.after s e).hw :=
  fun r hr => here_after (h r hr)

/-- A device that is there for the write of a store is there afterwards. -/
theorem here_store {d : D} {s : State S σ} {v : Integer}
    (h : A.here d (A.dev.halfway place g s.hw)) : A.here d (hw.after s (.store g v)).hw := by
  cases hg : place g with
  | none =>
    have hsame : A.dev.halfway place g s.hw = s.hw := by
      simp only [Device.halfway, hg]
    rw [hsame] at h
    exact here_after h
  | some x =>
    have hstore : (hw.after s (.store g v)).hw = _ := A.store_eq hg _ s.hw
    rw [hstore]
    exact A.write_stays _ _ _ _ h

theorem Up.store {s : State S σ} {v : Integer} (h : A.Up f (A.dev.halfway place g s.hw)) :
    A.Up f (hw.after s (.store g v)).hw :=
  fun r hr => here_store (h r hr)

theorem content_halfway (hf : kept f) (s : σ) :
    A.content (A.dev.halfway place g s) f = A.content s f := by
  unfold Device.halfway
  cases place g with
  | none => rfl
  | some x =>
    exact Device.reached_of (I := fun s' => A.content s' f = A.content s f) rfl
      fun _ => A.read_keeps f x.1 s hf

/-! ### One event -/

section Event

variable {s : State S σ} {e : Event S} {v : Integer} (hlayout : Layout place) (hkept : kept f)
  (hf : place f = some (r, lsb))

include hlayout hkept hf

/-- A write that takes is what the field unit holds. -/
theorem content_takes (h : A.Takes f s.hw (.store f v)) :
    A.content (hw.after s (.store f v)).hw f = v.setWidth (S.width f) := by
  have hstore : (hw.after s (.store f v)).hw = _ := A.store_eq hf (v.setWidth (S.width f)) s.hw
  rw [hstore, A.write_here f r lsb _ _ hkept hf ((up_iff hf).mp h.2)]
  exact BitVec.extract_insertAt (hlayout.fits f r lsb hf)

/-- A store that tears leaves all ones. -/
theorem content_tears (h : A.Tears f s.hw e) :
    A.content (hw.after s e).hw f = BitVec.allOnes (S.width f) := by
  obtain ⟨g, v, rfl, hne, hplace, habsent, hhere⟩ := h
  rw [hf, Option.map_some, Option.map_eq_some_iff] at hplace
  obtain ⟨⟨r', lsb'⟩, hg, rfl⟩ := hplace
  have hstore : (hw.after s (.store g v)).hw = _ := A.store_eq hg (v.setWidth (S.width g)) s.hw
  rw [hstore, A.write_here f _ lsb _ _ hkept hf ((up_iff hg).mp hhere),
    BitVec.extract_insertAt_of_disjoint (hlayout.fits f _ lsb hf)
      (hlayout.apart f g _ lsb lsb' hne.symm hf hg),
    A.read_absent r' s.hw fun hup => habsent ((up_iff hg).mpr hup)]
  exact BitVec.extract_allOnes (hlayout.fits f _ lsb hf)

/-- Every other event leaves the field unit alone. -/
theorem content_keeps (htakes : ¬ A.Takes f s.hw e) (htears : ¬ A.Tears f s.hw e) :
    A.content (hw.after s e).hw f = A.content s.hw f := by
  rcases A.after_cases s e with
    ⟨g, r', lsb', v, rfl, hg, heq⟩ | ⟨g, r', lsb', v, rfl, hg, heq⟩ | heq
  · rw [heq]
    exact A.read_keeps f r' s.hw hkept
  · rw [heq]
    by_cases hr : r = r'
    · subst hr
      by_cases hhere : A.Up g (A.dev.halfway place g s.hw)
      · have hne : g ≠ f := by
          rintro rfl
          exact htakes ⟨⟨v, rfl⟩, hhere⟩
        -- the device was there for the read already, so the write puts back what was read
        have hread : A.here (home r) s.hw := by
          by_contra habsent
          refine htears ⟨g, v, rfl, hne, by rw [hg, hf]; rfl, ?_, hhere⟩
          exact fun hup => habsent ((up_iff hg).mp hup)
        rw [A.write_here f r lsb _ _ hkept hf ((up_iff hg).mp hhere),
          BitVec.extract_insertAt_of_disjoint (hlayout.fits f r lsb hf)
            (hlayout.apart f g r lsb lsb' hne.symm hf hg)]
        exact A.read_here f r lsb s.hw hkept hf hread
      · rw [A.write_absent f r _ _ hkept fun hup => hhere ((up_iff hg).mpr hup)]
        exact content_halfway hkept s.hw
    · rw [A.write_other f r lsb r' _ _ hkept hf hr]
      exact content_halfway hkept s.hw
  · rw [heq]
    exact A.others_keep f s e hkept

end Event

/-! ### Histories -/

theorem Took.perform {e : Event S} (h : A.Took f w) : A.Took f (w.perform hw e) := by
  obtain ⟨x, hx, htakes⟩ := h
  exact ⟨x, List.mem_cons_of_mem _ hx, htakes⟩

theorem Took.path (h : A.Took f w) (hpath : Path hw P w w') : A.Took f w' :=
  hpath.invariant (I := A.Took f) h fun _ _ hu _ _ => hu.perform

/-- A write to a device that is there for it takes. -/
theorem took_store {v : Integer} (h : A.Up f (A.dev.halfway place f w.hw)) :
    A.Took f (w.perform hw (.store f v)) :=
  ⟨_, List.mem_cons_self, ⟨v, rfl⟩, h⟩

/-- A write that takes is the new one or an older one. -/
theorem took_perform {e : Event S} :
    A.Took f (w.perform hw e) ↔ A.Takes f w.hw e ∨ A.Took f w := by
  simp only [Took, World.perform_log, List.mem_cons, exists_eq_or_imp]

theorem torn_perform {e : Event S} :
    A.Torn f (w.perform hw e) ↔ A.Tears f w.hw e ∨ A.Torn f w := by
  simp only [Torn, World.perform_log, List.mem_cons, exists_eq_or_imp]

/-! ### What a field unit holds -/

/-- The field unit `f`, to which only `v` is written, holds `v` once a write took.  Until then it
holds all ones if it was torn, and otherwise what it held at first. -/
structure Programmed (A : Arrivals hw place home kept) (f : S.Field) (v first : BitVec (S.width f))
    (w : World S σ) : Prop where
  up : A.Took f w ∨ A.Torn f w → A.Up f w.hw
  took : A.Took f w → A.content w.hw f = v
  torn : ¬ A.Took f w → A.Torn f w → A.content w.hw f = BitVec.allOnes _
  missed : ¬ A.Took f w → ¬ A.Torn f w → A.content w.hw f = first

variable {v first : BitVec (S.width f)}

theorem programmed_world {s : State S σ} : A.Programmed f v (A.content s.hw f) s.world where
  up h := by
    rcases h with ⟨x, hx, -⟩ | ⟨x, hx, -⟩
    · exact absurd hx List.not_mem_nil
    · exact absurd hx List.not_mem_nil
  took := fun ⟨_, hx, _⟩ => absurd hx List.not_mem_nil
  torn := fun _ ⟨_, hx, _⟩ => absurd hx List.not_mem_nil
  missed _ _ := rfl

/-- **One step**: a write takes, the field unit is torn, or it is left alone. -/
theorem Programmed.step {e : Event S} (hlayout : Layout place) (hkept : kept f)
    (hf : place f = some (r, lsb)) (h : A.Programmed f v first w)
    (he : ∀ u, e = .store f u → u.setWidth (S.width f) = v) :
    A.Programmed f v first (w.perform hw e) := by
  by_cases htakes : A.Takes f w.hw e
  · obtain ⟨⟨u, rfl⟩, hup⟩ := id htakes
    have htook : A.Took f (w.perform hw (.store f u)) := took_store hup
    refine ⟨fun _ => hup.store, fun _ => ?_, fun hm => absurd htook hm, fun hm => absurd htook hm⟩
    rw [← he u rfl]
    exact content_takes (s := w.toState) hlayout hkept hf htakes
  by_cases htears : A.Tears f w.hw e
  · have hones := content_tears (s := w.toState) hlayout hkept hf htears
    have htorn : A.Torn f (w.perform hw e) := torn_perform.mpr (.inl htears)
    -- the device was absent just before, so no write of `f` has taken yet
    have hmissed : ¬ A.Took f (w.perform hw e) := by
      rw [took_perform]
      rintro (hnew | hold)
      · exact htakes hnew
      · obtain ⟨g, u, -, -, hplace, habsent, -⟩ := htears
        exact habsent ((up_congr hplace).mpr (h.up (.inl hold)))
    have hup : A.Up f (w.perform hw e).hw := by
      obtain ⟨g, u, rfl, -, hplace, -, hhere⟩ := htears
      exact ((up_congr hplace).mp hhere).store
    exact ⟨fun _ => hup, fun hm => absurd hm hmissed, fun _ _ => hones,
      fun _ hm => absurd htorn hm⟩
  · have hsame := content_keeps (s := w.toState) hlayout hkept hf htakes htears
    have htook : A.Took f (w.perform hw e) ↔ A.Took f w := took_perform.trans (or_iff_right htakes)
    have htorn : A.Torn f (w.perform hw e) ↔ A.Torn f w := torn_perform.trans (or_iff_right htears)
    constructor
    · rw [htook, htorn]
      exact fun hm => (h.up hm).after
    · rw [htook]
      exact fun hm => hsame.trans (h.took hm)
    · rw [htook, htorn]
      exact fun hm ht => hsame.trans (h.torn hm ht)
    · rw [htook, htorn]
      exact fun hm ht => hsame.trans (h.missed hm ht)

/-- **What it holds in the end**: the value written, cut to its width, if a write took, and else
all ones or what its device had when it showed up. -/
theorem Programmed.holds_iff {n : Integer} (h : A.Programmed f (n.setWidth _) first w) :
    A.Holds f n w.hw ↔ (A.Took f w → S.cut f n = n) ∧
      (¬ A.Took f w → A.Torn f w → (BitVec.allOnes (S.width f)).setWidth 64 = n) ∧
      (¬ A.Took f w → ¬ A.Torn f w → A.Up f w.hw ∧ first.setWidth 64 = n) := by
  unfold Holds
  by_cases htook : A.Took f w
  · rw [h.took htook]
    exact ⟨fun hn => ⟨fun _ => hn.2, fun hm => absurd htook hm, fun hm => absurd htook hm⟩,
      fun hn => ⟨h.up (.inl htook), hn.1 htook⟩⟩
  by_cases htorn : A.Torn f w
  · rw [h.torn htook htorn]
    exact ⟨fun hn => ⟨fun hm => absurd hm htook, fun _ _ => hn.2, fun _ hm => absurd htorn hm⟩,
      fun hn => ⟨h.up (.inr htorn), hn.2.1 htook htorn⟩⟩
  · rw [h.missed htook htorn]
    exact ⟨fun hn => ⟨fun hm => absurd hm htook, fun _ hm => absurd hm htorn, fun _ _ => hn⟩,
      fun hn => hn.2.2 htook htorn⟩

/-- A read that gives `n` shows that a write took, unless `n` is all ones or was there at first. -/
theorem Programmed.took_of_reads {n : Integer} (hlayout : Layout place) (hkept : kept f)
    (hf : place f = some (r, lsb)) (h : A.Programmed f v first w)
    (hread : hw.reads f w.toState = n) (hfirst : first.setWidth 64 ≠ n)
    (hones : (BitVec.allOnes (S.width f)).setWidth 64 ≠ n) : A.Took f w := by
  have hvalue : ((A.dev.read r w.hw).1.extractLsb' lsb (S.width f)).setWidth 64 = n := by
    rw [← hread]
    exact congrArg (fun x => x.1.setWidth 64) (A.load_eq hf w.hw).symm
  by_contra hmissed
  by_cases hup : A.here (home r) w.hw
  · rw [A.read_here f r lsb w.hw hkept hf hup] at hvalue
    by_cases htorn : A.Torn f w
    · rw [h.torn hmissed htorn] at hvalue
      exact hones hvalue
    · rw [h.missed hmissed htorn] at hvalue
      exact hfirst hvalue
  · rw [A.read_absent r w.hw hup, BitVec.extract_allOnes (hlayout.fits f r lsb hf)] at hvalue
    exact hones hvalue

end Arrivals

/-! ### Devices with a moment of arrival -/

/-- Dwords, and the time. -/
structure Arriving (R : Type) where
  dwords : R → BitVec 32
  time : ℕ

namespace Arriving

variable (place : S.Field → Option (R × ℕ)) (home : R → D) (arrival : D → ℕ)

/-- Dwords of devices that arrive at a time of their own, where every access takes one unit of time.
Once a device is there, its dwords read what was written last. -/
def device [DecidableEq R] : Device R (Arriving R) where
  read r s :=
    (if arrival (home r) ≤ s.time then s.dwords r else BitVec.allOnes 32,
      { s with time := s.time + 1 })
  write r d s :=
    { dwords := if arrival (home r) ≤ s.time then Function.update s.dwords r d else s.dwords
      time := s.time + 1 }

/-- Nothing else answers, and every wait takes one unit of time. -/
def others : Hardware S (Arriving R) where
  load _ s := (0, { s with time := s.time + 1 })
  store _ _ s := { s with time := s.time + 1 }
  sleep _ s := { s with time := s.time + 1 }
  stall _ s := { s with time := s.time + 1 }
  timer s := (BitVec.ofNat 64 s.time, { s with time := s.time + 1 })

/-- The two of them. -/
def hardware [DecidableEq R] : Hardware S (Arriving R) := others.withDwords place (device home arrival)

/-- What a field unit holds. -/
def content (s : Arriving R) (f : S.Field) : BitVec (S.width f) :=
  match place f with
  | some (r, lsb) => (s.dwords r).extractLsb' lsb (S.width f)
  | none => 0

variable {place home arrival}

theorem content_some (h : place f = some (r, lsb)) (s : Arriving R) :
    content place s f = (s.dwords r).extractLsb' lsb (S.width f) := by
  simp only [content, h]

theorem others_time (s : State S (Arriving R)) (e : Event S) :
    s.hw.time ≤ (others.after s e).hw.time := by
  cases e with
  | set _ _ | enter _ | test _ _ | pass _ _ => exact Nat.le_refl _
  | _ => exact Nat.le_succ _

theorem others_dwords (s : State S (Arriving R)) (e : Event S) :
    (others.after s e).hw.dwords = s.hw.dwords := by
  cases e <;> rfl

variable (place home arrival)

/-- It keeps every field unit. -/
def arrivals [DecidableEq R] (kept : S.Field → Prop) :
    Arrivals (hardware place home arrival) place home kept where
  others := others
  dev := device home arrival
  dwords := rfl
  here d s := arrival d ≤ s.time
  content := content place
  read_stays d _ s h := Nat.le_succ_of_le h
  write_stays d _ _ s h := Nat.le_succ_of_le h
  others_stay d s e h := Nat.le_trans h (others_time s e)
  read_here f r lsb s _ hf h := by
    rw [content_some hf]
    exact congrArg (BitVec.extractLsb' lsb (S.width f)) (if_pos h)
  read_absent r s h := if_neg h
  write_here f r lsb v s _ hf h := by
    have hdwords : ((device home arrival).write r v s).dwords = Function.update s.dwords r v :=
      if_pos h
    rw [content_some hf, hdwords, Function.update_self]
  write_absent f r v s _ h := by
    have hdwords : ((device home arrival).write r v s).dwords = s.dwords := if_neg h
    unfold content
    rw [hdwords]
  write_other f r lsb r' v s _ hf hr := by
    have hdwords : ((device home arrival).write r' v s).dwords r = s.dwords r := by
      show (if arrival (home r') ≤ s.time then Function.update s.dwords r' v else s.dwords) r = _
      split_ifs
      · exact Function.update_of_ne hr _ _
      · rfl
    rw [content_some hf, content_some hf, hdwords]
  read_keeps f r s _ := rfl
  others_keep f s e _ := by
    unfold content
    rw [others_dwords]

end Arriving

end Aml
