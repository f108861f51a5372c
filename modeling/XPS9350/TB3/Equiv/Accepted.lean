import Mathlib.Data.List.Nodup
import XPS9350.Aml.Arrivals
import XPS9350.TB3.Equiv.Footprint
import XPS9350.TB3.Equiv.Stages
import XPS9350.TB3.Windows

/-!
# What a successful `CNHI` has programmed

Each of the six functions that `CNHI` programs is absent for a time of its own.
`accepted_iff`: after a successful call a register holds its saved value exactly when a write of it
reached its function and the value fits, or the function showed up with that value, or it showed up
in the middle of a store to a neighbour and the value is all ones.  The read-back of a stage shows
the first for the registers of its function from the one it reads on; nothing is known of `DSB1`
and `DSB2`, nor of `UP18` and `DP18`, which are written first.
-/

namespace TB3

open Aml Aml.Prog

/-! ### The dwords -/

/-- The configuration registers. -/
def configuration : List Field :=
  [.RPR4, .R_20, .R_24, .R_28, .R_2C, .RPLT,
    .UPVD, .UP04, .UP18, .UP19, .UP1A, .UP1C, .UP20, .UP24, .UP28, .UP2C, .UPLT, .T2PR, .P2TR,
    .DP04, .DP18, .DP19, .DP1A, .DP1C, .DP20, .DP24, .DP28, .DP2C, .DPLT,
    .D304, .D318, .D319, .D31A, .D31C, .D320, .D324, .D328, .D32C,
    .D404, .D418, .D419, .D41A, .D41C, .D420, .D424, .D428, .D42C, .DVES,
    .NH04, .NH10, .NH14]

theorem mem_configuration {f : Field} {x : (Device × ℕ) × ℕ} (h : f.dword = some x) :
    f ∈ configuration := by
  cases f <;> first | decide | exact absurd h nofun

/-- No two of them overlap. -/
theorem dword_layout : Layout (S := tb3) Field.dword where
  fits f r lsb h := by
    have hall : ∀ f ∈ configuration, ∀ x ∈ f.dword, x.2 + f.width ≤ 32 := by decide
    exact hall f (mem_configuration h) (r, lsb) h
  apart f g r lsb lsb' hne hf hg := by
    have hall : ∀ f ∈ configuration, ∀ g ∈ configuration, f ≠ g → ∀ x ∈ f.dword, ∀ y ∈ g.dword,
        x.1 = y.1 → x.2 + f.width ≤ y.2 ∨ y.2 + g.width ≤ x.2 := by decide +kernel
    exact hall f (mem_configuration hf) g (mem_configuration hg) hne _ hf _ hg rfl

namespace RP01

variable {σ : Type} {hw : Hardware tb3 σ} {env : Env tb3 σ} {fields : List Field}
  {w w' : World tb3 σ}

/-- The six functions, each absent for a time of its own; they keep the registers that `CNHI`
programs. -/
abbrev Functions (hw : Hardware tb3 σ) : Type :=
  Arrivals hw Field.dword Prod.fst fun f => f ∈ programmed.map Prod.fst

theorem programmed_dword {x : Field × Name} (hx : x ∈ programmed) :
    ∃ r lsb, x.1.dword = some (r, lsb) := by
  have hall : ∀ x ∈ programmed, x.1.dword.isSome := by decide
  obtain ⟨⟨r, lsb⟩, h⟩ := Option.isSome_iff_exists.mp (hall x hx)
  exact ⟨r, lsb, h⟩

theorem up_iff_device {A : Functions hw} {f : Field} {d : Device} {s : σ}
    (hd : f.device = some d) : A.Up f s ↔ A.here d s := by
  unfold Field.device at hd
  obtain ⟨⟨r, lsb⟩, hf, rfl⟩ := Option.map_eq_some_iff.mp hd
  exact Arrivals.up_iff hf

/-! ### The writes -/

theorem programmed_nodup : (programmed.map Prod.fst).Nodup := by decide

/-- Writes of some fields only, those of a programmed register with the value of its name. -/
def Writes (fields : List Field) (w : World tb3 σ) : Event tb3 → Prop
  | .set _ _ => False
  | .store f v => f ∈ fields ∧ ∀ x ∈ programmed, x.1 = f → v = tb3.cut x.1 (w.names x.2)
  | _ => True

theorem program_writes {regs : List (Field × Name)}
    (h : ∀ x ∈ regs, x.1 ∈ fields ∧ x ∈ programmed) :
    Emits env (Writes fields) (program regs) := by
  refine program_emits_cut fun x hx w => ⟨(h x hx).1, fun y hy hxy => ?_⟩
  rw [List.inj_on_of_nodup_map programmed_nodup hy (h x hx).2 hxy]

theorem command_writes {f : Field} {v : Integer} (hf : f ∈ fields)
    (hne : ∀ x ∈ programmed, x.1 ≠ f) : Emits env (Writes fields) (store f v) :=
  emits_store fun _ => ⟨hf, fun x hx hxf => absurd hxf (hne x hx)⟩

theorem stage_writes_fields {l : Loop} {tries : Integer} {block : Method σ Unit} {f : Field}
    {n : Name} (hblock : Emits env (Writes fields) block) :
    Emits env (Writes fields) (stage l tries block f n) :=
  stage_emits (fun _ _ => trivial) (fun _ _ => trivial) (fun _ _ => trivial) (fun _ => trivial)
    hblock

theorem rp_writes : Emits env (Writes Stage.rp.fields) CNHI.rp := stage_writes_fields
  (emits_seq (program_writes (by decide)) (command_writes (by decide) (by decide)))

theorem upsb_writes : Emits env (Writes Stage.upsb.fields) CNHI.upsb := stage_writes_fields
  (emits_seq (program_writes (by decide)) (command_writes (by decide) (by decide)))

theorem dsb_writes : Emits env (Writes Stage.dsb.fields) CNHI.dsb := by
  refine stage_writes_fields ?_
  refine emits_seq (program_writes (by decide)) (emits_seq (command_writes ?_ ?_) ?_)
  · decide
  · decide
  refine emits_seq (program_writes (by decide)) (emits_seq (command_writes ?_ ?_) ?_)
  · decide
  · decide
  exact emits_seq (program_writes (by decide)) (command_writes (by decide) (by decide))

theorem nhi_writes : Emits env (Writes Stage.nhi.fields) CNHI.nhi := stage_writes_fields
  (emits_seq (program_writes (by decide)) (command_writes (by decide) (by decide)))

theorem ULTC_writes : Emits env (Writes fields) ULTC := by
  refine emits_bind (emits_load fun _ _ => trivial) fun _ => emits_ite ?_ emits_pure
  exact emits_bind (emits_load fun _ _ => trivial) fun _ => emits_ite emits_pure emits_pure

theorem DLTC_writes : Emits env (Writes fields) DLTC := by
  refine emits_bind (emits_load fun _ _ => trivial) fun _ => emits_ite ?_ emits_pure
  refine emits_bind (emits_load fun _ _ => trivial) fun _ => emits_ite ?_ emits_pure
  exact emits_bind (emits_load fun _ _ => trivial) fun _ => emits_ite emits_pure emits_pure

theorem waitLink_writes {l : Loop} {check : Method σ Integer}
    (hcheck : Emits env (Writes fields) check) : Emits env (Writes fields) (waitLink l check) :=
  waitLink_emits (fun _ _ => trivial) (fun _ _ => trivial) (fun _ => trivial)
    (fun _ _ => trivial) (fun _ _ => trivial) hcheck

/-! ### The registers -/

variable {A : Functions hw} {s : State tb3 σ}

/-- Every programmed register holds its saved value if a write of it took, and what it held at
first otherwise. -/
structure Accepting (A : Functions hw) (s : State tb3 σ) (w : World tb3 σ) : Prop where
  names : w.names = s.names
  registers : ∀ x ∈ programmed,
    A.Programmed x.1 ((s.names x.2).setWidth x.1.width) (A.content s.hw x.1) w

theorem accepting_world : Accepting A s s.world where
  names := rfl
  registers _ _ := Arrivals.programmed_world

theorem Accepting.step {e : Event tb3} (h : Accepting A s w) (he : Writes fields w e) :
    Accepting A s (w.perform hw e) where
  names := by
    cases e with
    | set n v => exact he.elim
    | _ => exact h.names
  registers x hx := by
    obtain ⟨r, lsb, hplace⟩ := programmed_dword hx
    refine (h.registers x hx).step dword_layout (List.mem_map_of_mem hx) hplace ?_
    rintro u rfl
    rw [he.2 x hx rfl, Signature.setWidth_cut, h.names]

theorem Accepting.path (h : Accepting A s w) (hpath : Path hw (Writes fields) w w') :
    Accepting A s w' :=
  hpath.invariant h fun _ _ hu _ he => hu.step he

/-- A field that is not written takes nothing. -/
theorem took_path {f : Field} (hf : f ∉ fields) (hpath : Path hw (Writes fields) w w')
    (h : A.Took f w') : A.Took f w := by
  refine hpath.invariant (I := fun u => A.Took f u → A.Took f w) id ?_ h
  intro u e hu _ he htook
  rcases Arrivals.took_perform.mp htook with ⟨⟨v, rfl⟩, -⟩ | htook
  · exact absurd he.1 hf
  · exact hu htook

/-! ### The read-backs -/

/-- The register that a stage reads back, with its name. -/
def Stage.check : Stage → Field × Name
  | .rp => (.R_20, .R020)
  | .upsb => (.UP19, .R119)
  | .dsb => (.DP19, .R219)
  | .nhi => (.NH10, .RH10)

/-- The registers that a stage writes to the function it reads back, from the one it reads on. -/
def Stage.checked : Stage → List (Field × Name)
  | .rp => rpRegs
  | .upsb => upsbRegs.tail
  | .dsb => dsb0Regs.tail
  | .nhi => nhiRegs

/-- If the register that is read back was written, so were the ones after it. -/
def Whole (A : Functions hw) (st : Stage) (w : World tb3 σ) : Prop :=
  A.Took st.check.1 w → ∀ x ∈ st.checked, A.Took x.1 w

theorem Whole.path {st : Stage} (h : Whole A st w) (hst : st.check.1 ∉ fields)
    (hpath : Path hw (Writes fields) w w') : Whole A st w' := fun htook x hx =>
  (h (took_path hst hpath htook) x hx).path hpath

/-- While a function is there, every write to it takes. -/
theorem program_took {A : Functions env.hw} {regs : List (Field × Name)} {d : Device}
    (hd : ∀ x ∈ regs, x.1.device = some d) (h : A.here d w.hw) :
    wp env (fun _ => True) (program regs) (fun _ w' => ∀ x ∈ regs, A.Took x.1 w') w := by
  induction regs generalizing w with
  | nil => exact wp_pure.mpr fun x hx => absurd hx List.not_mem_nil
  | cons x regs ih =>
    have hup : A.Up x.1 w.hw := (up_iff_device (hd x List.mem_cons_self)).mpr h
    unfold program
    rw [wp_bind, wp_get, wp_bind, wp_store]
    have hhere : A.here d (w.perform env.hw (.store x.1 (tb3.cut x.1 (w.names x.2)))).hw :=
      Arrivals.here_after (s := w.toState) h
    have hpath : Emits env (fun _ _ => True) (program regs) := (program regs).path env
    have hrest := wp_with_path (ih (fun y hy => hd y (List.mem_cons_of_mem _ hy)) hhere) hpath
    refine wp_imp hrest fun _ w' ⟨hregs, hpath⟩ y hy => ?_
    rcases List.mem_cons.mp hy with rfl | hy
    · exact (Arrivals.took_store hup.halfway).path hpath
    · exact hregs y hy

section

variable {A : Functions env.hw} {s : State tb3 σ} {st : Stage}

theorem Stage.checked_eq (st : Stage) : st.checked = st.check :: st.checked.tail := by
  cases st <;> rfl

theorem Stage.checked_device (st : Stage) :
    ∃ d, ∀ x ∈ st.checked, x.1.device = some d := by
  cases st with
  | rp => exact ⟨.RP, by decide⟩
  | upsb => exact ⟨.UPSB, by decide⟩
  | dsb => exact ⟨.DSB0, by decide⟩
  | nhi => exact ⟨.NHI0, by decide⟩

theorem Stage.checked_programmed (st : Stage) : ∀ x ∈ st.checked, x ∈ programmed := by
  cases st <;> decide

theorem Stage.check_not_mem (st : Stage) : st.check.1 ∉ st.checked.tail.map Prod.fst := by
  cases st <;> decide

/-- **One block**: the write of the register that is read back takes, and all later ones with it,
or it is dropped and nothing changes about it. -/
theorem checked_whole (h : Whole A st w) :
    wp env (fun _ => True) (program st.checked) (fun _ => Whole A st) w := by
  obtain ⟨d, hd⟩ := st.checked_device
  have hprog := st.checked_programmed
  have hemits : Emits env (Writes (st.checked.tail.map Prod.fst)) (program st.checked.tail) :=
    program_writes fun x hx => ⟨List.mem_map_of_mem hx, hprog x (List.mem_of_mem_tail hx)⟩
  have hcheck : st.check.1.device = some d := by
    apply hd
    rw [st.checked_eq]
    exact List.mem_cons_self
  let v : Integer := tb3.cut st.check.1 (w.names st.check.2)
  by_cases htakes : A.Takes st.check.1 w.hw (.store st.check.1 v)
  · -- the function is there when the write arrives, so it is there for all later stores
    rw [st.checked_eq]
    unfold program
    rw [wp_bind, wp_get, wp_bind, wp_store]
    have hhere : A.here d (w.perform env.hw (.store st.check.1 v)).hw :=
      (up_iff_device hcheck).mp (Arrivals.Up.store (s := w.toState) htakes.2)
    have hrest := program_took (fun x hx => hd x (List.mem_of_mem_tail hx)) hhere
    refine wp_imp (wp_with_path hrest hemits) fun _ w' ⟨htail, hpath⟩ _ x hx => ?_
    rw [st.checked_eq] at hx
    rcases List.mem_cons.mp hx with rfl | hx
    · exact (Arrivals.took_store htakes.2).path hpath
    · exact htail x hx
  · rw [st.checked_eq]
    unfold program
    rw [wp_bind, wp_get, wp_bind, wp_store]
    refine wp_of_emits hemits (fun _ _ => trivial) fun _ w' hpath htook => ?_
    have hold : A.Took st.check.1 w :=
      (Arrivals.took_perform.mp (took_path st.check_not_mem hpath htook)).resolve_left htakes
    intro x hx
    exact (h hold x hx).perform.path hpath

/-- What a block may rely on, and what it leaves. -/
structure Going (A : Functions env.hw) (s : State tb3 σ) (st : Stage) (w : World tb3 σ) : Prop where
  accepting : Accepting A s w
  whole : Whole A st w

theorem Going.path (h : Going A s st w) (hst : st.check.1 ∉ fields)
    (hpath : Path env.hw (Writes fields) w w') : Going A s st w' :=
  ⟨h.accepting.path hpath, h.whole.path hst hpath⟩

/-- Events other than writes change nothing. -/
theorem Going.idle {e : Event tb3} (h : Going A s st w) (ha : env.hw.Answers w.toState e)
    (he : Writes [] w e) : Going A s st (w.perform env.hw e) :=
  h.path List.not_mem_nil (.single ha he)

theorem checked_going (h : Going A s st w) :
    wp env (fun _ => True) (program st.checked) (fun _ => Going A s st) w := by
  have hemits : Emits env (Writes (st.checked.map Prod.fst)) (program st.checked) :=
    program_writes fun x hx => ⟨List.mem_map_of_mem hx, st.checked_programmed x hx⟩
  refine wp_imp (wp_with_path (checked_whole h.whole) hemits) ?_
  exact fun _ w' ⟨hwhole, hpath⟩ => ⟨h.accepting.path hpath, hwhole⟩

/-- A program that leaves the register that is read back alone. -/
theorem wp_going {α : Type} {m : Method σ α} (hm : Emits env (Writes fields) m)
    (hst : st.check.1 ∉ fields) (h : Going A s st w) :
    wp env (fun _ => True) m (fun _ => Going A s st) w :=
  wp_of_emits hm (fun _ _ => trivial) fun _ _ hpath => h.path hst hpath

theorem command_going {f : Field} {v : Integer} (hne : ∀ x ∈ programmed, x.1 ≠ f)
    (hst : st.check.1 ∉ [f]) (h : Going A s st w) :
    wp env (fun _ => True) (store f v) (fun _ => Going A s st) w :=
  wp_going (command_writes List.mem_cons_self hne) hst h

/-- A stage that succeeds has read back its register. -/
def Confirms (A : Functions env.hw) (s : State tb3 σ) (st : Stage) (w : World tb3 σ) : Prop :=
  (A.content s.hw st.check.1).setWidth 64 ≠ s.names st.check.2 →
    (BitVec.allOnes st.check.1.width).setWidth 64 ≠ s.names st.check.2 →
      ∀ x ∈ st.checked, A.Took x.1 w

theorem stage_confirms {l : Loop} {tries : Integer} {block : Method σ Unit} {f : Field} {n : Name}
    (hcheck : st.check = (f, n))
    (hblock : ∀ w, Going A s st w → wp env (fun _ => True) block (fun _ => Going A s st) w)
    (h : Going A s st w) :
    wp env (fun _ => True) (stage l tries block f n)
      (fun b w' => b = true → Confirms A s st w') w := by
  obtain ⟨rfl, rfl⟩ := Prod.ext_iff.mp hcheck
  unfold stage
  refine wp_bind.mpr (wp_imp (Q := fun _ => Going A s st) ?_ ?_)
  · refine wp_whileLoop (fun _ _ => Going A s st) h ?_ fun _ _ _ => trivial
    intro i Local0 u _ hu
    have htest := hu.idle (e := .test l i) answers_test trivial
    refine wp_pure.mpr ?_
    split_ifs
    · refine wp_bind.mpr (wp_imp (hblock _ (htest.idle answers_pass trivial)) fun _ v hv => ?_)
      rw [wp_bind, wp_get, wp_bind, wp_load]
      have hload := hv.idle (e := .load st.check.1 (env.hw.reads st.check.1 v.toState)) rfl trivial
      refine wp_ite_of (fun _ => wp_pure.mpr hload) fun _ => ?_
      rw [wp_bind, wp_sleep]
      exact wp_pure.mpr (hload.idle answers_sleep trivial)
    · exact htest
  · intro _ u hu
    rw [wp_bind, wp_get, wp_bind, wp_load, wp_pure]
    intro hb hfirst hones x hx
    have hread : env.hw.reads st.check.1 u.toState = s.names st.check.2 := by
      rw [← hu.accepting.names]
      exact (of_decide_eq_true hb).symm
    have hmem : st.check ∈ programmed := by
      apply st.checked_programmed
      rw [st.checked_eq]
      exact List.mem_cons_self
    obtain ⟨r, lsb, hplace⟩ := programmed_dword hmem
    have htook : A.Took st.check.1 u := (hu.accepting.registers _ hmem).took_of_reads
      dword_layout (List.mem_map_of_mem hmem) hplace hread hfirst hones
    exact (hu.whole htook x hx).perform

/-! ### The four blocks -/

/-- The register before the one that is read back. -/
theorem first_going {x : Field × Name} (hx : x ∈ programmed) (hst : st.check.1 ∉ [x.1])
    (h : Going A s st w) :
    wp env (fun _ => True) (program (x :: st.checked)) (fun _ => Going A s st) w := by
  have hfirst : Emits env (Writes [x.1]) (program [x]) := program_writes fun y hy => by
    obtain rfl := List.mem_singleton.mp hy
    exact ⟨List.mem_cons_self, hx⟩
  have happ : (program (x :: st.checked) : Method σ Unit) =
      program [x] >>= fun _ => program st.checked := by
    simp only [program, bind_assoc, pure_bind]
  rw [happ, wp_bind]
  exact wp_imp (wp_going hfirst hst h) fun _ _ h' => checked_going h'

theorem rp_confirms (h : Going A s .rp w) :
    wp env (fun _ => True) CNHI.rp (fun b w' => b = true → Confirms A s .rp w') w := by
  refine stage_confirms rfl (fun u hu => ?_) h
  refine wp_bind.mpr (wp_imp (checked_going hu) fun _ _ hu' => ?_)
  exact command_going (by decide) (by decide) hu'

theorem upsb_confirms (h : Going A s .upsb w) :
    wp env (fun _ => True) CNHI.upsb (fun b w' => b = true → Confirms A s .upsb w') w := by
  refine stage_confirms rfl (fun u hu => ?_) h
  have hx : (Field.UP18, Name.R118) ∈ programmed := by decide
  refine wp_bind.mpr (wp_imp (first_going hx (by decide) hu) fun _ _ hu' => ?_)
  exact command_going (by decide) (by decide) hu'

theorem dsb_confirms (h : Going A s .dsb w) :
    wp env (fun _ => True) CNHI.dsb (fun b w' => b = true → Confirms A s .dsb w') w := by
  have hdsb1 : Emits env (Writes (dsb1Regs.map Prod.fst)) (program dsb1Regs) :=
    program_writes (by decide)
  have hdsb2 : Emits env (Writes (dsb2Regs.map Prod.fst)) (program dsb2Regs) :=
    program_writes (by decide)
  refine stage_confirms rfl (fun u hu => ?_) h
  have hx : (Field.DP18, Name.R218) ∈ programmed := by decide
  refine wp_bind.mpr (wp_imp (first_going hx (by decide) hu) fun _ _ hu => ?_)
  refine wp_bind.mpr (wp_imp (command_going (by decide) (by decide) hu) fun _ _ hu => ?_)
  refine wp_bind.mpr (wp_imp (wp_going hdsb1 (by decide) hu) fun _ _ hu => ?_)
  refine wp_bind.mpr (wp_imp (command_going (by decide) (by decide) hu) fun _ _ hu => ?_)
  refine wp_bind.mpr (wp_imp (wp_going hdsb2 (by decide) hu) fun _ _ hu => ?_)
  exact command_going (by decide) (by decide) hu

theorem nhi_confirms (h : Going A s .nhi w) :
    wp env (fun _ => True) CNHI.nhi (fun b w' => b = true → Confirms A s .nhi w') w := by
  refine stage_confirms rfl (fun u hu => ?_) h
  refine wp_bind.mpr (wp_imp (checked_going hu) fun _ _ hu' => ?_)
  exact command_going (by decide) (by decide) hu'

/-! ### `CNHI` -/

/-- The stages `pre` have succeeded, and nothing is written to the registers that the others read
back. -/
structure Confirmed (A : Functions env.hw) (s : State tb3 σ) (pre : List Stage)
    (w : World tb3 σ) : Prop where
  accepting : Accepting A s w
  confirms : ∀ st ∈ pre, Confirms A s st w
  untouched : ∀ st, st ∉ pre → ¬ A.Took st.check.1 w

variable {pre : List Stage}

theorem Confirmed.path (h : Confirmed A s pre w) (hpath : Path env.hw (Writes fields) w w')
    (hfields : ∀ st : Stage, st ∉ pre → st.check.1 ∉ fields) : Confirmed A s pre w' where
  accepting := h.accepting.path hpath
  confirms st hst hfirst hones x hx := (h.confirms st hst hfirst hones x hx).path hpath
  untouched st hst htook := h.untouched st hst (took_path (hfields st hst) hpath htook)

theorem Stage.check_mem_fields (st : Stage) : st.check.1 ∈ st.fields := by
  cases st <;> decide

/-- One stage more. -/
theorem Confirmed.stage {m : Method σ Bool} (h : Confirmed A s pre w) (hst : st ∉ pre)
    (hm : Emits env (Writes st.fields) m)
    (hconfirms : Going A s st w →
      wp env (fun _ => True) m (fun b w' => b = true → Confirms A s st w') w) :
    wp env (fun _ => True) m (fun b w' => b = true → Confirmed A s (st :: pre) w') w := by
  have hgoing : Going A s st w := ⟨h.accepting, fun htook => absurd htook (h.untouched st hst)⟩
  refine wp_imp (wp_with_path (hconfirms hgoing) hm) fun b w' ⟨hb, hpath⟩ htrue => ?_
  constructor
  · exact h.accepting.path hpath
  · intro st' hst'
    rcases List.mem_cons.mp hst' with rfl | hst'
    · exact hb htrue
    · exact fun hfirst hones x hx => (h.confirms st' hst' hfirst hones x hx).path hpath
  · intro st' hst' htook
    have hfields : st'.check.1 ∉ st.fields := fun hmem =>
      hst' (Stage.eq_of_mem_fields st'.check_mem_fields hmem ▸ List.mem_cons_self)
    exact h.untouched st' (fun hpre => hst' (List.mem_cons_of_mem _ hpre))
      (took_path hfields hpath htook)

/-- A wait for the links. -/
theorem Confirmed.wait {m : Method σ Integer} (h : Confirmed A s pre w)
    (hm : Emits env (Writes []) m) :
    wp env (fun _ => True) m (fun _ => Confirmed A s pre) w :=
  wp_of_emits hm (fun _ _ => trivial) fun _ _ hpath => h.path hpath fun _ _ => List.not_mem_nil

theorem CNHI_confirmed (h : Confirmed A s [] w) :
    wp env (fun _ => True) CNHI
      (fun v w' => v = 1 → Confirmed A s [.nhi, .dsb, .upsb, .rp] w') w := by
  have hfailed {w' : World tb3 σ} : wp env (fun _ => True) (pure 0)
      (fun v w' => v = (1 : Integer) → Confirmed A s [.nhi, .dsb, .upsb, .rp] w') w' :=
    wp_pure.mpr fun h01 => absurd h01 (by decide)
  unfold CNHI
  refine wp_bind.mpr (wp_imp (h.stage (by decide) rp_writes rp_confirms) fun b w₁ h₁ => ?_)
  cases b with
  | false => exact hfailed
  | true =>
  refine wp_bind.mpr (wp_imp ((h₁ rfl).stage (by decide) upsb_writes upsb_confirms) ?_)
  intro b w₂ h₂
  cases b with
  | false => exact hfailed
  | true =>
  refine wp_bind.mpr (wp_imp ((h₂ rfl).wait (waitLink_writes ULTC_writes)) fun v w₃ h₃ => ?_)
  refine wp_ite_of (fun _ => hfailed) fun _ => ?_
  refine wp_bind.mpr (wp_imp (h₃.stage (by decide) dsb_writes dsb_confirms) fun b w₄ h₄ => ?_)
  cases b with
  | false => exact hfailed
  | true =>
  refine wp_bind.mpr (wp_imp ((h₄ rfl).wait (waitLink_writes DLTC_writes)) fun v w₅ h₅ => ?_)
  refine wp_ite_of (fun _ => hfailed) fun _ => ?_
  refine wp_bind.mpr (wp_imp (h₅.stage (by decide) nhi_writes nhi_confirms) fun b w₆ h₆ => ?_)
  cases b with
  | false => exact hfailed
  | true => exact wp_pure.mpr fun _ => h₆ rfl

end

/-- **A successful `CNHI`**: every register holds its saved value exactly when each one that a
write reached has a value that fits, each other one that was torn has all ones, and each one left
has shown up with its value.  A register that was read back, and those written after it to its
function, were reached, unless it showed up with its value or the value is all ones. -/
theorem accepted_iff (hw : Hardware tb3 σ) (A : Functions hw) (fuel : ℕ) (s : State tb3 σ)
    (w' : World tb3 σ) (h : CNHI ⟨hw, fuel⟩ s.world = (some 1, w')) :
    ((∀ x ∈ programmed, A.Holds x.1 (s.names x.2) w'.hw) ↔
      ∀ x ∈ programmed, (A.Took x.1 w' → tb3.cut x.1 (s.names x.2) = s.names x.2) ∧
        (¬ A.Took x.1 w' → A.Torn x.1 w' →
          (BitVec.allOnes x.1.width).setWidth 64 = s.names x.2) ∧
        (¬ A.Took x.1 w' → ¬ A.Torn x.1 w' →
          A.Up x.1 w'.hw ∧ (A.content s.hw x.1).setWidth 64 = s.names x.2)) ∧
    ∀ st : Stage, (A.content s.hw st.check.1).setWidth 64 ≠ s.names st.check.2 →
      (BitVec.allOnes st.check.1.width).setWidth 64 ≠ s.names st.check.2 →
        ∀ x ∈ st.checked, A.Took x.1 w' := by
  have hstart : @Confirmed σ ⟨hw, fuel⟩ A s [] s.world := by
    refine ⟨accepting_world, fun st hst => absurd hst List.not_mem_nil, fun st _ => ?_⟩
    rintro ⟨x, hx, -⟩
    exact List.not_mem_nil hx
  have hdone := wp_of_run h (CNHI_confirmed hstart) rfl
  constructor
  · exact forall₂_congr fun x hx => (hdone.accepting.registers x hx).holds_iff
  · intro st
    refine hdone.confirms st ?_
    cases st <;> decide

/-! ### `DSB1` is late -/

/-- The functions arrive at times of their own. -/
abbrev arriving (arrival : Device → ℕ) : Hardware tb3 (Arriving (Device × ℕ)) :=
  Arriving.hardware Field.dword Prod.fst arrival

def arrivals (arrival : Device → ℕ) : Functions (arriving arrival) :=
  Arriving.arrivals (S := tb3) Field.dword Prod.fst arrival _

/-- The upstream port answers, every other register is zero, and the name `n` is saved as 1. -/
def answering (n : Name) : State tb3 (Arriving (Device × ℕ)) where
  names := Function.update Name.init n 1
  hw := { dwords := fun r => if r = (.UPSB, 0) then 0x15D38086 else 0, time := 0 }

/-- All functions are there from the start: every register holds its value. -/
theorem accepted_iff_present :
    ∃ w', CNHI ⟨arriving fun _ => 0, 2001⟩ (answering .R119).world = (some 1, w') ∧
      ∀ x ∈ programmed,
        (arrivals fun _ => 0).Holds x.1 ((answering .R119).names x.2) w'.hw := by
  have hone : (CNHI ⟨arriving fun _ => 0, 2001⟩ (answering .R119).world).1 = some 1 := rfl
  rcases hrun : CNHI ⟨arriving fun _ => 0, 2001⟩ (answering .R119).world with ⟨v, w'⟩
  rw [hrun] at hone
  obtain rfl : v = some 1 := hone
  refine ⟨w', rfl, ?_⟩
  have hiff := accepted_iff _ (arrivals fun _ => 0) 2001 (answering .R119) w' hrun
  have hup {f : Field} {s : Arriving (Device × ℕ)} : (arrivals fun _ => 0).Up f s :=
    fun _ _ => Nat.zero_le _
  refine hiff.1.mpr fun x hx => ⟨fun _ => ?_, fun _ htorn => ?_, fun hmissed _ => ⟨hup, ?_⟩⟩
  · exact (by decide : ∀ x ∈ programmed, tb3.cut x.1 ((answering .R119).names x.2) =
      (answering .R119).names x.2) x hx
  · obtain ⟨_, -, _, _, -, -, -, habsent, -⟩ := htorn
    exact absurd hup habsent
  · have hne : x ≠ (.UP19, .R119) := by
      rintro rfl
      exact hmissed (hiff.2 .upsb (by decide) (by decide) _ (by decide))
    exact (by decide : ∀ x ∈ programmed, x ≠ (.UP19, .R119) →
      ((arrivals fun _ => 0).content (answering .R119).hw x.1).setWidth 64 =
        (answering .R119).names x.2) x hx hne

/-- `UPSB` shows up between the read and the write of the store to `UP19`: it gets the bus number,
and all ones next to it, where `UP18` was dropped. -/
example :
    let run := CNHI ⟨arriving fun d => if d = .UPSB then 11 else 0, 2001⟩ (answering .R119).world
    run.1 = some 1 ∧ run.2.hw.dwords (.UPSB, 6) = 0xFF0001FF := by
  decide +kernel

/-- `DSB1` shows up right after the stage of the downstream ports, the others are there from the
start. -/
def lateDSB1 (d : Device) : ℕ := if d = .DSB1 then 72 else 0

/-- That stage has not read `DSB1` back: `CNHI` returns one, and `DSB1` is there without its bus
number. -/
theorem not_accepted_lateDSB1 :
    ∃ w', CNHI ⟨arriving lateDSB1, 2001⟩ (answering .R319).world = (some 1, w') ∧
      (arrivals lateDSB1).Up .D319 w'.hw ∧
      ¬ (arrivals lateDSB1).Holds .D319 ((answering .R319).names .R319) w'.hw := by
  have hone : (CNHI ⟨arriving lateDSB1, 2001⟩ (answering .R319).world).1 = some 1 := rfl
  have htime : 72 ≤ (CNHI ⟨arriving lateDSB1, 2001⟩ (answering .R319).world).2.hw.time := by
    decide
  have hzero :
      (CNHI ⟨arriving lateDSB1, 2001⟩ (answering .R319).world).2.hw.dwords (.DSB1, 6) = 0 := by
    decide
  rcases hrun : CNHI ⟨arriving lateDSB1, 2001⟩ (answering .R319).world with ⟨v, w'⟩
  rw [hrun] at hone htime hzero
  obtain rfl : v = some 1 := hone
  refine ⟨w', rfl, (up_iff_device (d := .DSB1) rfl).mpr htime, ?_⟩
  rintro ⟨-, hvalue⟩
  have hcontent : (arrivals lateDSB1).content w'.hw .D319 = 0 :=
    congrArg (BitVec.extractLsb' 8 8) hzero
  rw [hcontent] at hvalue
  exact absurd hvalue (by decide)

end RP01

end TB3
