import XPS9350.Aml.History
import XPS9350.Aml.Runs
import XPS9350.TB3.Equiv.Footprint
import XPS9350.TB3.H530

/-!
# What the mailbox is started with

Every store of `CIOR` and `CIOW` to the command dword rewrites all of it, so a store while `PROG` is
still set from an earlier call starts a command, or changes one, with what the dword holds then.

* `started_whole_iff`: only whole commands are started exactly when no store meets `PROG` with
  another command; on a device that keeps the command as it was written, exactly when no call
  stores `DWIX` while another command is running.
-/

namespace TB3

open Aml Aml.Prog

variable {σ : Type}

/-! ### The executing call -/

/-- The command that a call starts. -/
def Invocation.command : Invocation → Option Command
  | .CIOW Arg0 Arg1 Arg2 _ => some (.ofArgs Arg0 Arg1 Arg2 1)
  | .CIOR Arg0 Arg1 Arg2 => some (.ofArgs Arg0 Arg1 Arg2 0)
  | .OSUP _ => none

/-- The command of the call that is executing after the entries `older`. -/
def current (older : List (Entry tb3 σ)) : Option Command :=
  (older.findSome? fun x =>
    match x.event with
    | .enter i => some i
    | _ => none).bind Invocation.command

/-- The fields of the command dword. -/
def Field.inCommand : Field → Bool
  | .DWIX | .PORT | .SPCE | .CMD0 | .CMD1 | .CMD2 | .PROG | .TMOT => true
  | _ => false

/-- Whatever is written to the command dword with `PROG` set carries the command of the executing
call. -/
def Whole (dev : Device Dword σ) (x : Entry tb3 σ) (older : List (Entry tb3 σ)) : Prop :=
  ∀ d, dev.written H530 .command x = some d → PROG d = 1 →
    current older = some (Command.ofDword d)

/-! ### Stores to the command dword -/

namespace Command

/-- `d` is the command `c` but for the fields `fs`. -/
def Matches (fs : List Field) (c d : Command) : Prop :=
  (.DWIX ∉ fs → d.DWIX = c.DWIX) ∧ (.PORT ∉ fs → d.PORT = c.PORT) ∧
    (.SPCE ∉ fs → d.SPCE = c.SPCE) ∧ (.CMD0 ∉ fs → d.CMD0 = c.CMD0) ∧
    (.CMD1 ∉ fs → d.CMD1 = c.CMD1) ∧ (.CMD2 ∉ fs → d.CMD2 = c.CMD2)

theorem Matches.mono {fs fs' : List Field} {c d : Command} (h : c.Matches fs d)
    (hfs : ∀ f ∈ fs, f ∈ fs') : c.Matches fs' d := by
  obtain ⟨h0, h1, h2, h3, h4, h5⟩ := h
  exact ⟨fun hf => h0 (mt (hfs _) hf), fun hf => h1 (mt (hfs _) hf), fun hf => h2 (mt (hfs _) hf),
    fun hf => h3 (mt (hfs _) hf), fun hf => h4 (mt (hfs _) hf), fun hf => h5 (mt (hfs _) hf)⟩

theorem matches_nil {c d : Command} : c.Matches [] d ↔ d = c := by
  simp [Matches, Command.ext_iff]

/-- `v` is what a call with the command `c` stores to the field. -/
def Stores (c : Command) : Field → Integer → Prop
  | .DWIX, v => v.setWidth 13 = c.DWIX
  | .PORT, v => v.setWidth 6 = c.PORT
  | .SPCE, v => v.setWidth 2 = c.SPCE
  | .CMD0, v => v.setWidth 1 = c.CMD0
  | .CMD1, v => v.setWidth 1 = c.CMD1
  | .CMD2, v => v.setWidth 1 = c.CMD2
  | .PROG, v => v.setWidth 1 = 1#1
  | .TMOT, v => v.setWidth 1 = 0#1
  | _, _ => False

/-- A store of the call makes one field match. -/
theorem matches_insertAt {fs : List Field} {c : Command} {f : Field} {lsb : ℕ} {v : Integer}
    {d : BitVec 32} (hf : H530 f = some (.command, lsb)) (hv : c.Stores f v) :
    c.Matches fs (ofDword ((v.setWidth f.width).insertAt lsb d)) ↔
      c.Matches (f :: fs) (ofDword d) := by
  cases f <;> cases hf <;> simp only [Field.width, ofDword_DWIX, ofDword_PORT, ofDword_SPCE,
    ofDword_CMD0, ofDword_CMD1, ofDword_CMD2] <;> simp_all [Matches, Stores]

/-- Only the store of `PROG` sets it. -/
theorem PROG_insertAt_of_stores {c : Command} {f : Field} {lsb : ℕ} {v : Integer} {d : BitVec 32}
    (hf : H530 f = some (.command, lsb)) (hv : c.Stores f v) :
    PROG ((v.setWidth f.width).insertAt lsb d) = if f = .PROG then 1 else PROG d := by
  by_cases h : f = .PROG
  · subst h
    cases hf
    exact (PROG_insertAt _).trans hv
  · rw [if_neg h]
    apply PROG_insertAt_of_disjoint
    cases f <;> cases hf <;> first | exact absurd rfl h | decide

end Command

/-- A store of the field `f` reads the command dword with `PROG` clear, unless it sets `PROG`, or
with the command of the executing call in the other fields. -/
def Ready (dev : Device Dword σ) (f : Field) (x : Entry tb3 σ) (older : List (Entry tb3 σ)) : Prop :=
  ∀ v, x.event = .store f v →
    f ≠ .PROG ∧ PROG (dev.read .command x.before.hw).1 = 0 ∨
    ∃ c, current older = some c ∧
      c.Matches [f] (Command.ofDword (dev.read .command x.before.hw).1)

/-- The call stores what its arguments say. -/
def Orderly (x : Entry tb3 σ) (older : List (Entry tb3 σ)) : Prop :=
  ∀ f v, f.inCommand → x.event = .store f v → ∃ c, current older = some c ∧ c.Stores f v

theorem inCommand_iff {f : Field} : f.inCommand ↔ ∃ lsb, H530 f = some (.command, lsb) := by
  cases f <;> simp [Field.inCommand, H530]

theorem bit_eq_zero_or_one (b : BitVec 1) : b = 0 ∨ b = 1 := by
  revert b
  decide

/-- Nothing is stored to the command dword. -/
def Silent (e : Event tb3) : Prop := ∀ f v, e = .store f v → ¬ f.inCommand

theorem whole_of_silent {dev : Device Dword σ} {x : Entry tb3 σ} {older : List (Entry tb3 σ)}
    (h : Silent x.event) : Whole dev x older := by
  intro d hd
  obtain ⟨s, e⟩ := x
  cases e with
  | store f v =>
    have hf : ¬ f.inCommand := h f v rfl
    cases f <;> first | exact absurd rfl hf | cases hd
  | _ => cases hd

theorem ready_of_silent {dev : Device Dword σ} {x : Entry tb3 σ} {older : List (Entry tb3 σ)}
    {f : Field} (h : Silent x.event) (hf : f.inCommand) : Ready dev f x older :=
  fun v hv => absurd hf (h f v hv)

section Store

variable {dev : Device Dword σ} {s : State tb3 σ} {f : Field} {v : Integer}
  {older : List (Entry tb3 σ)} {c : Command}

theorem whole_store_iff {lsb : ℕ} (hf : H530 f = some (.command, lsb))
    (hc : current older = some c) (hv : c.Stores f v) :
    Whole dev ⟨s, .store f v⟩ older ↔
      (f = .PROG ∨ PROG (dev.read .command s.hw).1 = 1 →
        c.Matches [f] (Command.ofDword (dev.read .command s.hw).1)) := by
  have hwritten : dev.written H530 .command ⟨s, .store f v⟩ =
      some ((v.setWidth f.width).insertAt lsb (dev.read .command s.hw).1) :=
    Device.written_store (S := tb3) hf v s
  rw [← Command.matches_insertAt hf hv, Command.matches_nil]
  simp only [Whole, hwritten, Option.some.injEq, forall_eq', hc,
    Command.PROG_insertAt_of_stores hf hv]
  by_cases hPROG : f = .PROG
  · simp [hPROG, eq_comm]
  · simp [hPROG, eq_comm]

theorem ready_store_iff (hf : f.inCommand) (hc : current older = some c) :
    (∀ g : Field, g.inCommand → Ready dev g ⟨s, .store f v⟩ older) ↔
      (f ≠ .PROG ∧ PROG (dev.read .command s.hw).1 = 0 ∨
        c.Matches [f] (Command.ofDword (dev.read .command s.hw).1)) := by
  constructor
  · intro hall
    rcases hall f hf v rfl with hclear | ⟨c', hc', hm⟩
    · exact .inl hclear
    · rw [hc] at hc'
      cases hc'
      exact .inr hm
  · rintro hor g - u hu
    cases hu
    exact hor.imp_right fun hm => ⟨c, hc, hm⟩

end Store

/-- **An entry is whole exactly when the store was ready.** -/
theorem whole_iff_ready {dev : Device Dword σ} {x : Entry tb3 σ} {older : List (Entry tb3 σ)}
    (h : Orderly x older) : Whole dev x older ↔ ∀ f : Field, f.inCommand → Ready dev f x older := by
  by_cases hx : Silent x.event
  · exact iff_of_true (whole_of_silent hx) fun f hf => ready_of_silent hx hf
  · obtain ⟨s, e⟩ := x
    simp only [Silent, not_forall, not_not] at hx
    obtain ⟨f, v, rfl, hf⟩ := hx
    obtain ⟨lsb, hlsb⟩ := inCommand_iff.mp hf
    obtain ⟨c, hc, hv⟩ := h f v hf rfl
    rw [whole_store_iff hlsb hc hv, ready_store_iff hf hc]
    rcases bit_eq_zero_or_one (PROG (dev.read .command s.hw).1) with h0 | h1
    · by_cases hPROG : f = .PROG
      · simp [hPROG]
      · simp [hPROG, h0]
    · simp [h1]

/-! ### Devices that keep the command -/

/-- `d'` holds the command that was written as `d`, and `PROG` only if it was written. -/
structure Keeps (d d' : BitVec 32) : Prop where
  command : Command.ofDword d' = Command.ofDword d
  PROG : PROG d' = 1 → PROG d = 1

/-- A read of the command dword right after a write finds the command that was written. -/
def Retains (dev : Device Dword σ) : Prop :=
  ∀ d s, Keeps d (dev.read .command (dev.write .command d s)).1

/-- The command `c` is being filled in, with the stores to `fs` still to come. -/
structure Filling (dev : Device Dword σ) (c : Command) (fs : List Field) (s : σ) : Prop where
  stored : c.Matches fs (Command.ofDword (dev.read .command s).1)
  next : PROG (dev.read .command s).1 = 0 ∨
    c.Matches (fs.take 1) (Command.ofDword (dev.read .command s).1)

section Filling

variable {dev : Device Dword σ} {c : Command} {fs : List Field} {f : Field} {v : Integer} {s : σ}

theorem matches_all {d : Command} :
    c.Matches [.DWIX, .PORT, .SPCE, .CMD0, .CMD1, .CMD2, .TMOT, .PROG] d := by
  simp [Command.Matches]

/-- One store of the call; that of `PROG` comes last. -/
theorem Filling.store (hw : Hardware tb3 σ) (hret : Retains dev) (h : Filling dev c (f :: fs) s)
    {lsb : ℕ} (hf : H530 f = some (.command, lsb)) (hlast : f = .PROG → fs = []) (hv : c.Stores f v) :
    Filling dev c fs ((hw.withDwords H530 dev).store f (v.setWidth f.width) s) := by
  have hafter : (hw.withDwords H530 dev).store f (v.setWidth f.width) s = _ :=
    withDwords_store (S := tb3) hf (v.setWidth f.width) s
  have hkeeps := hret ((v.setWidth f.width).insertAt lsb (dev.read .command s).1)
    (dev.reached .command f.width s)
  have hmatches (gs : List Field)
      (hm : c.Matches (f :: gs) (Command.ofDword (dev.read .command s).1)) :
      c.Matches gs (Command.ofDword (dev.read .command (dev.write .command
        ((v.setWidth f.width).insertAt lsb (dev.read .command s).1)
        (dev.reached .command f.width s))).1) := by
    rwa [hkeeps.command, Command.matches_insertAt hf hv]
  rw [hafter]
  refine ⟨hmatches fs h.stored, ?_⟩
  by_cases hPROG : f = .PROG
  · -- nothing is left to store
    cases hlast hPROG
    exact .inr (hmatches [] h.stored)
  · rcases h.next with hclear | hm
    · left
      refine (bit_eq_zero_or_one _).resolve_right fun hone => ?_
      have hPROG' := hkeeps.PROG hone
      rw [Command.PROG_insertAt_of_stores hf hv, if_neg hPROG, hclear] at hPROG'
      exact absurd hPROG' (by decide)
    · exact .inr ((hmatches [] hm).mono fun g hg => absurd hg List.not_mem_nil)

/-- A store of the call is ready as long as `PROG` comes last. -/
theorem Filling.ready {older : List (Entry tb3 σ)} {names : Name → Integer}
    (h : Filling dev c (f :: fs) s) (hc : current older = some c) (hlast : f = .PROG → fs = [])
    (g : Field) : Ready dev g ⟨⟨names, s⟩, .store f v⟩ older := by
  rintro u hu
  cases hu
  by_cases hPROG : f = .PROG
  · subst hPROG
    cases hlast rfl
    exact .inr ⟨c, hc, h.stored⟩
  · exact h.next.imp (fun hclear => ⟨hPROG, hclear⟩) fun hm => ⟨c, hc, hm⟩

end Filling

/-! ### The calls -/

/-- What every event of a call satisfies: its stores are its own, and on a device that keeps the
command they are ready if every store of `DWIX` so far was. -/
def Disciplined (dev : Device Dword σ) (w : World tb3 σ) (e : Event tb3) : Prop :=
  Orderly ⟨w.toState, e⟩ w.log ∧
    (Retains dev → Throughout (Ready dev .DWIX) (⟨w.toState, e⟩ :: w.log) →
      ∀ f : Field, f.inCommand → Ready dev f ⟨w.toState, e⟩ w.log)

theorem disciplined_of_silent {dev : Device Dword σ} {w : World tb3 σ} {e : Event tb3}
    (h : Silent e) : Disciplined dev w e :=
  ⟨fun f v hf he => absurd hf (h f v he), fun _ _ _ hf => ready_of_silent h hf⟩

section Path

variable {hw : Hardware tb3 σ} {dev : Device Dword σ} {fuel : ℕ} {c : Command} {w : World tb3 σ}

/-- The stores after that of `DWIX`. -/
theorem storeAll_path {xs : List (Field × Integer)}
    (hxs : ∀ x ∈ xs, x.1.inCommand ∧ c.Stores x.1 (tb3.cut x.1 x.2))
    (hlast : .PROG ∉ (xs.map Prod.fst).dropLast) (hc : current w.log = some c)
    (hfill : Retains dev → Throughout (Ready dev .DWIX) w.log →
      Filling dev c (xs.map Prod.fst) w.hw) :
    Path (hw.withDwords H530 dev) (Disciplined dev) w
      (storeAll xs ⟨hw.withDwords H530 dev, fuel⟩ w).2 := by
  induction xs generalizing w with
  | nil => exact .refl
  | cons x xs ih =>
    obtain ⟨f, v⟩ := x
    obtain ⟨hf, hv⟩ := hxs (f, v) List.mem_cons_self
    have hend : f = .PROG → xs.map Prod.fst = [] := by
      rintro rfl
      by_contra hne
      rw [List.map_cons, List.dropLast_cons_of_ne_nil hne] at hlast
      exact hlast List.mem_cons_self
    have hstep : Disciplined dev w (.store f (tb3.cut f v)) := by
      refine ⟨fun g u _ hu => ?_, fun hret hthrough g _ => ?_⟩
      · cases hu
        exact ⟨c, hc, hv⟩
      · exact (hfill hret hthrough.2).ready hc hend g
    have htail : .PROG ∉ (xs.map Prod.fst).dropLast := by
      intro hmem
      have hne : xs.map Prod.fst ≠ [] := fun h => by simp [h] at hmem
      rw [List.map_cons, List.dropLast_cons_of_ne_nil hne] at hlast
      exact hlast (List.mem_cons_of_mem _ hmem)
    obtain ⟨lsb, hlsb⟩ := inCommand_iff.mp hf
    have hfirst : Path (hw.withDwords H530 dev) (Disciplined dev) w (w.perform _ (.store f _)) :=
      .single answers_store hstep
    refine hfirst.trans (ih (fun y hy => hxs y (List.mem_cons_of_mem _ hy)) htail hc ?_)
    intro hret hthrough
    exact (hfill hret hthrough.2).store hw hret hlsb hend hv

/-- The stores of `command` after the first are those of its arguments. -/
theorem ofArgs_stores {Arg0 Arg1 Arg2 cmd0 : Integer} :
    ∀ x ∈ [((.PORT, Arg1) : Field × Integer), (.SPCE, Arg2), (.CMD0, cmd0), (.CMD1, 0), (.CMD2, 0),
      (.TMOT, 0), (.PROG, 1)],
      x.1.inCommand ∧ (Command.ofArgs Arg0 Arg1 Arg2 cmd0).Stores x.1 (tb3.cut x.1 x.2) := by
  intro x hx
  simp only [List.mem_cons, List.not_mem_nil, or_false] at hx
  rcases hx with rfl | rfl | rfl | rfl | rfl | rfl | rfl
  · exact ⟨rfl, tb3.setWidth_cut .PORT Arg1⟩
  · exact ⟨rfl, tb3.setWidth_cut .SPCE Arg2⟩
  · exact ⟨rfl, tb3.setWidth_cut .CMD0 cmd0⟩
  · exact ⟨rfl, tb3.setWidth_cut .CMD1 0⟩
  · exact ⟨rfl, tb3.setWidth_cut .CMD2 0⟩
  · exact ⟨rfl, tb3.setWidth_cut .TMOT 0⟩
  · exact ⟨rfl, tb3.setWidth_cut .PROG 1⟩

theorem storeAll_cons (env : Env tb3 σ) (f : Field) (v : Integer) (xs : List (Field × Integer)) :
    storeAll ((f, v) :: xs) env w = storeAll xs env (w.perform env.hw (.store f (tb3.cut f v))) :=
  rfl

/-- The stores of `command` in the call that they belong to. -/
theorem command_path {Arg0 Arg1 Arg2 cmd0 : Integer}
    (hc : current w.log = some (.ofArgs Arg0 Arg1 Arg2 cmd0)) :
    Path (hw.withDwords H530 dev) (Disciplined dev) w
      (UPSB.command Arg0 Arg1 Arg2 cmd0 ⟨hw.withDwords H530 dev, fuel⟩ w).2 := by
  rw [command_eq, storeAll_cons]
  -- the first store is ready by assumption, and makes the others ready
  have hDWIX : (Command.ofArgs Arg0 Arg1 Arg2 cmd0).Stores .DWIX (tb3.cut .DWIX Arg0) :=
    tb3.setWidth_cut .DWIX Arg0
  have hstep : Disciplined dev w (.store .DWIX (tb3.cut .DWIX Arg0)) := by
    refine ⟨fun g u _ hu => ?_, fun _ hthrough g _ u hu => ?_⟩
    · cases hu
      exact ⟨_, hc, hDWIX⟩
    · cases hu
      exact hthrough.1 _ rfl
  have hfirst : Path (hw.withDwords H530 dev) (Disciplined dev) w
      (w.perform _ (.store .DWIX (tb3.cut .DWIX Arg0))) := .single answers_store hstep
  refine hfirst.trans (storeAll_path ofArgs_stores (by simp) hc fun hret hthrough => ?_)
  have hstart : Filling dev (.ofArgs Arg0 Arg1 Arg2 cmd0)
      [.DWIX, .PORT, .SPCE, .CMD0, .CMD1, .CMD2, .TMOT, .PROG] w.hw := by
    refine ⟨matches_all, ?_⟩
    rcases hthrough.1 _ rfl with hclear | ⟨c, hc', hm⟩
    · exact .inl hclear.2
    · rw [hc] at hc'
      cases hc'
      exact .inr hm
  exact hstart.store hw hret rfl nofun hDWIX

end Path

/-! ### Sequences of calls -/

section Calls

variable {hw : Hardware tb3 σ} {dev : Device Dword σ} {fuel : ℕ}

/-- A call, entered and left to its stores. -/
theorem call_disciplined {α : Type} {i : Invocation} {f : Field} {v Arg0 Arg1 Arg2 cmd0 : Integer}
    {k : Method σ α} (hi : i.command = some (.ofArgs Arg0 Arg1 Arg2 cmd0))
    (hf : ¬ f.inCommand) (hk : Emits ⟨hw.withDwords H530 dev, fuel⟩ (Disciplined dev) k) :
    Emits ⟨hw.withDwords H530 dev, fuel⟩ (Disciplined dev) (call i do
      store f v
      UPSB.command Arg0 Arg1 Arg2 cmd0
      k) := by
  intro w
  have henter : Disciplined dev w (.enter i) := disciplined_of_silent nofun
  have hstore (u : World tb3 σ) : Disciplined dev u (.store f (tb3.cut f v)) :=
    disciplined_of_silent fun g x hx => by
      cases hx
      exact hf
  refine path_bind (.single answers_enter henter) (wp_act.mpr ?_)
  refine path_bind (.single answers_store (hstore _)) (wp_store.mpr ?_)
  refine path_bind (command_path hi) (wp_iff.mpr ⟨fun _ w' _ => hk w', fun _ _ => trivial⟩)

theorem disciplined_of_within {w : World tb3 σ} {e : Event tb3}
    (h : Within (fun _ _ => False) (fun _ _ => False) w e) : Disciplined dev w e := by
  refine disciplined_of_silent fun f v he => ?_
  subst he
  exact absurd h id

theorem status_disciplined (l : Loop) :
    Emits ⟨hw.withDwords H530 dev, fuel⟩ (Disciplined dev) (UPSB.status l) :=
  UPSB.status_quiet.mono fun _ _ => disciplined_of_within

theorem load_disciplined (f : Field) :
    Emits ⟨hw.withDwords H530 dev, fuel⟩ (Disciplined dev) (load f) :=
  emits_load fun _ _ => disciplined_of_silent nofun

theorem CIOW_disciplined (Arg0 Arg1 Arg2 Arg3 : Integer) :
    Emits ⟨hw.withDwords H530 dev, fuel⟩ (Disciplined dev) (UPSB.CIOW Arg0 Arg1 Arg2 Arg3) := by
  unfold UPSB.CIOW
  exact call_disciplined rfl (by decide) (status_disciplined .CIOW)

theorem CIOR_disciplined (Arg0 Arg1 Arg2 : Integer) :
    Emits ⟨hw.withDwords H530 dev, fuel⟩ (Disciplined dev) (UPSB.CIOR Arg0 Arg1 Arg2) := by
  have hload : Emits ⟨hw.withDwords H530 dev, fuel⟩ (Disciplined dev) (load .RDAT) :=
    load_disciplined .RDAT
  unfold UPSB.CIOR
  refine call_disciplined rfl (by decide) (emits_bind (status_disciplined .CIOR) fun _ => ?_)
  exact emits_ite (emits_bind hload fun _ => emits_pure) (emits_bind hload fun _ => emits_pure)

theorem CRMW_disciplined (Arg0 Arg1 Arg2 Arg3 Arg4 : Integer) :
    Emits ⟨hw.withDwords H530 dev, fuel⟩ (Disciplined dev)
      (UPSB.CRMW Arg0 Arg1 Arg2 Arg3 Arg4) := by
  have attempt : Emits ⟨hw.withDwords H530 dev, fuel⟩ (Disciplined dev)
      (UPSB.CRMW.attempt Arg0 Arg1 Arg2 Arg3 Arg4) := by
    refine emits_bind (CIOR_disciplined _ _ _) fun _ => emits_ite ?_ emits_pure
    refine emits_bind (CIOW_disciplined _ _ _ _) fun _ => emits_ite ?_ emits_pure
    exact emits_bind (CIOR_disciplined _ _ _) fun _ => emits_ite emits_pure emits_pure
  refine emits_bind (load_disciplined _) fun _ => emits_ite ?_ emits_pure
  refine emits_whileLoop (fun _ _ => disciplined_of_silent nofun)
    (fun _ _ => disciplined_of_silent nofun) (fun _ => emits_pure) fun _ => ?_
  refine emits_bind attempt fun _ => emits_ite emits_pure ?_
  exact emits_bind (emits_sleep fun _ => disciplined_of_silent nofun) fun _ => emits_pure

end Calls

/-- The calls of the mailbox methods. -/
inductive MailboxCall where
  | CIOW (Arg0 Arg1 Arg2 Arg3 : Integer)
  | CIOR (Arg0 Arg1 Arg2 : Integer)
  | CRMW (Arg0 Arg1 Arg2 Arg3 Arg4 : Integer)

/-- Run them one after the other; their results are not looked at. -/
def runMailbox : List MailboxCall → Method σ Unit
  | [] => pure ()
  | .CIOW Arg0 Arg1 Arg2 Arg3 :: cs => do
    let _ ← UPSB.CIOW Arg0 Arg1 Arg2 Arg3
    runMailbox cs
  | .CIOR Arg0 Arg1 Arg2 :: cs => do
    let _ ← UPSB.CIOR Arg0 Arg1 Arg2
    runMailbox cs
  | .CRMW Arg0 Arg1 Arg2 Arg3 Arg4 :: cs => do
    let _ ← UPSB.CRMW Arg0 Arg1 Arg2 Arg3 Arg4
    runMailbox cs

theorem runMailbox_disciplined {hw : Hardware tb3 σ} {dev : Device Dword σ} {fuel : ℕ}
    (cs : List MailboxCall) :
    Emits ⟨hw.withDwords H530 dev, fuel⟩ (Disciplined dev) (runMailbox cs) := by
  induction cs with
  | nil => exact emits_pure
  | cons c cs ih =>
    cases c with
    | CIOW Arg0 Arg1 Arg2 Arg3 => exact emits_bind (CIOW_disciplined _ _ _ _) fun _ => ih
    | CIOR Arg0 Arg1 Arg2 => exact emits_bind (CIOR_disciplined _ _ _) fun _ => ih
    | CRMW Arg0 Arg1 Arg2 Arg3 Arg4 => exact emits_bind (CRMW_disciplined _ _ _ _ _) fun _ => ih

/-- **Only whole commands are started exactly when every store was ready**, on any device; on a
device that keeps the command as it was written, exactly when every store of `DWIX` was, that is
when no call begins while another command is running. -/
theorem started_whole_iff (hw : Hardware tb3 σ) (dev : Device Dword σ) (fuel : ℕ)
    (cs : List MailboxCall) (s : State tb3 σ) :
    (Throughout (Whole dev) (runMailbox cs ⟨hw.withDwords H530 dev, fuel⟩ s.world).2.log ↔
      Throughout (fun x older => ∀ f : Field, f.inCommand → Ready dev f x older)
        (runMailbox cs ⟨hw.withDwords H530 dev, fuel⟩ s.world).2.log) ∧
    (Retains dev →
      (Throughout (Whole dev) (runMailbox cs ⟨hw.withDwords H530 dev, fuel⟩ s.world).2.log ↔
        Throughout (Ready dev .DWIX)
          (runMailbox cs ⟨hw.withDwords H530 dev, fuel⟩ s.world).2.log)) := by
  have hpath : Path _ (Disciplined dev) s.world
      (runMailbox cs ⟨hw.withDwords H530 dev, fuel⟩ s.world).2 := runMailbox_disciplined cs s.world
  have horderly : Throughout Orderly (runMailbox cs ⟨hw.withDwords H530 dev, fuel⟩ s.world).2.log :=
    hpath.throughout (fun _ _ hd => hd.1) trivial
  have hiff (x : Entry tb3 σ) (older : List (Entry tb3 σ)) (hx : Orderly x older) :
      Whole dev x older ↔ ∀ f : Field, f.inCommand → Ready dev f x older := whole_iff_ready hx
  have hready := throughout_congr horderly hiff
  refine ⟨hready, fun hret => hready.trans ⟨fun h => ?_, ?_⟩⟩
  · exact h.imp fun x older hx => hx .DWIX rfl
  · exact hpath.throughout_imp (fun _ _ hd hQ => hd.2 hret hQ) fun _ => trivial

/-! ### A device that does not answer -/

section Stuck

/-- A mailbox that only remembers what is written, so `PROG` stays set. -/
def memory : Device Dword (Dword → BitVec 32) where
  read r s := (s r, s)
  write r d s := Function.update s r d

/-- Hardware that answers nothing else. -/
def silence : Hardware tb3 (Dword → BitVec 32) where
  load _ s := (0, s)
  store _ _ s := s
  sleep _ s := s
  stall _ s := s
  timer s := (0, s)

/-- The two of them. -/
abbrev stuck : Hardware tb3 (Dword → BitVec 32) := silence.withDwords H530 memory

/-- The mailbox after some stores. -/
def stored (s : Dword → BitVec 32) (xs : List (Field × Integer)) : Dword → BitVec 32 :=
  xs.foldl (fun s x => stuck.store x.1 (x.2.setWidth x.1.width) s) s

variable {s : Dword → BitVec 32} {fuel : ℕ}

/-- The wait for such a device gives up. -/
theorem poll_stuck (l : Loop) (hfuel : 10000 < fuel) (hs : PROG (s .command) = 1) :
    Runs ⟨stuck, fuel⟩ (fun x => x.hw) (UPSB.poll l) s 1 s := by
  let b (i : ℕ) : Integer := BitVec.ofNat 64 (10000 - i)
  have hb (i : ℕ) : (b i).toNat = 10000 - i := by
    rw [BitVec.toNat_ofNat, Nat.mod_eq_of_lt (by omega)]
  have hcond (i : ℕ) (hi : i < 10000) :
      Runs ⟨stuck, fuel⟩ (fun x => x.hw) (pure (decide (0 < b i))) s true s := by
    have hpos : 0 < b i := by
      show 0 < (b i).toNat
      rw [hb]
      omega
    rw [decide_eq_true hpos]
    exact runs_pure
  have hload : Runs ⟨stuck, fuel⟩ (fun x => x.hw) (load .PROG) s 1 s := by
    refine runs_load (fun x hx => ?_) fun x hx => hx
    subst hx
    exact congrArg (BitVec.setWidth 64) hs
  refine runs_whileLoop_done (k := 10000) hfuel b (fun _ => s) hcond (fun i hi => ?_) runs_pure
  have hdec : b i - 1 = b (i + 1) := by
    have hsub (v : Integer) (hv : 1 ≤ v.toNat) : (v - 1).toNat = v.toNat - 1 := by bv_omega
    apply BitVec.eq_of_toNat_eq
    rw [hsub _ (by rw [hb]; omega), hb, hb]
    omega
  refine runs_bind hload ?_
  rw [if_neg (by decide), ← hdec]
  exact runs_bind (runs_act fun _ hx => hx) runs_pure

theorem status_stuck (l : Loop) (hfuel : 10000 < fuel) (hs : PROG (s .command) = 1) :
    Runs ⟨stuck, fuel⟩ (fun x => x.hw) (UPSB.status l) s 1 s := by
  refine runs_bind (poll_stuck l hfuel hs) ?_
  rw [if_neg (by decide)]
  exact runs_pure

theorem storeAll_stuck (xs : List (Field × Integer)) :
    Runs ⟨stuck, fuel⟩ (fun x => x.hw) (storeAll xs) s () (stored s xs) := by
  induction xs generalizing s with
  | nil => exact runs_pure
  | cons x xs ih =>
    have hstore : Runs ⟨stuck, fuel⟩ (fun x => x.hw) (store x.1 x.2) s ()
        (stuck.store x.1 (x.2.setWidth x.1.width) s) :=
      runs_store fun y hy => by subst hy; rfl
    exact runs_bind hstore ih

/-- The mailbox after the stores of a write of `0x0200`. -/
def givenUp : Dword → BitVec 32 :=
  stored (stored (fun _ => 0) [(.WDAT, 0x0200)]) [(.DWIX, 0x013E), (.PORT, 0), (.SPCE, 2),
    (.CMD0, 1), (.CMD1, 0), (.CMD2, 0), (.TMOT, 0), (.PROG, 1)]

theorem CIOW_stuck (hfuel : 10000 < fuel) :
    Runs ⟨stuck, fuel⟩ (fun x => x.hw) (UPSB.CIOW 0x013E 0 2 0x0200) (fun _ => 0) 1 givenUp := by
  have hPROG : PROG (givenUp .command) = 1 := by decide
  have hWDAT : Runs ⟨stuck, fuel⟩ _ _ _ _ _ := storeAll_stuck (s := fun _ => 0) [(.WDAT, 0x0200)]
  simp only [storeAll, bind_pure_unit] at hWDAT
  unfold UPSB.CIOW
  rw [command_eq]
  exact runs_call (runs_bind hWDAT (runs_bind (storeAll_stuck _) (status_stuck .CIOW hfuel hPROG)))

end Stuck

section History

variable {α : Type} {i : Invocation} {f : Field} {v Arg0 Arg1 Arg2 cmd0 : Integer} {k : Method σ α}
  {P : Entry tb3 σ → List (Entry tb3 σ) → Prop} {env : Env tb3 σ} {w : World tb3 σ}

/-- The store of `DWIX` in the history of a call. -/
theorem throughout_call (h : Throughout P ((call i do
      store f v
      UPSB.command Arg0 Arg1 Arg2 cmd0
      k) env w).2.log) :
    Throughout P (((w.perform env.hw (.enter i)).perform env.hw (.store f (tb3.cut f v))).perform
      env.hw (.store .DWIX (tb3.cut .DWIX Arg0))).log := by
  have hrun : (call i do
      store f v
      UPSB.command Arg0 Arg1 Arg2 cmd0
      k) env w = (UPSB.command Arg0 Arg1 Arg2 cmd0 >>= fun _ => k) env
        ((w.perform env.hw (.enter i)).perform env.hw (.store f (tb3.cut f v))) := rfl
  rw [hrun] at h
  have hcommand := throughout_bind _ h
  rw [command_eq, storeAll_cons] at hcommand
  exact throughout_start hcommand

end History

/-- A read after a write that was given up starts a write. -/
theorem not_whole_stuck :
    ¬ Throughout (Whole memory) (runMailbox [.CIOW 0x013E 0 2 0x0200, .CIOR 0x013E 0 2]
      ⟨stuck, 10001⟩ (State.world ⟨Name.init, fun _ => 0⟩)).2.log := by
  have hfuel : 10000 < 10001 := by decide
  revert hfuel
  generalize 10001 = fuel
  intro hfuel h
  obtain ⟨w, hr, hw⟩ := CIOW_stuck hfuel (State.world ⟨Name.init, fun _ => 0⟩) rfl
  rw [runMailbox, bind_of_some hr, runMailbox] at h
  have hread := throughout_bind w h
  unfold UPSB.CIOR at hread
  obtain ⟨hwhole, -⟩ := throughout_call hread
  have hold : PROG (givenUp .command) = 1 ∧ (Command.ofDword (givenUp .command)).CMD0 = 1 := by
    decide
  rw [← show w.hw = givenUp from hw] at hold
  -- the dword still holds the write when the read stores `DWIX`
  have hwritten := hwhole _ (Device.written_store (S := tb3) (f := .DWIX) rfl _ _)
    ((PROG_insertAt_of_disjoint (by decide)).trans hold.1)
  have hCMD0 := congrArg Command.CMD0
    ((Option.some.inj hwritten).trans (Command.ofDword_DWIX (BitVec.setWidth 13 _)))
  have hread0 : (0 : BitVec 1) = 1 := hCMD0.trans hold.2
  exact absurd hread0 (by decide)

end TB3
