import XPS9350.Aml.Clock
import XPS9350.TB3.Equiv.Powered
import Mathlib.Data.List.Induction

/-!
# The link disable bit over sequences of calls

The only stores of one to `LDXX` are those of `UPSB.PCED`, and `PCED` stores zero next
(`run_linkStores`, `run_linkStores_of_relinks`).

* `link_not_stranded`: no sequence of calls leaves the link powered down.
* `pulse_iff_armed`: `PCED` disables the link exactly once for each suspension of `RP01`.
-/

namespace TB3

open Aml Aml.Prog
open UPSB (linkStores KeepsLink)

variable {σ : Type} {env : Env tb3 σ} {w w' : World tb3 σ}

/-- The calls that run `UPSB.PCED`. -/
def Call.relinks : Call → Bool
  | .PS0 .UPSB | .PS0 .NHI0 => true
  | _ => false

/-! ### The stores in a log -/

theorem linkStores_cons {x : Entry tb3 σ} {log : List (Entry tb3 σ)} {v : Integer}
    (hx : x.event = .store .LDXX v) : linkStores (x :: log) = v :: linkStores log := by
  rw [linkStores, effects_cons, hx]
  simp [Event.isEffect]

theorem linkStores_append (log log' : List (Entry tb3 σ)) :
    linkStores (log ++ log') = linkStores log ++ linkStores log' := by
  rw [linkStores, effects_append, storesTo_append]

/-- The newest store is an entry of the log. -/
theorem exists_of_linkStores_cons {log : List (Entry tb3 σ)} {v : Integer} {vs : List Integer}
    (h : linkStores log = v :: vs) :
    ∃ a x b, log = a ++ x :: b ∧ x.event = .store .LDXX v ∧ linkStores b = vs := by
  rw [linkStores, storesTo, effects, List.filterMap_filterMap] at h
  obtain ⟨a, x, b, rfl, -, hx, hb⟩ := List.filterMap_eq_cons_iff.mp h
  refine ⟨a, x, b, rfl, ?_, ?_⟩
  · obtain ⟨s, e⟩ := x
    cases e with
    | store f u =>
      simp only [Event.isEffect, ↓reduceIte, Option.bind_some, Option.ite_none_right_eq_some,
        Option.some.injEq] at hx
      obtain ⟨rfl, rfl⟩ := hx
      rfl
    | _ => simp [Event.isEffect] at hx
  · rw [← hb, linkStores, storesTo, effects, List.filterMap_filterMap]

/-! ### One call -/

theorem linkStores_bind {α β : Type} {m : Method σ α} {k : α → Method σ β}
    (hk : ∀ a, Emits env KeepsLink (k a)) (w : World tb3 σ) :
    linkStores ((m >>= k) env w).2.log = linkStores (m env w).2.log := by
  rcases hr : m env w with ⟨_ | a, w'⟩
  · rw [bind_of_none hr]
  · rw [bind_of_some hr]
    exact (hk a w').storesTo_of_within fun _ h => h rfl

theorem keepsLink_of_background {α : Type} {m : Method σ α} (h : Emits env Background m) :
    Emits env KeepsLink m := by
  refine h.within_mono (fun _ _ _ => trivial) ?_
  rintro _ _ hf rfl
  cases hf

/-- The effect of a call that runs `PCED` on the link disable bit, whatever becomes of the call. -/
theorem run_linkStores_of_relinks (env : Env tb3 σ) {c : Call} (hc : c.relinks) (w : World tb3 σ) :
    linkStores (c.run env w).2.log =
      (if w.names (.IIP3 .RP01) ≠ 0 then [0, 1] else []) ++ linkStores w.log := by
  have hCRMW (Arg0 Arg1 Arg2 Arg3 Arg4 : Integer) :
      Emits env KeepsLink (UPSB.CRMW Arg0 Arg1 Arg2 Arg3 Arg4) :=
    keepsLink_of_background (UPSB.CRMW_background Arg0 Arg1 Arg2 Arg3 Arg4)
  cases c with
  | PS0 s =>
    cases s with
    | UPSB =>
      rw [← UPSB.PCED_linkStores]
      exact linkStores_bind (fun _ => emits_bind (hCRMW _ _ _ _ _) fun _ => emits_bind (hCRMW _ _ _ _ _) fun _ => emits_pure) w
    | NHI0 =>
      rw [← UPSB.PCED_linkStores]
      exact linkStores_bind (fun _ => keepsLink_of_background RP01.CTBT_background) w
    | _ => cases hc
  | _ => cases hc

/-- Only zeros are stored to the link disable bit. -/
abbrev Enables : World tb3 σ → Event tb3 → Prop :=
  Within (fun _ _ => True) (fun f v => f = .LDXX → v = 0)

/-- Any other call never disables the link from a powered state. -/
theorem run_enables {c : Call} (hc : c.relinks = false) (h : Powered w.names) :
    Path env.hw Enables w (c.run env w).2 := by
  have background {m : Method σ Unit} (hm : Emits env Background m) :
      Path env.hw Enables w (m env w).2 := by
    refine hm.within_mono (fun _ _ _ => trivial) ?_ w
    rintro _ _ hf rfl
    cases hf
  have zeros {m : Method σ Unit} (hm : Emits env Zeros m) : Path env.hw Enables w (m env w).2 :=
    hm.within_mono (fun _ _ _ => trivial) (fun f v hv (_ : f = .LDXX) => hv) w
  have mark (p : Port) : Path env.hw Enables w (w.perform env.hw (.set (.IIP3 p) 1)) :=
    .single trivial trivial
  cases c with
  | INI => exact background RP01._INI_background
  | PS0 s =>
    cases s with
    | RP01 => exact zeros (PCEU_zeros .RP01)
    | DSB0 => exact zeros (PCEU_zeros .DSB0)
    | DSB2 => exact zeros (PCEU_zeros .DSB2)
    | XHC2 => exact zeros XHC2._PS0_zeros
    | UPSB => cases hc
    | NHI0 => cases hc
  | PS3 s =>
    cases s with
    | RP01 =>
      change Path env.hw Enables w (RP01._PS3 env w).2
      rw [_PS3_run (h.off .RP01)]
      exact mark .RP01
    | DSB0 =>
      change Path env.hw Enables w (PCDA .DSB0 env w).2
      rw [PCDA_run (h.off .DSB0)]
      exact mark .DSB0
    | DSB2 =>
      change Path env.hw Enables w (PCDA .DSB2 env w).2
      rw [PCDA_run (h.off .DSB2)]
      exact mark .DSB2
    | UPSB => exact background UPSB._PS3_background
    | NHI0 => exact .refl
    | XHC2 => exact emits_sleep (fun _ => trivial) w

/-- From a powered state, a call that disables the link does so once and enables it next. -/
theorem run_linkStores (env : Env tb3 σ) (c : Call) (h : Powered w.names) :
    ∃ new, linkStores (c.run env w).2.log = new ++ linkStores w.log ∧ (1 ∈ new → new = [0, 1]) := by
  by_cases hc : c.relinks
  · refine ⟨_, run_linkStores_of_relinks env hc w, ?_⟩
    split_ifs
    · exact fun _ => rfl
    · exact fun h => absurd h List.not_mem_nil
  · have hp : Path env.hw Enables w (c.run env w).2 := run_enables (by simpa using hc) h
    obtain ⟨new, hlog, hnew⟩ := hp.storesTo_within Field.LDXX
    exact ⟨new, hlog, fun h1 => absurd (hnew 1 h1 rfl) (by decide)⟩

/-- In the log of one call from a powered state, newest entry first, the link is enabled after it
is disabled. -/
theorem exists_enable {c : Call} (h : Powered w.names) {newer older : List (Entry tb3 σ)}
    {x : Entry tb3 σ} (hlog : (c.run env w).2.log = newer ++ x :: older ++ w.log)
    (hx : x.event = .store .LDXX 1) : ∃ y ∈ newer, y.event = .store .LDXX 0 := by
  obtain ⟨new, hnew, hpulse⟩ := run_linkStores env c h
  have hsplit : linkStores newer ++ 1 :: linkStores older = new := by
    rw [hlog, linkStores_append, linkStores_append, linkStores_cons hx] at hnew
    exact List.append_cancel_right hnew
  -- the list is 0, 1, so the store found is its last element
  rw [hpulse (by simp [← hsplit])] at hsplit
  rcases hn : linkStores newer with _ | ⟨v, vs⟩
  · simp [hn] at hsplit
  · obtain ⟨a, y, b, rfl, hy, -⟩ := exists_of_linkStores_cons hn
    rw [hn, List.cons_append, List.cons.injEq] at hsplit
    exact ⟨y, by simp, hsplit.1 ▸ hy⟩

/-! ### Sequences of calls -/

/-- Every event of a sequence of calls is safe and happens in a powered state. -/
theorem log_safe (h : σ) (cs : List Call) : ∀ x ∈ (runCalls cs env (loaded h).world).2.log,
    Powered x.before.names ∧ Safe x.before.world x.event := by
  have hp : Path env.hw Safe _ (runCalls cs env (loaded h).world).2 :=
    runCalls_safe cs _ powered_init
  refine Path.forall_log (hp.strengthen (I := fun u => Powered u.names) powered_init
    fun _ _ hu _ he => hu.after he) ?_ (by simp)
  rintro u e _ ⟨hu, he⟩
  cases e <;> exact ⟨hu, he⟩

/-- **No sequence of calls strands the link powered down**: in every state that a run visits, the
flags are set and `POFF` of every port is zero, no run puts a port into D3hot or disables the link
of a downstream port, and a call that disables the link of the root port enables it later. -/
theorem link_not_stranded (env : Env tb3 σ) (h : σ) (cs : List Call) :
    (∀ s, (runCalls cs env (loaded h).world).2.Visits s →
      (s.names .RTBT = 1 ∧ s.names .RUSB = 1 ∧ s.names .GPCI = 1 ∧ s.names .GNHI = 1 ∧
        s.names .GXCI = 1 ∧ ∀ p, s.names (.PCIA p) = 1) ∧
      ∀ p log, (POFF p env ⟨s, log⟩).1 = some 0) ∧
    (∀ x ∈ (runCalls cs env (loaded h).world).2.log,
      (∀ p, x.event ≠ .store (.PSTA p) 3) ∧ ∀ p, x.event ≠ .store (.LDIS p) 1) ∧
    ∀ (c : Call) w, runCalls cs env (loaded h).world = (some (), w) → ∀ newer x older,
      (c.run env w).2.log = newer ++ x :: older ++ w.log → x.event = .store .LDXX 1 →
        ∃ y ∈ newer, y.event = .store .LDXX 0 := by
  have hp : Powered (runCalls cs env (loaded h).world).2.names :=
    powered_init.path (runCalls_safe cs _ powered_init)
  refine ⟨fun s hs => ?_, fun x hx => ?_, fun c w hr newer x older hlog hx => ?_⟩
  · have hs : Powered s.names := by
      rcases hs with rfl | ⟨x, hx, rfl⟩
      · exact hp
      · exact (log_safe h cs x hx).1
    refine ⟨⟨hs _ rfl, hs _ rfl, hs _ rfl, hs _ rfl, hs _ rfl, fun p => hs _ rfl⟩, fun p log => ?_⟩
    rw [POFF_run, hs.off]
  · have hsafe := (log_safe h cs x hx).2
    refine ⟨fun p hp => ?_, fun p hp => ?_⟩
    · rw [hp] at hsafe
      exact (hsafe p).1 rfl rfl
    · rw [hp] at hsafe
      exact (hsafe p).2 rfl rfl
  · rw [hr] at hp
    exact exists_enable hp hlog hx

/-! ### One pulse for each suspension -/

/-- `RP01._PS3` has run since the last call that ran `PCED`. -/
def Armed (cs : List Call) : Prop :=
  ∃ before after, cs = before ++ .PS3 .RP01 :: after ∧ ∀ c ∈ after, c.relinks = false

theorem not_armed_nil : ¬ Armed [] := by
  rintro ⟨before, after, h, -⟩
  simp at h

theorem armed_concat {cs : List Call} {c : Call} :
    Armed (cs ++ [c]) ↔ c = .PS3 .RP01 ∨ c.relinks = false ∧ Armed cs := by
  constructor
  · rintro ⟨before, after, h, ha⟩
    rcases after.eq_nil_or_concat with rfl | ⟨after, c', rfl⟩
    · exact .inl (List.singleton_inj.mp (List.append_inj' h rfl).2)
    · rw [List.concat_eq_append, ← List.cons_append, ← List.append_assoc] at h
      obtain ⟨rfl, hc⟩ := List.append_inj' h rfl
      rw [List.singleton_inj.mp hc]
      exact .inr ⟨ha c' (by simp), before, after, rfl, fun d hd => ha d (by simp [hd])⟩
  · rintro (rfl | ⟨hc, before, after, rfl, ha⟩)
    · exact ⟨cs, [], rfl, by simp⟩
    · refine ⟨before, after ++ [c], by simp, fun d hd => ?_⟩
      rcases List.mem_append.mp hd with hd | hd
      · exact ha d hd
      · rwa [List.mem_singleton.mp hd]

theorem runCalls_concat {cs : List Call} {c : Call} {a : Unit} :
    runCalls (cs ++ [c]) env w = (some a, w') ↔
      ∃ u, runCalls cs env w = (some (), u) ∧ c.run env u = (some (), w') := by
  have hcs : (runCalls (cs ++ [c]) : Method σ Unit) = runCalls cs >>= fun _ => c.run := by
    induction cs with
    | nil => exact (bind_pure_unit (x := c.run))
    | cons d cs ih =>
      rw [List.cons_append, runCalls, ih, runCalls, bind_assoc]
  rw [hcs]
  rcases hr : runCalls cs env w with ⟨_ | _, u⟩
  · rw [bind_of_none hr]
    simp
  · rw [bind_of_some hr]
    simp

/-- What one call does to the mark of the root port. -/
theorem run_IIP3 {c : Call} (hr : c.run env w = (some (), w')) :
    w'.names (.IIP3 .RP01) = if c = .PS3 .RP01 then 1 else if c.relinks then 0 else
      w.names (.IIP3 .RP01) := by
  obtain ⟨b, hb⟩ := (run_flags c).run hr
  have : (flags w'.names).IIP3 .RP01 = ((flags w.names).step b c).IIP3 .RP01 := by rw [hb]
  refine this.trans ?_
  cases c with
  | INI => rfl
  | PS0 s => cases s <;> rfl
  | PS3 s => cases s <;> rfl

theorem IIP3_iff_armed {h : σ} : ∀ {cs : List Call} {w : World tb3 σ},
    runCalls cs env (loaded h).world = (some (), w) →
      (w.names (.IIP3 .RP01) ≠ 0 ↔ Armed cs) := by
  intro cs
  induction cs using List.reverseRecOn with
  | nil =>
    intro w hr
    obtain ⟨-, rfl⟩ := Prod.mk.inj hr
    simp [not_armed_nil, loaded, Name.init]
  | append_singleton cs c ih =>
    intro w hr
    obtain ⟨u, hu, hr⟩ := runCalls_concat.mp hr
    rw [run_IIP3 hr, armed_concat, ← ih hu]
    split_ifs with h1 h2
    · simp [h1]
    · simp [h1, h2]
    · simp [h1, h2]

/-- Each store of one uses up a mark, and only `RP01._PS3` makes marks. -/
theorem count_pulses_add {h : σ} : ∀ {cs : List Call} {w : World tb3 σ},
    runCalls cs env (loaded h).world = (some (), w) →
      (linkStores w.log).count 1 + (if w.names (.IIP3 .RP01) ≠ 0 then 1 else 0) ≤
        cs.count (.PS3 .RP01) := by
  intro cs
  induction cs using List.reverseRecOn with
  | nil =>
    intro w hr
    obtain ⟨-, rfl⟩ := Prod.mk.inj hr
    simp [linkStores, loaded, Name.init]
  | append_singleton cs c ih =>
    intro w hr
    obtain ⟨u, hu, hr⟩ := runCalls_concat.mp hr
    have hpow : Powered u.names := powered_runCalls hu
    have hcount := ih hu
    have hI := run_IIP3 hr
    have h1 : ([0, 1] : List Integer).count 1 = 1 := by decide
    rw [List.count_append, hI]
    by_cases hc : c.relinks
    · have hls := run_linkStores_of_relinks env hc u
      rw [hr] at hls
      have hne : c ≠ .PS3 .RP01 := by
        rintro rfl
        cases hc
      rw [if_neg hne, if_pos hc, if_neg (not_not.mpr rfl), hls, List.count_append]
      by_cases hu0 : u.names (.IIP3 .RP01) = 0
      · rw [if_neg (not_not.mpr hu0)] at hcount ⊢
        rw [List.count_nil]
        omega
      · rw [if_pos hu0] at hcount ⊢
        omega
    · have hp : Path env.hw Enables u (c.run env u).2 := run_enables (by simpa using hc) hpow
      obtain ⟨new, hls, hnew⟩ := hp.storesTo_within Field.LDXX
      rw [hr] at hls
      have hls : linkStores w.log = new ++ linkStores u.log := hls
      have h0 : new.count 1 = 0 := List.count_eq_zero.mpr fun h1 => absurd (hnew 1 h1 rfl) (by decide)
      rw [hls, List.count_append, h0, if_neg hc, Nat.zero_add]
      by_cases hm : c = .PS3 .RP01
      · rw [if_pos hm, hm, List.count_singleton_self, if_pos (by decide)]
        split_ifs at hcount <;> omega
      · rw [if_neg hm]
        omega

/-- The log holds a store of one to the link disable bit and after it a store of zero. -/
def Pulses (log : List (Entry tb3 σ)) : Prop :=
  ∃ a y b x c, log = a ++ y :: b ++ x :: c ∧ x.event = .store .LDXX 1 ∧ y.event = .store .LDXX 0

theorem pulses_iff {log : List (Entry tb3 σ)} {c : Prop} [Decidable c]
    (h : linkStores log = if c then [0, 1] else []) : Pulses log ↔ c := by
  constructor
  · rintro ⟨a, y, b, x, d, rfl, hx, -⟩
    rw [linkStores_append, linkStores_cons hx] at h
    by_contra hc
    simp [hc] at h
  · intro hc
    rw [if_pos hc] at h
    obtain ⟨a, y, b, rfl, hy, hb⟩ := exists_of_linkStores_cons h
    obtain ⟨b, x, d, rfl, hx, -⟩ := exists_of_linkStores_cons hb
    exact ⟨a, y, b, x, d, by simp, hx, hy⟩

/-- **The link bounce is one-shot**: after any complete calls, a call that runs `PCED` pulses the
link of the root port exactly when `RP01._PS3` has run since the last one, and otherwise leaves the
link alone; there are no more pulses than calls of `RP01._PS3`. -/
theorem pulse_iff_armed {env : Env tb3 σ} {h : σ} {cs : List Call} {w : World tb3 σ}
    (hr : runCalls cs env (loaded h).world = (some (), w)) :
    (linkStores w.log).count 1 ≤ cs.count (.PS3 .RP01) ∧
    ∀ c : Call, c.relinks → ∃ new, (c.run env w).2.log = new ++ w.log ∧
      (Pulses new ↔ Armed cs) ∧ (¬ Armed cs → ∀ x ∈ new, ∀ v, x.event ≠ .store .LDXX v) := by
  refine ⟨Nat.le_trans (Nat.le_add_right _ _) (count_pulses_add hr), fun c hc => ?_⟩
  obtain ⟨new, hlog, -⟩ := (c.run.path env w).log_append
  have hnew : linkStores new = if w.names (.IIP3 .RP01) ≠ 0 then [0, 1] else [] := by
    have := run_linkStores_of_relinks env hc w
    rw [hlog, linkStores_append] at this
    exact List.append_cancel_right this
  refine ⟨new, hlog, (pulses_iff hnew).trans (IIP3_iff_armed hr), fun ha x hx v hv => ?_⟩
  rw [if_neg (mt (IIP3_iff_armed hr).mp ha)] at hnew
  obtain ⟨a, b, rfl⟩ := List.append_of_mem hx
  rw [linkStores_append, linkStores_cons hv] at hnew
  simp at hnew

theorem pulse_iff_armed_PS3 :
    ∃ w, runCalls [.PS3 .RP01] ⟨zeros tb3, 1⟩ (loaded 0).world = (some (), w) ∧
      (linkStores w.log).count 1 ≤ 1 ∧
      ∀ c : Call, c.relinks → ∃ new, (c.run ⟨zeros tb3, 1⟩ w).2.log = new ++ w.log ∧
        (Pulses new ↔ Armed [.PS3 .RP01]) ∧
        (¬ Armed [.PS3 .RP01] → ∀ x ∈ new, ∀ v, x.event ≠ .store .LDXX v) := by
  have hr : runCalls [.PS3 .RP01] ⟨zeros tb3, 1⟩ (loaded 0).world = (some (), _) := rfl
  exact ⟨_, hr, pulse_iff_armed hr⟩

end TB3
