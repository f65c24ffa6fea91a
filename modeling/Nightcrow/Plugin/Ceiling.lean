import Nightcrow.Plugin.Guard

/-! Runs of a guard: how many actions a slot is allowed in one window, and that a refused
command leaves no trace. -/

namespace Nightcrow.Plugin

open Nightcrow.Backend Nightcrow.Library
open Nightcrow.Session.Terminal (PaneId)

namespace Budgets

variable {budgets : Budgets} {token other : PaneToken} {action act : RateAction}
  {limits : RateLimits} {now : ℕ}

def hasRoom (budgets : Budgets) (token : PaneToken) (action : RateAction) (limits : RateLimits)
    (now : ℕ) : Bool :=
  !decide (limits.max action ≤
    UInt32.ofNat (recent limits.window now (budgets.stamps token action)).length)

lemma trySpend_fst : (budgets.trySpend token action limits now).1 =
    budgets.hasRoom token action limits now := by
  unfold trySpend hasRoom stamps
  dsimp only
  split
  next h => simp [h]
  next h => simp [h]

lemma stamps_trySpend : (budgets.trySpend token action limits now).2.stamps other act =
    if other = token ∧ act = action then
      recent limits.window now (budgets.stamps token action) ++
        if budgets.hasRoom token action limits now then [now] else []
    else budgets.stamps other act := by
  unfold trySpend hasRoom stamps
  dsimp only
  by_cases ho : other = token
  · subst ho
    split <;> rename_i h <;> simp [h]
  · split <;> simp [ho]

lemma stamps_clear :
    (budgets.clear token).stamps other act = if other = token then [] else budgets.stamps other act := by
  by_cases ho : other = token
  · subst ho
    cases act <;> simp [stamps, clear, PaneBudget.stamps]
  · simp [stamps, clear, ho]

end Budgets

def PluginCommand.charge? : PluginCommand → Option (PaneToken × RateAction)
  | sendInput _ token _ _ => some (token, .sendInput)
  | relaunch _ token _ _ => some (token, .relaunch)
  | _ => none

namespace Guard

variable {cmd : PluginCommand} {facts : Option PaneFacts} {allowed : List String} {now : ℕ}

/-- A judgement either leaves the guard alone, and then approves nothing that is charged, or is
decided by the budget alone. -/
lemma judge_cases (minIdle : ℕ) (limits : RateLimits) (cmd : PluginCommand)
    (facts : Option PaneFacts) (allowed : List String) (now : ℕ) :
    (∃ verdict, (∀ approved, verdict = .ok approved → cmd.charge? = none) ∧ ∀ budgets,
      judge ⟨minIdle, limits, budgets⟩ cmd facts allowed now =
        (verdict, ⟨minIdle, limits, budgets⟩)) ∨
    ∃ token action pane approved, cmd.charge? = some (token, action) ∧ ∀ budgets,
      judge ⟨minIdle, limits, budgets⟩ cmd facts allowed now =
        charge ⟨minIdle, limits, budgets⟩ token pane action now approved := by
  cases cmd with
  | log v level message => exact .inl ⟨_, fun _ _ => rfl, fun _ => rfl⟩
  | watchPane v token => exact .inl ⟨_, fun _ _ => rfl, fun _ => rfl⟩
  | attention v token generation =>
    rcases hf : paneFacts token generation facts with refused | facts
    · exact .inl ⟨.error refused, by simp, fun _ => by simp [judge, hf]⟩
    · exact .inl ⟨.ok (.attention facts.pane), fun _ _ => rfl, fun _ => by simp [judge, hf]⟩
  | status v token generation state detail deadlineEpoch attempt =>
    rcases hf : paneFacts token generation facts with refused | facts
    · exact .inl ⟨.error refused, by simp, fun _ => by simp [judge, hf]⟩
    · exact .inl ⟨.ok (.status facts.pane state detail deadlineEpoch attempt), fun _ _ => rfl,
        fun _ => by simp [judge, hf]⟩
  | sendInput v token generation data =>
    rcases hf : paneFacts token generation facts with refused | facts
    · exact .inl ⟨.error refused, by simp, fun _ => by simp [judge, hf]⟩
    simp only [judge, hf, judgeSendInput]
    by_cases ha : facts.alive
    · by_cases hi : facts.idle < minIdle
      · exact .inl ⟨.error (.paneBusy facts.pane facts.idle minIdle), by simp,
          fun _ => by simp [ha, hi]⟩
      by_cases hs : maxInputBytes < data.utf8ByteSize
      · exact .inl ⟨.error (.inputTooLarge facts.pane data.utf8ByteSize maxInputBytes), by simp,
          fun _ => by simp [ha, hi, hs]⟩
      rcases hc : data.toList.find? isForbiddenControl with _ | bad
      · exact .inr ⟨token, .sendInput, facts.pane, .sendInput facts.pane data.toUTF8.toList, rfl,
          fun _ => by simp [ha, hi, hs]⟩
      · exact .inl ⟨.error (.controlCharacter facts.pane bad.val), by simp,
          fun _ => by simp [ha, hi, hs]⟩
    · exact .inl ⟨.error (.paneNotRunning facts.pane), by simp, fun _ => by simp [ha]⟩
  | relaunch v token generation resumeArgs =>
    rcases hf : paneFacts token generation facts with refused | facts
    · exact .inl ⟨.error refused, by simp, fun _ => by simp [judge, hf]⟩
    simp only [judge, hf, judgeRelaunch]
    by_cases ha : facts.alive
    · exact .inl ⟨.error (.paneStillRunning facts.pane), by simp, fun _ => by simp [ha]⟩
    by_cases hl : facts.launchCommand.isNone
    · exact .inl ⟨.error (.noLaunchCommand facts.pane), by simp, fun _ => by simp [ha, hl]⟩
    rcases hr : resumeCommandLine facts.launchCommand resumeArgs allowed with reason | commandLine
    · exact .inl ⟨.error (.resumeArgsRejected facts.pane reason), by simp,
        fun _ => by simp [ha, hl]⟩
    · exact .inr ⟨token, .relaunch, facts.pane, .relaunch facts.pane resumeArgs commandLine, rfl,
        fun _ => by simp [ha, hl]⟩

end Guard

inductive Event
  | command (cmd : PluginCommand) (facts : Option PaneFacts) (allowed : List String) (now : ℕ)
  | cancel (token : PaneToken) (now : ℕ)
deriving DecidableEq, Repr

namespace Event

def time : Event → ℕ
  | command _ _ _ now => now
  | cancel _ now => now

def cancels (token : PaneToken) : Event → Bool
  | command .. => false
  | cancel t _ => t = token

end Event

abbrev Verdict := Option (Except Refused Approved)

def refused : Event × Verdict → Bool
  | (_, some (.error _)) => true
  | _ => false

def charged (token : PaneToken) (action : RateAction) : Event × Verdict → Bool
  | (.command cmd .., some (.ok _)) => cmd.charge? = some (token, action)
  | _ => false

namespace Guard

def step (g : Guard) : Event → Verdict × Guard
  | .command cmd facts allowed now =>
    let (verdict, g) := g.judge cmd facts allowed now
    (some verdict, g)
  | .cancel token _ => (none, g.cancel token)

def verdicts (g : Guard) : List Event → List (Event × Verdict)
  | [] => []
  | e :: events => (e, (g.step e).1) :: (g.step e).2.verdicts events

structure Alike (now : ℕ) (g h : Guard) : Prop where
  minIdle : g.minIdle = h.minIdle
  limits : g.limits = h.limits
  stamps : ∀ token action later, now ≤ later →
    recent g.limits.window later (g.budgets.stamps token action) =
      recent g.limits.window later (h.budgets.stamps token action)

namespace Alike

variable {g h k : Guard} {now later : ℕ}

lemma refl (g : Guard) (now : ℕ) : Alike now g g := ⟨rfl, rfl, fun _ _ _ _ => rfl⟩

lemma trans (hg : Alike now g h) (hh : Alike now h k) : Alike now g k where
  minIdle := hg.minIdle.trans hh.minIdle
  limits := hg.limits.trans hh.limits
  stamps token action later hl := by
    have := hh.stamps token action later hl
    rw [← hg.limits] at this
    exact (hg.stamps token action later hl).trans this

lemma mono (hg : Alike now g h) (hl : now ≤ later) : Alike later g h :=
  ⟨hg.minIdle, hg.limits, fun token action t ht => hg.stamps token action t (hl.trans ht)⟩

lemma hasRoom_eq (hg : Alike now g h) (token : PaneToken) (action : RateAction) :
    g.budgets.hasRoom token action g.limits now = h.budgets.hasRoom token action h.limits now := by
  rw [Budgets.hasRoom, Budgets.hasRoom, ← hg.limits, hg.stamps token action now le_rfl]

lemma cancel (hg : Alike now g h) (token : PaneToken) :
    Alike now (g.cancel token) (h.cancel token) := by
  refine ⟨hg.minIdle, hg.limits, ?_⟩
  intro other action later hl
  simp only [Guard.cancel, Budgets.stamps_clear]
  by_cases ho : other = token
  · simp [ho]
  · simpa [ho] using hg.stamps other action later hl

end Alike

lemma charge_eq (g : Guard) (token : PaneToken) (pane : PaneId) (action : RateAction) (now : ℕ)
    (approved : Approved) : g.charge token pane action now approved =
      (if g.budgets.hasRoom token action g.limits now then .ok approved
        else .error (.rateLimited pane action (g.limits.max action) g.limits.window),
        { g with budgets := (g.budgets.trySpend token action g.limits now).2 }) := by
  rw [← Budgets.trySpend_fst]
  rcases ht : g.budgets.trySpend token action g.limits now with ⟨_ | _, after⟩ <;>
    simp [charge, Budgets.spend, ht, Except.map]

lemma Alike.step {g h : Guard} {e : Event} (hg : Alike e.time g h) :
    (g.step e).1 = (h.step e).1 ∧ Alike e.time (g.step e).2 (h.step e).2 := by
  cases e with
  | cancel token now => exact ⟨rfl, hg.cancel token⟩
  | command cmd facts allowed now =>
    obtain ⟨minIdle, limits, budgets⟩ := g
    obtain ⟨minIdle', limits', budgets'⟩ := h
    obtain rfl : minIdle = minIdle' := hg.minIdle
    obtain rfl : limits = limits' := hg.limits
    rcases judge_cases minIdle limits cmd facts allowed now with
      ⟨verdict, -, hj⟩ | ⟨token, action, pane, approved, -, hj⟩
    · simp only [Guard.step, hj]
      exact ⟨trivial, hg⟩
    · have hr : budgets.hasRoom token action limits now =
          budgets'.hasRoom token action limits now := hg.hasRoom_eq token action
      simp only [Guard.step, hj, charge_eq, hr]
      refine ⟨trivial, rfl, rfl, ?_⟩
      intro other act later hl
      change now ≤ later at hl
      simp only [Budgets.stamps_trySpend, hr]
      split
      · have hw : recent limits.window later (budgets.stamps token action) =
            recent limits.window later (budgets'.stamps token action) :=
          hg.stamps token action later hl
        rw [recent_append, recent_append, recent_recent hl, recent_recent hl, hw]
      · exact hg.stamps other act later hl

lemma Alike.of_refused {g : Guard} {e : Event} (hr : refused (e, (g.step e).1)) :
    Alike e.time (g.step e).2 g := by
  cases e with
  | cancel token now => simp [refused, Guard.step] at hr
  | command cmd facts allowed now =>
    obtain ⟨minIdle, limits, budgets⟩ := g
    rcases judge_cases minIdle limits cmd facts allowed now with
      ⟨verdict, -, hj⟩ | ⟨token, action, pane, approved, -, hj⟩
    · simp only [Guard.step, hj]
      exact Alike.refl _ _
    · simp only [Guard.step, hj, charge_eq] at hr ⊢
      have hf : budgets.hasRoom token action limits now = false := by
        cases h : budgets.hasRoom token action limits now with
        | false => rfl
        | true => simp [h, refused] at hr
      refine ⟨rfl, rfl, ?_⟩
      intro other act later hl
      change now ≤ later at hl
      simp only [Budgets.stamps_trySpend, hf]
      split
      next ho =>
        obtain ⟨rfl, rfl⟩ := ho
        simp [recent_recent hl]
      next => rfl

lemma Alike.verdicts {g h : Guard} {now : ℕ} {events : List Event} (hg : Alike now g h)
    (hnow : ∀ e ∈ events, now ≤ e.time) (hclock : events.Pairwise (fun e f => e.time ≤ f.time)) :
    h.verdicts (((g.verdicts events).filter (fun r => !refused r)).map (·.1)) =
      (g.verdicts events).filter (fun r => !refused r) := by
  induction events generalizing g h now with
  | nil => rfl
  | cons e events ih =>
    obtain ⟨hle, hclock⟩ := List.pairwise_cons.mp hclock
    have he := hg.mono (hnow e List.mem_cons_self)
    by_cases hr : refused (e, (g.step e).1)
    · rw [Guard.verdicts, List.filter_cons_of_neg (by simpa using hr)]
      exact ih ((Alike.of_refused hr).trans he) hle hclock
    · obtain ⟨hv, ha⟩ := he.step
      rw [Guard.verdicts, List.filter_cons_of_pos (by simpa using hr), List.map_cons,
        Guard.verdicts, ih ha hle hclock, hv]

lemma event_of_verdicts {g : Guard} {events : List Event} {r : Event × Verdict}
    (h : r ∈ g.verdicts events) : r.1 ∈ events := by
  induction events generalizing g with
  | nil => simp [Guard.verdicts] at h
  | cons e events ih =>
    rcases List.mem_cons.mp h with rfl | h
    · exact List.mem_cons_self
    · exact List.mem_cons_of_mem e (ih h)

/-- What a guard kept of one budget follows the log, newest first, of what it approved since the
slot was last forgotten. -/
structure Follows (limits : RateLimits) (action : RateAction) (now : ℕ) (stamps log : List ℕ) :
    Prop where
  paced : Paced limits.window (limits.max action).toNat log
  past : ∀ stamp ∈ log, stamp ≤ now
  recent : ∀ later, now ≤ later →
    recent limits.window later stamps = (recent limits.window later log).reverse

namespace Follows

variable {limits : RateLimits} {action : RateAction} {now later : ℕ} {stamps log : List ℕ}

lemma mono (h : Follows limits action now stamps log) (hl : now ≤ later) :
    Follows limits action later stamps log :=
  ⟨h.paced, fun stamp hs => (h.past stamp hs).trans hl, fun t ht => h.recent t (hl.trans ht)⟩

lemma prune (h : Follows limits action now stamps log) :
    Follows limits action now (Library.recent limits.window now stamps) log :=
  ⟨h.paced, h.past, fun later hl => (recent_recent hl).trans (h.recent later hl)⟩

lemma length_le (h : Follows limits action now stamps log) :
    (Library.recent limits.window now stamps).length ≤ (limits.max action).toNat := by
  have hw := h.paced.within (now + 1 - limits.window)
  have hc : log.countP (fun stamp => now - stamp < limits.window) ≤
      log.countP (fun stamp => now + 1 - limits.window ≤ stamp ∧
        stamp < now + 1 - limits.window + limits.window) := by
    apply List.countP_mono_left
    intro stamp hs hi
    have := h.past stamp hs
    simp only [decide_eq_true_eq] at hi ⊢
    omega
  rw [h.recent now le_rfl, List.length_reverse, Library.recent, ← List.countP_eq_length_filter]
  exact hc.trans hw

lemma push (h : Follows limits action now stamps log)
    (hr : ¬ limits.max action ≤ UInt32.ofNat (Library.recent limits.window now stamps).length) :
    Follows limits action now (Library.recent limits.window now stamps ++ [now]) (now :: log) := by
  refine ⟨⟨?_, h.paced⟩, ?_, ?_⟩
  · have hle := h.length_le
    have hlt : (limits.max action).toNat < UInt32.size := UInt32.toNat_lt_size _
    rw [UInt32.not_le, UInt32.lt_iff_toNat_lt, UInt32.toNat_ofNat_of_lt' (by omega)] at hr
    rwa [h.recent now le_rfl, List.length_reverse] at hr
  · intro stamp hs
    rcases List.mem_cons.mp hs with rfl | hs
    · exact le_rfl
    · exact h.past stamp hs
  · intro later hl
    rw [recent_append, recent_recent hl, h.recent later hl]
    by_cases hn : later - now < limits.window <;> simp [Library.recent, hn]

def logged (token : PaneToken) (action : RateAction) (r : Event × Verdict) (log : List ℕ) :
    List ℕ :=
  if r.1.cancels token then [] else if charged token action r then r.1.time :: log else log

lemma step {g : Guard} {e : Event} {token : PaneToken}
    (h : Follows g.limits action e.time (g.budgets.stamps token action) log) :
    (g.step e).2.limits = g.limits ∧
      Follows g.limits action e.time ((g.step e).2.budgets.stamps token action)
        (logged token action (e, (g.step e).1) log) := by
  cases e with
  | cancel other now =>
    refine ⟨rfl, ?_⟩
    simp only [Guard.step, Guard.cancel, Budgets.stamps_clear, logged, Event.cancels, charged]
    by_cases ho : token = other
    · simpa [ho] using ⟨trivial, by simp, fun _ _ => rfl⟩
    · simpa [ho, Ne.symm ho] using h
  | command cmd facts allowed now =>
    obtain ⟨minIdle, limits, budgets⟩ := g
    rcases judge_cases minIdle limits cmd facts allowed now with
      ⟨verdict, hn, hj⟩ | ⟨t, a, pane, approved, hcharge, hj⟩
    · refine ⟨by simp only [Guard.step, hj], ?_⟩
      have hc : charged token action (.command cmd facts allowed now, some verdict) = false := by
        cases verdict with
        | error refused => rfl
        | ok approved => simp [charged, hn approved rfl]
      simpa only [Guard.step, hj, logged, Event.cancels, hc, Bool.false_eq_true, if_false] using h
    · refine ⟨by simp only [Guard.step, hj, charge_eq], ?_⟩
      change Follows limits action now (budgets.stamps token action) log at h
      simp only [Guard.step, hj, charge_eq, Budgets.stamps_trySpend, logged, Event.cancels,
        Event.time, Bool.false_eq_true, if_false]
      by_cases ht : token = t ∧ action = a
      · obtain ⟨rfl, rfl⟩ := ht
        cases hr : budgets.hasRoom token action limits now with
        | true =>
          have := h.push (by simpa [Budgets.hasRoom] using hr)
          simpa [charged, hcharge] using this
        | false => simpa [charged] using h.prune
      · have hc : ∀ verdict,
            charged token action (.command cmd facts allowed now, some verdict) = false := by
          rintro (refused | approved)
          · rfl
          · simp only [charged, hcharge, Option.some.injEq, Prod.mk.injEq, decide_eq_false_iff_not]
            exact fun h => ht ⟨h.1.symm, h.2.symm⟩
        simpa only [ht, if_false, hc, Bool.false_eq_true] using h

end Follows

lemma Follows.ceiling {g : Guard} {token : PaneToken} {action : RateAction} {now start : ℕ}
    {log : List ℕ} {events : List Event}
    (h : Follows g.limits action now (g.budgets.stamps token action) log)
    (hnow : ∀ e ∈ events, now ≤ e.time) (hclock : events.Pairwise (fun e f => e.time ≤ f.time))
    (hcancel : ∀ e ∈ events, e.cancels token →
      ¬ (start ≤ e.time ∧ e.time < start + g.limits.window)) :
    (g.verdicts events).countP (fun r => charged token action r ∧
        (start ≤ r.1.time ∧ r.1.time < start + g.limits.window)) +
      log.countP (fun stamp => start ≤ stamp ∧ stamp < start + g.limits.window) ≤
        (g.limits.max action).toNat := by
  induction events generalizing g now log with
  | nil => simpa [Guard.verdicts] using h.paced.within start
  | cons e events ih =>
    obtain ⟨hle, hclock⟩ := List.pairwise_cons.mp hclock
    have he := h.mono (hnow e List.mem_cons_self)
    obtain ⟨hl, hs⟩ := he.step
    rw [← hl] at hs
    have hrest := ih hs hle hclock (by
      rw [hl]
      exact fun f hf => hcancel f (List.mem_cons_of_mem e hf))
    rw [hl] at hrest
    rw [Guard.verdicts, List.countP_cons]
    by_cases hc : e.cancels token
    · have hn : charged token action (e, (g.step e).1) = false := by
        cases e with
        | cancel other now => rfl
        | command cmd facts allowed now => cases hc
      have hout := hcancel e List.mem_cons_self hc
      simp only [Follows.logged, hc, if_true, List.countP_nil, add_zero] at hrest
      simp only [hn, Bool.false_eq_true, false_and, decide_false, if_false, add_zero]
      by_cases hb : e.time < start
      · have hz : log.countP (fun stamp => start ≤ stamp ∧ stamp < start + g.limits.window) = 0 := by
          rw [List.countP_eq_zero]
          intro stamp hm
          have := he.past stamp hm
          simp only [decide_eq_true_eq]
          omega
        omega
      · have hz : ((g.step e).2.verdicts events).countP (fun r => charged token action r ∧
            (start ≤ r.1.time ∧ r.1.time < start + g.limits.window)) = 0 := by
          rw [List.countP_eq_zero]
          intro r hm
          have := hle r.1 (event_of_verdicts hm)
          simp only [decide_eq_true_eq]
          omega
        have := he.paced.within start
        omega
    · by_cases hch : charged token action (e, (g.step e).1)
      · simp only [Follows.logged, hc, hch, Bool.false_eq_true, if_false, if_true,
          List.countP_cons] at hrest
        simp only [hch, true_and]
        omega
      · simp only [Follows.logged, hc, hch, Bool.false_eq_true, if_false] at hrest
        simp only [hch, Bool.false_eq_true, false_and, decide_false, if_false]
        omega

/-- In a run on a clock that does not go back, a slot is charged at most the ceiling in any one
window in which it was not forgotten, and deleting the refused commands changes no other
verdict. -/
theorem ceiling_holds (minIdle : ℕ) (limits : RateLimits) {events : List Event}
    (hclock : events.Pairwise (fun e f => e.time ≤ f.time)) :
    let run := Guard.verdicts { minIdle, limits } events
    (∀ token action start,
      (∀ e ∈ events, e.cancels token → ¬ (start ≤ e.time ∧ e.time < start + limits.window)) →
      run.countP (fun r => charged token action r ∧
        (start ≤ r.1.time ∧ r.1.time < start + limits.window)) ≤ (limits.max action).toNat) ∧
    Guard.verdicts { minIdle, limits } ((run.filter (fun r => !refused r)).map (·.1)) =
      run.filter (fun r => !refused r) := by
  intro run
  constructor
  · intro token action start hcancel
    have h : Follows limits action 0 (Budgets.stamps ∅ token action) [] := by
      refine ⟨trivial, by simp, fun later _ => ?_⟩
      cases action <;> rfl
    exact h.ceiling (g := { minIdle, limits }) (fun _ _ => Nat.zero_le _) hclock hcancel
  · exact (Alike.refl _ 0).verdicts (fun _ _ => Nat.zero_le _) hclock

def relaunches : List Event :=
  (List.range 4).map (fun n => Event.command (.relaunch 3 ⟨"a"⟩ (UInt32.ofNat n) ["--resume"])
    (some ⟨n, UInt32.ofNat n, true, false, false, false, 0, some "cli"⟩) ["--resume"] n) ++
  [.cancel ⟨"a"⟩ 4]

theorem ceiling_holds_relaunches :
    let run := Guard.verdicts { minIdle := 0, limits := {} } relaunches
    (∀ token action start,
      (∀ e ∈ relaunches, e.cancels token →
        ¬ (start ≤ e.time ∧ e.time < start + defaultRateWindow)) →
      run.countP (fun r => charged token action r ∧
        (start ≤ r.1.time ∧ r.1.time < start + defaultRateWindow)) ≤
          (RateLimits.max {} action).toNat) ∧
    Guard.verdicts { minIdle := 0, limits := {} } ((run.filter (fun r => !refused r)).map (·.1)) =
      run.filter (fun r => !refused r) :=
  ceiling_holds 0 {} (by decide)

end Guard

end Nightcrow.Plugin
