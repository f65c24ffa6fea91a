import Nightcrow.Recovery.Account

namespace Nightcrow.Recovery

open Nightcrow.Backend Nightcrow.Plugin Nightcrow.Library

def Mark.isPromise : Mark → Bool
  | reported limit nowEpoch => limit.resetsAt.any (fun reset => decide (nowEpoch < reset))
  | _ => false

def relaunches (marks : List Mark) : ℕ := marks.countP Mark.isRelaunch

def promises (marks : List Mark) : ℕ := marks.countP Mark.isPromise

def Mark.isReport : Mark → Bool
  | reported .. => true
  | _ => false

def lastReport (marks : List Mark) : Option Mark := (marks.filter Mark.isReport).getLast?

lemma relaunches_append (a b : List Mark) : relaunches (a ++ b) = relaunches a + relaunches b :=
  List.countP_append

lemma promises_append (a b : List Mark) : promises (a ++ b) = promises a + promises b :=
  List.countP_append

lemma relaunches_said {out : List PluginCommand} (h : ∀ c ∈ out, isRelaunch c = false) :
    relaunches (out.map .said) = 0 := by
  apply List.countP_eq_zero.mpr
  intro m hm
  obtain ⟨c, hc, rfl⟩ := List.mem_map.mp hm
  simpa [Mark.isRelaunch] using h c hc

lemma promises_said (out : List PluginCommand) : promises (out.map .said) = 0 := by
  apply List.countP_eq_zero.mpr
  intro m hm
  obtain ⟨c, -, rfl⟩ := List.mem_map.mp hm
  exact Bool.false_ne_true

lemma lastReport_append {marks notes : List Mark} (h : ∀ m ∈ notes, m.isReport = false) :
    lastReport (marks ++ notes) = lastReport marks := by
  have hnone : notes.filter Mark.isReport = [] :=
    List.filter_eq_nil_iff.mpr (fun m hm => Bool.eq_false_iff.mp (h m hm))
  rw [lastReport, List.filter_append, hnone, List.append_nil]
  rfl

namespace World

variable {w t : World} {input : Input} {inputs : List Input} {token : PaneToken}
  {generation : PaneGeneration}

def RefundsPromises (w : World) : Input → Prop
  | .event event => ∀ generation reset, eventGeneration event = some generation →
      w.recovery.generation < generation → w.recovery.state = .resuming →
      w.recovery.limit.bind LimitEvent.resetsAt = some reset →
      ∃ m, lastReport w.marks = some m ∧ m.isPromise = true
  | _ => True

def pending (w : World) : ℕ :=
  if (w.recovery.limit.bind LimitEvent.resetsAt).isSome ∧
    (lastReport w.marks).any Mark.isPromise then 1 else 0

def Paid (w : World) : Prop :=
  relaunches w.marks + maxResumeAttempts * w.pending ≤
    maxResumeAttempts * promises w.marks + w.recovery.attempt

def Observed : Input → Prop
  | .event event => PaneRecovery.isHuman event = false
  | _ => True

lemma notes_event (r : PaneRecovery) (event : PluginEvent) : ∀ m ∈ r.notes (.event event),
    m.isRelaunch = false ∧ m.isPromise = false ∧ m.isReport = false := by
  intro m hm
  rcases List.mem_cons.mp hm with rfl | hm
  · exact ⟨rfl, rfl, rfl⟩
  · split at hm
    · obtain rfl := List.mem_singleton.mp hm
      exact ⟨rfl, rfl, rfl⟩
    · cases hm

lemma notes_tick (r : PaneRecovery) (provider : Provider) (ctx : PaneContext) (nowEpoch : ℤ)
    (now : ℕ) : ∀ m ∈ r.notes (.tick provider ctx nowEpoch now),
    m.isRelaunch = false ∧ m.isPromise = false ∧ m.isReport = false := by
  intro m hm
  rw [r.notes_tick provider ctx nowEpoch now m hm]
  exact ⟨rfl, rfl, rfl⟩

lemma account_append (marks : List Mark) {notes : List Mark} (out : List PluginCommand)
    (hnotes : ∀ m ∈ notes, m.isRelaunch = false ∧ m.isPromise = false ∧ m.isReport = false) :
    relaunches (marks ++ (notes ++ out.map .said)) = relaunches marks + relaunches (out.map .said) ∧
    promises (marks ++ (notes ++ out.map .said)) = promises marks ∧
    lastReport (marks ++ (notes ++ out.map .said)) = lastReport marks := by
  have hzero : relaunches notes = 0 :=
    List.countP_eq_zero.mpr (fun m hm => Bool.eq_false_iff.mp (hnotes m hm).1)
  have hnone : promises notes = 0 :=
    List.countP_eq_zero.mpr (fun m hm => Bool.eq_false_iff.mp (hnotes m hm).2.1)
  refine ⟨?_, ?_, ?_⟩
  · rw [relaunches_append, relaunches_append, hzero, Nat.zero_add]
  · rw [promises_append, promises_append, hnone, promises_said, Nat.zero_add, Nat.add_zero]
  · apply lastReport_append
    intro m hm
    rcases List.mem_append.mp hm with hm | hm
    · exact (hnotes m hm).2.2
    · obtain ⟨c, -, rfl⟩ := List.mem_map.mp hm
      rfl

lemma pending_of_no_limit (h : w.recovery.limit = none) : w.pending = 0 := by
  rw [pending, h]
  rfl

lemma pending_congr (hlimit : t.recovery.limit = w.recovery.limit)
    (hreport : lastReport t.marks = lastReport w.marks) : t.pending = w.pending := by
  rw [pending, pending, hlimit, hreport]

lemma paid_event (hs : w.recovery.Sound) (hp : w.Paid) {event : PluginEvent}
    (ho : PaneRecovery.isHuman event = false) (hr : w.RefundsPromises (.event event))
    (h : w.step (.event event) = some t) : t.Paid := by
  obtain ⟨hrelaunches, hpromises, hreport⟩ := account_append w.marks
    (w.recovery.handle (.event event)).2 (notes_event w.recovery event)
  rw [← step_marks h] at hrelaunches hpromises hreport
  have hrecovery := step_recovery h
  rw [Paid, hpromises, hrelaunches]
  rw [Paid] at hp
  rcases PaneRecovery.onEvent_cases w.recovery event with hc | ⟨g, he, hge, hc⟩
  · have hhandle : w.recovery.handle (.event event) = (w.recovery, []) := by
      rw [PaneRecovery.handle, hc]
      rfl
    rw [hhandle] at hrecovery
    rw [hhandle, pending_congr (by rw [hrecovery]) hreport, hrecovery]
    exact hp
  · have hhandle : w.recovery.handle (.event event) =
        (((w.recovery.arrive g).1.fold event).1,
          (w.recovery.arrive g).2 ++ ((w.recovery.arrive g).1.fold event).2) := by
      rw [PaneRecovery.handle, hc]
      rfl
    rw [hhandle, PaneRecovery.fold_observed ho] at hrecovery
    rw [hhandle, PaneRecovery.fold_observed ho, List.append_nil]
    by_cases hnew : w.recovery.generation < g
    · obtain ⟨hclears, -, -, hattempt⟩ :=
        PaneRecovery.advance_clears w.recovery g
      have harrive : w.recovery.arrive g = w.recovery.advance g := if_pos hnew
      rw [harrive] at hrecovery ⊢
      rw [relaunches_said hclears.silent, pending_of_no_limit (by rw [hrecovery]; exact hclears.limit),
        hrecovery]
      dsimp only
      rw [hattempt, PaneRecovery.refunded]
      split
      · rename_i hrefund
        obtain ⟨reset, hreset⟩ := Option.isSome_iff_exists.mp hrefund.2
        obtain ⟨m, hm, hpromise⟩ := hr g reset he hnew hrefund.1 hreset
        have hpending : w.pending = 1 := if_pos ⟨hrefund.2, by rw [hm]; exact hpromise⟩
        rw [hpending] at hp
        have hbudget := hs.budget
        omega
      · omega
    · have harrive : w.recovery.arrive g = (w.recovery, []) := if_neg hnew
      rw [harrive] at hrecovery ⊢
      rw [pending_congr (by rw [hrecovery]) hreport, hrecovery]
      exact hp

lemma paid_limit (hp : w.Paid) {limit : LimitEvent} {nowEpoch : ℤ} {now : ℕ}
    (h : w.step (.limit limit nowEpoch now) = some t) : t.Paid := by
  have hrecovery := step_recovery h
  have hmarks := step_marks h
  rw [PaneRecovery.handle] at hrecovery hmarks
  rw [Paid] at hp ⊢
  by_cases ha : w.recovery.Accepts limit
  · have hq := PaneRecovery.noteLimit_quiet nowEpoch now ha
    rw [PaneRecovery.notes, if_pos ha] at hmarks
    have hreport : lastReport t.marks = some (.reported limit nowEpoch) := by
      rw [hmarks, ← List.append_assoc, lastReport_append]
      · simp [lastReport, List.filter_append, Mark.isReport]
      · intro m hm
        obtain ⟨c, -, rfl⟩ := List.mem_map.mp hm
        rfl
    have hpending : t.pending ≤ promises [.reported limit nowEpoch] := by
      rw [pending, hreport]
      split
      · rename_i hpromise
        exact List.countP_pos_iff.mpr ⟨_, List.mem_singleton_self _, hpromise.2⟩
      · exact Nat.zero_le _
    have hattempt : t.recovery.attempt = w.recovery.attempt := by rw [hrecovery, hq.attempt]
    rw [hattempt, hmarks, relaunches_append, relaunches_append, relaunches_said hq.silent,
      promises_append, promises_append, promises_said]
    have hnone : relaunches [.reported limit nowEpoch] = 0 := rfl
    simp only [maxResumeAttempts] at hp ⊢
    omega
  · rw [PaneRecovery.notes, if_neg ha, PaneRecovery.noteLimit_ignored ha, List.map_nil,
      List.append_nil, List.append_nil] at hmarks
    rw [PaneRecovery.noteLimit_ignored ha] at hrecovery
    have hpending : t.pending = w.pending := pending_congr (by rw [hrecovery]) (by rw [hmarks])
    rw [hpending, hmarks, hrecovery]
    exact hp

lemma paid_tick (hp : w.Paid) {provider : Provider} {ctx : PaneContext}
    {nowEpoch : ℤ} {now : ℕ} (h : w.step (.tick provider ctx nowEpoch now) = some t) : t.Paid := by
  obtain ⟨hrelaunches, hpromises, hreport⟩ := account_append w.marks
    (w.recovery.handle (.tick provider ctx nowEpoch now)).2
    (notes_tick w.recovery provider ctx nowEpoch now)
  rw [← step_marks h] at hrelaunches hpromises hreport
  have hrecovery := step_recovery h
  rw [Paid, hpromises, hrelaunches]
  rw [Paid] at hp
  rw [PaneRecovery.handle] at hrecovery ⊢
  rcases PaneRecovery.tick_cases w.recovery nowEpoch now provider ctx with hq | ⟨args, -, -, -, -, -, htick⟩
  · rw [relaunches_said hq.silent, pending_congr (by rw [hrecovery, hq.limit]) hreport, hrecovery,
      hq.attempt]
    exact hp
  · have hq : w.recovery.Quiet (w.recovery.elapse nowEpoch now) := PaneRecovery.quiet_elapse
    obtain ⟨before, htold, hbefore⟩ :=
      PaneRecovery.asked_says (w.recovery.elapse nowEpoch now).1 now args
    rw [htick] at hrecovery ⊢
    have hlimit : t.recovery.limit = w.recovery.limit := by
      rw [hrecovery, PaneRecovery.asked_limit, hq.limit]
    have hattempt : t.recovery.attempt = w.recovery.attempt + 1 := by
      rw [hrecovery, PaneRecovery.asked_attempt, hq.attempt]
    rw [htold, List.map_append, List.map_append, relaunches_append, relaunches_append,
      relaunches_said hq.silent, relaunches_said hbefore, pending_congr hlimit hreport, hattempt]
    have hone : relaunches ([.relaunch protocolVersion (w.recovery.elapse nowEpoch now).1.token
        (w.recovery.elapse nowEpoch now).1.generation args].map .said) = 1 := rfl
    rw [hone]
    omega

lemma paid_step (hs : w.recovery.Sound) (hp : w.Paid) (ho : Observed input)
    (hr : w.RefundsPromises input) (h : w.step input = some t) : t.Paid := by
  cases input with
  | event event => exact paid_event hs hp ho hr h
  | limit limit nowEpoch now => exact paid_limit hp h
  | tick provider ctx nowEpoch now => exact paid_tick hp h

lemma paid_run (hrun : run step (opened token generation) inputs = some w)
    (ho : ∀ i ∈ inputs, Observed i)
    (hr : Along step RefundsPromises (opened token generation) inputs) : w.Paid := by
  have hfirst : (opened token generation).recovery.Sound ∧ (opened token generation).Paid :=
    ⟨PaneRecovery.sound_idle rfl (Nat.zero_le _), le_rfl⟩
  have hobserved : Along step (fun _ => Observed) (opened token generation) inputs :=
    along_of_forall (fun i hi _ => ho i hi)
  have hboth : w.recovery.Sound ∧ w.Paid := by
    refine run_guarded (p := fun w => w.recovery.Sound ∧ w.Paid) ?_ hfirst
      (hobserved.and hr) hrun
    intro s i t hs hi ht
    refine ⟨?_, paid_step hs.1 hs.2 hi.1 hi.2 ht⟩
    rw [step_recovery ht]
    exact PaneRecovery.sound_handle hs.1
  exact hboth.2

lemma refunds_iff (hs : w.recovery.Sound) {event : PluginEvent}
    (ho : PaneRecovery.isHuman event = false) :
    (w.recovery.handle (.event event)).1.attempt < w.recovery.attempt ↔
      ∃ g reset, eventGeneration event = some g ∧ w.recovery.generation < g ∧
        w.recovery.state = .resuming ∧ w.recovery.limit.bind LimitEvent.resetsAt = some reset := by
  rw [PaneRecovery.handle]
  rcases PaneRecovery.onEvent_cases w.recovery event with hc | ⟨g, he, hge, hc⟩
  · rw [hc]
    refine iff_of_false (lt_irrefl _) ?_
    rintro ⟨g, reset, he, hnew, -, -⟩
    simp [PaneRecovery.onEvent, he, UInt32.not_lt.mpr (UInt32.le_of_lt hnew)] at hc
  · rw [hc, PaneRecovery.fold_observed ho]
    by_cases hnew : w.recovery.generation < g
    · obtain ⟨-, -, -, hattempt⟩ :=
        PaneRecovery.advance_clears w.recovery g
      have harrive : w.recovery.arrive g = w.recovery.advance g := if_pos hnew
      rw [harrive]
      dsimp only [Option.getD_some]
      rw [hattempt, PaneRecovery.refunded]
      split
      · rename_i hrefund
        obtain ⟨reset, hreset⟩ := Option.isSome_iff_exists.mp hrefund.2
        exact iff_of_true (hs.asked hrefund.1).2 ⟨g, reset, he, hnew, hrefund.1, hreset⟩
      · rename_i hrefund
        refine iff_of_false (lt_irrefl _) ?_
        rintro ⟨-, reset, -, -, hstate, hreset⟩
        exact hrefund ⟨hstate, by rw [hreset]; rfl⟩
    · have harrive : w.recovery.arrive g = (w.recovery, []) := if_neg hnew
      rw [harrive]
      refine iff_of_false (lt_irrefl _) ?_
      rintro ⟨g', -, he', hnew', -, -⟩
      obtain rfl := Option.some.inj (he.symm.trans he')
      exact hnew hnew'

/-- When no resume is confirmed of an episode whose reset time was already past, the relaunches
of a run are at most four for each reset time still ahead when it was reported, and four more.
Attempts are given back for such episodes only exactly as long as that is so. -/
theorem relaunches_are_paid_for (token : PaneToken) (generation : PaneGeneration)
    (inputs : List Input) (w : World)
    (hrun : run step (opened token generation) inputs = some w)
    (ho : ∀ i ∈ inputs, Observed i) :
    (Along step RefundsPromises (opened token generation) inputs →
      relaunches w.marks ≤ maxResumeAttempts * (1 + promises w.marks)) ∧
    (∀ event, PaneRecovery.isHuman event = false → (w.RefundsPromises (.event event) ↔
      ((w.recovery.handle (.event event)).1.attempt < w.recovery.attempt →
        ∃ m, lastReport w.marks = some m ∧ m.isPromise = true))) := by
  have hs := sound_run hrun
  refine ⟨fun hr => ?_, fun event hevent => ?_⟩
  · have hp := paid_run hrun ho hr
    have hbudget := hs.budget
    rw [Paid] at hp
    rw [Nat.mul_add]
    omega
  · rw [refunds_iff hs hevent]
    constructor
    · rintro h ⟨g, reset, he, hnew, hstate, hreset⟩
      exact h g reset he hnew hstate hreset
    · intro h g reset he hnew hstate hreset
      exact h ⟨g, reset, he, hnew, hstate, hreset⟩

instance : DecidablePred Observed
  | .event event => inferInstanceAs (Decidable (PaneRecovery.isHuman event = false))
  | .limit .. => isTrue trivial
  | .tick .. => isTrue trivial

def Plausible : Input → Prop
  | .limit limit nowEpoch _ =>
    limit.resetsAt = limit.resetsAt.bind (fun reset => plausibleReset reset nowEpoch)
  | _ => True

instance : DecidablePred Plausible
  | .limit limit nowEpoch _ => inferInstanceAs (Decidable
      (limit.resetsAt = limit.resetsAt.bind (fun reset => plausibleReset reset nowEpoch)))
  | .event _ => isTrue trivial
  | .tick .. => isTrue trivial

def instant : Input → Option ℕ
  | .event _ => none
  | .limit _ _ now | .tick _ _ _ now => some now

def staleResets : List Input :=
  (List.range 5).flatMap (resumedOnce 1799999000 1800000000)

theorem stale_resets_refund : ¬ ∀ (token : PaneToken) (generation : PaneGeneration)
    (inputs : List Input) (w : World), (∀ i ∈ inputs, Observed i) → (∀ i ∈ inputs, Plausible i) →
      (inputs.filterMap instant).Pairwise (· ≤ ·) →
      run step (opened token generation) inputs = some w →
      relaunches w.marks ≤ maxResumeAttempts * (1 + promises w.marks) := by
  intro h
  have hseen : (run step (opened slot 1) staleResets).map
      (fun w => (relaunches w.marks, promises w.marks)) = some (5, 0) := by decide +kernel
  obtain ⟨w, hw, hcounts⟩ := Option.map_eq_some_iff.mp hseen
  have hbound := h slot 1 staleResets w (by decide) (by decide) (by decide) hw
  rw [Prod.mk.injEq] at hcounts
  rw [hcounts.1, hcounts.2] at hbound
  exact absurd hbound (by decide)

theorem relaunches_are_paid_for_once : ∃ w,
    run step (opened slot 1) (resumedOnce 1800000020 1800000000 0) = some w ∧
      relaunches w.marks ≤ maxResumeAttempts * (1 + promises w.marks) := by
  obtain ⟨w, hw⟩ := Option.isSome_iff_exists.mp
    (show (run step (opened slot 1) (resumedOnce 1800000020 1800000000 0)).isSome from rfl)
  refine ⟨w, hw, (relaunches_are_paid_for slot 1 _ w hw (by decide)).1 ?_⟩
  refine along_cons rfl trivial ?_
  refine along_cons rfl ?_ ?_
  · intro generation reset he hnew
    obtain rfl := Option.some.inj he
    exact absurd hnew (by decide)
  · refine along_cons rfl trivial (along_cons rfl ?_ trivial)
    intro generation reset _ _ _ _
    exact ⟨_, rfl, rfl⟩

end World

end Nightcrow.Recovery
