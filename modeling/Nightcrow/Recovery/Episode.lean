import Nightcrow.Recovery.Discipline

namespace Nightcrow.Recovery

open Nightcrow.Backend Nightcrow.Plugin Nightcrow.Library

namespace PaneRecovery

variable {r s : PaneRecovery} {p q : PaneRecovery × List PluginCommand} {state : RecoveryState}
  {nowEpoch : ℤ} {now : ℕ} {provider : Provider} {ctx : PaneContext} {limit : LimitEvent}
  {event : PluginEvent} {input : Input}

def due (r : PaneRecovery) : Input → Bool
  | .tick _ _ nowEpoch now =>
    match r.state with
    | .waitingForReset | .backoff => r.wait.any (fun w => decide (w.Past nowEpoch now))
    | .resuming => r.resumedAt.any (fun t => decide (fromSecs resumeConfirmSecs ≤ now - t))
    | .readyToResume | .needsAttention => true
    | .idle | .limitDetected => false
  | _ => false

/-- No human input, no new generation, no new episode, and clocks that move on together. -/
def Calm (r : PaneRecovery) : Input → Prop
  | .event event => isHuman event = false ∧ (∀ g ∈ eventGeneration event, g ≤ r.generation) ∧
      opens r.generation event = false
  | .limit limit _ _ => ¬ r.Accepts limit
  | .tick _ _ nowEpoch now => ∀ w ∈ r.wait, w.InStep nowEpoch now

def Answered (r : PaneRecovery) : Input → Prop
  | .tick provider ctx nowEpoch now => r.WaitOver nowEpoch now ∨ r.state = .readyToResume →
      ∀ limit, r.limit = some limit → provider ctx limit r.alive ≠ none
  | _ => True

def Unanswered (r : PaneRecovery) : Input → Prop
  | .tick provider ctx _ _ => ∀ limit, r.limit = some limit → provider ctx limit r.alive = none
  | _ => True

def ticksLeft (r : PaneRecovery) : ℕ :=
  match r.state with
  | .idle | .needsAttention => 0
  | .resuming => 2 * (maxResumeAttempts - r.attempt) + 2
  | _ => 2 * (maxResumeAttempts - r.attempt) + 1

def backoffsLeft (r : PaneRecovery) : ℕ :=
  match r.state with
  | .idle | .needsAttention => 0
  | .resuming => maxResumeAttempts - r.attempt
  | _ => maxResumeAttempts - r.attempt - 1

def backoffs (out : List PluginCommand) : ℕ :=
  (out.filterMap shownState).count RecoveryState.backoff.asStr

lemma backoffs_append (a b : List PluginCommand) :
    backoffs (a ++ b) = backoffs a + backoffs b := by
  rw [backoffs, List.filterMap_append, List.count_append]
  rfl

lemma backoffs_goto_other (h : state ≠ .backoff) : backoffs (r.goto state).2 = 0 := by
  rw [goto]
  split
  · rfl
  · cases state with
    | backoff => exact absurd rfl h
    | _ => rfl

lemma backoffs_goto_le : backoffs (r.goto state).2 ≤ 1 := by
  rw [goto]
  split
  · exact Nat.zero_le _
  · exact List.count_le_length

lemma handle_calm_event (hdead : r.alive = false) (h : r.Calm (.event event)) :
    r.handle (.event event) = (r, []) := by
  obtain ⟨hhuman, hold, hopens⟩ := h
  rw [handle]
  rcases onEvent_cases r event with hc | ⟨g, he, hge, hc⟩
  · rw [hc]
    rfl
  · have hle : g ≤ r.generation := hold g he
    have harrive : r.arrive g = (r, []) := if_neg (UInt32.not_lt.mpr hle)
    have halive : heardAlive r.alive event = r.alive := by
      rw [hdead]
      cases event with
      | paneOpened v token g' title command cwd =>
        obtain rfl := Option.some.inj he
        rw [opens, decide_eq_false_iff_not] at hopens
        exact absurd (UInt32.le_antisymm hle (UInt32.not_lt.mp hge)) hopens
      | _ => rfl
    rw [hc, harrive, fold_observed hhuman]
    dsimp only
    rw [halive]
    rfl

lemma waitOver_of_due (h : r.state = .waitingForReset ∨ r.state = .backoff)
    (hstep : ∀ w ∈ r.wait, w.InStep nowEpoch now)
    (hdue : r.due (.tick provider ctx nowEpoch now) = true) : r.WaitOver nowEpoch now := by
  have hpast : r.wait.any (fun w => decide (w.Past nowEpoch now)) = true := by
    rcases h with h | h
    · simpa only [due, h] using hdue
    · simpa only [due, h] using hdue
  rcases Option.eq_none_or_eq_some r.wait with hw | ⟨w, hw⟩
  · rw [hw] at hpast
    cases hpast
  · rw [hw] at hpast
    exact ⟨h, w, hw, ResetWait.poll_past (hstep w hw) (of_decide_eq_true hpast)⟩

structure Wanes (r : PaneRecovery) (due : ℕ) (p : PaneRecovery × List PluginCommand) : Prop where
  dead : p.1.alive = false
  going : r.state ≠ .idle → p.1.state ≠ .idle
  ended : r.state = .needsAttention → p.1.state = .needsAttention
  ticks : r.state ≠ .needsAttention → p.1.ticksLeft + due ≤ r.ticksLeft
  entries : backoffs p.2 + p.1.backoffsLeft ≤ r.backoffsLeft

lemma tick_attention (h : r.state = .needsAttention) :
    r.tick nowEpoch now provider ctx = (r, []) := by
  have helapse : r.elapse nowEpoch now = (r, []) := by
    rw [elapse, h]
  rw [tick_unready (by rw [helapse, h]; simp), helapse]

lemma noteLimit_attention (h : r.state = .needsAttention) :
    r.noteLimit nowEpoch now limit = (r, []) :=
  noteLimit_ignored (fun ha => ha.1 h)

lemma wanes_stay (hdead : r.alive = false) : r.Wanes 0 (r, []) :=
  ⟨hdead, id, id, fun _ => le_rfl, (Nat.zero_add _).le⟩

lemma ticksLeft_attention (h : r.state = .needsAttention) : r.ticksLeft = 0 := by
  simp only [ticksLeft, h]

lemma backoffsLeft_attention (h : r.state = .needsAttention) : r.backoffsLeft = 0 := by
  simp only [backoffsLeft, h]

lemma ticksLeft_resuming (h : r.state = .resuming) :
    r.ticksLeft = 2 * (maxResumeAttempts - r.attempt) + 2 := by
  simp only [ticksLeft, h]

lemma backoffsLeft_resuming (h : r.state = .resuming) :
    r.backoffsLeft = maxResumeAttempts - r.attempt := by
  simp only [backoffsLeft, h]

def Parked (r : PaneRecovery) : Prop :=
  r.state = .waitingForReset ∨ r.state = .backoff ∨ r.state = .readyToResume

lemma ticksLeft_parked (h : r.Parked) :
    r.ticksLeft = 2 * (maxResumeAttempts - r.attempt) + 1 := by
  rcases h with h | h | h
  · simp only [ticksLeft, h]
  · simp only [ticksLeft, h]
  · simp only [ticksLeft, h]

lemma backoffsLeft_parked (h : r.Parked) :
    r.backoffsLeft = maxResumeAttempts - r.attempt - 1 := by
  rcases h with h | h | h
  · simp only [backoffsLeft, h]
  · simp only [backoffsLeft, h]
  · simp only [backoffsLeft, h]

lemma wanes_attention {due : ℕ} (hs : s.alive = false) (hdue : due ≤ r.ticksLeft) :
    r.Wanes due (s.goto .needsAttention) := by
  refine ⟨by simpa using hs, fun _ => by simp, fun _ => goto_state, fun _ => ?_, ?_⟩
  · rw [ticksLeft_attention goto_state, Nat.zero_add]
    exact hdue
  · rw [backoffsLeft_attention goto_state, backoffs_goto_other (by simp)]
    exact Nat.zero_le _

lemma wanes_tryResume (hready : r.state = .readyToResume) (hdead : r.alive = false)
    (hlimit : r.limit ≠ none)
    (ha : ∀ limit, r.limit = some limit → provider ctx limit r.alive ≠ none) :
    r.Wanes 1 (r.tryResume nowEpoch now provider ctx) := by
  have hticks := ticksLeft_parked (.inr (.inr hready))
  have hbackoffs := backoffsLeft_parked (.inr (.inr hready))
  rcases tryResume_cases (r := r) (p := r.tryResume nowEpoch now provider ctx) rfl with
    ⟨hnone, -⟩ | ⟨halive, -⟩ | ⟨limit, hl, hnone, -⟩ | ⟨detail, h⟩ | ⟨args, -, -, -, hbudget, h⟩
  · exact absurd hnone hlimit
  · exact absurd (halive.symm.trans hdead) (by simp)
  · exact absurd hnone (ha limit hl)
  · rw [h]
    exact wanes_attention hdead (by omega)
  · rw [h]
    refine ⟨by rw [asked_alive, hdead], fun _ => by simp,
      fun h => absurd (hready.symm.trans h) (by simp), fun _ => ?_, ?_⟩
    · rw [ticksLeft_resuming asked_state, asked_attempt, hticks]
      omega
    · have hsilent : backoffs (r.asked now args).2 = 0 := by
        rw [asked, backoffs_append, backoffs_goto_other (by simp)]
        rfl
      rw [hsilent, backoffsLeft_resuming asked_state, asked_attempt, hbackoffs]
      omega

lemma wanes_armBackoff (hresuming : r.state = .resuming) (hs : s.alive = false)
    (hattempt : s.attempt = r.attempt) : r.Wanes 1 (s.armBackoff nowEpoch now) := by
  have hticks := ticksLeft_resuming hresuming
  rw [armBackoff]
  split
  · exact wanes_attention hs (by omega)
  · rename_i hbudget
    refine ⟨by simpa using hs, fun _ => by simp,
      fun h => absurd (hresuming.symm.trans h) (by simp), fun _ => ?_, ?_⟩
    · rw [ticksLeft_parked (.inr (.inl goto_state)), hticks, goto_attempt]
      dsimp only
      rw [hattempt]
    · rw [backoffsLeft_parked (.inr (.inl goto_state)), backoffsLeft_resuming hresuming,
        goto_attempt]
      dsimp only
      have hone : backoffs (goto { s with wait := some (.backoff (s.attempt + 1) nowEpoch now) }
          .backoff).2 ≤ 1 := backoffs_goto_le
      omega

lemma not_due (hover : ¬ r.WaitOver nowEpoch now) (hstale : ¬ r.Stale now)
    (hready : r.state ≠ .readyToResume) (hended : r.state ≠ .needsAttention)
    (hstep : ∀ w ∈ r.wait, w.InStep nowEpoch now) :
    r.due (.tick provider ctx nowEpoch now) = false := by
  rw [Bool.eq_false_iff]
  intro hdue
  rcases hstate : r.state with _ | _ | _ | _ | _ | _ | _
  · simp only [due, hstate] at hdue
    cases hdue
  · simp only [due, hstate] at hdue
    cases hdue
  · exact hover (waitOver_of_due (.inl hstate) hstep hdue)
  · exact hready hstate
  · simp only [due, hstate] at hdue
    rcases Option.eq_none_or_eq_some r.resumedAt with ht | ⟨t, ht⟩
    · rw [ht] at hdue
      cases hdue
    · rw [ht] at hdue
      exact hstale ⟨hstate, t, ht, of_decide_eq_true hdue⟩
  · exact hover (waitOver_of_due (.inr hstate) hstep hdue)
  · exact hended hstate

lemma Wanes.after {due : ℕ} (h : q.1.Wanes due p) (hquiet : backoffs q.2 = 0)
    (hgoing : q.1.state ≠ .idle) (hr : r.state ≠ .needsAttention)
    (hq : q.1.state ≠ .needsAttention) (hticks : q.1.ticksLeft = r.ticksLeft)
    (hbackoffs : q.1.backoffsLeft = r.backoffsLeft) : r.Wanes due (p.1, q.2 ++ p.2) := by
  refine ⟨h.dead, fun _ => h.going hgoing, fun hs => absurd hs hr,
    fun _ => hticks ▸ h.ticks hq, ?_⟩
  rw [backoffs_append, hquiet, Nat.zero_add, ← hbackoffs]
  exact h.entries

lemma Wanes.mono {due less : ℕ} (h : r.Wanes due p) (hle : less ≤ due) : r.Wanes less p :=
  ⟨h.dead, h.going, h.ended, fun hs => (Nat.add_le_add_left hle _).trans (h.ticks hs), h.entries⟩

lemma due_le : (r.due input).toNat ≤ 1 := Bool.toNat_le _

lemma wanes_tick (hr : r.Sound) (hdead : r.alive = false)
    (hstep : ∀ w ∈ r.wait, w.InStep nowEpoch now)
    (ha : r.Answered (.tick provider ctx nowEpoch now)) :
    r.Wanes (r.due (.tick provider ctx nowEpoch now)).toNat
      (r.tick nowEpoch now provider ctx) := by
  by_cases hended : r.state = .needsAttention
  · rw [tick_attention hended]
    exact ⟨hdead, id, id, fun h => absurd hended h, (Nat.zero_add _).le⟩
  rcases elapse_cases (r := r) (p := r.elapse nowEpoch now) rfl with
    ⟨hover, hstale, wait, -, he⟩ | ⟨hover, he⟩ | ⟨hstale, he⟩
  · by_cases hready : r.state = .readyToResume
    · have hlimit : r.limit ≠ none := hr.limited (by simp [hready])
      have htry : Wanes { r with wait } 1
          (tryResume { r with wait } nowEpoch now provider ctx) :=
        wanes_tryResume hready hdead hlimit (ha (.inr hready))
      rw [tick_ready (by rw [he]; exact hready), he]
      have hgoing : r.state ≠ .idle := by simp [hready]
      have hended : r.state ≠ .needsAttention := by simp [hready]
      have hafter := Wanes.after (r := r) (q := ({ r with wait }, [])) htry rfl hgoing hended hended
        rfl rfl
      exact hafter.mono due_le
    · have hnot : r.due (.tick provider ctx nowEpoch now) = false :=
        not_due hover hstale hready hended hstep
      rw [tick_unready (by rw [he]; exact hready), he, hnot]
      exact ⟨hdead, id, id, fun _ => le_rfl, (Nat.zero_add _).le⟩
  · have hparked : r.Parked := by
      rcases hover.1 with h | h
      · exact .inl h
      · exact .inr (.inl h)
    have hgoing : r.state ≠ .idle := by
      rcases hover.1 with h | h
      · simp [h]
      · simp [h]
    have hready : (goto { r with wait := none } .readyToResume).1.Parked :=
      .inr (.inr goto_state)
    have htry : (goto { r with wait := none } .readyToResume).1.Wanes 1
        ((goto { r with wait := none } .readyToResume).1.tryResume nowEpoch now provider ctx) := by
      refine wanes_tryResume goto_state (by simpa using hdead) ?_ ?_
      · simpa using hr.limited hgoing
      · simpa using ha (.inl hover)
    rw [tick_ready (by rw [he]; exact goto_state), he]
    have hwaiting : r.state ≠ .needsAttention := by
      rcases hover.1 with h | h
      · simp [h]
      · simp [h]
    refine (Wanes.after htry (backoffs_goto_other (by simp)) (by simp) hwaiting (by simp) ?_
      ?_).mono due_le
    · rw [ticksLeft_parked hready, ticksLeft_parked hparked, goto_attempt]
    · rw [backoffsLeft_parked hready, backoffsLeft_parked hparked, goto_attempt]
  · have hunready : (r.elapse nowEpoch now).1.state ≠ .readyToResume := by
      rw [he]
      exact armBackoff_unready
    rw [tick_unready hunready, he]
    have hwanes : r.Wanes 1 (armWaitAfterFailure { r with resumedAt := none } nowEpoch now) := by
      rw [armWaitAfterFailure]
      exact wanes_armBackoff hstale.1 hdead rfl
    exact hwanes.mono due_le

lemma wanes_handle (hr : r.Sound) (hdead : r.alive = false) (hcalm : r.Calm input)
    (ha : r.Answered input) : r.Wanes (r.due input).toNat (r.handle input) := by
  cases input with
  | event event =>
    rw [handle_calm_event hdead hcalm]
    exact wanes_stay hdead
  | limit limit nowEpoch now =>
    rw [handle, noteLimit_ignored hcalm]
    exact wanes_stay hdead
  | tick provider ctx nowEpoch now => exact wanes_tick hr hdead hcalm ha

lemma dead_handle (hdead : r.alive = false) (hcalm : r.Calm input) :
    (r.handle input).1.alive = false := by
  cases input with
  | event event =>
    rw [handle_calm_event hdead hcalm]
    exact hdead
  | limit limit nowEpoch now =>
    rw [handle, noteLimit_ignored hcalm]
    exact hdead
  | tick provider ctx nowEpoch now =>
    rcases tick_cases r nowEpoch now provider ctx with hq | ⟨args, -, -, -, -, -, h⟩
    · exact hq.alive.trans hdead
    · rw [handle, h, asked_alive, quiet_elapse.alive]
      exact hdead

def Open (r : PaneRecovery) : Prop :=
  r.state ≠ .idle ∧ r.state ≠ .needsAttention ∧ r.attempt < maxResumeAttempts

lemma open_armBackoff (h : r.attempt < maxResumeAttempts) :
    (r.armBackoff nowEpoch now).1.Open := by
  rw [armBackoff, if_neg (not_le.mpr h)]
  exact ⟨by simp, by simp, by simpa using h⟩

lemma open_tryResume (ho : r.Open) (hlimit : r.limit ≠ none)
    (ha : ∀ limit, r.limit = some limit → provider ctx limit r.alive = none) :
    (r.tryResume nowEpoch now provider ctx).1.Open := by
  obtain ⟨limit, hl⟩ := Option.ne_none_iff_exists'.mp hlimit
  have htry : r.tryResume nowEpoch now provider ctx = r.armWaitAfterFailure nowEpoch now := by
    simp only [tryResume, hl, ha limit hl]
  rw [htry]
  exact open_armBackoff ho.2.2

lemma open_tick (hr : r.Sound) (ho : r.Open)
    (ha : r.Unanswered (.tick provider ctx nowEpoch now)) :
    (r.tick nowEpoch now provider ctx).1.Open := by
  have hlimit : r.limit ≠ none := hr.limited ho.1
  rcases elapse_cases (r := r) (p := r.elapse nowEpoch now) rfl with
    ⟨-, -, wait, -, he⟩ | ⟨-, he⟩ | ⟨hstale, he⟩
  · by_cases hready : r.state = .readyToResume
    · rw [tick_ready (by rw [he]; exact hready), he]
      have hopen : Open { r with wait } := ho
      exact open_tryResume hopen hlimit ha
    · rw [tick_unready (by rw [he]; exact hready), he]
      exact ho
  · rw [tick_ready (by rw [he]; exact goto_state), he]
    refine open_tryResume ⟨by simp, by simp, by simpa using ho.2.2⟩ (by simpa using hlimit) ?_
    intro limit hl
    rw [goto_limit] at hl
    rw [goto_alive]
    exact ha limit hl
  · rw [tick_unready (by rw [he]; exact armBackoff_unready), he]
    exact open_armBackoff ho.2.2

lemma open_handle (hr : r.Sound) (hdead : r.alive = false) (ho : r.Open) (hcalm : r.Calm input)
    (ha : r.Unanswered input) : (r.handle input).1.Open := by
  cases input with
  | event event =>
    rw [handle_calm_event hdead hcalm]
    exact ho
  | limit limit nowEpoch now =>
    rw [handle, noteLimit_ignored hcalm]
    exact ho
  | tick provider ctx nowEpoch now => exact open_tick hr ho ha

lemma Sound.ticksLeft_le (hr : r.Sound) : r.ticksLeft ≤ 2 * maxResumeAttempts + 1 := by
  rw [ticksLeft]
  split
  · exact Nat.zero_le _
  · exact Nat.zero_le _
  · rename_i h
    have hspent := (hr.asked h).2
    have hbudget := hr.budget
    omega
  · omega

lemma backoffsLeft_le : r.backoffsLeft ≤ maxResumeAttempts := by
  rw [backoffsLeft]
  split
  · exact Nat.zero_le _
  · exact Nat.zero_le _
  · exact Nat.sub_le _ _
  · exact (Nat.sub_le _ _).trans (Nat.sub_le _ _)

lemma attention_of_ticksLeft (h : r.ticksLeft = 0) (hgoing : r.state ≠ .idle) :
    r.state = .needsAttention := by
  rw [ticksLeft] at h
  split at h
  · rename_i hs
    exact absurd hs hgoing
  · assumption
  · omega
  · omega

lemma backoffs_noteLimit : backoffs (r.noteLimit nowEpoch now limit).2 ≤ 1 := by
  by_cases h : r.Accepts limit
  · rw [noteLimit_accepted h, backoffs_append, detect, backoffs_goto_other (by simp), Nat.zero_add,
      armWait]
    split
    · exact backoffs_goto_le
    · rw [armBackoff]
      split
      · exact backoffs_goto_le
      · exact backoffs_goto_le
  · rw [noteLimit_ignored h]
    exact Nat.zero_le _

end PaneRecovery

namespace World

variable {w t u : World} {input : Input} {inputs : List Input} {token : PaneToken}
  {generation : PaneGeneration}

def entries (w : World) : ℕ := (reports w.marks).count RecoveryState.backoff.asStr

def dueTicks (w : World) (inputs : List Input) : ℕ :=
  spent step (fun w i => (w.recovery.due i).toNat) w inputs

lemma entries_step (h : w.step input = some t) :
    t.entries = w.entries + PaneRecovery.backoffs (w.recovery.handle input).2 := by
  rw [entries, step_marks h, reports_append, reports_append, reports_notes, List.nil_append,
    reports_said, List.count_append]
  rfl

structure Stuck (w : World) : Prop where
  sound : w.recovery.Sound
  dead : w.recovery.alive = false
  going : w.recovery.state ≠ .idle

lemma stuck_step (hw : w.Stuck) (hcalm : w.recovery.Calm input)
    (ha : w.recovery.Answered input) (h : w.step input = some t) :
    t.Stuck ∧ (w.recovery.state = .needsAttention → t.recovery.state = .needsAttention) ∧
      (w.recovery.state ≠ .needsAttention →
        t.recovery.ticksLeft + (w.recovery.due input).toNat ≤ w.recovery.ticksLeft) ∧
      t.entries + t.recovery.backoffsLeft ≤ w.entries + w.recovery.backoffsLeft := by
  have hwanes := PaneRecovery.wanes_handle hw.sound hw.dead hcalm ha
  rw [entries_step h, step_recovery h]
  refine ⟨⟨?_, ?_, ?_⟩, hwanes.ended, hwanes.ticks, ?_⟩
  · rw [step_recovery h]
    exact PaneRecovery.sound_handle hw.sound
  · rw [step_recovery h]
    exact hwanes.dead
  · rw [step_recovery h]
    exact hwanes.going hw.going
  · have hentries := hwanes.entries
    omega

lemma stuck_run (hw : w.Stuck) (hrun : run step w inputs = some t)
    (hcalm : Along step (fun w => w.recovery.Calm) w inputs)
    (ha : Along step (fun w => w.recovery.Answered) w inputs) :
    t.Stuck ∧ (t.recovery.state = .needsAttention ∨
      t.recovery.ticksLeft + w.dueTicks inputs ≤ w.recovery.ticksLeft) := by
  obtain ⟨hstuck, -, hspent⟩ := spent_le (fun w i => (w.recovery.due i).toNat)
    (fun w => w.recovery.ticksLeft) (fun w => w.recovery.state = .needsAttention) (p := Stuck)
    (fun s i t hs hi ht => by
      obtain ⟨hstuck, hended, hticks, -⟩ := stuck_step hs hi.1 hi.2 ht
      exact ⟨hstuck, hended, hticks⟩) hw (hcalm.and ha) hrun
  exact ⟨hstuck, hspent⟩

lemma entries_run (hw : w.Stuck) (hrun : run step w inputs = some t)
    (hcalm : Along step (fun w => w.recovery.Calm) w inputs)
    (ha : Along step (fun w => w.recovery.Answered) w inputs) :
    t.entries + t.recovery.backoffsLeft ≤ w.entries + w.recovery.backoffsLeft := by
  have hall : t.Stuck ∧ t.entries + t.recovery.backoffsLeft ≤ w.entries + w.recovery.backoffsLeft := by
    refine run_guarded (p := fun t => t.Stuck ∧
      t.entries + t.recovery.backoffsLeft ≤ w.entries + w.recovery.backoffsLeft) ?_
      ⟨hw, le_rfl⟩ (hcalm.and ha) hrun
    rintro s i t ⟨hs, hle⟩ hi ht
    obtain ⟨hstuck, -, -, hentries⟩ := stuck_step hs hi.1 hi.2 ht
    exact ⟨hstuck, hentries.trans hle⟩
  exact hall.2

lemma open_run (hw : w.Stuck) (ho : w.recovery.Open) (hrun : run step w inputs = some t)
    (hcalm : Along step (fun w => w.recovery.Calm) w inputs)
    (ha : Along step (fun w => w.recovery.Unanswered) w inputs) : t.recovery.Open := by
  have hall : (t.recovery.Sound ∧ t.recovery.alive = false) ∧ t.recovery.Open := by
    refine run_guarded (p := fun t => (t.recovery.Sound ∧ t.recovery.alive = false) ∧
      t.recovery.Open) ?_ ⟨⟨hw.sound, hw.dead⟩, ho⟩ (hcalm.and ha) hrun
    rintro s i t ⟨⟨hs, hdead⟩, hopen⟩ hi ht
    rw [step_recovery ht]
    exact ⟨⟨PaneRecovery.sound_handle hs, PaneRecovery.dead_handle hdead hi.1⟩,
      PaneRecovery.open_handle hs hdead hopen hi.1 hi.2⟩
  exact hall.2

/-- Of a pane that is gone, in the middle of an episode and with nothing new happening: if the
adapter answers whenever it is asked, the machine backs off at most four more times, and once nine
ticks have come past what it was waiting for it needs attention; a report starts an episode with
at most one more. If the adapter never answers, the machine never stops while it has attempts left.
In need of attention, no tick and no report produces a command. -/
theorem every_episode_ends (token : PaneToken) (generation : PaneGeneration)
    (inputs : List Input) (w : World) (hrun : run step (opened token generation) inputs = some w)
    (hdead : w.recovery.alive = false) (hgoing : w.recovery.state ≠ .idle) :
    (∀ more t, run step w more = some t → Along step (fun w => w.recovery.Calm) w more →
      Along step (fun w => w.recovery.Answered) w more →
      t.entries ≤ w.entries + maxResumeAttempts ∧
        (2 * maxResumeAttempts + 1 ≤ w.dueTicks more → t.recovery.state = .needsAttention)) ∧
    (∀ limit nowEpoch now t, w.step (.limit limit nowEpoch now) = some t →
      t.entries ≤ w.entries + 1) ∧
    (∀ more t, run step w more = some t → Along step (fun w => w.recovery.Calm) w more →
      Along step (fun w => w.recovery.Unanswered) w more → w.recovery.Open →
      t.recovery.state ≠ .needsAttention) ∧
    (w.recovery.state = .needsAttention → ∀ provider ctx limit nowEpoch now,
      w.recovery.handle (.tick provider ctx nowEpoch now) = (w.recovery, []) ∧
        w.recovery.handle (.limit limit nowEpoch now) = (w.recovery, [])) := by
  have hw : w.Stuck := ⟨sound_run hrun, hdead, hgoing⟩
  refine ⟨fun more t hmore hcalm ha => ⟨?_, fun hdue => ?_⟩, fun limit nowEpoch now t ht => ?_,
    fun more t hmore hcalm ha ho => (open_run hw ho hmore hcalm ha).2.1,
    fun hs provider ctx limit nowEpoch now =>
      ⟨PaneRecovery.tick_attention hs, PaneRecovery.noteLimit_attention hs⟩⟩
  · have hentries := entries_run hw hmore hcalm ha
    have hleft := PaneRecovery.backoffsLeft_le (r := w.recovery)
    omega
  · obtain ⟨ht, hended | hticks⟩ := stuck_run hw hmore hcalm ha
    · exact hended
    · have hleft := hw.sound.ticksLeft_le
      exact PaneRecovery.attention_of_ticksLeft (by omega) ht.going
  · rw [entries_step ht]
    exact Nat.add_le_add_left PaneRecovery.backoffs_noteLimit _

instance (r : PaneRecovery) : DecidablePred r.Calm
  | .event event => inferInstanceAs (Decidable (PaneRecovery.isHuman event = false ∧
      (∀ g ∈ eventGeneration event, g ≤ r.generation) ∧ opens r.generation event = false))
  | .limit limit _ _ => inferInstanceAs (Decidable (¬ r.Accepts limit))
  | .tick _ _ nowEpoch now => inferInstanceAs (Decidable (∀ w ∈ r.wait, w.InStep nowEpoch now))

def saysNothing : Provider := fun _ _ _ => none

def hourly (provider : Provider) (n : ℕ) : List Input :=
  (List.range n).map (fun i : ℕ =>
    .tick provider codex (1800007200 + 7200 * (i : ℤ)) (fromSecs (7200 + 7200 * i)))

def limitedAndGone : List Input :=
  [.limit ⟨some "0198", none, "usage limit"⟩ 1800000000 0, .event (.paneExited 3 slot 1)]

theorem silent_adapter_backs_off_forever : ¬ ∀ (token : PaneToken) (generation : PaneGeneration)
    (inputs more : List Input) (w t : World), run step (opened token generation) inputs = some w →
      w.recovery.alive = false → w.recovery.state ≠ .idle → run step w more = some t →
      Along step (fun w => w.recovery.Calm) w more →
      t.entries ≤ w.entries + (maxResumeAttempts + 1) ∧
        (2 * maxResumeAttempts + 1 ≤ w.dueTicks more → t.recovery.state = .needsAttention) := by
  intro h
  have hseen : (run step (opened slot 1) limitedAndGone).map (fun w => (w.recovery.alive,
      w.recovery.state, decide (Along step (fun w => w.recovery.Calm) w (hourly saysNothing 9)),
      (run step w (hourly saysNothing 9)).map (fun t => decide (t.entries ≤ w.entries + 5)))) =
        some (false, .backoff, true, some false) := by decide +kernel
  obtain ⟨w, hw, hseen⟩ := Option.map_eq_some_iff.mp hseen
  rw [Prod.mk.injEq, Prod.mk.injEq, Prod.mk.injEq] at hseen
  obtain ⟨hdead, hstate, hcalm, hentries⟩ := hseen
  obtain ⟨t, ht, hcount⟩ := Option.map_eq_some_iff.mp hentries
  have hbound := (h slot 1 limitedAndGone (hourly saysNothing 9) w t hw hdead (by simp [hstate]) ht
    (of_decide_eq_true hcalm)).1
  exact of_decide_eq_false hcount hbound

theorem every_episode_ends_exhausted : ∃ w t,
    run step (opened slot 1) limitedAndGone = some w ∧ run step w (hourly resumes 9) = some t ∧
      t.entries ≤ w.entries + maxResumeAttempts ∧ t.recovery.state = .needsAttention := by
  have hseen : (run step (opened slot 1) limitedAndGone).map (fun w => (w.recovery.alive,
      w.recovery.state, decide (Along step (fun w => w.recovery.Calm) w (hourly resumes 9)),
      w.dueTicks (hourly resumes 9), (run step w (hourly resumes 9)).isSome)) =
        some (false, .backoff, true, 9, true) := by decide +kernel
  obtain ⟨w, hw, hseen⟩ := Option.map_eq_some_iff.mp hseen
  rw [Prod.mk.injEq, Prod.mk.injEq, Prod.mk.injEq, Prod.mk.injEq] at hseen
  obtain ⟨hdead, hstate, hcalm, hdue, hsome⟩ := hseen
  obtain ⟨t, ht⟩ := Option.isSome_iff_exists.mp hsome
  have hanswered : Along step (fun w => w.recovery.Answered) w (hourly resumes 9) := by
    apply along_of_forall
    intro i hi w
    obtain ⟨n, -, rfl⟩ := List.mem_map.mp hi
    exact fun _ _ _ => by simp [resumes]
  obtain ⟨hentries, hended⟩ := (every_episode_ends slot 1 limitedAndGone w hw hdead
    (by simp [hstate])).1 (hourly resumes 9) t ht (of_decide_eq_true hcalm) hanswered
  exact ⟨w, t, hw, ht, hentries, hended (by rw [hdue]; decide)⟩

end World

end Nightcrow.Recovery
