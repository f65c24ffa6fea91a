import Nightcrow.Recovery.Machine

namespace Nightcrow.Recovery

open Nightcrow.Backend Nightcrow.Plugin

def isRelaunch : PluginCommand → Bool
  | .relaunch .. => true
  | _ => false

def shownState : PluginCommand → Option String
  | .status _ _ _ state _ _ _ => some state
  | _ => none

namespace PaneRecovery

variable {r s : PaneRecovery} {p : PaneRecovery × List PluginCommand} {state : RecoveryState}
  {nowEpoch : ℤ} {now : ℕ}

@[simp] lemma goto_state : (r.goto state).1.state = state := by
  rw [goto]
  split
  · assumption
  · rfl

@[simp] lemma goto_generation : (r.goto state).1.generation = r.generation := by
  rw [goto]
  split <;> rfl

@[simp] lemma goto_alive : (r.goto state).1.alive = r.alive := by
  rw [goto]
  split <;> rfl

@[simp] lemma goto_attempt : (r.goto state).1.attempt = r.attempt := by
  rw [goto]
  split <;> rfl

@[simp] lemma goto_limit : (r.goto state).1.limit = r.limit := by
  rw [goto]
  split <;> rfl

@[simp] lemma goto_wait : (r.goto state).1.wait = r.wait := by
  rw [goto]
  split <;> rfl

@[simp] lemma goto_resumedAt : (r.goto state).1.resumedAt = r.resumedAt := by
  rw [goto]
  split <;> rfl

lemma silent_goto : ∀ c ∈ (r.goto state).2, isRelaunch c = false := by
  rw [goto]
  split
  · intro c hc
    cases hc
  · intro c hc
    obtain rfl := List.mem_singleton.mp hc
    rfl

structure Quiet (r : PaneRecovery) (p : PaneRecovery × List PluginCommand) : Prop where
  generation : p.1.generation = r.generation
  alive : p.1.alive = r.alive
  attempt : p.1.attempt = r.attempt
  limit : p.1.limit = r.limit
  silent : ∀ c ∈ p.2, isRelaunch c = false

lemma quiet_stay : r.Quiet (r, []) :=
  ⟨rfl, rfl, rfl, rfl, fun _ hc => absurd hc List.not_mem_nil⟩

lemma quiet_goto (hgeneration : s.generation = r.generation) (halive : s.alive = r.alive)
    (hattempt : s.attempt = r.attempt) (hlimit : s.limit = r.limit) : r.Quiet (s.goto state) :=
  ⟨by rw [goto_generation, hgeneration], by rw [goto_alive, halive],
    by rw [goto_attempt, hattempt], by rw [goto_limit, hlimit], silent_goto⟩

lemma Quiet.append {q : PaneRecovery × List PluginCommand} (hp : r.Quiet p) (hq : p.1.Quiet q) :
    r.Quiet (q.1, p.2 ++ q.2) := by
  refine ⟨hq.generation.trans hp.generation, hq.alive.trans hp.alive, hq.attempt.trans hp.attempt,
    hq.limit.trans hp.limit, fun c hc => ?_⟩
  rcases List.mem_append.mp hc with hc | hc
  · exact hp.silent c hc
  · exact hq.silent c hc

lemma quiet_armBackoff (hgeneration : s.generation = r.generation) (halive : s.alive = r.alive)
    (hattempt : s.attempt = r.attempt) (hlimit : s.limit = r.limit) :
    r.Quiet (s.armBackoff nowEpoch now) := by
  rw [armBackoff]
  split
  · exact quiet_goto hgeneration halive hattempt hlimit
  · exact quiet_goto hgeneration halive hattempt hlimit

lemma quiet_armWait : r.Quiet (r.armWait nowEpoch now) := by
  rw [armWait]
  split
  · exact quiet_goto rfl rfl rfl rfl
  · exact quiet_armBackoff rfl rfl rfl rfl

def asked (r : PaneRecovery) (now : ℕ) (args : List String) :
    PaneRecovery × List PluginCommand :=
  let p := goto { r with attempt := r.attempt + 1, resumedAt := some now } .resuming
  (p.1, p.2 ++ [.relaunch protocolVersion r.token r.generation args])

variable {provider : Provider} {ctx : PaneContext}

@[simp] lemma asked_state {args : List String} : (r.asked now args).1.state = .resuming :=
  goto_state

@[simp] lemma asked_generation {args : List String} :
    (r.asked now args).1.generation = r.generation :=
  goto_generation

@[simp] lemma asked_alive {args : List String} : (r.asked now args).1.alive = r.alive :=
  goto_alive

@[simp] lemma asked_attempt {args : List String} :
    (r.asked now args).1.attempt = r.attempt + 1 :=
  goto_attempt

@[simp] lemma asked_limit {args : List String} : (r.asked now args).1.limit = r.limit :=
  goto_limit

lemma asked_says (r : PaneRecovery) (now : ℕ) (args : List String) : ∃ before,
    (r.asked now args).2 = before ++ [.relaunch protocolVersion r.token r.generation args] ∧
    ∀ c ∈ before, isRelaunch c = false :=
  ⟨_, rfl, silent_goto⟩

lemma relaunch_cases {args : List String} (hp : r.relaunch now args ctx = p) :
    (r.alive = true ∧ p = (r, [])) ∨
    (∃ detail, p = goto { r with detail := some detail } .needsAttention) ∨
    (r.alive = false ∧ argsAreSafe args = true ∧ r.attempt < maxResumeAttempts ∧
      p = r.asked now args) := by
  subst hp
  rw [relaunch]
  split
  · rename_i halive
    exact .inl ⟨halive, rfl⟩
  · rename_i halive
    refine .inr ?_
    split
    · exact .inl ⟨_, rfl⟩
    · split
      · exact .inl ⟨_, rfl⟩
      · rename_i hsafe
        rw [spendAttempt]
        split
        · exact .inl ⟨_, rfl⟩
        · rename_i hbudget
          exact .inr ⟨Bool.eq_false_iff.mpr halive, Bool.eq_true_of_not_eq_false hsafe,
            not_le.mp hbudget, rfl⟩

lemma tryResume_cases (hp : r.tryResume nowEpoch now provider ctx = p) :
    (r.limit = none ∧ p = r.cancel) ∨
    (r.alive = true ∧ p = (r, [])) ∨
    (∃ limit, r.limit = some limit ∧ provider ctx limit r.alive = none ∧
      p = r.armWaitAfterFailure nowEpoch now) ∨
    (∃ detail, p = goto { r with detail := some detail } .needsAttention) ∨
    (∃ args, r.limit ≠ none ∧ r.alive = false ∧ argsAreSafe args = true ∧
      r.attempt < maxResumeAttempts ∧ p = r.asked now args) := by
  rw [tryResume] at hp
  split at hp
  · rename_i hlimit
    exact .inl ⟨hlimit, hp.symm⟩
  · rename_i limit hlimit
    refine .inr ?_
    split at hp
    · rename_i hplan
      exact .inr (.inl ⟨limit, hlimit, hplan, hp.symm⟩)
    · rename_i reason _
      exact .inr (.inr (.inl ⟨reason, hp.symm⟩))
    · rename_i args _
      rcases relaunch_cases hp with h | h | ⟨halive, hsafe, hbudget, h⟩
      · exact .inl h
      · exact .inr (.inr (.inl h))
      · exact .inr (.inr (.inr ⟨args, by simp [hlimit], halive, hsafe, hbudget, h⟩))

def WaitOver (r : PaneRecovery) (nowEpoch : ℤ) (now : ℕ) : Prop :=
  (r.state = .waitingForReset ∨ r.state = .backoff) ∧
    ∃ w, r.wait = some w ∧ (w.poll nowEpoch now).1 = true

instance : Decidable (r.WaitOver nowEpoch now) :=
  decidable_of_iff ((r.state = .waitingForReset ∨ r.state = .backoff) ∧
    r.wait.any (fun w => (w.poll nowEpoch now).1) = true) (by
      rcases h : r.wait with _ | w
      · simp [WaitOver, h]
      · simp [WaitOver, h])

def Stale (r : PaneRecovery) (now : ℕ) : Prop :=
  r.state = .resuming ∧ ∃ t, r.resumedAt = some t ∧ fromSecs resumeConfirmSecs ≤ now - t

lemma elapse_waiting (hs : r.state = .waitingForReset ∨ r.state = .backoff) :
    r.elapse nowEpoch now = if (r.pollWait nowEpoch now).1 = true then
      goto { (r.pollWait nowEpoch now).2 with wait := none } .readyToResume
      else ((r.pollWait nowEpoch now).2, []) := by
  rcases hs with hs | hs
  · simp only [elapse, hs]
  · simp only [elapse, hs]

lemma elapse_cases (hp : r.elapse nowEpoch now = p) :
    (¬ r.WaitOver nowEpoch now ∧ ¬ r.Stale now ∧
      ∃ wait, (wait = none ↔ r.wait = none) ∧ p = ({ r with wait }, [])) ∨
    (r.WaitOver nowEpoch now ∧ p = goto { r with wait := none } .readyToResume) ∨
    (r.Stale now ∧ p = armWaitAfterFailure { r with resumedAt := none } nowEpoch now) := by
  subst hp
  by_cases hw : r.state = .waitingForReset ∨ r.state = .backoff
  · have hn : ¬ r.Stale now := by
      rintro ⟨h, -⟩
      rcases hw with hw | hw
      · cases hw.symm.trans h
      · cases hw.symm.trans h
    rw [elapse_waiting hw]
    rcases hwait : r.wait with _ | w
    · refine .inl ⟨?_, hn, none, by simp, ?_⟩
      · rintro ⟨-, w, h, -⟩
        cases hwait.symm.trans h
      · simp only [pollWait, hwait, Bool.false_eq_true, if_false]
        rw [← hwait]
    · rcases hpoll : (w.poll nowEpoch now).1 with _ | _
      · refine .inl ⟨?_, hn, some (w.poll nowEpoch now).2, by simp, ?_⟩
        · rintro ⟨-, v, h, hv⟩
          obtain rfl := Option.some.inj (hwait.symm.trans h)
          cases hpoll.symm.trans hv
        · simp only [pollWait, hwait, hpoll, Bool.false_eq_true, if_false]
      · refine .inr (.inl ⟨⟨hw, w, hwait, hpoll⟩, ?_⟩)
        simp only [pollWait, hwait, hpoll, if_true]
  · have hn : ¬ r.WaitOver nowEpoch now := fun h => hw h.1
    by_cases hr : r.state = .resuming
    · have he : r.elapse nowEpoch now =
          if r.resumedAt.any (fun t => decide (fromSecs resumeConfirmSecs ≤ now - t)) then
            armWaitAfterFailure { r with resumedAt := none } nowEpoch now else (r, []) := by
        simp only [elapse, hr]
      rw [he]
      split
      · rename_i h
        rcases Option.eq_none_or_eq_some r.resumedAt with ht | ⟨t, ht⟩
        · rw [ht] at h
          cases h
        · rw [ht] at h
          exact .inr (.inr ⟨⟨hr, t, ht, of_decide_eq_true h⟩, rfl⟩)
      · rename_i h
        refine .inl ⟨hn, ?_, r.wait, Iff.rfl, rfl⟩
        rintro ⟨-, t, ht, hle⟩
        exact h (by simp [ht, hle])
    · refine .inl ⟨hn, fun h => hr h.1, r.wait, Iff.rfl, ?_⟩
      rw [elapse]
      split
      · rename_i h
        exact absurd (.inl h) hw
      · rename_i h
        exact absurd (.inr h) hw
      · rename_i h
        exact absurd h hr
      · rfl

lemma quiet_elapse : r.Quiet (r.elapse nowEpoch now) := by
  rcases elapse_cases (r := r) (p := r.elapse nowEpoch now) rfl with
    ⟨-, -, wait, -, h⟩ | ⟨-, h⟩ | ⟨-, h⟩
  · rw [h]
    exact ⟨rfl, rfl, rfl, rfl, fun _ hc => absurd hc List.not_mem_nil⟩
  · rw [h]
    exact quiet_goto rfl rfl rfl rfl
  · rw [h]
    exact quiet_armBackoff rfl rfl rfl rfl

def Accepts (r : PaneRecovery) (limit : LimitEvent) : Prop :=
  r.state ≠ .needsAttention ∧ r.isSameEpisode limit = false

instance (limit : LimitEvent) : Decidable (r.Accepts limit) := instDecidableAnd

def detect (r : PaneRecovery) (limit : LimitEvent) : PaneRecovery × List PluginCommand :=
  goto { r with detail := some limit.detail, limit := some limit } .limitDetected

variable {limit : LimitEvent}

lemma noteLimit_ignored (h : ¬ r.Accepts limit) : r.noteLimit nowEpoch now limit = (r, []) := by
  rw [noteLimit, if_pos]
  rw [Accepts, not_and_or, not_not, Bool.not_eq_false] at h
  exact h

lemma noteLimit_accepted (h : r.Accepts limit) :
    r.noteLimit nowEpoch now limit = (((r.detect limit).1.armWait nowEpoch now).1,
      (r.detect limit).2 ++ ((r.detect limit).1.armWait nowEpoch now).2) := by
  rw [noteLimit, if_neg]
  · rfl
  · rintro (hn | hn)
    · exact h.1 hn
    · exact Bool.false_ne_true (h.2.symm.trans hn)

lemma noteLimit_quiet (nowEpoch : ℤ) (now : ℕ) (h : r.Accepts limit) :
    Quiet { r with limit := some limit } (r.noteLimit nowEpoch now limit) := by
  rw [noteLimit_accepted h]
  have hdetect : Quiet { r with limit := some limit } (r.detect limit) :=
    quiet_goto rfl rfl rfl rfl
  exact hdetect.append quiet_armWait

lemma armBackoff_unready : (r.armBackoff nowEpoch now).1.state ≠ .readyToResume := by
  rw [armBackoff]
  split
  · simp
  · simp

lemma noteLimit_unready (h : r.Accepts limit) :
    (r.noteLimit nowEpoch now limit).1.state ≠ .readyToResume := by
  rw [noteLimit_accepted h]
  dsimp only
  rw [armWait]
  split
  · simp
  · exact armBackoff_unready

def isHuman : PluginEvent → Bool
  | .paneClosed .. | .userInput .. => true
  | _ => false

def arrive (r : PaneRecovery) (generation : PaneGeneration) :
    PaneRecovery × List PluginCommand :=
  if r.generation < generation then r.advance generation else (r, [])

variable {event : PluginEvent}

lemma onEvent_stale {generation : PaneGeneration} (he : eventGeneration event = some generation)
    (hlt : generation < r.generation) : r.onEvent event = none := by
  simp only [onEvent, he, hlt, if_true]

lemma onEvent_cases (r : PaneRecovery) (event : PluginEvent) : r.onEvent event = none ∨
    ∃ generation, eventGeneration event = some generation ∧ ¬ generation < r.generation ∧
      r.onEvent event = some (((r.arrive generation).1.fold event).1,
        (r.arrive generation).2 ++ ((r.arrive generation).1.fold event).2) := by
  rw [onEvent]
  split
  · exact .inl rfl
  · rename_i generation he
    split
    · exact .inl rfl
    · rename_i hlt
      exact .inr ⟨generation, he, hlt, rfl⟩

@[simp] lemma cancel_state : r.cancel.1.state = .idle := by
  rw [cancel]
  split
  · assumption
  · exact goto_state

@[simp] lemma cancel_limit : r.cancel.1.limit = none := by
  rw [cancel]
  split
  · rfl
  · exact goto_limit

@[simp] lemma cancel_generation : r.cancel.1.generation = r.generation := by
  rw [cancel]
  split
  · rfl
  · exact goto_generation

@[simp] lemma cancel_alive : r.cancel.1.alive = r.alive := by
  rw [cancel]
  split
  · rfl
  · exact goto_alive

@[simp] lemma cancel_attempt : r.cancel.1.attempt = r.attempt := by
  rw [cancel]
  split
  · rfl
  · exact goto_attempt

lemma silent_cancel : ∀ c ∈ r.cancel.2, isRelaunch c = false := by
  rw [cancel]
  split
  · exact fun _ hc => absurd hc List.not_mem_nil
  · exact silent_goto

def refunded (r : PaneRecovery) : ℕ :=
  if r.state = .resuming ∧ (r.limit.bind LimitEvent.resetsAt).isSome then 0 else r.attempt

structure Clears (r : PaneRecovery) (p : PaneRecovery × List PluginCommand) : Prop where
  state : p.1.state = .idle
  limit : p.1.limit = none
  silent : ∀ c ∈ p.2, isRelaunch c = false

lemma advance_clears (r : PaneRecovery) (generation : PaneGeneration) :
    r.Clears (r.advance generation) ∧
    (r.advance generation).1.generation = generation ∧ (r.advance generation).1.alive = true ∧
    (r.advance generation).1.attempt = r.refunded := by
  by_cases h : r.state = .resuming
  · have hconfirm : r.advance generation = confirmResume { r with generation, alive := true } := by
      simp only [advance, h, if_true]
    rw [hconfirm, confirmResume, if_neg (not_not.mpr h)]
    refine ⟨⟨goto_state, goto_limit, silent_goto⟩, goto_generation, goto_alive, ?_⟩
    rw [goto_attempt]
    simp only [refunded, h, true_and]
  · have hcancel : r.advance generation = cancel { r with generation, alive := true } := by
      simp only [advance, h, if_false]
    rw [hcancel]
    refine ⟨⟨cancel_state, cancel_limit, silent_cancel⟩, cancel_generation, cancel_alive, ?_⟩
    rw [cancel_attempt, refunded, if_neg (fun hr => h hr.1)]

lemma fold_human (h : isHuman event = true) : r.fold event = cancel { r with attempt := 0 } := by
  cases event with
  | paneClosed | userInput => rfl
  | _ => cases h

def heardAlive (alive : Bool) : PluginEvent → Bool
  | .paneOpened .. => true
  | .paneExited .. => false
  | _ => alive

lemma fold_observed (h : isHuman event = false) :
    r.fold event = ({ r with alive := heardAlive r.alive event }, []) := by
  cases event with
  | paneClosed | userInput => cases h
  | _ => rfl

lemma tick_ready (h : (r.elapse nowEpoch now).1.state = .readyToResume) :
    r.tick nowEpoch now provider ctx =
      (((r.elapse nowEpoch now).1.tryResume nowEpoch now provider ctx).1,
        (r.elapse nowEpoch now).2 ++
          ((r.elapse nowEpoch now).1.tryResume nowEpoch now provider ctx).2) :=
  if_pos h

lemma tick_unready (h : (r.elapse nowEpoch now).1.state ≠ .readyToResume) :
    r.tick nowEpoch now provider ctx = r.elapse nowEpoch now :=
  if_neg h

lemma fold_spec (r : PaneRecovery) (event : PluginEvent) :
    (r.fold event).1.generation = r.generation ∧
    (r.fold event).1.alive = heardAlive r.alive event ∧
    (∀ c ∈ (r.fold event).2, isRelaunch c = false) ∧
    (r.limit = none → (r.fold event).1.limit = none) ∧
    (r.state = .idle → (r.fold event).1.state = .idle) := by
  rcases h : isHuman event with _ | _
  · rw [fold_observed h]
    exact ⟨rfl, rfl, fun _ hc => absurd hc List.not_mem_nil, id, id⟩
  · have halive : heardAlive r.alive event = r.alive := by
      cases event with
      | paneClosed | userInput => rfl
      | _ => cases h
    rw [fold_human h, halive]
    exact ⟨cancel_generation, cancel_alive, silent_cancel, fun _ => cancel_limit,
      fun _ => cancel_state⟩

lemma elapse_ready (h : (r.elapse nowEpoch now).1.state = .readyToResume) :
    r.state = .readyToResume ∨ r.WaitOver nowEpoch now := by
  rcases elapse_cases (r := r) (p := r.elapse nowEpoch now) rfl with
    ⟨-, -, wait, -, he⟩ | ⟨hover, -⟩ | ⟨-, he⟩
  · rw [he] at h
    exact .inl h
  · exact .inr hover
  · rw [he] at h
    exact absurd h armBackoff_unready

lemma tick_state_ready (h : (r.tick nowEpoch now provider ctx).1.state = .readyToResume) :
    r.state = .readyToResume ∨ r.WaitOver nowEpoch now := by
  by_cases hready : (r.elapse nowEpoch now).1.state = .readyToResume
  · exact elapse_ready hready
  · rw [tick_unready hready] at h
    exact absurd h hready

lemma tick_cases (r : PaneRecovery) (nowEpoch : ℤ) (now : ℕ) (provider : Provider)
    (ctx : PaneContext) : r.Quiet (r.tick nowEpoch now provider ctx) ∨
    ∃ args, (r.state = .readyToResume ∨ r.WaitOver nowEpoch now) ∧ r.limit ≠ none ∧
      r.alive = false ∧ argsAreSafe args = true ∧ r.attempt < maxResumeAttempts ∧
      r.tick nowEpoch now provider ctx =
        (((r.elapse nowEpoch now).1.asked now args).1,
          (r.elapse nowEpoch now).2 ++ ((r.elapse nowEpoch now).1.asked now args).2) := by
  have hq : r.Quiet (r.elapse nowEpoch now) := quiet_elapse
  by_cases hready : (r.elapse nowEpoch now).1.state = .readyToResume
  · rw [tick_ready hready]
    rcases tryResume_cases (r := (r.elapse nowEpoch now).1)
        (p := (r.elapse nowEpoch now).1.tryResume nowEpoch now provider ctx) rfl with
      ⟨hlimit, h⟩ | ⟨-, h⟩ | ⟨-, -, -, h⟩ | ⟨detail, h⟩ | ⟨args, hlimit, halive, hsafe, hbudget, h⟩
    · rw [h]
      exact .inl (hq.append ⟨cancel_generation, cancel_alive, cancel_attempt,
        cancel_limit.trans hlimit.symm, silent_cancel⟩)
    · rw [h]
      exact .inl (hq.append quiet_stay)
    · rw [h]
      exact .inl (hq.append (quiet_armBackoff rfl rfl rfl rfl))
    · rw [h]
      exact .inl (hq.append (quiet_goto rfl rfl rfl rfl))
    · exact .inr ⟨args, elapse_ready hready, hq.limit ▸ hlimit, hq.alive.symm.trans halive, hsafe,
        hq.attempt ▸ hbudget, by rw [h]⟩
  · rw [tick_unready hready]
    exact .inl hq

end PaneRecovery

end Nightcrow.Recovery
