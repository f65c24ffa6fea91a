import Nightcrow.Library.Runs
import Nightcrow.Recovery.Moves

namespace Nightcrow.Recovery

open Nightcrow.Backend Nightcrow.Plugin Nightcrow.Library

namespace PaneRecovery

variable {r s : PaneRecovery} {p : PaneRecovery × List PluginCommand} {state : RecoveryState}
  {nowEpoch : ℤ} {now : ℕ} {provider : Provider} {ctx : PaneContext} {limit : LimitEvent}
  {event : PluginEvent}

structure Sound (r : PaneRecovery) : Prop where
  settled : r.state ≠ .limitDetected
  limited : r.state ≠ .idle → r.limit ≠ none
  waits : r.state = .waitingForReset ∨ r.state = .backoff → r.wait ≠ none
  asked : r.state = .resuming → r.resumedAt ≠ none ∧ 0 < r.attempt
  budget : r.attempt ≤ maxResumeAttempts
  retries : r.state = .backoff → r.attempt < maxResumeAttempts

lemma sound_idle (hs : r.state = .idle) (ha : r.attempt ≤ maxResumeAttempts) : r.Sound :=
  ⟨by simp [hs], by simp [hs], by simp [hs], by simp [hs], ha, by simp [hs]⟩

lemma sound_attention (hs : r.state = .needsAttention) (hl : r.limit ≠ none)
    (ha : r.attempt ≤ maxResumeAttempts) : r.Sound :=
  ⟨by simp [hs], fun _ => hl, by simp [hs], by simp [hs], ha, by simp [hs]⟩

lemma Sound.of_clears (hp : r.Clears p) (ha : p.1.attempt ≤ maxResumeAttempts) : p.1.Sound :=
  sound_idle hp.state ha

lemma sound_armBackoff (hl : r.limit ≠ none) (ha : r.attempt ≤ maxResumeAttempts) :
    (r.armBackoff nowEpoch now).1.Sound := by
  rw [armBackoff]
  split
  · exact sound_attention goto_state (by simpa using hl) (by simpa using ha)
  · rename_i h
    exact ⟨by simp, by simpa using hl, by simp, by simp, by simpa using ha, by simpa using h⟩

lemma sound_armWait (hl : r.limit ≠ none) (ha : r.attempt ≤ maxResumeAttempts) :
    (r.armWait nowEpoch now).1.Sound := by
  rw [armWait]
  split
  · exact ⟨by simp, by simpa using hl, by simp, by simp, by simpa using ha, by simp⟩
  · exact sound_armBackoff hl ha

lemma sound_noteLimit (hr : r.Sound) : (r.noteLimit nowEpoch now limit).1.Sound := by
  by_cases h : r.Accepts limit
  · rw [noteLimit_accepted h]
    exact sound_armWait (by simp [detect]) (by simpa [detect] using hr.budget)
  · rw [noteLimit_ignored h]
    exact hr

lemma sound_asked {args : List String} (hl : r.limit ≠ none)
    (ha : r.attempt < maxResumeAttempts) : (r.asked now args).1.Sound := by
  simp only [PaneRecovery.asked]
  exact ⟨by simp, by simpa using hl, by simp, by simp, by simpa using ha, by simp⟩

lemma sound_tryResume (hl : r.limit ≠ none) (hs : r.state = .readyToResume)
    (ha : r.attempt ≤ maxResumeAttempts) : (r.tryResume nowEpoch now provider ctx).1.Sound := by
  rcases tryResume_cases (r := r) (p := r.tryResume nowEpoch now provider ctx) rfl with
    ⟨hnone, -⟩ | ⟨-, h⟩ | ⟨-, -, -, h⟩ | ⟨detail, h⟩ | ⟨args, -, -, -, hbudget, h⟩
  · exact absurd hnone hl
  · rw [h]
    exact ⟨by simp [hs], fun _ => hl, by simp [hs], by simp [hs], ha, by simp [hs]⟩
  · rw [h]
    exact sound_armBackoff hl ha
  · rw [h]
    exact sound_attention goto_state (by simpa using hl) (by simpa using ha)
  · rw [h]
    exact sound_asked hl hbudget

lemma sound_elapse (hr : r.Sound) : (r.elapse nowEpoch now).1.Sound := by
  rcases elapse_cases (r := r) (p := r.elapse nowEpoch now) rfl with
    ⟨-, -, wait, hwait, h⟩ | ⟨hover, h⟩ | ⟨hstale, h⟩
  · rw [h]
    exact ⟨hr.settled, hr.limited, fun hs hn => hr.waits hs (hwait.mp hn), hr.asked, hr.budget,
      hr.retries⟩
  · have hl : r.limit ≠ none := hr.limited (by rcases hover.1 with hs | hs <;> simp [hs])
    rw [h]
    exact ⟨by simp, by simpa using hl, by simp, by simp, by simpa using hr.budget, by simp⟩
  · rw [h]
    exact sound_armBackoff (hr.limited (by simp [hstale.1])) hr.budget

lemma sound_tick (hr : r.Sound) : (r.tick nowEpoch now provider ctx).1.Sound := by
  have he : (r.elapse nowEpoch now).1.Sound := sound_elapse hr
  by_cases hready : (r.elapse nowEpoch now).1.state = .readyToResume
  · rw [tick_ready hready]
    exact sound_tryResume (he.limited (by simp [hready])) hready he.budget
  · rw [tick_unready hready]
    exact he

lemma sound_arrive {generation : PaneGeneration} (hr : r.Sound) :
    (r.arrive generation).1.Sound := by
  rw [arrive]
  split
  · obtain ⟨hclears, -, -, hattempt⟩ := advance_clears r generation
    refine Sound.of_clears hclears ?_
    rw [hattempt, refunded]
    split
    · exact Nat.zero_le _
    · exact hr.budget
  · exact hr

lemma sound_fold (hr : r.Sound) : (r.fold event).1.Sound := by
  rcases h : isHuman event with _ | _
  · rw [fold_observed h]
    exact ⟨hr.settled, hr.limited, hr.waits, hr.asked, hr.budget, hr.retries⟩
  · rw [fold_human h]
    exact sound_idle cancel_state (by simp)

lemma sound_onEvent (hr : r.Sound) : ((r.onEvent event).getD (r, [])).1.Sound := by
  rcases onEvent_cases r event with h | ⟨generation, -, -, h⟩
  · rw [h]
    exact hr
  · rw [h]
    exact sound_fold (sound_arrive hr)

lemma sound_handle {input : Input} (hr : r.Sound) : (r.handle input).1.Sound := by
  cases input with
  | event event => exact sound_onEvent hr
  | limit limit nowEpoch now => exact sound_noteLimit hr
  | tick provider ctx nowEpoch now => exact sound_tick hr

end PaneRecovery

/-- What an observer notes of a run. An episode is voided when it is cancelled or its resume is
confirmed. -/
inductive Mark
  | heard (event : PluginEvent)
  | voided
  | reported (limit : LimitEvent) (nowEpoch : ℤ)
  | over
  | said (command : PluginCommand)

def Mark.isRelaunch : Mark → Bool
  | said command => Recovery.isRelaunch command
  | _ => false

def PaneRecovery.voids (r : PaneRecovery) (event : PluginEvent) : Bool :=
  (eventGeneration event).any (fun generation => !decide (generation < r.generation) &&
    (decide (r.generation < generation) || isHuman event))

lemma PaneRecovery.onEvent_spec (r : PaneRecovery) (event : PluginEvent) :
    (r.onEvent event = none ∧ r.voids event = false ∧
      ∀ g, eventGeneration event = some g → g < r.generation) ∨
    ∃ g p, eventGeneration event = some g ∧ r.generation ≤ g ∧ r.onEvent event = some p ∧
      p.1.generation = g ∧ (∀ c ∈ p.2, Recovery.isRelaunch c = false) ∧
      p.1.alive = heardAlive (decide (r.generation < g) || r.alive) event ∧
      ((r.voids event = true ∧ p.1.state = .idle ∧ p.1.limit = none) ∨
        (r.voids event = false ∧ g = r.generation ∧ p.1.state = r.state ∧
          p.1.limit = r.limit)) := by
  rcases he : eventGeneration event with _ | g
  · refine .inl ⟨?_, ?_, fun g hg => by cases hg⟩
    · simp [onEvent, he]
    · simp [voids, he]
  · by_cases hlt : g < r.generation
    · refine .inl ⟨onEvent_stale he hlt, ?_, fun g' hg => ?_⟩
      · simp [voids, he, hlt]
      · obtain rfl := Option.some.inj hg
        exact hlt
    · rcases onEvent_cases r event with h | ⟨g', he', -, h⟩
      · simp [onEvent, he, hlt] at h
      · obtain rfl := Option.some.inj (he.symm.trans he')
        refine .inr ⟨g, _, rfl, UInt32.not_lt.mp hlt, h, ?_⟩
        obtain ⟨hgeneration, halive, hsilent, hlimit, hstate⟩ := fold_spec (r.arrive g).1 event
        by_cases hnew : r.generation < g
        · obtain ⟨hclears, hg, hup, -⟩ := advance_clears r g
          have harrive : r.arrive g = r.advance g := if_pos hnew
          rw [harrive] at hgeneration halive hsilent hlimit hstate ⊢
          refine ⟨hgeneration.trans hg, ?_, ?_, .inl ⟨?_, hstate hclears.state,
            hlimit hclears.limit⟩⟩
          · intro c hc
            rcases List.mem_append.mp hc with hc | hc
            · exact hclears.silent c hc
            · exact hsilent c hc
          · rw [halive, hup, decide_eq_true hnew, Bool.true_or]
          · simp [voids, he, hlt, hnew]
        · have harrive : r.arrive g = (r, []) := if_neg hnew
          have hsame : g = r.generation := by
            exact UInt32.le_antisymm (UInt32.not_lt.mp hnew) (UInt32.not_lt.mp hlt)
          rw [harrive] at hgeneration halive hsilent hlimit hstate ⊢
          refine ⟨hgeneration.trans hsame.symm, hsilent, ?_, ?_⟩
          · rw [halive, decide_eq_false hnew, Bool.false_or]
          · rcases hh : isHuman event with _ | _
            · rw [fold_observed hh]
              exact .inr ⟨by simp [voids, he, hnew, hh], hsame, rfl, rfl⟩
            · rw [fold_human hh]
              exact .inl ⟨by simp [voids, he, hlt, hh], cancel_state, cancel_limit⟩

def PaneRecovery.notes (r : PaneRecovery) : Input → List Mark
  | .event event => .heard event :: if r.voids event then [.voided] else []
  | .limit limit nowEpoch _ => if r.Accepts limit then [.reported limit nowEpoch] else []
  | .tick _ _ nowEpoch now => if r.WaitOver nowEpoch now then [.over] else []

lemma PaneRecovery.notes_tick (r : PaneRecovery) (provider : Provider) (ctx : PaneContext)
    (nowEpoch : ℤ) (now : ℕ) : ∀ m ∈ r.notes (.tick provider ctx nowEpoch now), m = .over := by
  intro m hm
  rw [PaneRecovery.notes] at hm
  split at hm
  · exact List.mem_singleton.mp hm
  · cases hm

structure World where
  recovery : PaneRecovery
  marks : List Mark := []

namespace World

def step (w : World) (input : Input) : Option World :=
  let (recovery, out) := w.recovery.handle input
  some { recovery, marks := w.marks ++ (w.recovery.notes input ++ out.map .said) }

def opened (token : PaneToken) (generation : PaneGeneration) : World where
  recovery := { token, generation }

variable {w t : World} {input : Input} {inputs : List Input} {token : PaneToken}
  {generation : PaneGeneration}

lemma step_recovery (h : w.step input = some t) : t.recovery = (w.recovery.handle input).1 := by
  obtain rfl := Option.some.inj h
  rfl

lemma step_marks (h : w.step input = some t) :
    t.marks = w.marks ++ (w.recovery.notes input ++ (w.recovery.handle input).2.map .said) := by
  obtain rfl := Option.some.inj h
  rfl

lemma sound_run (hrun : run step (opened token generation) inputs = some w) :
    w.recovery.Sound := by
  have hfirst : (opened token generation).recovery.Sound :=
    PaneRecovery.sound_idle rfl (Nat.zero_le _)
  refine run_invariant (p := fun w => w.recovery.Sound) ?_ hfirst hrun
  intro s i t hs ht
  rw [step_recovery ht]
  exact PaneRecovery.sound_handle hs

def slot : PaneToken := ⟨"5f2c"⟩

def codex : PaneContext := ⟨slot, 1, "/work", some "codex"⟩

def resumes : Provider := fun _ _ _ => some (.relaunch ["resume", "0198"])

def resumedOnce (reset nowEpoch : ℤ) (i : ℕ) : List Input :=
  [.limit ⟨some "0198", some reset, "usage limit"⟩ (nowEpoch + 60 * i) (fromSecs (60 * i)),
    .event (.paneExited 3 slot (UInt32.ofNat (i + 1))),
    .tick resumes codex (nowEpoch + 60 * i + 50) (fromSecs (60 * i + 50)),
    .event (.paneOpened 3 slot (UInt32.ofNat (i + 2)) none (some "codex") "/work")]

end World

end Nightcrow.Recovery
