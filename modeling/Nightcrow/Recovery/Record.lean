import Nightcrow.Recovery.Account

namespace Nightcrow.Recovery

open Nightcrow.Backend Nightcrow.Plugin Nightcrow.Library

namespace PaneRecovery

variable {r s : PaneRecovery} {p q : PaneRecovery × List PluginCommand} {state : RecoveryState}
  {nowEpoch : ℤ} {now : ℕ} {provider : Provider} {ctx : PaneContext} {limit : LimitEvent}
  {event : PluginEvent} {generation : PaneGeneration}

def Recorded (r : PaneRecovery) : Prop :=
  r.took.getLast?.getD .idle = r.state ∧ (RecoveryState.idle :: r.took).IsChain (· ≠ ·)

structure Told (r : PaneRecovery) (p : PaneRecovery × List PluginCommand) : Prop where
  shown : p.1.took.map RecoveryState.asStr =
    r.took.map RecoveryState.asStr ++ p.2.filterMap shownState
  recorded : r.Recorded → p.1.Recorded

lemma told_stay (htook : s.took = r.took) (hstate : s.state = r.state) : r.Told (s, []) := by
  refine ⟨?_, fun h => ?_⟩
  · rw [List.filterMap_nil, List.append_nil]
    exact congrArg _ htook
  · rw [Recorded] at h ⊢
    dsimp only
    rw [htook, hstate]
    exact h

lemma told_goto (htook : s.took = r.took) (hstate : s.state = r.state) :
    r.Told (s.goto state) := by
  rw [goto]
  split
  · exact told_stay htook hstate
  · rename_i hne
    refine ⟨?_, fun h => ⟨?_, ?_⟩⟩
    · simp [status, shownState, htook]
    · simp
    · dsimp only
      rw [htook, ← List.cons_append]
      refine List.isChain_append.mpr ⟨h.2, List.isChain_singleton _, ?_⟩
      intro x hx y hy
      obtain rfl := Option.some.inj hy
      have hlast : (RecoveryState.idle :: r.took).getLast? = some s.state := by
        rw [List.getLast?_cons, h.1, hstate]
      obtain rfl := Option.some.inj (hlast.symm.trans hx)
      exact hne

lemma Told.append (hp : r.Told p) (hq : p.1.Told q) : r.Told (q.1, p.2 ++ q.2) := by
  refine ⟨?_, fun h => hq.recorded (hp.recorded h)⟩
  rw [List.filterMap_append, ← List.append_assoc, ← hp.shown]
  exact hq.shown

lemma Told.congr (h : s.Told p) (htook : s.took = r.took) (hstate : s.state = r.state) :
    r.Told p := by
  refine ⟨by rw [← htook]; exact h.shown, fun hr => h.recorded ?_⟩
  rw [Recorded, htook, hstate]
  exact hr

lemma told_cancel : r.Told r.cancel := by
  rw [cancel]
  split
  · exact told_stay rfl rfl
  · exact told_goto rfl rfl

lemma told_confirmResume : r.Told r.confirmResume := by
  rw [confirmResume]
  split
  · exact told_stay rfl rfl
  · exact told_goto rfl rfl

lemma told_arrive : r.Told (r.arrive generation) := by
  rw [arrive]
  split
  · rw [advance]
    dsimp only
    split
    · exact told_confirmResume.congr rfl rfl
    · exact told_cancel.congr rfl rfl
  · exact told_stay rfl rfl

lemma told_fold : r.Told (r.fold event) := by
  rcases h : isHuman event with _ | _
  · rw [fold_observed h]
    exact told_stay rfl rfl
  · rw [fold_human h]
    exact told_cancel.congr rfl rfl

lemma told_armBackoff : r.Told (r.armBackoff nowEpoch now) := by
  rw [armBackoff]
  split
  · exact told_goto rfl rfl
  · exact told_goto rfl rfl

lemma told_armWait : r.Told (r.armWait nowEpoch now) := by
  rw [armWait]
  split
  · exact told_goto rfl rfl
  · exact told_armBackoff

lemma told_noteLimit : r.Told (r.noteLimit nowEpoch now limit) := by
  by_cases h : r.Accepts limit
  · rw [noteLimit_accepted h]
    have hdetect : r.Told (r.detect limit) := told_goto rfl rfl
    exact hdetect.append told_armWait
  · rw [noteLimit_ignored h]
    exact told_stay rfl rfl

lemma told_asked {args : List String} : r.Told (r.asked now args) := by
  have h : r.Told (goto { r with attempt := r.attempt + 1, resumedAt := some now } .resuming) :=
    told_goto rfl rfl
  refine ⟨?_, h.recorded⟩
  simp only [asked, List.filterMap_append]
  rw [h.shown]
  simp [shownState]

lemma told_tryResume : r.Told (r.tryResume nowEpoch now provider ctx) := by
  rcases tryResume_cases (r := r) (p := r.tryResume nowEpoch now provider ctx) rfl with
    ⟨-, h⟩ | ⟨-, h⟩ | ⟨-, -, -, h⟩ | ⟨detail, h⟩ | ⟨args, -, -, -, -, h⟩
  · rw [h]
    exact told_cancel
  · rw [h]
    exact told_stay rfl rfl
  · rw [h]
    exact told_armBackoff.congr rfl rfl
  · rw [h]
    exact told_goto rfl rfl
  · rw [h]
    exact told_asked

lemma told_elapse : r.Told (r.elapse nowEpoch now) := by
  rcases elapse_cases (r := r) (p := r.elapse nowEpoch now) rfl with
    ⟨-, -, wait, -, h⟩ | ⟨-, h⟩ | ⟨-, h⟩
  · rw [h]
    exact told_stay rfl rfl
  · rw [h]
    exact told_goto rfl rfl
  · rw [h]
    exact told_armBackoff.congr rfl rfl

lemma told_tick : r.Told (r.tick nowEpoch now provider ctx) := by
  by_cases hready : (r.elapse nowEpoch now).1.state = .readyToResume
  · rw [tick_ready hready]
    exact told_elapse.append told_tryResume
  · rw [tick_unready hready]
    exact told_elapse

lemma told_handle {input : Input} : r.Told (r.handle input) := by
  cases input with
  | event event =>
    rw [handle]
    rcases onEvent_cases r event with h | ⟨generation, -, -, h⟩
    · rw [h]
      exact told_stay rfl rfl
    · rw [h]
      exact told_arrive.append told_fold
  | limit limit nowEpoch now => exact told_noteLimit
  | tick provider ctx nowEpoch now => exact told_tick

end PaneRecovery

namespace World

variable {w t : World} {input : Input} {inputs : List Input} {token : PaneToken}
  {generation : PaneGeneration}

def reports (marks : List Mark) : List String :=
  marks.filterMap (fun
    | .said command => shownState command
    | _ => none)

lemma reports_append (a b : List Mark) : reports (a ++ b) = reports a ++ reports b :=
  List.filterMap_append

lemma reports_said (out : List PluginCommand) :
    reports (out.map .said) = out.filterMap shownState := by
  rw [reports, List.filterMap_map]
  rfl

lemma reports_notes (r : PaneRecovery) (i : Input) : reports (r.notes i) = [] := by
  cases i with
  | event event =>
    simp only [PaneRecovery.notes]
    split <;> rfl
  | limit =>
    simp only [PaneRecovery.notes]
    split <;> rfl
  | tick =>
    simp only [PaneRecovery.notes]
    split <;> rfl

lemma record_run (hrun : run step (opened token generation) inputs = some w) :
    reports w.marks = w.recovery.took.map RecoveryState.asStr ∧ w.recovery.Recorded := by
  refine run_invariant (p := fun w => reports w.marks =
      w.recovery.took.map RecoveryState.asStr ∧ w.recovery.Recorded)
    ?_ ⟨rfl, rfl, List.isChain_singleton _⟩ hrun
  rintro s i t ⟨hshown, hrecorded⟩ ht
  have htold : s.recovery.Told (s.recovery.handle i) := PaneRecovery.told_handle
  rw [step_recovery ht, step_marks ht, reports_append, reports_append, reports_notes,
    List.nil_append, reports_said, hshown]
  exact ⟨htold.shown.symm, htold.recorded hrecorded⟩

end World

end Nightcrow.Recovery
