import Nightcrow.Plugin.Guard

namespace Nightcrow.Plugin

open Nightcrow.Backend

inductive Allowed (minIdle : ℕ) (allowed : List String) :
    PluginCommand → Option PaneFacts → Approved → Prop
  | log (v : UInt32) (level : LogLevel) (message : String) (facts : Option PaneFacts) :
    Allowed minIdle allowed (.log v level message) facts (.log level (truncateMessage message))
  | sendInput (v : UInt32) (token : PaneToken) (data : String) (facts : PaneFacts) :
    facts.optedIn = true → facts.alive = true → minIdle ≤ facts.idle →
    data.utf8ByteSize ≤ maxInputBytes → (∀ c ∈ data.toList, isForbiddenControl c = false) →
    Allowed minIdle allowed (.sendInput v token facts.generation data) (some facts)
      (.sendInput facts.pane data.toUTF8.toList)
  | relaunch (v : UInt32) (token : PaneToken) (resumeArgs : List String) (commandLine : String)
      (facts : PaneFacts) : facts.optedIn = true → facts.alive = false →
    facts.launchCommand ≠ none →
    resumeCommandLine facts.launchCommand resumeArgs allowed = .ok commandLine →
    Allowed minIdle allowed (.relaunch v token facts.generation resumeArgs) (some facts)
      (.relaunch facts.pane resumeArgs commandLine)
  | status (v : UInt32) (token : PaneToken) (state : String) (detail : Option String)
      (deadlineEpoch : Option ℤ) (attempt : UInt32) (facts : PaneFacts) : facts.optedIn = true →
    Allowed minIdle allowed
      (.status v token facts.generation state detail deadlineEpoch attempt) (some facts)
      (.status facts.pane state detail deadlineEpoch attempt)
  | attention (v : UInt32) (token : PaneToken) (facts : PaneFacts) : facts.optedIn = true →
    Allowed minIdle allowed (.attention v token facts.generation) (some facts)
      (.attention facts.pane)
  | watchPane (v : UInt32) (token : PaneToken) (facts : PaneFacts) :
    facts.mayWatchOnSignal = true → facts.watchedByAnother = false → facts.alive = true →
    Allowed minIdle allowed (.watchPane v token) (some facts) (.watchPane facts.pane)

variable {token : PaneToken} {generation : PaneGeneration} {facts : Option PaneFacts}
  {f : PaneFacts}

lemma paneFacts_ok (h : paneFacts token generation facts = .ok f) :
    facts = some f ∧ f.optedIn = true ∧ generation = f.generation := by
  rcases facts with _ | facts
  · cases h
  simp only [paneFacts] at h
  split at h
  · cases h
  · rename_i ho
    split at h
    · cases h
    · rename_i hg
      obtain rfl := Except.ok.inj h
      exact ⟨rfl, by simpa using ho, not_not.mp hg⟩

namespace Guard

variable {g : Guard} {cmd : PluginCommand} {allowed : List String} {now : ℕ} {approved : Approved}

lemma charge_ok {pane : Nightcrow.Session.Terminal.PaneId} {action : RateAction} {a : Approved}
    (h : (g.charge token pane action now a).1 = .ok approved) : approved = a := by
  unfold charge at h
  rcases hs : g.budgets.spend token action pane g.limits now with ⟨_ | _, budgets⟩
  · simp [hs, Except.map] at h
  · simpa [hs, Except.map] using h.symm

lemma allowed_of_judge (h : (g.judge cmd facts allowed now).1 = .ok approved) :
    Allowed g.minIdle allowed cmd facts approved := by
  cases cmd with
  | log v level message =>
    obtain rfl := Except.ok.inj h
    exact .log v level message facts
  | sendInput v token generation data =>
    simp only [judge] at h
    split at h
    · cases h
    rename_i f hf
    obtain ⟨rfl, ho, rfl⟩ := paneFacts_ok hf
    simp only [judgeSendInput] at h
    split at h
    · cases h
    rename_i ha
    split at h
    · cases h
    rename_i hi
    split at h
    · cases h
    rename_i hs
    split at h
    · cases h
    rename_i hc
    obtain rfl := charge_ok h
    refine .sendInput v token data f ho (by simpa using ha) (not_lt.mp hi) (not_lt.mp hs) ?_
    intro c hm
    simpa using List.find?_eq_none.mp hc c hm
  | relaunch v token generation resumeArgs =>
    simp only [judge] at h
    split at h
    · cases h
    rename_i f hf
    obtain ⟨rfl, ho, rfl⟩ := paneFacts_ok hf
    simp only [judgeRelaunch] at h
    split at h
    · cases h
    rename_i ha
    split at h
    · cases h
    rename_i hl
    split at h
    · cases h
    rename_i commandLine hr
    obtain rfl := charge_ok h
    exact .relaunch v token resumeArgs commandLine f ho (by simpa using ha) (by simpa using hl) hr
  | status v token generation state detail deadlineEpoch attempt =>
    simp only [judge] at h
    split at h
    · cases h
    rename_i f hf
    obtain ⟨rfl, ho, rfl⟩ := paneFacts_ok hf
    obtain rfl := Except.ok.inj h
    exact .status v token state detail deadlineEpoch attempt f ho
  | attention v token generation =>
    simp only [judge] at h
    split at h
    · cases h
    rename_i f hf
    obtain ⟨rfl, ho, rfl⟩ := paneFacts_ok hf
    obtain rfl := Except.ok.inj h
    exact .attention v token f ho
  | watchPane v token =>
    simp only [judge, judgeWatch] at h
    split at h
    · cases h
    rename_i f
    split at h
    · cases h
    rename_i hm
    split at h
    · cases h
    rename_i hw
    split at h
    · cases h
    rename_i ha
    obtain rfl := Except.ok.inj h
    exact .watchPane v token f (by simpa using hm) (by simpa using hw) (by simpa using ha)

end Guard

end Nightcrow.Plugin
