import Nightcrow.Library.Table
import Nightcrow.Library.Window
import Nightcrow.Plugin.Protocol

namespace Nightcrow.Plugin

open Nightcrow.Backend Nightcrow.Library
open Nightcrow.Session.Terminal (PaneId)

def defaultRateWindow : ℕ := 60 * 1000000000

structure RateLimits where
  maxSendsPerWindow : UInt32 := 5
  maxRelaunchesPerWindow : UInt32 := 3
  window : ℕ := defaultRateWindow
deriving DecidableEq, Repr

inductive RateAction
  | sendInput
  | relaunch
deriving DecidableEq, Repr

def RateLimits.max (limits : RateLimits) : RateAction → UInt32
  | .sendInput => limits.maxSendsPerWindow
  | .relaunch => limits.maxRelaunchesPerWindow

inductive Refused
  | unknownPane (token : PaneToken)
  | notOptedIn (pane : PaneId) (token : PaneToken)
  | staleGeneration (pane : PaneId) (claimed current : PaneGeneration)
  | paneNotRunning (pane : PaneId)
  | paneBusy (pane : PaneId) (idle minIdle : ℕ)
  | inputTooLarge (pane : PaneId) (bytes limit : ℕ)
  | controlCharacter (pane : PaneId) (code : UInt32)
  | paneStillRunning (pane : PaneId)
  | noLaunchCommand (pane : PaneId)
  | resumeArgsRejected (pane : PaneId) (reason : ResumeError)
  | watchNotAllowed (pane : PaneId) (token : PaneToken)
  | paneWatchedByAnother (pane : PaneId)
  | rateLimited (pane : PaneId) (action : RateAction) (limit : UInt32) (window : ℕ)
deriving DecidableEq, Repr

structure PaneBudget where
  sends : List ℕ := []
  relaunches : List ℕ := []
deriving DecidableEq, Repr

namespace PaneBudget

def stamps (budget : PaneBudget) : RateAction → List ℕ
  | .sendInput => budget.sends
  | .relaunch => budget.relaunches

def withStamps (budget : PaneBudget) (action : RateAction) (stamps : List ℕ) : PaneBudget :=
  match action with
  | .sendInput => { budget with sends := stamps }
  | .relaunch => { budget with relaunches := stamps }

variable {budget : PaneBudget} {action other : RateAction} {new : List ℕ}

@[simp] lemma stamps_withStamps :
    (budget.withStamps action new).stamps other =
      if other = action then new else budget.stamps other := by
  cases action <;> cases other <;> rfl

end PaneBudget

abbrev Budgets := Table PaneToken PaneBudget

namespace Budgets

variable (budgets : Budgets) (token : PaneToken) (action : RateAction)

def stamps : List ℕ := ((AList.lookup token budgets).getD {}).stamps action

def trySpend (limits : RateLimits) (now : ℕ) : Bool × Budgets :=
  let budget := (AList.lookup token budgets).getD {}
  let stamps := recent limits.window now (budget.stamps action)
  if limits.max action ≤ UInt32.ofNat stamps.length then
    (false, AList.insert token (budget.withStamps action stamps) budgets)
  else (true, AList.insert token (budget.withStamps action (stamps ++ [now])) budgets)

def spend (pane : PaneId) (limits : RateLimits) (now : ℕ) : Except Refused Unit × Budgets :=
  match trySpend budgets token action limits now with
  | (true, budgets) => (.ok (), budgets)
  | (false, budgets) =>
    (.error (.rateLimited pane action (limits.max action) limits.window), budgets)

def clear : Budgets := AList.erase token budgets

end Budgets

structure PaneFacts where
  pane : PaneId
  generation : PaneGeneration
  optedIn : Bool
  watchedByAnother : Bool
  mayWatchOnSignal : Bool
  alive : Bool
  idle : ℕ
  launchCommand : Option String
deriving DecidableEq, Repr

inductive Approved
  | sendInput (pane : PaneId) (data : List UInt8)
  | relaunch (pane : PaneId) (resumeArgs : List String) (commandLine : String)
  | status (pane : PaneId) (state : String) (detail : Option String)
      (deadlineEpoch : Option ℤ) (attempt : UInt32)
  | watchPane (pane : PaneId)
  | attention (pane : PaneId)
  | log (level : LogLevel) (message : String)
deriving DecidableEq, Repr

def paneFacts (token : PaneToken) (generation : PaneGeneration) (facts : Option PaneFacts) :
    Except Refused PaneFacts :=
  match facts with
  | none => .error (.unknownPane token)
  | some facts =>
    if !facts.optedIn then .error (.notOptedIn facts.pane token)
    else if generation ≠ facts.generation then
      .error (.staleGeneration facts.pane generation facts.generation)
    else .ok facts

def judgeWatch (token : PaneToken) (facts : Option PaneFacts) : Except Refused Approved :=
  match facts with
  | none => .error (.unknownPane token)
  | some facts =>
    if !facts.mayWatchOnSignal then .error (.watchNotAllowed facts.pane token)
    else if facts.watchedByAnother then .error (.paneWatchedByAnother facts.pane)
    else if !facts.alive then .error (.paneNotRunning facts.pane)
    else .ok (.watchPane facts.pane)

structure Guard where
  minIdle : ℕ
  limits : RateLimits
  budgets : Budgets := ∅

namespace Guard

variable (g : Guard)

def cancel (token : PaneToken) : Guard := { g with budgets := g.budgets.clear token }

def charge (token : PaneToken) (pane : PaneId) (action : RateAction) (now : ℕ)
    (approved : Approved) : Except Refused Approved × Guard :=
  let (paid, budgets) := g.budgets.spend token action pane g.limits now
  (paid.map (fun _ => approved), { g with budgets })

def judgeSendInput (token : PaneToken) (facts : PaneFacts) (data : String) (now : ℕ) :
    Except Refused Approved × Guard :=
  let pane := facts.pane
  if !facts.alive then (.error (.paneNotRunning pane), g)
  else if facts.idle < g.minIdle then (.error (.paneBusy pane facts.idle g.minIdle), g)
  else if maxInputBytes < data.utf8ByteSize then
    (.error (.inputTooLarge pane data.utf8ByteSize maxInputBytes), g)
  else
    match data.toList.find? isForbiddenControl with
    | some bad => (.error (.controlCharacter pane bad.val), g)
    | none =>
      g.charge token pane .sendInput now (.sendInput pane data.toUTF8.toList)

def judgeRelaunch (token : PaneToken) (facts : PaneFacts) (resumeArgs allowed : List String)
    (now : ℕ) : Except Refused Approved × Guard :=
  let pane := facts.pane
  if facts.alive then (.error (.paneStillRunning pane), g)
  else if facts.launchCommand.isNone then (.error (.noLaunchCommand pane), g)
  else
    match resumeCommandLine facts.launchCommand resumeArgs allowed with
    | .error reason => (.error (.resumeArgsRejected pane reason), g)
    | .ok commandLine =>
      g.charge token pane .relaunch now (.relaunch pane resumeArgs commandLine)

def judge (cmd : PluginCommand) (facts : Option PaneFacts) (allowed : List String) (now : ℕ) :
    Except Refused Approved × Guard :=
  match cmd with
  | .log _ level message => (.ok (.log level (truncateMessage message)), g)
  | .sendInput _ token generation data =>
    match paneFacts token generation facts with
    | .error refused => (.error refused, g)
    | .ok facts => g.judgeSendInput token facts data now
  | .relaunch _ token generation resumeArgs =>
    match paneFacts token generation facts with
    | .error refused => (.error refused, g)
    | .ok facts => g.judgeRelaunch token facts resumeArgs allowed now
  | .watchPane _ token => (judgeWatch token facts, g)
  | .attention _ token generation =>
    match paneFacts token generation facts with
    | .error refused => (.error refused, g)
    | .ok facts => (.ok (.attention facts.pane), g)
  | .status _ token generation state detail deadlineEpoch attempt =>
    match paneFacts token generation facts with
    | .error refused => (.error refused, g)
    | .ok facts => (.ok (.status facts.pane state detail deadlineEpoch attempt), g)

end Guard

end Nightcrow.Plugin
