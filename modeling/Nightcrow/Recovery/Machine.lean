import Nightcrow.Plugin.Protocol
import Nightcrow.Recovery.Wait

namespace Nightcrow.Recovery

open Nightcrow.Backend Nightcrow.Plugin

def protocolVersion : UInt32 := 3

def maxResumeAttempts : ℕ := 4

def resumeConfirmSecs : ℕ := 90

def maxResumeArgs : ℕ := 6

def maxResumeArgLen : ℕ := 256

inductive RecoveryState
  | idle
  | limitDetected
  | waitingForReset
  | readyToResume
  | resuming
  | backoff
  | needsAttention
deriving DecidableEq, Repr

def RecoveryState.asStr : RecoveryState → String
  | idle => "idle"
  | limitDetected => "limit_detected"
  | waitingForReset => "waiting_for_reset"
  | readyToResume => "ready_to_resume"
  | resuming => "resuming"
  | backoff => "backoff"
  | needsAttention => "needs_attention"

structure PaneContext where
  token : PaneToken
  generation : PaneGeneration
  cwd : String
  command : Option String

structure LimitEvent where
  sessionId : Option String
  resetsAt : Option ℤ
  detail : String
deriving DecidableEq, Repr

def maxResetHorizonSecs : ℤ := 8 * 24 * 60 * 60

def minPlausibleEpochSecs : ℤ := 1577836800

def plausibleReset (secs nowEpoch : ℤ) : Option ℤ :=
  if secs < minPlausibleEpochSecs then none
  else if saturatingAdd nowEpoch maxResetHorizonSecs < secs then none
  else some secs

inductive ResumePlan
  | relaunch (args : List String)
  | hold (reason : String)
deriving DecidableEq, Repr

abbrev Provider := PaneContext → LimitEvent → Bool → Option ResumePlan

def eventGeneration : PluginEvent → Option PaneGeneration
  | .paneOpened _ _ generation _ _ _ | .paneOutput _ _ generation _ | .paneIdle _ _ generation _
  | .paneExited _ _ generation | .paneClosed _ _ generation | .userInput _ _ generation =>
    some generation
  | .shutdown _ => none

structure PaneRecovery where
  token : PaneToken
  generation : PaneGeneration
  state : RecoveryState := .idle
  limit : Option LimitEvent := none
  wait : Option ResetWait := none
  attempt : ℕ := 0
  alive : Bool := true
  detail : Option String := none
  resumedAt : Option ℕ := none
  took : List RecoveryState := []

def isSafeArgChar (c : Char) : Bool :=
  c.isAlphanum || c ∈ ['.', '_', '-', ':', '/', '=', '@', '+']

def argsAreSafe (args : List String) : Bool :=
  !args.isEmpty && decide (args.length ≤ maxResumeArgs) &&
    args.all (fun a => !a.isEmpty && decide (a.utf8ByteSize ≤ maxResumeArgLen) &&
      a.toList.all isSafeArgChar)

namespace PaneRecovery

variable (r : PaneRecovery) (nowEpoch : ℤ) (now : ℕ)

def deadlineEpoch : Option ℤ := r.wait.map ResetWait.deadlineEpoch

def status : PluginCommand :=
  .status protocolVersion r.token r.generation r.state.asStr r.detail r.deadlineEpoch
    (UInt32.ofNat r.attempt)

def goto (state : RecoveryState) : PaneRecovery × List PluginCommand :=
  if r.state = state then (r, [])
  else
    let r := { r with state, took := r.took ++ [state] }
    (r, [r.status])

def cancel : PaneRecovery × List PluginCommand :=
  let r := { r with wait := none, limit := none, resumedAt := none }
  if r.state = .idle then (r, [])
  else goto { r with detail := some "cancelled" } .idle

def confirmResume : PaneRecovery × List PluginCommand :=
  if r.state ≠ .resuming then (r, [])
  else
    let attempt := if (r.limit.bind LimitEvent.resetsAt).isSome then 0 else r.attempt
    goto { r with attempt, resumedAt := none, limit := none, wait := none, detail := some "resumed" }
      .idle

def advance (generation : PaneGeneration) : PaneRecovery × List PluginCommand :=
  let r := { r with generation, alive := true }
  if r.state = .resuming then r.confirmResume else r.cancel

def fold (event : PluginEvent) : PaneRecovery × List PluginCommand :=
  match event with
  | .paneOpened .. => ({ r with alive := true }, [])
  | .paneExited .. => ({ r with alive := false }, [])
  | .paneClosed .. | .userInput .. => cancel { r with attempt := 0 }
  | .paneOutput .. | .paneIdle .. | .shutdown _ => (r, [])

def onEvent (event : PluginEvent) : Option (PaneRecovery × List PluginCommand) :=
  match eventGeneration event with
  | none => none
  | some generation =>
    if generation < r.generation then none
    else
      let (r, out) := if r.generation < generation then r.advance generation else (r, [])
      let (r, more) := r.fold event
      some (r, out ++ more)

def gaveUp : String := s!"gave up after {maxResumeAttempts} resume attempts"

def armBackoff : PaneRecovery × List PluginCommand :=
  if maxResumeAttempts ≤ r.attempt then
    goto { r with wait := none, detail := some gaveUp } .needsAttention
  else goto { r with wait := some (.backoff (r.attempt + 1) nowEpoch now) } .backoff

def armWait : PaneRecovery × List PluginCommand :=
  match r.limit.bind LimitEvent.resetsAt with
  | some reset => goto { r with wait := some (.untilReset reset nowEpoch now) } .waitingForReset
  | none => r.armBackoff nowEpoch now

def armWaitAfterFailure : PaneRecovery × List PluginCommand :=
  armBackoff { r with detail := some "resume produced no sign of life" } nowEpoch now

def isSameEpisode (limit : LimitEvent) : Bool :=
  match r.limit with
  | none => false
  | some current =>
    decide (r.state ≠ .idle) && decide (current.sessionId = limit.sessionId) &&
      decide (current.resetsAt = limit.resetsAt)

def noteLimit (limit : LimitEvent) : PaneRecovery × List PluginCommand :=
  if r.state = .needsAttention ∨ r.isSameEpisode limit = true then (r, [])
  else
    let (r, out) := goto { r with detail := some limit.detail, limit := some limit } .limitDetected
    let (r, more) := r.armWait nowEpoch now
    (r, out ++ more)

def spendAttempt (command : PluginCommand) : PaneRecovery × List PluginCommand :=
  if maxResumeAttempts ≤ r.attempt then goto { r with detail := some gaveUp } .needsAttention
  else
    let (r, out) := goto { r with attempt := r.attempt + 1, resumedAt := some now } .resuming
    (r, out ++ [command])

def noCommandToRelaunch : String :=
  "this pane has no command to relaunch; start the session again by hand"

def relaunch (args : List String) (ctx : PaneContext) : PaneRecovery × List PluginCommand :=
  if r.alive = true then (r, [])
  else if ctx.command = none then
    goto { r with detail := some noCommandToRelaunch } .needsAttention
  else if argsAreSafe args = false then
    goto { r with detail := some "adapter offered resume args the host would refuse" }
      .needsAttention
  else r.spendAttempt now (.relaunch protocolVersion r.token r.generation args)

def tryResume (provider : Provider) (ctx : PaneContext) : PaneRecovery × List PluginCommand :=
  match r.limit with
  | none => r.cancel
  | some limit =>
    match provider ctx limit r.alive with
    | none => r.armWaitAfterFailure nowEpoch now
    | some (.hold reason) => goto { r with detail := some reason } .needsAttention
    | some (.relaunch args) => r.relaunch now args ctx

def pollWait : Bool × PaneRecovery :=
  match r.wait with
  | none => (false, r)
  | some w =>
    let (elapsed, w) := w.poll nowEpoch now
    (elapsed, { r with wait := some w })

def elapse : PaneRecovery × List PluginCommand :=
  match r.state with
  | .waitingForReset | .backoff =>
    let (elapsed, r) := r.pollWait nowEpoch now
    if elapsed = true then goto { r with wait := none } .readyToResume else (r, [])
  | .resuming =>
    if r.resumedAt.any (fun t => decide (fromSecs resumeConfirmSecs ≤ now - t)) then
      armWaitAfterFailure { r with resumedAt := none } nowEpoch now
    else (r, [])
  | _ => (r, [])

def tick (provider : Provider) (ctx : PaneContext) : PaneRecovery × List PluginCommand :=
  let (r, out) := r.elapse nowEpoch now
  if r.state = .readyToResume then
    let (r, more) := r.tryResume nowEpoch now provider ctx
    (r, out ++ more)
  else (r, out)

end PaneRecovery

inductive Input
  | event (event : PluginEvent)
  | limit (limit : LimitEvent) (nowEpoch : ℤ) (now : ℕ)
  | tick (provider : Provider) (ctx : PaneContext) (nowEpoch : ℤ) (now : ℕ)

def PaneRecovery.handle (r : PaneRecovery) : Input → PaneRecovery × List PluginCommand
  | .event event => (r.onEvent event).getD (r, [])
  | .limit limit nowEpoch now => r.noteLimit nowEpoch now limit
  | .tick provider ctx nowEpoch now => r.tick nowEpoch now provider ctx

end Nightcrow.Recovery
