import Nightcrow.Library.Coalesce
import Nightcrow.Library.Table
import Nightcrow.Session.Terminal.Frame

/-! The attach client's inboxes: one for each repository, filled by the reader of the one
connection and drained by each repository's backend. -/

namespace Nightcrow.Daemon

open Nightcrow.Library Nightcrow.Session.Terminal

def usizeMax : ℕ := 2 ^ 64 - 1

def checkedAdd (a b : ℕ) : Option ℕ := if a + b ≤ usizeMax then some (a + b) else none

def saturatingAdd (a b : ℕ) : ℕ := min (a + b) usizeMax

-- `none` is the underflow
def checkedSub (a b : ℕ) : Option ℕ := if b ≤ a then some (a - b) else none

def terminalInboxBytes : ℕ := 256 * 1024 * 1024
def terminalDrainMessages : ℕ := 64
def terminalDrainBytes : ℕ := 256 * 1024
def terminalInboxMessages : ℕ := 4096

inductive TerminalMessage
  | event (message : ServerMessage)
  | output (pane : PaneId) (data : List UInt8)
deriving DecidableEq

def TerminalMessage.outputBytes : TerminalMessage → ℕ
  | .output _ data => data.length
  | .event _ => 0

structure TerminalInboxOverflow where
  queued : ℕ
  incoming : ℕ
  limit : ℕ
  messages : ℕ
  messageLimit : ℕ
deriving DecidableEq

def fits (tail : Option TerminalMessage) (incoming : TerminalMessage) (maxBytes : ℕ) : Bool :=
  match tail, incoming with
  | some (.output queuedPane queuedData), .output pane data =>
    queuedPane == pane && (checkedAdd queuedData.length data.length).any (· ≤ maxBytes)
  | _, _ => false

def appendToFittingTail (inbox : List TerminalMessage) (message : TerminalMessage) :
    Option (List TerminalMessage) :=
  -- `none` is one of the two arms the source marks unreachable
  match message, inbox.getLast? with
  | .output _ data, some (.output queuedPane queuedData) =>
    some (inbox.dropLast ++ [.output queuedPane (queuedData ++ data)])
  | _, _ => none

structure RouterState where
  inboxes : Table String (List TerminalMessage) := ∅
  queuedOutputBytes : ℕ := 0
  queuedMessages : ℕ := 0
  overflowed : Bool := false

structure TerminalRouter where
  state : RouterState := {}
  byteLimit : ℕ := terminalInboxBytes
  messageLimit : ℕ := terminalInboxMessages

namespace TerminalRouter

variable (r : TerminalRouter)

def inbox (repo : String) : List TerminalMessage := (r.state.inboxes.lookup repo).getD []

def bytesFit (message : TerminalMessage) : Bool :=
  (checkedAdd r.state.queuedOutputBytes message.outputBytes).any (· ≤ r.byteLimit)

def coalesces (repo : String) (message : TerminalMessage) : Bool :=
  fits ((r.state.inboxes.lookup repo).bind List.getLast?) message terminalDrainBytes

def accepts (repo : String) (message : TerminalMessage) : Bool :=
  !r.state.overflowed && r.bytesFit message &&
    (r.coalesces repo message || r.state.queuedMessages < r.messageLimit)

def overflow (message : TerminalMessage) : TerminalInboxOverflow where
  queued := r.state.queuedOutputBytes
  incoming := message.outputBytes
  limit := r.byteLimit
  messages := r.state.queuedMessages
  messageLimit := r.messageLimit

def deliver (repo : String) (message : TerminalMessage) :
    Option (Except TerminalInboxOverflow Unit × TerminalRouter) :=
  if r.accepts repo message then
    let coalesces := r.coalesces repo message
    let inbox := r.inbox repo
    (if coalesces then appendToFittingTail inbox message else some (inbox ++ [message])).map
      fun inbox =>
        (.ok (),
          { r with
            state :=
              { r.state with
                queuedOutputBytes := r.state.queuedOutputBytes + message.outputBytes
                queuedMessages :=
                  if coalesces then r.state.queuedMessages else r.state.queuedMessages + 1
                inboxes := r.state.inboxes.insert repo inbox } })
  else
    some (.error (r.overflow message), { r with state := { r.state with overflowed := true } })

def drainLoop (drained : List TerminalMessage) (outputBytes : ℕ) :
    List TerminalMessage → List TerminalMessage × ℕ × List TerminalMessage
  | [] => (drained, outputBytes, [])
  | next :: inbox =>
    if drained.length < terminalDrainMessages then
      if drained ≠ [] ∧ terminalDrainBytes < saturatingAdd outputBytes next.outputBytes then
        (drained, outputBytes, next :: inbox)
      else drainLoop (drained ++ [next]) (outputBytes + next.outputBytes) inbox
    else (drained, outputBytes, next :: inbox)

def drain (repo : String) : Option (List TerminalMessage × TerminalRouter) :=
  match r.state.inboxes.lookup repo with
  | none => some ([], r)
  | some inbox =>
    let (drained, outputBytes, rest) := drainLoop [] 0 inbox
    (checkedSub r.state.queuedOutputBytes outputBytes).bind fun queuedOutputBytes =>
      (checkedSub r.state.queuedMessages drained.length).map fun queuedMessages =>
        (drained,
          { r with
            state :=
              { r.state with
                queuedOutputBytes
                queuedMessages
                inboxes := r.state.inboxes.insert repo rest } })

def bytesOf (inbox : List TerminalMessage) : ℕ := (inbox.map (·.outputBytes)).sum

def retain (openRepos : List String) : Option TerminalRouter :=
  let gone := r.state.inboxes.keep (· ∉ openRepos)
  (checkedSub r.state.queuedOutputBytes (gone.total bytesOf)).bind fun queuedOutputBytes =>
    (checkedSub r.state.queuedMessages (gone.total List.length)).map fun queuedMessages =>
      { r with
        state :=
          { r.state with
            queuedOutputBytes
            queuedMessages
            inboxes := r.state.inboxes.keep (· ∈ openRepos) } }

end TerminalRouter

end Nightcrow.Daemon
