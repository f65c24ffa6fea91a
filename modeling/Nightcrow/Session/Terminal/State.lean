import Nightcrow.Library.Channel
import Nightcrow.Runtime.Emulator.Modes
import Nightcrow.Session.Terminal.Frame

/-! The state a hub's worker and its connection threads share, and how a frame reaches the
clients registered in it. -/

namespace Nightcrow.Session.Terminal

open Nightcrow.Library Nightcrow.Runtime.Emulator

def clientQueueDepth : ℕ := 256

def maxPtysPerRepo : ℕ := 8

def defaultPaneSize : PaneSize := ⟨24, 80⟩

def maxTerminalScrollbackBytes : ℕ := 256 * 1024

structure PaneState where
  id : PaneId
  title : Option String
  scrollback : List UInt8 := []
  normalScreen : List UInt8 := []
  covered : ℕ := 0
  screen : List UInt8 := []
  since : List UInt8 := []
  size : PaneSize
  modes : PaneModes := {}
deriving DecidableEq, Repr

structure RecoveryReport where
  state : String
  detail : Option String
  deadlineEpoch : Option ℤ
  attempt : ℕ
deriving DecidableEq, Repr

structure Client where
  id : ℕ
  replayHeld : Option (List TerminalFrame)
  connection : Option ℕ := none
deriving DecidableEq, Repr

/-- The shared state, with the queues of all clients that ever connected and the clients
whose sockets were shut down because they stopped keeping up. -/
structure Shared where
  clients : List Client := []
  panes : List PaneState := []
  reserved : ℕ := 0
  zoomed : Option PaneId := none
  recovery : Std.TreeMap PaneId RecoveryReport := ∅
  queues : ℕ → Chan TerminalFrame := fun _ => { depth := 0 }
  cutOff : List ℕ := []

inductive Queued
  | kept
  | cutOff
  | gone
deriving DecidableEq, Repr

def queueLocked (client : Client) (tx : Chan TerminalFrame) (frame : TerminalFrame) :
    Queued × Client × Chan TerminalFrame :=
  match client.replayHeld with
  | some held =>
    if held.length < clientQueueDepth then
      (.kept, { client with replayHeld := some (held ++ [frame]) }, tx)
    else (.cutOff, client, tx)
  | none =>
    match tx.trySend frame with
    | .ok tx => (.kept, client, tx)
    | .error .full => (.cutOff, client, tx)
    | .error .disconnected => (.gone, client, tx)

def Client.retained (client : Client) (tx : Chan TerminalFrame) (frame : TerminalFrame) :
    Option Client :=
  match queueLocked client tx frame with
  | (.kept, client, _) => some client
  | _ => none

namespace Shared

variable (s : Shared)

def client? (id : ℕ) : Option Client := s.clients.find? (·.id = id)

def pane? (pane : PaneId) : Option PaneState := s.panes.find? (·.id = pane)

def paneIds : List PaneId := s.panes.map (·.id)

def paneIsLive (pane : PaneId) : Bool := s.panes.any (·.id = pane)

def queued (id : ℕ) (frame : TerminalFrame) : Chan TerminalFrame :=
  match s.client? id with
  | some client => (queueLocked client (s.queues id) frame).2.2
  | none => s.queues id

def broadcastLocked (frame : TerminalFrame) : Shared :=
  -- every client has a queue of its own, so they are served independently
  { s with
    clients := s.clients.filterMap (fun c => c.retained (s.queues c.id) frame)
    queues := fun id => s.queued id frame
    cutOff := s.cutOff ++ (s.clients.filter
      (fun c => (queueLocked c (s.queues c.id) frame).1 = .cutOff)).map (·.id) }

def broadcast (message : ServerMessage) : Shared := s.broadcastLocked (.control message)

def queueTo (id : ℕ) (frame : TerminalFrame) : Shared :=
  match s.client? id with
  | none => s
  | some client =>
    { s with
      clients := s.clients.filterMap
        (fun c => if c.id = id then c.retained (s.queues id) frame else some c)
      queues := Function.update s.queues id (s.queued id frame)
      cutOff := if (queueLocked client (s.queues id) frame).1 = .cutOff then s.cutOff ++ [id]
        else s.cutOff }

def sendTo (id : ℕ) (message : ServerMessage) : Shared := s.queueTo id (.control message)

def sendErrorTo (id : ℕ) (message : String) : Shared := s.sendTo id (.error message)

def removeClient (id : ℕ) : Shared :=
  { s with clients := s.clients.filter (·.id ≠ id) }

def updatePane (pane : PaneId) (f : PaneState → PaneState) : Shared :=
  { s with panes := s.panes.map (fun p => if p.id = pane then f p else p) }

end Shared

end Nightcrow.Session.Terminal
