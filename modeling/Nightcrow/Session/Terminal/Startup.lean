import Nightcrow.Library.Runs
import Nightcrow.Library.Text
import Nightcrow.Session.Terminal.Connect

/-! The startup terminals of a hub: offered to every client, claimed by the first that answers,
opened once by the worker. Each step is one lock hold, one atomic operation or one queue push
of a connection thread or of the worker. -/

namespace Nightcrow.Session.Terminal.Startup

open Nightcrow.Library

def commandQueueDepth : ℕ := 256

structure StartupCommand where
  command : String
  name : Option String
  plugin : Option String
deriving DecidableEq, Repr

structure StartupPane where
  size : PaneSize
  command : Option String
  title : Option String
  plugin : Option String
deriving DecidableEq, Repr

structure Config where
  startup : List StartupCommand
  autoOpen : Bool

namespace Config

variable (config : Config)

def startupCount : ℕ :=
  if config.startup.isEmpty && config.autoOpen then 1 else config.startup.length

def configured : List (Option StartupCommand) :=
  if config.startup.isEmpty && config.autoOpen then [none] else config.startup.map some

def startupPanes (sizes : List PaneSize) : List StartupPane :=
  config.configured.mapIdx (fun index configured =>
    { size := sizes[index]?.getD defaultPaneSize
      title := configured.map (fun c => c.name.getD (trim c.command))
      plugin := configured.bind (·.plugin)
      command := configured.map (·.command) })

end Config

def startupLabel (pane : StartupPane) : String :=
  match pane.command with
  | some command => "`" ++ command ++ "`"
  | none => "a shell"

inductive Command
  | create (size : PaneSize) (client : ℕ)
  | createStartup (panes : List StartupPane) (client : ℕ) (reserved : ℕ)
  | other
deriving DecidableEq

/-- How far a thread is in `claim_startup`: it set `started`, reserved slots, had its batch
refused by a full queue, gave the slots back, and cleared `started` again. -/
inductive Claim
  | won (client : ℕ) (sizes : List PaneSize)
  | reserved (panes : List StartupPane) (client : ℕ) (slots : ℕ)
  | refused (slots : ℕ)
  | released
  | reopened

inductive Request
  | create (size : PaneSize) (client : ℕ)
  | relaunch (size : PaneSize) (title : Option String) (index : ℕ)

inductive Work
  | idle
  | requested (request : Request)
  | granted (request : Request)
  | restoring (pane : PaneId) (index : ℕ)
  | starting (remaining : List StartupPane) (client : ℕ) (held : ℕ)
  | freed (pane : StartupPane) (remaining : List StartupPane) (client : ℕ) (held : ℕ)
      (spent : Bool)
  | opening (pane : StartupPane) (remaining : List StartupPane) (client : ℕ) (held : ℕ)
  | finishing (held : ℕ)
  | returned

inductive Stage
  | absent
  | framing (greeting : Greeting)
  | framed
  | attached
  | offering
  | returned
  | gone

/-- The hub, with what an observer counts: batches the queue accepted, claims it refused, the
number of refused claims when each client was last sent an offer, and startup panes that had a
slot reserved and were refused for want of one. -/
structure Hub where
  shared : Shared := {}
  stopped : Bool := false
  started : Bool := false
  commands : List Command := []
  worker : Work := .idle
  claims : ℕ → Option Claim := fun _ => none
  stages : ℕ → Stage := fun _ => .absent
  handed : ℕ := 0
  failures : ℕ := 0
  offeredAt : ℕ → Option ℕ := fun _ => none
  refused : ℕ := 0

inductive Label
  | connect (client : ℕ)
  | frame (client : ℕ)
  | attach (client : ℕ) (connection : ℕ)
  | check (client : ℕ)
  | offer (client : ℕ)
  | disconnect (client : ℕ)
  | claim (thread : ℕ) (client : ℕ) (sizes : List PaneSize)
  | reserve (thread : ℕ)
  | submit (thread : ℕ)
  | giveBack (thread : ℕ)
  | reopen (thread : ℕ)
  | reoffer (thread : ℕ)
  | submitCreate (size : PaneSize) (client : ℕ)
  | submitOther
  | broadcast (frame : TerminalFrame)
  | send (client : ℕ) (frame : TerminalFrame)
  | offerFrame (client : ℕ) (frame : TerminalFrame)
  | recv (client : ℕ)
  | take
  | relaunch (size : PaneSize) (title : Option String) (index : ℕ)
  | checkSlot
  | opened (pane : Option PaneId)
  | restore
  | spend
  | closePane (pane : PaneId)
  | stop
  | shutDown

namespace Hub

variable (config : Config) (h : Hub)

def setClaim (thread : ℕ) (claim : Option Claim) : Hub :=
  { h with claims := Function.update h.claims thread claim }

def setStage (client : ℕ) (stage : Stage) : Hub :=
  { h with stages := Function.update h.stages client stage }

def accepts : Bool :=
  h.commands.length < commandQueueDepth && !(h.worker matches .returned)

def pendingFrame : TerminalFrame := .control (.pending config.startupCount)

def connection : Label → Option Hub
  | .connect client =>
    match h.stages client with
    | .absent => some ({ h with shared := h.shared.registerClient client }.setStage client
        (.framing (h.shared.greeting client h.stopped)))
    | _ => none
  | .frame client =>
    match h.stages client with
    | .framing greeting =>
      let (complete, shared) := h.shared.frameReplay greeting
      some ({ h with shared }.setStage client (if complete then .framed else .gone))
    | _ => none
  | .attach client connection =>
    match h.stages client with
    | .framed => some ({ h with shared := h.shared.releaseHeld client connection }.setStage client
        .attached)
    | _ => none
  | .check client =>
    match h.stages client with
    | .attached => some (h.setStage client
        (if 0 < config.startupCount && !h.stopped && !h.started then .offering else .returned))
    | _ => none
  | .offer client =>
    match h.stages client with
    | .offering => some ({ h with
        shared := h.shared.queueTo client (pendingFrame config)
        offeredAt := Function.update h.offeredAt client (some h.failures) }.setStage client
          .returned)
    | _ => none
  | .disconnect client =>
    match h.stages client with
    | .returned => some ({ h with shared := h.shared.removeClient client }.setStage client .gone)
    | _ => none
  | _ => none

def claiming : Label → Option Hub
  -- the steps of a thread in `claim_startup`
  | .claim thread client sizes =>
    match h.claims thread with
    | none =>
      if h.started then some h
      else some ({ h with started := true }.setClaim thread (some (.won client sizes)))
    | some _ => none
  | .reserve thread =>
    match h.claims thread with
    | some (.won client sizes) =>
      let panes := config.startupPanes sizes
      let free := maxPtysPerRepo - (h.shared.panes.length + h.shared.reserved)
      let slots := min panes.length free
      some ({ h with shared := { h.shared with reserved := h.shared.reserved + slots } }.setClaim
        thread (some (.reserved panes client slots)))
    | _ => none
  | .submit thread =>
    match h.claims thread with
    | some (.reserved panes client slots) =>
      if h.accepts then
        some ({ h with
          commands := h.commands ++ [Command.createStartup panes client slots]
          handed := h.handed + 1 }.setClaim thread none)
      else some ({ h with failures := h.failures + 1 }.setClaim thread (some (.refused slots)))
    | _ => none
  | .giveBack thread =>
    match h.claims thread with
    | some (.refused slots) => some ({ h with
        shared := h.shared.releaseReserved slots }.setClaim thread (some .released))
    | _ => none
  | .reopen thread =>
    match h.claims thread with
    | some .released => some ({ h with started := false }.setClaim thread (some .reopened))
    | _ => none
  | .reoffer thread =>
    match h.claims thread with
    | some .reopened =>
      if config.startupCount = 0 then some (h.setClaim thread none)
      else some ({ h with
        shared := h.shared.broadcastLocked (pendingFrame config)
        offeredAt := fun id => if id ∈ h.shared.clientIds then some h.failures
          else h.offeredAt id }.setClaim thread none)
    | _ => none
  | _ => none

def traffic : Label → Option Hub
  | .submitCreate size client =>
    if h.accepts then
      some { h with commands := h.commands ++ [Command.create size client] }
    else none
  | .submitOther =>
    if h.accepts then
      some { h with commands := h.commands ++ [Command.other] }
    else none
  | .broadcast frame => some { h with shared := h.shared.broadcastLocked frame }
  | .stop => some { h with stopped := true }
  | .send client frame => some { h with shared := h.shared.queueTo client frame }
  | .offerFrame client frame => some { h with shared := { h.shared with
      queues := Function.update h.shared.queues client ((h.shared.queues client).offer frame) } }
  | .recv client => (h.shared.queues client).recv.map (fun r => { h with shared := { h.shared with
      queues := Function.update h.shared.queues client r.2 } })
  | _ => none

def lostMessage (pane : StartupPane) (remaining : List StartupPane) : String :=
  "terminal limit reached — " ++ ", ".intercalate ((pane :: remaining).map startupLabel) ++
    " did not start"

def working : Label → Option Hub
  | .take =>
    match h.worker, h.commands with
    | .idle, .create size client :: rest =>
      some { h with commands := rest, worker := .requested (.create size client) }
    | .idle, .createStartup panes client reserved :: rest =>
      some { h with commands := rest, worker := .starting panes client reserved }
    | .idle, .other :: rest => some { h with commands := rest }
    | _, _ => none
  | .relaunch size title index =>
    match h.worker with
    | .idle => some { h with worker := .requested (.relaunch size title index) }
    | _ => none
  | .checkSlot =>
    match h.worker with
    | .requested request =>
      if h.shared.hasFreeSlot then some { h with worker := .granted request }
      else
        match request with
        | .create _ client => some { h with
            worker := .idle
            shared := h.shared.sendErrorTo client "terminal limit reached" }
        | .relaunch .. => some { h with worker := .idle }
    | .freed pane remaining client held spent =>
      if h.shared.hasFreeSlot then some { h with worker := .opening pane remaining client held }
      else some { h with
        worker := .finishing held
        shared := h.shared.sendErrorTo client (lostMessage pane remaining)
        refused := h.refused + held + if spent then 1 else 0 }
    | _ => none
  | .opened pane? =>
    match h.worker, pane? with
    | .granted (.create size client), some pane => some { h with
        worker := .idle
        shared := h.shared.registerPane pane size (some client) none }
    | .granted (.create _ client), none => some { h with
        worker := .idle
        shared := h.shared.sendErrorTo client "could not start a terminal" }
    | .granted (.relaunch size title index), some pane => some { h with
        worker := .restoring pane index
        shared := h.shared.registerPane pane size none title }
    | .granted (.relaunch ..), none => some { h with worker := .idle }
    | .opening startup remaining client held, some pane => some { h with
        worker := .starting remaining client held
        shared := h.shared.registerPane pane startup.size none startup.title }
    | .opening startup remaining client held, none => some { h with
        worker := .starting remaining client held
        shared := h.shared.sendErrorTo client ("could not start " ++ startupLabel startup) }
    | _, _ => none
  | .restore =>
    match h.worker with
    | .restoring pane index => some { h with
        worker := .idle
        shared := h.shared.restorePaneIndex pane index }
    | _ => none
  | .spend =>
    match h.worker with
    | .starting (pane :: remaining) client (held + 1) => some { h with
        worker := .freed pane remaining client held true
        shared := h.shared.releaseReserved 1 }
    | .starting (pane :: remaining) client 0 =>
      some { h with worker := .freed pane remaining client 0 false }
    | .starting [] _ held => some { h with
        worker := .idle
        shared := h.shared.releaseReserved held }
    | .finishing held => some { h with
        worker := .idle
        shared := h.shared.releaseReserved held }
    | _ => none
  | .closePane pane =>
    match h.worker with
    | .idle => some { h with shared := h.shared.removePaneAndAnnounce pane }
    | _ => none
  | .shutDown =>
    match h.worker, h.stopped with
    | .idle, true => some { h with worker := .returned, commands := [], shared := h.shared.windDown }
    | _, _ => none
  | _ => none

def step (l : Label) : Option Hub :=
  (h.connection config l).orElse fun _ =>
    (h.claiming config l).orElse fun _ => (h.traffic l).orElse fun _ => h.working l

end Hub

end Nightcrow.Session.Terminal.Startup
