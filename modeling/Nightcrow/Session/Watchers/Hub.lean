import Nightcrow.Session.Terminal.Panes
import Nightcrow.Session.Watchers.Reload

/-! A hub's worker with its backend and its plugins: opening, closing and losing panes, input,
what the plugins ask for, and reloads, in any order. -/

namespace Nightcrow.Session.Watchers

open Nightcrow.Backend Nightcrow.Library Nightcrow.Plugin
open Nightcrow.Session.Terminal (PaneId PaneSize PaneState Shared)
open Nightcrow.Session.Terminal.Startup (StartupPane startupLabel)

structure Spawning where
  minted : Option PaneToken
  failed : Option SpawnStep
  now : ℕ
deriving DecidableEq, Repr

structure Grant where
  token : PaneToken
  plugin : String
  quoted : Bool
deriving DecidableEq, Repr

/-- The hub's worker, with what an observer keeps: the token every pane was spawned with, and
the grants made. -/
structure PluginHub where
  config : Terminal.Startup.Config
  shared : Shared := {}
  backend : PtyBackend := {}
  plugins : Plugins
  spawned : PaneId → Option PaneToken := fun _ => none
  grants : List Grant := []

inductive Label
  | others (shared : Shared)
  | close (pane : PaneId)
  | create (size : PaneSize) (client : ℕ) (command : Option String) (spawning : Spawning)
  | openStartup (sizes : List PaneSize) (client reserved : ℕ) (spawnings : ℕ → Spawning)
  | input (pane : PaneId)
  | cancelRecovery (pane : PaneId)
  | reload (configs : List (PluginConfig × Bool))
  | output (pane : PaneId) (text : String) (now : ℕ)
  | exited (pane : PaneId) (now : ℕ)
  | notifyIdle (now : ℕ)
  | command (plugin : String) (cmd : PluginCommand) (failed : Option SpawnStep) (now : ℕ)
  | expire (now : ℕ)

namespace PluginHub

variable (h : PluginHub)

def isRelaunchable (pane : PaneId) : Bool :=
  (h.backend.slot pane).any (fun slot => slot.launch.command.isSome)

def paneSpot (pane : PaneId) : Option PaneSpot :=
  (h.shared.panes.findIdx? (·.id = pane)).bind (fun index =>
    h.shared.panes[index]?.map (fun p => { index, size := p.size, title := p.title }))

def titles : List (PaneId × Option String) := h.shared.panes.map (fun p => (p.id, p.title))

def registered (pane : PaneId) (backend : PtyBackend) (size : PaneSize) (client : Option ℕ)
    (title : Option String) : PluginHub :=
  { h with
    backend
    shared := h.shared.registerPane pane size client title
    spawned := Function.update h.spawned pane
      ((backend.slot pane).map (fun slot => slot.identity.token)) }

def closePane (pane : PaneId) : PluginHub :=
  if !h.shared.paneIsLive pane then h
  else
    let h := if (h.plugins.owner pane).isSome then
        { h with
          plugins := (h.plugins.paneClosed h.backend pane).forget h.backend pane
          backend := h.backend.retireSlot pane
          shared := h.shared.endRecovery pane }
      else { h with shared := h.shared.endRecoveryIfReported pane }
    { h with
      backend := h.backend.destroyPane pane
      shared := h.shared.removePaneAndAnnounce pane }

def create (size : PaneSize) (client : ℕ) (command : Option String) (spawning : Spawning) :
    PluginHub :=
  if !h.shared.hasFreeSlot then
    { h with shared := h.shared.sendErrorTo client "terminal limit reached" }
  else
    match h.backend.openPane size command spawning.minted spawning.failed spawning.now with
    | .ok (pane, backend) => h.registered pane backend size (some client) none
    | .error _ => { h with shared := h.shared.sendErrorTo client "could not start a terminal" }

def handed (pane : PaneId) (title plugin : Option String) : PluginHub :=
  match plugin with
  | none => h
  | some name =>
    let h := { h with
      grants := h.grants ++ (h.spawned pane).toList.map (fun token => Grant.mk token name false) }
    match h.plugins.adopt pane name with
    | (true, plugins) => { h with plugins := plugins.paneOpened h.backend pane title }
    | (false, plugins) => { h with plugins }

def openStartupPane (pane : StartupPane) (client : ℕ) (spawning : Spawning) : PluginHub :=
  match h.backend.openPane pane.size pane.command spawning.minted spawning.failed spawning.now with
  | .ok (id, backend) =>
    (h.registered id backend pane.size none pane.title).handed id pane.title pane.plugin
  | .error _ =>
    { h with shared := h.shared.sendErrorTo client ("could not start " ++ startupLabel pane) }

def openStartupPanes (client : ℕ) : ℕ → List (StartupPane × Spawning) → PluginHub → PluginHub
  | held, [], h => { h with shared := h.shared.releaseReserved held }
  | held, (pane, spawning) :: remaining, h =>
    let h := { h with shared := h.shared.releaseReserved (min held 1) }
    if !h.shared.hasFreeSlot then
      let lost := startupLabel pane :: remaining.map (fun e => startupLabel e.1)
      { h with shared := (h.shared.sendErrorTo client ("terminal limit reached — " ++
          String.intercalate ", " lost ++ " did not start")).releaseReserved (held - 1) }
    else openStartupPanes client (held - 1) remaining (h.openStartupPane pane client spawning)

def cancelRecovery (pane : PaneId) : PluginHub :=
  match h.plugins.claimPending pane with
  | none => h
  | some (_, plugins) =>
    { h with
      plugins := (plugins.paneClosed h.backend pane).forget h.backend pane
      backend := h.backend.retireSlot pane
      shared := h.shared.endRecovery pane }

def reload (configs : List (PluginConfig × Bool)) : PluginHub :=
  let r := h.plugins.reload h.backend configs h.config.startup h.titles
  { h with
    plugins := r.plugins
    backend := r.backend
    shared := r.outcome.released.foldl Shared.endRecoveryIfReported
      (r.outcome.retired.foldl Shared.endRecovery h.shared) }

def paneExited (pane : PaneId) (now : ℕ) : PluginHub :=
  if (h.plugins.owner pane).isNone then
    { h with
      backend := h.backend.destroyPane pane
      shared := (h.shared.endRecoveryIfReported pane).removePaneAndAnnounce pane }
  else
    match h.paneSpot pane, h.isRelaunchable pane with
    | some spot, true =>
      let backend := h.backend.releaseProcess pane
      { h with
        backend
        plugins := (h.plugins.holdForRelaunch pane spot now).paneExited backend pane
        shared := h.shared.removePaneAndAnnounce pane }
    | _, _ =>
      { h with
        plugins := (h.plugins.paneClosed h.backend pane).forget h.backend pane
        backend := h.backend.destroyPane pane
        shared := (h.shared.endRecovery pane).removePaneAndAnnounce pane }

def relaunchForPlugin (plugin : String) (pane : PaneId) (resumeArgs : List String)
    (failed : Option SpawnStep) (now : ℕ) : PluginHub :=
  match h.plugins.claimPending pane with
  | none => h
  | some (held, plugins) =>
    if !h.shared.hasFreeSlot then { h with plugins := plugins.restorePending pane held }
    else
      match h.backend.relaunchPane pane held.spot.size resumeArgs
          ((plugins.allowedFlags.lookup plugin).getD []) failed now with
      | (.ok replacement, backend) =>
        let h := h.registered replacement backend held.spot.size none held.spot.title
        { h with
          shared := (h.shared.restorePaneIndex replacement held.spot.index).endRecovery pane
          plugins := (plugins.takeOver pane replacement).paneOpened backend replacement
            held.spot.title }
      | (.error _, backend) => { h with backend, plugins := plugins.restorePending pane held }

def watchPaneForPlugin (plugin : String) (token : PaneToken) (pane : PaneId) : PluginHub :=
  match h.plugins.adopt pane plugin with
  | (true, plugins) =>
    { h with
      plugins := plugins.paneOpened h.backend pane ((h.paneSpot pane).bind (·.title))
      grants := h.grants ++ [{ token, plugin, quoted := true }] }
  | (false, plugins) => { h with plugins }

def carryOut (plugin : String) (cmd : PluginCommand) (failed : Option SpawnStep) (now : ℕ) :
    Approved → PluginHub
  | .sendInput .. | .log .. => h
  | .relaunch pane resumeArgs _ => h.relaunchForPlugin plugin pane resumeArgs failed now
  | .status pane state detail deadlineEpoch attempt =>
    { h with
      shared := h.shared.broadcastRecovery pane
        { state, detail, deadlineEpoch, attempt := attempt.toNat } }
  | .attention pane => { h with shared := h.shared.broadcast (.attention pane none) }
  | .watchPane pane =>
    match cmd.token? with
    | some token => h.watchPaneForPlugin plugin token pane
    | none => h

def dispatch (plugin : String) (cmd : PluginCommand) (failed : Option SpawnStep) (now : ℕ) :
    PluginHub :=
  match h.plugins.judge h.backend plugin cmd now with
  | (.ok approved, plugins) => { h with plugins }.carryOut plugin cmd failed now approved
  | (.error _, plugins) => { h with plugins }

def expirePane (pane : PaneId) : PluginHub :=
  { h with
    plugins := h.plugins.forget h.backend pane
    backend := h.backend.retireSlot pane
    shared := h.shared.endRecovery pane }

def expirePending (now : ℕ) : PluginHub := (h.plugins.expired now).foldl expirePane h

/-- `others` is whatever connection threads and the rest of the worker do to the shared state;
none of it adds or removes a pane. -/
def step : Label → Option PluginHub
  | .others shared =>
    if shared.paneIds.isPerm h.shared.paneIds then some { h with shared } else none
  | .close pane => some (h.closePane pane)
  | .create size client command spawning => some (h.create size client command spawning)
  | .openStartup sizes client reserved spawnings =>
    some (openStartupPanes client reserved
      ((h.config.startupPanes sizes).mapIdx (fun index pane => (pane, spawnings index))) h)
  | .input pane =>
    some (if h.shared.paneIsLive pane then
      { h with plugins := h.plugins.userInput h.backend pane } else h)
  | .cancelRecovery pane => some (h.cancelRecovery pane)
  | .reload configs => some (h.reload configs)
  | .output pane text now =>
    if h.backend.isProcessAlive pane then
      let backend := h.backend.markOutput pane now
      some { h with backend, plugins := h.plugins.paneOutput backend pane text }
    else none
  | .exited pane now =>
    if h.backend.isProcessAlive pane then some (h.paneExited pane now) else none
  | .notifyIdle now => some { h with plugins := h.plugins.notifyIdle h.backend now }
  | .command plugin cmd failed now =>
    if plugin ∈ h.plugins.hosts then some (h.dispatch plugin cmd failed now) else none
  | .expire now => some (h.expirePending now)

def initial (config : Terminal.Startup.Config) (cwd : String)
    (configs : List (PluginConfig × Bool)) : PluginHub :=
  { config, plugins := Plugins.start cwd configs config.startup }

end PluginHub

end Nightcrow.Session.Watchers
