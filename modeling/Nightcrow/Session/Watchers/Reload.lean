import Nightcrow.Session.Watchers.State

namespace Nightcrow.Session.Watchers

open Nightcrow.Backend Nightcrow.Library Nightcrow.Plugin
open Nightcrow.Session.Terminal (PaneId)
open Nightcrow.Session.Terminal.Startup (StartupCommand)

structure PluginReload where
  started : List String := []
  stopped : List String := []
  restarted : List String := []
  retired : List PaneId := []
  released : List PaneId := []
deriving DecidableEq, Repr

structure Reloading where
  plugins : Plugins
  backend : PtyBackend
  outcome : PluginReload := {}

namespace Plugins

variable (p : Plugins)

def isWanted (startup : List StartupCommand) (cfg : PluginConfig) : Bool :=
  cfg.enabled &&
    (startup.any (fun sc => sc.plugin = some cfg.name) || cfg.watchOnSignal ||
      p.owners.entries.any (fun e => e.2 = cfg.name))

def specChanged (cfg : PluginConfig) : Bool :=
  match p.launched.lookup cfg.name with
  | some was => was.command ≠ cfg.command || was.args ≠ cfg.args || was.env ≠ cfg.env
  | none => false

end Plugins

namespace Reloading

variable (r : Reloading)

def handOver (name : String) (titles : List (PaneId × Option String)) (pane : PaneId) :
    Reloading :=
  { r with
    plugins := ({ r.plugins with owners := r.plugins.owners.insert pane name } : Plugins).paneOpened
      r.backend pane ((titles.lookup pane).getD none) }

def optedIn (name : String) (titles : List (PaneId × Option String)) : List PaneId :=
  (r.plugins.intended.entries.filter
    (fun e => e.2 = name && (titles.lookup e.1).isSome)).map (·.1)

def startHost (cfg : PluginConfig) (up : Bool) (titles : List (PaneId × Option String)) :
    Bool × Reloading :=
  -- `up` is whether the child comes up
  if up then
    let p := r.plugins.setWatchOnSignal cfg.name cfg.watchOnSignal
    let r := { r with
      plugins := { p with
        allowedFlags := p.allowedFlags.insert cfg.name cfg.allowedResumeFlags
        launched := p.launched.insert cfg.name cfg
        hosts := p.hosts.insert cfg.name {} } }
    let r := (r.optedIn cfg.name titles).foldl (fun r pane => r.handOver cfg.name titles pane) r
    (true, { r with outcome := { r.outcome with started := r.outcome.started ++ [cfg.name] } })
  else (false, r)

def release (pane : PaneId) : Reloading :=
  { r with
    plugins := r.plugins.releasePane r.backend pane
    outcome := { r.outcome with released := r.outcome.released ++ [pane] } }

def abandon (name : String) : Reloading :=
  let p := r.plugins.setWatchOnSignal name false
  let r := { r with plugins := { p with allowedFlags := p.allowedFlags.erase name } }
  let r := (r.plugins.panesOf name).foldl release r
  { r with
    outcome := { r.outcome with
      restarted := r.outcome.restarted.filter (· ≠ name)
      stopped := r.outcome.stopped ++ [name] } }

def retireHold (pane : PaneId) : Reloading :=
  match r.plugins.claimPending pane with
  | none => r
  | some (_, plugins) =>
    { plugins := plugins.releasePane r.backend pane
      backend := r.backend.retireSlot pane
      outcome := { r.outcome with retired := r.outcome.retired ++ [pane] } }

def retireHoldsOf (name : String) : Reloading :=
  (r.plugins.panesOf name).foldl retireHold r

def stopHost (name : String) (replaced : Bool) : Reloading :=
  let r := { r with
    plugins := { r.plugins with
      hosts := r.plugins.hosts.erase name
      launched := r.plugins.launched.erase name } }
  let r := r.retireHoldsOf name
  if replaced then
    { r with outcome := { r.outcome with restarted := r.outcome.restarted ++ [name] } }
  else r.abandon name

def settle (titles : List (PaneId × Option String)) (cfg : PluginConfig) (up : Bool) : Reloading :=
  if cfg.name ∈ r.plugins.hosts then
    let p := { r.plugins with
      allowedFlags := r.plugins.allowedFlags.insert cfg.name cfg.allowedResumeFlags }
    { r with plugins := p.setWatchOnSignal cfg.name cfg.watchOnSignal }
  else
    match r.startHost cfg up titles with
    | (true, r) => r
    | (false, r) => r.abandon cfg.name

end Reloading

namespace Plugins

def reload (p : Plugins) (b : PtyBackend) (configs : List (PluginConfig × Bool))
    (startup : List StartupCommand) (titles : List (PaneId × Option String)) : Reloading :=
  let wanted := configs.filter (fun cfg => p.isWanted startup cfg.1)
  let keep := (wanted.filter (fun cfg => !p.specChanged cfg.1)).map (·.1.name)
  let leaving := p.hosts.keys.filter (fun name => name ∉ keep)
  let r := leaving.foldl
    (fun r name => r.stopHost name (wanted.any (fun cfg => cfg.1.name = name)))
    { plugins := p, backend := b }
  wanted.foldl (fun r cfg => r.settle titles cfg.1 cfg.2) r

end Plugins

end Nightcrow.Session.Watchers
