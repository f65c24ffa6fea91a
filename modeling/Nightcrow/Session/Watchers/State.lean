import Nightcrow.Backend.Pty
import Nightcrow.Plugin.Guard
import Nightcrow.Session.Terminal.Startup

namespace Nightcrow.Session.Watchers

open Nightcrow.Backend Nightcrow.Library Nightcrow.Plugin
open Nightcrow.Session.Terminal (PaneId PaneSize)
open Nightcrow.Session.Terminal.Startup (StartupCommand)

def paneIdleThreshold : ℕ := 10 * 1000000000

def pendingRelaunchTtl : ℕ := 9 * 24 * 60 * 60 * 1000000000

def commandDrainPace : ℕ := 8 * 1000000

structure PluginConfig where
  name : String
  command : String
  args : List String := []
  env : List (String × String) := []
  allowedResumeFlags : List String := []
  enabled : Bool := false
  watchOnSignal : Bool := false
deriving DecidableEq, Repr

structure PluginHost where
  told : List PluginEvent := []
deriving DecidableEq, Repr

def PluginHost.send (host : PluginHost) (event : PluginEvent) : PluginHost :=
  { told := host.told ++ [event] }

structure PaneSpot where
  index : ℕ
  size : PaneSize
  title : Option String
deriving DecidableEq, Repr

structure Pending where
  spot : PaneSpot
  deadline : ℕ
deriving DecidableEq, Repr

structure Plugins where
  hosts : Table String PluginHost := ∅
  launched : Table String PluginConfig := ∅
  owners : Table PaneId String := ∅
  intended : Table PaneId String := ∅
  allowedFlags : Table String (List String) := ∅
  watchOnSignal : Finset String := ∅
  guard : Guard := { minIdle := paneIdleThreshold, limits := {} }
  pending : Table PaneId Pending := ∅
  idleAnnounced : Finset PaneId := ∅
  cwd : String := ""
  commandsCapped : Bool := false

namespace Plugins

variable (p : Plugins) (b : PtyBackend)

def owner (pane : PaneId) : Option String := p.owners.lookup pane

def panesOf (name : String) : List PaneId :=
  (p.owners.entries.filter (fun e => e.2 = name)).map (·.1)

def setWatchOnSignal (name : String) (allowed : Bool) : Plugins :=
  { p with
    watchOnSignal := if allowed then insert name p.watchOnSignal else p.watchOnSignal.erase name }

def startHosts (startup : List StartupCommand) : List (PluginConfig × Bool) → Plugins → Plugins
  | [], p => p
  | (cfg, up) :: configs, p =>
    let optedIn := startup.any (fun sc => sc.plugin = some cfg.name)
    if !cfg.enabled || !(optedIn || cfg.watchOnSignal) || !up then startHosts startup configs p
    else
      startHosts startup configs
        { p with
          allowedFlags := p.allowedFlags.insert cfg.name cfg.allowedResumeFlags
          watchOnSignal := if cfg.watchOnSignal then insert cfg.name p.watchOnSignal
            else p.watchOnSignal
          launched := p.launched.insert cfg.name cfg
          hosts := p.hosts.insert cfg.name {} }

def start (cwd : String) (configs : List (PluginConfig × Bool)) (startup : List StartupCommand) :
    Plugins :=
  startHosts startup configs { cwd }

def adopt (pane : PaneId) (plugin : String) : Bool × Plugins :=
  let p := { p with intended := p.intended.insert pane plugin }
  if plugin ∈ p.hosts then (true, { p with owners := p.owners.insert pane plugin })
  else (false, p)

def sendFor (pane : PaneId) (build : PaneToken → PaneGeneration → PluginEvent) : Plugins :=
  match p.owners.lookup pane with
  | none => p
  | some name =>
    match p.hosts.lookup name with
    | none => p
    | some host =>
      match b.slot pane with
      | none => p
      | some slot =>
        { p with
          hosts := p.hosts.insert name
            (host.send (build slot.identity.token slot.identity.generation)) }

def paneOpened (pane : PaneId) (title : Option String) : Plugins :=
  p.sendFor b pane (fun token generation =>
    .paneOpened protocolVersion token generation title
      ((b.slot pane).bind (·.launch.command)) p.cwd)

def paneOutput (pane : PaneId) (text : String) : Plugins :=
  -- `text` is what stripping the escapes of a chunk leaves of it
  if pane ∉ p.owners then p
  else
    let p := { p with idleAnnounced := p.idleAnnounced.erase pane }
    if text.isEmpty then p
    else p.sendFor b pane (fun token generation =>
      .paneOutput protocolVersion token generation text)

def paneExited (pane : PaneId) : Plugins :=
  p.sendFor b pane (fun token generation => .paneExited protocolVersion token generation)

def paneClosed (pane : PaneId) : Plugins :=
  p.sendFor b pane (fun token generation => .paneClosed protocolVersion token generation)

def cancel (pane : PaneId) : Plugins :=
  match b.slot pane with
  | some slot => { p with guard := p.guard.cancel slot.identity.token }
  | none => p

def userInput (pane : PaneId) : Plugins :=
  if pane ∉ p.owners then p
  else
    (p.sendFor b pane
      (fun token generation => .userInput protocolVersion token generation)).cancel b pane

def idleDue (now : ℕ) : List (PaneId × UInt64) :=
  (p.owners.keys.filter (fun pane => pane ∉ p.idleAnnounced && b.isProcessAlive pane)).filterMap
    (fun pane => (b.slot pane).bind (fun slot =>
      if paneIdleThreshold ≤ slot.idleFor now then
        some (pane, UInt64.ofNat (slot.idleFor now / 1000000))
      else none))

def notifyIdle (now : ℕ) : Plugins :=
  (p.idleDue b now).foldl
    (fun p due =>
      let p := p.sendFor b due.1 (fun token generation =>
        .paneIdle protocolVersion token generation due.2)
      { p with idleAnnounced := insert due.1 p.idleAnnounced })
    p

def holdForRelaunch (pane : PaneId) (spot : PaneSpot) (now : ℕ) : Plugins :=
  if pane ∉ p.owners then p
  else
    { p with
      idleAnnounced := p.idleAnnounced.erase pane
      pending := p.pending.insert pane { spot, deadline := now + pendingRelaunchTtl } }

def claimPending (pane : PaneId) : Option (Pending × Plugins) :=
  (p.pending.lookup pane).map (fun held => (held, { p with pending := p.pending.erase pane }))

def restorePending (pane : PaneId) (held : Pending) : Plugins :=
  { p with pending := p.pending.insert pane held }

def takeOver (old new : PaneId) : Plugins :=
  { p with
    owners := match p.owners.lookup old with
      | some plugin => (p.owners.erase old).insert new plugin
      | none => p.owners.erase old
    idleAnnounced := p.idleAnnounced.erase old }

def forget (pane : PaneId) : Plugins :=
  cancel
    { p with
      intended := p.intended.erase pane
      owners := p.owners.erase pane
      pending := p.pending.erase pane
      idleAnnounced := p.idleAnnounced.erase pane } b pane

def releasePane (pane : PaneId) : Plugins :=
  cancel
    { p with
      owners := p.owners.erase pane
      pending := p.pending.erase pane
      idleAnnounced := p.idleAnnounced.erase pane } b pane

def expired (now : ℕ) : List PaneId :=
  (p.pending.entries.filter (fun e => e.2.deadline ≤ now)).map (·.1)

def facts (plugin : String) (cmd : PluginCommand) (now : ℕ) : Option PaneFacts :=
  (cmd.token?.bind b.paneForToken).bind (fun pane => (b.slot pane).map (fun slot =>
    { pane
      generation := slot.identity.generation
      optedIn := p.owners.lookup pane = some plugin
      watchedByAnother := (p.owners.lookup pane).any (· ≠ plugin)
      mayWatchOnSignal := plugin ∈ p.watchOnSignal
      alive := b.isProcessAlive pane
      idle := slot.idleFor now
      launchCommand := slot.launch.command }))

def judge (plugin : String) (cmd : PluginCommand) (now : ℕ) :
    Except Refused Approved × Plugins :=
  let (verdict, guard) := p.guard.judge cmd (p.facts b plugin cmd now)
    ((p.allowedFlags.lookup plugin).getD []) now
  (verdict, { p with guard })

def nextDeadline (now : ℕ) : Option ℕ :=
  if p.hosts.keys.isEmpty then none
  else
    let held := (p.pending.entries.map (fun e => e.2.deadline)).min?
    let next := p.owners.keys.foldl
      (fun next pane =>
        if pane ∈ p.idleAnnounced || !b.isProcessAlive pane then next
        else
          match b.slot pane with
          | none => next
          | some slot =>
            let idleAt := slot.lastOutput + paneIdleThreshold
            some (next.elim idleAt (min · idleAt)))
      held
    if p.commandsCapped then
      let drained := now + commandDrainPace
      some (next.elim drained (min · drained))
    else next

section telling

variable {p : Plugins} {b : PtyBackend} {pane : PaneId} {name : String}
  {build : PaneToken → PaneGeneration → PluginEvent}

lemma sendFor_eq (p : Plugins) (b : PtyBackend) (pane : PaneId)
    (build : PaneToken → PaneGeneration → PluginEvent) :
    ∃ hosts, p.sendFor b pane build = { p with hosts } ∧
      ∀ name, name ∈ hosts ↔ name ∈ p.hosts := by
  unfold sendFor
  rcases ho : p.owners.lookup pane with _ | plugin
  · exact ⟨p.hosts, rfl, fun _ => Iff.rfl⟩
  rcases hh : p.hosts.lookup plugin with _ | host
  · exact ⟨p.hosts, by simp [hh], fun _ => Iff.rfl⟩
  rcases hs : b.slot pane with _ | slot
  · exact ⟨p.hosts, by simp [hh], fun _ => Iff.rfl⟩
  simp only [hh]
  refine ⟨_, rfl, fun name => ?_⟩
  rw [AList.mem_insert]
  have hm : plugin ∈ p.hosts := AList.lookup_isSome.mp (by simp [hh])
  constructor
  · rintro (rfl | h)
    · exact hm
    · exact h
  · exact .inr

@[simp] lemma owners_sendFor : (p.sendFor b pane build).owners = p.owners := by
  obtain ⟨hosts, h, -⟩ := sendFor_eq p b pane build
  rw [h]

@[simp] lemma intended_sendFor : (p.sendFor b pane build).intended = p.intended := by
  obtain ⟨hosts, h, -⟩ := sendFor_eq p b pane build
  rw [h]

@[simp] lemma pending_sendFor : (p.sendFor b pane build).pending = p.pending := by
  obtain ⟨hosts, h, -⟩ := sendFor_eq p b pane build
  rw [h]

@[simp] lemma cwd_sendFor : (p.sendFor b pane build).cwd = p.cwd := by
  obtain ⟨hosts, h, -⟩ := sendFor_eq p b pane build
  rw [h]

@[simp] lemma mem_hosts_sendFor : name ∈ (p.sendFor b pane build).hosts ↔ name ∈ p.hosts := by
  obtain ⟨hosts, h, hm⟩ := sendFor_eq p b pane build
  rw [h]
  exact hm name

lemma cancel_eq (p : Plugins) (b : PtyBackend) (pane : PaneId) :
    ∃ guard, p.cancel b pane = { p with guard } := by
  unfold cancel
  split <;> exact ⟨_, rfl⟩

@[simp] lemma owners_cancel : (p.cancel b pane).owners = p.owners := by
  obtain ⟨guard, h⟩ := cancel_eq p b pane
  rw [h]

@[simp] lemma intended_cancel : (p.cancel b pane).intended = p.intended := by
  obtain ⟨guard, h⟩ := cancel_eq p b pane
  rw [h]

@[simp] lemma pending_cancel : (p.cancel b pane).pending = p.pending := by
  obtain ⟨guard, h⟩ := cancel_eq p b pane
  rw [h]

@[simp] lemma cwd_cancel : (p.cancel b pane).cwd = p.cwd := by
  obtain ⟨guard, h⟩ := cancel_eq p b pane
  rw [h]

@[simp] lemma hosts_cancel : (p.cancel b pane).hosts = p.hosts := by
  obtain ⟨guard, h⟩ := cancel_eq p b pane
  rw [h]

lemma mem_panesOf : pane ∈ p.panesOf name ↔ p.owners.lookup pane = some name := by
  rw [← Option.mem_def, AList.mem_lookup_iff]
  simp [panesOf]

end telling

end Plugins

end Nightcrow.Session.Watchers
