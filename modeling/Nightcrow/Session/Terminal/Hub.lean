import Nightcrow.Session.Terminal.Delivery
import Nightcrow.Session.Terminal.Worker

/-! A hub at work: its worker's operations on the panes, interleaved with any number of clients
connecting, reading and leaving. -/

namespace Nightcrow.Session.Terminal

open Nightcrow.Library Nightcrow.Runtime.Emulator

/-- The hub, with what an observer keeps: how far each client's connection is, and the grids
each pane has shown in its current visit to the alternate screen. -/
structure Hub (T : Type*) where
  worker : Worker T := {}
  phase : ℕ → Phase := fun _ => .absent
  restless : List PaneId := []
  visit : PaneId → List (List UInt8) := fun _ => []

inductive Label
  | client (step : Step)
  | openPane (size : PaneSize) (client : Option ℕ) (title : Option String)
  | closePane (pane : PaneId)
  | reorder (order : List PaneId)
  | restoreIndex (pane : PaneId) (index : ℕ)
  | zoom (pane : Option PaneId)
  | recovery (pane : PaneId) (report : RecoveryReport)
  | endRecovery (pane : PaneId)
  | endRecoveryIfReported (pane : PaneId)
  | resize (pane : PaneId) (size : PaneSize) (client connection : ℕ) (accepted : Bool) (now : ℕ)
  | output (pane : PaneId) (data : List UInt8) (now clock : ℕ)
  | settleSync (now : ℕ)
  | settleRestless (now : ℕ)

def Step.attaches : Step → Bool
  | .connect _ stopped => !stopped
  | .work .. => false
  | _ => true

namespace Hub

variable {T : Type*} [Terminal T] (h : Hub T)

def withShared (shared : Shared) : Hub T := { h with worker := { h.worker with shared } }

def world : World where
  shared := h.worker.shared
  link := fun id => { phase := h.phase id }

def onAlt (pane : PaneId) : Bool :=
  h.worker.shared.panes.any (fun p => p.id = pane && p.modes.altScreen)

def look : Hub T :=
  { h with
    visit := fun pane =>
      if h.onAlt pane then h.visit pane ++ (h.worker.tracker.snapshot pane).toList else [] }

def act : Label → Option (Hub T)
  | .client l =>
    if l.attaches then
      (h.world.step l).map (fun w =>
        { h.withShared w.shared with phase := fun id => (w.link id).phase })
    else none
  | .openPane size client title => some { h with worker := h.worker.openPane size client title }
  | .closePane pane => some { h with worker := h.worker.closePane pane }
  | .reorder order => some (h.withShared (h.worker.shared.reorderPanes order))
  | .restoreIndex pane index => some (h.withShared (h.worker.shared.restorePaneIndex pane index))
  | .zoom pane => some (h.withShared (h.worker.shared.setZoom pane))
  | .recovery pane report => some (h.withShared (h.worker.shared.broadcastRecovery pane report))
  | .endRecovery pane => some (h.withShared (h.worker.shared.endRecovery pane))
  | .endRecoveryIfReported pane =>
    some (h.withShared (h.worker.shared.endRecoveryIfReported pane))
  | .resize pane size client connection accepted now =>
    some { h with worker := h.worker.resizePane pane size client connection accepted now }
  | .output pane data now clock =>
    if pane < h.worker.backend.nextId then
      let (worker, restless) := h.worker.output pane data now clock
      some { h with
        worker
        restless := if restless && !h.restless.contains pane then h.restless ++ [pane]
          else h.restless }
    else none
  | .settleSync now =>
    let (worker, alternate) := h.worker.settleSync now
    some { h with
      worker
      restless := h.restless ++ alternate.filter (fun pane => !h.restless.contains pane) }
  | .settleRestless now =>
    some { h with worker := h.worker.settleRestless h.restless now, restless := [] }

def step (l : Label) : Option (Hub T) := (h.act l).map look

variable {h}

lemma sameHub_step {w v : World} {l : Step} (hl : l.attaches = true) (hs : w.step l = some v) :
    w.shared.SameHub v.shared := by
  cases l with
  | connect id stopped =>
    simp only [World.step] at hs
    split at hs
    · exact Option.some.inj hs ▸ ⟨rfl, rfl, rfl, rfl⟩
    · cases hs
  | frame id =>
    simp only [World.step] at hs
    split at hs
    · exact Option.some.inj hs ▸ .frameReplay _ _
    · cases hs
  | join id =>
    simp only [World.step] at hs
    split at hs
    · exact Option.some.inj hs ▸ .refl _
    · cases hs
  | release id connection =>
    simp only [World.step] at hs
    split at hs
    · exact Option.some.inj hs ▸ .releaseHeld _ id connection
    · cases hs
  | verdict id owned generation =>
    simp only [World.step] at hs
    split at hs
    · exact Option.some.inj hs ▸ ⟨rfl, rfl, rfl, rfl⟩
    · cases hs
  | work => cases hl
  | send id frame =>
    simp only [World.step] at hs
    split at hs
    · exact Option.some.inj hs ▸ .queueTo _ id frame
    · cases hs
  | recv id =>
    simp only [World.step] at hs
    split at hs
    · obtain ⟨r, -, rfl⟩ := Option.map_eq_some_iff.mp hs
      exact ⟨rfl, rfl, rfl, rfl⟩
    · cases hs
  | disconnect id =>
    simp only [World.step] at hs
    split at hs
    · exact Option.some.inj hs ▸ ⟨rfl, rfl, rfl, rfl⟩
    · cases hs

end Hub

end Nightcrow.Session.Terminal
