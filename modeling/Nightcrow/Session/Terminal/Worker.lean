import Nightcrow.Session.Terminal.Output

namespace Nightcrow.Session.Terminal

open Nightcrow.Runtime.Emulator

structure Backend where
  nextId : PaneId := 1
  ptys : Std.TreeMap PaneId PaneSize := ∅

namespace Backend

variable (b : Backend)

def openPane (size : PaneSize) : PaneId × Backend :=
  (b.nextId, { nextId := b.nextId + 1, ptys := b.ptys.insert b.nextId size })

def destroyPane (pane : PaneId) : Backend := { b with ptys := b.ptys.erase pane }

def resize (accepted : Bool) (pane : PaneId) (size : PaneSize) : Option Backend :=
  -- `accepted` is whether the kernel took the size
  if accepted && pane ∈ b.ptys then some { b with ptys := b.ptys.insert pane size } else none

end Backend

structure Worker (T : Type*) where
  shared : Shared := {}
  tracker : PaneModeTracker T := {}
  backend : Backend := {}

namespace Worker

variable {T : Type*} [Terminal T] (w : Worker T)

def openPane (size : PaneSize) (client : Option ℕ) (title : Option String) : Worker T :=
  let (pane, backend) := w.backend.openPane size
  { w with backend, shared := w.shared.registerPane pane size client title }

def closePane (pane : PaneId) : Worker T where
  shared := w.shared.removePaneAndAnnounce pane
  tracker := w.tracker.forget pane
  backend := w.backend.destroyPane pane

def output (pane : PaneId) (data : List UInt8) (now clock : ℕ) : Worker T × Bool :=
  let (shared, tracker, restless) := w.shared.recordPaneOutput w.tracker pane data now clock
  ({ w with shared, tracker }, restless)

def settleSync (now : ℕ) : Worker T × List PaneId :=
  let (tracker, settled) := w.tracker.settleSync now
  ({ w with
      tracker
      shared := settled.foldl (fun s e => s.storeSettled e.1 e.2) w.shared },
    (settled.filter (fun e => e.2.modes.altScreen)).map (·.1))

def settleRestless (restless : List PaneId) (now : ℕ) : Worker T :=
  let (tracker, screens) := w.tracker.settleRestless restless now
  { w with
    tracker
    shared := screens.foldl (fun s e => s.storeScreen e.1 e.2) w.shared }

def applySize (backend : Backend) (pane : PaneId) (size : PaneSize) (now : ℕ) : Worker T :=
  let tracker := w.tracker.resize pane size
  let shared := w.shared.updatePane pane (fun p => { p with size })
  match if tracker.atBoundary pane then tracker.snapshot pane else none with
  | some screen =>
    { backend
      tracker := tracker.markStored pane now
      shared := shared.updatePane pane (fun p =>
        if p.modes.altScreen then p.withScreen screen else p.withNormalScreen screen) }
  | none => { backend, tracker, shared }

def resizePane (pane : PaneId) (size : PaneSize) (client connection : ℕ) (accepted : Bool)
    (now : ℕ) : Worker T :=
  if w.shared.clients.any (fun c => c.id = client && c.connection = some connection) then
    match w.shared.pane? pane with
    | none => w
    | some p =>
      if p.size = size then { w with shared := w.shared.broadcast (.resized pane size) }
      else
        match w.backend.resize accepted pane size with
        | none => w
        | some backend =>
          let w := w.applySize backend pane size now
          { w with shared := w.shared.broadcast (.resized pane size) }
  else w

variable {w} {backend : Backend} {pane i : PaneId} {size : PaneSize} {now : ℕ} {accepted : Bool}

omit [Terminal T] in
lemma nextId_resize (h : w.backend.resize accepted pane size = some backend) :
    backend.nextId = w.backend.nextId := by
  unfold Backend.resize at h
  split at h
  · exact Option.some.inj h ▸ rfl
  · cases h

lemma unseen_applySize (h : w.tracker.Unseen i) :
    (w.applySize backend pane size now).tracker.Unseen i := by
  have hr : (w.tracker.resize pane size).Unseen i := PaneModeTracker.unseen_resize h
  unfold applySize
  dsimp only
  split <;> exact hr

@[simp] lemma backend_applySize : (w.applySize backend pane size now).backend = backend := by
  unfold applySize
  dsimp only
  split <;> rfl

end Worker

section rules

variable {T : Type*} [Terminal T] {inv : Shared → PaneModeTracker T → Prop}

lemma settlePanes_rule
    (hstep : ∀ s t pane t' observed, inv s t → t.settlePane pane = some (t', observed) →
      inv (s.storeSettled pane observed) t')
    {s : Shared} {t : PaneModeTracker T} (h : inv s t) (panes : List PaneId) :
    inv ((t.settlePanes panes).2.foldl (fun s e => s.storeSettled e.1 e.2) s)
      (t.settlePanes panes).1 := by
  induction panes generalizing s t with
  | nil => exact h
  | cons pane panes ih =>
    rw [PaneModeTracker.settlePanes]
    split
    · exact ih h
    · rename_i t' observed ht
      exact ih (hstep s t pane t' observed h ht)

lemma settleCandidates_rule {now : ℕ} {panes : List PaneId}
    (hstep : ∀ s t pane screen, pane ∈ panes → inv s t → t.settlePaced pane now = some screen →
      inv (s.storeScreen pane screen) (t.markStored pane now))
    {s : Shared} {t : PaneModeTracker T} (h : inv s t) :
    inv ((t.settleCandidates now panes).2.foldl (fun s e => s.storeScreen e.1 e.2) s)
      (t.settleCandidates now panes).1 := by
  induction panes generalizing s t with
  | nil => exact h
  | cons pane panes ih =>
    have hrest := fun s t i screen hi => hstep s t i screen (List.mem_cons_of_mem pane hi)
    rw [PaneModeTracker.settleCandidates]
    split
    · exact ih hrest h
    · rename_i screen hs
      exact ih hrest (hstep s t pane screen List.mem_cons_self h hs)

end rules

end Nightcrow.Session.Terminal
