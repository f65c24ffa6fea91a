import Nightcrow.Session.Terminal.Panes
import Nightcrow.Session.Terminal.Tracker

namespace Nightcrow.Session.Terminal

open Nightcrow.Runtime.Emulator

def pushScrollback (buf : List UInt8) (covered : ℕ) (data : List UInt8) : List UInt8 × ℕ :=
  let buf := buf ++ data
  if maxTerminalScrollbackBytes < buf.length then
    let evicted := min (buf.length - maxTerminalScrollbackBytes) covered
    (buf.drop evicted, covered - evicted)
  else (buf, covered)

namespace PaneState

variable (p : PaneState)

def record (data : List UInt8) (observed : Observed) (screen : Option (List UInt8)) :
    PaneState × ℕ :=
  let (p, owed) :=
    if observed.modes.altScreen then
      match screen with
      | some screen => ({ p with screen, since := [] }, 0)
      | none => ({ p with since := p.since ++ data }, (p.since ++ data).length)
    else
      let p := if observed.altChanged then { p with screen := [], since := [] } else p
      let (scrollback, covered) := pushScrollback p.scrollback p.covered data
      ({ p with scrollback, covered }, scrollback.length - covered)
  ({ p with modes := observed.modes, title := observed.title.or p.title }, owed)

def settle (observed : Observed) : PaneState :=
  let p := if observed.altChanged && !observed.modes.altScreen then
    { p with screen := [], since := [] } else p
  { p with modes := observed.modes, title := observed.title.or p.title }

def withScreen (screen : List UInt8) : PaneState := { p with screen, since := [] }

def withNormalScreen (screen : List UInt8) : PaneState :=
  { p with covered := p.scrollback.length, normalScreen := screen }

end PaneState

namespace Shared

variable (s : Shared)

def recordAndBroadcast (pane : PaneId) (data : List UInt8) (observed : Observed)
    (screen : Option (List UInt8)) : Shared × ℕ :=
  ((s.updatePane pane (fun p => (p.record data observed screen).1)).broadcastLocked
      (.output pane data),
    ((s.pane? pane).map (fun p => (p.record data observed screen).2)).getD 0)

def storeSettled (pane : PaneId) (observed : Observed) : Shared :=
  s.updatePane pane (·.settle observed)

def storeScreen (pane : PaneId) (screen : List UInt8) : Shared :=
  s.updatePane pane (·.withScreen screen)

def storeNormalScreen (pane : PaneId) (screen : List UInt8) : Shared :=
  s.updatePane pane (·.withNormalScreen screen)

variable {T : Type*} [Terminal T] (t : PaneModeTracker T)

def settleOutput (pane : PaneId) (alt : Bool) (owed : ℕ) (now : ℕ) :
    Shared × PaneModeTracker T × Bool :=
  let crowded := maxTerminalScrollbackBytes < owed
  let desperate := 2 * maxTerminalScrollbackBytes < owed
  let ready := t.atBoundary pane || (desperate && t.screenCurrent pane)
  if !alt then
    if crowded && ready then
      match t.snapshot pane with
      | some screen => (s.storeNormalScreen pane screen, t.markStored pane now, false)
      | none => (s, t, false)
    else (s, t, false)
  else if crowded && ready then
    match t.snapshot pane with
    | some screen => (s.storeScreen pane screen, t.markStored pane now, false)
    | none => (s, t, false)
  else (s, t, true)

def observeOutput (pane : PaneId) (data : List UInt8) (clock : ℕ) :
    PaneModeTracker T × Observed :=
  let (t, observed) := t.observe pane clock data ((s.paneSize pane).getD defaultPaneSize)
  (if observed.altChanged then t.resetPace pane else t, observed)

def recordPaneOutput (pane : PaneId) (data : List UInt8) (now clock : ℕ) :
    Shared × PaneModeTracker T × Bool :=
  let (t, observed) := s.observeOutput t pane data clock
  let alt := observed.modes.altScreen
  let entryScreen := alt && observed.altChanged && t.atBoundary pane
  let screen := if entryScreen then t.snapshot pane else none
  let (s, owed) := s.recordAndBroadcast pane data observed screen
  let t := if alt then t.noteOwed pane owed else t
  if entryScreen then (s, t.markStored pane now, false)
  else s.settleOutput t pane alt owed now

end Shared

structure Recorded (observed : Observed) (grid : Option (List UInt8)) (p q : PaneState) : Prop where
  id : q.id = p.id
  size : q.size = p.size
  modes : q.modes = observed.modes
  left : observed.modes.altScreen = false → observed.altChanged = true →
    q.screen = [] ∧ q.since = []
  stayed : observed.modes.altScreen = false → observed.altChanged = false →
    q.screen = p.screen ∧ q.since = p.since
  shown : observed.modes.altScreen = true → q.screen = p.screen ∨ grid = some q.screen

namespace Recorded

variable {observed : Observed} {grid : Option (List UInt8)} {p q : PaneState}
  {data screen : List UInt8}

lemma record (p : PaneState) (data : List UInt8) {screen : Option (List UInt8)}
    (h : observed.modes.altScreen = true → ∀ g, screen = some g → grid = some g) :
    Recorded observed grid p (p.record data observed screen).1 := by
  cases ha : observed.modes.altScreen with
  | true =>
    cases screen with
    | none => constructor <;> simp [PaneState.record, ha]
    | some g =>
      have hg : grid = some g := h ha g rfl
      constructor <;> simp [PaneState.record, ha, hg]
  | false =>
    cases hc : observed.altChanged with
    | true => constructor <;> simp [PaneState.record, ha, hc]
    | false => constructor <;> simp [PaneState.record, ha, hc]

lemma withScreen (h : Recorded observed grid p q) (ha : observed.modes.altScreen = true)
    (hg : grid = some screen) : Recorded observed grid p (q.withScreen screen) :=
  ⟨h.id, h.size, h.modes, by simp [ha], by simp [ha], fun _ => .inr hg⟩

lemma withNormalScreen (h : Recorded observed grid p q) :
    Recorded observed grid p (q.withNormalScreen screen) :=
  ⟨h.id, h.size, h.modes, h.left, h.stayed, h.shown⟩

end Recorded

namespace Shared

variable {s : Shared} {pane : PaneId}

lemma updatePane_updatePane {f g : PaneState → PaneState} (hf : ∀ p, (f p).id = p.id) :
    (s.updatePane pane f).updatePane pane g = s.updatePane pane (fun p => g (f p)) := by
  simp only [updatePane, List.map_map, mk.injEq, and_true, true_and]
  refine List.map_congr_left fun p _ => ?_
  by_cases hp : p.id = pane
  · simp [hp, (hf p).trans hp]
  · simp [hp]

lemma updatePane_broadcastLocked {f : PaneState → PaneState} (frame : TerminalFrame) :
    (s.broadcastLocked frame).updatePane pane f =
      (s.updatePane pane f).broadcastLocked frame := rfl

variable {T : Type*} [Terminal T] {t : PaneModeTracker T} {data : List UInt8} {now clock : ℕ}

structure Outcome (s : Shared) (t : PaneModeTracker T) (pane : PaneId) (data : List UInt8)
    (o : Observed) (r : Shared × PaneModeTracker T × Bool) : Prop where
  changed : o.altChanged = (t.wasAlt pane != o.modes.altScreen)
  shared : ∃ g, (∀ p, Recorded o (r.2.1.snapshot pane) p (g p)) ∧
    r.1 = (s.updatePane pane g).broadcastLocked (.output pane data)
  wasAlt : ∀ i, r.2.1.wasAlt i = if pane = i then o.modes.altScreen else t.wasAlt i
  emulators : ∀ i, pane ≠ i → r.2.1.emulators[i]? = t.emulators[i]?
  owed_of_ne : ∀ i, pane ≠ i → r.2.1.owed i = t.owed i
  owed : o.modes.altScreen = false → r.2.1.owed pane = 0 ∨
    t.wasAlt pane = false ∧ r.2.1.owed pane = t.owed pane
  restless : r.2.2 = true → o.modes.altScreen = true

namespace Outcome

variable {u : Shared} {v : PaneModeTracker T} {o : Observed} {b : Bool}

lemma settled (h : Outcome s t pane data o (u, v, b)) : Outcome s t pane data o (u, v, false) :=
  { h with restless := by simp }

lemma markStored (h : Outcome s t pane data o (u, v, b)) :
    Outcome s t pane data o (u, v.markStored pane now, false) := by
  refine ⟨h.changed, h.shared, h.wasAlt, h.emulators, fun i hi => ?_, fun _ => .inl ?_, by simp⟩
  · rw [PaneModeTracker.owed_markStored, if_neg hi]
    exact h.owed_of_ne i hi
  · exact PaneModeTracker.owed_markStored.trans (if_pos rfl)

lemma noteOwed (h : Outcome s t pane data o (u, v, b)) (ha : o.modes.altScreen = true)
    (owed : ℕ) : Outcome s t pane data o (u, v.noteOwed pane owed, b) := by
  refine ⟨h.changed, h.shared, h.wasAlt, h.emulators, fun i hi => ?_, by simp [ha], h.restless⟩
  rw [PaneModeTracker.owed_noteOwed, if_neg hi]
  exact h.owed_of_ne i hi

lemma update (h : Outcome s t pane data o (u, v, b)) {f : PaneState → PaneState}
    (hf : ∀ p q, Recorded o (v.snapshot pane) p q → Recorded o (v.snapshot pane) p (f q)) :
    Outcome s t pane data o (u.updatePane pane f, v, b) := by
  obtain ⟨g, hg, hu⟩ := h.shared
  refine { h with shared := ⟨fun p => f (g p), fun p => hf p _ (hg p), ?_⟩ }
  dsimp only at hu ⊢
  rw [hu, updatePane_broadcastLocked, updatePane_updatePane (fun p => (hg p).id)]

lemma settleOutput (h : Outcome s t pane data o (u, v, b)) (owed now : ℕ) :
    Outcome s t pane data o (u.settleOutput v pane o.modes.altScreen owed now) := by
  unfold Shared.settleOutput
  dsimp only
  split
  · split
    · split
      · exact (h.update (fun _ _ hq => hq.withNormalScreen)).markStored
      · exact h.settled
    · exact h.settled
  · rename_i ha
    have ha : o.modes.altScreen = true := by simpa using ha
    split
    · split
      · rename_i hs
        exact (h.update (fun _ _ hq => hq.withScreen ha hs)).markStored
      · exact h.settled
    · exact { h with restless := fun _ => ha }

end Outcome

lemma observeOutput_outcome (s : Shared) (t : PaneModeTracker T) (pane : PaneId)
    (data : List UInt8) (clock : ℕ) (screen : Option (List UInt8)) :
    let r := s.observeOutput t pane data clock
    (r.2.modes.altScreen = true → ∀ g, screen = some g → r.1.snapshot pane = some g) →
    Outcome s t pane data r.2 ((s.recordAndBroadcast pane data r.2 screen).1, r.1, false) := by
  intro r hs
  have hw : ∀ i, r.1.wasAlt i = if pane = i then r.2.modes.altScreen else t.wasAlt i := by
    intro i
    refine Eq.trans ?_ PaneModeTracker.wasAlt_observe
    simp only [r, observeOutput]
    split <;> rfl
  refine ⟨rfl, ⟨_, fun p => .record p data hs, rfl⟩, hw, fun i hi => ?_, fun i hi => ?_,
    fun ha => ?_, by simp⟩
  · have hemu : (t.observe pane clock data
        ((s.paneSize pane).getD defaultPaneSize)).1.emulators[i]? = t.emulators[i]? :=
      PaneModeTracker.emulators_observe_of_ne hi
    rw [← hemu]
    simp only [r, observeOutput]
    split <;> rfl
  · simp only [r, observeOutput]
    split
    · rw [PaneModeTracker.owed_resetPace, if_neg hi]
      rfl
    · rfl
  · simp only [r, observeOutput]
    split
    · exact .inl (PaneModeTracker.owed_resetPace.trans (if_pos rfl))
    · rename_i hc
      refine .inr ⟨?_, rfl⟩
      have hch : r.2.altChanged = (t.wasAlt pane != r.2.modes.altScreen) := rfl
      have hc : r.2.altChanged = false := Bool.eq_false_iff.mpr hc
      rw [hc, ha] at hch
      simpa using hch.symm

lemma recordPaneOutput_outcome (s : Shared) (t : PaneModeTracker T) (pane : PaneId)
    (data : List UInt8) (now clock : ℕ) :
    Outcome s t pane data (s.observeOutput t pane data clock).2
      (s.recordPaneOutput t pane data now clock) := by
  have hout := s.observeOutput_outcome t pane data clock
  unfold recordPaneOutput
  generalize s.observeOutput t pane data clock = r at hout ⊢
  obtain ⟨v, o⟩ := r
  dsimp only at hout ⊢
  generalize hentry : (o.modes.altScreen && o.altChanged && v.atBoundary pane) = entry
  have hrec := hout (if entry = true then v.snapshot pane else none) (by
    intro _ g hg
    split at hg
    · exact hg
    · cases hg)
  generalize s.recordAndBroadcast pane data o (if entry = true then v.snapshot pane else none) = w
    at hrec ⊢
  obtain ⟨u, owed⟩ := w
  have hnote : Outcome s t pane data o
      (u, if o.modes.altScreen = true then v.noteOwed pane owed else v, false) := by
    by_cases ha : o.modes.altScreen = true
    · rw [if_pos ha]
      exact hrec.noteOwed ha owed
    · rw [if_neg ha]
      exact hrec
  cases entry with
  | true => exact hnote.markStored
  | false => exact hnote.settleOutput _ now

end Shared

end Nightcrow.Session.Terminal
