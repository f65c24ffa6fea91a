import Nightcrow.Runtime.Emulator.Emulator
import Nightcrow.Session.Terminal.Frame

namespace Nightcrow.Session.Terminal

open Nightcrow.Runtime.Emulator

def noHistory : ℕ := 0

def snapshotInterval : ℕ := 250_000_000

def snapshotOwedBytes : ℕ := 64 * 1024

def maxPaneTitleChars : ℕ := 256

structure Pace where
  storedAt : Option ℕ := none
  owed : ℕ := 0
deriving DecidableEq, Repr

structure Observed where
  modes : PaneModes
  title : Option String
  altChanged : Bool
deriving DecidableEq, Repr

structure PaneModeTracker (T : Type*) where
  emulators : Std.TreeMap PaneId (PaneEmulator T) := ∅
  altScreen : Std.TreeMap PaneId Bool := ∅
  pace : Std.TreeMap PaneId Pace := ∅

namespace PaneModeTracker

variable {T : Type*} [Terminal T] (t : PaneModeTracker T)

def wasAlt (pane : PaneId) : Bool := t.altScreen[pane]?.getD false

def owed (pane : PaneId) : ℕ := (t.pace[pane]?.getD {}).owed

def observed (pane : PaneId) (modes : PaneModes) (title : Option String) :
    PaneModeTracker T × Observed :=
  ({ t with altScreen := t.altScreen.insert pane modes.altScreen },
    { modes
      altChanged := t.wasAlt pane != modes.altScreen
      title := title.map (fun title => String.ofList (title.toList.take maxPaneTitleChars)) })

def observe (pane : PaneId) (clock : ℕ) (data : List UInt8) (size : PaneSize) :
    PaneModeTracker T × Observed :=
  let emulator := t.emulators[pane]?.getD (.create size.rows size.cols noHistory)
  let (emulator, title) := emulator.process clock data
  { t with emulators := t.emulators.insert pane emulator }.observed pane emulator.modes title

def resetPace (pane : PaneId) : PaneModeTracker T := { t with pace := t.pace.erase pane }

def settlePane (pane : PaneId) : Option (PaneModeTracker T × Observed) :=
  t.emulators[pane]?.map (fun emulator =>
    let (emulator, title) := emulator.settleSync
    let (t, observed) :=
      { t with emulators := t.emulators.insert pane emulator }.observed pane emulator.modes title
    (if observed.altChanged then t.resetPace pane else t, observed))

def settlePanes (t : PaneModeTracker T) :
    List PaneId → PaneModeTracker T × List (PaneId × Observed)
  | [] => (t, [])
  | pane :: rest =>
    match t.settlePane pane with
    | none => t.settlePanes rest
    | some (t, observed) =>
      let (t, settled) := t.settlePanes rest
      (t, (pane, observed) :: settled)

def settleSync (now : ℕ) : PaneModeTracker T × List (PaneId × Observed) :=
  t.settlePanes ((t.emulators.toList.filter (fun e => e.2.syncExpired now)).map (·.1))

def resize (pane : PaneId) (size : PaneSize) : PaneModeTracker T :=
  { t with
    emulators := t.emulators.modify pane (fun e => e.resize size.rows size.cols)
    pace := t.pace.modify pane (fun p => { p with storedAt := none }) }

def snapshot (pane : PaneId) : Option (List UInt8) := t.emulators[pane]?.map (·.screenSnapshot)

def noteOwed (pane : PaneId) (owed : ℕ) : PaneModeTracker T :=
  { t with pace := t.pace.insert pane { t.pace[pane]?.getD {} with owed } }

def markStored (pane : PaneId) (now : ℕ) : PaneModeTracker T :=
  { t with pace := t.pace.insert pane { storedAt := some now, owed := 0 } }

def snapshotDue (pane : PaneId) (now : ℕ) : Bool :=
  match t.pace[pane]? with
  | none => true
  | some pace =>
    snapshotOwedBytes < pace.owed || pace.storedAt.all (fun at' => snapshotInterval ≤ now - at')

def atBoundary (pane : PaneId) : Bool := t.emulators[pane]?.all (·.atBoundary)

def screenCurrent (pane : PaneId) : Bool := t.emulators[pane]?.all (·.screenCurrent)

def settlePaced (pane : PaneId) (now : ℕ) : Option (List UInt8) :=
  if t.snapshotDue pane now && t.atBoundary pane then t.snapshot pane else none

def settleCandidates (t : PaneModeTracker T) (now : ℕ) :
    List PaneId → PaneModeTracker T × List (PaneId × List UInt8)
  | [] => (t, [])
  | pane :: rest =>
    match t.settlePaced pane now with
    | none => t.settleCandidates now rest
    | some screen =>
      let (t, screens) := (t.markStored pane now).settleCandidates now rest
      (t, (pane, screen) :: screens)

def candidates (restless : List PaneId) : List PaneId :=
  restless ++
    (t.pace.toList.filter (fun e => 0 < e.2.owed && !restless.contains e.1)).map (·.1)

def settleRestless (restless : List PaneId) (now : ℕ) :
    PaneModeTracker T × List (PaneId × List UInt8) :=
  t.settleCandidates now (t.candidates restless)

def forget (pane : PaneId) : PaneModeTracker T where
  emulators := t.emulators.erase pane
  altScreen := t.altScreen.erase pane
  pace := t.pace.erase pane

def Unseen (pane : PaneId) : Prop := t.emulators[pane]? = none ∧ t.wasAlt pane = false

section specs

omit [Terminal T]

variable {t} {pane i : PaneId} {modes : PaneModes} {title : Option String}

lemma wasAlt_observed :
    (t.observed pane modes title).1.wasAlt i = if pane = i then modes.altScreen else t.wasAlt i := by
  simp only [observed, wasAlt, Std.TreeMap.getElem?_insert, compare_eq_iff_eq]
  split <;> rfl

@[simp] lemma pace_observed : (t.observed pane modes title).1.pace = t.pace := rfl

@[simp] lemma emulators_observed :
    (t.observed pane modes title).1.emulators = t.emulators := rfl

@[simp] lemma wasAlt_resetPace : (t.resetPace pane).wasAlt i = t.wasAlt i := rfl

@[simp] lemma emulators_resetPace : (t.resetPace pane).emulators = t.emulators := rfl

lemma owed_resetPace : (t.resetPace pane).owed i = if pane = i then 0 else t.owed i := by
  simp only [resetPace, owed, Std.TreeMap.getElem?_erase, compare_eq_iff_eq]
  split <;> rfl

@[simp] lemma wasAlt_noteOwed {owed : ℕ} : (t.noteOwed pane owed).wasAlt i = t.wasAlt i := rfl

@[simp] lemma emulators_noteOwed {owed : ℕ} : (t.noteOwed pane owed).emulators = t.emulators := rfl

lemma owed_noteOwed {owed : ℕ} :
    (t.noteOwed pane owed).owed i = if pane = i then owed else t.owed i := by
  simp only [noteOwed, PaneModeTracker.owed, Std.TreeMap.getElem?_insert, compare_eq_iff_eq]
  split <;> rfl

@[simp] lemma wasAlt_markStored {now : ℕ} : (t.markStored pane now).wasAlt i = t.wasAlt i := rfl

@[simp] lemma emulators_markStored {now : ℕ} :
    (t.markStored pane now).emulators = t.emulators := rfl

lemma owed_markStored {now : ℕ} :
    (t.markStored pane now).owed i = if pane = i then 0 else t.owed i := by
  simp only [markStored, owed, Std.TreeMap.getElem?_insert, compare_eq_iff_eq]
  split <;> rfl

lemma wasAlt_forget : (t.forget pane).wasAlt i = if pane = i then false else t.wasAlt i := by
  simp only [forget, wasAlt, Std.TreeMap.getElem?_erase, compare_eq_iff_eq]
  split <;> rfl

lemma owed_forget : (t.forget pane).owed i = if pane = i then 0 else t.owed i := by
  simp only [forget, owed, Std.TreeMap.getElem?_erase, compare_eq_iff_eq]
  split <;> rfl

end specs

section observing

variable {t} {pane i : PaneId} {clock now : ℕ} {data : List UInt8} {size : PaneSize}

lemma wasAlt_observe : (t.observe pane clock data size).1.wasAlt i =
    if pane = i then (t.observe pane clock data size).2.modes.altScreen else t.wasAlt i :=
  wasAlt_observed

@[simp] lemma pace_observe : (t.observe pane clock data size).1.pace = t.pace := rfl

lemma emulators_observe_of_ne (h : pane ≠ i) :
    (t.observe pane clock data size).1.emulators[i]? = t.emulators[i]? := by
  simp [observe, Std.TreeMap.getElem?_insert, h]

@[simp] lemma snapshot_resetPace : (t.resetPace pane).snapshot i = t.snapshot i := rfl

@[simp] lemma snapshot_noteOwed {owed : ℕ} : (t.noteOwed pane owed).snapshot i = t.snapshot i := rfl

@[simp] lemma snapshot_markStored : (t.markStored pane now).snapshot i = t.snapshot i := rfl

@[simp] lemma wasAlt_resize : (t.resize pane size).wasAlt i = t.wasAlt i := rfl

lemma owed_resize : (t.resize pane size).owed i = t.owed i := by
  simp only [resize, owed, Std.TreeMap.getElem?_modify, compare_eq_iff_eq]
  split
  · rename_i h
    subst h
    cases t.pace[pane]? <;> rfl
  · rfl

lemma unseen_resize (h : t.Unseen i) : (t.resize pane size).Unseen i := by
  refine ⟨?_, h.2⟩
  simp only [resize, Std.TreeMap.getElem?_modify, compare_eq_iff_eq]
  split
  · rename_i hi
    subst hi
    rw [h.1]
    rfl
  · exact h.1

omit [Terminal T] in
lemma unseen_forget (h : t.Unseen i) : (t.forget pane).Unseen i := by
  refine ⟨?_, wasAlt_forget.trans ?_⟩
  · simp only [forget, Std.TreeMap.getElem?_erase, h.1]
    split <;> rfl
  · rw [h.2]
    split <;> rfl

lemma settlePane_cases {t' : PaneModeTracker T} {o : Observed}
    (h : t.settlePane pane = some (t', o)) :
    o.altChanged = (t.wasAlt pane != o.modes.altScreen) ∧
      (∀ i, t'.wasAlt i = if pane = i then o.modes.altScreen else t.wasAlt i) ∧
      (∀ i, t'.owed i = if pane = i ∧ o.altChanged = true then 0 else t.owed i) := by
  obtain ⟨e, -, he⟩ := Option.map_eq_some_iff.mp h
  let r := { t with emulators := t.emulators.insert pane e.settleSync.1 }.observed pane
    e.settleSync.1.modes e.settleSync.2
  have hw : ∀ i, r.1.wasAlt i = if pane = i then r.2.modes.altScreen else t.wasAlt i :=
    fun i => wasAlt_observed
  have he : (if r.2.altChanged then r.1.resetPace pane else r.1, r.2) = (t', o) := he
  obtain ⟨rfl, rfl⟩ := Prod.mk.inj he
  refine ⟨rfl, fun i => ?_, fun i => ?_⟩
  · rw [← hw i]
    split <;> rfl
  · split
    · rename_i hc
      rw [owed_resetPace]
      simp only [hc, and_true]
      rfl
    · rename_i hc
      rw [if_neg (fun hi => hc hi.2)]
      rfl

lemma settlePaced_snapshot {screen : List UInt8} (h : t.settlePaced pane now = some screen) :
    t.snapshot pane = some screen := by
  unfold settlePaced at h
  split at h
  · exact h
  · cases h

lemma snapshot_settleCandidates (panes : List PaneId) :
    (t.settleCandidates now panes).1.snapshot i = t.snapshot i := by
  induction panes generalizing t with
  | nil => rfl
  | cons pane panes ih =>
    rw [settleCandidates]
    split
    · exact ih
    · exact ih

lemma unseen_settleCandidates (h : t.Unseen i) (panes : List PaneId) :
    (t.settleCandidates now panes).1.Unseen i := by
  induction panes generalizing t with
  | nil => exact h
  | cons pane panes ih =>
    rw [settleCandidates]
    split
    · exact ih h
    · exact ih h

lemma unseen_settlePanes (h : t.Unseen i) (panes : List PaneId) :
    (t.settlePanes panes).1.Unseen i := by
  induction panes generalizing t with
  | nil => exact h
  | cons pane panes ih =>
    rw [settlePanes]
    split
    · exact ih h
    · rename_i t' o ht
      refine ih ?_
      have hne : ¬ pane = i := by
        rintro rfl
        rw [settlePane, h.1] at ht
        cases ht
      refine ⟨?_, ((settlePane_cases ht).2.1 i).trans ((if_neg hne).trans h.2)⟩
      obtain ⟨e, -, he⟩ := Option.map_eq_some_iff.mp ht
      obtain ⟨rfl, rfl⟩ := Prod.mk.inj he
      have hi : (t.emulators.insert pane e.settleSync.1)[i]? = none := by
        simp [Std.TreeMap.getElem?_insert, hne, h.1]
      refine Eq.trans ?_ hi
      split <;> rfl

lemma settlePaced_markStored {screen : List UInt8}
    (h : (t.markStored pane now).settlePaced i now = some screen) :
    t.settlePaced i now = some screen := by
  by_cases hi : pane = i
  · subst hi
    have hd : (t.markStored pane now).snapshotDue pane now = false := by
      simp [markStored, snapshotDue, snapshotInterval]
    simp [settlePaced, hd] at h
  · have hp : (t.markStored pane now).pace[i]? = t.pace[i]? := by
      simp [markStored, Std.TreeMap.getElem?_insert, hi]
    have hd : (t.markStored pane now).snapshotDue i now = t.snapshotDue i now := by
      rw [snapshotDue, hp, snapshotDue]
    rw [← h, settlePaced, settlePaced, hd]
    rfl

end observing

end PaneModeTracker

end Nightcrow.Session.Terminal
