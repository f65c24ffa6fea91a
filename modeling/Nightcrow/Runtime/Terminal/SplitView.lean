import Nightcrow.Library.Cursor
import Nightcrow.Runtime.Terminal.State

/-! The split window over a client's panes: which of them are drawn, and which has the focus. What
only the drawing reads (attention, recovery reports, the prompt log) is left out. -/

namespace Nightcrow.Runtime.Terminal

open Nightcrow.Library Nightcrow.Runtime.Emulator

inductive ScrollSink
  | mouseWheel | arrowKeys | scrollback
  deriving DecidableEq

class Scrolling (T : Type*) extends Answering T where
  setScrollOffset : T → ℕ → T × ℕ

def encodeWheel (up : Bool) (col row : UInt16) : List UInt8 :=
  -- in SGR form: `ESC [ < button ; col ; row M`
  [0x1b, 0x5b, 0x3c] ++ digits (if up then 64 else 65) ++ [0x3b] ++ digits (max col.toNat 1) ++
    [0x3b] ++ digits (max row.toNat 1) ++ [0x4d]

def encodeArrow (up appCursor : Bool) : List UInt8 :=
  [0x1b, if appCursor then 0x4f else 0x5b, if up then 0x41 else 0x42]

def wheelLinesPerNotch : ℕ := 3

namespace ClientEmulator

variable {T : Type*} [Scrolling T]

def scrollSink (e : ClientEmulator T) : ScrollSink :=
  let mode := Terminal.modes e.term
  if (mode.mouseClick || mode.mouseDrag || mode.mouseMotion) && mode.sgrMouse then .mouseWheel
  else if mode.altScreen && mode.alternateScroll then .arrowKeys
  else .scrollback

def setScrollOffset (e : ClientEmulator T) (offset : ℕ) : ClientEmulator T × ℕ :=
  ({ e with term := (Scrolling.setScrollOffset e.term offset).1 },
    (Scrolling.setScrollOffset e.term offset).2)

end ClientEmulator

inductive TerminalFullscreen
  | off | grid | zoom
  deriving DecidableEq

def TerminalFullscreen.fillsBody : TerminalFullscreen → Bool
  | .off => false
  | .grid => true
  | .zoom => true

def visibleRange (prevStart active paneCount maxVisible : ℕ) : ℕ × ℕ :=
  if paneCount = 0 ∨ maxVisible = 0 then (0, 0)
  else
    let window := min maxVisible paneCount
    let active := min active (paneCount - 1)
    let start := min prevStart (paneCount - window)
    let start :=
      if active < start then active
      else if start + window ≤ active then active + 1 - window
      else start
    (start, start + window)

structure SplitView (T : Type*) extends TerminalState T where
  scroll : Table PaneId ℕ := ∅
  fullscreen : TerminalFullscreen := .off
  visibleStart : ℕ := 0
  maxVisibleNormal : ℕ := 4
  maxVisibleFullscreen : ℕ := 8

namespace SplitView

variable {T : Type*}

def ids (v : SplitView T) : List PaneId := v.panes.map PaneInfo.id

def maxVisible (v : SplitView T) : ℕ :=
  match v.fullscreen with
  | .off => v.maxVisibleNormal
  | .grid => v.maxVisibleFullscreen
  | .zoom => 1

def zoomDistinctFromGrid (v : SplitView T) : Bool := 1 < min v.maxVisibleFullscreen v.panes.length

def range (v : SplitView T) : ℕ × ℕ :=
  visibleRange v.visibleStart v.active v.panes.length v.maxVisible

def syncVisibleWindow (v : SplitView T) : SplitView T := { v with visibleStart := v.range.1 }

def visiblePaneIds (v : SplitView T) : List PaneId :=
  (v.ids.take v.range.2).drop v.range.1

def activate (v : SplitView T) (index : ℕ) : SplitView T :=
  { v with active := index }.syncVisibleWindow

def setFullscreen (v : SplitView T) (fullscreen : TerminalFullscreen) : SplitView T :=
  { v with fullscreen }

section

variable [Answering T]

def adoptPane (v : SplitView T) (id : PaneId) (rows cols : UInt16) (requested : Bool)
    (named : Option String) : SplitView T :=
  if v.panes.any (fun pane => pane.id = id) then v
  else
    { v with
      toTerminalState := v.toTerminalState.adoptPane id rows cols requested named
      }.syncVisibleWindow

def applyOrder (v : SplitView T) (order : List PaneId) : SplitView T :=
  { v with toTerminalState := v.toTerminalState.applyOrder order }.syncVisibleWindow

def apply (v : SplitView T) (event : BackendEvent) (clock : ℕ) : SplitView T × List Call :=
  match event with
  | .created pane rows cols requested title => (v.adoptPane pane rows cols requested title, [])
  | .reordered order => (v.applyOrder order, [])
  | .exited pane =>
    if v.panes.any (fun info => info.id = pane) then
      ({ v with
          toTerminalState := (v.toTerminalState.apply event clock).1
          scroll := v.scroll.erase pane },
        (v.toTerminalState.apply event clock).2)
    else (v, [])
  | event =>
    ({ v with toTerminalState := (v.toTerminalState.apply event clock).1 },
      (v.toTerminalState.apply event clock).2)

def exits (v : SplitView T) : BackendEvent → Bool
  | .exited pane => v.panes.any (fun info => info.id = pane)
  | _ => false

def poll (now : ℕ) : List (BackendEvent × ℕ) → SplitView T → SplitView T × List Call × Bool
  | [], v =>
    ({ v with toTerminalState := (v.toTerminalState.settleSyncUpdates now).1 },
      (v.toTerminalState.settleSyncUpdates now).2, false)
  | (event, clock) :: events, v =>
    let (polled, calls, exited) := poll now events (v.apply event clock).1
    (polled, (v.apply event clock).2 ++ calls, v.exits event || exited)

def createPaneWith (v : SplitView T) (title : Option String) : SplitView T :=
  { v with pendingTitles := v.pendingTitles ++ [title] }

def sendInput (v : SplitView T) (data : List UInt8) : SplitView T × List Call :=
  match v.panes[v.active]? with
  | none => (v, [])
  | some info => ({ v with scroll := v.scroll.erase info.id }, [.sendInput info.id data])

end

section

variable [Scrolling T]

def scrollUp (v : SplitView T) (id : PaneId) (lines : ℕ) : SplitView T :=
  if lines = 0 then v
  else { v with scroll := v.scroll.insert id ((v.scroll.lookup id).getD 0 + lines) }

def scrollDown (v : SplitView T) (id : PaneId) (lines : ℕ) : SplitView T :=
  if lines = 0 then v
  else
    match v.scroll.lookup id with
    | none => v
    | some offset =>
      { v with
        scroll := if offset - lines = 0 then v.scroll.erase id
          else v.scroll.insert id (offset - lines) }

def syncScrollPane (v : SplitView T) (id : PaneId) : SplitView T :=
  match v.emulators.lookup id with
  | none => v
  | some e =>
    let (e, actual) := e.setScrollOffset ((v.scroll.lookup id).getD 0)
    { v with
      emulators := v.emulators.insert id e
      scroll := if actual = 0 then v.scroll.erase id else v.scroll.insert id actual }

def syncScroll (v : SplitView T) : SplitView T :=
  match v.activePaneId with
  | none => v
  | some id => v.syncScrollPane id

def paneSize (v : SplitView T) (id : PaneId) : Size := (v.lastContentSize.lookup id).getD v.size

def scrollPane (v : SplitView T) (id : PaneId) (up : Bool) (lines : ℕ)
    (pointer : Option (UInt16 × UInt16)) : SplitView T × List Call :=
  if lines = 0 then (v, [])
  else
    match v.emulators.lookup id with
    | none => (v, [])
    | some e =>
      match e.scrollSink with
      | .mouseWheel =>
        let middle := ((v.paneSize id).2 / 2 + 1, (v.paneSize id).1 / 2 + 1)
        let (col, row) := pointer.getD middle
        let notches := (lines + (wheelLinesPerNotch - 1)) / wheelLinesPerNotch
        (v, [.sendInput id (List.replicate notches (encodeWheel up col row)).flatten])
      | .arrowKeys =>
        let arrow := encodeArrow up (Terminal.modes e.term).appCursor
        (v, [.sendInput id (List.replicate lines arrow).flatten])
      | .scrollback =>
        ((if up then v.scrollUp id lines else v.scrollDown id lines).syncScrollPane id, [])

end

end SplitView

lemma visibleRange_spec {p a c m : ℕ} (hcount : 0 < c) (hmax : 0 < m) :
    (visibleRange p a c m).1 ≤ min a (c - 1) ∧ min a (c - 1) < (visibleRange p a c m).2 ∧
      (visibleRange p a c m).2 ≤ c ∧
      (visibleRange p a c m).2 = (visibleRange p a c m).1 + min m c := by
  rw [visibleRange, if_neg (by omega)]
  dsimp only
  split_ifs <;> refine ⟨?_, ?_, ?_, rfl⟩ <;> omega

def BackendEvent.arranges : BackendEvent → Bool
  | .created _ _ _ _ _ => true
  | .reordered _ => true
  | .exited _ => true
  | _ => false

namespace TerminalState

variable {T : Type*} {s s' s'' : TerminalState T}

structure Steady (s s' : TerminalState T) : Prop where
  ids : s'.panes.map PaneInfo.id = s.panes.map PaneInfo.id
  active : s'.active = s.active

lemma Steady.refl (s : TerminalState T) : Steady s s := ⟨rfl, rfl⟩

lemma Steady.trans (h : Steady s s') (h' : Steady s' s'') : Steady s s'' :=
  ⟨h'.ids.trans h.ids, h'.active.trans h.active⟩

lemma Steady.length (h : Steady s s') : s'.panes.length = s.panes.length := by
  have hlength := congrArg List.length h.ids
  rwa [List.length_map, List.length_map] at hlength

variable [Answering T]

lemma applyOutput_steady (pane : PaneId) (data : List UInt8) (clock : ℕ) :
    Steady s (s.applyOutput pane data clock).1 := by
  rw [applyOutput]
  cases s.emulators.lookup pane with
  | none => exact .refl s
  | some e => exact ⟨(applyEmulatorEvents_untouched s _ pane _).ids, rfl⟩

lemma settlePanes_steady (release : Bool) (panes : List PaneId) :
    ∀ s : TerminalState T, Steady s (settlePanes release panes s).1 := by
  induction panes with
  | nil => exact .refl
  | cons pane panes ih =>
    intro s
    rw [settlePanes]
    cases s.emulators.lookup pane with
    | none => exact ih s
    | some e =>
      have hevents : Steady s (applyEmulatorEvents
          { s with emulators := s.emulators.insert pane (settled release e) } pane
          e.settleSync.2).1 :=
        ⟨(applyEmulatorEvents_untouched s _ pane _).ids, rfl⟩
      exact hevents.trans (ih _)

lemma apply_steady {event : BackendEvent} (h : event.arranges = false) (clock : ℕ) :
    Steady s (s.apply event clock).1 := by
  cases event with
  | created pane rows cols requested title => cases h
  | reordered order => cases h
  | exited pane => cases h
  | output pane data => exact applyOutput_steady pane data clock
  | replayOutput pane data =>
    rw [apply]
    cases s.emulators.lookup pane with
    | none => exact .refl s
    | some e =>
      have hsuppressed : Steady s { s with
          emulators := s.emulators.insert pane (e.suppressPtyReplies true)
          replayingPanes := s.replayingPanes.insert pane } := ⟨rfl, rfl⟩
      exact hsuppressed.trans (applyOutput_steady pane data clock)
  | replayComplete =>
    have hdrained : Steady s { s with replayingPanes := [] } := ⟨rfl, rfl⟩
    exact hdrained.trans (settlePanes_steady true s.replayingPanes _)
  | resized pane rows cols =>
    rw [apply, confirmResize]
    cases s.emulators.lookup pane <;> exact ⟨rfl, rfl⟩
  | sizeOwnership owned => exact ⟨rfl, rfl⟩

lemma requestResize_steady (id : PaneId) (size : Size) (now : ℕ) (outcome : ResizeOutcome) :
    Steady s (s.requestResize id size now outcome) := by
  cases outcome <;> exact ⟨rfl, rfl⟩

lemma fitPane_steady (answer : PaneId → ResizeOutcome) (now : ℕ)
    (layout : PaneId × UInt16 × UInt16) : Steady s (fitPane answer now s layout).1 := by
  have hsized : Steady s (if s.activePaneId = some layout.1 then
      { s with size := effectiveSize layout.2.1 layout.2.2 } else s) := by
    split_ifs <;> exact ⟨rfl, rfl⟩
  refine hsized.trans ?_
  rw [fitPane]
  dsimp only
  set t := if s.activePaneId = some layout.1 then
    { s with size := effectiveSize layout.2.1 layout.2.2 } else s
  split_ifs
  · exact .refl t
  · exact ⟨rfl, rfl⟩
  · have hasked : Steady t { t with
        lastContentSize :=
          t.lastContentSize.insert layout.1 (effectiveSize layout.2.1 layout.2.2) } := ⟨rfl, rfl⟩
    exact hasked.trans (requestResize_steady ..)
  · exact ⟨rfl, rfl⟩

lemma resizeVisiblePanes_steady (answer : PaneId → ResizeOutcome) (now : ℕ)
    (layouts : List (PaneId × UInt16 × UInt16)) :
    ∀ s : TerminalState T, Steady s (resizeVisiblePanes answer now layouts s).1 := by
  induction layouts with
  | nil => exact .refl
  | cons layout layouts ih =>
    intro s
    exact (fitPane_steady answer now layout).trans (ih _)

end TerminalState

namespace SplitView

variable {T : Type*}

/-- What a client's panes keep at all times: an emulator for each and for no other, and a place in
the history only where it was moved. -/
structure Sound [Answering T] (v : SplitView T) : Prop where
  tracks : ∃ log, v.toTerminalState.Tracks log
  nodup : v.ids.Nodup
  scroll : ∀ id offset, v.scroll.lookup id = some offset → id ∈ v.ids ∧ 0 < offset
  normal : 0 < v.maxVisibleNormal
  full : 0 < v.maxVisibleFullscreen

def InRange (v : SplitView T) : Prop := v.active ≤ v.panes.length - 1

structure Alike (v w : SplitView T) : Prop where
  length : w.panes.length = v.panes.length
  active : w.active = v.active
  fullscreen : w.fullscreen = v.fullscreen
  full : w.maxVisibleFullscreen = v.maxVisibleFullscreen

variable {v : SplitView T}

lemma Alike.trans {w x : SplitView T} (h : Alike v w) (h' : Alike w x) : Alike v x :=
  ⟨h'.length.trans h.length, h'.active.trans h.active, h'.fullscreen.trans h.fullscreen,
    h'.full.trans h.full⟩

lemma Alike.of_steady {s : TerminalState T} (hs : TerminalState.Steady v.toTerminalState s) :
    Alike v { v with toTerminalState := s } :=
  ⟨hs.length, hs.active, rfl, rfl⟩

lemma length_ids (v : SplitView T) : v.ids.length = v.panes.length := List.length_map ..

lemma any_ids {pane : PaneId} :
    v.panes.any (fun info => info.id = pane) = true ↔ pane ∈ v.ids :=
  TerminalState.any_id

lemma maxVisible_pos [Answering T] (h : v.Sound) : 0 < v.maxVisible := by
  rw [maxVisible]
  cases v.fullscreen with
  | off => exact h.normal
  | grid => exact h.full
  | zoom => exact Nat.one_pos

lemma InRange.of_steady {s : TerminalState T} (h : v.InRange)
    (hs : TerminalState.Steady v.toTerminalState s) :
    InRange { v with toTerminalState := s } :=
  hs.active.le.trans (h.trans (congrArg (· - 1) hs.length).ge)

lemma active_visible [Answering T] (h : v.Sound) (hr : v.InRange) (hpanes : v.panes ≠ []) :
    ∃ id ∈ v.visiblePaneIds, v.activePaneId = some id := by
  have hpos := List.length_pos_iff.mpr hpanes
  have hspec : v.range.1 ≤ min v.active (v.panes.length - 1) ∧
      min v.active (v.panes.length - 1) < v.range.2 ∧ _ :=
    visibleRange_spec hpos (maxVisible_pos h)
  rw [min_eq_left hr] at hspec
  obtain ⟨hstart, hstop, -⟩ := hspec
  have hlt : v.active < v.ids.length := by
    rw [length_ids]
    have hlast : v.active ≤ v.panes.length - 1 := hr
    omega
  refine ⟨v.ids[v.active], ?_, ?_⟩
  · rw [visiblePaneIds]
    refine List.mem_of_getElem? (i := v.active - v.range.1) ?_
    rw [List.getElem?_drop, Nat.add_sub_cancel' hstart, List.getElem?_take_of_lt hstop,
      List.getElem?_eq_getElem hlt]
  · exact List.getElem?_map.symm.trans (List.getElem?_eq_getElem hlt)

lemma length_visiblePaneIds [Answering T] (h : v.Sound) :
    v.visiblePaneIds.length = min v.maxVisible v.panes.length := by
  rcases Nat.eq_zero_or_pos v.panes.length with hzero | hpos
  · have hids : v.ids = [] := List.length_eq_zero_iff.mp ((length_ids v).trans hzero)
    rw [visiblePaneIds, hids, List.take_nil, List.drop_nil, hzero]
    simp
  · obtain ⟨-, -, hcount, hstop⟩ := visibleRange_spec hpos (maxVisible_pos h)
      (p := v.visibleStart) (a := v.active)
    rw [visiblePaneIds, List.length_drop, List.length_take, length_ids, range, hstop]
    omega

end SplitView

def BackendEvent.follow (c : Cursor PaneId) : BackendEvent → Cursor PaneId
  | .created pane _ _ requested _ => c.opened pane requested
  | .reordered order => c.arranged (rearrange order c.order)
  | .exited pane => c.dropped pane
  | _ => c

namespace TerminalState

variable {T : Type*} {s s' : TerminalState T}

def cursor (s : TerminalState T) : Cursor PaneId := .ofIndex (s.panes.map PaneInfo.id) s.active

lemma Steady.cursor (h : Steady s s') : s'.cursor = s.cursor := by
  rw [TerminalState.cursor, h.ids, h.active]
  rfl

lemma focus_cursor : s.cursor.focus = s.activePaneId :=
  Cursor.focus_ofIndex.trans List.getElem?_map

variable [Answering T]

lemma adoptPane_cursor (pane : PaneId) (rows cols : UInt16) (requested : Bool)
    (title : Option String) :
    (s.adoptPane pane rows cols requested title).cursor = s.cursor.opened pane requested := by
  by_cases hheld : s.panes.any (fun info => info.id = pane) = true
  · rw [adoptPane, if_pos hheld, Cursor.opened]
    exact (if_pos (any_id.mp hheld)).symm
  · have hnew : pane ∉ s.panes.map PaneInfo.id := fun h => hheld (any_id.mpr h)
    refine Eq.trans ?_ (Cursor.opened_ofIndex hnew requested).symm
    rw [adoptPane, if_neg hheld, List.length_map]
    exact congrArg (fun l => Cursor.ofIndex l _) List.map_append

omit [Answering T] in
lemma findIdx?_ids (id : PaneId) (panes : List PaneInfo) :
    panes.findIdx? (fun pane => pane.id = id) = (panes.map PaneInfo.id).idxOf? id :=
  (idxOf?_map panes).symm

omit [Answering T] in
lemma applyOrder_cursor (order : List PaneId) :
    (s.applyOrder order).cursor =
      s.cursor.arranged (rearrange order (s.panes.map PaneInfo.id)) := by
  have hids : (s.applyOrder order).panes.map PaneInfo.id =
      rearrange order (s.panes.map PaneInfo.id) := map_takeByKey order s.panes
  have hperm := rearrange_perm order (s.panes.map PaneInfo.id)
  have hactive : (s.applyOrder order).active =
      min ((s.activePaneId.bind (fun id =>
          (rearrange order (s.panes.map PaneInfo.id)).idxOf? id)).getD s.active)
        ((rearrange order (s.panes.map PaneInfo.id)).length - 1) := by
    rw [← hids, List.length_map, ← funext (findIdx?_ids · _)]
    rfl
  rw [cursor, hids, hactive]
  rcases Nat.lt_or_ge s.active (s.panes.map PaneInfo.id).length with hlt | hge
  · have hfront := List.getElem?_eq_getElem hlt
    have hmem := hperm.mem_iff.mpr (List.getElem_mem hlt)
    obtain ⟨j, hj⟩ := Option.isSome_iff_exists.mp (List.isSome_idxOf?.mpr hmem)
    obtain ⟨hjlt, hjeq, -⟩ := List.idxOf?_eq_some_iff.mp hj
    rw [show s.activePaneId = some _ from List.getElem?_map.symm.trans hfront, Option.bind_some,
      hj, Option.getD_some, min_eq_left (by omega)]
    exact (Cursor.arranged_on hfront ((List.getElem?_eq_getElem hjlt).trans (congrArg _ hjeq))).symm
  · rw [show s.activePaneId = none from
      List.getElem?_map.symm.trans (List.getElem?_eq_none hge), Option.bind_none, Option.getD_none]
    exact (Cursor.arranged_past hge hperm.length_eq).symm

lemma apply_cursor (hn : (s.panes.map PaneInfo.id).Nodup) (event : BackendEvent) (clock : ℕ) :
    (s.apply event clock).1.cursor = event.follow s.cursor := by
  cases event with
  | created pane rows cols requested title => exact adoptPane_cursor ..
  | reordered order => exact applyOrder_cursor order
  | exited pane =>
    refine Eq.trans ?_ (Cursor.dropped_ofIndex hn pane).symm
    have hfilter : (s.panes.filter (fun info => info.id ≠ pane)).map PaneInfo.id =
        (s.panes.map PaneInfo.id).filter (· ≠ pane) := by
      rw [List.filter_map]
      rfl
    by_cases hheld : s.panes.any (fun info => info.id = pane) = true
    · rw [apply, if_pos hheld, ← hfilter]
      rfl
    · rw [apply, if_neg hheld]
      have habsent : (s.panes.map PaneInfo.id).filter (· ≠ pane) = s.panes.map PaneInfo.id :=
        List.filter_eq_self.mpr (fun b hb =>
          decide_eq_true (fun h => hheld (any_id.mpr (h ▸ hb))))
      rw [habsent]
      rfl
  | output pane data => exact (apply_steady rfl clock).cursor
  | replayOutput pane data => exact (apply_steady rfl clock).cursor
  | replayComplete => exact (apply_steady rfl clock).cursor
  | resized pane rows cols => exact (apply_steady rfl clock).cursor
  | sizeOwnership owned => exact (apply_steady rfl clock).cursor

end TerminalState

namespace SplitView

variable {T : Type*} {v : SplitView T}

section

variable [Answering T]

lemma apply_terminal (event : BackendEvent) (clock : ℕ) :
    (v.apply event clock).1.toTerminalState = (v.toTerminalState.apply event clock).1 := by
  cases event with
  | created pane rows cols requested title =>
    rw [apply, adoptPane]
    split_ifs with hheld
    · rw [TerminalState.apply, TerminalState.adoptPane, if_pos hheld]
    · rfl
  | exited pane =>
    rw [apply]
    split_ifs with hheld
    · rfl
    · rw [TerminalState.apply, if_neg hheld]
  | reordered order => rfl
  | output pane data => rfl
  | replayOutput pane data => rfl
  | replayComplete => rfl
  | resized pane rows cols => rfl
  | sizeOwnership owned => rfl

lemma apply_limits (event : BackendEvent) (clock : ℕ) :
    (v.apply event clock).1.maxVisibleNormal = v.maxVisibleNormal ∧
      (v.apply event clock).1.maxVisibleFullscreen = v.maxVisibleFullscreen ∧
      (v.apply event clock).1.fullscreen = v.fullscreen := by
  cases event with
  | created pane rows cols requested title =>
    rw [apply, adoptPane]
    split_ifs <;> exact ⟨rfl, rfl, rfl⟩
  | exited pane =>
    rw [apply]
    split_ifs <;> exact ⟨rfl, rfl, rfl⟩
  | reordered order => exact ⟨rfl, rfl, rfl⟩
  | output pane data => exact ⟨rfl, rfl, rfl⟩
  | replayOutput pane data => exact ⟨rfl, rfl, rfl⟩
  | replayComplete => exact ⟨rfl, rfl, rfl⟩
  | resized pane rows cols => exact ⟨rfl, rfl, rfl⟩
  | sizeOwnership owned => exact ⟨rfl, rfl, rfl⟩

lemma ids_apply (hn : v.ids.Nodup) (event : BackendEvent) (clock : ℕ) :
    (v.apply event clock).1.ids = (event.follow v.cursor).order := by
  rw [← TerminalState.apply_cursor hn, ← apply_terminal]
  rfl

omit [Answering T] in
lemma follow_nodup {c : Cursor PaneId} (h : c.order.Nodup) (event : BackendEvent) :
    (event.follow c).order.Nodup := by
  cases event with
  | created pane rows cols requested title =>
    rw [BackendEvent.follow, Cursor.opened_order]
    split_ifs with hmem
    · exact h
    · exact List.nodup_append_comm.mp (List.nodup_cons.mpr ⟨hmem, h⟩)
  | exited pane =>
    rw [BackendEvent.follow, Cursor.dropped_order]
    exact h.filter _
  | reordered order => exact (rearrange_perm order c.order).nodup_iff.mpr h
  | output pane data => exact h
  | replayOutput pane data => exact h
  | replayComplete => exact h
  | resized pane rows cols => exact h
  | sizeOwnership owned => exact h

omit [Answering T] in
lemma mem_follow {c : Cursor PaneId} {pane : PaneId} (h : pane ∈ c.order) {event : BackendEvent}
    (hexited : event ≠ .exited pane) : pane ∈ (event.follow c).order := by
  cases event with
  | created other rows cols requested title =>
    rw [BackendEvent.follow, Cursor.opened_order]
    split_ifs
    · exact h
    · exact List.mem_append_left _ h
  | exited other =>
    rw [BackendEvent.follow, Cursor.dropped_order]
    refine List.mem_filter.mpr ⟨h, decide_eq_true (fun heq => hexited ?_)⟩
    rw [heq]
  | reordered order => exact (rearrange_perm order c.order).mem_iff.mpr h
  | output other data => exact h
  | replayOutput other data => exact h
  | replayComplete => exact h
  | resized other rows cols => exact h
  | sizeOwnership owned => exact h

lemma scroll_apply {event : BackendEvent} {clock : ℕ} {pane : PaneId} {offset : ℕ}
    (h : (v.apply event clock).1.scroll.lookup pane = some offset) :
    v.scroll.lookup pane = some offset ∧ (pane ∈ v.ids → event ≠ .exited pane) := by
  cases event with
  | created other rows cols requested title =>
    rw [apply, adoptPane] at h
    refine ⟨?_, fun _ => BackendEvent.noConfusion⟩
    split_ifs at h <;> exact h
  | exited other =>
    rw [apply] at h
    split_ifs at h with hheld
    · by_cases hp : pane = other
      · subst hp
        exact absurd (h.symm.trans (AList.lookup_erase _ _)) (Option.some_ne_none _)
      · refine ⟨(AList.lookup_erase_ne hp).symm.trans h, fun _ heq => hp ?_⟩
        exact (BackendEvent.exited.inj heq).symm
    · refine ⟨h, fun hmem heq => hheld (any_ids.mpr ?_)⟩
      exact BackendEvent.exited.inj heq ▸ hmem
  | reordered order => exact ⟨h, fun _ => BackendEvent.noConfusion⟩
  | output other data => exact ⟨h, fun _ => BackendEvent.noConfusion⟩
  | replayOutput other data => exact ⟨h, fun _ => BackendEvent.noConfusion⟩
  | replayComplete => exact ⟨h, fun _ => BackendEvent.noConfusion⟩
  | resized other rows cols => exact ⟨h, fun _ => BackendEvent.noConfusion⟩
  | sizeOwnership owned => exact ⟨h, fun _ => BackendEvent.noConfusion⟩

lemma Sound.apply (h : v.Sound) (event : BackendEvent) (clock : ℕ) :
    (v.apply event clock).1.Sound := by
  obtain ⟨log, hlog⟩ := h.tracks
  obtain ⟨hnormal, hfull, -⟩ := apply_limits (v := v) event clock
  have htracks := hlog.step (.event event clock)
  rw [TerminalState.step, ← apply_terminal] at htracks
  refine ⟨⟨_, htracks⟩, ?_, fun pane offset hoffset => ?_, hnormal ▸ h.normal, hfull ▸ h.full⟩
  · rw [ids_apply h.nodup]
    exact follow_nodup h.nodup event
  · obtain ⟨hbefore, hexited⟩ := scroll_apply hoffset
    obtain ⟨hmem, hpos⟩ := h.scroll pane offset hbefore
    refine ⟨?_, hpos⟩
    rw [ids_apply h.nodup]
    exact mem_follow hmem (hexited hmem)

lemma Sound.steady (h : v.Sound) {s : TerminalState T} {log : List Entry}
    (hlog : TerminalState.Tracks s log) (hs : TerminalState.Steady v.toTerminalState s) :
    Sound { v with toTerminalState := s } := by
  refine ⟨⟨log, hlog⟩, (congrArg List.Nodup hs.ids).mpr h.nodup, fun pane offset hoffset => ?_,
    h.normal, h.full⟩
  obtain ⟨hmem, hpos⟩ := h.scroll pane offset hoffset
  exact ⟨(congrArg (pane ∈ ·) hs.ids).mpr hmem, hpos⟩

lemma Sound.settle (h : v.Sound) (now : ℕ) :
    Sound { v with toTerminalState := (v.toTerminalState.settleSyncUpdates now).1 } := by
  obtain ⟨log, hlog⟩ := h.tracks
  exact h.steady (hlog.step (.settle now)) (TerminalState.settlePanes_steady false _ _)

lemma InRange.settle (h : v.InRange) (now : ℕ) :
    InRange { v with toTerminalState := (v.toTerminalState.settleSyncUpdates now).1 } :=
  h.of_steady (TerminalState.settlePanes_steady false _ _)

lemma InRange.apply (h : v.InRange) {event : BackendEvent} (hexits : v.exits event = false)
    (clock : ℕ) : (v.apply event clock).1.InRange := by
  cases event with
  | created pane rows cols requested title =>
    by_cases hheld : v.panes.any (fun info => info.id = pane) = true
    · rw [SplitView.apply, adoptPane, if_pos hheld]
      exact h
    · rw [SplitView.apply, adoptPane, if_neg hheld]
      have hactive : v.active ≤ v.panes.length - 1 := h
      rw [InRange, syncVisibleWindow, TerminalState.adoptPane, if_neg hheld]
      dsimp only
      rw [List.length_append, List.length_singleton]
      split_ifs <;> omega
  | exited pane =>
    have hheld : ¬ v.panes.any (fun info => info.id = pane) = true := Bool.eq_false_iff.mp hexits
    rw [SplitView.apply, if_neg hheld]
    exact h
  | reordered order => exact min_le_right ..
  | output pane data => exact h.of_steady (TerminalState.apply_steady rfl clock)
  | replayOutput pane data => exact h.of_steady (TerminalState.apply_steady rfl clock)
  | replayComplete => exact h.of_steady (TerminalState.apply_steady rfl clock)
  | resized pane rows cols => exact h.of_steady (TerminalState.apply_steady rfl clock)
  | sizeOwnership owned => exact h.of_steady (TerminalState.apply_steady rfl clock)

lemma length_apply {event : BackendEvent} (hexits : v.exits event = false) (clock : ℕ) :
    v.panes.length ≤ (v.apply event clock).1.panes.length := by
  cases event with
  | created pane rows cols requested title =>
    by_cases hheld : v.panes.any (fun info => info.id = pane) = true
    · rw [SplitView.apply, adoptPane, if_pos hheld]
    · rw [SplitView.apply, adoptPane, if_neg hheld, syncVisibleWindow, TerminalState.adoptPane,
        if_neg hheld]
      dsimp only
      rw [List.length_append]
      exact Nat.le_add_right ..
  | exited pane =>
    have hheld : ¬ v.panes.any (fun info => info.id = pane) = true := Bool.eq_false_iff.mp hexits
    rw [SplitView.apply, if_neg hheld]
  | reordered order => exact (Keyed.takeByKey_perm order v.panes).length_eq.ge
  | output pane data => exact (TerminalState.apply_steady rfl clock).length.ge
  | replayOutput pane data => exact (TerminalState.apply_steady rfl clock).length.ge
  | replayComplete => exact (TerminalState.apply_steady rfl clock).length.ge
  | resized pane rows cols => exact (TerminalState.apply_steady rfl clock).length.ge
  | sizeOwnership owned => exact (TerminalState.apply_steady rfl clock).length.ge

lemma length_poll (now : ℕ) (events : List (BackendEvent × ℕ)) :
    ∀ {v : SplitView T}, (v.poll now events).2.2 = false →
      v.panes.length ≤ (v.poll now events).1.panes.length := by
  induction events with
  | nil => exact fun _ => (TerminalState.settlePanes_steady false _ _).length.ge
  | cons event events ih =>
    intro v hexited
    obtain ⟨hexits, hexited⟩ := Bool.or_eq_false_iff.mp hexited
    exact (length_apply hexits event.2).trans (ih hexited)

lemma Sound.poll (now : ℕ) (events : List (BackendEvent × ℕ)) :
    ∀ {v : SplitView T}, v.Sound → (v.poll now events).1.Sound := by
  induction events with
  | nil => exact fun h => h.settle now
  | cons event events ih => exact fun h => ih (h.apply event.1 event.2)

lemma InRange.poll (now : ℕ) (events : List (BackendEvent × ℕ)) :
    ∀ {v : SplitView T}, v.InRange → (v.poll now events).2.2 = false →
      (v.poll now events).1.InRange := by
  induction events with
  | nil => exact fun h _ => h.settle now
  | cons event events ih =>
    intro v h hexited
    obtain ⟨hexits, hexited⟩ := Bool.or_eq_false_iff.mp hexited
    exact ih (h.apply hexits event.2) hexited

lemma cursor_poll (now : ℕ) (events : List (BackendEvent × ℕ)) :
    ∀ {v : SplitView T}, v.ids.Nodup → (v.poll now events).1.cursor =
      events.foldl (fun c event => event.1.follow c) v.cursor := by
  induction events with
  | nil => exact fun _ => (TerminalState.settlePanes_steady false _ _).cursor
  | cons event events ih =>
    intro v hn
    have hcursor : (v.apply event.1 event.2).1.cursor = event.1.follow v.cursor := by
      rw [apply_terminal]
      exact TerminalState.apply_cursor hn event.1 event.2
    rw [List.foldl_cons, ← hcursor]
    refine ih ?_
    rw [ids_apply hn]
    exact follow_nodup hn event.1

lemma poll_fullscreen (now : ℕ) (events : List (BackendEvent × ℕ)) :
    ∀ v : SplitView T, (v.poll now events).1.fullscreen = v.fullscreen ∧
      (v.poll now events).1.maxVisibleFullscreen = v.maxVisibleFullscreen := by
  induction events with
  | nil => exact fun _ => ⟨rfl, rfl⟩
  | cons event events ih =>
    intro v
    obtain ⟨-, hfull, hscreen⟩ := apply_limits (v := v) event.1 event.2
    exact ⟨(ih _).1.trans hscreen, (ih _).2.trans hfull⟩

lemma Sound.relooked (h : v.Sound) {w : SplitView T}
    (hterminal : w.toTerminalState = { v.toTerminalState with
      active := w.active
      pendingTitles := w.pendingTitles })
    (hscroll : w.scroll = v.scroll) (hnormal : w.maxVisibleNormal = v.maxVisibleNormal)
    (hfull : w.maxVisibleFullscreen = v.maxVisibleFullscreen) : w.Sound := by
  obtain ⟨log, hlog⟩ := h.tracks
  have hids : w.ids = v.ids := by
    rw [ids, hterminal]
    rfl
  refine ⟨⟨log, ?_⟩, hids ▸ h.nodup, ?_, hnormal ▸ h.normal, hfull ▸ h.full⟩
  · rw [hterminal]
    exact ⟨hlog.held, hlog.standing, hlog.replaying, hlog.nodup, hlog.confirmed, hlog.ownsSize⟩
  · rw [hscroll, hids]
    exact h.scroll

lemma Sound.activate (h : v.Sound) (index : ℕ) : (v.activate index).Sound :=
  h.relooked rfl rfl rfl rfl

lemma Sound.setFullscreen (h : v.Sound) (fullscreen : TerminalFullscreen) :
    (v.setFullscreen fullscreen).Sound :=
  h.relooked rfl rfl rfl rfl

lemma Sound.syncVisibleWindow (h : v.Sound) : v.syncVisibleWindow.Sound :=
  h.relooked rfl rfl rfl rfl

lemma Sound.createPaneWith (h : v.Sound) (title : Option String) :
    (v.createPaneWith title).Sound :=
  h.relooked rfl rfl rfl rfl

lemma Sound.scrolled (h : v.Sound) {scroll : Table PaneId ℕ}
    (hscroll : ∀ id offset, scroll.lookup id = some offset → id ∈ v.ids ∧ 0 < offset) :
    Sound { v with scroll } :=
  ⟨h.tracks, h.nodup, hscroll, h.normal, h.full⟩

omit [Answering T] in
lemma lookup_erase_scroll {scroll : Table PaneId ℕ} {pane id : PaneId} {offset : ℕ}
    (h : (scroll.erase pane).lookup id = some offset) : scroll.lookup id = some offset := by
  by_cases hid : id = pane
  · subst hid
    exact absurd (h.symm.trans (AList.lookup_erase _ _)) (Option.some_ne_none _)
  · exact (AList.lookup_erase_ne hid).symm.trans h

lemma Sound.sendInput (h : v.Sound) (data : List UInt8) : (v.sendInput data).1.Sound := by
  rw [SplitView.sendInput]
  cases v.panes[v.active]? with
  | none => exact h
  | some info =>
    exact h.scrolled (fun id offset hoffset => h.scroll id offset (lookup_erase_scroll hoffset))

omit [Answering T] in
lemma sendInput_alike (v : SplitView T) (data : List UInt8) : v.Alike (v.sendInput data).1 := by
  rw [SplitView.sendInput]
  cases v.panes[v.active]? <;> exact ⟨rfl, rfl, rfl, rfl⟩

lemma Sound.frame (h : v.Sound) (answer : PaneId → ResizeOutcome) (now : ℕ)
    (layouts : List (PaneId × UInt16 × UInt16)) :
    Sound { v with toTerminalState :=
      (TerminalState.resizeVisiblePanes answer now layouts v.toTerminalState).1 } := by
  obtain ⟨log, hlog⟩ := h.tracks
  exact h.steady (hlog.step (.frame answer now layouts))
    (TerminalState.resizeVisiblePanes_steady answer now layouts _)

lemma Sound.forceRefit (h : v.Sound) :
    Sound { v with toTerminalState := v.toTerminalState.forceRefit.1 } := by
  obtain ⟨log, hlog⟩ := h.tracks
  exact h.steady (hlog.step .forceRefit) ⟨rfl, rfl⟩

end

section

variable [Scrolling T]

lemma tracks_scrolled {s : TerminalState T} {log : List Entry} (h : TerminalState.Tracks s log)
    {pane : PaneId} {e : ClientEmulator T} (he : s.emulators.lookup pane = some e) (offset : ℕ) :
    TerminalState.Tracks
      { s with emulators := s.emulators.insert pane (e.setScrollOffset offset).1 } log := by
  have hback : ∀ p f, (s.emulators.insert pane (e.setScrollOffset offset).1).lookup p = some f →
      ∃ g, s.emulators.lookup p = some g ∧ f.view = g.view := by
    intro p f hf
    by_cases hp : p = pane
    · subst hp
      rw [AList.lookup_insert] at hf
      exact ⟨e, he, Option.some.inj hf ▸ rfl⟩
    · rw [AList.lookup_insert_ne hp] at hf
      exact ⟨f, hf, rfl⟩
  have hview : ∀ p, ((s.emulators.insert pane (e.setScrollOffset offset).1).lookup p).map
      ClientEmulator.view = (s.emulators.lookup p).map ClientEmulator.view := by
    intro p
    by_cases hp : p = pane
    · subst hp
      rw [AList.lookup_insert, he]
      rfl
    · rw [AList.lookup_insert_ne hp]
  refine ⟨fun p => ?_, fun p => (h.standing p).trans (hview p).symm, fun p f hf hs => ?_, h.nodup,
    fun p f size hf hsize => ?_, h.ownsSize⟩
  · rw [h.held, ← Option.isSome_map (f := ClientEmulator.view), ← hview p, Option.isSome_map]
  · obtain ⟨g, hg, hfg⟩ := hback p f hf
    exact h.replaying p g hg ((congrArg Standing.replaying hfg).symm.trans hs)
  · obtain ⟨g, hg, hfg⟩ := hback p f hf
    exact (congrArg Standing.size hfg).trans (h.confirmed p g size hg hsize)

lemma Sound.syncScrollPane (h : v.Sound) {pane : PaneId} {scroll : Table PaneId ℕ}
    (hother : ∀ id offset, id ≠ pane → scroll.lookup id = some offset → id ∈ v.ids ∧ 0 < offset)
    (hheld : pane ∈ v.ids) : (SplitView.syncScrollPane { v with scroll } pane).Sound := by
  obtain ⟨log, hlog⟩ := h.tracks
  obtain ⟨e, he⟩ := Option.isSome_iff_exists.mp ((hlog.held pane).mp hheld)
  have hsynced : SplitView.syncScrollPane { v with scroll } pane = { v with
      emulators := v.emulators.insert pane (e.setScrollOffset ((scroll.lookup pane).getD 0)).1
      scroll := if (e.setScrollOffset ((scroll.lookup pane).getD 0)).2 = 0 then scroll.erase pane
        else scroll.insert pane (e.setScrollOffset ((scroll.lookup pane).getD 0)).2 } := by
    rw [SplitView.syncScrollPane, he]
  rw [hsynced]
  refine ⟨⟨log, tracks_scrolled hlog he _⟩, h.nodup, fun id offset hoffset => ?_, h.normal, h.full⟩
  dsimp only at hoffset
  by_cases hid : id = pane
  · subst hid
    split_ifs at hoffset with hzero
    · exact absurd (hoffset.symm.trans (AList.lookup_erase _ _)) (Option.some_ne_none _)
    · rw [AList.lookup_insert] at hoffset
      exact ⟨hheld, Option.some.inj hoffset ▸ Nat.pos_of_ne_zero hzero⟩
  · refine hother id offset hid ?_
    split_ifs at hoffset
    · rwa [AList.lookup_erase_ne hid] at hoffset
    · rwa [AList.lookup_insert_ne hid] at hoffset

lemma held_of_lookup (h : v.Sound) {pane : PaneId} {e : ClientEmulator T}
    (he : v.emulators.lookup pane = some e) : pane ∈ v.ids := by
  obtain ⟨log, hlog⟩ := h.tracks
  exact (hlog.held pane).mpr (Option.isSome_iff_exists.mpr ⟨e, he⟩)

lemma Sound.syncScroll (h : v.Sound) : v.syncScroll.Sound := by
  rw [SplitView.syncScroll]
  cases hactive : v.activePaneId with
  | none => exact h
  | some pane =>
    have hheld : pane ∈ v.ids := by
      obtain ⟨info, hinfo, rfl⟩ := Option.map_eq_some_iff.mp hactive
      exact List.mem_map_of_mem (List.mem_of_getElem? hinfo)
    exact h.syncScrollPane (fun id offset _ => h.scroll id offset) hheld

omit [Scrolling T] in
lemma scrollUp_eq (v : SplitView T) (pane : PaneId) {lines : ℕ} (hlines : lines ≠ 0) :
    v.scrollUp pane lines =
      { v with scroll := v.scroll.insert pane ((v.scroll.lookup pane).getD 0 + lines) } :=
  if_neg hlines

lemma Sound.scrollPane (h : v.Sound) (pane : PaneId) (up : Bool) (lines : ℕ)
    (pointer : Option (UInt16 × UInt16)) : (v.scrollPane pane up lines pointer).1.Sound := by
  rw [SplitView.scrollPane]
  by_cases hlines : lines = 0
  · rw [if_pos hlines]
    exact h
  rw [if_neg hlines]
  cases he : v.emulators.lookup pane with
  | none => exact h
  | some e =>
    have hheld := held_of_lookup h he
    have hkept : ∀ id offset, id ≠ pane → v.scroll.lookup id = some offset →
        id ∈ v.ids ∧ 0 < offset := fun id offset _ => h.scroll id offset
    cases hsink : e.scrollSink with
    | mouseWheel =>
      dsimp only
      rw [hsink]
      exact h
    | arrowKeys =>
      dsimp only
      rw [hsink]
      exact h
    | scrollback =>
      dsimp only
      rw [hsink]
      cases up with
      | true =>
        dsimp only
        rw [if_pos rfl, scrollUp_eq v pane hlines]
        refine h.syncScrollPane (fun id offset hid hoffset => hkept id offset hid ?_) hheld
        rwa [AList.lookup_insert_ne hid] at hoffset
      | false =>
        dsimp only
        rw [if_neg Bool.false_ne_true, scrollDown, if_neg hlines]
        cases v.scroll.lookup pane with
        | none => exact h.syncScrollPane hkept hheld
        | some offset =>
          refine h.syncScrollPane (fun id offset hid hoffset => hkept id offset hid ?_) hheld
          split_ifs at hoffset
          · rwa [AList.lookup_erase_ne hid] at hoffset
          · rwa [AList.lookup_insert_ne hid] at hoffset

lemma syncScrollPane_alike (v : SplitView T) (pane : PaneId) : v.Alike (v.syncScrollPane pane) := by
  rw [SplitView.syncScrollPane]
  cases v.emulators.lookup pane <;> exact ⟨rfl, rfl, rfl, rfl⟩

lemma syncScroll_alike (v : SplitView T) : v.Alike v.syncScroll := by
  rw [SplitView.syncScroll]
  cases v.activePaneId with
  | none => exact ⟨rfl, rfl, rfl, rfl⟩
  | some pane => exact syncScrollPane_alike v pane

omit [Scrolling T] in
lemma scrollUp_alike (v : SplitView T) (pane : PaneId) (lines : ℕ) :
    v.Alike (v.scrollUp pane lines) := by
  rw [SplitView.scrollUp]
  split_ifs <;> exact ⟨rfl, rfl, rfl, rfl⟩

omit [Scrolling T] in
lemma scrollDown_alike (v : SplitView T) (pane : PaneId) (lines : ℕ) :
    v.Alike (v.scrollDown pane lines) := by
  rw [SplitView.scrollDown]
  split_ifs
  · exact ⟨rfl, rfl, rfl, rfl⟩
  · cases v.scroll.lookup pane <;> exact ⟨rfl, rfl, rfl, rfl⟩

lemma scrollPane_alike (v : SplitView T) (pane : PaneId) (up : Bool) (lines : ℕ)
    (pointer : Option (UInt16 × UInt16)) : v.Alike (v.scrollPane pane up lines pointer).1 := by
  rw [SplitView.scrollPane]
  by_cases hlines : lines = 0
  · rw [if_pos hlines]
    exact ⟨rfl, rfl, rfl, rfl⟩
  rw [if_neg hlines]
  cases v.emulators.lookup pane with
  | none => exact ⟨rfl, rfl, rfl, rfl⟩
  | some e =>
    dsimp only
    cases e.scrollSink with
    | mouseWheel => exact ⟨rfl, rfl, rfl, rfl⟩
    | arrowKeys => exact ⟨rfl, rfl, rfl, rfl⟩
    | scrollback =>
      cases up with
      | true => exact (scrollUp_alike v pane lines).trans (syncScrollPane_alike _ pane)
      | false => exact (scrollDown_alike v pane lines).trans (syncScrollPane_alike _ pane)

end

end SplitView

instance : Scrolling HomeCursor where
  setScrollOffset t _ := (t, 0)

end Nightcrow.Runtime.Terminal
