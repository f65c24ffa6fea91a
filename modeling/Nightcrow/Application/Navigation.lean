import Nightcrow.Application.Mouse
import Nightcrow.Runtime.Terminal.SplitView

/-! What keys, clicks and drains make of a client's view: which part of it has the focus, which one
fills the body, and which pane is in front. What is listed and diffed is left out. -/

namespace Nightcrow.Application.Navigation

open Nightcrow.Library Nightcrow.Runtime.Terminal
open Nightcrow.Application.Mouse (Focus)

structure SessionState where
  focus : Option Focus := none
  activePane : ℕ := 0
  terminalFullscreen : Bool := false
  diffFullscreen : Bool := false
  listFullscreen : Bool := false

structure App (T : Type*) where
  terminal : SplitView T := {}
  focus : Focus := .fileList
  diffFullscreen : Bool := false
  listFullscreen : Bool := false
  pendingTerminal : Option SessionState := some { focus := some .terminal }

namespace App

variable {T : Type*}

section

variable (a : App T)

def saveSession : SessionState where
  focus := some a.focus
  activePane := a.terminal.active
  terminalFullscreen := a.terminal.fullscreen.fillsBody
  diffFullscreen := a.diffFullscreen
  listFullscreen := a.listFullscreen

def fillsBody : Focus → Bool
  | .fileList => a.listFullscreen
  | .diffViewer => a.diffFullscreen
  | .terminal => a.terminal.fullscreen.fillsBody

def restorePaneFocus (state : SessionState) : App T :=
  let held := !a.terminal.panes.isEmpty
  let fullscreen : TerminalFullscreen := if state.terminalFullscreen && held then .grid else .off
  let terminal := (a.terminal.activate
    (min state.activePane (a.terminal.panes.length - 1))).setFullscreen fullscreen
  let diffFullscreen := state.diffFullscreen && !fullscreen.fillsBody
  let listFullscreen := state.listFullscreen && !fullscreen.fillsBody && !diffFullscreen
  let focus :=
    match state.focus with
    | none => a.focus
    | some .terminal => if held then .terminal else .fileList
    | some focus => focus
  { terminal, diffFullscreen, listFullscreen
    pendingTerminal := if held then none else some state
    focus :=
      if listFullscreen then .fileList
      else if diffFullscreen then .diffViewer
      else if fullscreen.fillsBody then .terminal
      else focus }

def clampActivePaneAfterRemoval : App T :=
  if a.terminal.panes.isEmpty then
    { a with
      terminal := (a.terminal.setFullscreen .off).activate 0
      focus := match a.focus with
        | .terminal => .diffViewer
        | focus => focus }
  else
    let fullscreen := if a.terminal.fullscreen = .zoom ∧ !a.terminal.zoomDistinctFromGrid then .grid
      else a.terminal.fullscreen
    { a with
      terminal := (a.terminal.setFullscreen fullscreen).activate
        (min a.terminal.active (a.terminal.panes.length - 1)) }

def frontTerminal : App T :=
  { a with focus := .terminal, diffFullscreen := false, listFullscreen := false }

def openNewPane (created : Bool) : App T :=
  -- `created` says whether the backend takes the request
  if created then { a with terminal := a.terminal.createPaneWith none }.frontTerminal else a

def switchPane (idx : ℕ) : App T :=
  if idx < a.terminal.panes.length then
    { a with terminal := a.terminal.activate idx }.frontTerminal
  else a

def swapActivePaneWith (idx : ℕ) : App T :=
  if a.terminal.panes.length ≤ idx ∨ idx = a.terminal.active then a else a.frontTerminal

def focusClickedPane (id : PaneId) : App T :=
  match a.terminal.panes.findIdx? (fun pane => pane.id = id) with
  | none => a
  | some idx => { a with terminal := a.terminal.activate idx, focus := .terminal }

def showsTerminal : Bool :=
  a.terminal.fullscreen.fillsBody || !(a.diffFullscreen || a.listFullscreen)

def showsUpper : Bool :=
  !(a.terminal.fullscreen.fillsBody || a.diffFullscreen || a.listFullscreen)

def cycleFocusForward : App T :=
  if a.diffFullscreen || a.listFullscreen then a
  else if a.terminal.fullscreen.fillsBody then
    if 0 < a.terminal.panes.length then
      { a with
        terminal := a.terminal.activate ((a.terminal.active + 1) % a.terminal.panes.length) }
    else a
  else
    match a.focus with
    | .fileList => { a with focus := .diffViewer }
    | .diffViewer =>
      if !a.terminal.panes.isEmpty then
        { a with terminal := a.terminal.activate 0, focus := .terminal }
      else { a with focus := .fileList }
    | .terminal =>
      if a.terminal.active + 1 < a.terminal.panes.length then
        { a with terminal := a.terminal.activate (a.terminal.active + 1) }
      else { a with focus := .fileList }

def cycleFocusBackward : App T :=
  if a.diffFullscreen || a.listFullscreen then a
  else if a.terminal.fullscreen.fillsBody then
    if 0 < a.terminal.panes.length then
      { a with
        terminal := a.terminal.activate
          ((a.terminal.active + a.terminal.panes.length - 1) % a.terminal.panes.length) }
    else a
  else
    match a.focus with
    | .fileList =>
      if !a.terminal.panes.isEmpty then
        { a with terminal := a.terminal.activate (a.terminal.panes.length - 1), focus := .terminal }
      else { a with focus := .diffViewer }
    | .diffViewer => { a with focus := .fileList }
    | .terminal =>
      if 0 < a.terminal.active then
        { a with terminal := a.terminal.activate (a.terminal.active - 1) }
      else { a with focus := .diffViewer }

def toggleTerminalFullscreen : App T :=
  if a.terminal.panes.isEmpty then { a with terminal := a.terminal.setFullscreen .off }
  else
    let next : TerminalFullscreen :=
      match a.terminal.fullscreen with
      | .off => .grid
      | .grid => if a.terminal.zoomDistinctFromGrid then .zoom else .off
      | .zoom => .off
    let toggled := { a with terminal := (a.terminal.setFullscreen next).syncVisibleWindow }
    if next.fillsBody then toggled.frontTerminal else toggled

def setDiffFullscreen (on : Bool) : App T :=
  if on then
    { a with
      terminal := a.terminal.setFullscreen .off
      focus := .diffViewer
      diffFullscreen := true
      listFullscreen := false }
  else { a with diffFullscreen := false }

def toggleDiffFullscreen : App T := a.setDiffFullscreen (!a.diffFullscreen)

def toggleListFullscreen : App T :=
  if a.listFullscreen then { a with listFullscreen := false }
  else
    { a with
      terminal := a.terminal.setFullscreen .off
      focus := .fileList
      diffFullscreen := false
      listFullscreen := true }

def focusList : App T :=
  { a with
    terminal := a.terminal.setFullscreen .off
    focus := .fileList
    diffFullscreen := false }

def focusDiff : App T :=
  { a with
    terminal := a.terminal.setFullscreen .off
    focus := .diffViewer
    listFullscreen := false }

def toggleFullscreen : App T :=
  match a.focus with
  | .diffViewer => a.toggleDiffFullscreen
  | .fileList => a.toggleListFullscreen
  | .terminal => a.toggleTerminalFullscreen

def revealList : App T :=
  -- `toggle_mode` and `toggle_tree_mode` end this way
  if a.terminal.fullscreen.fillsBody || a.diffFullscreen then a.focusList else a

def pollTerminal [Answering T] (now : ℕ) (events : List (BackendEvent × ℕ)) : App T :=
  let (terminal, _, exited) := a.terminal.poll now events
  let polled := { a with terminal }
  let clamped := if exited then polled.clampActivePaneAfterRemoval else polled
  match clamped.pendingTerminal with
  | none => clamped
  | some state => if clamped.terminal.panes.isEmpty then clamped else clamped.restorePaneFocus state

end

inductive Step
  | poll (now : ℕ) (events : List (BackendEvent × ℕ))
  | frame (answer : PaneId → ResizeOutcome) (now : ℕ) (layouts : List (PaneId × UInt16 × UInt16))
  | forceRefit
  | openNewPane (created : Bool)
  | switchPane (idx : ℕ)
  | swapActivePaneWith (idx : ℕ)
  | clickPane (id : PaneId)
  | clickUpper (diff : Bool)
  | toggleFullscreen
  | toggleDiffFullscreen
  | openTreeFile
  | focusList
  | focusDiff
  | cycleFocusForward
  | cycleFocusBackward
  | toggleView
  | sendInput (data : List UInt8)
  | scrollPane (id : PaneId) (up : Bool) (lines : ℕ) (pointer : Option (UInt16 × UInt16))
  | syncScroll

section

variable [Scrolling T]

def step (a : App T) : Step → App T
  | .poll now events => a.pollTerminal now events
  | .frame answer now layouts =>
    { a with terminal := { a.terminal with
      toTerminalState :=
        (TerminalState.resizeVisiblePanes answer now layouts a.terminal.toTerminalState).1 } }
  | .forceRefit =>
    { a with terminal := { a.terminal with
      toTerminalState := a.terminal.toTerminalState.forceRefit.1 } }
  | .openNewPane created => a.openNewPane created
  | .switchPane idx => a.switchPane idx
  | .swapActivePaneWith idx => a.swapActivePaneWith idx
  | .clickPane id => if a.showsTerminal then a.focusClickedPane id else a
  | .clickUpper diff =>
    if a.showsUpper then { a with focus := if diff then .diffViewer else .fileList } else a
  | .toggleFullscreen => a.toggleFullscreen
  | .toggleDiffFullscreen => a.toggleDiffFullscreen
  | .openTreeFile => a.setDiffFullscreen true
  | .focusList => a.focusList
  | .focusDiff => a.focusDiff
  | .cycleFocusForward => a.cycleFocusForward
  | .cycleFocusBackward => a.cycleFocusBackward
  | .toggleView => a.revealList
  | .sendInput data => { a with terminal := (a.terminal.sendInput data).1 }
  | .scrollPane id up lines pointer =>
    { a with terminal := (a.terminal.scrollPane id up lines pointer).1 }
  | .syncScroll => { a with terminal := a.terminal.syncScroll }

def start (saved : Option SessionState) : App T :=
  match saved with
  | none => {}
  | some state => App.restorePaneFocus {} state

inductive Reaches (saved : Option SessionState) : App T → Prop
  | start : Reaches saved (start saved)
  | step {a : App T} (st : Step) : Reaches saved a → Reaches saved (a.step st)

end

structure Coherent [Answering T] (a : App T) : Prop where
  sound : a.terminal.Sound
  inRange : a.terminal.InRange
  held : a.terminal.fullscreen.fillsBody = true → a.terminal.panes ≠ []
  zoom : a.terminal.fullscreen = .zoom → a.terminal.zoomDistinctFromGrid = true
  focus : ∀ part, a.fillsBody part = true → a.focus = part

variable {a : App T} {saved : Option SessionState}

section

variable [Answering T]

lemma Coherent.activate (h : a.Coherent) {idx : ℕ} (hidx : idx ≤ a.terminal.panes.length - 1) :
    Coherent { a with terminal := a.terminal.activate idx } := by
  refine ⟨h.sound.activate idx, hidx, h.held, h.zoom, fun part hpart => h.focus part ?_⟩
  cases part <;> exact hpart

lemma Coherent.around (h : a.Coherent) {b : App T} (hterminal : b.terminal = a.terminal)
    (hfocus : ∀ part, b.fillsBody part = true → b.focus = part) : b.Coherent :=
  ⟨hterminal ▸ h.sound, hterminal ▸ h.inRange, hterminal ▸ h.held, hterminal ▸ h.zoom, hfocus⟩

lemma Coherent.frontTerminal (h : a.Coherent) : a.frontTerminal.Coherent := by
  refine h.around rfl (fun part hpart => ?_)
  cases part with
  | terminal => rfl
  | fileList => exact absurd hpart Bool.false_ne_true
  | diffViewer => exact absurd hpart Bool.false_ne_true

lemma Coherent.off (h : a.Coherent) :
    Coherent { a with terminal := a.terminal.setFullscreen .off } := by
  refine ⟨h.sound.setFullscreen .off, h.inRange, fun hbody => absurd hbody Bool.false_ne_true,
    fun hzoom => TerminalFullscreen.noConfusion hzoom, fun part hpart => h.focus part ?_⟩
  cases part with
  | terminal => exact absurd hpart Bool.false_ne_true
  | fileList => exact hpart
  | diffViewer => exact hpart

lemma Coherent.alike (h : a.Coherent) {v : SplitView T} (hs : v.Sound) (hv : a.terminal.Alike v) :
    Coherent { a with terminal := v } := by
  refine ⟨hs, ?_, fun hbody hnil => ?_, fun hzoom => ?_, fun part hpart => h.focus part ?_⟩
  · rw [SplitView.InRange, hv.active, hv.length]
    exact h.inRange
  · have hlength : v.panes.length = 0 := List.length_eq_zero_iff.mpr hnil
    have hfills : a.terminal.fullscreen.fillsBody = true := by rwa [← hv.fullscreen]
    exact h.held hfills (List.length_eq_zero_iff.mp (hv.length.symm.trans hlength))
  · rw [SplitView.zoomDistinctFromGrid, hv.full, hv.length]
    exact h.zoom (hv.fullscreen.symm.trans hzoom)
  · cases part with
    | terminal =>
      have hfills : v.fullscreen.fillsBody = true := hpart
      rwa [hv.fullscreen] at hfills
    | fileList => exact hpart
    | diffViewer => exact hpart

lemma clamp_coherent (hs : a.terminal.Sound)
    (hfocus : ∀ part, a.fillsBody part = true → a.focus = part) :
    a.clampActivePaneAfterRemoval.Coherent := by
  rw [clampActivePaneAfterRemoval]
  split_ifs with hempty hzoom
  · refine ⟨(hs.setFullscreen .off).activate 0, Nat.zero_le _,
      fun hbody => absurd hbody Bool.false_ne_true,
      fun hzoom => TerminalFullscreen.noConfusion hzoom, fun part hpart => ?_⟩
    cases part with
    | terminal => exact absurd hpart Bool.false_ne_true
    | fileList =>
      have hlist : a.focus = .fileList := hfocus .fileList hpart
      dsimp only
      rw [hlist]
    | diffViewer =>
      have hdiff : a.focus = .diffViewer := hfocus .diffViewer hpart
      dsimp only
      rw [hdiff]
  · have hpanes : a.terminal.panes ≠ [] := fun hnil => hempty (List.isEmpty_iff.mpr hnil)
    refine ⟨(hs.setFullscreen _).activate _, min_le_right .., fun _ => hpanes,
      fun h => TerminalFullscreen.noConfusion h, fun part hpart => hfocus part ?_⟩
    cases part with
    | terminal =>
      rw [fillsBody, hzoom.1]
      rfl
    | fileList => exact hpart
    | diffViewer => exact hpart
  · have hpanes : a.terminal.panes ≠ [] := fun hnil => hempty (List.isEmpty_iff.mpr hnil)
    refine ⟨(hs.setFullscreen _).activate _, min_le_right .., fun _ => hpanes, fun h => ?_,
      fun part hpart => hfocus part ?_⟩
    · by_contra hdistinct
      refine hzoom ⟨h, ?_⟩
      rw [Bool.not_eq_true'] at *
      exact Bool.eq_false_iff.mpr hdistinct
    · cases part <;> exact hpart

lemma restore_coherent (hs : a.terminal.Sound) (state : SessionState) :
    (a.restorePaneFocus state).Coherent := by
  rw [restorePaneFocus]
  set fullscreen : TerminalFullscreen :=
    if state.terminalFullscreen && !a.terminal.panes.isEmpty then .grid else .off with hfull
  refine ⟨(hs.activate _).setFullscreen _, min_le_right .., fun hbody hnil => ?_, fun hzoom => ?_,
    fun part hpart => ?_⟩
  · have hempty : a.terminal.panes.isEmpty = true := List.isEmpty_iff.mpr hnil
    have hoff : fullscreen = .off := by rw [hfull, hempty, Bool.not_true, Bool.and_false]; rfl
    exact absurd hbody (by
      change ¬ fullscreen.fillsBody = true
      rw [hoff]
      exact Bool.false_ne_true)
  · have hne : fullscreen ≠ .zoom := by
      rw [hfull]
      split_ifs <;> exact TerminalFullscreen.noConfusion
    exact absurd hzoom hne
  · cases part with
    | fileList => exact if_pos hpart
    | diffViewer =>
      have hdiff : (state.diffFullscreen && !fullscreen.fillsBody) = true := hpart
      dsimp only
      rw [hdiff, Bool.not_true, Bool.and_false, if_neg Bool.false_ne_true, if_pos rfl]
    | terminal =>
      have hbody : fullscreen.fillsBody = true := hpart
      dsimp only
      rw [hbody, Bool.not_true, Bool.and_false, Bool.and_false, Bool.false_and,
        if_neg Bool.false_ne_true, if_neg Bool.false_ne_true, if_pos rfl]

def drained (a : App T) (now : ℕ) (events : List (BackendEvent × ℕ)) : App T :=
  if (a.terminal.poll now events).2.2 then
    clampActivePaneAfterRemoval { a with terminal := (a.terminal.poll now events).1 }
  else { a with terminal := (a.terminal.poll now events).1 }

lemma pollTerminal_eq (a : App T) (now : ℕ) (events : List (BackendEvent × ℕ)) :
    a.pollTerminal now events =
      match (a.drained now events).pendingTerminal with
      | none => a.drained now events
      | some state =>
        if (a.drained now events).terminal.panes.isEmpty then a.drained now events
        else (a.drained now events).restorePaneFocus state :=
  rfl

lemma drained_pending (a : App T) (now : ℕ) (events : List (BackendEvent × ℕ)) :
    (a.drained now events).pendingTerminal = a.pendingTerminal := by
  rw [drained]
  split_ifs
  · rw [clampActivePaneAfterRemoval]
    split_ifs <;> rfl
  · rfl

lemma Coherent.drained (h : a.Coherent) (now : ℕ) (events : List (BackendEvent × ℕ)) :
    (a.drained now events).Coherent := by
  obtain ⟨hscreen, hfull⟩ := SplitView.poll_fullscreen now events a.terminal
  have hfocus : ∀ part,
      fillsBody { a with terminal := (a.terminal.poll now events).1 } part = true →
        a.focus = part := by
    intro part hpart
    refine h.focus part ?_
    cases part with
    | terminal =>
      have hfills : (a.terminal.poll now events).1.fullscreen.fillsBody = true := hpart
      rwa [hscreen] at hfills
    | fileList => exact hpart
    | diffViewer => exact hpart
  rw [App.drained]
  split_ifs with hexited
  · exact clamp_coherent (h.sound.poll now events) hfocus
  · have hkept := SplitView.length_poll now events (Bool.eq_false_iff.mpr hexited)
    refine ⟨h.sound.poll now events, h.inRange.poll now events (Bool.eq_false_iff.mpr hexited),
      fun hbody hnil => ?_, fun hzoom => ?_, hfocus⟩
    · have hzero : (a.terminal.poll now events).1.panes.length = 0 :=
        List.length_eq_zero_iff.mpr hnil
      have hfills : a.terminal.fullscreen.fillsBody = true := by rwa [← hscreen]
      exact h.held hfills (List.length_eq_zero_iff.mp (by omega))
    · have hdistinct := h.zoom (hscreen.symm.trans hzoom)
      rw [SplitView.zoomDistinctFromGrid, decide_eq_true_eq] at hdistinct ⊢
      dsimp only
      rw [hfull]
      omega

lemma Coherent.pollTerminal (h : a.Coherent) (now : ℕ) (events : List (BackendEvent × ℕ)) :
    (a.pollTerminal now events).Coherent := by
  have hdrained := h.drained now events
  rw [pollTerminal_eq]
  cases (a.drained now events).pendingTerminal with
  | none => exact hdrained
  | some state =>
    dsimp only
    split_ifs
    · exact hdrained
    · exact restore_coherent hdrained.sound state

lemma Coherent.unfocused (h : a.Coherent) {p : Focus} (hp : a.focus ≠ p) : a.fillsBody p = false :=
  Bool.eq_false_iff.mpr (fun hfills => hp (h.focus p hfills))

lemma Coherent.upper_off (h : a.Coherent) (hfocus : a.focus = .terminal) :
    a.diffFullscreen = false ∧ a.listFullscreen = false :=
  ⟨h.unfocused (p := .diffViewer) (fun hd => Focus.noConfusion (hfocus.symm.trans hd)),
    h.unfocused (p := .fileList) (fun hl => Focus.noConfusion (hfocus.symm.trans hl))⟩

lemma Coherent.toggleTerminalFullscreen (h : a.Coherent) (hfocus : a.focus = .terminal) :
    a.toggleTerminalFullscreen.Coherent := by
  obtain ⟨hdiff, hlist⟩ := h.upper_off hfocus
  have hnext : ∀ next : TerminalFullscreen, a.terminal.panes ≠ [] →
      (next = .zoom → a.terminal.zoomDistinctFromGrid = true) →
      Coherent { a with terminal := (a.terminal.setFullscreen next).syncVisibleWindow } := by
    intro next hpanes hzoom
    refine ⟨(h.sound.setFullscreen next).syncVisibleWindow, h.inRange, fun _ => hpanes, hzoom,
      fun part hpart => ?_⟩
    cases part with
    | terminal => exact hfocus
    | fileList => exact absurd (hlist.symm.trans hpart) Bool.false_ne_true
    | diffViewer => exact absurd (hdiff.symm.trans hpart) Bool.false_ne_true
  rw [App.toggleTerminalFullscreen]
  by_cases hempty : a.terminal.panes.isEmpty = true
  · rw [if_pos hempty]
    exact h.off
  · rw [if_neg hempty]
    have hpanes : a.terminal.panes ≠ [] := fun hnil => hempty (List.isEmpty_iff.mpr hnil)
    dsimp only
    set next : TerminalFullscreen := match a.terminal.fullscreen with
      | .off => .grid
      | .grid => if a.terminal.zoomDistinctFromGrid then .zoom else .off
      | .zoom => .off with hdef
    have hzoom : next = .zoom → a.terminal.zoomDistinctFromGrid = true := by
      intro hz
      rw [hdef] at hz
      cases hscreen : a.terminal.fullscreen with
      | off => rw [hscreen] at hz; cases hz
      | zoom => rw [hscreen] at hz; cases hz
      | grid =>
        rw [hscreen] at hz
        dsimp only at hz
        split_ifs at hz with hdistinct
        exact hdistinct
    split_ifs
    · exact (hnext next hpanes hzoom).frontTerminal
    · exact hnext next hpanes hzoom

lemma Coherent.setDiffFullscreen (h : a.Coherent) (on : Bool) :
    (a.setDiffFullscreen on).Coherent := by
  rw [App.setDiffFullscreen]
  split_ifs
  · refine h.off.around rfl (fun part hpart => ?_)
    cases part with
    | diffViewer => rfl
    | terminal => exact absurd hpart Bool.false_ne_true
    | fileList => exact absurd hpart Bool.false_ne_true
  · refine h.around rfl (fun part hpart => ?_)
    cases part with
    | diffViewer => exact absurd hpart Bool.false_ne_true
    | terminal => exact h.focus .terminal hpart
    | fileList => exact h.focus .fileList hpart

lemma Coherent.toggleListFullscreen (h : a.Coherent) : a.toggleListFullscreen.Coherent := by
  rw [App.toggleListFullscreen]
  split_ifs
  · refine h.around rfl (fun part hpart => ?_)
    cases part with
    | fileList => exact absurd hpart Bool.false_ne_true
    | terminal => exact h.focus .terminal hpart
    | diffViewer => exact h.focus .diffViewer hpart
  · refine h.off.around rfl (fun part hpart => ?_)
    cases part with
    | fileList => rfl
    | terminal => exact absurd hpart Bool.false_ne_true
    | diffViewer => exact absurd hpart Bool.false_ne_true

lemma Coherent.focusList (h : a.Coherent) : a.focusList.Coherent := by
  refine h.off.around rfl (fun part hpart => ?_)
  cases part with
  | fileList => rfl
  | terminal => exact absurd hpart Bool.false_ne_true
  | diffViewer => exact absurd hpart Bool.false_ne_true

lemma Coherent.focusDiff (h : a.Coherent) : a.focusDiff.Coherent := by
  refine h.off.around rfl (fun part hpart => ?_)
  cases part with
  | diffViewer => rfl
  | terminal => exact absurd hpart Bool.false_ne_true
  | fileList => exact absurd hpart Bool.false_ne_true

lemma Coherent.refocus (h : a.Coherent) (hnone : ∀ part, a.fillsBody part = false) (focus : Focus) :
    Coherent { a with focus } := by
  refine h.around rfl (fun part hpart => ?_)
  have hfalse := hnone part
  cases part <;> exact absurd (hfalse.symm.trans hpart) Bool.false_ne_true

lemma Coherent.focusClickedPane (h : a.Coherent) (hshows : a.showsTerminal = true) (id : PaneId) :
    (a.focusClickedPane id).Coherent := by
  have hupper : a.diffFullscreen = false ∧ a.listFullscreen = false := by
    rw [showsTerminal, Bool.or_eq_true] at hshows
    rcases hshows with hbody | hnone
    · exact h.upper_off (h.focus .terminal hbody)
    · simpa using hnone
  rw [App.focusClickedPane]
  cases hidx : a.terminal.panes.findIdx? (fun pane => pane.id = id) with
  | none => exact h
  | some idx =>
    obtain ⟨hlt, -, -⟩ := List.findIdx?_eq_some_iff_getElem.mp hidx
    refine ⟨h.sound.activate idx, Nat.le_sub_one_of_lt hlt, h.held, h.zoom, fun part hpart => ?_⟩
    cases part with
    | terminal => rfl
    | fileList => exact absurd (hupper.2.symm.trans hpart) Bool.false_ne_true
    | diffViewer => exact absurd (hupper.1.symm.trans hpart) Bool.false_ne_true

omit [Answering T] in
lemma nothing_fills (hupper : ¬ (a.diffFullscreen || a.listFullscreen) = true)
    (hbody : ¬ a.terminal.fullscreen.fillsBody = true) : ∀ part, a.fillsBody part = false := by
  rw [Bool.not_eq_true, Bool.or_eq_false_iff] at hupper
  intro part
  cases part with
  | fileList => exact hupper.2
  | diffViewer => exact hupper.1
  | terminal => exact Bool.eq_false_iff.mpr hbody

lemma Coherent.cycleFocusForward (h : a.Coherent) : a.cycleFocusForward.Coherent := by
  have hactive : a.terminal.active ≤ a.terminal.panes.length - 1 := h.inRange
  rw [App.cycleFocusForward]
  by_cases hupper : (a.diffFullscreen || a.listFullscreen) = true
  · rw [if_pos hupper]
    exact h
  rw [if_neg hupper]
  by_cases hbody : a.terminal.fullscreen.fillsBody = true
  · rw [if_pos hbody]
    split_ifs with hpos
    · exact h.activate (Nat.le_sub_one_of_lt (Nat.mod_lt _ hpos))
    · exact h
  · rw [if_neg hbody]
    have hnone := nothing_fills hupper hbody
    split
    · exact h.refocus hnone .diffViewer
    · split_ifs
      · exact (h.refocus hnone .terminal).activate (Nat.zero_le _)
      · exact h.refocus hnone .fileList
    · split_ifs with hnext
      · exact h.activate (Nat.le_sub_one_of_lt hnext)
      · exact h.refocus hnone .fileList

lemma Coherent.cycleFocusBackward (h : a.Coherent) : a.cycleFocusBackward.Coherent := by
  have hactive : a.terminal.active ≤ a.terminal.panes.length - 1 := h.inRange
  rw [App.cycleFocusBackward]
  by_cases hupper : (a.diffFullscreen || a.listFullscreen) = true
  · rw [if_pos hupper]
    exact h
  rw [if_neg hupper]
  by_cases hbody : a.terminal.fullscreen.fillsBody = true
  · rw [if_pos hbody]
    split_ifs with hpos
    · exact h.activate (Nat.le_sub_one_of_lt (Nat.mod_lt _ hpos))
    · exact h
  · rw [if_neg hbody]
    have hnone := nothing_fills hupper hbody
    split
    · split_ifs
      · exact (h.refocus hnone .terminal).activate (le_refl _)
      · exact h.refocus hnone .diffViewer
    · exact h.refocus hnone .fileList
    · split_ifs
      · exact h.activate ((Nat.sub_le _ 1).trans hactive)
      · exact h.refocus hnone .diffViewer

lemma Coherent.toggleFullscreen (h : a.Coherent) : a.toggleFullscreen.Coherent := by
  rw [App.toggleFullscreen]
  split
  · exact h.setDiffFullscreen (!a.diffFullscreen)
  · exact h.toggleListFullscreen
  · next hfocus => exact h.toggleTerminalFullscreen hfocus

omit [Answering T] in
lemma not_shown (hshows : a.showsUpper = true) : ∀ part, a.fillsBody part = false := by
  rw [showsUpper, Bool.not_eq_true', Bool.or_eq_false_iff, Bool.or_eq_false_iff] at hshows
  intro part
  cases part with
  | fileList => exact hshows.2
  | diffViewer => exact hshows.1.2
  | terminal => exact hshows.1.1

lemma initial_sound : SplitView.Sound ({} : SplitView T) :=
  ⟨⟨[], TerminalState.Tracks.start⟩, List.nodup_nil, fun _ _ h => (nomatch h),
    Nat.succ_pos 3, Nat.succ_pos 7⟩

lemma start_coherent (saved : Option SessionState) : (start saved : App T).Coherent := by
  cases saved with
  | some state => exact restore_coherent initial_sound state
  | none =>
    refine ⟨initial_sound, Nat.zero_le _, fun hbody => absurd hbody Bool.false_ne_true,
      fun hzoom => TerminalFullscreen.noConfusion hzoom, fun part hpart => ?_⟩
    cases part <;> exact absurd hpart Bool.false_ne_true

end

section

variable [Scrolling T]

lemma Coherent.step (h : a.Coherent) (st : Step) : (a.step st).Coherent := by
  cases st with
  | poll now events => exact h.pollTerminal now events
  | frame answer now layouts =>
    exact h.alike (h.sound.frame answer now layouts)
      (.of_steady (TerminalState.resizeVisiblePanes_steady answer now layouts _))
  | forceRefit => exact h.alike h.sound.forceRefit (.of_steady ⟨rfl, rfl⟩)
  | openNewPane created =>
    rw [App.step, openNewPane]
    split_ifs
    · exact (h.alike (h.sound.createPaneWith none) ⟨rfl, rfl, rfl, rfl⟩).frontTerminal
    · exact h
  | switchPane idx =>
    rw [App.step, switchPane]
    split_ifs with hidx
    · exact (h.activate (Nat.le_sub_one_of_lt hidx)).frontTerminal
    · exact h
  | swapActivePaneWith idx =>
    rw [App.step, swapActivePaneWith]
    split_ifs
    · exact h
    · exact h.frontTerminal
  | clickPane id =>
    rw [App.step]
    split_ifs with hshows
    · exact h.focusClickedPane hshows id
    · exact h
  | clickUpper diff =>
    rw [App.step]
    by_cases hshows : a.showsUpper = true
    · rw [if_pos hshows]
      exact h.refocus (not_shown hshows) _
    · rw [if_neg hshows]
      exact h
  | toggleFullscreen => exact h.toggleFullscreen
  | toggleDiffFullscreen => exact h.setDiffFullscreen (!a.diffFullscreen)
  | openTreeFile => exact h.setDiffFullscreen true
  | focusList => exact h.focusList
  | focusDiff => exact h.focusDiff
  | cycleFocusForward => exact h.cycleFocusForward
  | cycleFocusBackward => exact h.cycleFocusBackward
  | toggleView =>
    rw [App.step, revealList]
    split_ifs
    · exact h.focusList
    · exact h
  | sendInput data => exact h.alike (h.sound.sendInput data) (SplitView.sendInput_alike ..)
  | scrollPane id up lines pointer =>
    exact h.alike (h.sound.scrollPane id up lines pointer) (SplitView.scrollPane_alike ..)
  | syncScroll => exact h.alike h.sound.syncScroll (SplitView.syncScroll_alike _)

lemma Reaches.coherent (h : Reaches saved a) : a.Coherent := by
  induction h with
  | start => exact start_coherent saved
  | step st _ ih => exact ih.step st

/-- Whatever keys, clicks and drains a view goes through: each pane has an emulator and no other
has, the pane in front is drawn and the window is full, and what fills the body has the focus. -/
theorem view_stays_coherent (h : Reaches saved a) :
    a.terminal.ids.Nodup ∧
      (∀ id, id ∈ a.terminal.ids ↔ (a.terminal.emulators.lookup id).isSome) ∧
      (∀ id offset, a.terminal.scroll.lookup id = some offset →
        id ∈ a.terminal.ids ∧ 0 < offset) ∧
      (a.terminal.panes ≠ [] →
        ∃ id ∈ a.terminal.visiblePaneIds, a.terminal.activePaneId = some id) ∧
      a.terminal.visiblePaneIds.length = min a.terminal.maxVisible a.terminal.panes.length ∧
      (a.terminal.fullscreen.fillsBody = true → a.terminal.panes ≠ []) ∧
      (a.terminal.fullscreen = .zoom → a.terminal.zoomDistinctFromGrid = true) ∧
      ∀ part, a.fillsBody part = true → a.focus = part := by
  have hc := h.coherent
  obtain ⟨log, hlog⟩ := hc.sound.tracks
  exact ⟨hc.sound.nodup, hlog.held, hc.sound.scroll,
    SplitView.active_visible hc.sound hc.inRange, SplitView.length_visiblePaneIds hc.sound, hc.held,
    hc.zoom, hc.focus⟩

end

def opened : List (BackendEvent × ℕ) :=
  [(.created 1 24 80 true none, 0), (.created 2 24 80 true none, 0)]

def twoPanes : App HomeCursor := (start none).step (.poll 0 opened)

lemma twoPanes_reaches : Reaches none twoPanes := Reaches.start.step _

theorem view_stays_coherent_two :
    ∃ id ∈ twoPanes.terminal.visiblePaneIds, twoPanes.terminal.activePaneId = some id :=
  (view_stays_coherent twoPanes_reaches).2.2.2.1 (List.cons_ne_nil _ _)

/-! ## What a drain does to the focus -/

def ends (pane : PaneId) : BackendEvent → Bool
  | .exited other => other = pane
  | _ => false

def survives (events : List (BackendEvent × ℕ)) (pane : PaneId) : Bool :=
  events.all (fun event => !ends pane event.1)

lemma follow_exits {l : List PaneId} {i : ℕ} {events : List (BackendEvent × ℕ)} (hn : l.Nodup)
    (hexits : ∀ event ∈ events, ∃ pane, event.1 = .exited pane) :
    events.foldl (fun c event => event.1.follow c) (.ofIndex l i) =
      Cursor.ofIndex (l.filter (survives events)) i := by
  induction events generalizing l with
  | nil =>
    have hall : l.filter (survives []) = l := List.filter_eq_self.mpr (fun _ _ => rfl)
    rw [hall]
    rfl
  | cons event events ih =>
    obtain ⟨⟨pane, hpane⟩, hexits⟩ := List.forall_mem_cons.mp hexits
    have hdropped : event.1.follow (.ofIndex l i) = Cursor.ofIndex (l.filter (· ≠ pane)) i := by
      rw [hpane]
      exact Cursor.dropped_ofIndex hn pane
    rw [List.foldl_cons, hdropped, ih (hn.filter _) hexits, List.filter_filter]
    congr 1
    refine List.filter_congr (fun other _ => ?_)
    rw [survives, survives, List.all_cons, hpane, Bool.and_comm]
    have hsame : decide (other = pane) = decide (pane = other) := decide_eq_decide.mpr eq_comm
    rw [ends, decide_not, hsame]

lemma settled_cursor (v : SplitView T) :
    v.cursor.settled = .ofIndex v.ids (min v.active (v.panes.length - 1)) := by
  rw [← SplitView.length_ids]
  exact Cursor.settled_ofIndex ..

lemma drained_cursor [Answering T] (h : a.Coherent) (now : ℕ) (events : List (BackendEvent × ℕ)) :
    (a.drained now events).terminal.cursor =
      (events.foldl (fun c event => event.1.follow c) a.terminal.cursor).settled := by
  rw [← SplitView.cursor_poll now events h.sound.nodup, settled_cursor, drained]
  split_ifs with hexited
  · rw [clampActivePaneAfterRemoval]
    split_ifs with hempty
    · have hzero : (a.terminal.poll now events).1.panes.length = 0 :=
        List.length_eq_zero_iff.mpr (List.isEmpty_iff.mp hempty)
      refine congrArg (Cursor.ofIndex _) (Eq.symm ?_)
      rw [hzero]
      exact Nat.min_zero _
    · rfl
    · rfl
  · have hlast := h.inRange.poll now events (Bool.eq_false_iff.mpr hexited)
    exact congrArg (Cursor.ofIndex _) (min_eq_left hlast).symm

/-- A drain takes the focus along: it goes with its pane through creations and new orders, moves to
the pane after it for each exit at or before it, and ends on the last pane where there is none.
So of panes that only exit it stays where it was exactly if that one stays, and either nothing
before it goes or everything after it does. -/
theorem drain_takes_focus_along [Scrolling T] (h : Reaches saved a) (hp : a.pendingTerminal = none)
    (now : ℕ) (events : List (BackendEvent × ℕ)) :
    (a.pollTerminal now events).terminal.activePaneId =
        (events.foldl (fun c event => event.1.follow c) a.terminal.cursor).settled.focus ∧
      ((∀ event ∈ events, ∃ pane, event.1 = .exited pane) →
        ∀ pane, a.terminal.activePaneId = some pane →
          ((a.pollTerminal now events).terminal.activePaneId = some pane ↔
            survives events pane = true ∧
              ((∀ other ∈ a.terminal.ids.take a.terminal.active, survives events other = true) ∨
                ∀ other ∈ a.terminal.ids.drop (a.terminal.active + 1),
                  ¬ survives events other = true))) := by
  have hc := h.coherent
  have hpending : (a.drained now events).pendingTerminal = none := (drained_pending ..).trans hp
  have hdrained : a.pollTerminal now events = a.drained now events := by
    rw [pollTerminal_eq, hpending]
  have hfocus : (a.pollTerminal now events).terminal.activePaneId =
      (events.foldl (fun c event => event.1.follow c) a.terminal.cursor).settled.focus := by
    rw [hdrained, ← drained_cursor hc now events]
    exact TerminalState.focus_cursor.symm
  refine ⟨hfocus, fun hexits pane hpane => ?_⟩
  have hfront : a.terminal.ids[a.terminal.active]? = some pane :=
    List.getElem?_map.trans hpane
  have hfollow : events.foldl (fun c event => event.1.follow c) a.terminal.cursor =
      Cursor.ofIndex (a.terminal.ids.filter (survives events)) a.terminal.active :=
    follow_exits hc.sound.nodup hexits
  rw [hfocus, hfollow, Cursor.settled_ofIndex, Cursor.focus_ofIndex]
  exact Cursor.getElem?_filter_iff hc.sound.nodup hfront (survives events)

theorem drain_takes_focus_along_two :
    (twoPanes.pollTerminal 0 [(.exited 1, 0)]).terminal.activePaneId = some 2 := by
  rw [(drain_takes_focus_along twoPanes_reaches rfl 0 [(.exited 1, 0)]).1]
  decide

/-! ## A view that is saved and opened again -/

lemma step_pending [Scrolling T] (a : App T) (st : Step) :
    (a.step st).pendingTerminal = a.pendingTerminal ∨ (a.step st).pendingTerminal = none := by
  cases st with
  | poll now events =>
    rw [App.step, pollTerminal_eq]
    cases hpending : (a.drained now events).pendingTerminal with
    | none => exact .inr hpending
    | some state =>
      dsimp only
      split_ifs with hempty
      · exact .inl (drained_pending ..)
      · refine .inr ?_
        rw [restorePaneFocus]
        exact if_pos (by rw [Bool.eq_false_iff.mpr hempty]; rfl)
  | frame answer now layouts => exact .inl rfl
  | forceRefit => exact .inl rfl
  | openNewPane created => rw [App.step, openNewPane]; split_ifs <;> exact .inl rfl
  | switchPane idx => rw [App.step, switchPane]; split_ifs <;> exact .inl rfl
  | swapActivePaneWith idx => rw [App.step, swapActivePaneWith]; split_ifs <;> exact .inl rfl
  | clickPane id =>
    rw [App.step, focusClickedPane]
    split_ifs
    · split <;> exact .inl rfl
    · exact .inl rfl
  | clickUpper diff => rw [App.step]; split_ifs <;> exact .inl rfl
  | toggleFullscreen =>
    rw [App.step, toggleFullscreen]
    split
    · rw [toggleDiffFullscreen, setDiffFullscreen]; split_ifs <;> exact .inl rfl
    · rw [toggleListFullscreen]; split_ifs <;> exact .inl rfl
    · rw [toggleTerminalFullscreen]; dsimp only; split_ifs <;> exact .inl rfl
  | toggleDiffFullscreen =>
    rw [App.step, toggleDiffFullscreen, setDiffFullscreen]; split_ifs <;> exact .inl rfl
  | openTreeFile => rw [App.step, setDiffFullscreen]; split_ifs <;> exact .inl rfl
  | focusList => exact .inl rfl
  | focusDiff => exact .inl rfl
  | cycleFocusForward =>
    rw [App.step, cycleFocusForward]
    cases a.focus <;> dsimp only <;> split_ifs <;> exact .inl rfl
  | cycleFocusBackward =>
    rw [App.step, cycleFocusBackward]
    cases a.focus <;> dsimp only <;> split_ifs <;> exact .inl rfl
  | toggleView => rw [App.step, revealList]; split_ifs <;> exact .inl rfl
  | sendInput data => exact .inl rfl
  | scrollPane id up lines pointer => exact .inl rfl
  | syncScroll => exact .inl rfl

lemma Reaches.waits [Scrolling T] {state : SessionState} (h : Reaches (some state) a) :
    a.pendingTerminal = some state ∨ a.pendingTerminal = none := by
  induction h with
  | start => exact .inl rfl
  | @step b st _ ih =>
    rcases step_pending b st with hsame | hnone
    · rwa [hsame]
    · exact .inr hnone

lemma restore_saved [Answering T] {b : App T} (h : a.Coherent)
    (hheld : b.terminal.panes.isEmpty = false) :
    (b.restorePaneFocus a.saveSession).focus = a.focus ∧
      (∀ part, (b.restorePaneFocus a.saveSession).fillsBody part = a.fillsBody part) ∧
      (b.restorePaneFocus a.saveSession).terminal.fullscreen ≠ .zoom ∧
      (b.restorePaneFocus a.saveSession).terminal.active =
        min a.terminal.active ((b.restorePaneFocus a.saveSession).terminal.panes.length - 1) ∧
      (b.restorePaneFocus a.saveSession).pendingTerminal = none := by
  have hdiff : (a.diffFullscreen && !a.terminal.fullscreen.fillsBody) = a.diffFullscreen := by
    cases hd : a.diffFullscreen with
    | false => rfl
    | true =>
      have hfocus : a.focus = .diffViewer := h.focus .diffViewer hd
      have hoff : a.terminal.fullscreen.fillsBody = false :=
        h.unfocused (p := .terminal) (fun ht => Focus.noConfusion (hfocus.symm.trans ht))
      rw [hoff]
      rfl
  have hlist : (a.listFullscreen && !a.terminal.fullscreen.fillsBody && !a.diffFullscreen) =
      a.listFullscreen := by
    cases hl : a.listFullscreen with
    | false => rfl
    | true =>
      have hfocus : a.focus = .fileList := h.focus .fileList hl
      have hoff : a.terminal.fullscreen.fillsBody = false :=
        h.unfocused (p := .terminal) (fun ht => Focus.noConfusion (hfocus.symm.trans ht))
      have hnodiff : a.diffFullscreen = false :=
        h.unfocused (p := .diffViewer) (fun hd => Focus.noConfusion (hfocus.symm.trans hd))
      rw [hoff, hnodiff]
      rfl
  have hgrid : (if a.terminal.fullscreen.fillsBody && !false then TerminalFullscreen.grid
      else .off).fillsBody = a.terminal.fullscreen.fillsBody := by
    cases a.terminal.fullscreen.fillsBody <;> rfl
  rw [restorePaneFocus, saveSession, hheld]
  dsimp only
  rw [hgrid, hdiff, hlist]
  refine ⟨?_, fun part => ?_, ?_, rfl, rfl⟩
  · split_ifs with hl hd hbody
    · exact (h.focus .fileList hl).symm
    · exact (h.focus .diffViewer hd).symm
    · exact (h.focus .terminal hbody).symm
    · cases a.focus <;> rfl
    · next hheld => exact absurd rfl hheld
  · cases part with
    | fileList => rfl
    | diffViewer => rfl
    | terminal => exact hgrid
  · split_ifs <;> exact TerminalFullscreen.noConfusion

/-- A view that was saved at any moment comes back as it was once its panes are there, whatever was
done to the one it is opened in before: the same part has the focus and fills the body, zoomed panes
as a grid, and the same place in the panes is in front. -/
theorem saved_view_returns [Scrolling T] {b : App T} (ha : Reaches saved a)
    (hb : Reaches (some a.saveSession) b) (hwaits : b.pendingTerminal.isSome = true) {now : ℕ}
    {events : List (BackendEvent × ℕ)}
    (hpanes : (b.pollTerminal now events).terminal.panes ≠ []) :
    (b.pollTerminal now events).focus = a.focus ∧
      (∀ part, (b.pollTerminal now events).fillsBody part = a.fillsBody part) ∧
      (b.pollTerminal now events).terminal.fullscreen ≠ .zoom ∧
      (b.pollTerminal now events).terminal.active =
        min a.terminal.active ((b.pollTerminal now events).terminal.panes.length - 1) ∧
      (b.pollTerminal now events).pendingTerminal = none := by
  have hc := ha.coherent
  have hpending : (b.drained now events).pendingTerminal = some a.saveSession := by
    rw [drained_pending]
    rcases hb.waits with hstate | hnone
    · exact hstate
    · rw [hnone] at hwaits
      exact absurd hwaits Bool.false_ne_true
  have hheld : (b.drained now events).terminal.panes ≠ [] := by
    intro hnil
    refine hpanes ?_
    rw [pollTerminal_eq, hpending]
    dsimp only
    rw [if_pos (List.isEmpty_iff.mpr hnil)]
    exact hnil
  have hempty : (b.drained now events).terminal.panes.isEmpty = false :=
    Bool.eq_false_iff.mpr (fun he => hheld (List.isEmpty_iff.mp he))
  have hrestored : b.pollTerminal now events =
      (b.drained now events).restorePaneFocus a.saveSession := by
    rw [pollTerminal_eq, hpending]
    dsimp only
    rw [hempty, if_neg Bool.false_ne_true]
  rw [hrestored]
  exact restore_saved hc hempty

def twoFullscreen : App HomeCursor := twoPanes.step .toggleFullscreen

theorem saved_view_returns_two :
    ((start (some twoFullscreen.saveSession) : App HomeCursor).pollTerminal 0 opened).fillsBody
      .terminal = true := by
  have hpanes : ((start (some twoFullscreen.saveSession) : App HomeCursor).pollTerminal 0
      opened).terminal.panes ≠ [] := List.cons_ne_nil _ _
  have hfull : Reaches none twoFullscreen := twoPanes_reaches.step .toggleFullscreen
  exact ((saved_view_returns hfull .start rfl hpanes).2.1 .terminal).trans rfl

end App

end Nightcrow.Application.Navigation
