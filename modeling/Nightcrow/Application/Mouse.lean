import Mathlib

/-! Mouse events over one project: which pane is told of a press, and of its release. -/

namespace Nightcrow.Application.Mouse

abbrev PaneId := UInt32

inductive MouseButton where
  | left
  | right
  | middle
deriving DecidableEq

inductive MouseEventKind where
  | down (button : MouseButton)
  | up (button : MouseButton)
  | drag (button : MouseButton)
  | moved
  | scrollUp
  | scrollDown
  | scrollLeft
  | scrollRight

structure MouseEvent where
  kind : MouseEventKind
  column : UInt16
  row : UInt16
  plain : Bool

structure Rect where
  x : UInt16
  y : UInt16
  width : UInt16
  height : UInt16
  fits : x.toNat + width.toNat < 2 ^ 16 ∧ y.toNat + height.toNat < 2 ^ 16

namespace Rect

def right (r : Rect) : UInt16 := r.x + r.width

def bottom (r : Rect) : UInt16 := r.y + r.height

def contains (r : Rect) (x y : UInt16) : Bool :=
  r.x ≤ x && x < r.right && r.y ≤ y && y < r.bottom

end Rect

inductive Focus where
  | fileList
  | diffViewer
  | terminal

inductive HintClick where
  | arm
  | leader (c : Char)
  | plain (c : Char)

inductive KeyOutcome where
  | continue
  | switchProject (idx : ℕ)
  | openLink (target base : String)
  | hint (click : HintClick)

structure Emulator where
  wantsMouseButtons : Bool
  linkAt : UInt16 → UInt16 → Option String

structure App where
  repositoryPath : String
  panes : List PaneId
  active : ℕ
  emulators : PaneId → Option Emulator
  focus : Focus
  diffFullscreen : Bool
  listFullscreen : Bool
  searchOverlayActive : Bool
  awaitingSwapTarget : Bool
  prefixArmed : Bool
  pendingMousePress : Option (PaneId × MouseButton × UInt16 × UInt16) := none

structure Screen where
  contentAreas : List (PaneId × Rect)
  projectTabAt : UInt16 → UInt16 → Option ℕ
  upperPanelAt : UInt16 → UInt16 → Option Focus
  tabClickAt : UInt16 → UInt16 → Option ℕ
  hintClickAt : UInt16 → UInt16 → Option HintClick

structure Report where
  pane : PaneId
  button : MouseButton
  press : Bool
  col : UInt16
  row : UInt16
deriving DecidableEq

inductive Call where
  | report (r : Report)
  | scroll (pane : PaneId) (up : Bool) (col row : UInt16)
  | wheelHorizontal (pane : PaneId) (left : Bool) (col row : UInt16)
  | swapActiveWith (idx : ℕ)

namespace App

variable (app : App)

def wantsMouseButtons (id : PaneId) : Bool := (app.emulators id).any Emulator.wantsMouseButtons

def clickPane (id : PaneId) (button : MouseButton) (press : Bool) (col row : UInt16) :
    Option Report :=
  if app.wantsMouseButtons id then some ⟨id, button, press, col, row⟩ else none

def focusClickedPane (id : PaneId) : App :=
  let app := { app with prefixArmed := false }
  if id ∈ app.panes then { app with active := app.panes.idxOf id, focus := .terminal } else app

def switchPane (idx : ℕ) : App :=
  if idx < app.panes.length then
    { app with
      active := idx
      focus := .terminal
      diffFullscreen := false
      listFullscreen := false }
  else app

def swapActivePaneWith (idx : ℕ) : App × List Call :=
  if idx < app.panes.length ∧ idx ≠ app.active then
    ({ app with focus := .terminal, diffFullscreen := false, listFullscreen := false },
      [.swapActiveWith idx])
  else (app, [])

end App

def cell (position origin : UInt16) : Option UInt16 :=
  if origin ≤ position ∧ (position - origin).toNat + 1 < 2 ^ 16 then some (position - origin + 1)
  else none

def clampTo (position origin stop : UInt16) : Option UInt16 :=
  if 0 < stop ∧ origin ≤ stop - 1 then
    some (if position < origin then origin
      else if stop - 1 < position then stop - 1 else position)
  else none

variable (screen : Screen) (mouse : MouseEvent) (app : App)

def paneAt (x y : UInt16) : Option (PaneId × Rect) :=
  screen.contentAreas.find? (fun area => area.2.contains x y)

def areaOf (areas : List (PaneId × Rect)) (id : PaneId) : Option Rect :=
  (areas.find? (fun area => area.1 = id)).map Prod.snd

def releasePendingPress : Option (App × List Call) :=
  match app.pendingMousePress with
  | none => some (app, [])
  | some (id, pressed, _, _) =>
    let app := { app with pendingMousePress := none }
    match areaOf screen.contentAreas id with
    | none => some (app, [])
    | some rect =>
      if rect.width = 0 ∨ rect.height = 0 then some (app, [])
      else do
        let col ← cell (← clampTo mouse.column rect.x rect.right) rect.x
        let row ← cell (← clampTo mouse.row rect.y rect.bottom) rect.y
        pure (app, ((app.clickPane id pressed false col row).map Call.report).toList)

def nameSwapTarget (button : MouseButton) : App × List Call :=
  let app := { app with awaitingSwapTarget := false }
  if button = .left then
    let target := ((paneAt screen mouse.column mouse.row).bind (fun area =>
      if area.1 ∈ app.panes then some (app.panes.idxOf area.1) else none)).or
        (screen.tabClickAt mouse.column mouse.row)
    target.elim (app, []) app.swapActivePaneWith
  else (app, [])

def clickOutside (button : MouseButton) : App × KeyOutcome :=
  let disarmed := { app with prefixArmed := false }
  match if button = .left then screen.projectTabAt mouse.column mouse.row else none with
  | some idx => (disarmed, .switchProject idx)
  | none =>
    match screen.upperPanelAt mouse.column mouse.row with
    | some focus => ({ disarmed with focus }, .continue)
    | none =>
      if button = .left then
        match screen.tabClickAt mouse.column mouse.row with
        | some idx => (disarmed.switchPane idx, .continue)
        | none =>
          match screen.hintClickAt mouse.column mouse.row with
          | some click => (app, .hint click)
          | none => (app, .continue)
      else (app, .continue)

def linkUnder (id : PaneId) (button : MouseButton) (col row : UInt16) : Option String :=
  if button = .left ∧ mouse.plain then
    (app.emulators id).bind (fun emulator => emulator.linkAt (row - 1) (col - 1))
  else none

def pressPane (id : PaneId) (button : MouseButton) (col row : UInt16) :
    App × List Call × KeyOutcome :=
  let app := app.focusClickedPane id
  match linkUnder mouse app id button col row with
  | some target => (app, [], .openLink target app.repositoryPath)
  | none =>
    match app.clickPane id button true col row with
    | some report =>
      ({ app with pendingMousePress := some (id, button, col, row) }, [.report report], .continue)
    | none => (app, [], .continue)

def handleMouse : Option (App × List Call × KeyOutcome) :=
  match mouse.kind with
  | .up _ => (releasePendingPress screen mouse app).map (fun r => (r.1, r.2, .continue))
  | .down button =>
    if app.searchOverlayActive then some (app, [], .continue)
    else if app.awaitingSwapTarget then
      let (app, calls) := nameSwapTarget screen mouse app button
      some (app, calls, .continue)
    else
      match paneAt screen mouse.column mouse.row with
      | none =>
        let (app, outcome) := clickOutside screen mouse app button
        some (app, [], outcome)
      | some (id, rect) => do
        let col ← cell mouse.column rect.x
        let row ← cell mouse.row rect.y
        pure (pressPane mouse app id button col row)
  | kind =>
    if app.searchOverlayActive then some (app, [], .continue)
    else
      match paneAt screen mouse.column mouse.row with
      | none => some (app, [], .continue)
      | some (id, rect) => do
        let col ← cell mouse.column rect.x
        let row ← cell mouse.row rect.y
        pure (app, (match kind with
          | .scrollUp => [.scroll id true col row]
          | .scrollDown => [.scroll id false col row]
          | .scrollLeft => [.wheelHorizontal id true col row]
          | .scrollRight => [.wheelHorizontal id false col row]
          | _ => []), .continue)

def dispatchMouse (repoInputActive : Bool) : Option (App × List Call × KeyOutcome) :=
  let isRelease := match mouse.kind with
    | .up _ => true
    | _ => false
  if repoInputActive && !isRelease then some (app, [], .continue)
  else handleMouse screen mouse app

/-- What has been seen: a release of a button, with what was laid out and who wanted to be told, or
a report, with what was laid out. -/
inductive Entry where
  | up (areas : List (PaneId × Rect)) (wants : PaneId → Bool)
  | report (r : Report) (areas : List (PaneId × Rect))

structure World where
  app : App
  repoInputActive : Bool
  held : ℕ := 0
  log : List Entry := []

inductive Step where
  | mouse (screen : Screen) (event : MouseEvent)
  | other (app : App) (repoInputActive : Bool)

def Call.report? : Call → Option Report
  | .report r => some r
  | _ => none

def MouseEventKind.held (kind : MouseEventKind) (held : ℕ) : ℕ :=
  match kind with
  | .down _ => held + 1
  | .up _ => held - 1
  | _ => held

def MouseEventKind.isUp : MouseEventKind → Bool
  | .up _ => true
  | _ => false

namespace World

def step (w : World) : Step → Option World
  | .mouse screen event =>
    (dispatchMouse screen event w.app w.repoInputActive).map (fun done =>
      { w with
        app := done.1
        held := event.kind.held w.held
        log := (done.2.1.filterMap Call.report?).reverse.map (.report · screen.contentAreas) ++
          ((if event.kind.isUp then [.up screen.contentAreas w.app.wantsMouseButtons] else []) ++
            w.log) })
  | .other app repoInputActive =>
    some { w with
      app := { app with pendingMousePress := w.app.pendingMousePress }
      repoInputActive }

def forwards (w : World) (screen : Screen) (event : MouseEvent) : Option PaneId :=
  match event.kind, paneAt screen event.column event.row with
  | .down button, some (id, rect) =>
    if w.repoInputActive ∨ w.app.searchOverlayActive ∨ w.app.awaitingSwapTarget ∨
      (linkUnder event w.app id button (event.column - rect.x + 1)
        (event.row - rect.y + 1)).isSome ∨ ¬ w.app.wantsMouseButtons id then none
    else some id
  | _, _ => none

/-- No press is forwarded while another waits for its release. -/
def OneAtATime (w : World) : Step → Prop
  | .mouse screen event => (w.forwards screen event).isSome → w.app.pendingMousePress = none
  | .other _ _ => True

inductive Reaches (Meets : World → Step → Prop) : World → Prop where
  | new (app : App) (repoInputActive : Bool) (h : app.pendingMousePress = none) :
    Reaches Meets { app, repoInputActive }
  | step {w w' : World} {st : Step} (h : Reaches Meets w) (hmeets : Meets w st)
    (hstep : w.step st = some w') : Reaches Meets w'

end World

def Rect.Holds (r : Rect) (col row : UInt16) : Prop :=
  (0 < col.toNat ∧ col.toNat ≤ r.width.toNat) ∧ 0 < row.toNat ∧ row.toNat ≤ r.height.toNat

def Serves (areas : List (PaneId × Rect)) (wants : PaneId → Bool) (id : PaneId) : Prop :=
  wants id = true ∧ ∃ rect, areaOf areas id = some rect ∧ rect.width ≠ 0 ∧ rect.height ≠ 0

variable {screen mouse app} {x y position origin width col row : UInt16} {rect : Rect}
  {id : PaneId} {button : MouseButton} {areas : List (PaneId × Rect)}

lemma toNat_stop (h : origin.toNat + width.toNat < 2 ^ 16) :
    (origin + width).toNat = origin.toNat + width.toNat := by
  rw [UInt16.toNat_add, Nat.mod_eq_of_lt h]

lemma cell_eq (h : origin ≤ position) (hstop : position < origin + width)
    (hfits : origin.toNat + width.toNat < 2 ^ 16) :
    cell position origin = some (position - origin + 1) ∧
      0 < (position - origin + 1).toNat ∧ (position - origin + 1).toNat ≤ width.toNat := by
  have hlt : position.toNat < origin.toNat + width.toNat := by
    rw [← toNat_stop hfits]
    exact UInt16.lt_iff_toNat_lt.mp hstop
  have hle : origin.toNat ≤ position.toNat := UInt16.le_iff_toNat_le.mp h
  have hsub : (position - origin).toNat = position.toNat - origin.toNat :=
    UInt16.toNat_sub_of_le _ _ h
  have hone : (position - origin + 1).toNat = position.toNat - origin.toNat + 1 := by
    rw [UInt16.toNat_add, hsub]
    exact Nat.mod_eq_of_lt (show position.toNat - origin.toNat + 1 < 2 ^ 16 by omega)
  refine ⟨if_pos ⟨h, ?_⟩, ?_, ?_⟩ <;> omega

lemma clampTo_eq (position : UInt16) (hwidth : width ≠ 0)
    (hfits : origin.toNat + width.toNat < 2 ^ 16) :
    ∃ p, clampTo position origin (origin + width) = some p ∧ origin ≤ p ∧ p < origin + width := by
  have hpos : 0 < width.toNat :=
    Nat.pos_of_ne_zero (fun h => hwidth (UInt16.toNat_inj.mp h))
  have hstop := toNat_stop hfits
  have hzero : 0 < origin + width := by
    rw [UInt16.lt_iff_toNat_lt, hstop]
    exact hpos.trans_le (Nat.le_add_left _ _)
  have hlast : (origin + width - 1).toNat = origin.toNat + width.toNat - 1 := by
    rw [UInt16.toNat_sub_of_le _ _
        (UInt16.le_iff_toNat_le.mpr (hpos.trans_le (hstop ▸ Nat.le_add_left _ _))),
      hstop]
    rfl
  have hle : origin ≤ origin + width - 1 := by
    rw [UInt16.le_iff_toNat_le, hlast]
    omega
  refine ⟨_, if_pos ⟨hzero, hle⟩, ?_⟩
  simp only [UInt16.le_iff_toNat_le, UInt16.lt_iff_toNat_lt, hstop] at hle ⊢
  split_ifs <;> omega

lemma paneAt_cell (h : paneAt screen x y = some (id, rect)) :
    (id, rect) ∈ screen.contentAreas ∧ cell x rect.x = some (x - rect.x + 1) ∧
      cell y rect.y = some (y - rect.y + 1) ∧ rect.Holds (x - rect.x + 1) (y - rect.y + 1) := by
  have hcontains := List.find?_some h
  simp only [Rect.contains, Bool.and_eq_true, decide_eq_true_eq] at hcontains
  obtain ⟨⟨⟨hleft, hright⟩, htop⟩, hbottom⟩ := hcontains
  obtain ⟨hcol, hcols⟩ := cell_eq hleft hright rect.fits.1
  obtain ⟨hrow, hrows⟩ := cell_eq htop hbottom rect.fits.2
  exact ⟨List.mem_of_find?_eq_some h, hcol, hrow, hcols, hrows⟩

lemma areaOf_mem (h : areaOf areas id = some rect) : (id, rect) ∈ areas := by
  obtain ⟨area, hfind, rfl⟩ := Option.map_eq_some_iff.mp h
  have hid := List.find?_some hfind
  obtain rfl : area.1 = id := of_decide_eq_true hid
  exact List.mem_of_find?_eq_some hfind

lemma releasePendingPress_spec (screen : Screen) (mouse : MouseEvent) (app : App) :
    ∃ calls, releasePendingPress screen mouse app =
        some ({ app with pendingMousePress := none }, calls) ∧
      match app.pendingMousePress with
      | none => calls = []
      | some (id, button, _, _) =>
        (¬ Serves screen.contentAreas app.wantsMouseButtons id ∧ calls = []) ∨
        (Serves screen.contentAreas app.wantsMouseButtons id ∧ ∃ col row rect,
          calls = [.report ⟨id, button, false, col, row⟩] ∧
          (id, rect) ∈ screen.contentAreas ∧ rect.Holds col row) := by
  obtain ⟨path, panes, active, emulators, focus, diff, list, overlay, swap, armed, pending⟩ := app
  cases pending with
  | none => exact ⟨[], rfl, rfl⟩
  | some press =>
    obtain ⟨id, button, col, row⟩ := press
    rw [releasePendingPress]
    dsimp only
    cases harea : areaOf screen.contentAreas id with
    | none =>
      refine ⟨[], rfl, .inl ⟨?_, rfl⟩⟩
      rintro ⟨-, rect, harea', -⟩
      exact (nomatch harea.symm.trans harea')
    | some rect =>
      dsimp only
      by_cases hempty : rect.width = 0 ∨ rect.height = 0
      · rw [if_pos hempty]
        refine ⟨[], rfl, .inl ⟨?_, rfl⟩⟩
        rintro ⟨-, rect', harea', hwidth, hheight⟩
        obtain rfl := Option.some.inj (harea.symm.trans harea')
        exact hempty.elim hwidth hheight
      · obtain ⟨hwidth, hheight⟩ := not_or.mp hempty
        obtain ⟨px, hpx, hleft, hright⟩ := clampTo_eq mouse.column hwidth rect.fits.1
        obtain ⟨py, hpy, htop, hbottom⟩ := clampTo_eq mouse.row hheight rect.fits.2
        obtain ⟨hcol, hcols⟩ := cell_eq hleft hright rect.fits.1
        obtain ⟨hrow, hrows⟩ := cell_eq htop hbottom rect.fits.2
        rw [if_neg hempty, Rect.right, Rect.bottom, hpx, hpy]
        simp only [Option.bind_eq_bind, Option.bind_some, hcol, hrow]
        refine ⟨_, rfl, ?_⟩
        rw [App.clickPane]
        split
        · rename_i hwants
          exact .inr ⟨⟨hwants, rect, harea, hwidth, hheight⟩, _, _, rect, rfl, areaOf_mem harea,
            hcols, hrows⟩
        · rename_i hwants
          exact .inl ⟨fun h => hwants h.1, rfl⟩

lemma focusClickedPane_eq (app : App) (id : PaneId) :
    (app.focusClickedPane id).pendingMousePress = app.pendingMousePress ∧
      (app.focusClickedPane id).emulators = app.emulators := by
  rw [App.focusClickedPane]
  split <;> exact ⟨rfl, rfl⟩

lemma pressPane_spec (mouse : MouseEvent) (app : App) (id : PaneId) (button : MouseButton)
    (col row : UInt16) :
    (((linkUnder mouse app id button col row).isSome ∨ ¬ app.wantsMouseButtons id) ∧
      (pressPane mouse app id button col row).2.1 = [] ∧
      (pressPane mouse app id button col row).1.pendingMousePress = app.pendingMousePress) ∨
    (linkUnder mouse app id button col row = none ∧ app.wantsMouseButtons id ∧
      (pressPane mouse app id button col row).2.1 = [.report ⟨id, button, true, col, row⟩] ∧
      (pressPane mouse app id button col row).1.pendingMousePress =
        some (id, button, col, row)) := by
  obtain ⟨hpending, hemulators⟩ := focusClickedPane_eq app id
  have hlink : linkUnder mouse (app.focusClickedPane id) id button col row =
      linkUnder mouse app id button col row := by
    rw [linkUnder, linkUnder, hemulators]
  have hwanted : (app.focusClickedPane id).wantsMouseButtons id = app.wantsMouseButtons id := by
    rw [App.wantsMouseButtons, App.wantsMouseButtons, hemulators]
  rw [pressPane, hlink]
  cases hunder : linkUnder mouse app id button col row with
  | some target => exact .inl ⟨.inl rfl, rfl, hpending⟩
  | none =>
    dsimp only
    rw [App.clickPane, hwanted]
    split
    · rename_i hclick
      split at hclick
      · rename_i hwants
        obtain rfl := Option.some.inj hclick
        exact .inr ⟨rfl, hwants, rfl, rfl⟩
      · cases hclick
    · rename_i hclick
      split at hclick
      · cases hclick
      · rename_i hwants
        exact .inl ⟨.inr hwants, rfl, hpending⟩

inductive Handled (screen : Screen) (w : World) (event : MouseEvent) (app' : App)
    (calls : List Call) : Prop where
  | quiet (hkind : event.kind.isUp = false) (hcalls : calls.filterMap Call.report? = [])
    (hpending : app'.pendingMousePress = w.app.pendingMousePress)
  | press (button : MouseButton) (id : PaneId) (col row : UInt16) (rect : Rect)
    (hkind : event.kind = .down button) (hforwards : w.forwards screen event = some id)
    (hcalls : calls = [.report ⟨id, button, true, col, row⟩])
    (hpending : app'.pendingMousePress = some (id, button, col, row))
    (harea : (id, rect) ∈ screen.contentAreas) (hcell : rect.Holds col row)
  | idle (hkind : event.kind.isUp = true) (hnone : w.app.pendingMousePress = none)
    (hcalls : calls = []) (hpending : app'.pendingMousePress = none)
  | drop (button : MouseButton) (id : PaneId) (col row : UInt16) (hkind : event.kind.isUp = true)
    (hsome : w.app.pendingMousePress = some (id, button, col, row))
    (hserves : ¬ Serves screen.contentAreas w.app.wantsMouseButtons id)
    (hcalls : calls = []) (hpending : app'.pendingMousePress = none)
  | release (button : MouseButton) (id : PaneId) (col row col' row' : UInt16) (rect : Rect)
    (hkind : event.kind.isUp = true)
    (hsome : w.app.pendingMousePress = some (id, button, col', row'))
    (hcalls : calls = [.report ⟨id, button, false, col, row⟩])
    (hpending : app'.pendingMousePress = none)
    (harea : (id, rect) ∈ screen.contentAreas) (hcell : rect.Holds col row)

lemma nameSwapTarget_quiet (screen : Screen) (mouse : MouseEvent) (app : App)
    (button : MouseButton) :
    (nameSwapTarget screen mouse app button).2.filterMap Call.report? = [] ∧
      (nameSwapTarget screen mouse app button).1.pendingMousePress = app.pendingMousePress := by
  have hswap : ∀ (app : App) idx, (app.swapActivePaneWith idx).2.filterMap Call.report? = [] ∧
      (app.swapActivePaneWith idx).1.pendingMousePress = app.pendingMousePress := by
    intro app idx
    rw [App.swapActivePaneWith]
    split <;> exact ⟨rfl, rfl⟩
  rw [nameSwapTarget]
  dsimp only
  split
  · cases ((paneAt screen mouse.column mouse.row).bind (fun area =>
      if area.1 ∈ app.panes then some (app.panes.idxOf area.1) else none)).or
        (screen.tabClickAt mouse.column mouse.row) with
    | none => exact ⟨rfl, rfl⟩
    | some idx => exact hswap { app with awaitingSwapTarget := false } idx
  · exact ⟨rfl, rfl⟩

lemma clickOutside_quiet (screen : Screen) (mouse : MouseEvent) (app : App)
    (button : MouseButton) :
    (clickOutside screen mouse app button).1.pendingMousePress = app.pendingMousePress := by
  have hswitch : ∀ (app : App) idx, (app.switchPane idx).pendingMousePress =
      app.pendingMousePress := by
    intro app idx
    rw [App.switchPane]
    split <;> rfl
  rw [clickOutside]
  dsimp only
  split
  · rfl
  · split
    · rfl
    · split
      · split
        · exact hswitch { app with prefixArmed := false } _
        · split <;> rfl
      · rfl

lemma dispatch_handled (screen : Screen) (w : World) (event : MouseEvent) :
    ∃ done, dispatchMouse screen event w.app w.repoInputActive = some done ∧
      Handled screen w event done.1 done.2.1 := by
  obtain ⟨kind, x, y, plain⟩ := event
  have hup : ∀ button, ∃ done, handleMouse screen ⟨.up button, x, y, plain⟩ w.app = some done ∧
      Handled screen w ⟨.up button, x, y, plain⟩ done.1 done.2.1 := by
    intro button
    obtain ⟨calls, heq, hspec⟩ := releasePendingPress_spec screen ⟨.up button, x, y, plain⟩ w.app
    rw [handleMouse]
    dsimp only
    rw [heq]
    refine ⟨_, rfl, ?_⟩
    cases hpending : w.app.pendingMousePress with
    | none =>
      rw [hpending] at hspec
      exact .idle rfl hpending hspec rfl
    | some press =>
      rw [hpending] at hspec
      rcases hspec with ⟨hserves, hcalls⟩ | ⟨-, col, row, rect, hcalls, harea, hcell⟩
      · exact .drop press.2.1 press.1 _ _ rfl hpending hserves hcalls rfl
      · exact .release press.2.1 press.1 col row _ _ rect rfl hpending hcalls rfl harea hcell
  have hquiet : ∀ kind : MouseEventKind, kind.isUp = false → ∀ app' outcome,
      app'.pendingMousePress = w.app.pendingMousePress → ∀ calls : List Call,
      calls.filterMap Call.report? = [] → ∃ done : App × List Call × KeyOutcome,
      some (app', calls, outcome) = some done ∧
        Handled screen w ⟨kind, x, y, plain⟩ done.1 done.2.1 :=
    fun kind hkind app' outcome hpending calls hcalls =>
      ⟨_, rfl, .quiet hkind hcalls hpending⟩
  rw [dispatchMouse]
  by_cases hdialog : w.repoInputActive = true
  · cases kind with
    | up button =>
      rw [if_neg (by rw [hdialog]; exact Bool.false_ne_true)]
      exact hup button
    | _ =>
      rw [if_pos (by rw [hdialog]; rfl)]
      exact hquiet _ rfl _ _ rfl _ rfl
  · rw [if_neg (by rw [Bool.not_eq_true] at hdialog; rw [hdialog]; exact Bool.false_ne_true)]
    cases kind with
    | up button => exact hup button
    | down button =>
      rw [handleMouse]
      dsimp only
      split
      · exact hquiet _ rfl _ _ rfl _ rfl
      · rename_i hoverlay
        split
        · obtain ⟨hcalls, hpending⟩ :=
            nameSwapTarget_quiet screen ⟨.down button, x, y, plain⟩ w.app button
          exact hquiet _ rfl _ _ hpending _ hcalls
        · rename_i hswap
          cases hpane : paneAt screen x y with
          | none => exact hquiet _ rfl _ _ (clickOutside_quiet _ _ _ _) _ rfl
          | some area =>
            obtain ⟨id, rect⟩ := area
            obtain ⟨harea, hcol, hrow, hcell⟩ := paneAt_cell hpane
            simp only [hcol, hrow, Option.bind_eq_bind, Option.bind_some]
            refine ⟨_, rfl, ?_⟩
            rcases pressPane_spec ⟨.down button, x, y, plain⟩ w.app id button (x - rect.x + 1)
              (y - rect.y + 1) with ⟨-, hcalls, hpending⟩ | ⟨hlink, hwants, hcalls, hpending⟩
            · exact .quiet rfl (by rw [hcalls]; rfl) hpending
            · refine .press button id _ _ rect rfl ?_ hcalls hpending harea hcell
              rw [World.forwards, hpane]
              dsimp only
              rw [if_neg]
              rintro (h | h | h | h | h)
              · exact hdialog h
              · exact hoverlay h
              · exact hswap h
              · rw [hlink] at h
                exact (nomatch h)
              · exact h hwants
    | _ =>
      rw [handleMouse]
      dsimp only
      split
      · exact hquiet _ rfl _ _ rfl _ rfl
      · cases hpane : paneAt screen x y with
        | none => exact hquiet _ rfl _ _ rfl _ rfl
        | some area =>
          obtain ⟨-, hcol, hrow, -⟩ := paneAt_cell hpane
          simp only [hcol, hrow, Option.bind_eq_bind, Option.bind_some]
          exact hquiet _ rfl _ _ rfl _ rfl

def Entry.report? : Entry → Option Report
  | .report r _ => some r
  | .up _ _ => none

def reports (log : List Entry) : List Report := log.filterMap Entry.report?

lemma getLast?_cons_of_some {α : Type*} {l : List α} {a : α} (h : l.getLast? = some a) (b : α) :
    (b :: l).getLast? = some a := by
  rw [List.getLast?_cons, h]
  rfl

inductive Paired : List Entry → Option (PaneId × MouseButton) → Prop where
  | nil : Paired [] none
  | press {log : List Entry} {id : PaneId} {button : MouseButton} (h : Paired log none)
    (col row : UInt16) (areas : List (PaneId × Rect)) :
    Paired (.report ⟨id, button, true, col, row⟩ areas :: log) (some (id, button))
  | idle {log : List Entry} (h : Paired log none) (areas : List (PaneId × Rect))
    (wants : PaneId → Bool) : Paired (.up areas wants :: log) none
  | release {log : List Entry} {id : PaneId} {button : MouseButton}
    (h : Paired log (some (id, button))) (areas : List (PaneId × Rect)) (wants : PaneId → Bool)
    (col row : UInt16) :
    Paired (.report ⟨id, button, false, col, row⟩ areas :: .up areas wants :: log) none
  | drop {log : List Entry} {id : PaneId} {button : MouseButton}
    (h : Paired log (some (id, button))) (areas : List (PaneId × Rect)) (wants : PaneId → Bool)
    (hserves : ¬ Serves areas wants id) : Paired (.up areas wants :: log) none

namespace Paired

variable {log later earlier : List Entry} {pending : Option (PaneId × MouseButton)} {r : Report}

lemma head_of_some (h : Paired log pending) (hpending : pending = some (id, button)) :
    ∃ col row, (reports log).head? = some ⟨id, button, true, col, row⟩ := by
  cases h with
  | press _ col row areas =>
    obtain ⟨rfl, rfl⟩ := Prod.mk.inj (Option.some.inj hpending)
    exact ⟨col, row, rfl⟩
  | _ => cases hpending

lemma pressed (h : Paired log pending) (hlog : log = later ++ .report r areas :: earlier)
    (hrelease : r.press = false) :
    ∃ col row, (reports earlier).head? = some ⟨r.pane, r.button, true, col, row⟩ := by
  induction h generalizing later with
  | nil => cases later <;> cases hlog
  | press h col row areas ih =>
    cases later with
    | nil =>
      obtain ⟨hentry, -⟩ := List.cons.inj hlog
      obtain ⟨rfl, -⟩ := Entry.report.inj hentry
      cases hrelease
    | cons e later => exact ih (List.cons.inj hlog).2
  | idle h areas wants ih =>
    cases later with
    | nil => cases (List.cons.inj hlog).1
    | cons e later => exact ih (List.cons.inj hlog).2
  | release h areas wants col row ih =>
    cases later with
    | nil =>
      obtain ⟨hentry, rfl⟩ := List.cons.inj hlog
      obtain ⟨rfl, -⟩ := Entry.report.inj hentry
      exact h.head_of_some rfl
    | cons e later =>
      obtain ⟨-, hlog⟩ := List.cons.inj hlog
      cases later with
      | nil => cases (List.cons.inj hlog).1
      | cons e later => exact ih (List.cons.inj hlog).2
  | drop h areas wants hserves ih =>
    cases later with
    | nil => cases (List.cons.inj hlog).1
    | cons e later => exact ih (List.cons.inj hlog).2

lemma released (h : Paired log pending) (hlog : log = later ++ .report r areas :: earlier)
    (hpress : r.press = true)
    (hserves : ∀ areas wants, .up areas wants ∈ later → Serves areas wants r.pane) :
    (∃ col row, (reports later).getLast? = some ⟨r.pane, r.button, false, col, row⟩) ∨
      pending = some (r.pane, r.button) ∧ reports later = [] := by
  induction h generalizing later with
  | nil => cases later <;> cases hlog
  | press h col row areas ih =>
    cases later with
    | nil =>
      obtain ⟨hentry, -⟩ := List.cons.inj hlog
      obtain ⟨rfl, -⟩ := Entry.report.inj hentry
      exact .inr ⟨rfl, rfl⟩
    | cons e later =>
      obtain ⟨rfl, htail⟩ := List.cons.inj hlog
      rcases ih htail (fun a w hm => hserves a w (List.mem_cons_of_mem _ hm)) with
        ⟨col, row, hlast⟩ | ⟨hnone, -⟩
      · exact .inl ⟨col, row, getLast?_cons_of_some hlast _⟩
      · cases hnone
  | idle h areas wants ih =>
    cases later with
    | nil => cases (List.cons.inj hlog).1
    | cons e later =>
      obtain ⟨rfl, htail⟩ := List.cons.inj hlog
      exact @ih later htail (fun a w hm => hserves a w (List.mem_cons_of_mem _ hm))
  | release h areas wants col row ih =>
    cases later with
    | nil =>
      obtain ⟨hentry, -⟩ := List.cons.inj hlog
      obtain ⟨rfl, -⟩ := Entry.report.inj hentry
      cases hpress
    | cons e later =>
      obtain ⟨rfl, hrest⟩ := List.cons.inj hlog
      cases later with
      | nil => cases (List.cons.inj hrest).1
      | cons e later =>
        obtain ⟨rfl, htail⟩ := List.cons.inj hrest
        rcases ih htail (fun a w hm => hserves a w
          (List.mem_cons_of_mem _ (List.mem_cons_of_mem _ hm))) with ⟨c, r, hlast⟩ | ⟨hsome, hnil⟩
        · exact .inl ⟨c, r, getLast?_cons_of_some hlast _⟩
        · obtain ⟨rfl, rfl⟩ := Prod.mk.inj (Option.some.inj hsome)
          refine .inl ⟨col, row, ?_⟩
          change (_ :: reports later).getLast? = _
          rw [hnil]
          rfl
  | drop h areas wants hnot ih =>
    cases later with
    | nil => cases (List.cons.inj hlog).1
    | cons e later =>
      obtain ⟨rfl, htail⟩ := List.cons.inj hlog
      rcases ih htail (fun a w hm => hserves a w (List.mem_cons_of_mem _ hm)) with
        hlast | ⟨hsome, -⟩
      · exact .inl hlast
      · obtain ⟨rfl, rfl⟩ := Prod.mk.inj (Option.some.inj hsome)
        exact absurd (hserves areas wants List.mem_cons_self) hnot

end Paired

namespace World

variable {w w' : World} {st : Step}

structure Inv (w : World) : Prop where
  paired : Paired w.log (w.app.pendingMousePress.map (fun p => (p.1, p.2.1)))
  held : w.held = 0 → w.app.pendingMousePress = none
  cells : ∀ r areas, .report r areas ∈ w.log →
    ∃ rect, (r.pane, rect) ∈ areas ∧ rect.Holds r.col r.row

lemma Inv.step (h : w.Inv) (hmeets : w.OneAtATime st) (hstep : w.step st = some w') : w'.Inv := by
  cases st with
  | other app repoInputActive =>
    obtain rfl := Option.some.inj hstep
    exact ⟨h.paired, h.held, h.cells⟩
  | mouse screen event =>
    obtain ⟨done, hdone, hhandled⟩ := dispatch_handled screen w event
    rw [World.step, hdone] at hstep
    obtain rfl := Option.some.inj hstep
    have hpaired := h.paired
    cases hhandled with
    | quiet hkind hcalls hpending =>
      dsimp only
      rw [hcalls, hkind]
      refine ⟨?_, fun hheld => ?_, h.cells⟩
      · dsimp only
        rw [hpending]
        exact hpaired
      · refine hpending.trans (h.held ?_)
        cases hk : event.kind with
        | up => rw [hk] at hkind; exact (nomatch hkind)
        | down => rw [hk] at hheld; exact absurd hheld (Nat.succ_ne_zero _)
        | _ => rw [hk] at hheld; exact hheld
    | press button id col row rect hkind hforwards hcalls hpending harea hcell =>
      have hnone : w.app.pendingMousePress = none := hmeets (by rw [hforwards]; rfl)
      dsimp only
      rw [hcalls, hkind]
      rw [hnone] at hpaired
      refine ⟨?_, fun hheld => absurd hheld (Nat.succ_ne_zero _), fun r areas hmem => ?_⟩
      · dsimp only
        rw [hpending]
        exact hpaired.press col row screen.contentAreas
      · rcases List.mem_cons.mp hmem with heq | hmem
        · obtain ⟨rfl, rfl⟩ := Entry.report.inj heq
          exact ⟨rect, harea, hcell⟩
        · exact h.cells r areas hmem
    | idle hkind hnone hcalls hpending =>
      dsimp only
      rw [hcalls, hkind]
      rw [hnone] at hpaired
      refine ⟨?_, fun _ => hpending, fun r areas hmem => ?_⟩
      · dsimp only
        rw [hpending]
        exact hpaired.idle _ _
      · rcases List.mem_cons.mp hmem with heq | hmem
        · cases heq
        · exact h.cells r areas hmem
    | drop button id col row hkind hsome hserves hcalls hpending =>
      dsimp only
      rw [hcalls, hkind]
      rw [hsome] at hpaired
      refine ⟨?_, fun _ => hpending, fun r areas hmem => ?_⟩
      · dsimp only
        rw [hpending]
        exact hpaired.drop _ _ hserves
      · rcases List.mem_cons.mp hmem with heq | hmem
        · cases heq
        · exact h.cells r areas hmem
    | release button id col row col' row' rect hkind hsome hcalls hpending harea hcell =>
      dsimp only
      rw [hcalls, hkind]
      rw [hsome] at hpaired
      refine ⟨?_, fun _ => hpending, fun r areas hmem => ?_⟩
      · dsimp only
        rw [hpending]
        exact hpaired.release _ _ col row
      · rcases List.mem_cons.mp hmem with heq | hmem
        · obtain ⟨rfl, rfl⟩ := Entry.report.inj heq
          exact ⟨rect, harea, hcell⟩
        · rcases List.mem_cons.mp hmem with heq | hmem
          · cases heq
          · exact h.cells r areas hmem

lemma Reaches.inv (h : Reaches OneAtATime w) : w.Inv := by
  induction h with
  | new app repoInputActive hnone =>
    refine ⟨?_, fun _ => hnone, fun _ _ hmem => (nomatch hmem)⟩
    dsimp only
    rw [hnone]
    exact Paired.nil
  | step _ hmeets hstep ih => exact ih.step hmeets hstep

lemma step_isSome (w : World) (st : Step) : (w.step st).isSome := by
  cases st with
  | other => rfl
  | mouse screen event =>
    obtain ⟨done, hdone, -⟩ := dispatch_handled screen w event
    rw [World.step, hdone]
    rfl

/-- The next report after a press is its release, once no button is held; before each release comes
its press; each report is of a cell of its pane; and no step overflows. -/
theorem forwarded_presses_are_released {w : World} (h : Reaches OneAtATime w) :
    (w.held = 0 → ∀ later r areas earlier, w.log = later ++ .report r areas :: earlier →
      r.press = true → (∀ areas wants, .up areas wants ∈ later → Serves areas wants r.pane) →
      ∃ col row, (reports later).getLast? = some ⟨r.pane, r.button, false, col, row⟩) ∧
    (∀ later r areas earlier, w.log = later ++ .report r areas :: earlier → r.press = false →
      ∃ col row, (reports earlier).head? = some ⟨r.pane, r.button, true, col, row⟩) ∧
    (∀ r areas, .report r areas ∈ w.log →
      ∃ rect, (r.pane, rect) ∈ areas ∧ rect.Holds r.col r.row) ∧
    ∀ st, (w.step st).isSome := by
  have hinv := h.inv
  refine ⟨fun hheld later r areas earlier hlog hpress hserves => ?_,
    fun later r areas earlier hlog hrelease => hinv.paired.pressed hlog hrelease, hinv.cells,
    w.step_isSome⟩
  rcases hinv.paired.released hlog hpress hserves with hlast | ⟨hsome, -⟩
  · exact hlast
  · rw [hinv.held hheld] at hsome
    exact (nomatch hsome)

def onePane : Screen where
  contentAreas := [(1, ⟨0, 0, 80, 24, by decide⟩)]
  projectTabAt _ _ := none
  upperPanelAt _ _ := none
  tabClickAt _ _ := none
  hintClickAt _ _ := none

def onePaneApp : App where
  repositoryPath := "/w"
  panes := [1]
  active := 0
  emulators id := if id = 1 then some ⟨true, fun _ _ => none⟩ else none
  focus := .terminal
  diffFullscreen := false
  listFullscreen := false
  searchOverlayActive := false
  awaitingSwapTarget := false
  prefixArmed := false

def onPane (kind : MouseEventKind) : Step := .mouse onePane ⟨kind, 3, 2, true⟩

def after (steps : List Step) : World :=
  steps.foldl (fun w st => (w.step st).getD w) { app := onePaneApp, repoInputActive := false }

lemma after_step {Meets : World → Step → Prop} {steps : List Step} (st : Step)
    (h : Reaches Meets (after steps)) (hmeets : Meets (after steps) st) :
    Reaches Meets (after (steps ++ [st])) := by
  obtain ⟨w', hstep⟩ := Option.isSome_iff_exists.mp ((after steps).step_isSome st)
  have hafter : after (steps ++ [st]) = w' := by
    rw [after, List.foldl_append]
    change ((after steps).step st).getD (after steps) = w'
    rw [hstep]
    rfl
  rw [hafter]
  exact h.step hmeets hstep

lemma after_nil {Meets : World → Step → Prop} : Reaches Meets (after []) :=
  .new onePaneApp false rfl

theorem forwarded_presses_are_released_once : ∃ later r areas earlier,
    (after [onPane (.down .right), onPane (.up .left)]).log = later ++ .report r areas :: earlier ∧
      r.press = true ∧
      ∃ col row, (reports later).getLast? = some ⟨r.pane, r.button, false, col, row⟩ := by
  have hreach : Reaches OneAtATime (after [onPane (.down .right), onPane (.up .left)]) :=
    after_step _ (after_step (onPane (.down .right)) after_nil (fun _ => rfl))
      (fun h => absurd h Bool.false_ne_true)
  refine ⟨[_, _], _, _, [], rfl, rfl, ?_⟩
  refine (forwarded_presses_are_released hreach).1 rfl _ _ _ _ rfl rfl (fun areas wants hmem => ?_)
  rcases List.mem_cons.mp hmem with heq | hmem
  · cases heq
  · obtain ⟨rfl, rfl⟩ := Entry.up.inj (List.mem_singleton.mp hmem)
    exact ⟨rfl, _, rfl, by decide, by decide⟩

/-- Two buttons are pressed and released, and the first is never reported as released. -/
theorem second_press_hides_first : ¬ ∀ w : World, Reaches (fun _ _ => True) w → w.held = 0 →
    ∀ later r areas earlier, w.log = later ++ .report r areas :: earlier → r.press = true →
      (∀ areas wants, .up areas wants ∈ later → Serves areas wants r.pane) →
      ∃ col row, (reports later).getLast? = some ⟨r.pane, r.button, false, col, row⟩ := by
  intro hall
  have hreach : Reaches (fun _ _ => True) (after [onPane (.down .left), onPane (.down .right),
      onPane (.up .right), onPane (.up .left)]) :=
    after_step _ (after_step (onPane (.up .right)) (after_step (onPane (.down .right))
      (after_step (onPane (.down .left)) after_nil trivial) trivial) trivial) trivial
  obtain ⟨col, row, hlast⟩ := hall _ hreach rfl [_, _, _, _] _ _ [] rfl rfl
    (fun areas wants hmem => by
      simp only [List.mem_cons, List.not_mem_nil, or_false] at hmem
      rcases hmem with heq | heq | heq | heq <;> cases heq
      · exact ⟨rfl, _, rfl, by decide, by decide⟩
      · exact ⟨rfl, _, rfl, by decide, by decide⟩)
  cases hlast

end World

end Nightcrow.Application.Mouse
