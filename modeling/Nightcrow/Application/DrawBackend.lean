import Nightcrow.Library.Buffered

/-! The backend that leaves out commands which would change nothing, against the one it wraps. -/

namespace Nightcrow.Application

open Nightcrow.Library

structure Position where
  x : UInt16
  y : UInt16
deriving DecidableEq

inductive ClearType where
  | all
  | afterCursor
  | beforeCursor
  | currentLine
  | untilNewLine

structure Screen (Cells : Type*) where
  cells : Cells
  cursor : Position
  visible : Bool

/-- What output does to the screen, where this is not known: drawing leaves the cursor anywhere,
and so do scrolling and clearing, which may also show or hide it. -/
structure Terminal (Cell Cells : Type*) where
  draw : List (UInt16 × UInt16 × Cell) → Screen Cells → Cells × Position
  appendLines : UInt16 → Screen Cells → Screen Cells
  clear : Screen Cells → Screen Cells
  clearRegion : ClearType → Screen Cells → Screen Cells
  draw_nil (s : Screen Cells) : draw [] s = (s.cells, s.cursor)
  appendLines_zero (s : Screen Cells) : appendLines 0 s = s

inductive Command (Cell : Type*) where
  | draw (content : List (UInt16 × UInt16 × Cell))
  | appendLines (n : UInt16)
  | hideCursor
  | showCursor
  | setCursorPosition (position : Position)
  | clear
  | clearRegion (clearType : ClearType)

structure Wreck (Cells : Type*) where
  cells : Cells → Cells
  cursor : Position
  visible : Bool

inductive Output (Cell Cells : Type*) where
  | done (c : Command Cell)
  | failed (c : Command Cell) (w : Wreck Cells)
  | unflushed (w : Wreck Cells)

structure Outcome (Cells : Type*) where
  wreck : Option (Wreck Cells) := none
  spilled : ℕ := 0

abbrev Inner (Cell Cells : Type*) := Buffered (Screen Cells) (Output Cell Cells)

inductive Call (Cell : Type*) where
  | command (c : Command Cell)
  | getCursorPosition
  | flush

inductive Answer where
  | done
  | position (position : Position)
  | failed
deriving DecidableEq

variable {Cell Cells : Type*}

namespace Terminal

variable (T : Terminal Cell Cells)

def wrecked (w : Wreck Cells) (s : Screen Cells) : Screen Cells :=
  ⟨w.cells s.cells, w.cursor, w.visible⟩

def run : Output Cell Cells → Screen Cells → Screen Cells
  | .done (.draw content), s =>
    { s with cells := (T.draw content s).1, cursor := (T.draw content s).2 }
  | .done (.appendLines n), s => T.appendLines n s
  | .done .hideCursor, s => { s with visible := false }
  | .done .showCursor, s => { s with visible := true }
  | .done (.setCursorPosition position), s => { s with cursor := position }
  | .done .clear, s => T.clear s
  | .done (.clearRegion clearType), s => T.clearRegion clearType s
  | .failed (.draw _) w, s => { s with cells := w.cells s.cells, cursor := w.cursor }
  | .failed .hideCursor w, s => { s with visible := w.visible }
  | .failed .showCursor w, s => { s with visible := w.visible }
  | .failed (.setCursorPosition _) w, s => { s with cursor := w.cursor }
  | .failed _ w, s => wrecked w s
  | .unflushed w, s => wrecked w s

end Terminal

namespace Inner

variable (T : Terminal Cell Cells)

def command (c : Command Cell) (o : Outcome Cells) (b : Inner Cell Cells) :
    Bool × Inner Cell Cells :=
  match o.wreck with
  | none => (true, (b.push (.done c)).spill T.run o.spilled)
  | some w => (false, (b.push (.failed c w)).spill T.run o.spilled)

def getCursorPosition (o : Outcome Cells) (b : Inner Cell Cells) : Option Position :=
  if o.wreck.isSome then none else some b.state.cursor

def flush (o : Outcome Cells) (b : Inner Cell Cells) : Bool × Inner Cell Cells :=
  match o.wreck with
  | none => (true, Buffered.flush T.run b)
  | some w => (false, (b.push (.unflushed w)).spill T.run o.spilled)

def call (b : Inner Cell Cells) (c : Call Cell) (o : Outcome Cells) : Answer × Inner Cell Cells :=
  match c with
  | .command c =>
    let (ok, b) := command T c o b
    (if ok then .done else .failed, b)
  | .getCursorPosition => ((getCursorPosition o b).elim .failed .position, b)
  | .flush =>
    let (ok, b) := flush T o b
    (if ok then .done else .failed, b)

end Inner

structure QuietBackend (Cell Cells : Type*) where
  inner : Inner Cell Cells
  cursorVisible : Option Bool := none
  cursorPosition : Option Position := none
  outputPending : Bool := false

namespace QuietBackend

variable (T : Terminal Cell Cells) (q : QuietBackend Cell Cells) (o : Outcome Cells)

def invalidatePhysicalState : QuietBackend Cell Cells :=
  { q with cursorPosition := none, cursorVisible := none }

def forward (c : Command Cell) : Bool × QuietBackend Cell Cells :=
  let (ok, inner) := q.inner.command T c o
  (ok, { q with inner, outputPending := true })

def draw (content : List (UInt16 × UInt16 × Cell)) : Bool × QuietBackend Cell Cells :=
  if content.isEmpty then (true, q)
  else forward T { q with cursorPosition := none } o (.draw content)

def appendLines (n : UInt16) : Bool × QuietBackend Cell Cells :=
  if n = 0 then (true, q)
  else forward T q.invalidatePhysicalState o (.appendLines n)

def setCursorVisibility (visible : Bool) : Bool × QuietBackend Cell Cells :=
  if q.cursorVisible = some visible then (true, q)
  else
    let (ok, q) := forward T { q with cursorVisible := none } o
      (if visible then .showCursor else .hideCursor)
    (ok, if ok then { q with cursorVisible := some visible } else q)

def hideCursor : Bool × QuietBackend Cell Cells := q.setCursorVisibility T o false

def showCursor : Bool × QuietBackend Cell Cells := q.setCursorVisibility T o true

def getCursorPosition : Option Position × QuietBackend Cell Cells :=
  match q.inner.getCursorPosition o with
  | none => (none, q)
  | some position => (some position, { q with cursorPosition := some position })

def setCursorPosition (position : Position) : Bool × QuietBackend Cell Cells :=
  if q.cursorPosition = some position then (true, q)
  else
    let (ok, q) := forward T { q with cursorPosition := none } o (.setCursorPosition position)
    (ok, if ok then { q with cursorPosition := some position } else q)

def clear : Bool × QuietBackend Cell Cells := forward T q.invalidatePhysicalState o .clear

def clearRegion (clearType : ClearType) : Bool × QuietBackend Cell Cells :=
  forward T q.invalidatePhysicalState o (.clearRegion clearType)

def flush : Bool × QuietBackend Cell Cells :=
  if q.outputPending then
    let (ok, inner) := q.inner.flush T o
    if ok then (true, { q with inner, outputPending := false })
    else (false, invalidatePhysicalState { q with inner })
  else (true, q)

def command : Command Cell → Bool × QuietBackend Cell Cells
  | .draw content => q.draw T o content
  | .appendLines n => q.appendLines T o n
  | .hideCursor => q.hideCursor T o
  | .showCursor => q.showCursor T o
  | .setCursorPosition position => q.setCursorPosition T o position
  | .clear => q.clear T o
  | .clearRegion clearType => q.clearRegion T o clearType

def call (c : Call Cell) : Answer × QuietBackend Cell Cells :=
  match c with
  | .command c =>
    let (ok, q) := q.command T o c
    (if ok then .done else .failed, q)
  | .getCursorPosition =>
    let (position, q) := q.getCursorPosition o
    (position.elim .failed .position, q)
  | .flush =>
    let (ok, q) := q.flush T o
    (if ok then .done else .failed, q)

end QuietBackend

def Agrees (answer : Answer) (o o' : Outcome Cells) : Prop :=
  o'.wreck = if answer = .failed then o.wreck else none

inductive Runs (T : Terminal Cell Cells)
    (Meets : QuietBackend Cell Cells → Call Cell → Outcome Cells → Prop) :
    QuietBackend Cell Cells → Inner Cell Cells → Prop where
  | new (s : Screen Cells) : Runs T Meets { inner := ⟨s, []⟩ } ⟨s, []⟩
  | call {q : QuietBackend Cell Cells} {d : Inner Cell Cells} (h : Runs T Meets q d) (c : Call Cell)
      (o o' : Outcome Cells) (hmeets : Meets q c o) (hagrees : Agrees (q.call T o c).1 o o') :
      Runs T Meets (q.call T o c).2 (Inner.call T d c o').2

/-- A reading of the cursor, where it succeeds, finds it where the buffered output will leave it. -/
def ReadsSettled (T : Terminal Cell Cells) (q : QuietBackend Cell Cells) :
    Call Cell → Outcome Cells → Prop
  | .getCursorPosition, o =>
    ∀ position ∈ Inner.getCursorPosition o q.inner, position = (q.inner.settled T.run).cursor
  | _, _ => True

lemma Agrees.passed {o o' : Outcome Cells}
    (h : Agrees (if o.wreck.isNone then .done else .failed) o o') : o'.wreck = o.wreck := by
  rw [Agrees] at h
  rw [h]
  cases o.wreck <;> rfl

def Command.output (c : Command Cell) (o : Outcome Cells) : Output Cell Cells :=
  o.wreck.elim (.done c) (.failed c)

variable {T : Terminal Cell Cells} {q : QuietBackend Cell Cells} {b d : Inner Cell Cells}
  {o o' : Outcome Cells} {c : Command Cell}

lemma Inner.command_fst : (Inner.command T c o b).1 = o.wreck.isNone := by
  rw [command]
  cases o.wreck <;> rfl

lemma Inner.command_settled :
    (Inner.command T c o b).2.settled T.run = T.run (c.output o) (b.settled T.run) := by
  rw [command, Command.output]
  cases o.wreck with
  | none => exact (Buffered.settled_spill _ _ _).trans (Buffered.settled_push _ _ _)
  | some w => exact (Buffered.settled_spill _ _ _).trans (Buffered.settled_push _ _ _)

structure Same (T : Terminal Cell Cells) (q : QuietBackend Cell Cells) (d : Inner Cell Cells) :
    Prop where
  settled : q.inner.settled T.run = d.settled T.run
  visible : ∀ v, q.cursorVisible = some v → (q.inner.settled T.run).visible = v
  cursor : ∀ p, q.cursorPosition = some p → (q.inner.settled T.run).cursor = p
  flushed : q.outputPending = false → q.inner.pending = []

namespace Same

lemma skip (h : Same T q d) (ho : o'.wreck = none)
    (hsame : T.run (.done c) (q.inner.settled T.run) = q.inner.settled T.run) :
    Same T q (Inner.command T c o' d).2 := by
  refine ⟨?_, h.visible, h.cursor, h.flushed⟩
  rw [Inner.command_settled, Command.output, ho, ← h.settled]
  exact hsame.symm

lemma forward (h : Same T q d) (ho : o'.wreck = o.wreck) {visible : Option Bool}
    {cursor : Option Position}
    (hvisible : ∀ v, visible = some v → (T.run (c.output o) (q.inner.settled T.run)).visible = v)
    (hcursor : ∀ p, cursor = some p → (T.run (c.output o) (q.inner.settled T.run)).cursor = p) :
    Same T { q with
      inner := (Inner.command T c o q.inner).2
      cursorVisible := visible
      cursorPosition := cursor
      outputPending := true } (Inner.command T c o' d).2 := by
  refine ⟨?_, ?_, ?_, fun hf => absurd hf Bool.noConfusion⟩
  · rw [Inner.command_settled, Inner.command_settled, h.settled, Command.output, Command.output, ho]
  · intro v hv
    dsimp only
    rw [Inner.command_settled]
    exact hvisible v hv
  · intro p hp
    dsimp only
    rw [Inner.command_settled]
    exact hcursor p hp

lemma draw_visible (content : List (UInt16 × UInt16 × Cell)) (s : Screen Cells) :
    (T.run ((Command.draw content).output o) s).visible = s.visible := by
  rw [Command.output]
  cases o.wreck <;> rfl

lemma position_visible (position : Position) (s : Screen Cells) :
    (T.run ((Command.setCursorPosition position).output o) s).visible = s.visible := by
  rw [Command.output]
  cases o.wreck <;> rfl

lemma visibility_known {v : Bool} (s : Screen Cells) (h : s.visible = v) :
    T.run (.done (if v then .showCursor else .hideCursor)) s = s := by
  obtain ⟨cells, cursor, visible⟩ := s
  obtain rfl : visible = v := h
  cases visible <;> rfl

lemma visibility_cursor (v : Bool) (s : Screen Cells) :
    (T.run ((if v then Command.showCursor else .hideCursor).output o) s).cursor = s.cursor := by
  rw [Command.output]
  cases v <;> cases o.wreck <;> rfl

lemma draw (h : Same T q d) (content : List (UInt16 × UInt16 × Cell))
    (hagrees : Agrees (if (q.draw T o content).1 then .done else .failed) o o') :
    Same T (q.draw T o content).2 (Inner.command T (.draw content) o' d).2 := by
  rw [QuietBackend.draw] at hagrees ⊢
  split
  · rename_i hempty
    rw [if_pos hempty] at hagrees
    refine h.skip hagrees ?_
    rw [List.isEmpty_iff.mp hempty, Terminal.run, T.draw_nil]
  · rename_i hempty
    rw [if_neg hempty, QuietBackend.forward, Inner.command_fst] at hagrees
    refine h.forward hagrees.passed (fun v hv => ?_) (fun _ hp => (nomatch hp))
    exact (draw_visible _ _).trans (h.visible v hv)

lemma appendLines (h : Same T q d) (n : UInt16)
    (hagrees : Agrees (if (q.appendLines T o n).1 then .done else .failed) o o') :
    Same T (q.appendLines T o n).2 (Inner.command T (.appendLines n) o' d).2 := by
  rw [QuietBackend.appendLines] at hagrees ⊢
  split
  · rename_i hzero
    rw [if_pos hzero] at hagrees
    refine h.skip hagrees ?_
    rw [hzero, Terminal.run, T.appendLines_zero]
  · rename_i hzero
    rw [if_neg hzero, QuietBackend.forward, Inner.command_fst] at hagrees
    exact h.forward hagrees.passed (fun _ hv => (nomatch hv)) (fun _ hp => (nomatch hp))

lemma setCursorVisibility (h : Same T q d) (visible : Bool)
    (hagrees : Agrees (if (q.setCursorVisibility T o visible).1 then .done else .failed) o o') :
    Same T (q.setCursorVisibility T o visible).2
      (Inner.command T (if visible then .showCursor else .hideCursor) o' d).2 := by
  rw [QuietBackend.setCursorVisibility] at hagrees ⊢
  split
  · rename_i hknown
    rw [if_pos hknown] at hagrees
    exact h.skip hagrees (visibility_known _ (h.visible visible hknown))
  · rename_i hknown
    rw [if_neg hknown, QuietBackend.forward] at hagrees
    dsimp only at hagrees
    rw [Inner.command_fst] at hagrees
    have hcursor : ∀ p, q.cursorPosition = some p → (T.run ((if visible then Command.showCursor
        else .hideCursor).output o) (q.inner.settled T.run)).cursor = p :=
      fun p hp => (visibility_cursor visible _).trans (h.cursor p hp)
    rw [QuietBackend.forward]
    dsimp only
    rw [Inner.command_fst]
    split
    · rename_i hok
      refine h.forward hagrees.passed (fun v hv => ?_) hcursor
      obtain rfl := Option.some.inj hv
      rw [Command.output, Option.isNone_iff_eq_none.mp hok]
      cases visible <;> rfl
    · exact h.forward hagrees.passed (fun _ hv => (nomatch hv)) hcursor

lemma setCursorPosition (h : Same T q d) (position : Position)
    (hagrees : Agrees (if (q.setCursorPosition T o position).1 then .done else .failed) o o') :
    Same T (q.setCursorPosition T o position).2
      (Inner.command T (.setCursorPosition position) o' d).2 := by
  rw [QuietBackend.setCursorPosition] at hagrees ⊢
  split
  · rename_i hknown
    rw [if_pos hknown] at hagrees
    refine h.skip hagrees ?_
    rw [← h.cursor position hknown]
    rfl
  · rename_i hknown
    rw [if_neg hknown, QuietBackend.forward] at hagrees
    dsimp only at hagrees
    rw [Inner.command_fst] at hagrees
    have hvisible : ∀ v, q.cursorVisible = some v →
        (T.run ((Command.setCursorPosition position).output o)
          (q.inner.settled T.run)).visible = v :=
      fun v hv => (position_visible position _).trans (h.visible v hv)
    rw [QuietBackend.forward]
    dsimp only
    rw [Inner.command_fst]
    split
    · rename_i hok
      refine h.forward hagrees.passed hvisible (fun p hp => ?_)
      obtain rfl := Option.some.inj hp
      rw [Command.output, Option.isNone_iff_eq_none.mp hok]
      rfl
    · exact h.forward hagrees.passed hvisible (fun _ hp => (nomatch hp))

lemma cleared (h : Same T q d) (c : Command Cell)
    (hagrees : Agrees (if (q.invalidatePhysicalState.forward T o c).1 then .done else .failed)
      o o') :
    Same T (q.invalidatePhysicalState.forward T o c).2 (Inner.command T c o' d).2 := by
  rw [QuietBackend.forward, Inner.command_fst] at hagrees
  exact h.forward hagrees.passed (fun _ hv => (nomatch hv)) (fun _ hp => (nomatch hp))

lemma command (h : Same T q d) (c : Command Cell)
    (hagrees : Agrees (if (q.command T o c).1 then .done else .failed) o o') :
    Same T (q.command T o c).2 (Inner.command T c o' d).2 := by
  cases c with
  | draw content => exact h.draw content hagrees
  | appendLines n => exact h.appendLines n hagrees
  | hideCursor => exact h.setCursorVisibility false hagrees
  | showCursor => exact h.setCursorVisibility true hagrees
  | setCursorPosition position => exact h.setCursorPosition position hagrees
  | clear => exact h.cleared .clear hagrees
  | clearRegion clearType => exact h.cleared (.clearRegion clearType) hagrees

lemma getCursorPosition (h : Same T q d)
    (hsettled : ∀ position ∈ Inner.getCursorPosition o q.inner,
      position = (q.inner.settled T.run).cursor) :
    Same T (q.getCursorPosition o).2 d := by
  rw [QuietBackend.getCursorPosition]
  cases hread : Inner.getCursorPosition o q.inner with
  | none => exact h
  | some position =>
    refine ⟨h.settled, h.visible, fun p hp => ?_, h.flushed⟩
    exact (hsettled position hread).symm.trans (Option.some.inj hp)

lemma flush (h : Same T q d)
    (hagrees : Agrees (if (q.flush T o).1 then .done else .failed) o o') :
    Same T (q.flush T o).2 (Inner.flush T o' d).2 := by
  rw [QuietBackend.flush] at hagrees ⊢
  split
  · rename_i hpending
    rw [if_pos hpending, Inner.flush] at hagrees
    rw [Inner.flush, Inner.flush]
    cases ho : o.wreck with
    | none =>
      rw [ho] at hagrees
      rw [show o'.wreck = none from hagrees]
      exact ⟨h.settled, h.visible, h.cursor, fun _ => rfl⟩
    | some w =>
      rw [ho] at hagrees
      rw [show o'.wreck = some w from hagrees.trans ho]
      refine ⟨?_, fun _ hv => (nomatch hv), fun _ hp => (nomatch hp), fun hf => ?_⟩
      · dsimp only
        rw [if_neg Bool.false_ne_true, QuietBackend.invalidatePhysicalState]
        dsimp only
        rw [Buffered.settled_spill, Buffered.settled_push, Buffered.settled_spill,
          Buffered.settled_push, h.settled]
      · exact absurd (hpending.symm.trans hf) Bool.noConfusion
  · rename_i hpending
    rw [if_neg hpending] at hagrees
    rw [Inner.flush, show o'.wreck = none from hagrees]
    exact ⟨h.settled, h.visible, h.cursor, h.flushed⟩

lemma call (h : Same T q d) (c : Call Cell) (hreads : ReadsSettled T q c o)
    (hagrees : Agrees (q.call T o c).1 o o') :
    Same T (q.call T o c).2 (Inner.call T d c o').2 := by
  cases c with
  | command c => exact h.command c hagrees
  | getCursorPosition => exact h.getCursorPosition hreads
  | flush => exact h.flush hagrees

lemma pending_of_flush (h : Same T q d) (hok : (q.call T o .flush).1 = .done) :
    (q.call T o .flush).2.inner.pending = [] := by
  have hdone : (q.flush T o).1 = true := by
    by_contra hnot
    rw [QuietBackend.call] at hok
    dsimp only at hok
    rw [if_neg hnot] at hok
    exact (nomatch hok)
  change (q.flush T o).2.inner.pending = []
  rw [QuietBackend.flush] at hdone ⊢
  by_cases hpending : q.outputPending = true
  · rw [if_pos hpending] at hdone ⊢
    rw [Inner.flush] at hdone ⊢
    cases ho : o.wreck with
    | none => rfl
    | some w =>
      rw [ho] at hdone
      exact (nomatch hdone)
  · rw [if_neg hpending]
    exact h.flushed (Bool.not_eq_true _ ▸ hpending)

end Same

lemma runs_same {d : Inner Cell Cells} (h : Runs T (ReadsSettled T) q d) : Same T q d := by
  induction h with
  | new s => exact ⟨rfl, fun _ hv => (nomatch hv), fun _ hp => (nomatch hp), fun _ => rfl⟩
  | call _ c o o' hreads hagrees ih => exact ih.call c hreads hagrees

theorem quiet_draws_what_plain_draws {T : Terminal Cell Cells} {q : QuietBackend Cell Cells}
    {d : Inner Cell Cells} (h : Runs T (ReadsSettled T) q d) :
    q.inner.settled T.run = d.settled T.run ∧
      ∀ o, (q.call T o .flush).1 = .done → (q.call T o .flush).2.inner.pending = [] ∧
        (q.call T o .flush).2.inner.state = (Inner.call T d .flush {}).2.state := by
  refine ⟨(runs_same h).settled, fun o hok => ?_⟩
  have hempty := (runs_same h).pending_of_flush hok
  have hnext := (runs_same h).call .flush trivial
    (show Agrees (q.call T o .flush).1 o {} by rw [hok]; rfl)
  refine ⟨hempty, ?_⟩
  rw [← Buffered.settled_of_empty hempty, hnext.settled]
  rfl

def typewriter : Terminal Char (List (UInt16 × UInt16 × Char)) where
  draw content s := (s.cells ++ content, content.getLast?.elim s.cursor (fun x => ⟨x.1 + 1, x.2.1⟩))
  appendLines n s := { s with cursor := ⟨s.cursor.x, s.cursor.y + n⟩ }
  clear s := { s with cells := [] }
  clearRegion _ s := { s with cells := [] }
  draw_nil s := Prod.ext (List.append_nil _) rfl
  appendLines_zero s := by rw [UInt16.add_zero]

theorem quiet_draws_what_plain_draws_reading : ∃ q d,
    Runs typewriter (ReadsSettled typewriter) q d ∧ q.cursorPosition = some ⟨3, 0⟩ ∧
      q.inner.settled typewriter.run = d.settled typewriter.run := by
  have hrun := ((((@Runs.new _ _ typewriter (ReadsSettled typewriter)
    ⟨[], ⟨0, 0⟩, true⟩).call (.command (.draw [(2, 0, 'x')])) {} {} trivial rfl).call .flush {} {}
      trivial rfl).call .getCursorPosition {} {} (fun _ h => (Option.some.inj h).symm) rfl).call
        (.command (.setCursorPosition ⟨3, 0⟩)) {} {} trivial rfl
  exact ⟨_, _, hrun, rfl, (quiet_draws_what_plain_draws hrun).1⟩

/-- The cursor is read before what was drawn has reached the screen, and then set where it was. -/
theorem early_reading_misplaces_cursor : ¬ ∀ q d, Runs typewriter (fun _ _ _ => True) q d →
    q.inner.settled typewriter.run = d.settled typewriter.run := by
  intro hall
  have hrun := ((((@Runs.new _ _ typewriter (fun _ _ _ => True) ⟨[], ⟨0, 0⟩, true⟩).call
    (.command (.draw [(2, 0, 'x')])) {} {} trivial rfl).call
      .getCursorPosition {} {} trivial rfl).call .flush {} {} trivial rfl).call
        (.command (.setCursorPosition ⟨0, 0⟩)) {} {} trivial rfl
  have hcursor := congrArg Screen.cursor (hall _ _ hrun)
  exact absurd hcursor (by decide)

end Nightcrow.Application
