import Mathlib

namespace Nightcrow.Session.Terminal

abbrev PaneId := ℕ

structure PaneSize where
  rows : UInt16
  cols : UInt16
deriving DecidableEq, Repr

inductive ServerMessage
  | created (pane : PaneId) (size : PaneSize) (client : Option ℕ) (title : Option String)
  | exited (pane : PaneId)
  | resized (pane : PaneId) (size : PaneSize)
  | hello (client : ℕ) (panes : ℕ)
  | replayComplete
  | sizeOwner (owned : Bool) (generation : UInt64)
  | error (message : String)
  | reordered (order : List PaneId)
  | zoomed (pane : Option PaneId)
  | pending (count : ℕ)
  | attention (pane : PaneId) (message : Option String)
  | recovery (pane : PaneId) (state : String) (detail : Option String)
      (deadlineEpoch : Option ℤ) (attempt : ℕ)
deriving DecidableEq, Repr

inductive TerminalFrame
  | output (pane : PaneId) (data : List UInt8)
  | control (message : ServerMessage)
deriving DecidableEq, Repr

namespace TerminalFrame

def verdict? : TerminalFrame → Option (Bool × UInt64)
  | .control (.sizeOwner owned generation) => some (owned, generation)
  | _ => none

end TerminalFrame

end Nightcrow.Session.Terminal
