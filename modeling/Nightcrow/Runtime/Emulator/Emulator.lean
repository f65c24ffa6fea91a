import Nightcrow.Library.Text
import Nightcrow.Runtime.Emulator.Boundary
import Nightcrow.Runtime.Emulator.Modes

/-! The emulator that follows a pane's output: a terminal and its processor, and whether the
stream fed to them stands at a sequence boundary. -/

namespace Nightcrow.Runtime.Emulator

open Nightcrow.Library

/-- A terminal with its ANSI processor, as the emulator uses them. The processor holds the bytes
of an open synchronized update back until it is closed or stopped; its timeout is armed against
the clock it reads while it advances. -/
class Terminal (T : Type*) where
  create : (rows cols : UInt16) → (history : ℕ) → T
  advance : T → (clock : ℕ) → List UInt8 → T × List String
  stopSync : T → T × List String
  resize : T → (rows cols : UInt16) → T
  modes : T → PaneModes
  screenSnapshot : T → List UInt8
  syncBytesCount : T → ℕ
  syncTimeout : T → Option ℕ

def minScreenLines : UInt16 := 1

def minColumns : UInt16 := 2

def effectiveSize (rows cols : UInt16) : UInt16 × UInt16 :=
  (max rows minScreenLines, max cols minColumns)

def cleanTitle (title : String) : Option String :=
  let trimmed := trim (String.ofList (title.toList.filter (fun c => !isControl c)))
  if trimmed.isEmpty then none else some trimmed

def takeTitle (titles : List String) : Option String :=
  titles.foldl (fun last title => (cleanTitle title).or last) none

structure PaneEmulator (T : Type*) where
  term : T
  boundary : StreamBoundary := .ground

namespace PaneEmulator

variable {T : Type*} [Terminal T] (e : PaneEmulator T)

def create (rows cols : UInt16) (history : ℕ) : PaneEmulator T :=
  { term := Terminal.create (effectiveSize rows cols).1 (effectiveSize rows cols).2 history }

def process (clock : ℕ) (bytes : List UInt8) : PaneEmulator T × Option String :=
  let (term, titles) := Terminal.advance e.term clock bytes
  ({ term, boundary := e.boundary.feed bytes }, takeTitle titles)

def settleSync : PaneEmulator T × Option String :=
  let (term, titles) := Terminal.stopSync e.term
  ({ e with term }, takeTitle titles)

def resize (rows cols : UInt16) : PaneEmulator T :=
  { e with term := Terminal.resize e.term (effectiveSize rows cols).1 (effectiveSize rows cols).2 }

def modes : PaneModes := Terminal.modes e.term

def screenSnapshot : List UInt8 := Terminal.screenSnapshot e.term

def screenCurrent : Bool := Terminal.syncBytesCount e.term = 0

def atBoundary : Bool := e.screenCurrent && e.boundary.atBoundary

def syncExpired (now : ℕ) : Bool := (Terminal.syncTimeout e.term).any (· ≤ now)

end PaneEmulator

end Nightcrow.Runtime.Emulator
