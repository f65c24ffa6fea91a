import Nightcrow.Backend.Slot
import Nightcrow.Library.Text

namespace Nightcrow.Plugin

open Nightcrow.Backend Nightcrow.Library

def protocolVersion : UInt32 := 3

def maxInputBytes : ℕ := 8 * 1024

inductive PluginEvent
  | paneOpened (v : UInt32) (token : PaneToken) (generation : PaneGeneration)
      (title command : Option String) (cwd : String)
  | paneOutput (v : UInt32) (token : PaneToken) (generation : PaneGeneration) (text : String)
  | paneIdle (v : UInt32) (token : PaneToken) (generation : PaneGeneration) (idleMs : UInt64)
  | paneExited (v : UInt32) (token : PaneToken) (generation : PaneGeneration)
  | paneClosed (v : UInt32) (token : PaneToken) (generation : PaneGeneration)
  | userInput (v : UInt32) (token : PaneToken) (generation : PaneGeneration)
  | shutdown (v : UInt32)
deriving DecidableEq, Repr

inductive LogLevel
  | error
  | warn
  | info
  | debug
deriving DecidableEq, Repr

inductive PluginCommand
  | sendInput (v : UInt32) (token : PaneToken) (generation : PaneGeneration) (data : String)
  | relaunch (v : UInt32) (token : PaneToken) (generation : PaneGeneration)
      (resumeArgs : List String)
  | status (v : UInt32) (token : PaneToken) (generation : PaneGeneration) (state : String)
      (detail : Option String) (deadlineEpoch : Option ℤ) (attempt : UInt32)
  | watchPane (v : UInt32) (token : PaneToken)
  | attention (v : UInt32) (token : PaneToken) (generation : PaneGeneration)
  | log (v : UInt32) (level : LogLevel) (message : String)
deriving DecidableEq, Repr

namespace PluginCommand

def token? : PluginCommand → Option PaneToken
  | sendInput _ token _ _ | relaunch _ token _ _ | status _ token _ _ _ _ _
  | watchPane _ token | attention _ token _ => some token
  | log .. => none

def generation? : PluginCommand → Option PaneGeneration
  | sendInput _ _ generation _ | relaunch _ _ generation _ | status _ _ generation _ _ _ _
  | attention _ _ generation => some generation
  | watchPane .. | log .. => none

end PluginCommand

def maxLogMessageBytes : ℕ := 2 * 1024

def isForbiddenControl (c : Char) : Bool :=
  isControl c && !(c ∈ ['\r', '\n', '\t'])

def boundaryBefore (message : String) : ℕ → ℕ
  | 0 => 0
  | last + 1 =>
    if String.Pos.Raw.isValid message ⟨last + 1⟩ then last + 1 else boundaryBefore message last

def truncateMessage (message : String) : String :=
  if message.utf8ByteSize ≤ maxLogMessageBytes then message
  else String.Pos.Raw.extract message 0 ⟨boundaryBefore message maxLogMessageBytes⟩

end Nightcrow.Plugin
