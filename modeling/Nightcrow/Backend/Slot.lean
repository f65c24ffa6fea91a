import Nightcrow.Session.Terminal.Frame

namespace Nightcrow.Backend

open Nightcrow.Session.Terminal (PaneId)

structure PaneToken where
  value : String
deriving DecidableEq, Repr

abbrev PaneGeneration := UInt32

def firstGeneration : PaneGeneration := 1

structure PaneIdentity where
  token : PaneToken
  generation : PaneGeneration := firstGeneration
deriving DecidableEq, Repr

def PaneIdentity.advance (identity : PaneIdentity) : PaneIdentity :=
  { identity with
    generation :=
      if identity.generation = 0xffffffff then 0xffffffff else identity.generation + 1 }

structure PaneLaunch where
  command : Option String
deriving DecidableEq, Repr

structure PaneSlot where
  identity : PaneIdentity
  launch : PaneLaunch
  lastOutput : ℕ
deriving DecidableEq, Repr

def PaneSlot.idleFor (slot : PaneSlot) (now : ℕ) : ℕ := now - slot.lastOutput

abbrev PaneSlots := Std.TreeMap PaneId PaneSlot

namespace PaneSlots

variable (slots : PaneSlots)

def markOutput (id : PaneId) (now : ℕ) : PaneSlots :=
  Std.TreeMap.modify slots id (fun slot => { slot with lastOutput := now })

def findByToken (token : PaneToken) : Option PaneId :=
  ((Std.TreeMap.toList slots).find? (fun e => e.2.identity.token = token)).map (·.1)

variable {slots} {id : PaneId} {token : PaneToken}

lemma slot_of_findByToken (h : slots.findByToken token = some id) :
    ∃ slot, slots[id]? = some slot ∧ slot.identity.token = token := by
  obtain ⟨⟨i, slot⟩, hf, rfl⟩ := Option.map_eq_some_iff.mp h
  refine ⟨slot, ?_, by simpa using List.find?_some hf⟩
  exact Std.TreeMap.mem_toList_iff_getElem?_eq_some.mp (List.mem_of_find?_eq_some hf)

end PaneSlots

def maxResumeArgs : ℕ := 6

def maxResumeArgLen : ℕ := 256

def isSafeArgChar (c : Char) : Bool :=
  c.isAlphanum || c ∈ ['.', '_', '-', ':', '/', '=', '@', '+']

inductive ResumeError
  | noStartupCommand
  | tooManyArguments (passed : ℕ)
  | emptyArgument
  | argumentTooLong (bytes : ℕ)
  | unsafeCharacters (arg : String)
  | tokenNotAllowed (arg : String)
deriving DecidableEq, Repr

def appendResumeArgs (allowed : List String) (line : String) (index : ℕ) :
    List String → Except ResumeError String
  | [] => .ok line
  | arg :: args =>
    if arg.isEmpty then .error .emptyArgument
    else if maxResumeArgLen < arg.utf8ByteSize then .error (.argumentTooLong arg.utf8ByteSize)
    else if !arg.toList.all isSafeArgChar then .error (.unsafeCharacters arg)
    else if (index = 0 || "-".isPrefixOf arg || "/".isPrefixOf arg) && arg ∉ allowed then
      .error (.tokenNotAllowed arg)
    else appendResumeArgs allowed (line ++ " " ++ arg) (index + 1) args

def resumeCommandLine (base : Option String) (resumeArgs allowed : List String) :
    Except ResumeError String :=
  match base with
  | none => .error .noStartupCommand
  | some base =>
    if resumeArgs.isEmpty then .ok base
    else if maxResumeArgs < resumeArgs.length then .error (.tooManyArguments resumeArgs.length)
    else appendResumeArgs allowed base 0 resumeArgs

end Nightcrow.Backend
