import Nightcrow.Backend.Slot

namespace Nightcrow.Backend

open Nightcrow.Session.Terminal (PaneId PaneSize)

def maxPaneId : ℕ := 2 ^ 32 - 1

inductive PtyEvent
  | output (data : List UInt8)
  | childExited
  | exited
deriving DecidableEq, Repr

inductive ExitPhase
  | running
  | draining (since : ℕ)
  | reported
deriving DecidableEq, Repr

structure DrainWindow where
  start : ℕ
  used : ℕ
deriving DecidableEq, Repr

structure PtyPane where
  size : PaneSize
  line : Option String
  queue : List PtyEvent := []
  exit : ExitPhase := .running
  window : Option DrainWindow := none
deriving DecidableEq, Repr

inductive SpawnStep
  | openPty
  | shellCwd
  | spawnCommand
  | attachTree
  | cloneReader
  | takeWriter
deriving DecidableEq, Repr

inductive PaneError
  | noEntropy
  | noSlot (pane : PaneId)
  | refused (reason : ResumeError)
  | spawn (step : SpawnStep)
  | idOverflow
deriving DecidableEq, Repr

structure PtyBackend where
  panes : Std.TreeMap PaneId PtyPane := ∅
  slots : PaneSlots := ∅
  nextId : PaneId := 1

namespace PtyBackend

variable (b : PtyBackend)

def slot (id : PaneId) : Option PaneSlot := b.slots[id]?

def paneForToken (token : PaneToken) : Option PaneId := b.slots.findByToken token

def isProcessAlive (id : PaneId) : Bool := id ∈ b.panes

def spawnPane (size : PaneSize) (command : Option String) (identity : PaneIdentity)
    (launch : PaneLaunch) (failed : Option SpawnStep) (now : ℕ) :
    Except PaneError (PaneId × PtyBackend) :=
  -- `failed` is the step the system refuses; the id is taken after every step that may fail
  match failed with
  | some step => .error (.spawn step)
  | none =>
    if maxPaneId < b.nextId + 1 then .error .idOverflow
    else
      .ok (b.nextId,
        { panes := b.panes.insert b.nextId { size, line := command }
          slots := b.slots.insert b.nextId { identity, launch, lastOutput := now }
          nextId := b.nextId + 1 })

def openPane (size : PaneSize) (command : Option String) (minted : Option PaneToken)
    (failed : Option SpawnStep) (now : ℕ) : Except PaneError (PaneId × PtyBackend) :=
  -- `minted` is the token the system's randomness gave, if it gave one
  match minted with
  | none => .error .noEntropy
  | some token => b.spawnPane size command { token } { command } failed now

def relaunchPane (id : PaneId) (size : PaneSize) (resumeArgs allowed : List String)
    (failed : Option SpawnStep) (now : ℕ) : Except PaneError PaneId × PtyBackend :=
  match b.slot id with
  | none => (.error (.noSlot id), b)
  | some slot =>
    match resumeCommandLine slot.launch.command resumeArgs allowed with
    | .error reason => (.error (.refused reason), b)
    | .ok line =>
      let torn := { b with panes := b.panes.erase id, slots := b.slots.erase id }
      match torn.spawnPane size (some line) slot.identity.advance slot.launch failed now with
      | .error error => (.error error, torn)
      | .ok (pane, b) => (.ok pane, b)

def releaseProcess (id : PaneId) : PtyBackend := { b with panes := b.panes.erase id }

def retireSlot (id : PaneId) : PtyBackend := { b with slots := b.slots.erase id }

def destroyPane (id : PaneId) : PtyBackend :=
  { b with panes := b.panes.erase id, slots := b.slots.erase id }

def markOutput (id : PaneId) (now : ℕ) : PtyBackend :=
  { b with slots := b.slots.markOutput id now }

def CanSpawn (failed : Option SpawnStep) : Prop := failed = none ∧ b.nextId + 1 ≤ maxPaneId

variable {b} {id : PaneId} {size : PaneSize} {command : Option String} {identity : PaneIdentity}
  {launch : PaneLaunch} {failed : Option SpawnStep} {now : ℕ} {resumeArgs allowed : List String}

@[simp] lemma slot_retireSlot (i : PaneId) :
    (b.retireSlot id).slot i = if i = id then none else b.slot i := by
  by_cases hi : i = id
  · subst hi
    simp [retireSlot, slot]
  · simp [retireSlot, slot, Std.TreeMap.getElem?_erase, hi, Ne.symm hi]

@[simp] lemma slot_destroyPane (i : PaneId) :
    (b.destroyPane id).slot i = if i = id then none else b.slot i :=
  slot_retireSlot i

lemma slot_markOutput (i : PaneId) : (b.markOutput id now).slot i =
    if i = id then (b.slot i).map (fun slot => { slot with lastOutput := now }) else b.slot i := by
  by_cases hi : i = id
  · subst hi
    simp [markOutput, PaneSlots.markOutput, slot]
  · simp [markOutput, PaneSlots.markOutput, slot, Std.TreeMap.getElem?_modify, hi, Ne.symm hi]

lemma slot_insert {slots : PaneSlots} {slot : PaneSlot} {panes : Std.TreeMap PaneId PtyPane}
    {nextId : PaneId} (i : PaneId) :
    PtyBackend.slot { panes, slots := slots.insert id slot, nextId } i =
      if i = id then some slot else slots[i]? := by
  by_cases hi : i = id
  · subst hi
    simp [PtyBackend.slot]
  · simp [PtyBackend.slot, Std.TreeMap.getElem?_insert, hi, Ne.symm hi]

lemma spawnPane_of_canSpawn (h : b.CanSpawn failed) :
    b.spawnPane size command identity launch failed now = .ok (b.nextId,
      { panes := b.panes.insert b.nextId { size, line := command }
        slots := b.slots.insert b.nextId { identity, launch, lastOutput := now }
        nextId := b.nextId + 1 }) := by
  obtain ⟨rfl, hn⟩ := h
  rw [spawnPane, if_neg (not_lt.mpr hn)]

lemma spawnPane_of_not_canSpawn (h : ¬ b.CanSpawn failed) (size : PaneSize)
    (command : Option String) (identity : PaneIdentity) (launch : PaneLaunch) (now : ℕ) :
    ∃ error, b.spawnPane size command identity launch failed now = .error error := by
  cases failed with
  | some step => exact ⟨_, rfl⟩
  | none =>
    refine ⟨.idOverflow, ?_⟩
    rw [spawnPane, if_pos]
    by_contra hn
    exact h ⟨rfl, not_lt.mp hn⟩

lemma spawnPane_cases {pane : PaneId} {after : PtyBackend}
    (h : b.spawnPane size command identity launch failed now = .ok (pane, after)) :
    b.CanSpawn failed ∧ pane = b.nextId ∧ after =
      { panes := b.panes.insert b.nextId { size, line := command }
        slots := b.slots.insert b.nextId { identity, launch, lastOutput := now }
        nextId := b.nextId + 1 } := by
  by_cases hc : b.CanSpawn failed
  · rw [spawnPane_of_canSpawn hc] at h
    obtain ⟨rfl, rfl⟩ := Prod.mk.inj (Except.ok.inj h)
    exact ⟨hc, rfl, rfl⟩
  · obtain ⟨error, he⟩ := spawnPane_of_not_canSpawn hc size command identity launch now
    rw [he] at h
    cases h

lemma openPane_cases {minted : Option PaneToken} {pane : PaneId} {after : PtyBackend}
    (h : b.openPane size command minted failed now = .ok (pane, after)) :
    ∃ token, minted = some token ∧ pane = b.nextId ∧ after =
      { panes := b.panes.insert b.nextId { size, line := command }
        slots := b.slots.insert b.nextId
          { identity := { token }, launch := { command }, lastOutput := now }
        nextId := b.nextId + 1 } := by
  cases minted with
  | none => cases h
  | some token =>
    obtain ⟨-, hp, ha⟩ := spawnPane_cases h
    exact ⟨token, rfl, hp, ha⟩

/-- What a relaunch does: nothing before its command line was accepted, and the teardown of the
old pane after. -/
lemma relaunchPane_cases (b : PtyBackend) (id : PaneId) (size : PaneSize)
    (resumeArgs allowed : List String) (failed : Option SpawnStep) (now : ℕ) :
    (∃ error, b.relaunchPane id size resumeArgs allowed failed now = (.error error, b) ∧
      ∀ slot line, b.slot id = some slot →
        resumeCommandLine slot.launch.command resumeArgs allowed ≠ .ok line) ∨
    ∃ slot line, b.slot id = some slot ∧
      resumeCommandLine slot.launch.command resumeArgs allowed = .ok line ∧
      ((¬ b.CanSpawn failed ∧ ∃ error,
          b.relaunchPane id size resumeArgs allowed failed now = (.error error, b.destroyPane id)) ∨
        b.CanSpawn failed ∧ b.relaunchPane id size resumeArgs allowed failed now = (.ok b.nextId,
          { panes := (b.panes.erase id).insert b.nextId { size, line := some line }
            slots := (b.slots.erase id).insert b.nextId
              { identity := slot.identity.advance, launch := slot.launch, lastOutput := now }
            nextId := b.nextId + 1 })) := by
  unfold relaunchPane
  rcases hs : b.slot id with _ | slot
  · exact .inl ⟨.noSlot id, rfl, by simp⟩
  rcases hr : resumeCommandLine slot.launch.command resumeArgs allowed with reason | line
  · refine .inl ⟨.refused reason, by simp [hr], ?_⟩
    rintro slot' line hs'
    obtain rfl := Option.some.inj hs'
    simp [hr]
  · refine .inr ⟨slot, line, rfl, hr, ?_⟩
    simp only [hr]
    by_cases hc : b.CanSpawn failed
    · refine .inr ⟨hc, ?_⟩
      have ht : ({ b with panes := b.panes.erase id, slots := b.slots.erase id } :
          PtyBackend).CanSpawn failed := hc
      rw [spawnPane_of_canSpawn ht]
    · refine .inl ⟨hc, ?_⟩
      have ht : ¬ ({ b with panes := b.panes.erase id, slots := b.slots.erase id } :
          PtyBackend).CanSpawn failed := hc
      obtain ⟨error, he⟩ := spawnPane_of_not_canSpawn ht size line slot.identity.advance
        slot.launch now
      exact ⟨error, by rw [he]; rfl⟩

end PtyBackend

end Nightcrow.Backend
