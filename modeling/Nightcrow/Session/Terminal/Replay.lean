import Nightcrow.Library.Chunks
import Nightcrow.Session.Terminal.Panes

/-! The replay put in front of a connecting client: which record of a pane is replayed, in
what order, how it is framed, and how much of it its queue takes. -/

namespace Nightcrow.Session.Terminal

open Nightcrow.Library Nightcrow.Runtime.Emulator

def leaveAltScreen : List UInt8 := decPrivate 1049 false

@[irreducible] def replayChunkBytes : ℕ := 1024 * 1024

def frameChunks (data : List UInt8) : List (List UInt8) := chunks replayChunkBytes data

def PaneState.normalRecord (p : PaneState) : List UInt8 :=
  p.scrollback.take p.covered ++ p.normalScreen ++ p.scrollback.drop p.covered

structure PaneReplay where
  pane : PaneId
  size : PaneSize
  title : Option String
  normalUnder : List (List UInt8)
  prelude : List (List UInt8)
  record : List (List UInt8)
deriving DecidableEq, Repr

namespace PaneReplay

def capture (p : PaneState) : PaneReplay where
  pane := p.id
  size := p.size
  title := p.title
  normalUnder :=
    if p.modes.altScreen && !(p.scrollback.isEmpty && p.normalScreen.isEmpty) then
      frameChunks (leaveAltScreen ++ p.normalRecord)
    else []
  prelude := frameChunks p.modes.prelude
  record :=
    if p.modes.altScreen then frameChunks (p.screen ++ p.since) else frameChunks p.normalRecord

def parts (r : PaneReplay) : List (List UInt8) := r.normalUnder ++ r.prelude ++ r.record

def frames (r : PaneReplay) : List TerminalFrame :=
  .control (.created r.pane r.size none r.title) :: r.parts.map (.output r.pane)

end PaneReplay

structure ReplayQueue where
  tx : Chan TerminalFrame
  queued : ℕ := 0
deriving DecidableEq, Repr

namespace ReplayQueue

def send (q : ReplayQueue) (frame : TerminalFrame) : Bool × ReplayQueue :=
  if clientQueueDepth ≤ q.queued then (false, q)
  else
    match q.tx.trySend frame with
    | .ok tx => (true, { tx, queued := q.queued + 1 })
    | .error _ => (false, q)

def sendReplay (q : ReplayQueue) (pane : PaneId) : List (List UInt8) → Bool × ReplayQueue
  | [] => (true, q)
  | data :: rest =>
    match q.send (.output pane data) with
    | (true, q) => q.sendReplay pane rest
    | (false, q) => (false, q)

def replayPane (q : ReplayQueue) (r : PaneReplay) : Bool × ReplayQueue :=
  let (announced, q) := q.send (.control (.created r.pane r.size none r.title))
  let (under, q) := if r.normalUnder.isEmpty then (true, q) else q.sendReplay r.pane r.normalUnder
  let (prelude, q) := q.sendReplay r.pane r.prelude
  let (record, q) := q.sendReplay r.pane r.record
  (announced && under && prelude && record, q)

structure Handed (q : ReplayQueue) (frames : List TerminalFrame) : Prop where
  depth : q.tx.depth = clientQueueDepth + 1
  taken : q.tx.taken = 0
  alive : q.tx.alive = true
  sent : q.tx.sent = frames.take clientQueueDepth
  queued : q.queued = q.tx.sent.length

variable {q : ReplayQueue} {fs : List TerminalFrame}

lemma Handed.send (h : q.Handed fs) (f : TerminalFrame) :
    (q.send f).2.Handed (fs ++ [f]) ∧ ((q.send f).1 = true ↔ fs.length < clientQueueDepth) := by
  obtain ⟨hd, ht, ha, hs, hq⟩ := h
  have hl : q.queued = min clientQueueDepth fs.length := by rw [hq, hs, List.length_take]
  unfold ReplayQueue.send
  by_cases hf : clientQueueDepth ≤ q.queued
  · have hn : ¬ fs.length < clientQueueDepth := by omega
    rw [if_pos hf]
    refine ⟨⟨hd, ht, ha, ?_, hq⟩, by simp [hn]⟩
    rw [hs, List.take_append_of_le_length (by omega)]
  · have hn : fs.length < clientQueueDepth := by omega
    have hr : q.tx.Room := by
      simp only [Chan.Room, ht, hd, ← hq]
      omega
    rw [if_neg hf, Chan.trySend_of_room f ha hr]
    refine ⟨⟨hd, ht, ha, ?_, ?_⟩, by simp [hn]⟩
    · rw [hs, List.take_of_length_le hn.le, List.take_of_length_le (by simpa using hn)]
    · simp [hq]

lemma Handed.append (h : q.Handed fs) (hf : clientQueueDepth ≤ fs.length)
    (gs : List TerminalFrame) : q.Handed (fs ++ gs) :=
  { h with sent := by rw [h.sent, List.take_append_of_le_length hf] }

lemma Handed.sendReplay (h : q.Handed fs) (pane : PaneId) (cs : List (List UInt8)) :
    (q.sendReplay pane cs).2.Handed (fs ++ cs.map (TerminalFrame.output pane)) := by
  induction cs generalizing q fs with
  | nil => simpa [ReplayQueue.sendReplay] using h
  | cons c cs ih =>
    obtain ⟨hs, hok⟩ := h.send (.output pane c)
    rcases hr : q.send (.output pane c) with ⟨ok, q'⟩
    rw [hr] at hs hok
    simp only [ReplayQueue.sendReplay, hr]
    cases ok with
    | true => simpa using ih hs
    | false =>
      have hle : clientQueueDepth ≤ fs.length := by simpa using hok
      have hfull : clientQueueDepth ≤ (fs ++ [TerminalFrame.output pane c]).length := by
        simp
        omega
      simpa using hs.append hfull (cs.map (TerminalFrame.output pane))

lemma Handed.replayPane (h : q.Handed fs) (r : PaneReplay) :
    (q.replayPane r).2.Handed (fs ++ r.frames) := by
  obtain ⟨h1, -⟩ := h.send (.control (.created r.pane r.size none r.title))
  have h2 : (if r.normalUnder.isEmpty then (true, (q.send (.control (.created r.pane r.size none
      r.title))).2) else (q.send (.control (.created r.pane r.size none r.title))).2.sendReplay
      r.pane r.normalUnder).2.Handed (fs ++ [.control (.created r.pane r.size none r.title)] ++
        r.normalUnder.map (TerminalFrame.output r.pane)) := by
    split
    · rename_i hn
      simpa [List.isEmpty_iff.mp hn] using h1
    · exact h1.sendReplay r.pane r.normalUnder
  have h4 := (h2.sendReplay r.pane r.prelude).sendReplay r.pane r.record
  simpa [ReplayQueue.replayPane, PaneReplay.frames, PaneReplay.parts] using h4

end ReplayQueue

end Nightcrow.Session.Terminal
