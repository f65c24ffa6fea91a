import Nightcrow.Session.Terminal.Clients
import Nightcrow.Session.Terminal.Replay

/-! Clients coming and going: the snapshot a connection takes under the lock, the replay it
queues with the lock released, and the held frames it releases afterwards. -/

namespace Nightcrow.Session.Terminal

open Nightcrow.Library

structure Greeting where
  client : ℕ
  count : ℕ
  zoomed : Option PaneId
  panes : List PaneReplay
  recovery : List (PaneId × RecoveryReport)

def recoveryFrame (e : PaneId × RecoveryReport) : TerminalFrame :=
  .control (.recovery e.1 e.2.state e.2.detail e.2.deadlineEpoch e.2.attempt)

namespace Greeting

variable (g : Greeting)

def opening : List TerminalFrame :=
  .control (.hello g.client g.count) ::
    g.zoomed.toList.map (fun pane => .control (.zoomed (some pane)))

def replay : List TerminalFrame := g.opening ++ g.panes.flatMap PaneReplay.frames

def reports : List TerminalFrame := g.recovery.map recoveryFrame

def frames : List TerminalFrame := g.replay ++ g.reports ++ [.control .replayComplete]

def queue (tx : Chan TerminalFrame) : Bool × Chan TerminalFrame :=
  let queue : ReplayQueue := { tx }
  let queue := (queue.send (.control (.hello g.client g.count))).2
  let queue :=
    match g.zoomed with
    | some pane => (queue.send (.control (.zoomed (some pane)))).2
    | none => queue
  let queue := g.panes.foldl (fun queue pane => (queue.replayPane pane).2) queue
  let tx := g.recovery.foldl (fun tx e => tx.offer (recoveryFrame e)) queue.tx
  match tx.trySend (.control .replayComplete) with
  | .ok tx => (true, tx)
  | .error _ => (false, tx)

end Greeting

namespace Shared

variable (s : Shared)

def greeting (id : ℕ) (stopped : Bool) : Greeting :=
  if stopped then { client := id, count := 0, zoomed := none, panes := [], recovery := [] }
  else
    { client := id
      count := s.panes.length
      zoomed := s.zoomed
      panes := s.panes.map PaneReplay.capture
      recovery := s.recovery.toList }

def freshQueue : Chan TerminalFrame := { depth := clientQueueDepth + 1 }

def registerClient (id : ℕ) : Shared :=
  { s with
    clients := s.clients ++ [{ id, replayHeld := some [] }]
    queues := Function.update s.queues id freshQueue }

def frameReplay (g : Greeting) : Bool × Shared :=
  let (complete, tx) := g.queue (s.queues g.client)
  let s := { s with queues := Function.update s.queues g.client tx }
  if complete then (true, s) else (false, s.removeClient g.client)

def openGate (id connection : ℕ) : Shared :=
  { s with
    clients := s.clients.map (fun c =>
      if c.id = id then { c with connection := some connection, replayHeld := none } else c) }

def releaseHeld (id connection : ℕ) : Shared :=
  match s.client? id with
  | none => s
  | some client =>
    (client.replayHeld.getD []).foldl (fun s frame => s.queueTo id frame)
      (s.openGate id connection)

end Shared

lemma Shared.SameHub.frameReplay (s : Shared) (g : Greeting) :
    s.SameHub (s.frameReplay g).2 := by
  unfold Shared.frameReplay
  dsimp only
  split <;> exact ⟨rfl, rfl, rfl, rfl⟩

lemma Shared.SameHub.releaseHeld (s : Shared) (id connection : ℕ) :
    s.SameHub (s.releaseHeld id connection) := by
  unfold Shared.releaseHeld
  split
  · exact refl s
  · have hg : s.SameHub (s.openGate id connection) := ⟨rfl, rfl, rfl, rfl⟩
    exact hg.trans (queueTos _ id _)

lemma Shared.greeting_client (s : Shared) (id : ℕ) (stopped : Bool) :
    (s.greeting id stopped).client = id := by
  unfold greeting
  split <;> rfl

lemma Shared.clientIds_registerClient (s : Shared) (id : ℕ) :
    (s.registerClient id).clientIds = s.clientIds ++ [id] := by
  simp [clientIds, registerClient]

lemma Shared.seat_registerClient {s : Shared} {id : ℕ} (h : s.client? id = none) :
    (s.registerClient id).seat id = (some { id, replayHeld := some [] }, freshQueue) := by
  have hc : (s.registerClient id).client? id = some { id, replayHeld := some [] } := by
    simp only [client?, registerClient, List.find?_append]
    rw [show s.clients.find? (·.id = id) = none from h]
    simp
  have hq : (s.registerClient id).queues id = freshQueue := Function.update_self ..
  rw [seat, hc, hq]

lemma Shared.seat_registerClient_of_ne (s : Shared) {id i : ℕ} (hi : i ≠ id) :
    (s.registerClient id).seat i = s.seat i := by
  have hc : (s.registerClient id).client? i = s.client? i := by
    simp [client?, registerClient, List.find?_append, Ne.symm hi]
  have hq : (s.registerClient id).queues i = s.queues i := Function.update_of_ne hi ..
  rw [seat, hc, hq, seat]

lemma Shared.clientIds_openGate (s : Shared) (id connection : ℕ) :
    (s.openGate id connection).clientIds = s.clientIds := by
  simp only [clientIds, openGate, List.map_map]
  refine List.map_congr_left fun c _ => ?_
  simp only [Function.comp_apply]
  split <;> rfl

lemma Shared.clientIds_releaseHeld (s : Shared) (id connection : ℕ) :
    (s.releaseHeld id connection).clientIds.Sublist s.clientIds := by
  have hf : ∀ (fs : List TerminalFrame) (u : Shared),
      (fs.foldl (fun s f => s.queueTo id f) u).clientIds.Sublist u.clientIds := by
    intro fs
    induction fs with
    | nil => exact fun u => List.Sublist.refl _
    | cons f fs ih => exact fun u => (ih _).trans (clientIds_queueTo f id)
  unfold releaseHeld
  split
  · exact List.Sublist.refl _
  · exact (s.clientIds_openGate id connection) ▸ hf _ _

lemma Shared.client?_openGate (s : Shared) (hn : s.clientIds.Nodup) (id connection i : ℕ) :
    (s.openGate id connection).client? i = (s.client? i).map (fun c =>
      if c.id = id then { c with connection := some connection, replayHeld := none } else c) := by
  have hf := find?_filterMap hn (f := fun c => some
    (if c.id = id then { c with connection := some connection, replayHeld := none } else c))
    (fun c d he => by rw [← Option.some.inj he]; split <;> rfl) i
  rw [List.filterMap_eq_map'] at hf
  refine hf.trans ?_
  show Option.bind (s.client? i) _ = _
  cases s.client? i <;> rfl

lemma Shared.seat_openGate {s : Shared} (hn : s.clientIds.Nodup) {id : ℕ} {c : Client}
    (hc : s.client? id = some c) (connection : ℕ) :
    (s.openGate id connection).seat id =
      (some { c with connection := some connection, replayHeld := none }, s.queues id) := by
  rw [seat, client?_openGate s hn, hc, Option.map_some, if_pos (client?_id hc)]
  rfl

lemma Shared.seat_openGate_of_ne {s : Shared} (hn : s.clientIds.Nodup) {id i : ℕ} (hi : i ≠ id)
    (connection : ℕ) : (s.openGate id connection).seat i = s.seat i := by
  refine Prod.ext ((client?_openGate s hn id connection i).trans ?_) rfl
  show _ = s.client? i
  cases hc : s.client? i with
  | none => rfl
  | some c => rw [Option.map_some, if_neg (by rwa [client?_id hc])]

def pieces (bytes : ℕ) : ℕ := (bytes + replayChunkBytes - 1) / replayChunkBytes

def PaneState.replayFrames (p : PaneState) : ℕ :=
  let normal := p.scrollback.length + p.normalScreen.length
  if p.modes.altScreen then
    2 + (if normal = 0 then 0 else pieces (8 + normal)) + pieces (p.screen.length + p.since.length)
  else 2 + pieces normal

def Shared.replayFrames (s : Shared) : ℕ :=
  1 + (if s.zoomed.isSome then 1 else 0) + (s.panes.map PaneState.replayFrames).sum

lemma PaneState.normalRecord_length (p : PaneState) :
    p.normalRecord.length = p.scrollback.length + p.normalScreen.length := by
  have h := congrArg List.length (List.take_append_drop p.covered p.scrollback)
  simp only [List.length_append] at h
  simp only [PaneState.normalRecord, List.length_append]
  omega

lemma PaneReplay.capture_normalUnder_length (p : PaneState) :
    (PaneReplay.capture p).normalUnder.length =
      if p.modes.altScreen then
        if p.scrollback.length + p.normalScreen.length = 0 then 0
        else pieces (8 + (p.scrollback.length + p.normalScreen.length))
      else 0 := by
  have hl : leaveAltScreen.length = 8 := by decide
  have he : (p.scrollback.isEmpty && p.normalScreen.isEmpty) = true ↔
      p.scrollback.length + p.normalScreen.length = 0 := by
    simp [List.isEmpty_iff]
  simp only [PaneReplay.capture]
  cases p.modes.altScreen with
  | false => rfl
  | true =>
    by_cases hn : p.scrollback.length + p.normalScreen.length = 0
    · rw [he.mpr hn, if_pos rfl, if_pos hn]
      rfl
    · have hb : (p.scrollback.isEmpty && p.normalScreen.isEmpty) = false :=
        Bool.eq_false_iff.mpr (he.not.mpr hn)
      rw [hb, if_pos rfl, if_neg hn]
      simp [frameChunks, chunks_length, hl, p.normalRecord_length, pieces]

lemma PaneReplay.capture_length (p : PaneState) :
    (PaneReplay.capture p).frames.length = p.replayFrames := by
  have hp : (PaneReplay.capture p).prelude.length = 1 := by
    simp only [PaneReplay.capture, frameChunks, chunks_length, p.modes.prelude_length,
      replayChunkBytes]
  have hr : (PaneReplay.capture p).record.length =
      if p.modes.altScreen then pieces (p.screen.length + p.since.length)
      else pieces (p.scrollback.length + p.normalScreen.length) := by
    simp only [PaneReplay.capture]
    split <;> simp [frameChunks, chunks_length, p.normalRecord_length, pieces]
  simp only [PaneReplay.frames, PaneReplay.parts, List.length_cons, List.length_map,
    List.length_append, PaneReplay.capture_normalUnder_length, hp, hr, PaneState.replayFrames]
  split <;> omega

lemma Shared.greeting_replay_length (s : Shared) (id : ℕ) :
    (s.greeting id false).replay.length = s.replayFrames := by
  have hz : (s.zoomed.toList.map (fun p => TerminalFrame.control (.zoomed (some p)))).length =
      if s.zoomed.isSome then 1 else 0 := by
    cases s.zoomed <;> rfl
  have hp : ((s.panes.map PaneReplay.capture).flatMap PaneReplay.frames).length =
      (s.panes.map PaneState.replayFrames).sum := by
    rw [List.length_flatMap, List.map_map]
    congr 2
    funext p
    exact PaneReplay.capture_length p
  simp only [Greeting.replay, Greeting.opening, Shared.greeting, List.length_append,
    List.length_cons, hz, hp, Bool.false_eq_true, if_false, Shared.replayFrames]
  omega

lemma Shared.greeting_reports_length (s : Shared) (id : ℕ) :
    (s.greeting id false).reports.length = s.recovery.size := by
  simp [Greeting.reports, Shared.greeting]

namespace Greeting

variable {g : Greeting}

lemma handed_foldl {q : ReplayQueue} {fs : List TerminalFrame} (h : q.Handed fs)
    (rs : List PaneReplay) :
    (rs.foldl (fun q r => (q.replayPane r).2) q).Handed (fs ++ rs.flatMap PaneReplay.frames) := by
  induction rs generalizing q fs with
  | nil => simpa using h
  | cons r rs ih => simpa using ih (h.replayPane r)

lemma handed_fresh : (ReplayQueue.mk Shared.freshQueue 0).Handed [] :=
  ⟨rfl, rfl, rfl, rfl, rfl⟩

lemma offer_foldl {c : Chan TerminalFrame} (ha : c.alive = true) (ht : c.taken = 0)
    (hl : c.sent.length ≤ c.depth) (fs : List TerminalFrame) :
    fs.foldl (fun tx f => tx.offer f) c = { c with sent := (c.sent ++ fs).take c.depth } := by
  induction fs generalizing c with
  | nil => simp [List.take_of_length_le hl]
  | cons f fs ih =>
    rw [List.foldl_cons]
    by_cases hr : c.sent.length < c.depth
    · have hroom : c.Room := by simpa [Chan.Room, ht] using hr
      have hs := ih (c := { c with sent := c.sent ++ [f] }) ha ht
        (by simpa using Nat.succ_le_of_lt hr)
      rw [Chan.offer_of_room f ha hroom, hs]
      simp
    · have hfull : c.offer f = c := by
        have hroom : ¬ c.Room := by simpa [Chan.Room, ht] using hr
        simp [Chan.offer, Chan.trySend, ha, hroom]
      have hd : c.depth = c.sent.length := by omega
      rw [hfull, ih ha ht hl]
      simp [hd]

lemma queue_eq (g : Greeting) :
    let sent := (g.replay.take clientQueueDepth ++ g.reports).take (clientQueueDepth + 1)
    g.queue Shared.freshQueue =
      if sent.length < clientQueueDepth + 1 then
        (true, { Shared.freshQueue with sent := sent ++ [.control .replayComplete] })
      else (false, { Shared.freshQueue with sent }) := by
  obtain ⟨h1, -⟩ := handed_fresh.send (.control (.hello g.client g.count))
  have h2 : (match g.zoomed with
      | some pane => (((ReplayQueue.mk Shared.freshQueue 0).send (.control (.hello g.client
          g.count))).2.send (.control (.zoomed (some pane)))).2
      | none => ((ReplayQueue.mk Shared.freshQueue 0).send (.control (.hello g.client
          g.count))).2).Handed g.opening := by
    cases hz : g.zoomed with
    | none => simpa [opening, hz] using h1
    | some pane => simpa [opening, hz] using (h1.send (.control (.zoomed (some pane)))).1
  have h3 := handed_foldl h2 g.panes
  rw [show g.opening ++ g.panes.flatMap PaneReplay.frames = g.replay from rfl] at h3
  simp only [queue]
  generalize g.panes.foldl _ _ = q at h3 ⊢
  obtain ⟨⟨depth, sent, taken, alive⟩, queued⟩ := q
  obtain ⟨hd, ht, ha, hs, -⟩ := h3
  dsimp only at hd ht ha hs
  subst hd ht ha hs
  have hle : (g.replay.take clientQueueDepth).length ≤ clientQueueDepth + 1 :=
    (List.length_take_le _ _).trans (Nat.le_succ _)
  have hf := offer_foldl (c := ⟨clientQueueDepth + 1, g.replay.take clientQueueDepth, 0, true⟩)
    rfl rfl hle g.reports
  rw [reports, List.foldl_map] at hf
  rw [hf, ← reports]
  by_cases hr : ((g.replay.take clientQueueDepth ++ g.reports).take (clientQueueDepth + 1)).length <
      clientQueueDepth + 1
  · simp only [if_pos hr, Chan.trySend, Chan.Room, Nat.zero_add]
    simp [Shared.freshQueue]
  · simp only [if_neg hr, Chan.trySend, Chan.Room, Nat.zero_add]
    simp [Shared.freshQueue]

lemma queue_complete_iff (g : Greeting) :
    (g.queue Shared.freshQueue).1 = true ↔
      min clientQueueDepth g.replay.length + g.reports.length ≤ clientQueueDepth := by
  rw [queue_eq]
  dsimp only
  rw [List.length_take, List.length_append, List.length_take]
  split
  · simp only [true_iff]
    omega
  · simp only [Bool.false_eq_true, false_iff]
    omega

lemma queue_whole {g : Greeting}
    (h : g.replay.length + g.reports.length ≤ clientQueueDepth) :
    g.queue Shared.freshQueue = (true, { Shared.freshQueue with sent := g.frames }) := by
  rw [queue_eq]
  have h1 : g.replay.take clientQueueDepth = g.replay := List.take_of_length_le (by omega)
  have h2 : (g.replay ++ g.reports).take (clientQueueDepth + 1) = g.replay ++ g.reports :=
    List.take_of_length_le (by rw [List.length_append]; omega)
  dsimp only
  rw [h1, h2, if_pos (by rw [List.length_append]; omega)]
  rfl

end Greeting

namespace Shared

lemma frameReplay_complete (s : Shared) (id : ℕ) (stopped : Bool) :
    ((s.registerClient id).frameReplay (s.greeting id stopped)).1 =
      ((s.greeting id stopped).queue freshQueue).1 := by
  have hq : (s.registerClient id).queues id = freshQueue := Function.update_self ..
  simp only [frameReplay, greeting_client, hq]
  cases ((s.greeting id stopped).queue freshQueue).1 <;> rfl

lemma frameReplay_complete_iff (s : Shared) (id : ℕ) :
    ((s.registerClient id).frameReplay (s.greeting id false)).1 = true ↔
      min clientQueueDepth s.replayFrames + s.recovery.size ≤ clientQueueDepth := by
  rw [frameReplay_complete, Greeting.queue_complete_iff, greeting_replay_length,
    greeting_reports_length]

/-- The marker fits, and the connection does not unwind, exactly when the reports find the
slots that the replay, cut to its own bound, left of the queue depth. -/
theorem completion_fits_iff (s : Shared) (id : ℕ) (stopped : Bool) :
    ((s.registerClient id).frameReplay (s.greeting id stopped)).1 = true ↔
      stopped = true ∨
        min clientQueueDepth s.replayFrames + s.recovery.size ≤ clientQueueDepth := by
  cases stopped with
  | false => simpa using s.frameReplay_complete_iff id
  | true =>
    rw [frameReplay_complete, Greeting.queue_complete_iff]
    simp [greeting, Greeting.replay, Greeting.opening, Greeting.reports, clientQueueDepth]

end Shared

def widePane (under top : ℕ) (id : PaneId) : PaneState where
  id := id
  title := none
  size := ⟨500, 1100⟩
  modes := { altScreen := true }
  normalScreen := List.replicate under 0
  screen := List.replicate top 0

lemma widePane_replayFrames (under top : ℕ) (id : PaneId) (h : under ≠ 0) :
    (widePane under top id).replayFrames = 2 + pieces (8 + under) + pieces top := by
  simp [PaneState.replayFrames, widePane, h]

namespace Shared

def wideHub (under top : ℕ) : Shared :=
  { panes := (List.range maxPtysPerRepo).map (widePane under top) }

lemma wideHub_replayFrames (under top : ℕ) (h : under ≠ 0) :
    (wideHub under top).replayFrames = 1 + 8 * (2 + pieces (8 + under) + pieces top) := by
  have hp : (wideHub under top).panes.map PaneState.replayFrames =
      List.replicate maxPtysPerRepo (2 + pieces (8 + under) + pieces top) := by
    rw [wideHub, List.map_map, List.eq_replicate_iff]
    refine ⟨by rw [List.length_map, List.length_range], fun n hn => ?_⟩
    obtain ⟨id, -, rfl⟩ := List.mem_map.mp hn
    rw [Function.comp_apply, widePane_replayFrames under top id h]
  rw [replayFrames, hp, List.sum_replicate, smul_eq_mul]
  rfl

lemma broadcastRecovery_replayFrames (s : Shared) (pane : PaneId) (r : RecoveryReport) :
    (s.broadcastRecovery pane r).replayFrames = s.replayFrames := by
  have hp : (s.broadcastRecovery pane r).panes = s.panes := rfl
  have hz : (s.broadcastRecovery pane r).zoomed = s.zoomed := rfl
  rw [replayFrames, hp, hz, replayFrames]

lemma wideHub_refuses {under top : ℕ} (h : under ≠ 0)
    (hf : 256 ≤ 1 + 8 * (2 + pieces (8 + under) + pieces top)) (r : RecoveryReport)
    (hr : r.state ≠ recoveryCancelled) :
    ((((wideHub under top).broadcastRecovery 0 r).registerClient 0).frameReplay
      (((wideHub under top).broadcastRecovery 0 r).greeting 0 false)).1 = false := by
  have hn : ((wideHub under top).broadcastRecovery 0 r).recovery.size = 1 := by
    simp [broadcastRecovery, broadcast, hr, wideHub, Std.TreeMap.size_insert]
  rw [← Bool.not_eq_true, frameReplay_complete_iff, broadcastRecovery_replayFrames,
    wideHub_replayFrames _ _ h, hn, clientQueueDepth]
  omega

theorem completion_refused :
    let s := (wideHub (15 * replayChunkBytes) (14 * replayChunkBytes)).broadcastRecovery 0
      { state := "waiting", detail := none, deadlineEpoch := none, attempt := 1 }
    ((s.registerClient 0).frameReplay (s.greeting 0 false)).1 = false := by
  intro s
  exact wideHub_refuses (by simp [replayChunkBytes]) (by simp [pieces, replayChunkBytes]) _ (by decide)

end Shared

end Nightcrow.Session.Terminal
