import Nightcrow.Library.Runs
import Nightcrow.Session.Terminal.Connect

/-! What a client can ever read, for every interleaving of its connection with the frames the
worker and the other threads send. -/

namespace Nightcrow.Session.Terminal

open Nightcrow.Library

inductive Phase
  | absent
  | framing (greeting : Greeting)
  | queued
  | joined
  | live
  | left
  | unwound

/-- A client's connection as an observer of the hub follows it: its phase, the replay it was
promised by its snapshot, and every frame broadcast or addressed to it since. -/
structure Link where
  phase : Phase := .absent
  greeted : List TerminalFrame := []
  log : List TerminalFrame := []

namespace Phase

def Listening : Phase → Bool
  | framing _ | queued | joined | live => true
  | _ => false

def Joined : Phase → Bool
  | joined | live | left => true
  | _ => false

def Reading : Phase → Bool
  | live | left => true
  | _ => false

end Phase

def Link.push (l : Link) (frame : TerminalFrame) : Link :=
  if l.phase.Listening then { l with log := l.log ++ [frame] } else l

structure World where
  shared : Shared := {}
  link : ℕ → Link := fun _ => {}

/-- One lock hold, or one thing a thread does to a queue of its own. A connection takes its
snapshot, queues its replay, registers with the size ownership and opens its gate; the worker
changes what the hub shows and broadcasts. -/
inductive Step
  | connect (id : ℕ) (stopped : Bool)
  | frame (id : ℕ)
  | join (id : ℕ)
  | release (id : ℕ) (connection : ℕ)
  | verdict (id : ℕ) (owned : Bool) (generation : UInt64)
  | work (panes : List PaneState) (reserved : ℕ) (zoomed : Option PaneId)
      (recovery : Std.TreeMap PaneId RecoveryReport) (frames : List TerminalFrame)
  | send (id : ℕ) (frame : TerminalFrame)
  | recv (id : ℕ)
  | disconnect (id : ℕ)

namespace World

variable (w : World)

def relink (id : ℕ) (l : Link) : World := { w with link := Function.update w.link id l }

def broadcast (frame : TerminalFrame) : World :=
  { shared := w.shared.broadcastLocked frame, link := fun id => (w.link id).push frame }

def sendTo (id : ℕ) (frame : TerminalFrame) : World :=
  { shared := w.shared.queueTo id frame
    link := Function.update w.link id ((w.link id).push frame) }

def setQueue (id : ℕ) (tx : Chan TerminalFrame) : World :=
  { w with shared := { w.shared with queues := Function.update w.shared.queues id tx } }

def step : Step → Option World
  | .connect id stopped =>
    match (w.link id).phase with
    | .absent =>
      let greeting := w.shared.greeting id stopped
      some { shared := w.shared.registerClient id
             link := Function.update w.link id
               { phase := .framing greeting, greeted := greeting.frames } }
    | _ => none
  | .frame id =>
    match (w.link id).phase with
    | .framing greeting =>
      let (complete, shared) := w.shared.frameReplay greeting
      some ({ w with shared }.relink id
        { w.link id with phase := if complete then .queued else .unwound })
    | _ => none
  | .join id =>
    match (w.link id).phase with
    | .queued => some (w.relink id { w.link id with phase := .joined })
    | _ => none
  | .release id connection =>
    match (w.link id).phase with
    | .joined => some ({ w with shared := w.shared.releaseHeld id connection }.relink id
        { w.link id with phase := .live })
    | _ => none
  | .verdict id owned generation =>
    if (w.link id).phase.Joined then
      some (w.setQueue id ((w.shared.queues id).offer (.control (.sizeOwner owned generation))))
    else none
  | .work panes reserved zoomed recovery frames =>
    if frames.all (·.verdict?.isNone) then
      some (frames.foldl broadcast
        { w with shared := { w.shared with panes, reserved, zoomed, recovery } })
    else none
  | .send id frame => if frame.verdict?.isNone then some (w.sendTo id frame) else none
  | .recv id =>
    if (w.link id).phase.Reading then
      (w.shared.queues id).recv.map (fun r => w.setQueue id r.2)
    else none
  | .disconnect id =>
    match (w.link id).phase with
    | .live => some ({ w with shared := w.shared.removeClient id }.relink id
        { w.link id with phase := .left })
    | _ => none

def ReplayFits : Step → Prop
  | .connect _ stopped =>
    stopped = true ∨ w.shared.replayFrames + w.shared.recovery.size ≤ clientQueueDepth
  | _ => True

end World

structure Delivered (greeted delivered : List TerminalFrame) (tx : Chan TerminalFrame) : Prop where
  alive : tx.alive = true
  sent : ∃ rest, tx.sent = greeted ++ rest ∧ rest.filter (·.verdict?.isNone) = delivered

def Held (log : List TerminalFrame) (client : Option Client) (cut : Prop) : Prop :=
  (∃ c, client = some c ∧ c.replayHeld = some log) ∨ (client = none ∧ cut)

def Link.Sound (l : Link) (id : ℕ) (x : Seat) (cut : Prop) : Prop :=
  (∀ f ∈ l.log, f.verdict? = none) ∧
  match l.phase with
  | .absent => x.1 = none
  | .framing g => l.greeted = g.frames ∧ g.client = id ∧ x.2 = Shared.freshQueue ∧
      g.replay.length + g.reports.length ≤ clientQueueDepth ∧ Held l.log x.1 cut
  | .queued | .joined => Delivered l.greeted [] x.2 ∧ Held l.log x.1 cut
  | .live => (Delivered l.greeted l.log x.2 ∧ ∃ c, x.1 = some c ∧ c.replayHeld = none) ∨
      (x.1 = none ∧ cut ∧ ∃ p, p <+: l.log ∧ Delivered l.greeted p x.2)
  | .left => x.1 = none ∧ ∃ p, p <+: l.log ∧ Delivered l.greeted p x.2 ∧ (p ≠ l.log → cut)
  | .unwound => False

namespace Delivered

variable {greeted delivered : List TerminalFrame} {tx : Chan TerminalFrame}

lemma append (h : Delivered greeted delivered tx) {f : TerminalFrame} (hf : f.verdict? = none) :
    Delivered greeted (delivered ++ [f]) { tx with sent := tx.sent ++ [f] } := by
  obtain ⟨ha, rest, hs, hr⟩ := h
  refine ⟨ha, rest ++ [f], by simp [hs], ?_⟩
  simp [List.filter_append, hr, hf]

lemma verdict (h : Delivered greeted delivered tx) (owned : Bool) (generation : UInt64) :
    Delivered greeted delivered (tx.offer (.control (.sizeOwner owned generation))) := by
  obtain ⟨ha, rest, hs, hr⟩ := h
  rcases tx.offer_cases (.control (.sizeOwner owned generation)) with ho | ho <;> rw [ho]
  · refine ⟨ha, rest ++ [.control (.sizeOwner owned generation)], by simp [hs], ?_⟩
    rw [List.filter_append, hr]
    simp [TerminalFrame.verdict?]
  · exact ⟨ha, rest, hs, hr⟩

lemma recv (h : Delivered greeted delivered tx) {f : TerminalFrame} {ty : Chan TerminalFrame}
    (hr : tx.recv = some (f, ty)) : Delivered greeted delivered ty :=
  ⟨(Chan.recv_alive hr).trans h.alive, by rw [Chan.recv_sent hr]; exact h.sent⟩

end Delivered

lemma Held.queue {log : List TerminalFrame} {x : Seat} {cut : Prop} (h : Held log x.1 cut)
    (f : TerminalFrame) :
    Held (log ++ [f]) (x.queue f).1 (cut ∨ x.Overflows f) ∧ (x.queue f).2 = x.2 := by
  obtain ⟨c, tx⟩ := x
  rcases h with ⟨d, rfl, hd⟩ | ⟨hc, hcut⟩
  · by_cases hl : log.length < clientQueueDepth
    · refine ⟨.inl ⟨{ d with replayHeld := some (log ++ [f]) }, ?_, rfl⟩, ?_⟩ <;>
        simp [Seat.queue, Client.retained, queueLocked, hd, hl]
    · refine ⟨.inr ⟨?_, .inr ⟨d, rfl, ?_⟩⟩, ?_⟩ <;>
        simp [Seat.queue, Client.retained, queueLocked, hd, hl]
  · obtain rfl : c = none := hc
    exact ⟨.inr ⟨rfl, .inl hcut⟩, rfl⟩

lemma Held.mono {log : List TerminalFrame} {client : Option Client} {cut cut' : Prop}
    (h : Held log client cut) (hc : cut → cut') : Held log client cut' :=
  h.imp id (fun h => ⟨h.1, hc h.2⟩)

namespace Link.Sound

variable {l : Link} {id : ℕ} {x : Seat} {cut : Prop}

lemma mono {cut' : Prop} (h : l.Sound id x cut) (hc : cut → cut') : l.Sound id x cut' := by
  obtain ⟨phase, greeted, log⟩ := l
  obtain ⟨hv, h⟩ := h
  refine ⟨hv, ?_⟩
  cases phase with
  | absent => exact h
  | framing g => exact ⟨h.1, h.2.1, h.2.2.1, h.2.2.2.1, h.2.2.2.2.mono hc⟩
  | queued => exact ⟨h.1, h.2.mono hc⟩
  | joined => exact ⟨h.1, h.2.mono hc⟩
  | live => exact h.imp_right (fun h => ⟨h.1, hc h.2.1, h.2.2⟩)
  | left =>
    obtain ⟨hx, p, hp, hd, hcut⟩ := h
    exact ⟨hx, p, hp, hd, fun hne => hc (hcut hne)⟩
  | unwound => exact h

lemma live_queue {greeted log : List TerminalFrame} {f : TerminalFrame} (hf : f.verdict? = none)
    (h : (Delivered greeted log x.2 ∧ ∃ c, x.1 = some c ∧ c.replayHeld = none) ∨
      (x.1 = none ∧ cut ∧ ∃ p, p <+: log ∧ Delivered greeted p x.2)) :
    (Delivered greeted (log ++ [f]) (x.queue f).2 ∧
        ∃ c, (x.queue f).1 = some c ∧ c.replayHeld = none) ∨
      ((x.queue f).1 = none ∧ (cut ∨ x.Overflows f) ∧
        ∃ p, p <+: log ++ [f] ∧ Delivered greeted p (x.queue f).2) := by
  obtain ⟨c, tx⟩ := x
  rcases h with ⟨hd, d, hc, hg⟩ | ⟨hc, hcut, p, hp, hd⟩
  · obtain rfl : c = some d := hc
    by_cases hr : tx.Room
    · have ht := tx.trySend_of_room f hd.alive hr
      refine .inl ⟨?_, d, ?_, hg⟩
      · simpa [Seat.queue, queueLocked, hg, ht] using hd.append hf
      · simp [Seat.queue, Client.retained, queueLocked, hg, ht]
    · have ht : tx.trySend f = .error .full := by
        have ha : tx.alive = true := hd.alive
        simp [Chan.trySend, ha, hr]
      refine .inr ⟨?_, .inr ⟨d, rfl, ?_⟩, log, List.prefix_append log [f], ?_⟩
      · simp [Seat.queue, Client.retained, queueLocked, hg, ht]
      · simp [queueLocked, hg, ht]
      · simpa [Seat.queue, queueLocked, hg, ht] using hd
  · obtain rfl : c = none := hc
    exact .inr ⟨rfl, .inl hcut, p, hp.trans (List.prefix_append log [f]), hd⟩

lemma queue (h : l.Sound id x cut) {f : TerminalFrame} (hf : f.verdict? = none) :
    (l.push f).Sound id (x.queue f) (cut ∨ x.Overflows f) := by
  obtain ⟨phase, greeted, log⟩ := l
  obtain ⟨hv, h⟩ := h
  have hv' : ∀ g ∈ log ++ [f], g.verdict? = none := by
    intro g hg
    rcases List.mem_append.mp hg with hg | hg
    · exact hv g hg
    · exact List.mem_singleton.mp hg ▸ hf
  have hnone : x.1 = none → x.queue f = x := by
    obtain ⟨c, tx⟩ := x
    rintro rfl
    rfl
  cases phase with
  | absent =>
    rw [hnone h]
    exact ⟨hv, h⟩
  | framing g =>
    obtain ⟨hg, hid, hx, hfit, hh⟩ := h
    obtain ⟨hh, hx'⟩ := hh.queue f
    exact ⟨hv', hg, hid, hx'.trans hx, hfit, hh⟩
  | queued =>
    obtain ⟨hd, hh⟩ := h
    obtain ⟨hh, hx'⟩ := hh.queue f
    exact ⟨hv', hx'.symm ▸ hd, hh⟩
  | joined =>
    obtain ⟨hd, hh⟩ := h
    obtain ⟨hh, hx'⟩ := hh.queue f
    exact ⟨hv', hx'.symm ▸ hd, hh⟩
  | live => exact ⟨hv', live_queue hf h⟩
  | left =>
    obtain ⟨hx, p, hpl, hd, hcut⟩ := h
    rw [hnone hx]
    exact ⟨hv, hx, p, hpl, hd, fun hne => .inl (hcut hne)⟩
  | unwound => exact h.elim

end Link.Sound

namespace World

variable {w v : World}

structure Sound (w : World) : Prop where
  nodup : w.shared.clientIds.Nodup
  link : ∀ id, (w.link id).Sound id (w.shared.seat id) (id ∈ w.shared.cutOff)

lemma sound_empty : ({} : World).Sound where
  nodup := List.nodup_nil
  link _ := ⟨fun _ h => (List.not_mem_nil h).elim, rfl⟩

namespace Sound

lemma broadcast (h : w.Sound) {f : TerminalFrame} (hf : f.verdict? = none) :
    (w.broadcast f).Sound := by
  refine ⟨h.nodup.sublist (Shared.clientIds_broadcastLocked f), fun id => ?_⟩
  have hl := (h.link id).queue hf
  rw [← Shared.seat_broadcastLocked f h.nodup] at hl
  exact hl.mono (Shared.cutOff_broadcastLocked f h.nodup).mpr

lemma broadcasts (h : w.Sound) {fs : List TerminalFrame} (hf : ∀ f ∈ fs, f.verdict? = none) :
    (fs.foldl World.broadcast w).Sound := by
  induction fs generalizing w with
  | nil => exact h
  | cons f fs ih =>
    exact ih (h.broadcast (hf f List.mem_cons_self)) (fun g hg => hf g (List.mem_cons_of_mem f hg))

lemma sendTo (h : w.Sound) (id : ℕ) {f : TerminalFrame} (hf : f.verdict? = none) :
    (w.sendTo id f).Sound := by
  refine ⟨h.nodup.sublist (Shared.clientIds_queueTo f id), fun i => ?_⟩
  by_cases hi : i = id
  · subst hi
    have hl := (h.link i).queue hf
    rw [← Shared.seat_queueTo f h.nodup] at hl
    simp only [World.sendTo, Function.update_self]
    exact hl.mono (fun hc => (Shared.cutOff_queueTo f).mpr (hc.imp_right (fun ho => ⟨rfl, ho⟩)))
  · simp only [World.sendTo, Function.update_of_ne hi, Shared.seat_queueTo_of_ne f h.nodup hi]
    exact (h.link i).mono (fun hc => (Shared.cutOff_queueTo f).mpr (.inl hc))

lemma own (h : w.Sound) (id : ℕ) (hn : v.shared.clientIds.Nodup)
    (hid : (v.link id).Sound id (v.shared.seat id) (id ∈ v.shared.cutOff))
    (hne : ∀ i, i ≠ id → v.link i = w.link i ∧ v.shared.seat i = w.shared.seat i)
    (hc : v.shared.cutOff = w.shared.cutOff) : v.Sound := by
  refine ⟨hn, fun i => ?_⟩
  by_cases hi : i = id
  · exact hi ▸ hid
  · rw [(hne i hi).1, (hne i hi).2, hc]
    exact h.link i

lemma connect (h : w.Sound) {id : ℕ} {stopped : Bool} (hf : w.ReplayFits (.connect id stopped))
    (hs : w.step (.connect id stopped) = some v) : v.Sound := by
  have hl := h.link id
  rcases hw : w.link id with ⟨phase, greeted, log⟩
  simp only [step, hw] at hs
  cases phase <;> try cases hs
  rw [hw] at hl
  have hnone : w.shared.client? id = none := hl.2
  have hfit : (w.shared.greeting id stopped).replay.length +
      (w.shared.greeting id stopped).reports.length ≤ clientQueueDepth := by
    cases stopped with
    | true =>
      simp [Shared.greeting, Greeting.replay, Greeting.opening, Greeting.reports, clientQueueDepth]
    | false =>
      rw [Shared.greeting_replay_length, Shared.greeting_reports_length]
      exact hf.resolve_left Bool.false_ne_true
  refine h.own id ?_ ?_ (fun i hi => ?_) rfl
  · rw [Shared.clientIds_registerClient, List.nodup_append]
    refine ⟨h.nodup, List.nodup_singleton id, fun i hi j hj he => ?_⟩
    exact Shared.notMem_clientIds hnone (by rwa [← List.mem_singleton.mp hj, ← he])
  · simp only [Function.update_self, Shared.seat_registerClient hnone]
    refine ⟨fun _ hm => (List.not_mem_nil hm).elim, rfl, w.shared.greeting_client id stopped, rfl,
      hfit, .inl ⟨_, rfl, rfl⟩⟩
  · exact ⟨Function.update_of_ne hi .., w.shared.seat_registerClient_of_ne hi⟩

lemma frame (h : w.Sound) {id : ℕ} (hs : w.step (.frame id) = some v) : v.Sound := by
  have hl := h.link id
  rcases hw : w.link id with ⟨phase, greeted, log⟩
  simp only [step, hw] at hs
  cases phase <;> try cases hs
  rename_i g
  rw [hw] at hl
  obtain ⟨hv, rfl, rfl, hx, hfit, hh⟩ := hl
  have hq : w.shared.queues g.client = Shared.freshQueue := hx
  have hr : w.shared.frameReplay g = (true,
      { w.shared with
        queues := Function.update w.shared.queues g.client
          { Shared.freshQueue with sent := g.frames } }) := by
    rw [Shared.frameReplay, hq, Greeting.queue_whole hfit]
    rfl
  rw [hr]
  refine h.own g.client h.nodup ?_ (fun i hi => ?_) rfl
  · simp only [relink, Function.update_self]
    refine ⟨hv, ⟨?_, [], ?_, rfl⟩, hh⟩ <;> simp [Shared.seat, Shared.freshQueue]
  · exact ⟨Function.update_of_ne hi .., Prod.ext rfl (Function.update_of_ne hi ..)⟩

lemma join (h : w.Sound) {id : ℕ} (hs : w.step (.join id) = some v) : v.Sound := by
  have hl := h.link id
  rcases hw : w.link id with ⟨phase, greeted, log⟩
  simp only [step, hw] at hs
  cases phase <;> try cases hs
  rw [hw] at hl
  refine h.own id h.nodup ?_ (fun i hi => ⟨Function.update_of_ne hi .., rfl⟩) rfl
  simp only [relink, Function.update_self]
  exact hl

lemma setQueue (h : w.Sound) {id : ℕ} {tx : Chan TerminalFrame}
    (hj : (w.link id).phase.Joined = true)
    (htx : ∀ greeted delivered, Delivered greeted delivered (w.shared.queues id) →
      Delivered greeted delivered tx) : (w.setQueue id tx).Sound := by
  have hl := h.link id
  refine h.own id h.nodup ?_ (fun i hi => ⟨rfl, Prod.ext rfl (Function.update_of_ne hi ..)⟩)
    rfl
  have hseat : (w.setQueue id tx).shared.seat id = ((w.shared.seat id).1, tx) :=
    Prod.ext rfl (Function.update_self ..)
  rw [hseat]
  show (w.link id).Sound id _ _
  rcases hw : w.link id with ⟨phase, greeted, log⟩
  rw [hw] at hl hj
  obtain ⟨hv, hl⟩ := hl
  refine ⟨hv, ?_⟩
  cases phase <;> try cases hj
  · exact ⟨htx _ _ hl.1, hl.2⟩
  · rcases hl with ⟨hd, hc⟩ | ⟨hc, hcut, p, hp, hd⟩
    · exact .inl ⟨htx _ _ hd, hc⟩
    · exact .inr ⟨hc, hcut, p, hp, htx _ _ hd⟩
  · obtain ⟨hc, p, hp, hd, hcut⟩ := hl
    exact ⟨hc, p, hp, htx _ _ hd, hcut⟩

lemma disconnect (h : w.Sound) {id : ℕ} (hs : w.step (.disconnect id) = some v) : v.Sound := by
  have hl := h.link id
  rcases hw : w.link id with ⟨phase, greeted, log⟩
  simp only [step, hw] at hs
  cases phase <;> try cases hs
  rw [hw] at hl
  obtain ⟨hv, hl⟩ := hl
  refine h.own id (h.nodup.sublist (w.shared.clientIds_removeClient id)) ?_
    (fun i hi => ⟨Function.update_of_ne hi .., Prod.ext ?_ rfl⟩) rfl
  · simp only [relink, Function.update_self]
    refine ⟨hv, (w.shared.client?_removeClient id id).trans (if_pos rfl), ?_⟩
    rcases hl with ⟨hd, -⟩ | ⟨-, hcut, p, hp, hd⟩
    · exact ⟨log, List.prefix_rfl, hd, fun hne => absurd rfl hne⟩
    · exact ⟨p, hp, hd, fun _ => hcut⟩
  · exact (w.shared.client?_removeClient id i).trans (if_neg hi)

lemma sendTos (h : w.Sound) (id : ℕ) {fs : List TerminalFrame}
    (hf : ∀ f ∈ fs, f.verdict? = none) : (fs.foldl (fun w f => w.sendTo id f) w).Sound := by
  induction fs generalizing w with
  | nil => exact h
  | cons f fs ih =>
    exact ih (h.sendTo id (hf f List.mem_cons_self)) (fun g hg => hf g (List.mem_cons_of_mem f hg))

lemma sendTos_shared (w : World) (id : ℕ) (fs : List TerminalFrame) :
    (fs.foldl (fun w f => w.sendTo id f) w).shared =
      fs.foldl (fun s f => s.queueTo id f) w.shared := by
  induction fs generalizing w with
  | nil => rfl
  | cons f fs ih => exact ih _

lemma sendTos_link {id : ℕ} (hl : (w.link id).phase = .live) (fs : List TerminalFrame) :
    (fs.foldl (fun w f => w.sendTo id f) w).link =
      Function.update w.link id { w.link id with log := (w.link id).log ++ fs } := by
  induction fs generalizing w with
  | nil => simp
  | cons f fs ih =>
    have hp : (w.sendTo id f).link id = { w.link id with log := (w.link id).log ++ [f] } := by
      simp [World.sendTo, Link.push, hl, Phase.Listening]
    rw [List.foldl_cons, ih (by rw [hp]; exact hl), hp]
    simp [World.sendTo]

lemma release (h : w.Sound) {id connection : ℕ} (hs : w.step (.release id connection) = some v) :
    v.Sound := by
  have hl := h.link id
  rcases hw : w.link id with ⟨phase, greeted, log⟩
  simp only [step, hw] at hs
  cases phase <;> try cases hs
  rw [hw] at hl
  obtain ⟨hv, hd, hh⟩ := hl
  rcases hh with ⟨c, hc, hheld⟩ | ⟨hc, hcut⟩
  · have hc : w.shared.client? id = some c := hc
    let start : World := { w with shared := w.shared.openGate id connection }.relink id
      { phase := .live, greeted }
    have hlink : start.link id = { phase := .live, greeted } := Function.update_self ..
    have hstart : start.Sound := by
      refine h.own id ?_ ?_ (fun i hi => ⟨Function.update_of_ne hi .., ?_⟩) rfl
      · exact (w.shared.clientIds_openGate id connection).symm ▸ h.nodup
      · rw [hlink, show start.shared.seat id = _ from Shared.seat_openGate h.nodup hc connection]
        exact ⟨fun _ hm => (List.not_mem_nil hm).elim, .inl ⟨hd, _, rfl, rfl⟩⟩
      · exact Shared.seat_openGate_of_ne h.nodup hi connection
    have hend := hstart.sendTos id hv
    have hshared := sendTos_shared start id log
    have hlinks := sendTos_link (w := start) (by rw [hlink]) log
    generalize log.foldl (fun w f => w.sendTo id f) start = u at hend hshared hlinks
    obtain ⟨shared, link⟩ := u
    dsimp only at hshared hlinks
    subst hshared hlinks
    simp only [Shared.releaseHeld, hc, hheld, Option.getD_some]
    rw [hlink] at hend
    simpa [relink, start] using hend
  · have hc : w.shared.client? id = none := hc
    simp only [Shared.releaseHeld, hc]
    refine h.own id h.nodup ?_ (fun i hi => ⟨Function.update_of_ne hi .., rfl⟩) rfl
    simp only [relink, Function.update_self]
    exact ⟨hv, .inr ⟨hc, hcut, [], List.nil_prefix, hd⟩⟩

lemma step (h : w.Sound) {l : Step} (hf : w.ReplayFits l) (hs : w.step l = some v) : v.Sound := by
  cases l with
  | connect id stopped => exact h.connect hf hs
  | frame id => exact h.frame hs
  | join id => exact h.join hs
  | release id connection => exact h.release hs
  | verdict id owned generation =>
    simp only [World.step] at hs
    split at hs
    · exact Option.some.inj hs ▸ h.setQueue ‹_› (fun _ _ hd => hd.verdict owned generation)
    · cases hs
  | work panes reserved zoomed recovery frames =>
    simp only [World.step] at hs
    split at hs
    · rename_i hv
      have hw : Sound { w with shared := { w.shared with panes, reserved, zoomed, recovery } } :=
        ⟨h.nodup, h.link⟩
      refine Option.some.inj hs ▸ hw.broadcasts fun f hm => ?_
      exact Option.isNone_iff_eq_none.mp (List.all_eq_true.mp hv f hm)
    · cases hs
  | send id frame =>
    simp only [World.step] at hs
    split at hs
    · exact Option.some.inj hs ▸ h.sendTo id (Option.isNone_iff_eq_none.mp ‹_›)
    · cases hs
  | recv id =>
    simp only [World.step] at hs
    split at hs
    · rename_i hr
      obtain ⟨⟨f, tx⟩, htx, rfl⟩ := Option.map_eq_some_iff.mp hs
      refine h.setQueue ?_ (fun _ _ hd => hd.recv htx)
      revert hr
      cases (w.link id).phase <;> simp [Phase.Reading, Phase.Joined]
    · cases hs
  | disconnect id => exact h.disconnect hs

end Sound

/-- What the client has in its queue, or read from it, by how far its connection has come:
nothing, the replay its snapshot promised, and then, with nothing but size verdicts in
between, the frames sent since, up to where it was cut off if it was. -/
structure DeliveredInOrder (w : World) (id : ℕ) : Prop where
  completes : ∀ greeted log, w.link id ≠ ⟨.unwound, greeted, log⟩
  framing : ∀ g, (w.link id).phase = .framing g → (w.shared.queues id).sent = []
  replayed : (w.link id).phase = .queued ∨ (w.link id).phase = .joined →
    ∃ rest, (w.shared.queues id).sent = (w.link id).greeted ++ rest ∧
      rest.filter (·.verdict?.isNone) = []
  delivered : (w.link id).phase.Reading →
    ∃ rest, (w.shared.queues id).sent = (w.link id).greeted ++ rest ∧
      rest.filter (·.verdict?.isNone) <+: (w.link id).log ∧
      (rest.filter (·.verdict?.isNone) ≠ (w.link id).log →
        id ∈ w.shared.cutOff ∧ w.shared.client? id = none)

lemma Sound.deliveredInOrder (h : w.Sound) (id : ℕ) : w.DeliveredInOrder id := by
  have hl := h.link id
  rcases hw : w.link id with ⟨phase, greeted, log⟩
  rw [hw] at hl
  obtain ⟨-, hl⟩ := hl
  refine ⟨fun g l he => ?_, fun g hp => ?_, fun hp => ?_, fun hp => ?_⟩
  · obtain rfl : phase = .unwound := by
      rw [hw] at he
      exact congrArg Link.phase he
    exact hl
  · rw [hw] at hp
    obtain rfl : phase = .framing g := hp
    have hq : w.shared.queues id = Shared.freshQueue := hl.2.2.1
    rw [hq]
    rfl
  · rw [hw] at hp ⊢
    rcases hp with rfl | rfl
    · exact hl.1.sent
    · exact hl.1.sent
  · rw [hw] at hp ⊢
    cases phase <;> try cases hp
    · rcases hl with ⟨⟨-, rest, hs, hr⟩, -⟩ | ⟨hc, hcut, p, hp, -, rest, hs, rfl⟩
      · exact ⟨rest, hs, hr ▸ List.prefix_rfl, fun hne => absurd hr hne⟩
      · exact ⟨rest, hs, hp, fun _ => ⟨hcut, hc⟩⟩
    · obtain ⟨hc, p, hp, ⟨-, rest, hs, rfl⟩, hcut⟩ := hl
      exact ⟨rest, hs, hp, fun hne => ⟨hcut hne, hc⟩⟩

theorem delivered_in_order {steps : List Step} (hr : run step {} steps = some w)
    (hf : Along step ReplayFits {} steps) (id : ℕ) : w.DeliveredInOrder id :=
  (run_guarded (fun _ _ _ h hf hs => h.step hf hs) sound_empty hf hr).deliveredInOrder id

theorem delivered_in_order_attached : ∃ w,
    run step {} [.connect 0 false, .work [] 0 none ∅ [.control (.pending 1)], .frame 0, .join 0,
      .verdict 0 true 1, .release 0 0, .send 0 (.control (.error "terminal limit reached")),
      .recv 0] = some w ∧ w.DeliveredInOrder 0 := by
  have hr : run step {} [.connect 0 false, .work [] 0 none ∅ [.control (.pending 1)], .frame 0,
      .join 0, .verdict 0 true 1, .release 0 0,
      .send 0 (.control (.error "terminal limit reached")), .recv 0] = some _ := rfl
  refine ⟨_, hr, delivered_in_order hr ?_ 0⟩
  refine along_cons rfl (.inr (by decide)) (along_cons rfl trivial (along_cons rfl trivial ?_))
  refine along_cons rfl trivial (along_cons rfl trivial (along_cons rfl trivial ?_))
  exact along_cons rfl trivial (along_cons rfl trivial trivial)

lemma truncated_run (panes : List PaneState)
    (h : clientQueueDepth < ({ panes } : Shared).replayFrames) :
    ∃ w, run step {} [.work panes 0 none ∅ [], .connect 0 false, .frame 0, .join 0,
      .release 0 0] = some w ∧ (w.link 0).phase = .live ∧
      (w.shared.queues 0).sent.length < (w.link 0).greeted.length := by
  let s : Shared := { panes }
  let g := s.greeting 0 false
  have hreports : g.reports = [] := List.length_eq_zero_iff.mp (s.greeting_reports_length 0)
  have hlength : g.replay.length = s.replayFrames := s.greeting_replay_length 0
  let tx : Chan TerminalFrame := { Shared.freshQueue with
    sent := g.replay.take clientQueueDepth ++ [TerminalFrame.control .replayComplete] }
  have hq : g.queue Shared.freshQueue = (true, tx) := by
    rw [Greeting.queue_eq, hreports]
    simp [List.take_take, tx]
  let attached : World :=
    { shared := s.registerClient 0
      link := Function.update (fun _ => {}) 0 { phase := .framing g, greeted := g.frames } }
  let framed : World := (attached.setQueue 0 tx).relink 0 { phase := .queued, greeted := g.frames }
  have hframe : attached.step (.frame 0) = some framed := by
    have hid : g.client = 0 := s.greeting_client 0 false
    have hr : attached.shared.frameReplay g = (true, (attached.setQueue 0 tx).shared) := by
      rw [Shared.frameReplay, hid, show attached.shared.queues 0 = Shared.freshQueue from rfl, hq]
      rfl
    simp only [step, show attached.link 0 = { phase := .framing g, greeted := g.frames } from rfl]
    rw [hr]
    rfl
  refine ⟨_, run_cons.mpr ⟨_, rfl, run_cons.mpr ⟨attached, rfl, run_cons.mpr ⟨framed, hframe,
    run_cons.mpr ⟨_, rfl, run_cons.mpr ⟨_, rfl, rfl⟩⟩⟩⟩⟩, rfl, ?_⟩
  show (g.replay.take clientQueueDepth ++ [TerminalFrame.control .replayComplete]).length <
    g.frames.length
  simp only [Greeting.frames, hreports, List.length_append, List.length_take, List.length_nil,
    hlength]
  have hs : clientQueueDepth < s.replayFrames := h
  omega

theorem replay_truncated : ∃ w,
    run step {} [.work (Shared.wideHub (15 * replayChunkBytes) (14 * replayChunkBytes)).panes 0
      none ∅ [], .connect 0 false, .frame 0, .join 0, .release 0 0] = some w ∧
      (w.link 0).phase = .live ∧ ¬ w.DeliveredInOrder 0 := by
  have hn : 15 * replayChunkBytes ≠ 0 := by simp [replayChunkBytes]
  have hf : clientQueueDepth <
      (Shared.wideHub (15 * replayChunkBytes) (14 * replayChunkBytes)).replayFrames := by
    rw [Shared.wideHub_replayFrames _ _ hn]
    simp [clientQueueDepth, pieces, replayChunkBytes]
  obtain ⟨w, hr, hp, hlt⟩ := truncated_run _ hf
  refine ⟨w, hr, hp, fun hd => ?_⟩
  obtain ⟨rest, hs, -⟩ := hd.delivered (by rw [hp]; rfl)
  rw [hs, List.length_append] at hlt
  omega

end World

end Nightcrow.Session.Terminal
