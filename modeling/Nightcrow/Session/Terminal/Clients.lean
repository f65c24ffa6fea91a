import Nightcrow.Session.Terminal.State

/-! What queueing a frame does to each registered client: nothing it does to one client
depends on any other. -/

namespace Nightcrow.Session.Terminal

open Nightcrow.Library

abbrev Seat := Option Client × Chan TerminalFrame

namespace Seat

def queue (frame : TerminalFrame) : Seat → Seat
  | (some c, tx) => (c.retained tx frame, (queueLocked c tx frame).2.2)
  | (none, tx) => (none, tx)

def Overflows (frame : TerminalFrame) (x : Seat) : Prop :=
  ∃ c, x.1 = some c ∧ (queueLocked c x.2 frame).1 = .cutOff

end Seat

lemma Client.retained_id {c d : Client} {tx : Chan TerminalFrame} {f : TerminalFrame}
    (h : c.retained tx f = some d) : d.id = c.id := by
  simp only [Client.retained, queueLocked] at h
  cases hr : c.replayHeld with
  | some held =>
    simp only [hr] at h
    split at h
    · rename_i heq
      split at heq
      · cases heq
        cases h
        rfl
      · cases heq
    · cases h
  | none =>
    simp only [hr] at h
    split at h
    · rename_i heq
      split at heq
      · cases heq
        cases h
        rfl
      · cases heq
      · cases heq
    · cases h

namespace Shared

variable {s : Shared}

def clientIds (s : Shared) : List ℕ := s.clients.map (·.id)

def seat (s : Shared) (id : ℕ) : Seat := (s.client? id, s.queues id)

lemma client?_id {id : ℕ} {c : Client} (h : s.client? id = some c) : c.id = id := by
  simpa using List.find?_some h

lemma client?_mem {id : ℕ} {c : Client} (h : s.client? id = some c) : c ∈ s.clients :=
  List.mem_of_find?_eq_some h

lemma client?_of_mem (hn : s.clientIds.Nodup) {c : Client} (h : c ∈ s.clients) :
    s.client? c.id = some c := by
  obtain ⟨d, hd⟩ : ∃ d, s.client? c.id = some d := by
    rw [← Option.isSome_iff_exists, client?, List.find?_isSome]
    exact ⟨c, h, by simp⟩
  have := List.inj_on_of_nodup_map hn (client?_mem hd) h (client?_id hd)
  rw [hd, this]

lemma notMem_clientIds {id : ℕ} (h : s.client? id = none) : id ∉ s.clientIds := by
  intro hm
  obtain ⟨c, hc, he⟩ := List.mem_map.mp hm
  have := List.find?_eq_none.mp h c hc
  simp [he] at this

lemma find?_filterMap {l : List Client} (hn : (l.map (·.id)).Nodup) {f : Client → Option Client}
    (hf : ∀ c d, f c = some d → d.id = c.id) (id : ℕ) :
    (l.filterMap f).find? (·.id = id) = (l.find? (·.id = id)).bind f := by
  induction l with
  | nil => rfl
  | cons c l ih =>
    obtain ⟨hc, hn⟩ := List.nodup_cons.mp hn
    have ih := ih hn
    by_cases hid : c.id = id
    · have hrest : l.find? (·.id = id) = none := by
        rw [List.find?_eq_none]
        intro d hd he
        have hdi : d.id = id := by simpa using he
        exact hc (List.mem_map.mpr ⟨d, hd, hdi.trans hid.symm⟩)
      cases hfc : f c with
      | none => simp [hfc, hid, ih, hrest]
      | some d => simp [hfc, hid, hf c d hfc]
    · cases hfc : f c with
      | none => simp [hfc, hid, ih]
      | some d =>
        have hd : d.id ≠ id := by rwa [hf c d hfc]
        simp [hfc, hid, hd, ih]

lemma ids_filterMap {l : List Client} {f : Client → Option Client}
    (hf : ∀ c d, f c = some d → d.id = c.id) :
    ((l.filterMap f).map (·.id)).Sublist (l.map (·.id)) := by
  induction l with
  | nil => simp
  | cons c l ih =>
    cases hfc : f c with
    | none => simpa [List.filterMap_cons, hfc] using ih.trans (List.sublist_cons_self ..)
    | some d => simpa [List.filterMap_cons, hfc, hf c d hfc] using ih

section broadcastLocked

variable (f : TerminalFrame)

@[simp] lemma broadcastLocked_panes : (s.broadcastLocked f).panes = s.panes := rfl

@[simp] lemma broadcastLocked_reserved : (s.broadcastLocked f).reserved = s.reserved := rfl

@[simp] lemma broadcastLocked_zoomed : (s.broadcastLocked f).zoomed = s.zoomed := rfl

@[simp] lemma broadcastLocked_recovery : (s.broadcastLocked f).recovery = s.recovery := rfl

lemma clientIds_broadcastLocked :
    (s.broadcastLocked f).clientIds.Sublist s.clientIds :=
  ids_filterMap fun _ _ h => Client.retained_id h

lemma seat_broadcastLocked (hn : s.clientIds.Nodup) (id : ℕ) :
    (s.broadcastLocked f).seat id = (s.seat id).queue f := by
  have hc : (s.broadcastLocked f).client? id =
      (s.client? id).bind (fun c => c.retained (s.queues c.id) f) :=
    find?_filterMap hn (fun _ _ h => Client.retained_id h) id
  have hq : (s.broadcastLocked f).queues id = s.queued id f := rfl
  cases h : s.client? id with
  | none =>
    rw [h] at hc
    simp [seat, hc, hq, h, Seat.queue, queued]
  | some c =>
    rw [h] at hc
    simp [seat, hc, hq, h, Seat.queue, queued, client?_id h]

lemma cutOff_broadcastLocked (hn : s.clientIds.Nodup) {id : ℕ} :
    id ∈ (s.broadcastLocked f).cutOff ↔ id ∈ s.cutOff ∨ (s.seat id).Overflows f := by
  simp only [broadcastLocked, List.mem_append, List.mem_map, List.mem_filter, Seat.Overflows, seat]
  refine or_congr Iff.rfl ⟨?_, ?_⟩
  · rintro ⟨c, ⟨hc, ho⟩, rfl⟩
    exact ⟨c, client?_of_mem hn hc, by simpa using ho⟩
  · rintro ⟨c, hc, ho⟩
    exact ⟨c, ⟨client?_mem hc, by simpa [client?_id hc] using ho⟩, client?_id hc⟩

end broadcastLocked

section queueTo

variable (f : TerminalFrame)

@[simp] lemma queueTo_panes (id : ℕ) : (s.queueTo id f).panes = s.panes := by
  unfold queueTo; split <;> rfl

@[simp] lemma queueTo_reserved (id : ℕ) : (s.queueTo id f).reserved = s.reserved := by
  unfold queueTo; split <;> rfl

@[simp] lemma queueTo_zoomed (id : ℕ) : (s.queueTo id f).zoomed = s.zoomed := by
  unfold queueTo; split <;> rfl

@[simp] lemma queueTo_recovery (id : ℕ) : (s.queueTo id f).recovery = s.recovery := by
  unfold queueTo; split <;> rfl

lemma queueTo_retained {id : ℕ} {c d : Client} {tx : Chan TerminalFrame}
    (h : (if c.id = id then c.retained tx f else some c) = some d) : d.id = c.id := by
  split at h
  · exact Client.retained_id h
  · cases h
    rfl

lemma clientIds_queueTo (id : ℕ) : (s.queueTo id f).clientIds.Sublist s.clientIds := by
  unfold queueTo
  split
  · exact List.Sublist.refl _
  · exact ids_filterMap fun _ _ h => queueTo_retained f h

lemma seat_queueTo (hn : s.clientIds.Nodup) (id : ℕ) :
    (s.queueTo id f).seat id = (s.seat id).queue f := by
  cases h : s.client? id with
  | none => simp [queueTo, h, seat, Seat.queue]
  | some c =>
    have hc := find?_filterMap hn (f := fun c => if c.id = id then c.retained (s.queues id) f
      else some c) (fun _ _ h => queueTo_retained f h) id
    rw [show s.clients.find? (·.id = id) = some c from h] at hc
    simp only [Option.bind_some, client?_id h, if_true] at hc
    simp only [queueTo, h, seat, Seat.queue, Function.update_self, queued]
    exact Prod.ext hc rfl

lemma seat_queueTo_of_ne (hn : s.clientIds.Nodup) {id i : ℕ} (hi : i ≠ id) :
    (s.queueTo id f).seat i = s.seat i := by
  cases h : s.client? id with
  | none => simp [queueTo, h]
  | some c =>
    have hc := find?_filterMap hn (f := fun c => if c.id = id then c.retained (s.queues id) f
      else some c) (fun _ _ h => queueTo_retained f h) i
    simp only [queueTo, h, seat, Function.update_of_ne hi]
    refine Prod.ext (hc.trans ?_) rfl
    show (s.client? i).bind _ = s.client? i
    cases hd : s.client? i with
    | none => rfl
    | some d => simp [client?_id hd, hi]

lemma cutOff_queueTo {id i : ℕ} :
    i ∈ (s.queueTo id f).cutOff ↔ i ∈ s.cutOff ∨ (i = id ∧ (s.seat id).Overflows f) := by
  cases h : s.client? id with
  | none => simp [queueTo, h, seat, Seat.Overflows]
  | some c =>
    simp only [queueTo, h, seat, Seat.Overflows, Option.some.injEq, exists_eq_left']
    split <;> simp_all

end queueTo

lemma clientIds_removeClient (s : Shared) (id : ℕ) :
    (s.removeClient id).clientIds.Sublist s.clientIds :=
  List.Sublist.map _ List.filter_sublist

lemma client?_removeClient (s : Shared) (id i : ℕ) :
    (s.removeClient id).client? i = if i = id then none else s.client? i := by
  simp only [removeClient, client?, List.find?_filter]
  by_cases hi : i = id
  · subst hi
    simp
  · rw [if_neg hi]
    congr 1
    funext c
    by_cases hc : c.id = i
    · simp [hc, hi]
    · simp [hc]

structure SameHub (s t : Shared) : Prop where
  panes : t.panes = s.panes
  reserved : t.reserved = s.reserved
  zoomed : t.zoomed = s.zoomed
  recovery : t.recovery = s.recovery

namespace SameHub

variable {s t u : Shared}

lemma refl (s : Shared) : s.SameHub s := ⟨rfl, rfl, rfl, rfl⟩

lemma trans (h : s.SameHub t) (h' : t.SameHub u) : s.SameHub u :=
  ⟨h'.panes.trans h.panes, h'.reserved.trans h.reserved, h'.zoomed.trans h.zoomed,
    h'.recovery.trans h.recovery⟩

lemma broadcastLocked (s : Shared) (frame : TerminalFrame) : s.SameHub (s.broadcastLocked frame) :=
  ⟨rfl, rfl, rfl, rfl⟩

lemma queueTo (s : Shared) (id : ℕ) (frame : TerminalFrame) : s.SameHub (s.queueTo id frame) := by
  unfold Shared.queueTo
  split <;> exact ⟨rfl, rfl, rfl, rfl⟩

lemma queueTos (s : Shared) (id : ℕ) (frames : List TerminalFrame) :
    s.SameHub (frames.foldl (fun s frame => s.queueTo id frame) s) := by
  induction frames generalizing s with
  | nil => exact refl s
  | cons frame frames ih => exact (queueTo s id frame).trans (ih _)

lemma broadcasts (s : Shared) (frames : List TerminalFrame) :
    s.SameHub (frames.foldl Shared.broadcastLocked s) := by
  induction frames generalizing s with
  | nil => exact refl s
  | cons frame frames ih => exact (broadcastLocked s frame).trans (ih _)

end SameHub

end Shared

end Nightcrow.Session.Terminal
