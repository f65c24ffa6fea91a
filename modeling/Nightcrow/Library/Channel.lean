import Mathlib

/-! Bounded channels with a receiver that may be dropped. The channel keeps everything it
ever accepted, in order; the receiver has taken the first `taken` of it. -/

namespace Nightcrow.Library

inductive SendError
  | full
  | disconnected
deriving DecidableEq, Repr

structure Chan (α : Type*) where
  depth : ℕ
  sent : List α := []
  taken : ℕ := 0
  alive : Bool := true
deriving DecidableEq, Repr

namespace Chan

variable {α : Type*}

def Room (c : Chan α) : Prop := c.sent.length < c.taken + c.depth

instance (c : Chan α) : Decidable c.Room := inferInstanceAs (Decidable (_ < _))

def trySend (c : Chan α) (a : α) : Except SendError (Chan α) :=
  if !c.alive then .error .disconnected
  else if c.Room then .ok { c with sent := c.sent ++ [a] }
  else .error .full

def offer (c : Chan α) (a : α) : Chan α :=
  match c.trySend a with
  | .ok d => d
  | .error _ => c

def recv (c : Chan α) : Option (α × Chan α) :=
  c.sent[c.taken]?.map (fun a => (a, { c with taken := c.taken + 1 }))

lemma trySend_ok {c d : Chan α} {a : α} (h : c.trySend a = .ok d) :
    c.alive = true ∧ c.Room ∧ d = { c with sent := c.sent ++ [a] } := by
  unfold trySend at h
  split at h
  · cases h
  · split at h
    · rename_i ha hr
      exact ⟨by simpa using ha, hr, (Except.ok.inj h).symm⟩
    · cases h

lemma trySend_of_room {c : Chan α} (a : α) (ha : c.alive = true) (hr : c.Room) :
    c.trySend a = .ok { c with sent := c.sent ++ [a] } := by
  simp [trySend, ha, hr]

lemma offer_cases (c : Chan α) (a : α) :
    c.offer a = { c with sent := c.sent ++ [a] } ∨ c.offer a = c := by
  unfold offer
  split
  · exact .inl (trySend_ok ‹_›).2.2
  · exact .inr rfl

lemma offer_of_room {c : Chan α} (a : α) (ha : c.alive = true) (hr : c.Room) :
    c.offer a = { c with sent := c.sent ++ [a] } := by
  simp [offer, trySend_of_room a ha hr]

lemma recv_sent {c d : Chan α} {a : α} (h : c.recv = some (a, d)) : d.sent = c.sent := by
  simp only [recv, Option.map_eq_some_iff, Prod.mk.injEq] at h
  obtain ⟨_, _, _, rfl⟩ := h
  rfl

lemma recv_alive {c d : Chan α} {a : α} (h : c.recv = some (a, d)) : d.alive = c.alive := by
  simp only [recv, Option.map_eq_some_iff, Prod.mk.injEq] at h
  obtain ⟨_, _, _, rfl⟩ := h
  rfl

end Chan

end Nightcrow.Library
