import Mathlib

namespace Nightcrow.Library

structure Buffered (σ κ : Type*) where
  state : σ
  pending : List κ

namespace Buffered

variable {σ κ : Type*} (run : κ → σ → σ) (b : Buffered σ κ) (k : κ) (n : ℕ)

/-- The state once all that is pending has reached it. -/
def settled : σ := b.pending.foldl (fun s k => run k s) b.state

def push : Buffered σ κ := { b with pending := b.pending ++ [k] }

def spill : Buffered σ κ where
  state := (b.pending.take n).foldl (fun s k => run k s) b.state
  pending := b.pending.drop n

def flush : Buffered σ κ := ⟨b.settled run, []⟩

lemma settled_push : (b.push k).settled run = run k (b.settled run) := by
  rw [settled, push, List.foldl_append]
  rfl

lemma settled_spill : (b.spill run n).settled run = b.settled run := by
  rw [settled, spill, ← List.foldl_append, List.take_append_drop]
  rfl

variable {run b}

lemma settled_of_empty (h : b.pending = []) : b.settled run = b.state := by
  rw [settled, h]
  rfl

end Buffered

end Nightcrow.Library
