import Mathlib

/-! Lanes of one slot each, emptied in turn: the next lane that holds something, from where the
last one was emptied. -/

namespace Nightcrow.Library.RoundRobin

variable {n : ℕ} [NeZero n] {α : Type*}

structure Lanes (n : ℕ) (α : Type*) where
  slots : Fin n → Option α
  next : Fin n

def turn (next : Fin n) : List (Fin n) := (List.finRange n).map (fun k => next + k)

namespace Lanes

def put (l : Lanes n α) (i : Fin n) (a : Option α) : Lanes n α :=
  { l with slots := Function.update l.slots i a }

def takeNext (l : Lanes n α) : Option (α × Lanes n α) :=
  match (turn l.next).find? (fun i => (l.slots i).isSome) with
  | none => none
  | some i => (l.slots i).map (fun a =>
      (a, { slots := Function.update l.slots i none, next := i + 1 }))

def distance (l : Lanes n α) (i : Fin n) : ℕ := (i - l.next).val

variable {l l' : Lanes n α} {a : α} {i j : Fin n}

lemma mem_turn (next i : Fin n) : i ∈ turn next :=
  List.mem_map.mpr ⟨i - next, List.mem_finRange _, by simp⟩

lemma takeNext_eq_none (h : l.takeNext = none) (i : Fin n) : l.slots i = none := by
  rw [takeNext] at h
  split at h
  · rename_i hnone
    have hi := List.find?_eq_none.mp hnone i (mem_turn l.next i)
    rwa [Option.not_isSome_iff_eq_none] at hi
  · rename_i k hk
    have hsome := List.find?_some hk
    rw [Option.map_eq_none_iff] at h
    rw [h] at hsome
    cases hsome

omit [NeZero n] in
lemma distance_lt (l : Lanes n α) (i : Fin n) : l.distance i < n := (i - l.next).isLt

lemma takeNext_spec (h : l.takeNext = some (a, l')) : ∃ i, l.slots i = some a ∧
    l' = { slots := Function.update l.slots i none, next := i + 1 } ∧
    ∀ j, (l.slots j).isSome → l.distance i ≤ l.distance j := by
  rw [takeNext] at h
  split at h
  · cases h
  · rename_i i hi
    obtain ⟨b, hb, heq⟩ := Option.map_eq_some_iff.mp h
    obtain ⟨rfl, rfl⟩ := Prod.mk.inj heq
    refine ⟨i, hb, rfl, fun j hj => ?_⟩
    rw [turn, List.find?_map] at hi
    obtain ⟨k, hk, rfl⟩ := Option.map_eq_some_iff.mp hi
    obtain ⟨-, m, hm, hget, hbefore⟩ := List.find?_eq_some_iff_getElem.mp hk
    rw [List.getElem_finRange] at hget
    by_contra hlt
    have hdist : (l.next + k - l.next).val = m := by
      rw [add_sub_cancel_left, ← hget]
      rfl
    have hearly : (j - l.next).val < m := hdist ▸ not_le.mp hlt
    have hempty := hbefore (j - l.next).val hearly
    have hin : (j - l.next).val < (List.finRange n).length := hearly.trans hm
    have hback : l.next + (List.finRange n)[(j - l.next).val] = j := by
      simp
    rw [Function.comp_apply, hback, hj] at hempty
    cases hempty

lemma distance_taken (h : l.takeNext = some (a, l')) (hj : (l'.slots j).isSome) :
    l'.distance j < l.distance j := by
  obtain ⟨i, -, rfl, hfirst⟩ := takeNext_spec h
  have hne : j ≠ i := by
    rintro rfl
    simp at hj
  have hsome : (l.slots j).isSome := by simpa [Function.update_of_ne hne] using hj
  have hle := hfirst j hsome
  have hneq : i - l.next ≠ j - l.next := fun heq => hne (sub_left_inj.mp heq).symm
  have hlt : i - l.next < j - l.next := lt_of_le_of_ne hle hneq
  have hsplit : j - (i + 1) = (j - l.next) - (i - l.next) - 1 := by abel
  have hsub : ((j - l.next) - (i - l.next)).val = (j - l.next).val - (i - l.next).val :=
    Fin.sub_val_of_le hlt.le
  have hpos : (i - l.next).val < (j - l.next).val := hlt
  have hstep : (j - l.next) - (i - l.next) ≠ 0 := fun heq => hneq (sub_eq_zero.mp heq).symm
  rw [distance, distance, hsplit, Fin.val_sub_one_of_ne_zero hstep, hsub]
  omega

end Lanes

end Nightcrow.Library.RoundRobin
