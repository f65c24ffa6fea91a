import Mathlib

/-! Lists kept in order of use: an element goes to the back when it is used and leaves when
it is forgotten, so the list is sorted by the moment of last use. -/

namespace Nightcrow.Library

variable {α : Type*} [DecidableEq α]

def forget (l : List α) (a : α) : List α :=
  l.filter (· ≠ a)

def touch (l : List α) (a : α) : List α :=
  forget l a ++ [a]

structure RankedBy (rank : α → ℕ) (l : List α) : Prop where
  mem_iff : ∀ a, a ∈ l ↔ 0 < rank a
  sorted : l.Pairwise (fun a b => rank a < rank b)

@[simp] lemma mem_forget {l : List α} {a b : α} : b ∈ forget l a ↔ b ∈ l ∧ b ≠ a := by
  simp [forget]

@[simp] lemma mem_touch {l : List α} {a b : α} : b ∈ touch l a ↔ b ∈ l ∨ b = a := by
  by_cases h : b = a <;> simp [touch, h]

lemma forget_of_notMem {l : List α} {a : α} (h : a ∉ l) : forget l a = l := by
  refine List.filter_eq_self.mpr fun b hb => ?_
  simpa using ne_of_mem_of_not_mem hb h

lemma nodup_forget {l : List α} (h : l.Nodup) (a : α) : (forget l a).Nodup := h.filter _

lemma nodup_touch {l : List α} (h : l.Nodup) (a : α) : (touch l a).Nodup := by
  simp [touch, List.nodup_append, nodup_forget h a]

namespace RankedBy

variable {rank : α → ℕ} {l : List α}

omit [DecidableEq α] in
lemma nodup (h : RankedBy rank l) : l.Nodup :=
  h.sorted.imp (fun hab he => by simp [he] at hab)

omit [DecidableEq α] in
lemma nil : RankedBy (fun _ : α => 0) [] := ⟨by simp, .nil⟩

lemma forget (h : RankedBy rank l) (a : α) :
    RankedBy (Function.update rank a 0) (forget l a) := by
  refine ⟨fun b => ?_, ?_⟩
  · by_cases hb : b = a
    · simp [hb]
    · simp [hb, h.mem_iff]
  · refine (h.sorted.filter _).imp_of_mem fun {b c} hb hc hbc => ?_
    have hb' : b ≠ a := by simpa using (List.mem_filter.mp hb).2
    have hc' : c ≠ a := by simpa using (List.mem_filter.mp hc).2
    simpa [hb', hc'] using hbc

lemma touch (h : RankedBy rank l) (a : α) {n : ℕ} (hn : ∀ b, rank b < n) :
    RankedBy (Function.update rank a n) (touch l a) := by
  have hf := h.forget a
  refine ⟨fun b => ?_, List.pairwise_append.mpr ⟨?_, List.pairwise_singleton _ _, ?_⟩⟩
  · by_cases hb : b = a
    · simp [hb, (Nat.zero_le _).trans_lt (hn a)]
    · simp [hb, h.mem_iff]
  · refine hf.sorted.imp_of_mem fun {b c} hb hc hbc => ?_
    simpa [(mem_forget.mp hb).2, (mem_forget.mp hc).2] using hbc
  · intro b hb c hc
    obtain rfl := List.mem_singleton.mp hc
    simpa [(mem_forget.mp hb).2] using hn b

lemma rank_le_getLast (h : RankedBy rank l) {a b : α} (ha : l.getLast? = some a) :
    rank b ≤ rank a := by
  by_cases hb : b ∈ l
  · obtain ⟨pre, rfl⟩ := List.getLast?_eq_some_iff.mp ha
    rcases List.mem_append.mp hb with hb | hb
    · exact ((List.pairwise_append.mp h.sorted).2.2 b hb a (by simp)).le
    · exact (List.mem_singleton.mp hb ▸ le_rfl)
  · have := (h.mem_iff b).not.mp hb
    omega

end RankedBy

end Nightcrow.Library
