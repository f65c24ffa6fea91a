import Mathlib.Data.List.Nodup
import Mathlib.Data.List.Infix

namespace Nightcrow.Library

variable {α β : Type*} [DecidableEq α]

def firsts (key : β → α) (seen : List α) : List β → List β
  | [] => []
  | b :: l => if key b ∈ seen then firsts key seen l else b :: firsts key (key b :: seen) l

def setFirst (key : β → α) (b : β) (l : List β) : List β :=
  b :: l.filter fun c => key c ≠ key b

def valueOf (key : β → α) (a : α) (l : List β) : Option β := l.find? fun b => key b = a

variable {key : β → α} {seen : List α} {l : List β} {a : α} {b : β} {n : ℕ}

lemma mem_keys_firsts : a ∈ (firsts key seen l).map key ↔ a ∈ l.map key ∧ a ∉ seen := by
  induction l generalizing seen with
  | nil => simp [firsts]
  | cons b l ih =>
    rw [firsts]
    split_ifs with hb
    · rw [ih, List.map_cons, List.mem_cons]
      constructor
      · exact fun h => ⟨.inr h.1, h.2⟩
      · rintro ⟨rfl | h, hs⟩
        · exact absurd hb hs
        · exact ⟨h, hs⟩
    · rw [List.map_cons, List.mem_cons, ih, List.map_cons, List.mem_cons, List.mem_cons]
      by_cases ha : a = key b
      · subst ha
        simp [hb]
      · simp [ha]

lemma nodup_firsts : ((firsts key seen l).map key).Nodup := by
  induction l generalizing seen with
  | nil => exact List.nodup_nil
  | cons b l ih =>
    rw [firsts]
    split_ifs with hb
    · exact ih
    · rw [List.map_cons, List.nodup_cons, mem_keys_firsts]
      exact ⟨fun h => h.2 List.mem_cons_self, ih⟩

lemma firsts_of_nodup (h : (l.map key).Nodup) (hs : ∀ b ∈ l, key b ∉ seen) :
    firsts key seen l = l := by
  induction l generalizing seen with
  | nil => rfl
  | cons b l ih =>
    rw [List.map_cons, List.nodup_cons] at h
    rw [firsts, if_neg (hs b List.mem_cons_self), ih h.2]
    intro c hc hmem
    rcases List.mem_cons.mp hmem with he | hmem
    · exact h.1 (he ▸ List.mem_map_of_mem hc)
    · exact hs c (List.mem_cons_of_mem b hc) hmem

lemma keys_firsts : (firsts key seen l).map key = ((l.map key).filter (· ∉ seen)).eraseDups := by
  induction l generalizing seen with
  | nil => rfl
  | cons b l ih =>
    rw [firsts, List.map_cons]
    split_ifs with hb
    · rw [ih, List.filter_cons_of_neg (by simpa using hb)]
    · rw [List.map_cons, ih, List.filter_cons_of_pos (by simpa using hb), List.eraseDups_cons,
        List.filter_filter]
      congr 2
      apply List.filter_congr
      intro c _
      by_cases hc : c = key b
      · simp [hc]
      · simp [hc]

lemma valueOf_firsts (h : a ∉ seen) : valueOf key a (firsts key seen l) = valueOf key a l := by
  induction l generalizing seen with
  | nil => rfl
  | cons b l ih =>
    rw [firsts, valueOf, valueOf]
    split_ifs with hb
    · have hne : key b ≠ a := fun he => h (he ▸ hb)
      rw [List.find?_cons_of_neg (by simpa using hne)]
      exact ih h
    · by_cases he : key b = a
      · rw [List.find?_cons_of_pos (by simpa using he), List.find?_cons_of_pos (by simpa using he)]
      · rw [List.find?_cons_of_neg (by simpa using he), List.find?_cons_of_neg (by simpa using he)]
        refine ih fun hmem => ?_
        rcases List.mem_cons.mp hmem with hk | hmem
        · exact he hk.symm
        · exact h hmem

lemma valueOf_take (h : a ∈ (l.take n).map key ∨ a ∉ l.map key) :
    valueOf key a (l.take n) = valueOf key a l := by
  have hsplit : valueOf key a l =
      (valueOf key a (l.take n)).or (valueOf key a (l.drop n)) := by
    rw [valueOf, valueOf, valueOf, ← List.find?_append, List.take_append_drop]
  rcases h with h | h
  · obtain ⟨b, hb, rfl⟩ := List.mem_map.mp h
    have hsome : (valueOf key (key b) (l.take n)).isSome := by
      rw [valueOf, List.find?_isSome]
      exact ⟨b, hb, by simp⟩
    rw [hsplit, Option.or_of_isSome hsome]
  · have hnone : ∀ k, k.Sublist l → valueOf key a k = none := by
      intro k hk
      rw [valueOf, List.find?_eq_none]
      intro b hb he
      exact h (List.mem_map.mpr ⟨b, hk.subset hb, by simpa using he⟩)
    rw [hnone _ (List.take_sublist n l), hnone l (List.Sublist.refl l)]

lemma valueOf_setFirst : valueOf key (key b) (setFirst key b l) = some b := by
  simp [valueOf, setFirst]

lemma valueOf_filter {b' : α} (h : a ≠ b') :
    valueOf key a (l.filter fun c => key c ≠ b') = valueOf key a l := by
  rw [valueOf, valueOf, List.find?_filter]
  congr 1
  funext c
  by_cases hc : key c = a
  · simp [hc, h]
  · simp [hc]

lemma valueOf_setFirst_of_ne (h : a ≠ key b) :
    valueOf key a (setFirst key b l) = valueOf key a l := by
  rw [setFirst, valueOf, List.find?_cons_of_neg (by simpa using h.symm)]
  exact valueOf_filter h

lemma nodup_setFirst (h : (l.map key).Nodup) : ((setFirst key b l).map key).Nodup := by
  rw [setFirst, List.map_cons, List.nodup_cons]
  refine ⟨fun hmem => ?_, h.sublist (List.filter_sublist.map key)⟩
  obtain ⟨c, hc, he⟩ := List.mem_map.mp hmem
  simpa [he] using (List.mem_filter.mp hc).2

lemma mem_keys_setFirst : a ∈ (setFirst key b l).map key ↔ a = key b ∨ a ∈ l.map key := by
  rw [setFirst, List.map_cons, List.mem_cons]
  by_cases ha : a = key b
  · simp [ha]
  · simp only [ha, false_or, List.mem_map, List.mem_filter]
    constructor
    · rintro ⟨c, ⟨hc, -⟩, rfl⟩
      exact ⟨c, hc, rfl⟩
    · rintro ⟨c, hc, rfl⟩
      exact ⟨c, ⟨hc, by simpa using ha⟩, rfl⟩

end Nightcrow.Library
