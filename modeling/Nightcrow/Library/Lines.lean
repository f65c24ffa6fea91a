import Mathlib

namespace Nightcrow.Library.Lines

variable {α : Type*} {sep b : α} {l p q : List α} {ls : List (List α)} {i k n : ℕ}

def IsLine (sep : α) (l : List α) : Prop := ∃ body, sep ∉ body ∧ l = body ++ [sep]

def offsets (i : ℕ) : List (List α) → List ℕ
  | [] => []
  | l :: ls => i :: offsets (i + l.length) ls

lemma IsLine.cons (h : IsLine sep l) (hb : b ≠ sep) : IsLine sep (b :: l) := by
  obtain ⟨body, hbody, rfl⟩ := h
  refine ⟨b :: body, ?_, rfl⟩
  rintro (_ | ⟨_, hmem⟩)
  · exact hb rfl
  · exact hbody hmem

lemma take_flatten_length (ls : List (List α)) (k : ℕ) :
    ls.flatten.take (ls.take k).flatten.length = (ls.take k).flatten := by
  have hsplit : ls.flatten = (ls.take k).flatten ++ (ls.drop k).flatten := by
    rw [← List.flatten_append, List.take_append_drop]
  rw [hsplit, List.take_left]

@[simp] lemma length_offsets (i : ℕ) (ls : List (List α)) : (offsets i ls).length = ls.length := by
  induction ls generalizing i with
  | nil => rfl
  | cons l ls ih => rw [offsets, List.length_cons, ih, List.length_cons]

lemma getElem?_offsets (h : (offsets i ls)[k]? = some n) :
    k < ls.length ∧ n = i + (ls.take k).flatten.length := by
  induction ls generalizing i k with
  | nil => cases h
  | cons l ls ih =>
    cases k with
    | zero => exact ⟨Nat.zero_lt_succ _, (Option.some.inj h).symm⟩
    | succ k =>
      obtain ⟨hk, rfl⟩ := ih h
      refine ⟨Nat.succ_lt_succ hk, ?_⟩
      rw [List.take_succ_cons, List.flatten_cons, List.length_append, Nat.add_assoc]

lemma offsets_getElem? (h : k < ls.length) :
    (offsets i ls)[k]? = some (i + (ls.take k).flatten.length) := by
  have hlen : k < (offsets i ls).length := (length_offsets i ls).symm ▸ h
  have hget := List.getElem?_eq_getElem hlen
  rw [hget, (getElem?_offsets hget).2]

lemma offsets_next (ls : List (List α)) (k : ℕ) :
    (offsets 0 ls)[k + 1]?.getD ls.flatten.length = (ls.take (k + 1)).flatten.length := by
  by_cases hnext : k + 1 < ls.length
  · rw [offsets_getElem? hnext, Nat.zero_add]
    rfl
  · have hlen : (offsets 0 ls).length ≤ k + 1 := by
      rw [length_offsets]
      exact not_lt.mp hnext
    rw [List.getElem?_eq_none hlen, List.take_of_length_le (not_lt.mp hnext)]
    rfl

lemma slice_flatten (h : ls[k]? = some l) :
    (ls.flatten.take (ls.take (k + 1)).flatten.length).drop (ls.take k).flatten.length = l := by
  rw [take_flatten_length, List.take_add_one, h, List.flatten_append, List.drop_left]
  exact List.append_nil l

variable [DecidableEq α]

def split (sep : α) : List α → List (List α)
  | [] => []
  | b :: bs =>
    if b = sep then [b] :: split sep bs
    else
      match split sep bs with
      | [] => [[b]]
      | l :: ls => (b :: l) :: ls

lemma split_sep (bs : List α) : split sep (sep :: bs) = [sep] :: split sep bs := by
  rw [split, if_pos rfl]

lemma split_ne (h : b ≠ sep) (bs : List α) :
    split sep (b :: bs) = (b :: (split sep bs).headD []) :: (split sep bs).tail := by
  rw [split, if_neg h]
  cases split sep bs <;> rfl

lemma split_eq_nil : split sep l = [] ↔ l = [] := by
  cases l with
  | nil => simp [split]
  | cons b bs =>
    by_cases h : b = sep
    · subst h
      simp [split_sep]
    · simp [split_ne h]

lemma ne_nil_of_mem_split (h : l ∈ split sep p) : l ≠ [] := by
  induction p generalizing l with
  | nil => cases h
  | cons b bs ih =>
    by_cases hb : b = sep
    · subst hb
      rw [split_sep] at h
      rcases List.mem_cons.mp h with rfl | h
      · exact List.cons_ne_nil _ _
      · exact ih h
    · rw [split_ne hb] at h
      rcases List.mem_cons.mp h with rfl | h
      · exact List.cons_ne_nil _ _
      · exact ih (List.mem_of_mem_tail h)

lemma flatten_split (sep : α) (l : List α) : (split sep l).flatten = l := by
  induction l with
  | nil => rfl
  | cons b bs ih =>
    by_cases h : b = sep
    · subst h
      rw [split_sep, List.flatten_cons, ih]
      rfl
    · rw [split_ne h]
      cases hs : split sep bs with
      | nil =>
        rw [split_eq_nil.mp hs]
        rfl
      | cons l ls =>
        rw [hs] at ih
        rw [← ih]
        rfl

lemma split_line_append (h : IsLine sep l) (q : List α) : split sep (l ++ q) = l :: split sep q := by
  obtain ⟨body, hbody, rfl⟩ := h
  induction body with
  | nil => exact split_sep q
  | cons b body ih =>
    have hb : b ≠ sep := fun h => hbody (h ▸ List.mem_cons_self)
    have hrest := ih (fun h => hbody (List.mem_cons_of_mem _ h))
    rw [List.cons_append, List.cons_append, split_ne hb, hrest]
    rfl

lemma split_flatten_append (h : ∀ l ∈ ls, IsLine sep l) (q : List α) :
    split sep (ls.flatten ++ q) = ls ++ split sep q := by
  induction ls with
  | nil => rfl
  | cons l ls ih =>
    obtain ⟨hl, hls⟩ := List.forall_mem_cons.mp h
    rw [List.flatten_cons, List.append_assoc, split_line_append hl, ih hls, List.cons_append]

lemma mem_split_body (h : l ∈ split sep p) :
    ∃ body, sep ∉ body ∧ (l = body ++ [sep] ∨ l = body) := by
  induction p generalizing l with
  | nil => cases h
  | cons b bs ih =>
    by_cases hb : b = sep
    · subst hb
      rw [split_sep] at h
      rcases List.mem_cons.mp h with rfl | h
      · exact ⟨[], List.not_mem_nil, .inl rfl⟩
      · exact ih h
    · rw [split_ne hb] at h
      rcases List.mem_cons.mp h with rfl | h
      · cases hs : split sep bs with
        | nil => exact ⟨[b], by simpa using Ne.symm hb, .inr rfl⟩
        | cons first rest =>
          obtain ⟨body, hbody, heq⟩ := ih (hs ▸ List.mem_cons_self)
          refine ⟨b :: body, ?_, heq.imp (congrArg (b :: ·)) (congrArg (b :: ·))⟩
          exact List.not_mem_cons_of_ne_of_not_mem (Ne.symm hb) hbody
      · exact ih (List.mem_of_mem_tail h)

lemma isLine_of_mem_take (hk : k < (split sep p).length) (hl : l ∈ (split sep p).take k) :
    IsLine sep l := by
  induction p generalizing k l with
  | nil => cases hk
  | cons b bs ih =>
    cases k with
    | zero => cases hl
    | succ k =>
      by_cases hb : b = sep
      · subst hb
        rw [split_sep] at hk hl
        rcases List.mem_cons.mp hl with rfl | hl
        · exact ⟨[], List.not_mem_nil, rfl⟩
        · exact ih (Nat.lt_of_succ_lt_succ hk) hl
      · rw [split_ne hb] at hk hl
        cases hs : split sep bs with
        | nil =>
          rw [hs] at hk
          exact absurd hk (by simp)
        | cons first rest =>
          rw [hs] at hk hl
          have hlen : k + 1 < (split sep bs).length := by
            rw [hs]
            exact hk
          rcases List.mem_cons.mp hl with rfl | hl
          · exact (ih hlen (by rw [hs]; exact List.mem_cons_self)).cons hb
          · exact ih hlen (by rw [hs]; exact List.mem_cons_of_mem _ hl)

lemma isLine_of_mem (hend : p.getLast? = some sep) (hl : l ∈ split sep p) : IsLine sep l := by
  induction p generalizing l with
  | nil => cases hl
  | cons b bs ih =>
    by_cases hb : b = sep
    · subst hb
      rw [split_sep] at hl
      rcases List.mem_cons.mp hl with rfl | hl
      · exact ⟨[], List.not_mem_nil, rfl⟩
      · cases bs with
        | nil => cases hl
        | cons c cs => exact ih (by rw [← hend, List.getLast?_cons_cons]) hl
    · cases bs with
      | nil => exact absurd (Option.some.inj hend) hb
      | cons c cs =>
        have hend : (c :: cs).getLast? = some sep := by rw [← hend, List.getLast?_cons_cons]
        rw [split_ne hb] at hl
        cases hs : split sep (c :: cs) with
        | nil => exact absurd (split_eq_nil.mp hs) (List.cons_ne_nil _ _)
        | cons first rest =>
          rw [hs] at hl
          rcases List.mem_cons.mp hl with rfl | hl
          · exact (ih hend (by rw [hs]; exact List.mem_cons_self)).cons hb
          · exact ih hend (by rw [hs]; exact List.mem_cons_of_mem _ hl)

lemma split_take_append (hk : k < (split sep p).length ∨ p.getLast? = some sep) (q : List α) :
    split sep (((split sep p).take k).flatten ++ q) = (split sep p).take k ++ split sep q := by
  apply split_flatten_append
  intro l hl
  rcases hk with hk | hend
  · exact isLine_of_mem_take hk hl
  · exact isLine_of_mem hend (List.mem_of_mem_take hl)

end Nightcrow.Library.Lines
