import Mathlib

namespace Nightcrow.Library.Cut

variable {α : Type*} {sep : α} {pattern l p q s t : List α}

lemma cut_unique (h : p ++ sep :: s = q ++ sep :: t) (hp : sep ∉ p) (hq : sep ∉ q) :
    p = q ∧ s = t := by
  induction p generalizing q with
  | nil =>
    cases q with
    | nil => exact ⟨rfl, (List.cons.inj h).2⟩
    | cons x q => exact absurd ((List.cons.inj h).1 ▸ List.mem_cons_self) hq
  | cons x p ih =>
    cases q with
    | nil => exact absurd ((List.cons.inj h).1 ▸ List.mem_cons_self) hp
    | cons y q =>
      obtain ⟨rfl, htail⟩ := List.cons.inj h
      obtain ⟨rfl, hrest⟩ := ih htail (fun hmem => hp (List.mem_cons_of_mem x hmem))
        (fun hmem => hq (List.mem_cons_of_mem x hmem))
      exact ⟨rfl, hrest⟩

lemma exists_last (h : sep ∈ l) : ∃ p t, l = p ++ sep :: t ∧ sep ∉ t := by
  obtain ⟨p, t, hsplit, hfirst⟩ := List.eq_append_cons_of_mem (List.mem_reverse.mpr h)
  refine ⟨t.reverse, p.reverse, ?_, fun hmem => hfirst (List.mem_reverse.mp hmem)⟩
  rw [← List.reverse_reverse l, hsplit, List.reverse_append, List.reverse_cons, List.append_assoc]
  rfl

lemma rdropWhile_append {f : α → Bool} (h : q.rdropWhile f ≠ []) :
    (p ++ q).rdropWhile f = p ++ q.rdropWhile f := by
  rw [List.rdropWhile, List.rdropWhile, List.reverse_append, List.dropWhile_append, if_neg,
    List.reverse_append, List.reverse_reverse]
  rw [List.isEmpty_iff]
  exact fun hnil => h (List.reverse_eq_nil_iff.mpr hnil)

lemma not_mem_splitOnP {f : α → Bool} (hp : p ∈ l.splitOnP f) {x : α} (hx : x ∈ p) :
    f x = false := by
  induction l generalizing p with
  | nil =>
    rw [List.splitOnP_nil, List.mem_singleton] at hp
    exact absurd (hp ▸ hx) List.not_mem_nil
  | cons y l ih =>
    rw [List.splitOnP_cons_eq_if_modifyHead] at hp
    split at hp
    · rcases List.mem_cons.mp hp with rfl | hp
      · exact absurd hx List.not_mem_nil
      · exact ih hp hx
    · rename_i hy
      obtain ⟨first, rest, hsplit⟩ := List.exists_cons_of_ne_nil (List.splitOnP_ne_nil f l)
      rw [hsplit, List.modifyHead_cons] at hp
      rcases List.mem_cons.mp hp with rfl | hp
      · rcases List.mem_cons.mp hx with rfl | hx
        · exact Bool.not_eq_true _ ▸ hy
        · exact ih (hsplit ▸ List.mem_cons_self) hx
      · exact ih (hsplit ▸ List.mem_cons_of_mem _ hp) hx

variable [DecidableEq α]

def splitOnce (pattern : List α) : List α → Option (List α × List α)
  | [] => none
  | x :: l =>
    if pattern <+: x :: l then some ([], (x :: l).drop pattern.length)
    else (splitOnce pattern l).map (fun cut => (x :: cut.1, cut.2))

def afterLast (sep : α) (l : List α) : List α := l.rtakeWhile (fun x => x ≠ sep)

lemma splitOnce_eq (h : splitOnce pattern l = some (p, q)) : l = p ++ pattern ++ q := by
  induction l generalizing p with
  | nil => cases h
  | cons x l ih =>
    rw [splitOnce] at h
    split at h
    · rename_i hstarts
      obtain ⟨rest, hrest⟩ := hstarts
      obtain ⟨rfl, rfl⟩ := Prod.mk.inj (Option.some.inj h)
      rw [← hrest, List.drop_left, List.nil_append]
    · obtain ⟨⟨before, after⟩, hcut, hpair⟩ := Option.map_eq_some_iff.mp h
      obtain ⟨rfl, rfl⟩ := Prod.mk.inj hpair
      rw [ih hcut, List.cons_append, List.cons_append]

lemma not_mem_of_splitOnce (h : splitOnce [sep] l = some (p, q)) : sep ∉ p := by
  induction l generalizing p with
  | nil => cases h
  | cons x l ih =>
    rw [splitOnce] at h
    split at h
    · obtain ⟨rfl, -⟩ := Prod.mk.inj (Option.some.inj h)
      exact List.not_mem_nil
    · rename_i hfirst
      obtain ⟨⟨before, after⟩, hcut, hpair⟩ := Option.map_eq_some_iff.mp h
      obtain ⟨rfl, rfl⟩ := Prod.mk.inj hpair
      rintro (_ | ⟨_, hmem⟩)
      · exact hfirst (List.prefix_append [sep] l)
      · exact ih hcut hmem

lemma splitOnce_append (h : sep ∉ p) : splitOnce [sep] (p ++ sep :: q) = some (p, q) := by
  induction p with
  | nil => rw [List.nil_append, splitOnce, if_pos ⟨q, rfl⟩]; rfl
  | cons x p ih =>
    obtain ⟨hx, hp⟩ := not_or.mp (fun hmem => h (List.mem_cons.mpr hmem))
    have hfirst : ¬ [sep] <+: x :: (p ++ sep :: q) := by
      rintro ⟨rest, hrest⟩
      exact hx (List.cons.inj hrest).1
    rw [List.cons_append, splitOnce, if_neg hfirst, ih hp]
    rfl

lemma afterLast_of_not_mem (h : sep ∉ l) : afterLast sep l = l := by
  rw [afterLast, List.rtakeWhile_eq_self_iff]
  intro x hx
  exact decide_eq_true (fun hsep => h (hsep ▸ hx))

lemma afterLast_append (h : sep ∉ t) : afterLast sep (p ++ sep :: t) = t := by
  induction t using List.reverseRecOn with
  | nil => exact List.rtakeWhile_concat_neg _ _ _ (by simp)
  | append_singleton t x ih =>
    rw [List.mem_append, not_or] at h
    have hx : x ≠ sep := fun hsep => h.2 (List.mem_singleton.mpr hsep.symm)
    rw [afterLast, ← List.cons_append, ← List.append_assoc,
      List.rtakeWhile_concat, if_pos (decide_eq_true hx)]
    exact congrArg (· ++ [x]) (ih h.1)

end Nightcrow.Library.Cut
