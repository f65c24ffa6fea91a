import Mathlib

namespace Nightcrow.Library

variable {α : Type*} [DecidableEq α]

def pushNew (p : α → Prop) [DecidablePred p] (out xs : List α) : List α :=
  xs.foldl (fun out x => if p x ∧ x ∉ out then out ++ [x] else out) out

section

variable {p : α → Prop} [DecidablePred p] {q : α → Prop} [DecidablePred q] {out xs ys : List α}
  {x y : α}

@[simp] lemma pushNew_nil : pushNew p out [] = out := rfl

lemma pushNew_cons : pushNew p out (x :: xs) =
    pushNew p (if p x ∧ x ∉ out then out ++ [x] else out) xs := rfl

lemma pushNew_append : pushNew p out (xs ++ ys) = pushNew p (pushNew p out xs) ys :=
  List.foldl_append

@[simp] lemma mem_pushNew : y ∈ pushNew p out xs ↔ y ∈ out ∨ y ∈ xs ∧ p y := by
  induction xs generalizing out with
  | nil => simp
  | cons x xs ih =>
    rw [pushNew_cons, ih]
    by_cases h : p x ∧ x ∉ out
    · simp only [if_pos h, List.mem_append, List.mem_cons, List.not_mem_nil, or_false]
      constructor
      · rintro ((hy | rfl) | hy)
        · exact Or.inl hy
        · exact Or.inr ⟨Or.inl rfl, h.1⟩
        · exact Or.inr ⟨Or.inr hy.1, hy.2⟩
      · rintro (hy | ⟨rfl | hy, hp⟩)
        · exact Or.inl (Or.inl hy)
        · exact Or.inl (Or.inr rfl)
        · exact Or.inr ⟨hy, hp⟩
    · simp only [if_neg h, List.mem_cons]
      constructor
      · rintro (hy | hy)
        · exact Or.inl hy
        · exact Or.inr ⟨Or.inr hy.1, hy.2⟩
      · rintro (hy | ⟨rfl | hy, hp⟩)
        · exact Or.inl hy
        · exact Or.inl (by simpa [hp] using h)
        · exact Or.inr ⟨hy, hp⟩

lemma nodup_pushNew (h : out.Nodup) : (pushNew p out xs).Nodup := by
  induction xs generalizing out with
  | nil => exact h
  | cons x xs ih =>
    rw [pushNew_cons]
    apply ih
    split
    next hx => exact List.nodup_append.mpr ⟨h, List.nodup_singleton x, by aesop⟩
    next => exact h

lemma pushNew_congr (h : ∀ x ∈ xs, p x ↔ q x) : pushNew p out xs = pushNew q out xs := by
  induction xs generalizing out with
  | nil => rfl
  | cons x xs ih =>
    simp only [List.mem_cons, forall_eq_or_imp] at h
    rw [pushNew_cons, pushNew_cons, ih h.2]
    simp only [h.1]

lemma pushNew_filter : pushNew p out (xs.filter q) = pushNew (fun x => p x ∧ q x) out xs := by
  induction xs generalizing out with
  | nil => rfl
  | cons x xs ih =>
    by_cases hq : q x
    · rw [List.filter_cons_of_pos (by simpa using hq), pushNew_cons, pushNew_cons, ih]
      simp only [hq, and_true]
    · rw [List.filter_cons_of_neg (by simpa using hq), pushNew_cons, ih]
      simp only [hq, and_false, false_and, if_false]

lemma filter_pushNew : (pushNew p out xs).filter q =
    pushNew (fun x => p x ∧ q x) (out.filter q) xs := by
  induction xs generalizing out with
  | nil => rfl
  | cons x xs ih =>
    rw [pushNew_cons, pushNew_cons, ih]
    congr 1
    by_cases hq : q x
    · simp only [List.mem_filter, hq, decide_true, and_true]
      split
      · simp [List.filter_append, hq]
      · rfl
    · simp only [hq, and_false, false_and, if_false]
      split
      · simp [List.filter_append, hq]
      · rfl

lemma pushNew_of_nodup (hn : xs.Nodup) (hp : ∀ x ∈ xs, p x) (hd : ∀ x ∈ xs, x ∉ out) :
    pushNew p out xs = out ++ xs := by
  induction xs generalizing out with
  | nil => simp
  | cons x xs ih =>
    simp only [List.mem_cons, forall_eq_or_imp] at hp hd
    rw [List.nodup_cons] at hn
    rw [pushNew_cons, if_pos ⟨hp.1, hd.1⟩, ih hn.2 hp.2]
    · simp
    · intro y hy
      rw [List.mem_append, List.mem_singleton, not_or]
      exact ⟨hd.2 y hy, fun h => hn.1 (h ▸ hy)⟩

lemma pushNew_eq (p : α → Prop) [DecidablePred p] (out xs : List α) :
    pushNew p out xs = out ++ (xs.filter (fun x => p x ∧ x ∉ out)).eraseDups := by
  induction xs generalizing out with
  | nil => simp
  | cons x xs ih =>
    rw [pushNew_cons, ih]
    split
    · rename_i hx
      rw [List.filter_cons_of_pos (by simpa using hx), List.eraseDups_cons, List.filter_filter,
        List.append_assoc, List.singleton_append]
      congr 3
      refine List.filter_congr (fun y _ => ?_)
      simp only [List.mem_append, List.mem_singleton, not_or, Bool.decide_and]
      cases hyx : decide (y = x) <;> simp_all
    · rename_i hx
      rw [List.filter_cons_of_neg (by simpa using hx)]

lemma pushNew_of_subset (h : ∀ x ∈ xs, p x → x ∈ out) : pushNew p out xs = out := by
  induction xs with
  | nil => rfl
  | cons x xs ih =>
    simp only [List.mem_cons, forall_eq_or_imp] at h
    rw [pushNew_cons, if_neg (fun hx => hx.2 (h.1 hx.1)), ih h.2]

end

def arranged (order xs : List α) : List α :=
  pushNew (fun _ => True) (pushNew (· ∈ xs) [] order) xs

section

variable {order xs : List α} {x : α}

@[simp] lemma mem_arranged : x ∈ arranged order xs ↔ x ∈ xs := by
  simp only [arranged, mem_pushNew, List.not_mem_nil, false_or, and_true]
  exact ⟨fun h => h.elim And.right id, Or.inr⟩

lemma nodup_arranged : (arranged order xs).Nodup := nodup_pushNew (nodup_pushNew List.nodup_nil)

lemma perm_arranged (h : xs.Nodup) : (arranged order xs).Perm xs :=
  (List.perm_ext_iff_of_nodup nodup_arranged h).mpr fun _ => mem_arranged

lemma arranged_arranged (h : order.Perm xs) (hn : xs.Nodup) : arranged order xs = order := by
  have hm : ∀ x, x ∈ order ↔ x ∈ xs := fun x => h.mem_iff
  rw [arranged, pushNew_of_nodup (h.nodup_iff.mpr hn) (fun x hx => (hm x).mp hx) (by simp),
    List.nil_append]
  exact pushNew_of_subset fun x hx _ => (hm x).mpr hx

lemma eraseDups_of_nodup (h : xs.Nodup) : xs.eraseDups = xs := by
  have hpush := @pushNew_of_nodup _ _ (fun _ => True) _ [] _ h (fun _ _ => trivial)
    (fun _ _ => List.not_mem_nil)
  rw [pushNew_eq] at hpush
  simpa using hpush

lemma arranged_eq (h : xs.Nodup) : arranged order xs =
    (order.filter (· ∈ xs)).eraseDups ++ xs.filter (· ∉ order) := by
  have hnamed : pushNew (· ∈ xs) [] order = (order.filter (· ∈ xs)).eraseDups := by
    simp [pushNew_eq]
  have hrest : xs.filter (fun x => True ∧ x ∉ pushNew (· ∈ xs) [] order) =
      xs.filter (· ∉ order) := by
    refine List.filter_congr (fun x hx => ?_)
    simp [hx]
  rw [arranged, pushNew_eq (fun _ => True), hrest, eraseDups_of_nodup (h.filter _), hnamed]

lemma arranged_append_new (hx : x ∉ xs) (ho : x ∉ order) :
    arranged order (xs ++ [x]) = arranged order xs ++ [x] := by
  have h : pushNew (· ∈ xs ++ [x]) [] order = pushNew (· ∈ xs) [] order := by
    apply pushNew_congr
    intro y hy
    have : y ≠ x := fun h => ho (h ▸ hy)
    simp [this]
  have hm : x ∉ arranged order xs := by simpa using hx
  rw [arranged, h, pushNew_append]
  exact if_pos ⟨trivial, hm⟩

lemma filter_arranged_append (hx : x ∉ xs) :
    (arranged order (xs ++ [x])).filter (· ≠ x) = arranged order xs := by
  rw [arranged, filter_pushNew, filter_pushNew, List.filter_nil]
  have h : pushNew (fun y => y ∈ xs ++ [x] ∧ y ≠ x) [] order = pushNew (· ∈ xs) [] order := by
    apply pushNew_congr
    intro y _
    constructor
    · rintro ⟨hy, hne⟩
      simpa [hne] using hy
    · intro hy
      exact ⟨List.mem_append_left _ hy, fun h => hx (h ▸ hy)⟩
  rw [h, pushNew_append, arranged]
  have hs : pushNew (fun y => True ∧ y ≠ x) (pushNew (· ∈ xs) [] order) xs =
      pushNew (fun _ => True) (pushNew (· ∈ xs) [] order) xs := by
    apply pushNew_congr
    intro y hy
    simpa using fun h : y = x => hx (h ▸ hy)
  rw [hs]
  exact if_neg (by simp)

lemma filter_arranged :
    (arranged order xs).filter (· ≠ x) = arranged (order.filter (· ≠ x)) (xs.filter (· ≠ x)) := by
  rw [arranged, filter_pushNew, filter_pushNew, List.filter_nil, arranged, pushNew_filter,
    pushNew_filter]
  have h : pushNew (fun y => y ∈ xs ∧ y ≠ x) [] order =
      pushNew (fun y => y ∈ xs.filter (· ≠ x) ∧ y ≠ x) [] order := by
    apply pushNew_congr
    intro y _
    simp
  rw [h]

end

end Nightcrow.Library
