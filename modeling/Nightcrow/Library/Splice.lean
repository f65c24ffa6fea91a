import Mathlib

namespace Nightcrow.Library

variable {α : Type*}

structure Splice (α : Type*) where
  start : ℕ
  stop : ℕ
  text : List α
  deriving DecidableEq

def slice (l : List α) (a b : ℕ) : List α := (l.take b).drop a

namespace Splice

variable {p q : Splice α} {ps : List (Splice α)} {l : List α} {a b : ℕ}

def apply (p : Splice α) (l : List α) : List α := l.take p.start ++ p.text ++ l.drop p.stop

def applyAll (ps : List (Splice α)) (l : List α) : List α := ps.foldl (fun l p => p.apply l) l

def shift (p : Splice α) (a : ℕ) : ℕ := a + p.text.length - (p.stop - p.start)

def moveStart : List (Splice α) → ℕ → ℕ
  | [], a => a
  | p :: ps, a => moveStart ps (if p.start < a then p.shift a else a)

def moveEnd : List (Splice α) → ℕ → ℕ
  | [], b => b
  | p :: ps, b => moveEnd ps (if p.start ≤ b then p.shift b else b)

def Descending (ps : List (Splice α)) : Prop := ps.Pairwise (fun p q => q.stop < p.start)

def Fits (p : Splice α) (l : List α) : Prop := p.start ≤ p.stop ∧ p.stop ≤ l.length

def Clear (p : Splice α) (a b : ℕ) : Prop := p.start < a ∧ p.stop ≤ a ∨ b < p.start

lemma length_apply (h : p.Fits l) : (p.apply l).length = p.shift l.length := by
  obtain ⟨h₁, h₂⟩ := h
  simp only [apply, shift, List.length_append, List.length_take, List.length_drop]
  omega

lemma slice_eq_take (l : List α) (a n : ℕ) : slice l a (a + n) = (l.drop a).take n := by
  rw [slice, List.drop_take, Nat.add_sub_cancel_left]

lemma slice_append_left {l m : List α} (h : b ≤ l.length) : slice (l ++ m) a b = slice l a b := by
  rw [slice, slice, List.take_append_of_le_length h]

lemma slice_append_right {l m : List α} {n : ℕ} (h : l.length ≤ a) :
    slice (l ++ m) a (a + n) = slice m (a - l.length) (a - l.length + n) := by
  rw [slice_eq_take, slice_eq_take, List.drop_append, List.drop_eq_nil_of_le h, List.nil_append]

lemma slice_apply_before (h : p.Fits l) (hb : b ≤ p.start) :
    slice (p.apply l) a b = slice l a b := by
  have hlen : (l.take p.start).length = p.start := List.length_take_of_le (h.1.trans h.2)
  rw [apply, List.append_assoc, slice_append_left (hlen.symm ▸ hb), slice, slice, List.take_take,
    min_eq_left hb]

lemma slice_apply_after (h : p.Fits l) (ha : p.stop ≤ a) (n : ℕ) :
    slice (p.apply l) (p.shift a) (p.shift a + n) = slice l a (a + n) := by
  obtain ⟨h₁, h₂⟩ := h
  have hlen : (l.take p.start ++ p.text).length = p.start + p.text.length := by
    rw [List.length_append, List.length_take_of_le (h₁.trans h₂)]
  have hle : (l.take p.start ++ p.text).length ≤ p.shift a := by
    rw [hlen, shift]
    omega
  have hback : p.shift a - (l.take p.start ++ p.text).length = a - p.stop := by
    rw [hlen, shift]
    omega
  rw [apply, slice_append_right hle, hback, slice_eq_take, slice_eq_take, List.drop_drop,
    Nat.add_sub_cancel' ha]

lemma slice_apply_text (h : p.Fits l) :
    slice (p.apply l) p.start (p.start + p.text.length) = p.text := by
  have hlen : (l.take p.start).length = p.start := List.length_take_of_le (h.1.trans h.2)
  rw [apply, List.append_assoc, slice_append_right hlen.le, hlen, Nat.sub_self, Nat.zero_add, slice,
    List.drop_zero, List.take_left]

lemma fits_apply (h : p.Fits l) (hq : q.Fits l) (hlt : q.stop < p.start) : q.Fits (p.apply l) := by
  refine ⟨hq.1, ?_⟩
  rw [length_apply h, shift]
  have := h.1
  have := h.2
  omega

lemma slice_applyAll_clear (hd : Descending ps) (hfits : ∀ p ∈ ps, p.Fits l) {n : ℕ}
    (hclear : ∀ p ∈ ps, p.Clear a (a + n)) :
    slice (applyAll ps l) (moveStart ps a) (moveStart ps a + n) = slice l a (a + n) := by
  induction ps generalizing l a with
  | nil => rfl
  | cons p ps ih =>
    obtain ⟨hbelow, hrestd⟩ := List.pairwise_cons.mp hd
    have hp := hfits p List.mem_cons_self
    have hrest : ∀ q ∈ ps, q.Fits (p.apply l) := fun q hq =>
      fits_apply hp (hfits q (List.mem_cons_of_mem _ hq)) (hbelow q hq)
    rw [applyAll, List.foldl_cons, moveStart]
    rcases hclear p List.mem_cons_self with ⟨hlt, hstop⟩ | hlt
    · rw [if_pos hlt, ← slice_apply_after hp hstop n]
      refine ih hrestd hrest (fun q hq => .inl ?_)
      have hq₁ := (hrest q hq).1
      have hq₂ := hbelow q hq
      have := hp.1
      rw [shift]
      omega
    · rw [if_neg (by omega), ← slice_apply_before hp hlt.le]
      exact ih hrestd hrest (fun q hq => hclear q (List.mem_cons_of_mem _ hq))

lemma slice_applyAll_text (hd : Descending ps) (hfits : ∀ p ∈ ps, p.Fits l) (hp : p ∈ ps) :
    slice (applyAll ps l) (moveStart ps p.start) (moveStart ps p.start + p.text.length) =
      p.text := by
  induction ps generalizing l with
  | nil => cases hp
  | cons r ps ih =>
    obtain ⟨hbelow, hrestd⟩ := List.pairwise_cons.mp hd
    have hr := hfits r List.mem_cons_self
    have hrest : ∀ q ∈ ps, q.Fits (r.apply l) := fun q hq =>
      fits_apply hr (hfits q (List.mem_cons_of_mem _ hq)) (hbelow q hq)
    rw [applyAll, List.foldl_cons, moveStart]
    rcases List.mem_cons.mp hp with rfl | hp
    · rw [if_neg (lt_irrefl _)]
      refine (slice_applyAll_clear hrestd hrest (fun q hq => .inl ?_)).trans (slice_apply_text hr)
      have := hbelow q hq
      have := (hrest q hq).1
      omega
    · have hlt := hbelow p hp
      have := (hrest p hp).1
      rw [if_neg (by omega)]
      exact ih hrestd hrest hp

lemma moveEnd_clear (hd : Descending ps) (hordered : ∀ p ∈ ps, p.start ≤ p.stop) {n : ℕ}
    (hclear : ∀ p ∈ ps, p.Clear a (a + n)) : moveEnd ps (a + n) = moveStart ps a + n := by
  induction ps generalizing a with
  | nil => rfl
  | cons p ps ih =>
    obtain ⟨hbelow, hrestd⟩ := List.pairwise_cons.mp hd
    have hp := hordered p List.mem_cons_self
    have hrest : ∀ q ∈ ps, q.start ≤ q.stop := fun q hq => hordered q (List.mem_cons_of_mem _ hq)
    rw [moveEnd, moveStart]
    rcases hclear p List.mem_cons_self with ⟨hlt, hstop⟩ | hlt
    · have hshift : p.shift (a + n) = p.shift a + n := by
        rw [shift, shift]
        omega
      rw [if_pos (by omega), if_pos hlt, hshift]
      refine ih hrestd hrest (fun q hq => .inl ?_)
      have := hbelow q hq
      have := hrest q hq
      rw [shift]
      omega
    · rw [if_neg (by omega), if_neg (by omega)]
      exact ih hrestd hrest (fun q hq => hclear q (List.mem_cons_of_mem _ hq))

lemma moveEnd_stop (hd : Descending ps) (hordered : ∀ p ∈ ps, p.start ≤ p.stop) (hp : p ∈ ps) :
    moveEnd ps p.stop = moveStart ps p.start + p.text.length := by
  induction ps with
  | nil => cases hp
  | cons r ps ih =>
    obtain ⟨hbelow, hrestd⟩ := List.pairwise_cons.mp hd
    have hrest : ∀ q ∈ ps, q.start ≤ q.stop := fun q hq => hordered q (List.mem_cons_of_mem _ hq)
    rw [moveEnd, moveStart]
    rcases List.mem_cons.mp hp with rfl | hp
    · have hr := hordered p List.mem_cons_self
      have hshift : p.shift p.stop = p.start + p.text.length := by
        rw [shift]
        omega
      rw [if_pos hr, if_neg (lt_irrefl _), hshift]
      refine moveEnd_clear hrestd hrest (fun q hq => .inl ?_)
      have := hbelow q hq
      have := hrest q hq
      omega
    · have hlt := hbelow p hp
      have := hrest p hp
      rw [if_neg (by omega), if_neg (by omega)]
      exact ih hrestd hrest hp

end Splice

end Nightcrow.Library
