import Nightcrow.Library.Splice

/-! Splices that may touch: the list read from the front with the new stretches in it, the same
splices in another writing of the list, and lists sorted stably by a key. -/

namespace Nightcrow.Library

section

variable {α κ : Type*} [LinearOrder κ] {key : α → κ} {l m : List α}

lemma filter_insertionSort (r : α → α → Prop) [DecidableRel r] (k : κ)
    (hsame : ∀ a b, key a = key b → r a b) :
    (l.insertionSort r).filter (fun a => key a = k) = l.filter (fun a => key a = k) := by
  have hpairwise : (l.filter (fun a => key a = k)).Pairwise r := by
    refine List.pairwise_of_forall_mem_list (fun a ha b hb => hsame a b ?_)
    rw [of_decide_eq_true (List.mem_filter.mp ha).2, of_decide_eq_true (List.mem_filter.mp hb).2]
  have hsub := (List.sublist_insertionSort hpairwise List.filter_sublist).filter
    (fun a => decide (key a = k))
  rw [List.filter_filter] at hsub
  simp only [Bool.and_self] at hsub
  refine (hsub.eq_of_length ?_).symm
  exact ((List.perm_insertionSort r l).filter _).length_eq.symm

lemma mem_iff_of_filter_key (h : ∀ k, l.filter (fun a => key a = k) = m.filter (fun a => key a = k))
    (a : α) : a ∈ l ↔ a ∈ m := by
  have hk : a ∈ l.filter (fun b => key b = key a) ↔ a ∈ m.filter (fun b => key b = key a) := by
    rw [h]
  simpa using hk

lemma eq_of_filter_key (hl : l.Pairwise (fun a b => key b ≤ key a))
    (hm : m.Pairwise (fun a b => key b ≤ key a))
    (h : ∀ k, l.filter (fun a => key a = k) = m.filter (fun a => key a = k)) : l = m := by
  induction l generalizing m with
  | nil =>
    cases m with
    | nil => rfl
    | cons b m => cases (mem_iff_of_filter_key h b).mpr List.mem_cons_self
  | cons a l ih =>
    cases m with
    | nil => cases (mem_iff_of_filter_key h a).mp List.mem_cons_self
    | cons b m =>
      have hmem := mem_iff_of_filter_key h
      obtain ⟨hla, hltail⟩ := List.pairwise_cons.mp hl
      obtain ⟨hmb, hmtail⟩ := List.pairwise_cons.mp hm
      have hab : key a = key b := by
        apply le_antisymm
        · rcases List.mem_cons.mp ((hmem a).mp List.mem_cons_self) with rfl | ha
          · exact le_rfl
          · exact hmb a ha
        · rcases List.mem_cons.mp ((hmem b).mpr List.mem_cons_self) with rfl | hb
          · exact le_rfl
          · exact hla b hb
      have hhead := h (key b)
      rw [List.filter_cons_of_pos (by simpa using hab), List.filter_cons_of_pos (by simp)] at hhead
      obtain ⟨rfl, -⟩ := List.cons.inj hhead
      have htail : ∀ k, l.filter (fun c => key c = k) = m.filter (fun c => key c = k) := by
        intro k
        have hk := h k
        rw [List.filter_cons, List.filter_cons] at hk
        split at hk
        · exact (List.cons.inj hk).2
        · exact hk
      rw [ih hltail hmtail htail]

lemma pairwise_insertionSort_key (l : List α) :
    (l.insertionSort (fun a b => key b ≤ key a)).Pairwise (fun a b => key b ≤ key a) := by
  have : Std.Total (fun a b : α => key b ≤ key a) := ⟨fun a b => le_total _ _⟩
  have : IsTrans α (fun a b => key b ≤ key a) := ⟨fun _ _ _ h g => g.trans h⟩
  exact List.pairwise_insertionSort _ l

lemma insertionSort_insertionSort (l : List α) :
    (l.insertionSort (fun a b => key a ≤ key b)).insertionSort (fun a b => key b ≤ key a) =
      l.insertionSort (fun a b => key b ≤ key a) := by
  apply eq_of_filter_key (pairwise_insertionSort_key _) (pairwise_insertionSort_key _)
  intro k
  rw [filter_insertionSort _ k (fun a b h => h.ge), filter_insertionSort _ k (fun a b h => h.le),
    filter_insertionSort _ k (fun a b h => h.ge)]

end

section

variable {α β : Type*} {l : List α} {f : α → List β} {a b : ℕ}

lemma take_flatMap (f : α → List β) (l : List α) (n : ℕ) :
    (l.flatMap f).take ((l.take n).flatMap f).length = (l.take n).flatMap f := by
  conv_lhs => rw [← List.take_append_drop n l, List.flatMap_append]
  rw [List.take_append_drop, List.take_left]

lemma length_flatMap_take_le (f : α → List β) (l : List α) (n : ℕ) :
    ((l.take n).flatMap f).length ≤ (l.flatMap f).length := by
  rw [← take_flatMap f l n, List.length_take]
  exact min_le_right _ _

lemma drop_flatMap (f : α → List β) (l : List α) (n : ℕ) :
    (l.flatMap f).drop ((l.take n).flatMap f).length = (l.drop n).flatMap f := by
  conv_lhs => rw [← List.take_append_drop n l, List.flatMap_append]
  rw [List.take_append_drop, List.drop_left]

lemma flatMap_take_of_le (f : α → List β) (l : List α) (hab : a ≤ b) :
    (l.take b).flatMap f = (l.take a).flatMap f ++ (slice l a b).flatMap f := by
  rw [slice, ← List.flatMap_append]
  conv_lhs => rw [← List.take_append_drop a (l.take b), List.take_take, min_eq_left hab]

lemma slice_flatMap (f : α → List β) (l : List α) (hab : a ≤ b) :
    slice (l.flatMap f) ((l.take a).flatMap f).length ((l.take b).flatMap f).length =
      (slice l a b).flatMap f := by
  rw [slice, take_flatMap, flatMap_take_of_le f l hab, List.drop_left]

lemma flatMap_take_le_iff (hf : ∀ x, f x ≠ []) (hb : b ≤ l.length) :
    ((l.take b).flatMap f).length ≤ ((l.take a).flatMap f).length ↔ b ≤ a := by
  constructor
  · intro h
    by_contra hlt
    have hab : a ≤ b := (not_le.mp hlt).le
    obtain ⟨x, hx⟩ : ∃ x, x ∈ slice l a b := by
      apply List.exists_mem_of_length_pos
      rw [slice, List.length_drop, List.length_take]
      omega
    have hpos : 0 < ((slice l a b).flatMap f).length := by
      apply List.length_pos_of_ne_nil
      intro hnil
      exact hf x (List.flatMap_eq_nil_iff.mp hnil x hx)
    rw [flatMap_take_of_le f l hab, List.length_append] at h
    omega
  · intro h
    rw [flatMap_take_of_le f l h, List.length_append]
    exact Nat.le_add_right _ _

end

namespace Splice

variable {α β : Type*} {p q : Splice α} {ps qs : List (Splice α)} {l : List α} {a : ℕ}

def Backward (ps : List (Splice α)) : Prop := ps.Pairwise (fun p q => q.stop ≤ p.start)

lemma Descending.backward (h : Descending ps) : Backward ps := h.imp Nat.le_of_lt

lemma Descending.starts (h : Descending ps) (hordered : ∀ p ∈ ps, p.start ≤ p.stop) :
    ps.Pairwise (fun p q => q.start < p.start) :=
  h.imp_of_mem (fun {_ q} _ hq hlt => (hordered q hq).trans_lt hlt)

lemma Descending.eq_of_mem_iff (hps : Descending ps) (hqs : Descending qs)
    (hordered : ∀ p ∈ ps, p.start ≤ p.stop) (h : ∀ p, p ∈ ps ↔ p ∈ qs) : ps = qs := by
  have : Std.Irrefl (fun p q : Splice α => q.start < p.start) := ⟨fun p => lt_irrefl _⟩
  have : Std.Antisymm (fun p q : Splice α => q.start < p.start) :=
    ⟨fun p q hlt hgt => absurd hlt hgt.asymm⟩
  exact (hps.starts hordered).eq_of_mem_iff
    (hqs.starts (fun p hp => hordered p ((h p).mpr hp))) h

lemma fits_apply_le (hp : p.Fits l) (hq : q.Fits l) (hle : q.stop ≤ p.start) :
    q.Fits (p.apply l) := by
  refine ⟨hq.1, ?_⟩
  rw [length_apply hp, shift]
  have := hp.1
  have := hp.2
  omega

lemma take_apply {n : ℕ} (hp : p.Fits l) (hn : n ≤ p.start) : (p.apply l).take n = l.take n := by
  have h := slice_apply_before hp hn (a := 0)
  rwa [slice, slice, List.drop_zero, List.drop_zero] at h

def weave (l : List α) : ℕ → List (Splice α) → List α
  | a, [] => l.drop a
  | a, p :: ps => slice l a p.start ++ p.text ++ weave l p.stop ps

lemma weave_append_singleton (hp : p.Fits l) (hqs : ∀ q ∈ qs, q.stop ≤ p.start)
    (hfits : ∀ q ∈ qs, q.Fits l) (ha : a ≤ p.start) :
    weave l a (qs ++ [p]) = weave (p.apply l) a qs := by
  induction qs generalizing a with
  | nil =>
    have hlen : (l.take p.start).length = p.start := List.length_take_of_le (hp.1.trans hp.2)
    rw [List.nil_append, weave, weave, weave, apply, List.append_assoc, List.append_assoc,
      List.drop_append_of_le_length (hlen.symm ▸ ha)]
    rfl
  | cons q qs ih =>
    have hstop := hqs q List.mem_cons_self
    have hstart := (hfits q List.mem_cons_self).1.trans hstop
    rw [List.cons_append, weave, weave, slice_apply_before hp hstart,
      ih (fun r hr => hqs r (List.mem_cons_of_mem _ hr))
        (fun r hr => hfits r (List.mem_cons_of_mem _ hr)) hstop]

lemma applyAll_eq_weave (hb : Backward ps) (hfits : ∀ p ∈ ps, p.Fits l) :
    applyAll ps l = weave l 0 ps.reverse := by
  induction ps generalizing l with
  | nil => rfl
  | cons p ps ih =>
    obtain ⟨hbelow, hrest⟩ := List.pairwise_cons.mp hb
    have hp := hfits p List.mem_cons_self
    have hps : ∀ q ∈ ps, q.Fits l := fun q hq => hfits q (List.mem_cons_of_mem _ hq)
    rw [applyAll, List.foldl_cons]
    refine (ih hrest (fun q hq => fits_apply_le hp (hps q hq) (hbelow q hq))).trans ?_
    rw [List.reverse_cons]
    refine (weave_append_singleton hp ?_ ?_ (Nat.zero_le _)).symm
    · exact fun q hq => hbelow q (List.mem_reverse.mp hq)
    · exact fun q hq => hps q (List.mem_reverse.mp hq)

def through (f : α → List β) (l : List α) (p : Splice α) : Splice β :=
  ⟨((l.take p.start).flatMap f).length, ((l.take p.stop).flatMap f).length, p.text.flatMap f⟩

variable {f : α → List β}

lemma apply_through (p : Splice α) (l : List α) :
    (p.through f l).apply (l.flatMap f) = (p.apply l).flatMap f := by
  rw [apply, apply, through, take_flatMap, drop_flatMap, List.flatMap_append, List.flatMap_append]

lemma through_apply (hp : p.Fits l) (hq : q.Fits l) (hle : q.stop ≤ p.start) :
    q.through f (p.apply l) = q.through f l := by
  rw [through, through, take_apply hp hle, take_apply hp (hq.1.trans hle)]

lemma map_through_apply (hp : p.Fits l) (hbelow : ∀ q ∈ ps, q.stop ≤ p.start)
    (hfits : ∀ q ∈ ps, q.Fits l) :
    ps.map (through f (p.apply l)) = ps.map (through f l) :=
  List.map_congr_left (fun q hq => through_apply hp (hfits q hq) (hbelow q hq))

lemma applyAll_through (hb : Backward ps) (hfits : ∀ p ∈ ps, p.Fits l) :
    applyAll (ps.map (through f l)) (l.flatMap f) = (applyAll ps l).flatMap f := by
  induction ps generalizing l with
  | nil => rfl
  | cons p ps ih =>
    obtain ⟨hbelow, hrest⟩ := List.pairwise_cons.mp hb
    have hp := hfits p List.mem_cons_self
    have hps : ∀ q ∈ ps, q.Fits l := fun q hq => hfits q (List.mem_cons_of_mem _ hq)
    rw [List.map_cons, applyAll, applyAll, List.foldl_cons, List.foldl_cons, apply_through,
      ← map_through_apply hp hbelow hps]
    exact ih hrest (fun q hq => fits_apply_le hp (hps q hq) (hbelow q hq))

end Splice

end Nightcrow.Library
