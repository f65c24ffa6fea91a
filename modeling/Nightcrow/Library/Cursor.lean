import Nightcrow.Library.Keyed

/-! A place that is kept as a number, in a list that grows, shrinks and is rearranged. -/

namespace Nightcrow.Library

inductive Spot (α : Type*)
  | on (a : α)
  | past (k : ℕ)

structure Cursor (α : Type*) where
  order : List α
  place : Spot α

namespace Cursor

variable {α : Type*}

def ofIndex (l : List α) (i : ℕ) : Cursor α :=
  { order := l
    place := match l[i]? with
      | some a => .on a
      | none => .past (i - l.length) }

def focus (c : Cursor α) : Option α :=
  match c.place with
  | .on a => some a
  | .past _ => none

def last (l : List α) : Spot α :=
  match l.getLast? with
  | some a => .on a
  | none => .past 0

def settled (c : Cursor α) : Cursor α :=
  match c.place with
  | .on _ => c
  | .past _ => { c with place := last c.order }

def arranged (c : Cursor α) (order : List α) : Cursor α :=
  { order
    place := match c.place with
      | .on a => .on a
      | .past _ => last order }

variable {l l' : List α} {i : ℕ} {a : α}

lemma focus_ofIndex : (ofIndex l i).focus = l[i]? := by
  rw [focus, ofIndex]
  cases l[i]? <;> rfl

lemma ofIndex_getElem (h : l[i]? = some a) : ofIndex l i = ⟨l, .on a⟩ := by
  rw [ofIndex, h]

lemma ofIndex_past (h : l.length ≤ i) : ofIndex l i = ⟨l, .past (i - l.length)⟩ := by
  rw [ofIndex, List.getElem?_eq_none h]

lemma ofIndex_last (h : l.length ≤ i + 1) (hi : i ≤ l.length - 1) :
    ofIndex l i = ⟨l, last l⟩ := by
  rw [ofIndex, last, List.getLast?_eq_getElem?]
  obtain rfl : i = l.length - 1 := by omega
  rw [show l.length - 1 - l.length = 0 by omega]

lemma settled_ofIndex (l : List α) (i : ℕ) :
    (ofIndex l i).settled = ofIndex l (min i (l.length - 1)) := by
  rcases Nat.lt_or_ge i l.length with hi | hi
  · rw [min_eq_left (by omega), ofIndex_getElem (List.getElem?_eq_getElem hi)]
    rfl
  · rw [ofIndex_past hi, ofIndex_last (by omega) (by omega)]
    rfl

variable [DecidableEq α]

def after (l : List α) (a : α) : Spot α :=
  match l[l.idxOf a + 1]? with
  | some b => .on b
  | none => .past 0

def opened (c : Cursor α) (a : α) (front : Bool) : Cursor α :=
  if a ∈ c.order then c
  else
    { order := c.order ++ [a]
      place := match c.place with
        | .on b => if front then .on a else .on b
        | .past 0 => .on a
        | .past (k + 1) => if front then .on a else .past k }

def dropped (c : Cursor α) (a : α) : Cursor α :=
  if a ∈ c.order then
    { order := c.order.filter (· ≠ a)
      place := match c.place with
        | .on b => if c.order.idxOf a ≤ c.order.idxOf b then after c.order b else .on b
        | .past k => .past (k + 1) }
  else c

lemma opened_order (c : Cursor α) (a : α) (front : Bool) :
    (c.opened a front).order = if a ∈ c.order then c.order else c.order ++ [a] := by
  rw [opened, apply_ite order]

lemma dropped_order (c : Cursor α) (a : α) :
    (c.dropped a).order = c.order.filter (· ≠ a) := by
  rw [dropped]
  split_ifs with ha
  · rfl
  · refine (List.filter_eq_self.mpr (fun b hb => decide_eq_true ?_)).symm
    rintro rfl
    exact ha hb

lemma opened_ofIndex (ha : a ∉ l) (front : Bool) :
    (ofIndex l i).opened a front = ofIndex (l ++ [a]) (if front then l.length else i) := by
  have hself : ofIndex (l ++ [a]) l.length = ⟨l ++ [a], .on a⟩ :=
    ofIndex_getElem (by rw [List.getElem?_append_right (le_refl _), Nat.sub_self]; rfl)
  rw [opened, if_neg (show a ∉ (ofIndex l i).order from ha)]
  rcases Nat.lt_trichotomy i l.length with hi | rfl | hi
  · rw [ofIndex_getElem (List.getElem?_eq_getElem hi)]
    cases front with
    | true => exact hself.symm
    | false =>
      refine (ofIndex_getElem ?_).symm
      rw [if_neg Bool.false_ne_true, List.getElem?_append_left hi, List.getElem?_eq_getElem hi]
  · rw [ofIndex_past (le_refl _), Nat.sub_self, ite_self, hself]
  · obtain ⟨k, rfl⟩ := Nat.exists_eq_add_of_lt hi
    rw [ofIndex_past (by omega), show l.length + k + 1 - l.length = k + 1 by omega]
    cases front with
    | true => exact hself.symm
    | false =>
      rw [if_neg Bool.false_ne_true, ofIndex_past (by rw [List.length_append]; simp)]
      simp only [List.length_append, List.length_singleton, Bool.false_eq_true, if_false]
      congr 2
      omega

lemma filter_ne_eq_erase (hn : l.Nodup) (a : α) : l.filter (· ≠ a) = l.erase a := by
  rw [hn.erase_eq_filter]
  refine List.filter_congr (fun b _ => ?_)
  rw [bne, Bool.eq_iff_iff]
  simp

lemma getElem?_filter_ne (hn : l.Nodup) (a : α) (j : ℕ) :
    (l.filter (· ≠ a))[j]? = if j < l.idxOf a then l[j]? else l[j + 1]? := by
  rw [filter_ne_eq_erase hn, List.erase_eq_eraseIdx_of_idxOf rfl, List.getElem?_eraseIdx]

lemma dropped_ofIndex (hn : l.Nodup) (a : α) :
    (ofIndex l i).dropped a = ofIndex (l.filter (· ≠ a)) i := by
  rw [dropped]
  split_ifs with ha
  · have hmem : a ∈ l := ha
    have hlength : (l.filter (· ≠ a)).length = l.length - 1 := by
      rw [filter_ne_eq_erase hn, List.length_erase_of_mem hmem]
    have hpos : 0 < l.length := List.length_pos_of_mem hmem
    rcases Nat.lt_or_ge i l.length with hi | hi
    · have hb := List.getElem?_eq_getElem hi
      rw [ofIndex_getElem hb]
      dsimp only
      rw [hn.idxOf_getElem i hi]
      split_ifs with hle
      · rw [ofIndex, getElem?_filter_ne hn, if_neg (by omega), after, hn.idxOf_getElem i hi,
          hlength]
        rcases Nat.lt_or_ge (i + 1) l.length with hnext | hlast
        · rw [List.getElem?_eq_getElem hnext]
        · rw [List.getElem?_eq_none hlast, show i - (l.length - 1) = 0 by omega]
      · rw [ofIndex, getElem?_filter_ne hn, if_pos (by omega), hb]
    · rw [ofIndex_past hi, ofIndex_past (by omega), hlength]
      dsimp only
      congr 2
      omega
  · have hkeep : l.filter (· ≠ a) = l :=
      List.filter_eq_self.mpr (fun b hb => decide_eq_true (fun h => ha (h ▸ hb)))
    rw [hkeep]

omit [DecidableEq α] in
lemma arranged_on {j : ℕ} (hi : l[i]? = some a) (hj : l'[j]? = some a) :
    (ofIndex l i).arranged l' = ofIndex l' j := by
  rw [ofIndex_getElem hi, ofIndex_getElem hj]
  rfl

omit [DecidableEq α] in
lemma arranged_past (hi : l.length ≤ i) (hlength : l'.length = l.length) :
    (ofIndex l i).arranged l' = ofIndex l' (min i (l'.length - 1)) := by
  rw [ofIndex_past hi, ofIndex_last (by omega) (by omega)]
  rfl

omit [DecidableEq α] in
lemma getElem?_filter_iff (hn : l.Nodup) (ha : l[i]? = some a) (p : α → Bool) :
    (l.filter p)[min i ((l.filter p).length - 1)]? = some a ↔
      p a ∧ ((∀ b ∈ l.take i, p b) ∨ ∀ b ∈ l.drop (i + 1), ¬ p b) := by
  obtain ⟨hi, rfl⟩ := List.getElem?_eq_some_iff.mp ha
  have hsplit : l = l.take i ++ l[i] :: l.drop (i + 1) := by
    rw [List.cons_getElem_drop_succ, List.take_append_drop]
  by_cases hp : p l[i]
  · have hfilter : l.filter p = (l.take i).filter p ++ l[i] :: (l.drop (i + 1)).filter p := by
      conv_lhs => rw [hsplit, List.filter_append, List.filter_cons_of_pos hp]
    have hlength : ((l.take i).filter p).length ≤ i :=
      (List.length_filter_le ..).trans (List.length_take_le ..)
    have hplace : (l.filter p)[((l.take i).filter p).length]? = some l[i] := by
      rw [hfilter, List.getElem?_append_right (le_refl _), Nat.sub_self]
      rfl
    have hbefore : ((l.take i).filter p).length = i ↔ ∀ b ∈ l.take i, p b := by
      rw [← List.length_filter_eq_length_iff, List.length_take, min_eq_left hi.le]
    have hafter : ((l.drop (i + 1)).filter p).length = 0 ↔ ∀ b ∈ l.drop (i + 1), ¬ p b := by
      rw [List.length_eq_zero_iff, List.filter_eq_nil_iff]
    have hindex : (l.filter p)[min i ((l.filter p).length - 1)]? = some l[i] ↔
        min i ((l.filter p).length - 1) = ((l.take i).filter p).length := by
      constructor
      · intro h
        obtain ⟨hlt, heq⟩ := List.getElem?_eq_some_iff.mp h
        obtain ⟨hlt', heq'⟩ := List.getElem?_eq_some_iff.mp hplace
        exact (hn.filter p).getElem_inj_iff.mp (heq.trans heq'.symm)
      · exact fun h => h ▸ hplace
    rw [hindex, ← hbefore, ← hafter, hfilter, List.length_append, List.length_cons]
    simp only [hp, true_and]
    omega
  · refine ⟨fun h => ?_, fun h => absurd h.1 hp⟩
    exact absurd (List.of_mem_filter (List.mem_of_getElem? h)) hp

end Cursor

section

variable {α κ : Type*} [DecidableEq κ] {key : α → κ} {k : κ}

def rearrange : List κ → List κ → List κ
  | [], l => l
  | k :: ks, l => if k ∈ l then k :: rearrange ks (l.erase k) else rearrange ks l

lemma rearrange_perm (ks : List κ) : ∀ l : List κ, (rearrange ks l).Perm l := by
  induction ks with
  | nil => exact .refl
  | cons k ks ih =>
    intro l
    rw [rearrange]
    split_ifs with hk
    · exact ((ih (l.erase k)).cons k).trans (List.perm_cons_erase hk).symm
    · exact ih l

lemma idxOf?_map (l : List α) : (l.map key).idxOf? k = l.findIdx? (fun b => key b = k) := by
  rw [List.idxOf?, List.findIdx?_map]
  congr 1

lemma map_takeByKey (ks : List κ) : ∀ l : List α,
    ((Keyed.takeByKey key ks l).1 ++ (Keyed.takeByKey key ks l).2).map key =
      rearrange ks (l.map key) := by
  induction ks with
  | nil => exact fun _ => rfl
  | cons k ks ih =>
    intro l
    have hindex : (l.map key).idxOf? k = _ := idxOf?_map l
    rw [Keyed.takeByKey, rearrange]
    cases hidx : l.findIdx? (fun b => key b = k) with
    | none =>
      rw [if_neg (List.idxOf?_eq_none_iff.mp (hindex.trans hidx))]
      exact ih l
    | some i =>
      obtain ⟨hlt, hkey, -⟩ := List.findIdx?_eq_some_iff_getElem.mp hidx
      have hk : k ∈ l.map key := of_decide_eq_true hkey ▸ List.mem_map_of_mem (List.getElem_mem hlt)
      rw [if_pos hk, List.erase_eq_eraseIdx, hindex.trans hidx]
      dsimp only
      rw [List.eraseIdx_map, ← ih (l.eraseIdx i), List.getElem?_eq_getElem hlt,
        ← of_decide_eq_true hkey]
      rfl

end

end Nightcrow.Library
