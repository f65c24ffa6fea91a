import Nightcrow.Library.Ordered

namespace Nightcrow.Library

section

variable {α β : Type*}

def beside (l : List α) (i : ℕ) : Option α := l[i + 1]?.or (if i = 0 then none else l[i - 1]?)

variable {l : List α} {i : ℕ} {a b : α}

lemma beside_map (f : α → β) (l : List α) (i : ℕ) :
    beside (l.map f) i = (beside l i).map f := by
  rw [beside, beside, List.getElem?_map, List.getElem?_map]
  cases l[i + 1]? with
  | some b => rfl
  | none => split_ifs <;> rfl

lemma getElem?_eraseIdx_min (h : i < l.length) :
    (l.eraseIdx i)[min i ((l.eraseIdx i).length - 1)]? = beside l i := by
  have hlength : (l.eraseIdx i).length = l.length - 1 := List.length_eraseIdx_of_lt h
  rw [beside, hlength]
  rcases Nat.lt_or_ge (i + 1) l.length with hnext | hlast
  · rw [min_eq_left (by omega), List.getElem?_eraseIdx_of_ge (le_refl i),
      List.getElem?_eq_getElem hnext]
    rfl
  · rw [List.getElem?_eq_none hlast, Option.none_or]
    split_ifs with hi
    · exact List.getElem?_eq_none (by omega)
    · rw [min_eq_right (by omega), List.getElem?_eraseIdx_of_lt (by omega)]
      congr 1
      omega

lemma beside_eq_none (h : i < l.length) (hb : beside l i = none) : l = [l[i]] := by
  rw [beside, Option.or_eq_none_iff] at hb
  have hlast := List.getElem?_eq_none_iff.mp hb.1
  have hi : i = 0 := by
    by_contra hi
    have hbefore := hb.2
    rw [if_neg hi, List.getElem?_eq_none_iff] at hbefore
    omega
  subst hi
  obtain ⟨a, rfl⟩ := List.length_eq_one_iff.mp (show l.length = 1 by omega)
  rfl

lemma beside_mem (hb : beside l i = some b) : b ∈ l := by
  rw [beside, Option.or_eq_some_iff] at hb
  rcases hb with hb | ⟨-, hb⟩
  · exact List.mem_of_getElem? hb
  · split_ifs at hb
    exact List.mem_of_getElem? hb

lemma beside_ne (hn : l.Nodup) (ha : l[i]? = some a) (hb : beside l i = some b) : b ≠ a := by
  have hapart : ∀ j, j ≠ i → l[j]? = some b → b ≠ a := by
    rintro j hj hb rfl
    obtain ⟨hi, hia⟩ := List.getElem?_eq_some_iff.mp ha
    obtain ⟨hj', hja⟩ := List.getElem?_eq_some_iff.mp hb
    exact hj ((hn.getElem_inj_iff).mp (hja.trans hia.symm))
  rw [beside, Option.or_eq_some_iff] at hb
  rcases hb with hb | ⟨-, hb⟩
  · exact hapart _ (Nat.succ_ne_self i) hb
  · split_ifs at hb with hi
    exact hapart _ (by omega) hb

end

@[ext]
structure Strip (α : Type*) where
  tabs : List α
  front : Option α
  nodup : tabs.Nodup
  front_mem : ∀ a, front = some a → a ∈ tabs
  front_none : front = none → tabs = []

namespace Strip

variable {α : Type*} [DecidableEq α]

inductive Op (α : Type*)
  | opened (a : α)
  | focused (a : α)
  | closed (a : α)
  | arranged (order : List α)

def opened (s : Strip α) (a : α) : Strip α where
  tabs := if a ∈ s.tabs then s.tabs else s.tabs ++ [a]
  front := some a
  nodup := by
    split_ifs with ha
    · exact s.nodup
    · exact List.nodup_append.mpr ⟨s.nodup, List.nodup_singleton a, by
        rintro b hb c hc rfl
        exact ha (List.mem_singleton.mp hc ▸ hb)⟩
  front_mem := by
    rintro b hb
    obtain rfl := Option.some.inj hb
    split_ifs with ha
    · exact ha
    · exact List.mem_append_right _ (List.mem_singleton_self _)
  front_none := by
    intro hf
    cases hf

def focused (s : Strip α) (a : α) : Strip α where
  tabs := s.tabs
  front := if a ∈ s.tabs then some a else s.front
  nodup := s.nodup
  front_mem := by
    intro b hb
    split_ifs at hb with ha
    · exact Option.some.inj hb ▸ ha
    · exact s.front_mem b hb
  front_none := by
    intro hf
    split_ifs at hf with ha
    exact s.front_none hf

def frontWithout (s : Strip α) (a : α) : Option α :=
  if s.front = some a then beside s.tabs (s.tabs.idxOf a) else s.front

lemma frontWithout_mem {s : Strip α} {a b : α} (hb : s.frontWithout a = some b) :
    b ∈ s.tabs ∧ b ≠ a := by
  rw [frontWithout] at hb
  split_ifs at hb with ha
  · refine ⟨beside_mem hb, beside_ne s.nodup ?_ hb⟩
    rw [List.getElem?_eq_getElem (List.idxOf_lt_length_of_mem (s.front_mem a ha)),
      List.getElem_idxOf]
  · exact ⟨s.front_mem b hb, fun he => ha (he ▸ hb)⟩

lemma frontWithout_none {s : Strip α} {a : α} (hf : s.frontWithout a = none) :
    ∀ b ∈ s.tabs, b = a := by
  rw [frontWithout] at hf
  split_ifs at hf with ha
  · have hlt := List.idxOf_lt_length_of_mem (s.front_mem a ha)
    have hone := beside_eq_none hlt hf
    intro b hb
    rw [hone, List.mem_singleton, List.getElem_idxOf] at hb
    exact hb
  · rw [s.front_none hf]
    exact fun b hb => absurd hb List.not_mem_nil

def closed (s : Strip α) (a : α) : Strip α where
  tabs := s.tabs.filter (· ≠ a)
  front := s.frontWithout a
  nodup := s.nodup.filter _
  front_mem := by
    intro b hb
    exact List.mem_filter.mpr ⟨(frontWithout_mem hb).1, decide_eq_true (frontWithout_mem hb).2⟩
  front_none := by
    intro hf
    refine List.filter_eq_nil_iff.mpr (fun b hb => ?_)
    simpa using frontWithout_none hf b hb

def arranged (s : Strip α) (order : List α) : Strip α where
  tabs := Library.arranged order s.tabs
  front := s.front
  nodup := nodup_arranged
  front_mem := fun a ha => mem_arranged.mpr (s.front_mem a ha)
  front_none := by
    intro hf
    refine List.eq_nil_iff_forall_not_mem.mpr (fun a ha => ?_)
    rw [mem_arranged, s.front_none hf] at ha
    exact List.not_mem_nil ha

def apply (s : Strip α) : Op α → Strip α
  | .opened a => s.opened a
  | .focused a => s.focused a
  | .closed a => s.closed a
  | .arranged order => s.arranged order

end Strip

end Nightcrow.Library
