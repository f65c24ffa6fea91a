import Mathlib

namespace Nightcrow.Library

abbrev Table (α β : Type*) := AList (fun _ : α => β)

namespace Table

variable {α β : Type*} [DecidableEq α] {t : Table α β} {a : α} {b : β}

def count (t : Table α β) (p : β → Bool) : ℕ := t.entries.countP (fun e => p e.2)

lemma count_insert (ha : a ∉ t) (p : β → Bool) :
    count (t.insert a b) p = count t p + if p b then 1 else 0 := by
  rw [count, AList.entries_insert_of_notMem ha, List.countP_cons, count]

lemma count_erase (ha : t.lookup a = some b) (p : β → Bool) :
    count t p = count (t.erase a) p + if p b then 1 else 0 := by
  have hm : a ∈ t.entries.keys := AList.mem_keys.mp (AList.lookup_isSome.mp (by simp [ha]))
  obtain ⟨c, l, r, -, hl, hr⟩ := List.exists_of_kerase hm
  have hc : c = b := by
    have : t.lookup a = some c := AList.mem_lookup_iff.mpr (by simp [hl])
    simpa [ha] using this.symm
  subst hc
  have he : (t.erase a).entries = l ++ r := hr
  simp only [count, he, hl, List.countP_append, List.countP_cons]
  omega

lemma count_pos (ha : t.lookup a = some b) {p : β → Bool} (hp : p b) : 0 < count t p := by
  rw [count_erase ha, if_pos hp]
  exact Nat.succ_pos _

def total (t : Table α β) (f : β → ℕ) : ℕ := (t.entries.map (fun e => f e.2)).sum

lemma total_erase (f : β → ℕ) :
    total t f = ((t.lookup a).elim 0 f) + total (t.erase a) f := by
  rcases ha : t.lookup a with _ | b
  · have hn : a ∉ t.entries.keys :=
      fun hm => by simpa [ha] using AList.lookup_isSome.mpr (AList.mem_keys.mpr hm)
    have he : (t.erase a).entries = t.entries := List.kerase_of_notMem_keys hn
    simp [total, he]
  · have hm : a ∈ t.entries.keys := AList.mem_keys.mp (AList.lookup_isSome.mp (by simp [ha]))
    obtain ⟨c, l, r, -, hl, hr⟩ := List.exists_of_kerase hm
    have hc : c = b := by
      have : t.lookup a = some c := AList.mem_lookup_iff.mpr (by simp [hl])
      simpa [ha] using this.symm
    subst hc
    have he : (t.erase a).entries = l ++ r := hr
    simp only [total, he, hl, List.map_append, List.map_cons, List.sum_append, List.sum_cons,
      Option.elim_some]
    omega

lemma total_insert (f : β → ℕ) : total (t.insert a b) f = f b + total (t.erase a) f := by
  simp [total, AList.entries_insert, AList.erase]

def keep (p : α → Prop) [DecidablePred p] (t : Table α β) : Table α β :=
  ⟨t.entries.filter (fun e => p e.1), t.nodupKeys.sublist List.filter_sublist⟩

variable {p : α → Prop} [DecidablePred p]

lemma lookup_keep : (t.keep p).lookup a = if p a then t.lookup a else none := by
  ext b
  rw [← Option.mem_def, AList.mem_lookup_iff]
  split
  next h => simp [keep, h, ← AList.mem_lookup_iff]
  next h => simp [keep, h]

omit [DecidableEq α] in
lemma total_keep (f : β → ℕ) :
    total t f = total (t.keep p) f + total (t.keep (fun a => ¬ p a)) f := by
  obtain ⟨entries, hn⟩ := t
  simp only [total, keep]
  clear hn
  induction entries with
  | nil => rfl
  | cons e entries ih =>
    by_cases he : p e.1 <;> simp [he, ih] <;> omega

end Table

end Nightcrow.Library
