import Mathlib

namespace Nightcrow.Library

variable {α : Type*}

def chunks (n : ℕ) (l : List α) : List (List α) :=
  (List.range ((l.length + n - 1) / n)).map (fun i => (l.drop (i * n)).take n)

lemma chunks_length (n : ℕ) (l : List α) : (chunks n l).length = (l.length + n - 1) / n := by
  simp [chunks]

lemma flatten_pieces (n k : ℕ) (l : List α) :
    ((List.range k).map (fun i => (l.drop (i * n)).take n)).flatten = l.take (k * n) := by
  induction k with
  | zero => simp
  | succ k ih =>
    rw [List.range_succ, List.map_append, List.flatten_append, ih, Nat.succ_mul, List.take_add]
    simp

lemma chunks_flatten {n : ℕ} (hn : 0 < n) (l : List α) : (chunks n l).flatten = l := by
  rw [chunks, flatten_pieces]
  apply List.take_of_length_le
  have h := Nat.div_add_mod (l.length + n - 1) n
  have hm := Nat.mod_lt (l.length + n - 1) hn
  rw [Nat.mul_comm] at h
  omega

def sizes (n total : ℕ) : List ℕ :=
  (List.range ((total + n - 1) / n)).map fun i => min n (total - i * n)

lemma length_chunks (n : ℕ) (l : List α) : (chunks n l).map List.length = sizes n l.length := by
  simp [chunks, sizes, Function.comp_def]

lemma lt_pieces_iff {n total i : ℕ} (hn : 0 < n) : i < (total + n - 1) / n ↔ i * n < total := by
  rw [Nat.lt_iff_add_one_le, Nat.le_div_iff_mul_le hn, Nat.succ_mul]
  omega

lemma sizes_getElem? {n total i : ℕ} (hn : 0 < n) (hi : i * n < total) :
    (sizes n total)[i]? = some (min n (total - i * n)) := by
  rw [sizes, List.getElem?_map, List.getElem?_range ((lt_pieces_iff hn).mpr hi)]
  rfl

lemma sum_take_sizes {n total i : ℕ} (hi : i * n ≤ total) :
    ((sizes n total).take i).sum = i * n := by
  induction i with
  | zero => simp
  | succ i ih =>
    rw [Nat.succ_mul] at hi
    rcases Nat.eq_zero_or_pos n with rfl | hn
    · simp [sizes]
    · have hlt : i * n < total := by omega
      have hget := sizes_getElem? hn hlt
      obtain ⟨hlen, hget⟩ := List.getElem?_eq_some_iff.mp hget
      rw [List.sum_take_succ _ _ hlen, ih (by omega), hget, Nat.succ_mul]
      omega

lemma sizes_step {n total : ℕ} (hn : 0 < n) (ht : 0 < total) :
    sizes n total = min total n :: sizes n (total - min total n) := by
  rcases Nat.lt_or_ge n total with hlt | hge
  · have hpieces : (total + n - 1) / n = (total - n + n - 1) / n + 1 := by
      rw [← Nat.add_div_right _ hn]
      congr 1
      omega
    rw [min_eq_right hlt.le, sizes, sizes, hpieces, List.range_succ_eq_map]
    simp only [List.map_cons, Nat.zero_mul, Nat.sub_zero, min_eq_left hlt.le, List.map_map]
    congr 1
    apply List.map_congr_left
    intro i _
    simp only [Function.comp_apply, Nat.succ_mul]
    omega
  · have hpieces : (total + n - 1) / n = 1 := by
      rw [Nat.div_eq_of_lt_le] <;> omega
    have hnone : (0 + n - 1) / n = 0 := Nat.div_eq_of_lt (by omega)
    rw [min_eq_left hge, Nat.sub_self, sizes, sizes, hpieces, hnone]
    simp [min_eq_right hge]

lemma mem_sizes {n total k : ℕ} (hn : 0 < n) (hk : k ∈ sizes n total) : 0 < k ∧ k ≤ n := by
  obtain ⟨i, hi, rfl⟩ := List.mem_map.mp hk
  have hlt := (lt_pieces_iff hn).mp (List.mem_range.mp hi)
  omega

lemma mem_dropLast_sizes {n total k : ℕ} (hn : 0 < n) (hk : k ∈ (sizes n total).dropLast) :
    k = n := by
  rw [sizes, List.dropLast_eq_take, ← List.map_take, List.take_range] at hk
  obtain ⟨i, hi, rfl⟩ := List.mem_map.mp hk
  rw [List.mem_range, List.length_map, List.length_range] at hi
  have hnext : i + 1 < (total + n - 1) / n := by omega
  have hlt := (lt_pieces_iff hn).mp hnext
  rw [Nat.succ_mul] at hlt
  omega

lemma eq_chunks {n : ℕ} (hn : 0 < n) {pieces : List (List α)} {l : List α}
    (hlen : pieces.map List.length = sizes n l.length) (hflat : pieces.flatten = l) :
    pieces = chunks n l := by
  rw [List.eq_iff_flatten_eq, hlen, length_chunks, hflat, chunks_flatten hn]
  exact ⟨rfl, rfl⟩

end Nightcrow.Library
