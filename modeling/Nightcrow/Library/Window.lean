import Mathlib

/-! Stamps counted in a sliding window that is pruned only when it is read. -/

namespace Nightcrow.Library

def recent (window now : ℕ) (stamps : List ℕ) : List ℕ :=
  stamps.filter (fun stamp => now - stamp < window)

def Paced (window max : ℕ) : List ℕ → Prop
  | [] => True
  | now :: log => (recent window now log).length < max ∧ Paced window max log

/-- The stamps kept of a log, oldest first: its end, at most `cap` of them, and where fewer than
that are kept what went before has stopped counting. -/
def Tail (window cap : ℕ) (log kept : List ℕ) : Prop :=
  ∃ dropped, log = dropped ++ kept ∧ kept.length ≤ cap ∧ (kept.length = cap ∨
    ∀ now, (∀ stamp ∈ log, stamp ≤ now) → ∀ stamp ∈ dropped, window ≤ now - stamp)

variable {window max cap now later : ℕ} {stamps log kept dropped : List ℕ}

lemma recent_append {more : List ℕ} :
    recent window now (stamps ++ more) = recent window now stamps ++ recent window now more :=
  List.filter_append ..

lemma recent_recent (h : now ≤ later) :
    recent window later (recent window now stamps) = recent window later stamps := by
  simp only [recent, List.filter_filter]
  apply List.filter_congr
  intro stamp _
  simp only [Bool.and_eq_left_iff_imp, decide_eq_true_eq]
  omega

lemma recent_recent_of_le {narrow : ℕ} (h : narrow ≤ window) :
    recent narrow now (recent window now stamps) = recent narrow now stamps := by
  simp only [recent, List.filter_filter]
  apply List.filter_congr
  intro stamp _
  simp only [Bool.and_eq_left_iff_imp, decide_eq_true_eq]
  omega

lemma exists_append_recent (h : stamps.Pairwise (· ≤ ·)) :
    ∃ aged, stamps = aged ++ recent window now stamps ∧ ∀ stamp ∈ aged, window ≤ now - stamp := by
  induction stamps with
  | nil => exact ⟨[], rfl, List.forall_mem_nil _⟩
  | cons stamp stamps ih =>
    obtain ⟨hle, h⟩ := List.pairwise_cons.mp h
    by_cases hcounts : now - stamp < window
    · have hall : recent window now (stamp :: stamps) = stamp :: stamps := by
        refine List.filter_eq_self.mpr (List.forall_mem_cons.mpr ⟨decide_eq_true hcounts, ?_⟩)
        intro s hs
        have := hle s hs
        exact decide_eq_true (by omega)
      exact ⟨[], by rw [hall, List.nil_append], List.forall_mem_nil _⟩
    · obtain ⟨aged, haged, hold⟩ := ih h
      refine ⟨stamp :: aged, ?_, List.forall_mem_cons.mpr ⟨not_lt.mp hcounts, hold⟩⟩
      rw [recent, List.filter_cons_of_neg (by simpa using hcounts), List.cons_append]
      exact congrArg _ haged

lemma Tail.room_iff (h : Tail cap max log kept) (hsorted : log.Pairwise (· ≤ ·))
    (hnow : ∀ stamp ∈ log, stamp ≤ now) {narrow room : ℕ} (hnarrow : narrow ≤ cap)
    (hroom : room ≤ max) :
    (recent narrow now kept).length < room ↔ (recent narrow now log).length < room := by
  obtain ⟨dropped, rfl, -, hkept⟩ := h
  rw [recent_append, List.length_append]
  cases hcounts : recent narrow now dropped with
  | nil => rw [List.length_nil, Nat.zero_add]
  | cons stamp counted =>
    obtain ⟨hmem, hstamp⟩ := List.mem_filter.mp
      (hcounts ▸ List.mem_cons_self : stamp ∈ recent narrow now dropped)
    have hstamp : now - stamp < narrow := of_decide_eq_true hstamp
    have hfull : kept.length = max := by
      refine hkept.resolve_right (fun hold => ?_)
      have := hold now hnow stamp hmem
      omega
    have hall : recent narrow now kept = kept := by
      refine List.filter_eq_self.mpr (fun s hs => decide_eq_true ?_)
      have := (List.pairwise_append.mp hsorted).2.2 stamp hmem s hs
      omega
    rw [hall, hfull]
    omega

lemma Tail.push (h : Tail window cap log kept) (hsorted : log.Pairwise (· ≤ ·))
    (hnow : ∀ stamp ∈ log, stamp ≤ now) (hcap : 0 < cap) :
    Tail window cap (log ++ [now])
      (if cap < (recent window now kept ++ [now]).length then
        (recent window now kept ++ [now]).tail else recent window now kept ++ [now]) := by
  obtain ⟨dropped, rfl, hlength, hkept⟩ := h
  obtain ⟨hdropped, hsorted, hbefore⟩ := List.pairwise_append.mp hsorted
  obtain ⟨aged, haged, hold⟩ := exists_append_recent hsorted
  generalize recent window now kept = counted at haged ⊢
  subst haged
  rw [List.length_append] at hlength hkept
  split_ifs with hover
  · rw [List.length_append, List.length_singleton] at hover
    cases counted with
    | nil => exact absurd hover (by simpa using hcap.ne')
    | cons oldest counted =>
      rw [List.length_cons] at hover hlength
      refine ⟨dropped ++ aged ++ [oldest], by simp, ?_, .inl ?_⟩
      · simp only [List.cons_append, List.tail_cons, List.length_append, List.length_singleton]
        omega
      · simp only [List.cons_append, List.tail_cons, List.length_append, List.length_singleton]
        omega
  · refine ⟨dropped ++ aged, by simp, not_lt.mp hover, .inr (fun later hlater => ?_)⟩
    have hlate : now ≤ later := hlater now (by simp)
    rw [List.length_append, List.length_singleton] at hover
    refine List.forall_mem_append.mpr ⟨fun stamp hs => ?_, fun stamp hs => ?_⟩
    · rcases hkept with hfull | hgone
      · obtain ⟨first, hfirst⟩ : ∃ first, first ∈ aged := by
          apply List.exists_mem_of_length_pos
          omega
        have := hbefore stamp hs first (List.mem_append_left _ hfirst)
        have := hold first hfirst
        omega
      · have := hgone now hnow stamp hs
        omega
    · have := hold stamp hs
      omega

lemma Paced.within (h : Paced window max log) (start : ℕ) :
    log.countP (fun stamp => start ≤ stamp ∧ stamp < start + window) ≤ max := by
  induction log with
  | nil => simp
  | cons now log ih =>
    obtain ⟨hroom, h⟩ := h
    by_cases hn : start ≤ now ∧ now < start + window
    · have hc : log.countP (fun stamp => start ≤ stamp ∧ stamp < start + window) ≤
          log.countP (fun stamp => now - stamp < window) := by
        apply List.countP_mono_left
        intro stamp _ hi
        simp only [decide_eq_true_eq] at hi ⊢
        omega
      rw [recent, ← List.countP_eq_length_filter] at hroom
      rw [List.countP_cons_of_pos (by simpa using hn)]
      omega
    · rw [List.countP_cons_of_neg (by simpa using hn)]
      exact ih h

end Nightcrow.Library
