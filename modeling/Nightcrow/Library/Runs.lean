import Mathlib

/-! Runs of a labelled partial step function, and the induction rules that carry an
invariant along them. -/

namespace Nightcrow.Library

variable {σ ℓ : Type*} (step : σ → ℓ → Option σ)

def run : σ → List ℓ → Option σ
  | s, [] => some s
  | s, l :: ls => (step s l).bind (fun t => run t ls)

/-- Every step of the run from the given state takes its label in a state that allows it. -/
def Along (allowed : σ → ℓ → Prop) : σ → List ℓ → Prop
  | _, [] => True
  | s, l :: ls => allowed s l ∧ ∀ t, step s l = some t → Along allowed t ls

variable {step}

@[simp] lemma run_nil (s : σ) : run step s [] = some s := rfl

lemma run_cons {s t : σ} {l : ℓ} {ls : List ℓ} :
    run step s (l :: ls) = some t ↔ ∃ u, step s l = some u ∧ run step u ls = some t := by
  simp [run, Option.bind_eq_some_iff]

lemma run_append {s t : σ} {ls ms : List ℓ} :
    run step s (ls ++ ms) = some t ↔ ∃ u, run step s ls = some u ∧ run step u ms = some t := by
  induction ls generalizing s with
  | nil => simp
  | cons l ls ih =>
    simp only [List.cons_append, run_cons, ih]
    constructor
    · rintro ⟨u, hu, v, hv, ht⟩
      exact ⟨v, ⟨u, hu, hv⟩, ht⟩
    · rintro ⟨v, ⟨u, hu, hv⟩, ht⟩
      exact ⟨u, hu, v, hv, ht⟩

lemma run_concat {s t : σ} {ls : List ℓ} {l : ℓ} :
    run step s (ls ++ [l]) = some t ↔ ∃ u, run step s ls = some u ∧ step u l = some t := by
  simp [run_append, run_cons]

lemma along_cons {allowed : σ → ℓ → Prop} {s t : σ} {l : ℓ} {ls : List ℓ} (hs : step s l = some t)
    (hl : allowed s l) (ht : Along step allowed t ls) : Along step allowed s (l :: ls) :=
  ⟨hl, fun _ hu => Option.some.inj (hs.symm.trans hu) ▸ ht⟩

instance decidableAlong (allowed : σ → ℓ → Prop) [∀ s l, Decidable (allowed s l)] :
    ∀ (s : σ) (ls : List ℓ), Decidable (Along step allowed s ls)
  | _, [] => isTrue trivial
  | s, l :: ls =>
    match h : step s l with
    | none => decidable_of_iff (allowed s l) (by simp [Along, h])
    | some t =>
      have := decidableAlong allowed t ls
      decidable_of_iff (allowed s l ∧ Along step allowed t ls) (by simp [Along, h])

lemma along_of_forall {allowed : σ → ℓ → Prop} {s : σ} {ls : List ℓ}
    (h : ∀ l ∈ ls, ∀ s, allowed s l) : Along step allowed s ls := by
  induction ls generalizing s with
  | nil => trivial
  | cons l ls ih =>
    exact ⟨h l List.mem_cons_self s, fun t _ => ih (fun m hm => h m (List.mem_cons_of_mem _ hm))⟩

lemma Along.and {p q : σ → ℓ → Prop} {s : σ} {ls : List ℓ} (hp : Along step p s ls)
    (hq : Along step q s ls) : Along step (fun s l => p s l ∧ q s l) s ls := by
  induction ls generalizing s with
  | nil => trivial
  | cons l ls ih => exact ⟨⟨hp.1, hq.1⟩, fun t ht => ih (hp.2 t ht) (hq.2 t ht)⟩

lemma run_guarded {allowed : σ → ℓ → Prop} {p : σ → Prop}
    (hstep : ∀ s l t, p s → allowed s l → step s l = some t → p t)
    {s t : σ} {ls : List ℓ} (hs : p s) (ha : Along step allowed s ls)
    (hr : run step s ls = some t) : p t := by
  induction ls generalizing s with
  | nil => exact Option.some.inj hr ▸ hs
  | cons l ls ih =>
    obtain ⟨u, hu, hr⟩ := run_cons.mp hr
    exact ih (hstep s l u hs ha.1 hu) (ha.2 u hu) hr

lemma run_iff {allowed : σ → ℓ → Prop} {p q : σ → Prop}
    (hstep : ∀ s l t, p s → step s l = some t → p t ∧ (q t ↔ q s ∧ allowed s l))
    {s t : σ} {ls : List ℓ} (hs : p s) (hr : run step s ls = some t) :
    q t ↔ q s ∧ Along step allowed s ls := by
  induction ls generalizing s with
  | nil =>
    obtain rfl := Option.some.inj hr
    exact (and_iff_left trivial).symm
  | cons l ls ih =>
    obtain ⟨u, hu, hr⟩ := run_cons.mp hr
    obtain ⟨hpu, hqu⟩ := hstep s l u hs hu
    have halong : Along step allowed s (l :: ls) ↔ allowed s l ∧ Along step allowed u ls :=
      ⟨fun h => ⟨h.1, h.2 u hu⟩, fun h => along_cons hu h.1 h.2⟩
    rw [ih hpu hr, hqu, halong, and_assoc]

def spent (step : σ → ℓ → Option σ) (cost : σ → ℓ → ℕ) : σ → List ℓ → ℕ
  | _, [] => 0
  | s, l :: ls => cost s l + (step s l).elim 0 (fun t => spent step cost t ls)

lemma spent_le (cost : σ → ℓ → ℕ) (rank : σ → ℕ) (done : σ → Prop) {allowed : σ → ℓ → Prop}
    {p : σ → Prop}
    (hstep : ∀ s l t, p s → allowed s l → step s l = some t →
      p t ∧ (done s → done t) ∧ (¬ done s → rank t + cost s l ≤ rank s))
    {s t : σ} {ls : List ℓ} (hs : p s) (ha : Along step allowed s ls)
    (hr : run step s ls = some t) : p t ∧ (done s → done t) ∧
      (done t ∨ rank t + spent step cost s ls ≤ rank s) := by
  induction ls generalizing s with
  | nil =>
    obtain rfl := Option.some.inj hr
    exact ⟨hs, id, .inr le_rfl⟩
  | cons l ls ih =>
    obtain ⟨u, hu, hr⟩ := run_cons.mp hr
    obtain ⟨hp, hkeep, hpay⟩ := hstep s l u hs ha.1 hu
    obtain ⟨ht, hkept, hrest⟩ := ih hp (ha.2 u hu) hr
    refine ⟨ht, fun hd => hkept (hkeep hd), ?_⟩
    by_cases hd : done s
    · exact .inl (hkept (hkeep hd))
    · refine hrest.imp id (fun hrest => ?_)
      have hpaid := hpay hd
      rw [spent, hu, Option.elim_some]
      omega

lemma run_invariant {p : σ → Prop}
    (hstep : ∀ s l t, p s → step s l = some t → p t)
    {s t : σ} {ls : List ℓ} (hs : p s) (hr : run step s ls = some t) : p t := by
  induction ls generalizing s with
  | nil => exact Option.some.inj hr ▸ hs
  | cons l ls ih =>
    obtain ⟨u, hu, hr⟩ := run_cons.mp hr
    exact ih (hstep s l u hs hu) hr

lemma run_observe {ω : Type*} {see : σ → ω} {f : ω → ℓ → ω}
    (hstep : ∀ s l t, step s l = some t → see t = f (see s) l)
    {s t : σ} {ls : List ℓ} (hr : run step s ls = some t) : see t = ls.foldl f (see s) := by
  induction ls generalizing s with
  | nil => exact congrArg see (Option.some.inj hr).symm
  | cons l ls ih =>
    obtain ⟨u, hu, hr⟩ := run_cons.mp hr
    rw [List.foldl_cons, ← hstep s l u hu]
    exact ih hr

lemma run_total {p : σ → Prop} (hstep : ∀ s l, p s → ∃ t, step s l = some t ∧ p t)
    {s : σ} (ls : List ℓ) (hs : p s) : ∃ t, run step s ls = some t ∧ p t := by
  induction ls generalizing s with
  | nil => exact ⟨s, rfl, hs⟩
  | cons l ls ih =>
    obtain ⟨u, hu, hi⟩ := hstep s l hs
    obtain ⟨t, ht, hi⟩ := ih hi
    exact ⟨t, run_cons.mpr ⟨u, hu, ht⟩, hi⟩

end Nightcrow.Library
