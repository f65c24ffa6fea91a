import Mathlib

namespace Nightcrow.Git

def maxInFlight : ℕ := 8

def maxInFlightPerRepo : ℕ := 1

structure Waiter where
  ticket : ℕ
  repo : String
  deriving DecidableEq

structure AdmissionState where
  total : ℕ := 0
  repos : String → ℕ := fun _ => 0
  waiting : List Waiter := []
  nextTicket : ℕ := 0
  nextAdmission : ℕ := 0
  peakTotal : ℕ := 0
  peakRepo : ℕ := 0

structure InFlightPermit where
  repo : String
  admission : ℕ
  deriving DecidableEq

namespace AdmissionState

variable (s : AdmissionState)

def enqueue (repo : String) : AdmissionState :=
  { s with
    nextTicket := (s.nextTicket + 1) % 2 ^ 64
    waiting := s.waiting ++ [{ ticket := s.nextTicket, repo }] }

def removeWaiter (waiting : List Waiter) (ticket : ℕ) : List Waiter :=
  waiting.eraseP (fun waiter => waiter.ticket = ticket)

def nextIn : Option Waiter :=
  s.waiting.find? (fun waiter => s.repos waiter.repo < maxInFlightPerRepo)

def eligible (ticket : ℕ) : Bool :=
  s.total < maxInFlight && s.nextIn.any (fun waiter => waiter.ticket = ticket)

def enter (w : Waiter) : AdmissionState × InFlightPermit :=
  let repoCount := s.repos w.repo + 1
  let admission := (s.nextAdmission + 1) % 2 ^ 64
  ({ s with
      waiting := removeWaiter s.waiting w.ticket
      total := s.total + 1
      repos := Function.update s.repos w.repo repoCount
      nextAdmission := admission
      peakTotal := max s.peakTotal (s.total + 1)
      peakRepo := max s.peakRepo repoCount },
    { repo := w.repo, admission })

def giveUp (w : Waiter) : AdmissionState := { s with waiting := removeWaiter s.waiting w.ticket }

def release (p : InFlightPermit) : AdmissionState :=
  { s with
    total := s.total - 1
    repos := Function.update s.repos p.repo (s.repos p.repo - 1) }

end AdmissionState

/-- The limiter, the calls of `acquire` that have not returned, the permits that are out, and how
many calls there were. -/
structure AdmissionWorld where
  state : AdmissionState := {}
  calls : List Waiter := []
  permits : List InFlightPermit := []
  made : ℕ := 0

namespace AdmissionWorld

variable {w w' : AdmissionWorld} {c d : Waiter} {repo : String}

inductive Step : AdmissionWorld → AdmissionWorld → Prop
  | acquire (w : AdmissionWorld) (repo : String) :
      Step w { w with
        state := w.state.enqueue repo
        calls := w.calls ++ [{ ticket := w.state.nextTicket, repo }]
        made := w.made + 1 }
  | stopped (w : AdmissionWorld) (c : Waiter) (h : c ∈ w.calls) :
      Step w { w with state := w.state.giveUp c, calls := w.calls.erase c }
  | enter (w : AdmissionWorld) (c : Waiter) (h : c ∈ w.calls)
      (heligible : w.state.eligible c.ticket = true) :
      Step w { w with
        state := (w.state.enter c).1
        calls := w.calls.erase c
        permits := (w.state.enter c).2 :: w.permits }
  | release (w : AdmissionWorld) (p : InFlightPermit) (h : p ∈ w.permits) :
      Step w { w with state := w.state.release p, permits := w.permits.erase p }

inductive Reaches : AdmissionWorld → Prop
  | new : Reaches {}
  | step {w w' : AdmissionWorld} : Reaches w → Step w w' → Reaches w'

def out (w : AdmissionWorld) (repo : String) : ℕ := w.permits.countP (fun p => p.repo = repo)

structure Sound (w : AdmissionWorld) : Prop where
  waiting : w.state.waiting = w.calls
  ordered : w.calls.Pairwise (fun c d => c.ticket < d.ticket)
  drawn : ∀ c ∈ w.calls, c.ticket < w.made
  next : w.state.nextTicket = w.made
  total : w.state.total = w.permits.length
  repos : ∀ repo, w.state.repos repo = w.out repo
  few : w.permits.length ≤ maxInFlight
  single : ∀ repo, w.out repo ≤ maxInFlightPerRepo

lemma sound_new : Sound {} where
  waiting := rfl
  ordered := List.Pairwise.nil
  drawn := List.forall_mem_nil _
  next := rfl
  total := rfl
  repos _ := rfl
  few := Nat.zero_le _
  single _ := Nat.zero_le _

lemma Sound.ticket_inj (h : w.Sound) (hc : c ∈ w.calls) (hd : d ∈ w.calls)
    (heq : c.ticket = d.ticket) : c = d :=
  List.inj_on_of_nodup_map (List.pairwise_map.mpr (h.ordered.imp (fun hlt => hlt.ne))) hc hd heq

lemma removeWaiter_eq_erase {waiting : List Waiter}
    (hinj : ∀ d ∈ waiting, d.ticket = c.ticket → d = c) :
    AdmissionState.removeWaiter waiting c.ticket = waiting.erase c := by
  induction waiting with
  | nil => rfl
  | cons d rest ih =>
    obtain ⟨hd, hrest⟩ := List.forall_mem_cons.mp hinj
    rw [AdmissionState.removeWaiter]
    by_cases heq : d.ticket = c.ticket
    · rw [List.eraseP_cons_of_pos (by simpa using heq), hd heq, List.erase_cons_head]
    · have hne : d ≠ c := fun hdc => heq (congrArg Waiter.ticket hdc)
      rw [List.eraseP_cons_of_neg (by simpa using heq), List.erase_cons_tail (by simpa using hne)]
      exact congrArg (d :: ·) (ih hrest)

lemma Sound.removed (h : w.Sound) (hc : c ∈ w.calls) :
    AdmissionState.removeWaiter w.state.waiting c.ticket = w.calls.erase c := by
  rw [h.waiting]
  exact removeWaiter_eq_erase (fun d hd heq => h.ticket_inj hd hc heq)

lemma Sound.of_eligible (h : w.Sound) (hc : c ∈ w.calls)
    (heligible : w.state.eligible c.ticket = true) :
    w.permits.length < maxInFlight ∧ w.out c.repo = 0 ∧
      ∀ d ∈ w.calls, d.ticket < c.ticket → 0 < w.out d.repo := by
  obtain ⟨htotal, hnext⟩ := Bool.and_eq_true_iff.mp heligible
  obtain ⟨x, hx, hticket⟩ := (Option.any_eq_true _ _).mp hnext
  rw [AdmissionState.nextIn, h.waiting] at hx
  have hmem := List.mem_of_find?_eq_some hx
  obtain rfl := h.ticket_inj hmem hc (of_decide_eq_true hticket)
  obtain ⟨hfits, before, after, hsplit, hbusy⟩ := List.find?_eq_some_iff_append.mp hx
  have hroom : ∀ repo, decide (w.state.repos repo < maxInFlightPerRepo) = true ↔
      w.out repo = 0 := by
    intro repo
    rw [decide_eq_true_iff, h.repos]
    exact Nat.lt_one_iff
  refine ⟨lt_of_eq_of_lt h.total.symm (of_decide_eq_true htotal), (hroom _).mp hfits,
    fun d hd hlt => ?_⟩
  have hordered := h.ordered
  rw [hsplit, List.pairwise_append, List.pairwise_cons] at hordered
  rw [hsplit] at hd
  rcases List.mem_append.mp hd with hd | hd
  · have hfull := hbusy d hd
    by_contra hidle
    rw [(hroom d.repo).mpr (Nat.eq_zero_of_not_pos hidle)] at hfull
    cases hfull
  · rcases List.mem_cons.mp hd with rfl | hd
    · exact absurd hlt (lt_irrefl _)
    · exact absurd hlt (hordered.2.1.1 d hd).not_gt

lemma acquire_sound (h : w.Sound) (repo : String) (hmade : w.made + 1 < 2 ^ 64) :
    Sound { w with
      state := w.state.enqueue repo
      calls := w.calls ++ [{ ticket := w.state.nextTicket, repo }]
      made := w.made + 1 } where
  waiting := congrArg (· ++ [_]) h.waiting
  ordered := by
    rw [List.pairwise_append]
    refine ⟨h.ordered, List.pairwise_singleton _ _, fun c hc d hd => ?_⟩
    obtain rfl := List.mem_singleton.mp hd
    exact lt_of_lt_of_eq (h.drawn c hc) h.next.symm
  drawn c hc := by
    rcases List.mem_append.mp hc with hc | hc
    · exact (h.drawn c hc).trans (Nat.lt_succ_self _)
    · obtain rfl := List.mem_singleton.mp hc
      exact lt_of_eq_of_lt h.next (Nat.lt_succ_self _)
  next := by
    change (w.state.nextTicket + 1) % 2 ^ 64 = w.made + 1
    rw [h.next]
    exact Nat.mod_eq_of_lt hmade
  total := h.total
  repos := h.repos
  few := h.few
  single := h.single

lemma stopped_sound (h : w.Sound) (hc : c ∈ w.calls) :
    Sound { w with state := w.state.giveUp c, calls := w.calls.erase c } where
  waiting := h.removed hc
  ordered := h.ordered.sublist List.erase_sublist
  drawn d hd := h.drawn d (List.mem_of_mem_erase hd)
  next := h.next
  total := h.total
  repos := h.repos
  few := h.few
  single := h.single

lemma out_enter (w : AdmissionWorld) (c : Waiter) (repo : String) :
    out { w with
        state := (w.state.enter c).1
        calls := w.calls.erase c
        permits := (w.state.enter c).2 :: w.permits } repo =
      if c.repo = repo then w.out repo + 1 else w.out repo := by
  have hrepo : (w.state.enter c).2.repo = c.repo := rfl
  rw [out, List.countP_cons, hrepo]
  by_cases heq : c.repo = repo
  · rw [if_pos heq, if_pos (decide_eq_true heq)]
    rfl
  · rw [if_neg heq, if_neg (by simpa using heq)]
    rfl

lemma enter_sound (h : w.Sound) (hc : c ∈ w.calls)
    (heligible : w.state.eligible c.ticket = true) :
    Sound { w with
      state := (w.state.enter c).1
      calls := w.calls.erase c
      permits := (w.state.enter c).2 :: w.permits } := by
  obtain ⟨hroom, hidle, -⟩ := h.of_eligible hc heligible
  refine ⟨h.removed hc, h.ordered.sublist List.erase_sublist,
    fun d hd => h.drawn d (List.mem_of_mem_erase hd), h.next, congrArg (· + 1) h.total,
    fun repo => ?_, hroom, fun repo => ?_⟩
  · rw [out_enter]
    change Function.update w.state.repos c.repo (w.state.repos c.repo + 1) repo = _
    by_cases heq : c.repo = repo
    · rw [if_pos heq, ← heq, Function.update_self, h.repos]
    · rw [if_neg heq, Function.update_of_ne (Ne.symm heq), h.repos]
  · rw [out_enter]
    split
    · rename_i heq
      rw [← heq, hidle]
      exact le_rfl
    · exact h.single repo

lemma out_release (w : AdmissionWorld) {p : InFlightPermit} (hp : p ∈ w.permits) (repo : String) :
    out { w with state := w.state.release p, permits := w.permits.erase p } repo =
      if p.repo = repo then w.out repo - 1 else w.out repo := by
  rw [out, List.countP_erase]
  by_cases heq : p.repo = repo
  · rw [if_pos heq, if_pos ⟨hp, decide_eq_true heq⟩]
    rfl
  · rw [if_neg heq, if_neg (by simpa using fun _ => heq)]
    rfl

lemma release_sound (h : w.Sound) {p : InFlightPermit} (hp : p ∈ w.permits) :
    Sound { w with state := w.state.release p, permits := w.permits.erase p } := by
  refine ⟨h.waiting, h.ordered, h.drawn, h.next, ?_, fun repo => ?_,
    (List.erase_sublist.length_le).trans h.few, fun repo => ?_⟩
  · change w.state.total - 1 = (w.permits.erase p).length
    rw [List.length_erase_of_mem hp, h.total]
  · rw [out_release w hp]
    change Function.update w.state.repos p.repo (w.state.repos p.repo - 1) repo = _
    by_cases heq : p.repo = repo
    · rw [if_pos heq, ← heq, Function.update_self, h.repos]
    · rw [if_neg heq, Function.update_of_ne (Ne.symm heq), h.repos]
  · rw [out_release w hp]
    have hle := h.single repo
    split
    · omega
    · exact hle

lemma Step.made_le (hs : Step w w') : w.made ≤ w'.made := by
  cases hs with
  | acquire => exact Nat.le_succ _
  | _ => exact le_rfl

lemma Step.sound (h : w.Sound) (hs : Step w w') (hmade : w'.made < 2 ^ 64) : w'.Sound := by
  cases hs with
  | acquire repo => exact acquire_sound h repo hmade
  | stopped c hc => exact stopped_sound h hc
  | enter c hc heligible => exact enter_sound h hc heligible
  | release p hp => exact release_sound h hp

lemma Reaches.sound (h : Reaches w) (hmade : w.made < 2 ^ 64) : w.Sound := by
  induction h with
  | new => exact sound_new
  | step _ hs ih => exact hs.sound (ih (hs.made_le.trans_lt hmade)) hmade

/-- Loads are let in fairly: never more than fit, one a repository; a call passes those that came
before it only while their repositories are busy, and someone may enter whenever there is room
and an idle repository is waited for. A call that stopped leaves nothing behind. -/
theorem admission_is_fair (h : Reaches w) (hmade : w.made < 2 ^ 64) :
    w.state.total = w.permits.length ∧ w.permits.length ≤ maxInFlight ∧
    (∀ repo, w.state.repos repo = w.out repo ∧ w.out repo ≤ maxInFlightPerRepo) ∧
    w.state.waiting = w.calls ∧
    (∀ c ∈ w.calls, w.state.eligible c.ticket = true → w.out c.repo = 0 ∧
      ∀ d ∈ w.calls, d.ticket < c.ticket → 0 < w.out d.repo) ∧
    (w.permits.length < maxInFlight → (∃ c ∈ w.calls, w.out c.repo = 0) →
      ∃ c ∈ w.calls, w.state.eligible c.ticket = true) := by
  have hsound := h.sound hmade
  refine ⟨hsound.total, hsound.few, fun repo => ⟨hsound.repos repo, hsound.single repo⟩,
    hsound.waiting, fun c hc heligible => (hsound.of_eligible hc heligible).2, ?_⟩
  rintro hroom ⟨c, hc, hidle⟩
  have hfits : decide (w.state.repos c.repo < maxInFlightPerRepo) = true := by
    rw [hsound.repos, hidle]
    rfl
  have hsome : w.state.nextIn.isSome := by
    rw [AdmissionState.nextIn, hsound.waiting, List.find?_isSome]
    exact ⟨c, hc, hfits⟩
  obtain ⟨d, hd⟩ := Option.isSome_iff_exists.mp hsome
  refine ⟨d, ?_, ?_⟩
  · rw [AdmissionState.nextIn, hsound.waiting] at hd
    exact List.mem_of_find?_eq_some hd
  · rw [AdmissionState.eligible, hd, hsound.total, decide_eq_true hroom]
    exact decide_eq_true rfl

theorem admission_is_fair_overtaken : ∃ w, Reaches w ∧
    w.calls = [⟨1, "r"⟩, ⟨2, "s"⟩] ∧ w.state.eligible 2 = true ∧ w.out "s" = 0 ∧
      (∀ d ∈ w.calls, d.ticket < 2 → 0 < w.out d.repo) ∧
      ∃ c ∈ w.calls, w.state.eligible c.ticket = true := by
  have hcalled := ((Reaches.new.step (.acquire _ "r")).step (.acquire _ "r")).step (.acquire _ "s")
  have hentered := hcalled.step (.enter _ ⟨0, "r"⟩ (by decide) (by decide))
  obtain ⟨-, -, -, -, hpasses, hroom⟩ := admission_is_fair hentered (by decide)
  obtain ⟨hidle, hbusy⟩ := hpasses ⟨2, "s"⟩ (by decide) (by decide)
  exact ⟨_, hentered, rfl, by decide, hidle, hbusy,
    hroom (by decide) ⟨⟨2, "s"⟩, by decide, hidle⟩⟩

end AdmissionWorld

end Nightcrow.Git
