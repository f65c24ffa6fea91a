import Nightcrow.Recovery.Wait
import Nightcrow.Library.Runs

/-! How long a wait really lasts, whatever the wall clock shows at its polls. -/

namespace Nightcrow.Recovery

open Nightcrow.Library

structure Reading where
  epoch : ℤ
  instant : ℕ
  nonneg : 0 ≤ epoch
  representable : epoch ≤ maxI64

inductive Origin where
  | untilReset (deadlineEpoch : ℤ)
  | backoff (attempt : ℕ)

namespace Origin

def wait (o : Origin) (r : Reading) : ResetWait :=
  match o with
  | .untilReset deadlineEpoch => .untilReset deadlineEpoch r.epoch r.instant
  | .backoff attempt => .backoff attempt r.epoch r.instant

def Fits (o : Origin) (r : Reading) : Prop :=
  match o with
  | .untilReset deadlineEpoch => minI64 ≤ saturatingAdd deadlineEpoch resetGraceSecs - r.epoch
  | .backoff _ => True

def Exact (o : Origin) (r : Reading) : Prop :=
  match o with
  | .untilReset deadlineEpoch =>
    let ahead := saturatingAdd deadlineEpoch resetGraceSecs - r.epoch
    wrapI64 ahead = ahead
  | .backoff attempt => backoffBaseSecs * 2 ^ min (attempt - 1) 30 ≤ maxI64

variable {o : Origin} {r : Reading}

instance decidableFits (o : Origin) (r : Reading) : Decidable (o.Fits r) :=
  match o with
  | .untilReset deadlineEpoch =>
    inferInstanceAs (Decidable (minI64 ≤ saturatingAdd deadlineEpoch resetGraceSecs - r.epoch))
  | .backoff _ => instDecidableTrue

lemma saturatingAdd_le (a b : ℤ) : saturatingAdd a b ≤ maxI64 := by
  rw [saturatingAdd]
  exact max_le (by decide) (min_le_left _ _)

lemma exact_of_fits (h : o.Fits r) : o.Exact r := by
  cases o with
  | untilReset deadlineEpoch =>
    have hle := saturatingAdd_le deadlineEpoch resetGraceSecs
    have hnow := r.nonneg
    exact wrapI64_eq h (by omega)
  | backoff attempt =>
    have hpow : (2 : ℤ) ^ min (attempt - 1) 30 ≤ 2 ^ 30 :=
      pow_le_pow_right₀ (by decide) (min_le_right _ _)
    simp only [Exact, backoffBaseSecs, maxI64]
    omega

end Origin

namespace ResetWait

variable {w : ResetWait} {r : Reading}

def ahead (w : ResetWait) (r : Reading) : ℤ :=
  (r.epoch - w.lastEpoch) - asSecs (r.instant - w.lastMono)

structure Fits (w : ResetWait) (r : Reading) : Prop where
  monotonic : asSecs (r.instant - w.lastMono) ≤ maxI64
  difference : |w.ahead r| ≤ maxI64
  deadline : minI64 ≤ w.deadlineEpoch + w.ahead r

structure Exact (w : ResetWait) (r : Reading) : Prop where
  wall : wrapI64 (r.epoch - w.lastEpoch) = r.epoch - w.lastEpoch
  monotonic : wrapI64 (asSecs (r.instant - w.lastMono)) = asSecs (r.instant - w.lastMono)
  difference : w.jump r.epoch r.instant = w.ahead r
  magnitude : absI64 (w.jump r.epoch r.instant) = |w.ahead r|

/-- What a poll takes off the wait less than the monotonic time since the last one, in
nanoseconds: the part of a second with a jump, and without one what the wall clock fell behind. -/
def loss (w : ResetWait) (r : Reading) : ℤ :=
  if jumpToleranceSecs ≤ |w.ahead r| then ((r.instant - w.lastMono) % 1000000000 : ℕ)
  else (r.instant - w.lastMono : ℕ) - 1000000000 * (r.epoch - w.lastEpoch)

def elapsed (w : ResetWait) : ℕ := w.lastMono - w.started

instance (w : ResetWait) (r : Reading) : Decidable (w.Fits r) :=
  decidable_of_iff (asSecs (r.instant - w.lastMono) ≤ maxI64 ∧ |w.ahead r| ≤ maxI64 ∧
      minI64 ≤ w.deadlineEpoch + w.ahead r)
    ⟨fun ⟨h₁, h₂, h₃⟩ => ⟨h₁, h₂, h₃⟩, fun ⟨h₁, h₂, h₃⟩ => ⟨h₁, h₂, h₃⟩⟩

lemma exact_of_fits (hlast : 0 ≤ w.lastEpoch ∧ w.lastEpoch ≤ maxI64) (h : w.Fits r) :
    w.Exact r := by
  have hnow := r.nonneg
  have hmax := r.representable
  have hneg : minI64 = -maxI64 - 1 := by decide
  have hwall : wrapI64 (r.epoch - w.lastEpoch) = r.epoch - w.lastEpoch :=
    wrapI64_eq (by omega) (by omega)
  have hmono : wrapI64 (asSecs (r.instant - w.lastMono)) = asSecs (r.instant - w.lastMono) := by
    have hzero : (0 : ℤ) ≤ asSecs (r.instant - w.lastMono) := Int.natCast_nonneg _
    refine wrapI64_eq ?_ h.monotonic
    simp only [minI64]
    omega
  have hjump : w.jump r.epoch r.instant = w.ahead r := by
    obtain ⟨hlow, hhigh⟩ := abs_le.mp h.difference
    rw [jump, hwall, hmono]
    exact wrapI64_eq (by rw [← ahead]; omega) hhigh
  refine ⟨hwall, hmono, hjump, ?_⟩
  rw [hjump, absI64]
  refine wrapI64_eq ?_ h.difference
  have := abs_nonneg (w.ahead r)
  simp only [minI64]
  omega

end ResetWait

structure Timed where
  wait : ResetWait
  fired : Bool
  lost : ℤ

namespace Timed

def start (o : Origin) (r : Reading) : Timed := ⟨o.wait r, false, 0⟩

def step (t : Timed) (r : Reading) : Option Timed :=
  if t.wait.lastMono ≤ r.instant then
    some {
      wait := (t.wait.poll r.epoch r.instant).2
      fired := (t.wait.poll r.epoch r.instant).1
      lost := t.lost + t.wait.loss r }
  else none

def Fits (t : Timed) (r : Reading) : Prop := t.wait.Fits r

def Within (slack : ℕ) (t : Timed) (r : Reading) : Prop := t.lost + t.wait.loss r ≤ slack

instance decidableFits (t : Timed) (r : Reading) : Decidable (t.Fits r) :=
  inferInstanceAs (Decidable (t.wait.Fits r))

instance (slack : ℕ) (t : Timed) (r : Reading) : Decidable (Within slack t r) :=
  inferInstanceAs (Decidable (t.lost + t.wait.loss r ≤ slack))

structure Paced (t : Timed) : Prop where
  started : t.wait.started ≤ t.wait.lastMono
  reading : 0 ≤ t.wait.lastEpoch ∧ t.wait.lastEpoch ≤ maxI64
  remaining : 1000000000 * (t.wait.deadlineEpoch - t.wait.lastEpoch) ≤
    t.wait.planned - t.wait.elapsed + t.lost
  answer : t.fired = true → t.wait.planned ≤ t.wait.elapsed
  due : t.fired = false → t.wait.elapsed < t.wait.planned ∨
    t.wait.lastEpoch < t.wait.deadlineEpoch

variable {o : Origin} {r : Reading} {s t : Timed} {slack : ℕ}

lemma fromSecs_toNat {a : ℤ} (h : 0 ≤ a) : (fromSecs a.toNat : ℤ) = 1000000000 * a := by
  simp only [fromSecs]
  omega

lemma clamp_le {low high a : ℤ} (h : low ≤ high) : low ≤ clamp low high a ∧ clamp low high a ≤ high :=
  ⟨le_max_left _ _, max_le h (min_le_left _ _)⟩

lemma paced_of_secs {secs : ℤ} {w : ResetWait} (hsecs : 0 < secs) (hw : w =
    ⟨saturatingAdd r.epoch secs, fromSecs secs.toNat, r.instant, r.epoch, r.instant⟩) :
    Paced ⟨w, false, 0⟩ := by
  have hadd : saturatingAdd r.epoch secs ≤ r.epoch + secs := by
    have := r.nonneg
    have : minI64 ≤ 0 := by decide
    exact max_le (by omega) (min_le_right _ _)
  subst hw
  have hplanned := fromSecs_toNat hsecs.le
  refine ⟨le_rfl, ⟨r.nonneg, r.representable⟩, ?_, fun h => (by cases h), fun _ => .inl ?_⟩
  · simp only [ResetWait.elapsed, Nat.sub_self]
    omega
  · simp only [ResetWait.elapsed, Nat.sub_self]
    omega

lemma start_paced (o : Origin) (r : Reading) : (start o r).Paced := by
  cases o with
  | untilReset deadlineEpoch =>
    have hlow := (clamp_le (a := wrapI64 (saturatingAdd deadlineEpoch resetGraceSecs - r.epoch))
      (show minWaitSecs ≤ maxWaitSecs by decide)).1
    exact paced_of_secs (lt_of_lt_of_le (by decide) hlow) rfl
  | backoff attempt =>
    have hlow := (clamp_le (a := backoffBaseSecs * 2 ^ min (attempt - 1) 30)
      (show minWaitSecs ≤ backoffMaxSecs by decide)).1
    exact paced_of_secs (lt_of_lt_of_le (by decide) hlow) rfl

lemma step_spec (h : s.step r = some t) : s.wait.lastMono ≤ r.instant ∧
    t = ⟨(s.wait.poll r.epoch r.instant).2, (s.wait.poll r.epoch r.instant).1,
      s.lost + s.wait.loss r⟩ := by
  rw [step] at h
  split at h
  · rename_i hle
    exact ⟨hle, (Option.some.inj h).symm⟩
  · cases h

lemma remaining_poll (he : s.wait.Exact r) (hf : s.wait.Fits r) :
    1000000000 * ((s.wait.poll r.epoch r.instant).2.deadlineEpoch - r.epoch) ≤
      1000000000 * (s.wait.deadlineEpoch - s.wait.lastEpoch) -
        (r.instant - s.wait.lastMono : ℕ) + s.wait.loss r := by
  simp only [ResetWait.poll, ResetWait.loss]
  rw [he.magnitude, he.difference]
  split
  · have hadd : saturatingAdd s.wait.deadlineEpoch (s.wait.ahead r) ≤
        s.wait.deadlineEpoch + s.wait.ahead r := max_le hf.deadline (min_le_right _ _)
    have hsecs := Nat.div_add_mod (r.instant - s.wait.lastMono) 1000000000
    simp only [ResetWait.ahead, asSecs] at hadd ⊢
    omega
  · omega

lemma step_paced (hp : s.Paced) (hf : s.Fits r) (h : s.step r = some t) : t.Paced := by
  obtain ⟨hle, rfl⟩ := step_spec h
  have he := ResetWait.exact_of_fits hp.reading hf
  have hremaining := remaining_poll he hf
  have hstarted := hp.started
  have hbefore := hp.remaining
  have helapsed : (r.instant - s.wait.started : ℕ) =
      s.wait.elapsed + (r.instant - s.wait.lastMono) := by
    rw [ResetWait.elapsed]
    omega
  refine ⟨hstarted.trans hle, ⟨r.nonneg, r.representable⟩, ?_, fun hfired => ?_, fun hnot => ?_⟩
  · have hnew : (s.wait.poll r.epoch r.instant).2.elapsed = r.instant - s.wait.started := rfl
    have hplanned : (s.wait.poll r.epoch r.instant).2.planned = s.wait.planned := rfl
    have hlast : (s.wait.poll r.epoch r.instant).2.lastEpoch = r.epoch := rfl
    dsimp only
    rw [hnew, hplanned, hlast, helapsed]
    push_cast
    omega
  · have hboth := Bool.and_eq_true_iff.mp hfired
    exact of_decide_eq_true hboth.2
  · rcases Bool.and_eq_false_iff.mp hnot with hwall | hmono
    · exact .inr (not_le.mp (of_decide_eq_false hwall))
    · exact .inl (not_le.mp (of_decide_eq_false hmono))

lemma along_exact {s : Timed} {rs : List Reading} (hp : s.Paced) (hf : Along step Fits s rs) :
    Along step (fun t r => t.wait.Exact r) s rs := by
  induction rs generalizing s with
  | nil => trivial
  | cons r rs ih =>
    exact ⟨ResetWait.exact_of_fits hp.reading hf.1,
      fun t ht => ih (step_paced hp hf.1 ht) (hf.2 t ht)⟩

lemma run_within {rs : List Reading} (hs : s.lost ≤ slack)
    (hw : Along step (Within slack) s rs) (hrun : run step s rs = some t) : t.lost ≤ slack := by
  refine run_guarded (p := fun t : Timed => t.lost ≤ (slack : ℤ)) (fun u r v _ hr h => ?_) hs hw hrun
  obtain ⟨-, rfl⟩ := step_spec h
  exact hr

/-- A wait does not end before its planned time, and where its polls lose no more than the slack
it ends by a poll made that much later. -/
theorem waits_in_real_time (o : Origin) (r : Reading) (rs : List Reading) (slack : ℕ) (t : Timed)
    (hmade : o.Fits r) (hfits : Along step Fits (start o r) rs)
    (hwithin : Along step (Within slack) (start o r) rs)
    (hrun : run step (start o r) rs = some t) :
    (o.Exact r ∧ Along step (fun t r => t.wait.Exact r) (start o r) rs) ∧
      (t.fired = true → t.wait.planned ≤ t.wait.elapsed) ∧
      (t.wait.planned + slack ≤ t.wait.elapsed → t.fired = true) := by
  have hpaced : t.Paced :=
    run_guarded (fun _ _ _ hp hf hs => step_paced hp hf hs) (start_paced o r) hfits hrun
  have hlost : t.lost ≤ slack := run_within (Int.natCast_nonneg _) hwithin hrun
  refine ⟨⟨Origin.exact_of_fits hmade, along_exact (start_paced o r) hfits⟩, hpaced.answer,
    fun hlate => ?_⟩
  by_contra hnot
  have hremaining := hpaced.remaining
  rcases hpaced.due (Bool.not_eq_true _ ▸ hnot) with h | h
  · omega
  · omega

def setBack : List Reading :=
  [⟨1767225660, 60000000000, by decide, by decide⟩,
    ⟨1767139260, 61500000000, by decide, by decide⟩,
    ⟨1767139829, 631000000000, by decide, by decide⟩]

def atMidnight : Reading := ⟨1767225600, 0, by decide, by decide⟩

theorem waits_in_real_time_set_back :
    ∃ t, run step (start (.untilReset 1767226200) atMidnight) setBack = some t ∧
      t.wait.planned + 1000000000 ≤ t.wait.elapsed ∧ t.fired = true := by
  refine ⟨_, rfl, by decide +kernel, ?_⟩
  exact (waits_in_real_time (.untilReset 1767226200) atMidnight setBack 1000000000 _
    (by decide +kernel) (by decide +kernel) (by decide +kernel) rfl).2.2 (by decide +kernel)

def frozen (n : ℕ) : List Reading :=
  (List.range n).map (fun i => ⟨1767225600, (i + 1) * 1000000000, by decide, by decide⟩)

def tenMinutes : ResetWait :=
  ⟨1767226230, 630000000000, 0, 1767225600, 0⟩

lemma frozen_never_fires (n : ℕ) : ∃ t, run step (start (.untilReset 1767226200) atMidnight)
    (frozen n) = some t ∧ t.wait = { tenMinutes with lastMono := n * 1000000000 } ∧
      t.fired = false := by
  induction n with
  | zero => exact ⟨_, rfl, by decide, rfl⟩
  | succ n ih =>
    obtain ⟨t, hrun, hwait, hfired⟩ := ih
    have hlast : frozen (n + 1) = frozen n ++
        [⟨1767225600, (n + 1) * 1000000000, by decide, by decide⟩] := by
      rw [frozen, List.range_succ, List.map_append]
      rfl
    have hsecond : asSecs ((n + 1) * 1000000000 - n * 1000000000) = 1 := by
      simp only [asSecs]
      omega
    have hpoll : t.wait.poll 1767225600 ((n + 1) * 1000000000) =
        (false, { tenMinutes with lastMono := (n + 1) * 1000000000 }) := by
      rw [hwait, ResetWait.poll]
      simp only [ResetWait.jump, hsecond]
      rfl
    have hstep : t.step ⟨1767225600, (n + 1) * 1000000000, by decide, by decide⟩ =
        some ⟨{ tenMinutes with lastMono := (n + 1) * 1000000000 }, false,
          t.lost + t.wait.loss ⟨1767225600, (n + 1) * 1000000000, by decide, by decide⟩⟩ := by
      have hle : t.wait.lastMono ≤ (n + 1) * 1000000000 := by
        rw [hwait]
        dsimp only
        omega
      rw [step, if_pos hle, hpoll]
    rw [hlast]
    exact ⟨_, run_concat.mpr ⟨t, hrun, hstep⟩, rfl, rfl⟩

/-- A wall clock that falls behind by less than the tolerance at every poll holds a wait up for
as long as it does. -/
theorem no_bound_on_lateness : ¬ ∃ bound : ℕ, ∀ (rs : List Reading) (t : Timed),
    run step (start (.untilReset 1767226200) atMidnight) rs = some t →
      t.wait.planned + bound ≤ t.wait.elapsed → t.fired = true := by
  rintro ⟨bound, h⟩
  obtain ⟨t, hrun, hwait, hfired⟩ := frozen_never_fires (630 + bound)
  have hlate : t.wait.planned + bound ≤ t.wait.elapsed := by
    simp only [hwait, ResetWait.elapsed, tenMinutes]
    omega
  rw [h _ _ hrun hlate] at hfired
  cases hfired

end Timed

end Nightcrow.Recovery
