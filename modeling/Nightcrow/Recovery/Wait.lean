import Mathlib

/-! Waiting for a usage limit to reset, on the wall clock and on a monotonic one. Epochs are
signed 64-bit seconds, instants and durations are nanoseconds. -/

namespace Nightcrow.Recovery

def jumpToleranceSecs : ℤ := 5

def minWaitSecs : ℤ := 15

def maxWaitSecs : ℤ := 8 * 24 * 60 * 60

def resetGraceSecs : ℤ := 30

def backoffBaseSecs : ℤ := 30

def backoffMaxSecs : ℤ := 30 * 60

def fromSecs (secs : ℕ) : ℕ := secs * 1000000000

def asSecs (duration : ℕ) : ℕ := duration / 1000000000

def maxI64 : ℤ := 2 ^ 63 - 1

def minI64 : ℤ := -2 ^ 63

def saturatingAdd (a b : ℤ) : ℤ := max minI64 (min maxI64 (a + b))

def wrapI64 (a : ℤ) : ℤ := a.bmod (2 ^ 64)

def absI64 (a : ℤ) : ℤ := wrapI64 |a|

def clamp (low high a : ℤ) : ℤ := max low (min high a)

lemma wrapI64_eq {a : ℤ} (hlow : minI64 ≤ a) (hhigh : a ≤ maxI64) : wrapI64 a = a := by
  simp only [minI64] at hlow
  simp only [maxI64] at hhigh
  apply Int.bmod_eq_of_le
  · omega
  · omega

structure ResetWait where
  deadlineEpoch : ℤ
  planned : ℕ
  started : ℕ
  lastEpoch : ℤ
  lastMono : ℕ
deriving DecidableEq, Repr

namespace ResetWait

def untilReset (deadlineEpoch nowEpoch : ℤ) (now : ℕ) : ResetWait :=
  let target := saturatingAdd deadlineEpoch resetGraceSecs
  let planned := clamp minWaitSecs maxWaitSecs (wrapI64 (target - nowEpoch))
  { deadlineEpoch := saturatingAdd nowEpoch planned
    planned := fromSecs planned.toNat
    started := now
    lastEpoch := nowEpoch
    lastMono := now }

def backoff (attempt : ℕ) (nowEpoch : ℤ) (now : ℕ) : ResetWait :=
  let shift := min (attempt - 1) 30
  let secs := clamp minWaitSecs backoffMaxSecs (backoffBaseSecs * 2 ^ shift)
  { deadlineEpoch := saturatingAdd nowEpoch secs
    planned := fromSecs secs.toNat
    started := now
    lastEpoch := nowEpoch
    lastMono := now }

variable (w : ResetWait)

def jump (nowEpoch : ℤ) (now : ℕ) : ℤ :=
  wrapI64 (wrapI64 (nowEpoch - w.lastEpoch) - wrapI64 (asSecs (now - w.lastMono)))

def poll (nowEpoch : ℤ) (now : ℕ) : Bool × ResetWait :=
  let jump := w.jump nowEpoch now
  let deadlineEpoch :=
    if jumpToleranceSecs ≤ absI64 jump then saturatingAdd w.deadlineEpoch jump else w.deadlineEpoch
  (decide (deadlineEpoch ≤ nowEpoch) && decide (w.planned ≤ now - w.started),
    { w with deadlineEpoch, lastEpoch := nowEpoch, lastMono := now })

def InStep (nowEpoch : ℤ) (now : ℕ) : Prop := absI64 (w.jump nowEpoch now) < jumpToleranceSecs

def Past (nowEpoch : ℤ) (now : ℕ) : Prop :=
  w.deadlineEpoch ≤ nowEpoch ∧ w.planned ≤ now - w.started

variable {w} {nowEpoch : ℤ} {now : ℕ}

instance : Decidable (w.InStep nowEpoch now) :=
  inferInstanceAs (Decidable (absI64 (w.jump nowEpoch now) < jumpToleranceSecs))

instance : Decidable (w.Past nowEpoch now) := instDecidableAnd

lemma poll_past (hstep : w.InStep nowEpoch now) (hpast : w.Past nowEpoch now) :
    (w.poll nowEpoch now).1 = true := by
  have hkept : ¬ jumpToleranceSecs ≤ absI64 (w.jump nowEpoch now) := not_le.mpr hstep
  simp [poll, hkept, hpast.1, hpast.2]

end ResetWait

end Nightcrow.Recovery
