import Nightcrow.Library.Window

namespace Nightcrow.Web

open Nightcrow.Library

-- in nanoseconds
def fromSecs (secs : ℕ) : ℕ := secs * 1000000000

def minute : ℕ := fromSecs 60

def hour : ℕ := fromSecs 3600

def maxPerMinute : ℕ := 2

def maxPerHour : ℕ := 14

structure RateLimiter where
  attempts : List ℕ := []

namespace RateLimiter

def checkAndRecord (r : RateLimiter) (now : ℕ) : Bool × RateLimiter :=
  let attempts := recent hour now r.attempts
  let lastMinute := (recent minute now attempts).length
  let allowed := lastMinute < maxPerMinute ∧ attempts.length < maxPerHour
  let attempts := attempts ++ [now]
  (allowed, { attempts := if maxPerHour < attempts.length then attempts.tail else attempts })

def after (nows : List ℕ) : RateLimiter :=
  nows.foldl (fun r now => (r.checkAndRecord now).2) {}

def allows (earlier : List ℕ) (now : ℕ) : Bool := ((after earlier).checkAndRecord now).1

def allowed (nows : List ℕ) : List ℕ :=
  (nows.foldl (fun (r, log) now =>
    ((r.checkAndRecord now).2, if (r.checkAndRecord now).1 then now :: log else log))
    (({} : RateLimiter), [])).2

variable {nows earlier : List ℕ} {now : ℕ}

lemma after_concat : after (nows ++ [now]) = ((after nows).checkAndRecord now).2 := by
  rw [after, List.foldl_concat]
  rfl

lemma allowed_concat : allowed (nows ++ [now]) =
    if allows nows now then now :: allowed nows else allowed nows := by
  have hfst : ∀ (log : List ℕ) (r : RateLimiter), (nows.foldl (fun (r, log) now =>
      ((r.checkAndRecord now).2, if (r.checkAndRecord now).1 then now :: log else log))
        (r, log)).1 = nows.foldl (fun r now => (r.checkAndRecord now).2) r := by
    induction nows with
    | nil => exact fun _ _ => rfl
    | cons now nows ih => exact fun _ _ => ih _ _
  rw [allowed, List.foldl_concat, allows, after, ← hfst []]
  rfl

lemma after_tail (h : nows.Pairwise (· ≤ ·)) : Tail hour maxPerHour nows (after nows).attempts := by
  induction nows using List.reverseRecOn with
  | nil => exact ⟨[], rfl, Nat.zero_le _, .inr (fun _ _ => List.forall_mem_nil _)⟩
  | append_singleton nows now ih =>
    obtain ⟨hnows, -, hle⟩ := List.pairwise_append.mp h
    rw [after_concat]
    exact (ih hnows).push hnows (fun stamp hs => hle stamp hs now (List.mem_singleton_self _))
      (by decide)

lemma allows_iff (h : (earlier ++ [now]).Pairwise (· ≤ ·)) : allows earlier now = true ↔
    (recent minute now earlier).length < maxPerMinute ∧
      (recent hour now earlier).length < maxPerHour := by
  obtain ⟨hearlier, -, hle⟩ := List.pairwise_append.mp h
  have htail := after_tail hearlier
  have hnow : ∀ stamp ∈ earlier, stamp ≤ now :=
    fun stamp hs => hle stamp hs now (List.mem_singleton_self _)
  rw [← htail.room_iff hearlier hnow (by decide : minute ≤ hour) (by decide),
    ← htail.room_iff hearlier hnow le_rfl le_rfl, ← recent_recent_of_le (by decide : minute ≤ hour)]
  exact decide_eq_true_iff

lemma allowed_sublist : (allowed nows).reverse.Sublist nows := by
  induction nows using List.reverseRecOn with
  | nil => exact List.Sublist.refl _
  | append_singleton nows now ih =>
    rw [allowed_concat]
    split_ifs
    · rw [List.reverse_cons]
      exact ih.append (List.Sublist.refl _)
    · exact ih.trans (List.sublist_append_left _ _)

lemma recent_allowed_le (window : ℕ) :
    (recent window now (allowed nows)).length ≤ (recent window now nows).length := by
  rw [recent, ← List.length_reverse, ← List.filter_reverse]
  exact (allowed_sublist.filter _).length_le

lemma allowed_paced (h : nows.Pairwise (· ≤ ·)) :
    Paced minute maxPerMinute (allowed nows) ∧ Paced hour maxPerHour (allowed nows) := by
  induction nows using List.reverseRecOn with
  | nil => exact ⟨trivial, trivial⟩
  | append_singleton nows now ih =>
    obtain ⟨hminute, hhour⟩ := ih (List.pairwise_append.mp h).1
    rw [allowed_concat]
    split_ifs with hallowed
    · obtain ⟨hm, hh⟩ := (allows_iff h).mp hallowed
      exact ⟨⟨(recent_allowed_le minute).trans_lt hm, hminute⟩,
        (recent_allowed_le hour).trans_lt hh, hhour⟩
    · exact ⟨hminute, hhour⟩

theorem bounded_limiter_decides_as_unbounded (nows : List ℕ) (h : nows.Pairwise (· ≤ ·)) :
    (∀ (earlier later : List ℕ) (now : ℕ), nows = earlier ++ now :: later →
      (allows earlier now = true ↔
        (recent minute now earlier).length < maxPerMinute ∧
          (recent hour now earlier).length < maxPerHour)) ∧
    (∀ start : ℕ,
      (allowed nows).countP (fun now => start ≤ now ∧ now < start + minute) ≤ maxPerMinute ∧
      (allowed nows).countP (fun now => start ≤ now ∧ now < start + hour) ≤ maxPerHour) ∧
    (after nows).attempts.length ≤ maxPerHour := by
  obtain ⟨hminute, hhour⟩ := allowed_paced h
  refine ⟨fun earlier later now hsplit => ?_, fun start => ⟨hminute.within start,
    hhour.within start⟩, ?_⟩
  · subst hsplit
    rw [List.append_cons] at h
    exact allows_iff (List.pairwise_append.mp h).1
  · obtain ⟨_, -, hlength, -⟩ := after_tail h
    exact hlength

theorem bounded_limiter_decides_as_unbounded_flooded :
    allows [0, fromSecs 1, fromSecs 2] (fromSecs 60) = false := by
  have h : ([0, fromSecs 1, fromSecs 2, fromSecs 60] : List ℕ).Pairwise (· ≤ ·) := by decide
  have hroom := (bounded_limiter_decides_as_unbounded _ h).1 [0, fromSecs 1, fromSecs 2] []
    (fromSecs 60) rfl
  rw [Bool.eq_false_iff, ne_eq, hroom]
  decide

end RateLimiter

end Nightcrow.Web
