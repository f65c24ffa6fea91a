import Nightcrow.Session.SizeOwner.WellFormed

/-! Histories of ownership calls: who may take the sizing from an absent owner, and how the
generation counts the hand-overs. -/

namespace Nightcrow.Session.SizeOwner

open Nightcrow.Library

inductive Call
  | join (viewer : ViewerId) (tx : ℕ)
  | leave (connection : ℕ)
  | claim (connection : ℕ)
  | expire
deriving DecidableEq, Repr

def Inner.call (s : Inner) (now : ℕ) : Call → Inner × List Verdict
  | .join viewer tx => ((s.join viewer tx now).1, (s.join viewer tx now).2.2)
  | .leave connection => ((s.leave connection now).1, [])
  | .claim connection => s.claim connection now
  | .expire => s.expireAbsentOwner now

def Inner.expired (s : Inner) (now : ℕ) : Call → Inner
  | .leave _ => s
  | _ => (s.expireAbsentOwner now).1

/-- The ownership state with what an observer of the calls remembers: when each viewer's
last connection left, and the number of the call at which each viewer arrived and was last
active, zero for one that is not here or was not active since it arrived. -/
structure History where
  inner : Inner := {}
  calls : ℕ := 0
  leftAt : ViewerId → Option ℕ := fun _ => none
  arrivedAt : ViewerId → ℕ := fun _ => 0
  activeAt : ViewerId → ℕ := fun _ => 0

namespace History

def next (h : History) (call : Call) (now : ℕ) : History :=
  let s := h.inner
  let h := { h with inner := (s.call now call).1, calls := h.calls + 1 }
  match call with
  | .join viewer _ =>
    { h with
      arrivedAt := if s.connectionsOf viewer = 0 then Function.update h.arrivedAt viewer h.calls
        else h.arrivedAt
      activeAt := if (s.expired now call).owner = none
        then Function.update h.activeAt viewer h.calls else h.activeAt }
  | .leave connection =>
    match s.announce.lookup connection with
    | some gone =>
      if s.connectionsOf gone.viewer = 1 then
        { h with
          leftAt := Function.update h.leftAt gone.viewer (some now)
          arrivedAt := Function.update h.arrivedAt gone.viewer 0
          activeAt := Function.update h.activeAt gone.viewer 0 }
      else h
    | none => h
  | .claim connection =>
    match s.announce.lookup connection with
    | some a => { h with activeAt := Function.update h.activeAt a.viewer h.calls }
    | none => h
  | .expire => h

def of (calls : List (Call × ℕ)) : History :=
  calls.foldl (fun h c => h.next c.1 c.2) {}

def IsHeir (h : History) : Option ViewerId → Prop
  | some v => 0 < h.inner.connectionsOf v ∧
      ((0 < h.activeAt v ∧ ∀ w, h.activeAt w ≤ h.activeAt v) ∨
        ((∀ w, h.activeAt w = 0) ∧ ∀ w, h.arrivedAt w ≤ h.arrivedAt v))
  | none => ∀ w, h.inner.connectionsOf w = 0

/-- An absent owner loses the sizing when the grace is over, to the heir, or to the claim of
another viewer. -/
def AbsentOwnerKept (h : History) (call : Call) (now : ℕ) : Prop :=
  ∀ v, h.inner.owner = some v → h.inner.connectionsOf v = 0 →
    ((h.inner.expired now call).owner ≠ some v →
      (∃ t, h.leftAt v = some t ∧ t + releaseGrace ≤ now) ∧
        h.IsHeir (h.inner.expired now call).owner) ∧
    ((h.inner.expired now call).owner = some v → (h.inner.call now call).1.owner ≠ some v →
      ∃ c a, call = .claim c ∧ h.inner.announce.lookup c = some a ∧ a.viewer ≠ v ∧
        (h.inner.call now call).1.owner = some a.viewer)

def handOvers (h : History) (call : Call) (now : ℕ) : ℕ :=
  (if h.inner.owner ≠ (h.inner.expired now call).owner then 1 else 0) +
    if (h.inner.expired now call).owner ≠ (h.inner.call now call).1.owner then 1 else 0

structure Consistent (h : History) : Prop where
  wellFormed : h.inner.WellFormed
  arrival : RankedBy h.arrivedAt h.inner.arrival
  activity : RankedBy h.activeAt h.inner.activity
  arrivedAt_le : ∀ v, h.arrivedAt v ≤ h.calls
  activeAt_le : ∀ v, h.activeAt v ≤ h.calls
  leftAt : ∀ v t, h.inner.owner = some v → h.inner.ownerAbsentSince = some t → h.leftAt v = some t

lemma consistent_empty : ({} : History).Consistent where
  wellFormed := Inner.wellFormed_empty
  arrival := .nil
  activity := .nil
  arrivedAt_le _ := le_rfl
  activeAt_le _ := le_rfl
  leftAt _ _ h := by simp at h

namespace Consistent

variable {h : History}

lemma activity_expired (hc : h.Consistent) (call : Call) (now : ℕ) :
    RankedBy h.activeAt (h.inner.expired now call).activity ∧
      RankedBy h.arrivedAt (h.inner.expired now call).arrival := by
  cases call with
  | leave c => exact ⟨hc.activity, hc.arrival⟩
  | _ =>
    simp only [Inner.expired]
    rcases h.inner.expire_cases now with he | ⟨_, _, _, he⟩ <;> rw [he]
    · exact ⟨hc.activity, hc.arrival⟩
    · exact ⟨by simpa using hc.activity, by simpa using hc.arrival⟩

lemma leftAt_expired (hc : h.Consistent) (now : ℕ) {v : ViewerId} {t : ℕ}
    (ho : (h.inner.expireAbsentOwner now).1.owner = some v)
    (ht : (h.inner.expireAbsentOwner now).1.ownerAbsentSince = some t) : h.leftAt v = some t := by
  rcases h.inner.expire_cases now with he | ⟨_, _, _, he⟩ <;> rw [he] at ho ht
  · exact hc.leftAt v t ho ht
  · simp at ht

lemma update_le {rank : ViewerId → ℕ} {n m : ℕ} (hr : ∀ w, rank w ≤ n) (hm : m ≤ n + 1)
    (v w : ViewerId) : Function.update rank v m w ≤ n + 1 := by
  by_cases he : w = v
  · simpa [he] using hm
  · simpa [he] using (hr w).trans (Nat.le_succ n)

lemma arrival_join (hc : h.Consistent) (v : ViewerId) (tx now : ℕ) :
    RankedBy (h.next (.join v tx) now).arrivedAt
      ((h.inner.expireAbsentOwner now).1.register v tx).arrival := by
  have hw := hc.wellFormed
  have har : RankedBy h.arrivedAt (h.inner.expireAbsentOwner now).1.arrival :=
    (hc.activity_expired (.join v tx) now).2
  simp only [next, Inner.register, Inner.expire_present, Nat.add_eq_right, hw.presence]
  split
  · have hn : v ∉ (h.inner.expireAbsentOwner now).1.arrival := by
      rw [(hw.expire now).arrival_mem, Inner.expire_present, hw.mem_present]
      omega
    have ht := har.touch v (fun w => Nat.lt_succ_of_le (hc.arrivedAt_le w))
    rwa [touch, forget_of_notMem hn] at ht
  · exact har

lemma next_join (hc : h.Consistent) (v : ViewerId) (tx now : ℕ) :
    (h.next (.join v tx) now).Consistent := by
  have hac : RankedBy h.activeAt (h.inner.expireAbsentOwner now).1.activity :=
    (hc.activity_expired (.join v tx) now).1
  have hj : (h.next (.join v tx) now).inner = _ := Inner.join_eq h.inner v tx now
  refine ⟨hc.wellFormed.join v tx now, ?_, ?_, ?_, ?_, ?_⟩
  · have ha := hc.arrival_join v tx now
    rw [hj]
    dsimp only
    split <;> exact ha
  · have hn : (h.next (.join v tx) now).activeAt =
        if (h.inner.expireAbsentOwner now).1.owner = none
        then Function.update h.activeAt v (h.calls + 1) else h.activeAt := rfl
    rw [hj, hn]
    by_cases ho : (h.inner.expireAbsentOwner now).1.owner = none
    · simp only [if_pos ho]
      exact hac.touch v (fun w => Nat.lt_succ_of_le (hc.activeAt_le w))
    · simp only [if_neg ho]
      exact hac
  · intro w
    simp only [next]
    split
    · exact update_le hc.arrivedAt_le le_rfl v w
    · exact (hc.arrivedAt_le w).trans (Nat.le_succ _)
  · intro w
    simp only [next]
    split
    · exact update_le hc.activeAt_le le_rfl v w
    · exact (hc.activeAt_le w).trans (Nat.le_succ _)
  · intro w t ho ht
    rw [hj] at ho ht
    dsimp only at ho ht
    split at ht
    · cases ht
    · rename_i hn
      rw [if_neg hn] at ho
      by_cases hv : (h.inner.expireAbsentOwner now).1.owner = some v
      · simp [Inner.register, hv] at ht
      · exact hc.leftAt_expired now ho (by simpa [Inner.register, hv] using ht)

lemma next_leave (hc : h.Consistent) (c now : ℕ) : (h.next (.leave c) now).Consistent := by
  have hw := hc.wellFormed.leave c now
  have hi : (h.next (.leave c) now).inner = (h.inner.leave c now).1 := by
    simp only [next, Inner.call]
    split
    · split <;> rfl
    · rfl
  rcases hc.wellFormed.leave_cases c now with ⟨hl, he⟩ | ⟨gone, hl, ⟨n, hn, he⟩ | ⟨hn, he⟩⟩
  · have hnext : h.next (.leave c) now = { h with calls := h.calls + 1 } := by
      simp [next, Inner.call, hl, he]
    rw [hnext]
    exact { hc with
      arrivedAt_le := fun w => (hc.arrivedAt_le w).trans (Nat.le_succ _)
      activeAt_le := fun w => (hc.activeAt_le w).trans (Nat.le_succ _) }
  · have hne : h.inner.connectionsOf gone.viewer ≠ 1 := by omega
    have hnext : h.next (.leave c) now =
        { h with inner := (h.inner.leave c now).1, calls := h.calls + 1 } := by
      simp [next, Inner.call, hl, hne]
    rw [hnext]
    rw [he] at hw ⊢
    exact ⟨hw, hc.arrival, hc.activity, fun w => (hc.arrivedAt_le w).trans (Nat.le_succ _),
      fun w => (hc.activeAt_le w).trans (Nat.le_succ _), hc.leftAt⟩
  · have hnext : h.next (.leave c) now =
        { h with
          inner := (h.inner.leave c now).1
          calls := h.calls + 1
          leftAt := Function.update h.leftAt gone.viewer (some now)
          arrivedAt := Function.update h.arrivedAt gone.viewer 0
          activeAt := Function.update h.activeAt gone.viewer 0 } := by
      simp [next, Inner.call, hl, hn]
    rw [hnext]
    rw [he] at hw ⊢
    refine ⟨hw, hc.arrival.forget gone.viewer, hc.activity.forget gone.viewer,
      update_le hc.arrivedAt_le (Nat.zero_le _) _, update_le hc.activeAt_le (Nat.zero_le _) _, ?_⟩
    intro w t ho ht
    have ho : h.inner.owner = some w := ho
    by_cases hv : w = gone.viewer
    · subst hv
      simpa [ho] using ht
    · have hne : h.inner.owner ≠ some gone.viewer := by simpa [ho] using hv
      simpa [hv] using hc.leftAt w t ho (by simpa [hne] using ht)

lemma next_claim (hc : h.Consistent) (c now : ℕ) : (h.next (.claim c) now).Consistent := by
  obtain ⟨hac, har⟩ := hc.activity_expired (.claim c) now
  have hw := hc.wellFormed.claim c now
  have hj := Inner.claim_eq h.inner c now
  cases hl : h.inner.announce.lookup c with
  | none =>
    have hnext : h.next (.claim c) now =
        { h with inner := (h.inner.expireAbsentOwner now).1, calls := h.calls + 1 } := by
      simp [next, Inner.call, hj, hl]
    rw [hnext]
    exact ⟨hc.wellFormed.expire now, har, hac, fun w => (hc.arrivedAt_le w).trans (Nat.le_succ _),
      fun w => (hc.activeAt_le w).trans (Nat.le_succ _), fun v t ho ht => hc.leftAt_expired now ho ht⟩
  | some a =>
    have hnext : h.next (.claim c) now =
        { h with
          inner := (h.inner.claim c now).1
          calls := h.calls + 1
          activeAt := Function.update h.activeAt a.viewer (h.calls + 1) } := by
      simp [next, Inner.call, hl]
    have ha : RankedBy (Function.update h.activeAt a.viewer (h.calls + 1))
        (touch (h.inner.expireAbsentOwner now).1.activity a.viewer) :=
      hac.touch a.viewer (fun w => Nat.lt_succ_of_le (hc.activeAt_le w))
    rw [hnext]
    simp only [hl] at hj
    refine ⟨hw, ?_, ?_, fun w => (hc.arrivedAt_le w).trans (Nat.le_succ _),
      update_le hc.activeAt_le le_rfl _, ?_⟩
    · rw [hj]
      split <;> exact har
    · rw [hj]
      split <;> exact ha
    · intro v t ho ht
      rw [hj] at ho ht
      split at ht
      · rename_i hv
        rw [if_pos hv] at ho
        exact hc.leftAt_expired now ho ht
      · cases ht

lemma next_expire (hc : h.Consistent) (now : ℕ) : (h.next .expire now).Consistent := by
  obtain ⟨hac, har⟩ := hc.activity_expired .expire now
  exact ⟨hc.wellFormed.expire now, har, hac, fun w => (hc.arrivedAt_le w).trans (Nat.le_succ _),
    fun w => (hc.activeAt_le w).trans (Nat.le_succ _), fun v t ho ht => hc.leftAt_expired now ho ht⟩

lemma next (hc : h.Consistent) (call : Call) (now : ℕ) : (h.next call now).Consistent := by
  cases call with
  | join v tx => exact hc.next_join v tx now
  | leave c => exact hc.next_leave c now
  | claim c => exact hc.next_claim c now
  | expire => exact hc.next_expire now

end Consistent

lemma consistent_of (calls : List (Call × ℕ)) : (of calls).Consistent := by
  suffices hs : ∀ h : History, h.Consistent →
      (calls.foldl (fun h c => h.next c.1 c.2) h).Consistent from hs _ consistent_empty
  induction calls with
  | nil => exact fun _ hc => hc
  | cons c calls ih => exact fun h hc => ih _ (hc.next c.1 c.2)

namespace Consistent

variable {h : History}

lemma isHeir_heir (hc : h.Consistent) : h.IsHeir h.inner.heir := by
  have hw := hc.wellFormed
  unfold Inner.heir
  cases ha : h.inner.activity.getLast? with
  | some v =>
    have hv := List.mem_of_getLast? ha
    refine ⟨(hw.mem_present v).mp (hw.activity_mem v hv), .inl ⟨(hc.activity.mem_iff v).mp hv, ?_⟩⟩
    exact fun w => hc.activity.rank_le_getLast ha
  | none =>
    have hz : ∀ w, h.activeAt w = 0 := by
      intro w
      have hn := hc.activity.mem_iff w
      rw [List.getLast?_eq_none_iff.mp ha] at hn
      simpa using hn
    cases hb : h.inner.arrival.getLast? with
    | some v =>
      have hv := (hw.arrival_mem v).mp (List.mem_of_getLast? hb)
      exact ⟨(hw.mem_present v).mp hv, .inr ⟨hz, fun w => hc.arrival.rank_le_getLast hb⟩⟩
    | none =>
      intro w
      have hn := hw.arrival_mem w
      rw [List.getLast?_eq_none_iff.mp hb, hw.mem_present] at hn
      simpa using hn

lemma release_isHeir (hc : h.Consistent) {call : Call} {now : ℕ} {v : ViewerId}
    (ho : h.inner.owner = some v) (hn : (h.inner.expired now call).owner ≠ some v) :
    (∃ t, h.leftAt v = some t ∧ t + releaseGrace ≤ now) ∧
      h.IsHeir (h.inner.expired now call).owner := by
  have hx : (h.inner.expireAbsentOwner now).1.owner ≠ some v →
      (∃ t, h.leftAt v = some t ∧ t + releaseGrace ≤ now) ∧
        h.IsHeir (h.inner.expireAbsentOwner now).1.owner := by
    intro hn
    rcases h.inner.expire_cases now with he | ⟨t, ht, hg, he⟩ <;> rw [he] at hn ⊢
    · exact absurd ho hn
    · exact ⟨⟨t, hc.leftAt v t ho ht, hg⟩, by simpa using hc.isHeir_heir⟩
  cases call with
  | leave c => exact absurd ho hn
  | _ => exact hx hn

lemma claimed_of_lost (hc : h.Consistent) {call : Call} {now : ℕ} {v : ViewerId}
    (he : (h.inner.expired now call).owner = some v)
    (hn : (h.inner.call now call).1.owner ≠ some v) :
    ∃ c a, call = .claim c ∧ h.inner.announce.lookup c = some a ∧ a.viewer ≠ v ∧
      (h.inner.call now call).1.owner = some a.viewer := by
  cases call with
  | expire => exact absurd he hn
  | leave c =>
    have he : h.inner.owner = some v := he
    refine absurd ?_ hn
    rcases hc.wellFormed.leave_cases c now with ⟨-, hl⟩ | ⟨_, -, ⟨_, -, hl⟩ | ⟨-, hl⟩⟩ <;>
      simpa [Inner.call, hl] using he
  | join w tx =>
    have he : (h.inner.expireAbsentOwner now).1.owner = some v := he
    refine absurd ?_ hn
    have hr : ((h.inner.expireAbsentOwner now).1.register w tx).owner = some v := he
    rw [Inner.call, Inner.join_eq]
    simpa [he] using hr
  | claim c =>
    have he : (h.inner.expireAbsentOwner now).1.owner = some v := he
    rw [Inner.call, Inner.claim_eq] at hn ⊢
    cases hl : h.inner.announce.lookup c with
    | none => simp [hl, he] at hn
    | some a =>
      have hv : a.viewer ≠ v := by
        rintro rfl
        simp [hl, he] at hn
        exact hn he
      have hv' : v ≠ a.viewer := hv.symm
      exact ⟨c, a, rfl, hl, hv, by simp [he, hv', Inner.replaceOwner, Inner.advanceGeneration]⟩

end Consistent

lemma expired_generation (s : Inner) (now : ℕ) (call : Call) :
    (s.expired now call).generation =
      s.generation + if s.owner ≠ (s.expired now call).owner then 1 else 0 := by
  have hx : (s.expireAbsentOwner now).1.generation =
      s.generation + if s.owner ≠ (s.expireAbsentOwner now).1.owner then 1 else 0 := by
    rcases s.expire_cases now with he | ⟨_, _, _, he⟩ <;> rw [he]
    · simp
    · rw [Inner.release_owner, Inner.release_generation]
  cases call with
  | leave c => simp [Inner.expired]
  | _ => exact hx

lemma Consistent.call_generation {h : History} (hc : h.Consistent) (call : Call) (now : ℕ) :
    (h.inner.call now call).1.generation = (h.inner.expired now call).generation +
      if (h.inner.expired now call).owner ≠ (h.inner.call now call).1.owner then 1 else 0 := by
  cases call with
  | expire => simp [Inner.call, Inner.expired]
  | leave c =>
    rcases hc.wellFormed.leave_cases c now with ⟨-, hl⟩ | ⟨_, -, ⟨_, -, hl⟩ | ⟨-, hl⟩⟩ <;>
      simp [Inner.call, Inner.expired, hl]
  | join w tx =>
    rw [Inner.call, Inner.join_eq]
    by_cases ho : (h.inner.expireAbsentOwner now).1.owner = none
    · simp [Inner.expired, ho, Inner.replaceOwner, Inner.advanceGeneration, Inner.markActive,
        Inner.register]
    · simp [Inner.expired, ho, Inner.register]
  | claim c =>
    rw [Inner.call, Inner.claim_eq]
    cases hl : h.inner.announce.lookup c with
    | none => simp [Inner.expired]
    | some a =>
      by_cases ho : (h.inner.expireAbsentOwner now).1.owner = some a.viewer
      · simp [Inner.expired, ho, Inner.markActive]
      · simp [Inner.expired, ho, Inner.replaceOwner, Inner.advanceGeneration, Inner.markActive]

lemma Consistent.generation_handOvers {h : History} (hc : h.Consistent) (call : Call) (now : ℕ) :
    (h.inner.call now call).1.generation =
      h.inner.generation + UInt64.ofNat (h.handOvers call now) := by
  rw [hc.call_generation, expired_generation, handOvers]
  split <;> split <;> simp [UInt64.add_assoc]

theorem ownership_of_history (calls : List (Call × ℕ)) :
    (of calls).inner.WellFormed ∧ ∀ call now,
      (of calls).AbsentOwnerKept call now ∧
      ((of calls).inner.call now call).1.generation =
        (of calls).inner.generation + UInt64.ofNat ((of calls).handOvers call now) := by
  have hc := consistent_of calls
  refine ⟨hc.wellFormed, fun call now => ⟨fun v ho _ => ⟨?_, ?_⟩, hc.generation_handOvers call now⟩⟩
  · exact hc.release_isHeir ho
  · exact hc.claimed_of_lost

/-- A join that itself ends the grace of the absent owner hands the sizing over twice. -/
theorem two_handOvers_in_one_join :
    let h := of [(.join (.browser "a") 0, 0), (.leave 0, 0)]
    let s := (h.inner.call releaseGrace (.join (.browser "b") 1)).1
    h.inner.owner = some (.browser "a") ∧ s.owner = some (.browser "b") ∧
      s.generation ≠ h.inner.generation + 1 := by
  decide

end History

end Nightcrow.Session.SizeOwner
