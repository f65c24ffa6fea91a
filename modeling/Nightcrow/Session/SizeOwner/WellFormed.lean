import Nightcrow.Library.Recency
import Nightcrow.Session.SizeOwner.State

namespace Nightcrow.Session.SizeOwner

open Nightcrow.Library

namespace Inner

def connectionsOf (s : Inner) (v : ViewerId) : ℕ :=
  Table.count s.announce (fun a => a.viewer = v)

structure WellFormed (s : Inner) : Prop where
  presence : ∀ v, (s.present.lookup v).getD 0 = s.connectionsOf v
  present_pos : ∀ v n, s.present.lookup v = some n → 0 < n
  arrival_nodup : s.arrival.Nodup
  arrival_mem : ∀ v, v ∈ s.arrival ↔ v ∈ s.present
  activity_nodup : s.activity.Nodup
  activity_mem : ∀ v ∈ s.activity, v ∈ s.present
  owner_absent : ∀ v, s.owner = some v → (v ∉ s.present ↔ s.ownerAbsentSince ≠ none)
  unowned : s.owner = none → s.ownerAbsentSince = none
  connection_lt : ∀ c ∈ s.announce, c < s.nextConnection

variable {s : Inner}

lemma WellFormed.mem_present (h : s.WellFormed) (v : ViewerId) :
    v ∈ s.present ↔ 0 < s.connectionsOf v := by
  rw [← h.presence, ← AList.lookup_isSome]
  cases hl : s.present.lookup v with
  | none => simp
  | some n => simpa using h.present_pos v n hl

lemma WellFormed.next_notMem (h : s.WellFormed) : s.nextConnection ∉ s.announce :=
  fun hm => (h.connection_lt _ hm).ne rfl

lemma WellFormed.viewer_present (h : s.WellFormed) {c : ℕ} {a : Announce}
    (ha : s.announce.lookup c = some a) : a.viewer ∈ s.present :=
  (h.mem_present _).mpr (Table.count_pos ha (by simp))

lemma wellFormed_empty : ({} : Inner).WellFormed where
  presence _ := rfl
  present_pos _ _ h := by simp at h
  arrival_nodup := .nil
  arrival_mem _ := by simp
  activity_nodup := .nil
  activity_mem _ h := by simp at h
  owner_absent _ h := by simp at h
  unowned _ := rfl
  connection_lt c h := (AList.notMem_empty c h).elim

lemma heir_mem (h : s.WellFormed) {v : ViewerId} (hv : s.heir = some v) : v ∈ s.present := by
  unfold heir at hv
  cases ha : s.activity.getLast? with
  | some w =>
    obtain rfl : w = v := by simpa [ha] using hv
    exact h.activity_mem _ (List.mem_of_getLast? ha)
  | none =>
    have hw : s.arrival.getLast? = some v := by simpa [ha] using hv
    exact (h.arrival_mem _).mp (List.mem_of_getLast? hw)

lemma expire_cases (s : Inner) (now : ℕ) :
    s.expireAbsentOwner now = (s, []) ∨
    ∃ since, s.ownerAbsentSince = some since ∧ since + releaseGrace ≤ now ∧
      s.expireAbsentOwner now = (s.release, s.release.tellOwner) := by
  unfold expireAbsentOwner
  cases hs : s.ownerAbsentSince with
  | none => exact .inl rfl
  | some since =>
    by_cases hg : now - since < releaseGrace
    · exact .inl (if_pos hg)
    · have : 0 < releaseGrace := by decide
      exact .inr ⟨since, rfl, by omega, if_neg hg⟩

section release

variable (s : Inner)

@[simp] lemma release_owner : s.release.owner = s.heir := by
  unfold release; dsimp only; split <;> rfl

@[simp] lemma release_absent : s.release.ownerAbsentSince = none := by
  unfold release; dsimp only; split <;> rfl

@[simp] lemma release_present : s.release.present = s.present := by
  unfold release; dsimp only; split <;> rfl

@[simp] lemma release_arrival : s.release.arrival = s.arrival := by
  unfold release; dsimp only; split <;> rfl

@[simp] lemma release_activity : s.release.activity = s.activity := by
  unfold release; dsimp only; split <;> rfl

@[simp] lemma release_announce : s.release.announce = s.announce := by
  unfold release; dsimp only; split <;> rfl

@[simp] lemma release_next : s.release.nextConnection = s.nextConnection := by
  unfold release; dsimp only; split <;> rfl

lemma release_generation :
    s.release.generation = s.generation + if s.owner ≠ s.heir then 1 else 0 := by
  unfold release; dsimp only; split <;> simp_all [advanceGeneration]

end release

lemma expire_announce (s : Inner) (now : ℕ) :
    (s.expireAbsentOwner now).1.announce = s.announce := by
  rcases s.expire_cases now with he | ⟨_, _, _, he⟩ <;> simp [he]

lemma expire_present (s : Inner) (now : ℕ) :
    (s.expireAbsentOwner now).1.present = s.present := by
  rcases s.expire_cases now with he | ⟨_, _, _, he⟩ <;> simp [he]

lemma join_eq (s : Inner) (v : ViewerId) (tx now : ℕ) :
    (s.join v tx now).1 =
      let r := (s.expireAbsentOwner now).1.register v tx
      if (s.expireAbsentOwner now).1.owner = none then ((r.markActive v).replaceOwner v).1 else r := by
  have ho : ((s.expireAbsentOwner now).1.register v tx).owner = (s.expireAbsentOwner now).1.owner := rfl
  simp only [Inner.join, ho]
  split <;> rfl

lemma claim_eq (s : Inner) (c now : ℕ) :
    (s.claim c now).1 =
      let e := (s.expireAbsentOwner now).1
      match s.announce.lookup c with
      | none => e
      | some a => if e.owner = some a.viewer then e.markActive a.viewer
          else ((e.markActive a.viewer).replaceOwner a.viewer).1 := by
  have ho : ∀ v, ((s.expireAbsentOwner now).1.markActive v).owner = (s.expireAbsentOwner now).1.owner :=
    fun _ => rfl
  simp only [Inner.claim, expire_announce]
  cases s.announce.lookup c with
  | none => rfl
  | some a =>
    simp only [ho]
    split <;> rfl

namespace WellFormed

lemma expire (h : s.WellFormed) (now : ℕ) : (s.expireAbsentOwner now).1.WellFormed := by
  rcases s.expire_cases now with he | ⟨since, -, -, he⟩
  · rw [he]
    exact h
  rw [he]
  refine ⟨?_, ?_, ?_, ?_, ?_, ?_, ?_, ?_, ?_⟩
  · simpa [connectionsOf] using h.presence
  · simpa using h.present_pos
  · simpa using h.arrival_nodup
  · simpa using h.arrival_mem
  · simpa using h.activity_nodup
  · simpa using h.activity_mem
  · intro v hv
    have hm := heir_mem h (by simpa using hv)
    simpa using hm
  · simp
  · simpa using h.connection_lt

lemma markActive (h : s.WellFormed) {v : ViewerId} (hv : v ∈ s.present) :
    (s.markActive v).WellFormed :=
  { h with
    activity_nodup := nodup_touch h.activity_nodup v
    activity_mem := by
      intro w hw
      rcases mem_touch.mp hw with hw | rfl
      · exact h.activity_mem w hw
      · exact hv }

lemma replaceOwner (h : s.WellFormed) {v : ViewerId} (hv : v ∈ s.present) :
    (s.replaceOwner v).1.WellFormed :=
  { h with
    owner_absent := by
      intro w hw
      obtain rfl : v = w := by simpa [Inner.replaceOwner, advanceGeneration] using hw
      simp [Inner.replaceOwner, advanceGeneration, hv]
    unowned := by simp [Inner.replaceOwner, advanceGeneration] }

lemma connectionsOf_register (h : s.WellFormed) (v w : ViewerId) (tx : ℕ) :
    (s.register v tx).connectionsOf w = s.connectionsOf w + if v = w then 1 else 0 := by
  have hc := Table.count_insert (b := Announce.mk v tx) h.next_notMem (fun a => a.viewer = w)
  simpa [connectionsOf, Inner.register] using hc

lemma register (h : s.WellFormed) (v : ViewerId) (tx : ℕ) : (s.register v tx).WellFormed := by
  have hp : ∀ w, w ∈ (s.register v tx).present ↔ w = v ∨ w ∈ s.present := by
    simp [Inner.register]
  have hz : v ∈ s.present ↔ (s.present.lookup v).getD 0 ≠ 0 := by
    rw [h.mem_present, h.presence, Nat.pos_iff_ne_zero]
  refine ⟨?_, ?_, ?_, ?_, h.activity_nodup, ?_, ?_, ?_, ?_⟩
  · intro w
    rw [h.connectionsOf_register]
    by_cases hw : w = v
    · subst hw
      simp [Inner.register, h.presence]
    · have hw' : v ≠ w := fun he => hw he.symm
      simp [Inner.register, AList.lookup_insert_ne hw, hw', h.presence]
  · intro w n hn
    by_cases hw : w = v
    · subst hw
      obtain rfl : _ = n := by simpa [Inner.register] using hn
      exact Nat.succ_pos _
    · rw [show (s.register v tx).present = s.present.insert v _ from rfl,
        AList.lookup_insert_ne hw] at hn
      exact h.present_pos w n hn
  · by_cases hv : v ∈ s.present
    · simpa [Inner.register, hz.mp hv] using h.arrival_nodup
    · have ha : v ∉ s.arrival := (h.arrival_mem v).not.mpr hv
      have h0 : (s.present.lookup v).getD 0 = 0 := by simpa using hz.not.mp hv
      simp only [Inner.register, h0, if_true, List.nodup_append, h.arrival_nodup, true_and]
      refine ⟨List.nodup_singleton v, fun a hm b hb he => ha ?_⟩
      rwa [← List.mem_singleton.mp hb, ← he]
  · intro w
    rw [hp, ← h.arrival_mem]
    by_cases hv : v ∈ s.present
    · simp only [Inner.register, Nat.add_eq_right, hz.mp hv, if_false]
      exact ⟨.inr, fun hw => hw.elim (fun he => he ▸ (h.arrival_mem v).mpr hv) id⟩
    · have h0 : (s.present.lookup v).getD 0 = 0 := by simpa using hz.not.mp hv
      simp [Inner.register, h0, or_comm]
  · intro w hw
    exact (hp w).mpr (.inr (h.activity_mem w hw))
  · intro w hw
    have ho : s.owner = some w := hw
    rw [hp, not_or, h.owner_absent w ho]
    by_cases hv : w = v
    · simp [Inner.register, hv ▸ ho, hv]
    · have hne : s.owner ≠ some v := by simp [ho, hv]
      simp [Inner.register, hne, hv]
  · intro ho
    have ho' : s.owner = none := ho
    simp [Inner.register, ho', h.unowned ho']
  · intro c hc
    rcases (AList.mem_insert _).mp hc with rfl | hc
    · exact Nat.lt_succ_self _
    · exact (h.connection_lt c hc).trans (Nat.lt_succ_self _)

lemma join (h : s.WellFormed) (v : ViewerId) (tx now : ℕ) : (s.join v tx now).1.WellFormed := by
  have hr := (h.expire now).register v tx
  have hv : v ∈ ((s.expireAbsentOwner now).1.register v tx).present := by simp [Inner.register]
  rw [join_eq]
  dsimp only
  split
  · exact (hr.markActive hv).replaceOwner hv
  · exact hr

lemma claim (h : s.WellFormed) (c now : ℕ) : (s.claim c now).1.WellFormed := by
  have he := h.expire now
  rw [claim_eq]
  cases ha : s.announce.lookup c with
  | none => exact he
  | some a =>
    have hv := he.viewer_present (c := c) (by rw [expire_announce, ha])
    dsimp only
    split
    · exact he.markActive hv
    · exact (he.markActive hv).replaceOwner hv

lemma leave_cases (h : s.WellFormed) (c now : ℕ) :
    (s.announce.lookup c = none ∧ s.leave c now = (s, false)) ∨
    ∃ gone, s.announce.lookup c = some gone ∧
      ((∃ n, s.connectionsOf gone.viewer = n + 2 ∧
        s.leave c now = ({ s with
          announce := s.announce.erase c
          present := s.present.insert gone.viewer (n + 1) }, false)) ∨
      (s.connectionsOf gone.viewer = 1 ∧
        s.leave c now = ({ s with
          announce := s.announce.erase c
          present := s.present.erase gone.viewer
          arrival := forget s.arrival gone.viewer
          activity := forget s.activity gone.viewer
          ownerAbsentSince :=
            if s.owner = some gone.viewer then some now else s.ownerAbsentSince },
          decide (s.owner = some gone.viewer)))) := by
  unfold Inner.leave
  cases hl : s.announce.lookup c with
  | none => exact .inl ⟨rfl, rfl⟩
  | some gone =>
    refine .inr ⟨gone, rfl, ?_⟩
    have hp := h.presence gone.viewer
    obtain ⟨n, hn⟩ : ∃ n, s.present.lookup gone.viewer = some n :=
      Option.isSome_iff_exists.mp (AList.lookup_isSome.mpr (h.viewer_present hl))
    have hpos := h.present_pos _ _ hn
    simp only [hn, Option.getD_some] at hp
    obtain _ | _ | n := n
    · exact absurd hpos (lt_irrefl 0)
    · refine .inr ⟨hp.symm, ?_⟩
      by_cases ho : s.owner = some gone.viewer <;> simp [hn, ho, forget]
    · exact .inl ⟨n, hp.symm, by simp [hn]⟩

lemma connectionsOf_erase {c : ℕ} {a : Announce} (ha : s.announce.lookup c = some a)
    (w : ViewerId) :
    Table.count (s.announce.erase c) (fun b => b.viewer = w) =
      s.connectionsOf w - if a.viewer = w then 1 else 0 := by
  have hc := Table.count_erase ha (fun b => b.viewer = w)
  simp only [connectionsOf, hc, decide_eq_true_eq, Nat.add_sub_cancel]

lemma leave (h : s.WellFormed) (c now : ℕ) : (s.leave c now).1.WellFormed := by
  rcases h.leave_cases c now with ⟨-, he⟩ | ⟨gone, hg, ⟨n, hn, he⟩ | ⟨hn, he⟩⟩
  · exact he ▸ h
  · have hv := h.viewer_present hg
    have hm : ∀ w, w ∈ s.present.insert gone.viewer (n + 1) ↔ w ∈ s.present := by
      intro w
      rw [AList.mem_insert]
      exact ⟨fun hw => hw.elim (fun e => e ▸ hv) id, .inr⟩
    rw [he]
    refine ⟨fun w => ?_, fun w k hk => ?_, h.arrival_nodup, fun w => ?_, h.activity_nodup,
      fun w hw => (hm w).mpr (h.activity_mem w hw), fun w hw => ?_, h.unowned, fun d hd => ?_⟩
    · rw [connectionsOf, connectionsOf_erase hg]
      by_cases hw : w = gone.viewer
      · subst hw
        simp [hn]
      · have hw' : gone.viewer ≠ w := fun e => hw e.symm
        rw [AList.lookup_insert_ne hw, if_neg hw', Nat.sub_zero]
        exact h.presence w
    · by_cases hw : w = gone.viewer
      · subst hw
        obtain rfl : n + 1 = k := by simpa using hk
        exact Nat.succ_pos n
      · exact h.present_pos w k (by rwa [AList.lookup_insert_ne hw] at hk)
    · exact (h.arrival_mem w).trans (hm w).symm
    · exact (hm w).not.trans (h.owner_absent w hw)
    · exact h.connection_lt d (AList.mem_erase.mp hd).2
  · have hm : ∀ w, w ∈ s.present.erase gone.viewer ↔ w ≠ gone.viewer ∧ w ∈ s.present :=
      fun w => AList.mem_erase
    rw [he]
    refine ⟨fun w => ?_, fun w k hk => ?_, nodup_forget h.arrival_nodup _, fun w => ?_,
      nodup_forget h.activity_nodup _, fun w hw => ?_, fun w hw => ?_, fun ho => ?_, fun d hd => ?_⟩
    · rw [connectionsOf, connectionsOf_erase hg]
      by_cases hw : w = gone.viewer
      · subst hw
        simp [hn]
      · have hw' : gone.viewer ≠ w := fun e => hw e.symm
        rw [AList.lookup_erase_ne hw, if_neg hw', Nat.sub_zero]
        exact h.presence w
    · by_cases hw : w = gone.viewer
      · subst hw
        rw [show AList.lookup gone.viewer (s.present.erase gone.viewer) = none from
          AList.lookup_erase _ _] at hk
        cases hk
      · exact h.present_pos w k (by rwa [AList.lookup_erase_ne hw] at hk)
    · rw [mem_forget, hm, h.arrival_mem, and_comm]
    · obtain ⟨hw, hne⟩ := mem_forget.mp hw
      exact (hm w).mpr ⟨hne, h.activity_mem w hw⟩
    · have ho : s.owner = some w := hw
      rw [hm]
      by_cases hv : w = gone.viewer
      · simp [ho, hv]
      · simpa [ho, hv] using h.owner_absent w ho
    · have ho' : s.owner = none := ho
      simp [ho', h.unowned ho']
    · exact h.connection_lt d (AList.mem_erase.mp hd).2

end WellFormed

end Inner

end Nightcrow.Session.SizeOwner
