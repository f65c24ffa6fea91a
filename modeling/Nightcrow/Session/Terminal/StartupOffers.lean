import Nightcrow.Session.Terminal.StartupSlots

/-! The startup batch is handed over at most once, and until then no client waits without an
offer. -/

namespace Nightcrow.Session.Terminal.Startup.Hub

open Nightcrow.Library

variable {config : Config} {h t : Hub}

def Underway (h : Hub) : Prop := (∃ thread claim, h.claims thread = some claim) ∨ 0 < h.handed

def Offered (h : Hub) : Prop :=
  h.stopped = true ∨ h.Underway ∨ ∀ id ∈ h.shared.clientIds, h.stages id = .returned →
    h.offeredAt id = some h.failures

lemma Batch.underway (hb : h.Batch) (hs : h.started = true) : h.Underway := by
  cases hb with
  | unclaimed a => simp [hs] at a
  | claimed u claim _ b => exact .inl ⟨u, claim, b⟩
  | queued _ _ _ _ _ _ f => exact .inr (f ▸ Nat.one_pos)
  | worked _ _ _ _ _ f => exact .inr (f ▸ Nat.one_pos)
  | spent _ _ _ _ _ f => exact .inr (f ▸ Nat.one_pos)
  | dropped _ _ _ _ f => exact .inr (f ▸ Nat.one_pos)

lemma Batch.handed_le (hb : h.Batch) : h.handed ≤ 1 := by
  cases hb with
  | unclaimed _ _ _ _ _ f => omega
  | claimed _ _ _ _ _ _ _ _ _ f => omega
  | queued _ _ _ _ _ _ f => omega
  | worked _ _ _ _ _ f => omega
  | spent _ _ _ _ _ f => omega
  | dropped _ _ _ _ f => omega

lemma Offered.frame (ho : h.Offered) (h0 : t.stopped = h.stopped) (h1 : t.claims = h.claims)
    (h2 : t.handed = h.handed) (h3 : t.failures = h.failures) (h4 : t.offeredAt = h.offeredAt)
    (h5 : ∀ id, t.stages id = .returned → h.stages id = .returned)
    (h6 : t.shared.clientIds.Sublist h.shared.clientIds) : t.Offered := by
  rcases ho with hs | hu | ho
  · exact .inl (h0.trans hs)
  · exact .inr (.inl (by rwa [Underway, h1, h2]))
  · refine .inr (.inr fun id hid hst => ?_)
    rw [h3, h4]
    exact ho id (h6.subset hid) (h5 id hst)

lemma stage_ne {id client : ℕ} {stage : Stage} (hne : stage ≠ .returned)
    (hs : (h.setStage client stage).stages id = .returned) : h.stages id = .returned := by
  by_cases hi : id = client
  · subst hi
    exact absurd (by simpa [setStage] using hs) hne
  · simpa [setStage, hi] using hs

lemma Offered.connection (hb : h.Batch) (hc : 0 < config.startupCount) (ho : h.Offered)
    {l : Label} (ht : h.connection config l = some t) : t.Offered := by
  cases l with
  | connect c =>
    simp only [Hub.connection] at ht
    split at ht
    · rename_i hst
      obtain rfl := Option.some.inj ht
      rcases ho with hu | hu | ho
      · exact .inl hu
      · exact .inr (.inl hu)
      · refine .inr (.inr fun id hid hs => ?_)
        have hs := stage_ne (by simp) hs
        rw [setStage, Shared.clientIds_registerClient, List.mem_append] at hid
        rcases hid with hid | hid
        · exact ho id hid hs
        · rw [List.mem_singleton.mp hid, hst] at hs
          cases hs
    · cases ht
  | frame c =>
    simp only [Hub.connection] at ht
    split at ht
    · rename_i g _
      obtain rfl := Option.some.inj ht
      refine ho.frame rfl rfl rfl rfl rfl (fun id => stage_ne ?_) ?_
      · split <;> simp
      · simp only [setStage, Shared.frameReplay]
        split
        · exact List.Sublist.refl _
        · exact Shared.clientIds_removeClient _ _
    · cases ht
  | attach c k =>
    simp only [Hub.connection] at ht
    split at ht
    · obtain rfl := Option.some.inj ht
      exact ho.frame rfl rfl rfl rfl rfl (fun id => stage_ne (by simp))
        (Shared.clientIds_releaseHeld _ c k)
    · cases ht
  | check c =>
    simp only [Hub.connection] at ht
    split at ht
    · obtain rfl := Option.some.inj ht
      cases hst : h.started with
      | true => exact .inr (.inl (hb.underway hst))
      | false =>
        cases hsp : h.stopped with
        | true => exact .inl hsp
        | false =>
          refine ho.frame rfl rfl rfl rfl rfl (fun id => stage_ne ?_) (List.Sublist.refl _)
          simp [hc]
    · cases ht
  | offer c =>
    simp only [Hub.connection] at ht
    split at ht
    · obtain rfl := Option.some.inj ht
      rcases ho with hu | hu | ho
      · exact .inl hu
      · exact .inr (.inl hu)
      · refine .inr (.inr fun id hid hs => ?_)
        by_cases hi : id = c
        · subst hi
          exact Function.update_self ..
        · refine (Function.update_of_ne hi ..).trans (ho id ?_ (by simpa [setStage, hi] using hs))
          exact (Shared.clientIds_queueTo _ c).subset hid
    · cases ht
  | disconnect c =>
    simp only [Hub.connection] at ht
    split at ht
    · obtain rfl := Option.some.inj ht
      exact ho.frame rfl rfl rfl rfl rfl (fun id => stage_ne (by simp))
        (Shared.clientIds_removeClient _ c)
    · cases ht
  | _ => cases ht

lemma Offered.claiming (hc : 0 < config.startupCount) (ho : h.Offered) {l : Label}
    (ht : h.claiming config l = some t) : t.Offered := by
  have hset : ∀ (u : Hub) thread claim, (u.setClaim thread (some claim)).Offered :=
    fun u thread claim => .inr (.inl (.inl ⟨thread, claim, Function.update_self ..⟩))
  cases l with
  | claim thread client sizes =>
    simp only [Hub.claiming] at ht
    split at ht
    · split at ht
      · exact Option.some.inj ht ▸ ho
      · exact Option.some.inj ht ▸ hset ..
    · cases ht
  | reserve thread =>
    simp only [Hub.claiming] at ht
    split at ht
    · exact Option.some.inj ht ▸ hset ..
    · cases ht
  | submit thread =>
    simp only [Hub.claiming] at ht
    split at ht
    · split at ht
      · exact Option.some.inj ht ▸ .inr (.inl (.inr (Nat.succ_pos _)))
      · exact Option.some.inj ht ▸ hset ..
    · cases ht
  | giveBack thread =>
    simp only [Hub.claiming] at ht
    split at ht
    · exact Option.some.inj ht ▸ hset ..
    · cases ht
  | reopen thread =>
    simp only [Hub.claiming] at ht
    split at ht
    · exact Option.some.inj ht ▸ hset ..
    · cases ht
  | reoffer thread =>
    simp only [Hub.claiming] at ht
    split at ht
    · rw [if_neg hc.ne'] at ht
      obtain rfl := Option.some.inj ht
      refine .inr (.inr fun id hid _ => if_pos ?_)
      exact (Shared.clientIds_broadcastLocked _).subset hid
    · cases ht
  | _ => cases ht

lemma Offered.traffic (ho : h.Offered) {l : Label} (ht : h.traffic l = some t) : t.Offered := by
  cases l with
  | submitCreate size client =>
    simp only [Hub.traffic] at ht
    split at ht
    · exact Option.some.inj ht ▸ ho.frame rfl rfl rfl rfl rfl (fun _ => id) (List.Sublist.refl _)
    · cases ht
  | submitOther =>
    simp only [Hub.traffic] at ht
    split at ht
    · exact Option.some.inj ht ▸ ho.frame rfl rfl rfl rfl rfl (fun _ => id) (List.Sublist.refl _)
    · cases ht
  | broadcast f =>
    exact Option.some.inj ht ▸ ho.frame rfl rfl rfl rfl rfl (fun _ => id)
      (Shared.clientIds_broadcastLocked f)
  | stop => exact Option.some.inj ht ▸ .inl rfl
  | send c f =>
    exact Option.some.inj ht ▸ ho.frame rfl rfl rfl rfl rfl (fun _ => id)
      (Shared.clientIds_queueTo f c)
  | offerFrame c f =>
    exact Option.some.inj ht ▸ ho.frame rfl rfl rfl rfl rfl (fun _ => id) (List.Sublist.refl _)
  | recv c =>
    obtain ⟨r, -, rfl⟩ := Option.map_eq_some_iff.mp ht
    exact ho.frame rfl rfl rfl rfl rfl (fun _ => id) (List.Sublist.refl _)
  | _ => cases ht

structure WorkerFrame (h t : Hub) : Prop where
  stopped : t.stopped = h.stopped
  claims : t.claims = h.claims
  handed : t.handed = h.handed
  failures : t.failures = h.failures
  offeredAt : t.offeredAt = h.offeredAt
  stages : t.stages = h.stages
  clientIds : t.shared.clientIds.Sublist h.shared.clientIds

lemma working_frame {l : Label} (ht : h.working l = some t) : h.WorkerFrame t := by
  have hrefl := List.Sublist.refl h.shared.clientIds
  have herr : ∀ c m, (h.shared.sendErrorTo c m).clientIds.Sublist h.shared.clientIds :=
    fun c m => Shared.clientIds_queueTo _ c
  cases l with
  | take =>
    simp only [Hub.working] at ht
    split at ht
    · exact Option.some.inj ht ▸ ⟨rfl, rfl, rfl, rfl, rfl, rfl, hrefl⟩
    · exact Option.some.inj ht ▸ ⟨rfl, rfl, rfl, rfl, rfl, rfl, hrefl⟩
    · exact Option.some.inj ht ▸ ⟨rfl, rfl, rfl, rfl, rfl, rfl, hrefl⟩
    · cases ht
  | relaunch size title index =>
    simp only [Hub.working] at ht
    split at ht
    · exact Option.some.inj ht ▸ ⟨rfl, rfl, rfl, rfl, rfl, rfl, hrefl⟩
    · cases ht
  | checkSlot =>
    simp only [Hub.working] at ht
    split at ht
    · split at ht
      · exact Option.some.inj ht ▸ ⟨rfl, rfl, rfl, rfl, rfl, rfl, hrefl⟩
      · split at ht
        · exact Option.some.inj ht ▸ ⟨rfl, rfl, rfl, rfl, rfl, rfl, herr _ _⟩
        · exact Option.some.inj ht ▸ ⟨rfl, rfl, rfl, rfl, rfl, rfl, hrefl⟩
    · split at ht
      · exact Option.some.inj ht ▸ ⟨rfl, rfl, rfl, rfl, rfl, rfl, hrefl⟩
      · exact Option.some.inj ht ▸ ⟨rfl, rfl, rfl, rfl, rfl, rfl, herr _ _⟩
    · cases ht
  | opened pane? =>
    simp only [Hub.working] at ht
    split at ht
    · exact Option.some.inj ht ▸
        ⟨rfl, rfl, rfl, rfl, rfl, rfl, Shared.clientIds_registerPane _ _ _ _⟩
    · exact Option.some.inj ht ▸ ⟨rfl, rfl, rfl, rfl, rfl, rfl, herr _ _⟩
    · exact Option.some.inj ht ▸
        ⟨rfl, rfl, rfl, rfl, rfl, rfl, Shared.clientIds_registerPane _ _ _ _⟩
    · exact Option.some.inj ht ▸ ⟨rfl, rfl, rfl, rfl, rfl, rfl, hrefl⟩
    · exact Option.some.inj ht ▸
        ⟨rfl, rfl, rfl, rfl, rfl, rfl, Shared.clientIds_registerPane _ _ _ _⟩
    · exact Option.some.inj ht ▸ ⟨rfl, rfl, rfl, rfl, rfl, rfl, herr _ _⟩
    · cases ht
  | restore =>
    simp only [Hub.working] at ht
    split at ht
    · exact Option.some.inj ht ▸
        ⟨rfl, rfl, rfl, rfl, rfl, rfl, Shared.clientIds_restorePaneIndex _ _⟩
    · cases ht
  | spend =>
    have hrel : ∀ k, (h.shared.releaseReserved k).clientIds.Sublist h.shared.clientIds :=
      fun k => by rw [Shared.releaseReserved_clientIds]
    simp only [Hub.working] at ht
    split at ht
    · exact Option.some.inj ht ▸ ⟨rfl, rfl, rfl, rfl, rfl, rfl, hrel _⟩
    · exact Option.some.inj ht ▸ ⟨rfl, rfl, rfl, rfl, rfl, rfl, hrefl⟩
    · exact Option.some.inj ht ▸ ⟨rfl, rfl, rfl, rfl, rfl, rfl, hrel _⟩
    · exact Option.some.inj ht ▸ ⟨rfl, rfl, rfl, rfl, rfl, rfl, hrel _⟩
    · cases ht
  | closePane pane =>
    simp only [Hub.working] at ht
    split at ht
    · exact Option.some.inj ht ▸
        ⟨rfl, rfl, rfl, rfl, rfl, rfl, Shared.clientIds_removePaneAndAnnounce _⟩
    · cases ht
  | shutDown =>
    simp only [Hub.working] at ht
    split at ht
    · exact Option.some.inj ht ▸ ⟨rfl, rfl, rfl, rfl, rfl, rfl, Shared.clientIds_windDown⟩
    · cases ht
  | _ => cases ht

lemma Offered.step (hb : h.Batch) (hc : 0 < config.startupCount) (ho : h.Offered) {l : Label}
    (ht : h.step config l = some t) : t.Offered := by
  rcases step_cases ht with ht | ht | ht | ht
  · exact ho.connection hb hc ht
  · exact ho.claiming hc ht
  · exact ho.traffic ht
  · obtain ⟨h0, h1, h2, h3, h4, h5, h6⟩ := working_frame ht
    exact ho.frame h0 h1 h2 h3 h4 (fun id hs => h5 ▸ hs) h6

lemma pending_of_offered {l : Label} (ht : h.step config l = some t) {id : ℕ}
    (hne : t.offeredAt id ≠ h.offeredAt id) : t.offeredAt id = some h.failures ∧
      (t.shared = h.shared.queueTo id (pendingFrame config) ∨
        id ∈ h.shared.clientIds ∧ t.shared = h.shared.broadcastLocked (pendingFrame config)) := by
  rcases step_cases ht with ht | ht | ht | ht
  · cases l with
    | offer c =>
      simp only [Hub.connection] at ht
      split at ht
      · obtain rfl := Option.some.inj ht
        by_cases hi : id = c
        · subst hi
          exact ⟨Function.update_self .., .inl rfl⟩
        · exact absurd (Function.update_of_ne hi ..) hne
      · cases ht
    | connect | frame | attach | check | disconnect =>
      simp only [Hub.connection] at ht
      split at ht
      · obtain rfl := Option.some.inj ht
        exact absurd rfl hne
      · cases ht
    | _ => cases ht
  · cases l with
    | reoffer thread =>
      simp only [Hub.claiming] at ht
      split at ht
      · split at ht
        · obtain rfl := Option.some.inj ht
          exact absurd rfl hne
        · obtain rfl := Option.some.inj ht
          by_cases hid : id ∈ h.shared.clientIds
          · exact ⟨if_pos hid, .inr ⟨hid, rfl⟩⟩
          · exact absurd (if_neg hid) hne
      · cases ht
    | claim | submit =>
      simp only [Hub.claiming] at ht
      split at ht
      · split at ht
        · obtain rfl := Option.some.inj ht
          exact absurd rfl hne
        · obtain rfl := Option.some.inj ht
          exact absurd rfl hne
      · cases ht
    | reserve | giveBack | reopen =>
      simp only [Hub.claiming] at ht
      split at ht
      · obtain rfl := Option.some.inj ht
        exact absurd rfl hne
      · cases ht
    | _ => cases ht
  · cases l with
    | submitCreate | submitOther =>
      simp only [Hub.traffic] at ht
      split at ht
      · obtain rfl := Option.some.inj ht
        exact absurd rfl hne
      · cases ht
    | recv c =>
      obtain ⟨r, -, rfl⟩ := Option.map_eq_some_iff.mp ht
      exact absurd rfl hne
    | broadcast | stop | send | offerFrame =>
      obtain rfl := Option.some.inj ht
      exact absurd rfl hne
    | _ => cases ht
  · exact absurd (congrFun (working_frame ht).offeredAt id) hne

theorem offered_until_claimed {labels : List Label} (hr : run (Hub.step config) {} labels = some h) :
    h.handed ≤ 1 ∧
      (0 < config.startupCount → h.stopped = false → (∀ thread, h.claims thread = none) →
        h.handed = 0 → ∀ id ∈ h.shared.clientIds, h.stages id = .returned →
          h.offeredAt id = some h.failures) ∧
      ∀ l t id, h.step config l = some t → t.offeredAt id ≠ h.offeredAt id →
        t.offeredAt id = some h.failures ∧
          (t.shared = h.shared.queueTo id (pendingFrame config) ∨
            id ∈ h.shared.clientIds ∧
              t.shared = h.shared.broadcastLocked (pendingFrame config)) := by
  refine ⟨(run_invariant (fun _ _ _ hb ht => hb.step ht) batch_empty hr : h.Batch).handed_le, ?_,
    fun l t id ht hne => pending_of_offered ht hne⟩
  intro hc hs hn hh
  have hstep : ∀ (s : Hub) l t, s.Batch ∧ s.Offered → s.step config l = some t →
      t.Batch ∧ t.Offered := fun _ _ _ hi ht => ⟨hi.1.step ht, hi.2.step hi.1 hc ht⟩
  have hempty : ({} : Hub).Offered := .inr (.inr fun id hid => (List.not_mem_nil hid).elim)
  obtain ⟨-, hst | (⟨thread, claim, hcl⟩ | hpos) | ho⟩ := run_invariant hstep ⟨batch_empty, hempty⟩ hr
  · simp [hs] at hst
  · simp [hn thread] at hcl
  · omega
  · exact ho

theorem offered_until_claimed_offered :
    ∃ h : Hub, run (Hub.step ⟨[], true⟩) {} [.connect 0, .frame 0, .attach 0 0, .check 0, .offer 0,
      .connect 1, .frame 1] = some h ∧ h.handed ≤ 1 ∧ h.offeredAt 0 = some h.failures := by
  have hr : run (Hub.step ⟨[], true⟩) {} [.connect 0, .frame 0, .attach 0 0, .check 0, .offer 0,
      .connect 1, .frame 1] = some _ := rfl
  obtain ⟨hle, ho, -⟩ := offered_until_claimed hr
  exact ⟨_, hr, hle, ho Nat.one_pos rfl (fun _ => rfl) rfl 0 List.mem_cons_self rfl⟩

/-- A hub with nothing to start, and one that is stopped, let a client connect and offer it
nothing. -/
theorem returned_without_offer :
    (∃ h : Hub, run (Hub.step ⟨[], false⟩) {} [.connect 0, .frame 0, .attach 0 0, .check 0] =
        some h ∧ (∀ thread, h.claims thread = none) ∧ h.handed = 0 ∧ h.shared.clientIds = [0] ∧
        h.stages 0 = .returned ∧ h.offeredAt 0 = none) ∧
      ∃ h : Hub, run (Hub.step ⟨[], true⟩) {} [.stop, .connect 0, .frame 0, .attach 0 0, .check 0] =
        some h ∧ (∀ thread, h.claims thread = none) ∧ h.handed = 0 ∧ h.shared.clientIds = [0] ∧
        h.stages 0 = .returned ∧ h.offeredAt 0 = none :=
  ⟨⟨_, rfl, fun _ => rfl, rfl, rfl, rfl, rfl⟩, ⟨_, rfl, fun _ => rfl, rfl, rfl, rfl, rfl⟩⟩

end Nightcrow.Session.Terminal.Startup.Hub
