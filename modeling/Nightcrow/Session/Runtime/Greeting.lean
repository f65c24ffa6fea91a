import Nightcrow.Session.Runtime.Conflation

namespace Nightcrow.Session.Runtime

open Nightcrow.Library

namespace World

variable {w t : World} {id : ℕ}

/-- A slot that nothing was published into is filled from the cache only once a reading was
published since the subscriber list was last empty. -/
def GreetsFresh (w : World) : Label → Prop
  | .fill id => w.runtime.slot id = none → w.runtime.latest ≠ none → w.fresh ≠ []
  | _ => True

structure Greeted (w : World) : Prop where
  last : w.fresh ≠ [] → w.fresh.getLast? = w.runtime.latest
  slots : ∀ id, (w.phase id).listed = true → w.taken id = [] →
    ∀ update, w.runtime.slot id = some update → update ∈ w.fresh

lemma greeted_initial : ({} : World).Greeted :=
  ⟨fun h => absurd rfl h, fun _ h => by cases h⟩

lemma Greeted.update (hg : w.Greeted) (hlatest : t.runtime.latest = w.runtime.latest)
    (hfresh : t.fresh = w.fresh) {c : Cell} (hcell : ∀ i, t.cell i = if i = id then c else w.cell i)
    (hc : c.phase.listed = true → c.taken = [] → ∀ update, c.slot = some update →
      update ∈ w.fresh) : t.Greeted := by
  refine ⟨fun h => ?_, fun i => ?_⟩
  · rw [hfresh] at h ⊢
    rw [hlatest, hg.last h]
  · have hi := hcell i
    rw [hfresh]
    by_cases he : i = id
    · rw [if_pos he] at hi
      subst hi
      exact hc
    · rw [if_neg he] at hi
      have hphase : t.phase i = w.phase i := congrArg Cell.phase hi
      have htaken : t.taken i = w.taken i := congrArg Cell.taken hi
      have hslot : t.runtime.slot i = w.runtime.slot i := congrArg Cell.slot hi
      rw [hphase, htaken, hslot]
      exact hg.slots i

lemma greeted_of_empty_slots (hfresh : t.fresh = [])
    (h : ∀ id, (t.phase id).listed = true → t.runtime.slot id = none) : t.Greeted := by
  refine ⟨fun hn => absurd hfresh hn, fun id hl _ update hslot => ?_⟩
  rw [h id hl] at hslot
  cases hslot

lemma greeted_publish (hs : w.Sound) (hg : w.Greeted) {update : StatusUpdate} :
    (w.publish update).Greeted := by
  by_cases he : w.runtime.subscribers = []
  · have hnone : ∀ i, (w.phase i).listed = false := by
      intro i
      refine Bool.eq_false_iff.mpr (fun hl => ?_)
      have hm := (hs.members i).mpr hl
      rw [he] at hm
      cases hm
    refine greeted_of_empty_slots (by simp [publish, he]) (fun i hl => ?_)
    rw [show (w.publish update).phase i = w.phase i from rfl, hnone] at hl
    cases hl
  · have hfresh : (w.publish update).fresh = w.fresh ++ [update] := by simp [publish, he]
    have hlatest : (w.publish update).runtime.latest = some update := by
      simp only [publish, RepoRuntime.publishUpdate]
      split
      · assumption
      · rfl
    refine ⟨fun _ => by rw [hfresh, hlatest, List.getLast?_concat], fun i hl htaken v hv => ?_⟩
    rw [hfresh, List.mem_append, List.mem_singleton]
    simp only [publish, RepoRuntime.publishUpdate] at hv
    split at hv
    · exact .inl (hg.slots i hl htaken v hv)
    · dsimp only at hv
      split at hv
      · exact .inr (Option.some.inj hv).symm
      · exact .inl (hg.slots i hl htaken v hv)

lemma greeted_enter (hg : w.Greeted) {phase : Phase} (hl : phase.listed = (w.phase id).listed) :
    (w.enter id phase).Greeted := by
  refine hg.update rfl rfl (fun _ => cell_enter) ?_
  intro h
  exact hg.slots id (hl.symm.trans h)

lemma greeted_register (hs : w.Sound) (hg : w.Greeted) (hp : w.phase id = .joining) :
    (World.enter { w with
      runtime := (w.runtime.register id).2
      fresh := if (w.runtime.register id).1 then [] else w.fresh } id
      (if (w.runtime.register id).1 then .waking else .seeding)).Greeted := by
  have hslot : w.runtime.slot id = none := (hs.cells id).outside (.inr hp)
  by_cases he : w.runtime.subscribers = []
  · have hfirst : (w.runtime.register id).1 = true := by simp [RepoRuntime.register, he]
    rw [hfirst]
    refine greeted_of_empty_slots rfl (fun i hl => ?_)
    by_cases hi : i = id
    · exact hi ▸ hslot
    · have hm := (hs.members i).mpr (by simpa [enter, hi] using hl)
      rw [he] at hm
      cases hm
  · have hfirst : (w.runtime.register id).1 = false := by simp [RepoRuntime.register, he]
    rw [hfirst]
    refine hg.update rfl rfl (fun _ => cell_enter) ?_
    intro _ _ update h
    exact absurd (hslot.symm.trans h) (by simp)

lemma greeted_fill (hs : w.Sound) (hg : w.Greeted) (ha : w.GreetsFresh (.fill id))
    {seed : Option StatusUpdate} (hp : w.phase id = .seeded seed) :
    (World.enter { w with runtime := w.runtime.fill id seed } id .ready).Greeted := by
  have hlatest : (w.runtime.fill id seed).latest = w.runtime.latest := by
    simp only [RepoRuntime.fill]
    split
    · rfl
    · rfl
  refine hg.update hlatest rfl (fun _ => cell_fill) ?_
  intro _ htaken update hu
  dsimp only at htaken hu
  rcases hslot : w.runtime.slot id with _ | v
  · have hseed : seed = w.runtime.latest := (hs.cells id).seeded seed hp hslot
    have hcached : w.runtime.latest = some update := by
      rw [← hseed]
      simpa [hslot] using hu
    have hfresh : w.fresh ≠ [] := ha hslot (by simp [hcached])
    exact List.mem_of_getLast? ((hg.last hfresh).trans hcached)
  · have hv : v = update := by simpa [hslot] using hu
    exact hg.slots id (by rw [hp]; rfl) htaken update (hv ▸ hslot)

lemma greeted_takeFor (hg : w.Greeted) {phase : Phase} : (w.takeFor id phase).Greeted := by
  refine hg.update rfl rfl (fun _ => cell_takeFor) ?_
  intro _ _ update h
  cases h

lemma greeted_drop (hs : w.Sound) (hg : w.Greeted) (hp : w.phase id = .ready) :
    (World.enter { w with
      runtime := w.runtime.unsubscribe id
      fresh := if (w.runtime.unsubscribe id).subscribers.isEmpty then [] else w.fresh } id
      .dropped).Greeted := by
  rcases he : (w.runtime.unsubscribe id).subscribers.isEmpty with _ | _
  · refine hg.update rfl rfl (fun _ => cell_enter) ?_
    intro h
    cases h
  · refine greeted_of_empty_slots rfl (fun i hl => ?_)
    have hsound : (World.enter { w with runtime := w.runtime.unsubscribe id, fresh := [] } id
        .dropped).Sound := sound_drop hs hp
    have hm : i ∈ (w.runtime.unsubscribe id).subscribers := (hsound.members i).mpr hl
    rw [List.isEmpty_iff.mp he] at hm
    cases hm

lemma greeted_step (hs : w.Sound) (hg : w.Greeted) {l : Label} (ha : w.GreetsFresh l)
    (h : w.step l = some t) : t.Greeted := by
  cases l with
  | publish update =>
    obtain rfl := Option.some.inj h
    exact greeted_publish hs hg
  | allocate =>
    obtain rfl := Option.some.inj h
    refine hg.update rfl rfl (fun _ => cell_enter) ?_
    intro hl
    cases hl
  | register id =>
    rw [step] at h
    split at h
    · rename_i hp
      obtain rfl := Option.some.inj h
      exact greeted_register hs hg hp
    · cases h
  | read id update =>
    rw [step] at h
    split at h
    · rename_i hp
      obtain rfl := Option.some.inj h
      cases update with
      | none => exact greeted_enter hg (by rw [hp]; rfl)
      | some update =>
        have hphase : (w.publish update).phase id = .waking := hp
        exact greeted_enter (greeted_publish hs hg) (by rw [hphase]; rfl)
    · cases h
  | seed id =>
    rw [step] at h
    split at h
    · rename_i hp
      obtain rfl := Option.some.inj h
      exact greeted_enter hg (by rw [hp]; rfl)
    · cases h
  | fill id =>
    rw [step] at h
    split at h
    · rename_i seed hp
      obtain rfl := Option.some.inj h
      exact greeted_fill hs hg ha hp
    · cases h
  | take id =>
    rw [step] at h
    split at h
    · obtain rfl := Option.some.inj h
      exact greeted_takeFor hg
    · split at h
      · obtain rfl := Option.some.inj h
        exact greeted_takeFor hg
      · cases h
  | receive id =>
    rw [step] at h
    split at h
    · rename_i hp
      obtain rfl := Option.some.inj h
      refine hg.update rfl rfl (fun _ => cell_receive) ?_
      intro _
      exact hg.slots id (by rw [hp.1]; rfl)
    · cases h
  | timeout id =>
    rw [step] at h
    split at h
    · rename_i hp
      obtain rfl := Option.some.inj h
      exact greeted_enter hg (by rw [hp]; rfl)
    · cases h
  | drop id =>
    rw [step] at h
    split at h
    · rename_i hp
      obtain rfl := Option.some.inj h
      exact greeted_drop hs hg hp
    · cases h

lemma greeted_run {labels : List Label} (ha : Along step GreetsFresh {} labels)
    (hrun : run step {} labels = some w) : w.Greeted := by
  have hboth : w.Sound ∧ w.Greeted :=
    run_guarded (p := fun w => Sound w ∧ Greeted w)
      (fun _ _ _ h ha hst => ⟨sound_step h.1 hst, greeted_step h.1 h.2 ha hst⟩)
      ⟨sound_initial, greeted_initial⟩ ha hrun
  exact hboth.2

lemma stale_greeting (hs : w.Sound) {seed : Option StatusUpdate} (hp : w.phase id = .seeded seed)
    (hstale : ¬ w.GreetsFresh (.fill id)) :
    ∃ t u update, w.step (.fill id) = some t ∧ t.step (.take id) = some u ∧ t.taken id = [] ∧
      u.taken id = [update] ∧ update ∉ t.fresh := by
  obtain ⟨hslot, hlatest, hfresh⟩ : w.runtime.slot id = none ∧ w.runtime.latest ≠ none ∧
      w.fresh = [] := by
    simpa [GreetsFresh] using hstale
  obtain ⟨update, hupdate⟩ := Option.ne_none_iff_exists'.mp hlatest
  have hseed : seed = some update := ((hs.cells id).seeded seed hp hslot).trans hupdate
  have htaken : w.taken id = [] :=
    (hs.cells id).young (congrArg Phase.returned hp) (by simp [cell, hp])
  let t := World.enter { w with runtime := w.runtime.fill id seed } id .ready
  have hfill : w.step (.fill id) = some t := by
    simp only [step, hp]
    rfl
  refine ⟨t, t.takeFor id .waiting, update, hfill, ?_, htaken, ?_, ?_⟩
  · rw [step, if_pos (by simp [t, enter])]
  · simp [t, takeFor, enter, RepoRuntime.take, RepoRuntime.fill, hslot, hseed, htaken]
  · simp [t, enter, hfresh]

/-- When no slot is filled too early, the first update a subscription yields equals a reading
published since the subscriber list was last empty. Wherever one is filled too early, the next
call on that subscription yields one that does not. -/
theorem greeting_is_fresh (labels : List Label) (w : World)
    (hrun : run step {} labels = some w) :
    (Along step GreetsFresh {} labels → ∀ id t update, w.step (.take id) = some t →
      w.taken id = [] → t.taken id = [update] → update ∈ w.fresh) ∧
    (∀ id seed, w.phase id = .seeded seed → ¬ w.GreetsFresh (.fill id) →
      ∃ t u update, w.step (.fill id) = some t ∧ t.step (.take id) = some u ∧ t.taken id = [] ∧
        u.taken id = [update] ∧ update ∉ t.fresh) := by
  have hs := sound_run hrun
  refine ⟨fun ha id t update ht hnone hone => ?_, fun id seed hp => stale_greeting hs hp⟩
  have htake : (w.phase id).returned = true ∧ ∃ phase, t = w.takeFor id phase := by
    rw [step] at ht
    split at ht
    · rename_i hp
      exact ⟨congrArg Phase.returned hp, _, (Option.some.inj ht).symm⟩
    · split at ht
      · rename_i hp
        exact ⟨congrArg Phase.returned hp, _, (Option.some.inj ht).symm⟩
      · cases ht
  obtain ⟨hr, phase, rfl⟩ := htake
  have hslot : w.runtime.slot id = some update := by
    simpa [takeFor, RepoRuntime.take, hnone, Option.toList_eq_singleton_iff] using hone
  exact (greeted_run ha hrun).slots id (Phase.listed_of_returned hr) hnone update hslot

def servedWhileWaking : List Label :=
  [.allocate, .register 0, .read 0 (some clean), .seed 0, .fill 0, .take 0, .drop 0,
    .allocate, .register 1, .allocate, .register 2, .seed 2, .fill 2]

theorem second_subscriber_greeted_stale : ¬ ∀ (labels : List Label) (w t : World) (id : ℕ)
    (update : StatusUpdate), run step {} labels = some w → w.step (.take id) = some t →
      w.taken id = [] → t.taken id = [update] → update ∈ w.fresh := by
  intro h
  obtain ⟨w, hw⟩ := Option.isSome_iff_exists.mp
    (show (run step {} servedWhileWaking).isSome from rfl)
  have hseen : (run step {} servedWhileWaking).map (fun w => (w.phase 2, w.taken 2,
      w.runtime.slot 2, w.fresh)) = some (.ready, [], some clean, []) := rfl
  rw [hw, Option.map_some, Option.some.injEq, Prod.mk.injEq, Prod.mk.injEq, Prod.mk.injEq] at hseen
  obtain ⟨hphase, htaken, hslot, hfresh⟩ := hseen
  have hstale := h servedWhileWaking w (w.takeFor 2 .waiting) 2 clean hw
    (by rw [step, if_pos hphase]) htaken (by simp [takeFor, RepoRuntime.take, htaken, hslot])
  rw [hfresh] at hstale
  cases hstale

def servedAfterReading : List Label :=
  [.allocate, .register 0, .read 0 (some clean), .seed 0, .fill 0, .take 0, .drop 0,
    .allocate, .register 1, .read 1 (some dirty), .seed 1, .fill 1]

theorem greeting_is_fresh_woken : ∃ w t, run step {} servedAfterReading = some w ∧
    w.step (.take 1) = some t ∧ t.taken 1 = [dirty] ∧ dirty ∈ w.fresh ∧ clean ∉ w.fresh := by
  obtain ⟨w, hw⟩ := Option.isSome_iff_exists.mp (show (run step {} servedAfterReading).isSome from rfl)
  have hseen : (run step {} servedAfterReading).map (fun w => (w.phase 1, w.taken 1,
      w.runtime.slot 1, w.fresh)) = some (.ready, [], some dirty, [dirty]) := rfl
  rw [hw, Option.map_some, Option.some.injEq, Prod.mk.injEq, Prod.mk.injEq, Prod.mk.injEq] at hseen
  obtain ⟨hphase, htaken, hslot, hfresh⟩ := hseen
  have hkept : Along step GreetsFresh {} servedAfterReading := by
    refine along_cons rfl trivial (along_cons rfl trivial (along_cons rfl trivial ?_))
    refine along_cons rfl trivial (along_cons rfl (fun h => by cases h) ?_)
    refine along_cons rfl trivial (along_cons rfl trivial (along_cons rfl trivial ?_))
    refine along_cons rfl trivial (along_cons rfl trivial (along_cons rfl trivial ?_))
    exact along_cons rfl (fun h => by cases h) trivial
  have htake : w.step (.take 1) = some (w.takeFor 1 .waiting) := by rw [step, if_pos hphase]
  have hone : (w.takeFor 1 .waiting).taken 1 = [dirty] := by
    simp [takeFor, RepoRuntime.take, htaken, hslot]
  refine ⟨w, w.takeFor 1 .waiting, hw, htake, hone,
    (greeting_is_fresh servedAfterReading w hw).1 hkept 1 _ dirty htake htaken hone, ?_⟩
  rw [hfresh]
  decide

end World

end Nightcrow.Session.Runtime
