import Nightcrow.Session.Runtime.Subscription

namespace Nightcrow.Session.Runtime

open Nightcrow.Library

namespace Phase

def listed : Phase → Bool
  | waking | seeding | seeded _ | ready | waiting | woken => true
  | unused | joining | dropped => false

def returned : Phase → Bool
  | ready | waiting | woken => true
  | _ => false

lemma listed_ite (first : Bool) : (if first then waking else seeding).listed = true := by
  cases first <;> rfl

lemma listed_of_returned {p : Phase} (h : p.returned = true) : p.listed = true := by
  cases p <;> simp_all [returned, listed]

end Phase

structure Cell where
  phase : Phase
  slot : Option StatusUpdate
  wake : Bool
  taken : List StatusUpdate
  published : Bool

structure Cell.Fits (latest : Option StatusUpdate) (history : List StatusUpdate) (c : Cell) :
    Prop where
  superseded : (c.taken ++ c.slot.toList).Sublist history
  pending : c.phase.listed = true → c.slot = none ∨ c.slot = latest
  settled : c.phase.returned = true → c.slot = none → c.taken.getLast? = latest
  seeded : ∀ seed, c.phase = .seeded seed → c.slot = none → seed = latest
  outside : c.phase = .unused ∨ c.phase = .joining → c.slot = none
  young : c.phase.returned = false → c.phase ≠ .dropped → c.taken = []
  token : c.published = true → c.slot ≠ none ∧ (c.wake = true ∨ c.phase = .woken)

namespace Cell.Fits

variable {latest : Option StatusUpdate} {history : List StatusUpdate} {c : Cell}
  {update : StatusUpdate}

lemma publish (h : c.Fits latest history) (hl : c.phase.listed = true) :
    Fits (some update) (history ++ [update]) ⟨c.phase, some update, true, c.taken, true⟩ where
  superseded := by
    have htaken : c.taken.Sublist history := (List.sublist_append_left _ _).trans h.superseded
    exact htaken.append (List.Sublist.refl [update])
  pending _ := .inr rfl
  settled _ hn := by cases hn
  seeded _ _ hn := by cases hn
  outside hp := by
    rcases (show c.phase = .unused ∨ c.phase = .joining from hp) with hp | hp
    · rw [hp] at hl
      cases hl
    · rw [hp] at hl
      cases hl
  young := h.young
  token _ := ⟨by simp, .inl rfl⟩

lemma unlisted (h : c.Fits latest history) (hl : c.phase.listed = false) :
    c.Fits (some update) (history ++ [update]) where
  superseded := h.superseded.trans (List.sublist_append_left _ _)
  pending hp := absurd hp (Bool.eq_false_iff.mp hl)
  settled hp := absurd (Phase.listed_of_returned hp) (Bool.eq_false_iff.mp hl)
  seeded seed hp := by
    rw [hp] at hl
    cases hl
  outside := h.outside
  young := h.young
  token := h.token

end Cell.Fits

namespace World

variable {w t : World} {id : ℕ}

def cell (w : World) (id : ℕ) : Cell where
  phase := w.phase id
  slot := w.runtime.slot id
  wake := w.runtime.wake id
  taken := w.taken id
  published := w.published id

structure Sound (w : World) : Prop where
  watch : w.runtime.awake = true ↔ w.runtime.subscribers ≠ []
  history : w.history.getLast? = w.runtime.latest
  members : ∀ id, id ∈ w.runtime.subscribers ↔ (w.phase id).listed = true
  unused : ∀ id, w.runtime.nextSubscriberId ≤ id → w.phase id = .unused
  cells : ∀ id, (w.cell id).Fits w.runtime.latest w.history

lemma sound_initial : ({} : World).Sound := by
  refine ⟨by simp, rfl, by simp [Phase.listed], by simp, fun id => ?_⟩
  exact ⟨by simp [cell], by simp [cell], by simp [cell, Phase.returned], by simp [cell],
    by simp [cell], by simp [cell], by simp [cell]⟩

lemma Sound.update (hs : w.Sound) {c : Cell}
    (hwatch : t.runtime.awake = true ↔ t.runtime.subscribers ≠ [])
    (hlatest : t.runtime.latest = w.runtime.latest) (hhistory : t.history = w.history)
    (hnext : w.runtime.nextSubscriberId ≤ t.runtime.nextSubscriberId)
    (hmembers : ∀ i, i ∈ t.runtime.subscribers ↔
      if i = id then c.phase.listed = true else i ∈ w.runtime.subscribers)
    (hid : id < t.runtime.nextSubscriberId)
    (hcell : ∀ i, t.cell i = if i = id then c else w.cell i)
    (hc : c.Fits w.runtime.latest w.history) : t.Sound := by
  have hphase : ∀ i, t.phase i = if i = id then c.phase else w.phase i := by
    intro i
    refine (congrArg Cell.phase (hcell i)).trans ?_
    split <;> rfl
  refine ⟨hwatch, by rw [hlatest, hhistory, hs.history], fun i => ?_, fun i hi => ?_, fun i => ?_⟩
  · rw [hmembers, hphase]
    split
    · exact Iff.rfl
    · exact hs.members i
  · rw [hphase, if_neg (by omega)]
    exact hs.unused i (hnext.trans hi)
  · rw [hcell, hlatest, hhistory]
    split
    · exact hc
    · exact hs.cells i

lemma Sound.lt (hs : w.Sound) (h : w.phase id ≠ .unused) : id < w.runtime.nextSubscriberId := by
  by_contra hn
  exact h (hs.unused id (not_lt.mp hn))

lemma sound_publish (hs : w.Sound) {update : StatusUpdate} : (w.publish update).Sound := by
  by_cases hd : w.runtime.latest = some update
  · have hr : w.runtime.publishUpdate update = w.runtime := if_pos hd
    refine ⟨?_, ?_, fun id => ?_, fun id hi => ?_, fun id => ?_⟩
    · simpa [publish, hr] using hs.watch
    · simpa [publish, hr, hd] using hs.history
    · simpa [publish, hr] using hs.members id
    · exact hs.unused id (by simpa [publish, hr] using hi)
    · have hc := hs.cells id
      simpa [publish, hr, hd, cell] using hc
  · have hlatest : (w.publish update).runtime.latest = some update := by
      simp [publish, RepoRuntime.publishUpdate, hd]
    have hhist : (w.publish update).history = w.history ++ [update] := if_neg hd
    refine ⟨?_, ?_, fun id => ?_, fun id hi => ?_, fun id => ?_⟩
    · simpa [publish, RepoRuntime.publishUpdate, hd] using hs.watch
    · rw [hlatest, hhist, List.getLast?_concat]
    · simpa [publish, RepoRuntime.publishUpdate, hd] using hs.members id
    · exact hs.unused id (by simpa [publish, RepoRuntime.publishUpdate, hd] using hi)
    · rw [hlatest, hhist]
      by_cases hl : id ∈ w.runtime.subscribers
      · have hcell : (w.publish update).cell id =
            ⟨w.phase id, some update, true, w.taken id, true⟩ := by
          simp [cell, publish, RepoRuntime.publishUpdate, hd, hl]
        rw [hcell]
        exact (hs.cells id).publish ((hs.members id).mp hl)
      · have hcell : (w.publish update).cell id = w.cell id := by
          simp [cell, publish, RepoRuntime.publishUpdate, hd, hl]
        rw [hcell]
        exact (hs.cells id).unlisted (Bool.eq_false_iff.mpr (fun h => hl ((hs.members id).mpr h)))

variable {i : ℕ} {phase : Phase}

lemma cell_enter : (w.enter id phase).cell i =
    if i = id then { w.cell id with phase } else w.cell i := by
  by_cases hi : i = id
  · subst hi
    simp [cell, enter]
  · simp [cell, enter, hi]

lemma members_enter (hs : w.Sound) (hl : phase.listed = (w.phase id).listed) :
    i ∈ w.runtime.subscribers ↔ if i = id then phase.listed = true else i ∈ w.runtime.subscribers := by
  split
  · rename_i hi
    rw [hi, hl]
    exact hs.members id
  · exact Iff.rfl

lemma sound_enter (hs : w.Sound) (hu : w.phase id ≠ .unused)
    (hl : phase.listed = (w.phase id).listed)
    (hc : ({ w.cell id with phase } : Cell).Fits w.runtime.latest w.history) :
    (w.enter id phase).Sound :=
  hs.update hs.watch rfl rfl le_rfl (fun _ => @members_enter w id _ _ hs hl)
    (hs.lt hu) (fun _ => cell_enter) hc

lemma sound_allocate (hs : w.Sound) :
    (World.enter { w with runtime := { w.runtime with
      nextSubscriberId := w.runtime.nextSubscriberId + 1 } }
      w.runtime.nextSubscriberId .joining).Sound := by
  have hunused := hs.unused w.runtime.nextSubscriberId le_rfl
  have hf := hs.cells w.runtime.nextSubscriberId
  have hmem : w.runtime.nextSubscriberId ∉ w.runtime.subscribers := by
    rw [hs.members, hunused]
    decide
  refine hs.update (c := { w.cell w.runtime.nextSubscriberId with phase := .joining })
    hs.watch rfl rfl (Nat.le_succ _) ?_ (Nat.lt_succ_self _) (fun _ => cell_enter) ?_
  · intro i
    split
    · rename_i hi
      subst hi
      exact iff_of_false hmem Bool.false_ne_true
    · exact Iff.rfl
  · exact ⟨hf.superseded, by simp [Phase.listed], by simp [Phase.returned], by simp,
      fun _ => hf.outside (.inl hunused),
      fun _ _ => hf.young (congrArg Phase.returned hunused) (by simp [cell, hunused]),
      fun hp => absurd (hf.outside (.inl hunused)) (hf.token hp).1⟩

lemma sound_register (hs : w.Sound) (hp : w.phase id = .joining) {fresh : List StatusUpdate} :
    (World.enter { w with runtime := (w.runtime.register id).2, fresh } id
      (if (w.runtime.register id).1 then .waking else .seeding)).Sound := by
  have hf := hs.cells id
  have hslot : (w.cell id).slot = none := hf.outside (.inr hp)
  have htaken : (w.cell id).taken = [] := hf.young (congrArg Phase.returned hp) (by simp [cell, hp])
  refine hs.update (c := { w.cell id with
    phase := if (w.runtime.register id).1 then .waking else .seeding })
    ?_ rfl rfl le_rfl ?_ (hs.lt (by simp [hp])) (fun _ => cell_enter) ?_
  · refine iff_of_true ?_ (by simp [enter, RepoRuntime.register])
    by_cases he : w.runtime.subscribers = []
    · simp [enter, RepoRuntime.register, he]
    · simp [enter, RepoRuntime.register, he, hs.watch.mpr he]
  · intro i
    simp only [enter, RepoRuntime.register, List.mem_append, List.mem_singleton]
    split
    · rename_i hi
      exact iff_of_true (.inr hi) (Phase.listed_ite _)
    · rename_i hi
      exact or_iff_left hi
  · refine ⟨hf.superseded, fun _ => .inl hslot, ?_, ?_, fun _ => hslot, fun _ _ => htaken,
      fun h => absurd hslot (hf.token h).1⟩
    · intro h
      dsimp only at h
      split at h <;> cases h
    · intro seed h
      dsimp only at h
      split at h <;> cases h

lemma sound_read (hs : w.Sound) (hp : w.phase id = .waking) {update : Option StatusUpdate} :
    ((update.elim w w.publish).enter id .seeding).Sound := by
  have hpublished : (update.elim w w.publish).Sound ∧ (update.elim w w.publish).phase = w.phase := by
    cases update with
    | none => exact ⟨hs, rfl⟩
    | some update => exact ⟨sound_publish hs, rfl⟩
  obtain ⟨ht, hphase⟩ := hpublished
  have hw : (update.elim w w.publish).phase id = .waking := by rw [hphase, hp]
  have hf := ht.cells id
  refine sound_enter ht (by simp [hw]) (by rw [hw]; rfl) ?_
  refine ⟨hf.superseded, fun _ => hf.pending (congrArg Phase.listed hw), by simp [Phase.returned],
    by simp, by simp, fun _ _ => hf.young (congrArg Phase.returned hw) (by simp [cell, hw]), ?_⟩
  intro h
  obtain ⟨hn, hk | hk⟩ := hf.token h
  · exact ⟨hn, .inl hk⟩
  · exact absurd (hk.symm.trans hw) (by simp)

lemma sound_seed (hs : w.Sound) (hp : w.phase id = .seeding) :
    (w.enter id (.seeded w.runtime.latest)).Sound := by
  have hf := hs.cells id
  refine sound_enter hs (by simp [hp]) (by rw [hp]; rfl) ?_
  refine ⟨hf.superseded, fun _ => hf.pending (congrArg Phase.listed hp), by simp [Phase.returned],
    fun seed h _ => (Phase.seeded.inj h).symm, by simp,
    fun _ _ => hf.young (congrArg Phase.returned hp) (by simp [cell, hp]), ?_⟩
  intro h
  obtain ⟨hn, hk | hk⟩ := hf.token h
  · exact ⟨hn, .inl hk⟩
  · exact absurd (hk.symm.trans hp) (by simp)

lemma cell_fill {seed : Option StatusUpdate} :
    (World.enter { w with runtime := w.runtime.fill id seed } id .ready).cell i =
      if i = id then ⟨.ready, (w.runtime.slot id).or seed, w.runtime.wake id, w.taken id,
        w.published id⟩ else w.cell i := by
  rcases hslot : w.runtime.slot id with _ | update
  · by_cases hi : i = id
    · subst hi
      simp [cell, enter, RepoRuntime.fill, hslot]
    · simp [cell, enter, RepoRuntime.fill, hslot, hi]
  · by_cases hi : i = id
    · subst hi
      simp [cell, enter, RepoRuntime.fill, hslot]
    · simp [cell, enter, RepoRuntime.fill, hslot, hi]

lemma sound_fill (hs : w.Sound) {seed : Option StatusUpdate} (hp : w.phase id = .seeded seed) :
    (World.enter { w with runtime := w.runtime.fill id seed } id .ready).Sound := by
  have hf := hs.cells id
  have htaken : w.taken id = [] :=
    hf.young (congrArg Phase.returned hp) (by simp [cell, hp])
  have hsame : (w.runtime.fill id seed).awake = w.runtime.awake ∧
      (w.runtime.fill id seed).latest = w.runtime.latest ∧
      (w.runtime.fill id seed).subscribers = w.runtime.subscribers ∧
      (w.runtime.fill id seed).nextSubscriberId = w.runtime.nextSubscriberId := by
    simp only [RepoRuntime.fill]
    split
    · exact ⟨rfl, rfl, rfl, rfl⟩
    · exact ⟨rfl, rfl, rfl, rfl⟩
  obtain ⟨hawake, hlatest, hsubs, hnext⟩ := hsame
  have hslot : (w.runtime.slot id).or seed = w.runtime.latest := by
    rcases hw : w.runtime.slot id with _ | update
    · exact hf.seeded seed hp hw
    · rcases hf.pending (congrArg Phase.listed hp) with hn | hn
      · exact absurd (hw.symm.trans hn) (by simp)
      · rw [Option.some_or, ← hw]
        exact hn
  have hlast : w.runtime.latest.toList.Sublist w.history := by
    rw [← hs.history]
    rcases hh : w.history.getLast? with _ | update
    · exact List.nil_sublist _
    · exact List.singleton_sublist.mpr (List.mem_of_getLast? hh)
  refine hs.update ?_ hlatest rfl hnext.ge ?_ (hnext ▸ hs.lt (by simp [hp])) (fun _ => cell_fill) ?_
  · simp only [enter, hawake, hsubs]
    exact hs.watch
  · intro i
    simp only [enter, hsubs]
    split
    · rename_i hi
      subst hi
      exact iff_of_true ((hs.members i).mpr (by rw [hp]; rfl)) rfl
    · exact Iff.rfl
  · refine ⟨?_, fun _ => .inr hslot, fun _ hn => ?_, by simp, by simp, ?_, fun h => ?_⟩
    · simpa [htaken, hslot] using hlast
    · simp only [htaken]
      exact hn.symm.trans hslot
    · exact fun h => absurd h (by simp [Phase.returned])
    · obtain ⟨hn, hk | hk⟩ := hf.token h
      · refine ⟨?_, .inl hk⟩
        rcases hw : w.runtime.slot id with _ | update
        · exact absurd hw hn
        · simp
      · exact absurd (hk.symm.trans hp) (by simp)

lemma cell_takeFor : (w.takeFor id phase).cell i =
    if i = id then ⟨if (w.runtime.slot id).isSome then .ready else phase, none, w.runtime.wake id,
      w.taken id ++ (w.runtime.slot id).toList, false⟩ else w.cell i := by
  by_cases hi : i = id
  · subst hi
    simp only [cell, takeFor, RepoRuntime.take, Function.update_self, if_true]
    rfl
  · simp [cell, takeFor, RepoRuntime.take, hi]

lemma sound_takeFor (hs : w.Sound) (hr : (w.phase id).returned = true)
    (hphase : phase = .ready ∨ phase = .waiting) : (w.takeFor id phase).Sound := by
  have hf := hs.cells id
  have hl : (w.phase id).listed = true := Phase.listed_of_returned hr
  have hafter : ∀ b : Bool, (if b then Phase.ready else phase) = .ready ∨
      (if b then Phase.ready else phase) = .waiting := by
    intro b
    cases b with
    | true => exact .inl rfl
    | false => exact hphase
  refine hs.update hs.watch rfl rfl le_rfl ?_ (hs.lt ?_) (fun _ => cell_takeFor) ?_
  · intro i
    split
    · rename_i hi
      subst hi
      refine iff_of_true ((hs.members i).mpr hl) ?_
      rcases hafter (w.runtime.slot i).isSome with h | h
      · exact congrArg Phase.listed h
      · exact congrArg Phase.listed h
    · exact Iff.rfl
  · intro h
    rw [h] at hr
    cases hr
  · refine ⟨by simpa [cell] using hf.superseded, fun _ => .inl rfl, fun _ _ => ?_, ?_, ?_, ?_,
      fun h => by cases h⟩
    · rcases hw : w.runtime.slot id with _ | update
      · simpa [cell, hw] using hf.settled hr hw
      · rcases hf.pending hl with hn | hn
        · exact absurd (hw.symm.trans hn) (by simp)
        · simpa [hw] using hw.symm.trans hn
    · intro seed h _
      rcases hafter (w.runtime.slot id).isSome with h' | h'
      · exact absurd (h.symm.trans h') (by simp)
      · exact absurd (h.symm.trans h') (by simp)
    · exact fun _ => rfl
    · intro h
      rcases hafter (w.runtime.slot id).isSome with h' | h'
      · exact absurd (h.symm.trans (congrArg Phase.returned h')) (by simp [Phase.returned])
      · exact absurd (h.symm.trans (congrArg Phase.returned h')) (by simp [Phase.returned])

lemma cell_receive :
    (World.enter { w with runtime :=
      { w.runtime with wake := Function.update w.runtime.wake id false } } id .woken).cell i =
      if i = id then ⟨.woken, w.runtime.slot id, false, w.taken id, w.published id⟩
      else w.cell i := by
  by_cases hi : i = id
  · subst hi
    simp [cell, enter]
  · simp [cell, enter, hi]

lemma sound_receive (hs : w.Sound) (hp : w.phase id = .waiting) :
    (World.enter { w with runtime :=
      { w.runtime with wake := Function.update w.runtime.wake id false } } id .woken).Sound := by
  have hf := hs.cells id
  have hr : (w.phase id).returned = true := congrArg Phase.returned hp
  refine hs.update hs.watch rfl rfl le_rfl ?_ (hs.lt (by simp [hp])) (fun _ => cell_receive) ?_
  · intro i
    split
    · rename_i hi
      subst hi
      exact iff_of_true ((hs.members i).mpr (Phase.listed_of_returned hr)) rfl
    · exact Iff.rfl
  · exact ⟨hf.superseded, fun _ => hf.pending (Phase.listed_of_returned hr),
      fun _ => hf.settled hr, by simp, by simp, fun h => absurd h (by simp [Phase.returned]),
      fun h => ⟨(hf.token h).1, .inr rfl⟩⟩

lemma sound_timeout (hs : w.Sound) (hp : w.phase id = .waiting) : (w.enter id .ready).Sound := by
  have hf := hs.cells id
  have hr : (w.phase id).returned = true := congrArg Phase.returned hp
  refine sound_enter hs (by simp [hp]) (by rw [hp]; rfl) ?_
  refine ⟨hf.superseded, fun _ => hf.pending (Phase.listed_of_returned hr),
    fun _ => hf.settled hr, by simp, by simp, fun h => absurd h (by simp [Phase.returned]), ?_⟩
  intro h
  obtain ⟨hn, hk | hk⟩ := hf.token h
  · exact ⟨hn, .inl hk⟩
  · exact absurd (hk.symm.trans hp) (by simp)

lemma sound_drop (hs : w.Sound) (hp : w.phase id = .ready) {fresh : List StatusUpdate} :
    (World.enter { w with runtime := w.runtime.unsubscribe id, fresh } id .dropped).Sound := by
  have hf := hs.cells id
  refine hs.update (c := { w.cell id with phase := .dropped }) ?_ rfl rfl le_rfl ?_
    (hs.lt (by simp [hp])) (fun _ => cell_enter) ?_
  · have hsubs : w.runtime.subscribers ≠ [] := by
      intro hn
      have hmem := (hs.members id).mpr (by rw [hp]; rfl)
      rw [hn] at hmem
      cases hmem
    have hawake : w.runtime.awake = true := hs.watch.mpr hsubs
    simp only [enter, RepoRuntime.unsubscribe]
    generalize w.runtime.subscribers.filter (· ≠ id) = rest
    cases rest with
    | nil => simp
    | cons _ _ => simp [hawake]
  · intro i
    simp only [enter, RepoRuntime.unsubscribe, List.mem_filter, decide_eq_true_eq]
    split
    · rename_i hi
      exact iff_of_false (fun h => h.2 hi) Bool.false_ne_true
    · rename_i hi
      exact and_iff_left hi
  · refine ⟨hf.superseded, fun h => absurd h Bool.false_ne_true,
      fun h => absurd h Bool.false_ne_true, by simp, by simp, by simp, ?_⟩
    intro h
    obtain ⟨hn, hk | hk⟩ := hf.token h
    · exact ⟨hn, .inl hk⟩
    · exact absurd (hk.symm.trans hp) (by simp)

lemma sound_step (hs : w.Sound) {l : Label} (h : w.step l = some t) : t.Sound := by
  cases l with
  | publish update =>
    obtain rfl := Option.some.inj h
    exact sound_publish hs
  | allocate =>
    obtain rfl := Option.some.inj h
    exact sound_allocate hs
  | register id =>
    rw [step] at h
    split at h
    · rename_i hp
      obtain rfl := Option.some.inj h
      exact sound_register hs hp
    · cases h
  | read id update =>
    rw [step] at h
    split at h
    · rename_i hp
      obtain rfl := Option.some.inj h
      exact sound_read hs hp
    · cases h
  | seed id =>
    rw [step] at h
    split at h
    · rename_i hp
      obtain rfl := Option.some.inj h
      exact sound_seed hs hp
    · cases h
  | fill id =>
    rw [step] at h
    split at h
    · rename_i seed hp
      obtain rfl := Option.some.inj h
      exact sound_fill hs hp
    · cases h
  | take id =>
    rw [step] at h
    split at h
    · rename_i hp
      obtain rfl := Option.some.inj h
      exact sound_takeFor hs (by rw [hp]; rfl) (.inr rfl)
    · split at h
      · rename_i hp
        obtain rfl := Option.some.inj h
        exact sound_takeFor hs (by rw [hp]; rfl) (.inl rfl)
      · cases h
  | receive id =>
    rw [step] at h
    split at h
    · rename_i hp
      obtain rfl := Option.some.inj h
      exact sound_receive hs hp.1
    · cases h
  | timeout id =>
    rw [step] at h
    split at h
    · rename_i hp
      obtain rfl := Option.some.inj h
      exact sound_timeout hs hp
    · cases h
  | drop id =>
    rw [step] at h
    split at h
    · rename_i hp
      obtain rfl := Option.some.inj h
      exact sound_drop hs hp
    · cases h

lemma sound_run {labels : List Label} (hrun : run step {} labels = some w) : w.Sound :=
  run_invariant (fun _ _ _ hs h => sound_step hs h) sound_initial hrun

/-- In every run a subscription takes a subsequence of the values `latest` had; whenever it is in
no call, what is pending in its slot, or else what it took last, is `latest`. A value published
into its slot has a wakeup queued, or the call that received it is about to look, and the next
call takes it. The watch is awake exactly when somebody is subscribed. -/
theorem conflation_loses_superseded (labels : List Label) (w : World)
    (hrun : run step {} labels = some w) :
    w.history.getLast? = w.runtime.latest ∧
    (∀ id, (w.taken id).Sublist w.history) ∧
    (∀ id ∈ w.runtime.subscribers, w.phase id = .ready →
      (w.runtime.slot id).or (w.taken id).getLast? = w.runtime.latest) ∧
    (∀ id, w.published id = true → w.runtime.wake id = true ∨ w.phase id = .woken) ∧
    (∀ id update, w.phase id = .ready ∨ w.phase id = .woken → w.runtime.slot id = some update →
      ∃ t, w.step (.take id) = some t ∧ t.phase id = .ready ∧
        t.taken id = w.taken id ++ [update]) ∧
    (w.runtime.awake = true ↔ w.runtime.subscribers ≠ []) := by
  have hs := sound_run hrun
  refine ⟨hs.history, fun id => ?_, fun id hm hp => ?_, fun id hp => ((hs.cells id).token hp).2,
    fun id update hp hu => ?_, hs.watch⟩
  · exact (List.sublist_append_left _ _).trans (hs.cells id).superseded
  · have hr : (w.phase id).returned = true := congrArg Phase.returned hp
    rcases hu : w.runtime.slot id with _ | update
    · exact (hs.cells id).settled hr hu
    · rcases (hs.cells id).pending (Phase.listed_of_returned hr) with hn | hn
      · exact absurd (hu.symm.trans hn) (by simp)
      · exact hu.symm.trans hn
  · rcases hp with hp | hp
    · exact ⟨w.takeFor id .waiting, by rw [step, if_pos hp],
        by simp [takeFor, RepoRuntime.take, hu], by simp [takeFor, RepoRuntime.take, hu]⟩
    · exact ⟨w.takeFor id .ready, by rw [step, if_neg (by simp [hp]), if_pos hp],
        by simp [takeFor, RepoRuntime.take, hu], by simp [takeFor, RepoRuntime.take, hu]⟩

def clean : StatusUpdate := ⟨.status, "clean"⟩

def dirty : StatusUpdate := ⟨.status, "dirty"⟩

def wokenOnce : List Label :=
  [.allocate, .register 0, .read 0 (some clean), .seed 0, .fill 0, .take 0, .take 0, .receive 0,
    .take 0, .take 0, .publish dirty, .receive 0, .take 0]

theorem conflation_loses_superseded_woken : ∃ w, run step {} wokenOnce = some w ∧
    w.taken 0 = [clean, dirty] ∧ (w.taken 0).Sublist w.history ∧
    (w.runtime.slot 0).or (w.taken 0).getLast? = w.runtime.latest := by
  obtain ⟨w, hw⟩ := Option.isSome_iff_exists.mp (show (run step {} wokenOnce).isSome from rfl)
  have heard : (run step {} wokenOnce).map (fun t => (t.taken 0, t.runtime.subscribers, t.phase 0))
      = some ([clean, dirty], [0], .ready) := rfl
  rw [hw, Option.map_some, Option.some.injEq, Prod.mk.injEq, Prod.mk.injEq] at heard
  obtain ⟨htaken, hsubs, hphase⟩ := heard
  have hall := conflation_loses_superseded _ w hw
  exact ⟨w, hw, htaken, hall.2.1 0, hall.2.2.1 0 (by simp [hsubs]) hphase⟩

end World

end Nightcrow.Session.Runtime
