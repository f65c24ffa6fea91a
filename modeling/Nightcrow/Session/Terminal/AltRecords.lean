import Nightcrow.Session.Terminal.Hub

namespace Nightcrow.Session.Terminal

open Nightcrow.Library Nightcrow.Runtime.Emulator

variable {T : Type*} [Terminal T]

structure Kept (grid : PaneId → List UInt8 → Prop) (s : Shared) (t : PaneModeTracker T) : Prop where
  off : ∀ p ∈ s.panes, p.modes.altScreen = false → p.screen = [] ∧ p.since = []
  on : ∀ p ∈ s.panes, p.modes.altScreen = true → p.screen = [] ∨ grid p.id p.screen
  tracked : ∀ p ∈ s.panes, t.wasAlt p.id = p.modes.altScreen
  owed : ∀ i, 0 < t.owed i → t.wasAlt i = true

namespace Kept

variable {grid grid' : PaneId → List UInt8 → Prop} {s s' : Shared} {t t' : PaneModeTracker T}
  {pane : PaneId} {now : ℕ}

omit [Terminal T] in
lemma mono (h : Kept grid s t) (hg : ∀ i g, grid i g → grid' i g) : Kept grid' s t :=
  ⟨h.off, fun p hp ha => (h.on p hp ha).imp_right (hg _ _), h.tracked, h.owed⟩

omit [Terminal T] in
lemma of_subset (h : Kept grid s t) (hs : s'.panes ⊆ s.panes) : Kept grid s' t :=
  ⟨fun p hp => h.off p (hs hp), fun p hp => h.on p (hs hp), fun p hp => h.tracked p (hs hp), h.owed⟩

omit [Terminal T] in
lemma screen_or (h : Kept grid s t) {p : PaneState} (hp : p ∈ s.panes) :
    p.screen = [] ∨ grid p.id p.screen := by
  cases ha : p.modes.altScreen with
  | true => exact h.on p hp ha
  | false => exact .inl (h.off p hp ha).1

omit [Terminal T] in
lemma updatePane (h : Kept grid s t) {f : PaneState → PaneState} (hid : ∀ p, (f p).id = p.id)
    (hoff : ∀ p ∈ s.panes, p.id = pane → (f p).modes.altScreen = false →
      (f p).screen = [] ∧ (f p).since = [])
    (hon : ∀ p ∈ s.panes, p.id = pane → (f p).modes.altScreen = true →
      (f p).screen = [] ∨ grid pane (f p).screen)
    (hpane : ∀ p ∈ s.panes, p.id = pane → t'.wasAlt pane = (f p).modes.altScreen)
    (hne : ∀ i, pane ≠ i → t'.wasAlt i = t.wasAlt i)
    (howed : ∀ i, 0 < t'.owed i → t'.wasAlt i = true) : Kept grid (s.updatePane pane f) t' := by
  have hmem : ∀ q ∈ (s.updatePane pane f).panes,
      (∃ p ∈ s.panes, p.id = pane ∧ q = f p) ∨ (q ∈ s.panes ∧ pane ≠ q.id) := by
    intro q hq
    obtain ⟨p, hp, rfl⟩ := List.mem_map.mp hq
    by_cases hi : p.id = pane
    · exact .inl ⟨p, hp, hi, if_pos hi⟩
    · rw [if_neg hi]
      exact .inr ⟨hp, fun he => hi he.symm⟩
  refine ⟨fun q hq ha => ?_, fun q hq ha => ?_, fun q hq => ?_, howed⟩
  · rcases hmem q hq with ⟨p, hp, hi, rfl⟩ | ⟨hq, -⟩
    · exact hoff p hp hi ha
    · exact h.off q hq ha
  · rcases hmem q hq with ⟨p, hp, hi, rfl⟩ | ⟨hq, -⟩
    · rw [(hid p).trans hi]
      exact hon p hp hi ha
    · exact h.on q hq ha
  · rcases hmem q hq with ⟨p, hp, hi, rfl⟩ | ⟨hq, hi⟩
    · rw [(hid p).trans hi]
      exact hpane p hp hi
    · exact (hne _ hi).trans (h.tracked q hq)

lemma output (h : Kept grid s t) {data : List UInt8} {o : Observed}
    {r : Shared × PaneModeTracker T × Bool} (ho : Shared.Outcome s t pane data o r)
    (hg : ∀ g, r.2.1.snapshot pane = some g → grid pane g) : Kept grid r.1 r.2.1 := by
  obtain ⟨f, hf, hr⟩ := ho.shared
  have hw : r.2.1.wasAlt pane = o.modes.altScreen := (ho.wasAlt pane).trans (if_pos rfl)
  rw [hr]
  refine of_subset (s := s.updatePane pane f) ?_ (List.Subset.refl _)
  refine h.updatePane (fun p => (hf p).id) (fun p hp hi ha => ?_) (fun p hp hi ha => ?_)
    (fun p hp hi => ?_) (fun i hi => (ho.wasAlt i).trans (if_neg hi)) (fun i hi => ?_)
  · rw [(hf p).modes] at ha
    have hc := ho.changed
    cases hch : o.altChanged with
    | true => exact (hf p).left ha hch
    | false =>
      rw [(hf p).stayed ha hch |>.1, (hf p).stayed ha hch |>.2]
      refine h.off p hp ?_
      rw [← h.tracked p hp, hi]
      rw [hch, ha] at hc
      simpa using hc.symm
  · rw [(hf p).modes] at ha
    rcases (hf p).shown ha with he | he
    · rw [he, ← hi]
      exact h.screen_or hp
    · exact .inr (hg _ he)
  · rw [hw, (hf p).modes]
  · by_cases hp : pane = i
    · subst hp
      cases ha : o.modes.altScreen with
      | true => exact hw.trans ha
      | false =>
        rcases ho.owed ha with h0 | ⟨hn, he⟩
        · omega
        · rw [he] at hi
          simp [h.owed pane hi] at hn
    · rw [ho.owed_of_ne i hp] at hi
      rw [ho.wasAlt i, if_neg hp]
      exact h.owed i hi

lemma settle (h : Kept grid s t) {o : Observed} (ht : t.settlePane pane = some (t', o)) :
    Kept grid (s.storeSettled pane o) t' := by
  obtain ⟨hc, hw, hw'⟩ := PaneModeTracker.settlePane_cases ht
  have hp : t'.wasAlt pane = o.modes.altScreen := (hw pane).trans (if_pos rfl)
  have hsettle : ∀ p : PaneState, (p.settle o).modes = o.modes := fun p => rfl
  refine h.updatePane (fun p => ?_) (fun p hp hi ha => ?_) (fun p hp hi ha => ?_)
    (fun p _ _ => hp) (fun i hi => (hw i).trans (if_neg hi)) (fun i hi => ?_)
  · simp only [PaneState.settle]
    split <;> rfl
  · rw [hsettle] at ha
    simp only [PaneState.settle, ha, Bool.not_false, Bool.and_true]
    split
    · exact ⟨rfl, rfl⟩
    · rename_i hch
      refine h.off p hp ?_
      rw [← h.tracked p hp, hi]
      rw [Bool.eq_false_iff.mpr hch, ha] at hc
      simpa using hc.symm
  · rw [hsettle] at ha
    simp only [PaneState.settle, ha, Bool.not_true, Bool.and_false, Bool.false_eq_true, if_false]
    exact hi ▸ h.screen_or hp
  · rw [hw'] at hi
    split at hi
    · omega
    · rename_i hn
      have hwas := h.owed i hi
      rw [hw i]
      split
      · rename_i he
        subst he
        have hch : o.altChanged = false := Bool.eq_false_iff.mpr (fun hch => hn ⟨rfl, hch⟩)
        rw [hch, hwas] at hc
        simpa using hc.symm
      · exact hwas

omit [Terminal T] in
lemma storeScreen (h : Kept grid s t) {screen : List UInt8}
    (ha : ∀ p ∈ s.panes, p.id = pane → p.modes.altScreen = true) (hg : grid pane screen) :
    Kept grid (s.storeScreen pane screen) (t.markStored pane now) := by
  refine h.updatePane (fun p => rfl) (fun p hp hi hf => ?_) (fun _ _ _ _ => .inr hg)
    (fun p hp hi => hi ▸ h.tracked p hp) (fun _ _ => rfl) (fun i hi => ?_)
  · have hf : p.modes.altScreen = false := hf
    simp [ha p hp hi] at hf
  · rw [PaneModeTracker.owed_markStored] at hi
    split at hi
    · omega
    · exact h.owed i hi

lemma settleRestless (h : Kept grid s t) {restless : List PaneId}
    (hc : ∀ pane ∈ restless, ∀ p ∈ s.panes, p.id = pane → (t.settlePaced pane now).isSome →
      p.modes.altScreen = true)
    (hg : ∀ i g, t.snapshot i = some g → grid i g) :
    Kept grid ((t.settleRestless restless now).2.foldl (fun s e => s.storeScreen e.1 e.2) s)
      (t.settleRestless restless now).1 := by
  have halt : ∀ pane ∈ t.candidates restless, ∀ p ∈ s.panes, p.id = pane →
      (t.settlePaced pane now).isSome → p.modes.altScreen = true := by
    intro pane hm p hp hi hs
    rcases List.mem_append.mp hm with hm | hm
    · exact hc pane hm p hp hi hs
    · obtain ⟨⟨i, pace⟩, hin, rfl⟩ := List.mem_map.mp hm
      obtain ⟨hin, hw⟩ := List.mem_filter.mp hin
      have hpace := Std.TreeMap.mem_toList_iff_getElem?_eq_some.mp hin
      have howed : 0 < t.owed i := by
        simp only [Bool.and_eq_true, decide_eq_true_eq] at hw
        simpa [PaneModeTracker.owed, hpace] using hw.1
      rw [← h.tracked p hp, hi]
      exact h.owed i howed
  have hstep : ∀ (u : Shared) (v : PaneModeTracker T) pane screen, pane ∈ t.candidates restless →
      (Kept grid u v ∧ (∀ i g, v.settlePaced i now = some g → t.settlePaced i now = some g) ∧
        ∀ p ∈ u.panes, ∃ q ∈ s.panes, q.id = p.id ∧ q.modes = p.modes) →
      v.settlePaced pane now = some screen →
      Kept grid (u.storeScreen pane screen) (v.markStored pane now) ∧
        (∀ i g, (v.markStored pane now).settlePaced i now = some g → t.settlePaced i now = some g) ∧
        ∀ p ∈ (u.storeScreen pane screen).panes, ∃ q ∈ s.panes, q.id = p.id ∧ q.modes = p.modes := by
    rintro u v pane screen hm ⟨hk, hdue, hmodes⟩ hs
    have ht := hdue pane screen hs
    refine ⟨hk.storeScreen (fun p hp hi => ?_) (hg pane screen ?_), fun i g hi => ?_, fun p hp => ?_⟩
    · obtain ⟨q, hq, hqi, hqm⟩ := hmodes p hp
      rw [← hqm]
      exact halt pane hm q hq (hqi.trans hi) (by rw [ht]; rfl)
    · exact PaneModeTracker.settlePaced_snapshot ht
    · exact hdue i g (PaneModeTracker.settlePaced_markStored hi)
    · obtain ⟨q, hq, rfl⟩ := List.mem_map.mp hp
      obtain ⟨q', hq', hi, hmo⟩ := hmodes q hq
      refine ⟨q', hq', ?_⟩
      split <;> exact ⟨hi, hmo⟩
  exact (settleCandidates_rule hstep
    ⟨h, fun _ _ hi => hi, fun p hp => ⟨p, hp, rfl, rfl⟩⟩).1

lemma applySize {w : Worker T} (h : Kept grid w.shared w.tracker) (backend : Backend)
    (size : PaneSize)
    (hg : ∀ g, (w.applySize backend pane size now).tracker.snapshot pane = some g → grid pane g) :
    Kept grid (w.applySize backend pane size now).shared
      (w.applySize backend pane size now).tracker := by
  have hsize : Kept grid (w.shared.updatePane pane (fun p => { p with size }))
      (w.tracker.resize pane size) := by
    refine h.updatePane (fun _ => rfl) (fun p hp _ => h.off p hp) (fun p hp hi ha => ?_)
      (fun p hp hi => hi ▸ h.tracked p hp) (fun _ _ => rfl) (fun i hi => ?_)
    · exact hi ▸ h.on p hp ha
    · rw [PaneModeTracker.owed_resize] at hi
      exact h.owed i hi
  unfold Worker.applySize at hg ⊢
  dsimp only at hg ⊢
  split at hg <;> rename_i hs
  · rename_i screen
    have hgrid : grid pane screen := by
      refine hg screen ?_
      split at hs
      · exact hs
      · cases hs
    refine hsize.updatePane (fun p => ?_) (fun p hp hi ha => ?_) (fun p hp hi ha => ?_)
      (fun p hp hi => ?_) (fun _ _ => rfl) (fun i hi => ?_)
    · split <;> rfl
    · split at ha
      · rename_i ht
        simp [PaneState.withScreen, ht] at ha
      · rename_i ht
        rw [if_neg ht]
        exact hsize.off p hp (Bool.eq_false_iff.mpr ht)
    · split at ha
      · rename_i ht
        rw [if_pos ht]
        exact .inr hgrid
      · rename_i ht
        exact absurd ha ht
    · have := hsize.tracked p hp
      rw [hi] at this
      refine Eq.trans this ?_
      split <;> rfl
    · rw [PaneModeTracker.owed_markStored] at hi
      split at hi
      · omega
      · exact hsize.owed i hi
  · exact hsize

end Kept

namespace Hub

variable {h t : Hub T}

structure AltSound (h : Hub T) : Prop where
  kept : Kept (fun i g => g ∈ h.visit i) h.worker.shared h.worker.tracker
  fresh : ∀ i, h.worker.backend.nextId ≤ i → h.worker.tracker.Unseen i

def Shows (h : Hub T) (i : PaneId) (g : List UInt8) : Prop :=
  g ∈ h.visit i ∨ h.worker.tracker.snapshot i = some g

lemma altSound_look (hk : Kept h.Shows h.worker.shared h.worker.tracker)
    (hf : ∀ i, h.worker.backend.nextId ≤ i → h.worker.tracker.Unseen i) :
    h.look.AltSound := by
  refine ⟨⟨hk.off, fun p hp ha => ?_, hk.tracked, hk.owed⟩, hf⟩
  have hon : h.onAlt p.id = true := List.any_eq_true.mpr ⟨p, hp, by simp [ha]⟩
  refine (hk.on p hp ha).imp_right fun hg => ?_
  show p.screen ∈ if h.onAlt p.id then _ else _
  rw [if_pos hon, List.mem_append]
  exact hg.imp_right (fun hs => by rw [hs]; exact List.mem_singleton_self _)

lemma AltSound.arranged (hs : h.AltSound) (hv : t.visit = h.visit)
    (hp : t.worker.shared.panes ⊆ h.worker.shared.panes)
    (ht : t.worker.tracker = h.worker.tracker) (hb : t.worker.backend = h.worker.backend) :
    t.look.AltSound := by
  refine altSound_look ?_ (by rw [hb, ht]; exact hs.fresh)
  rw [ht]
  exact (hs.kept.mono (fun i g hg => .inl (by rwa [hv]))).of_subset hp

def StillOnAlternate (h : Hub T) : Label → Prop
  | .settleRestless now => ∀ pane ∈ h.restless, ∀ p ∈ h.worker.shared.panes, p.id = pane →
      (h.worker.tracker.settlePaced pane now).isSome → p.modes.altScreen = true
  | _ => True

lemma AltSound.client (hs : h.AltSound) {l : Step} (ht : h.act (.client l) = some t) :
    t.look.AltSound := by
  simp only [act] at ht
  split at ht
  · rename_i hl
    obtain ⟨w, hw, rfl⟩ := Option.map_eq_some_iff.mp ht
    exact hs.arranged rfl (fun p hp => (sameHub_step hl hw).panes ▸ hp) rfl rfl
  · cases ht

lemma AltSound.openPane (hs : h.AltSound) {size : PaneSize} {client : Option ℕ}
    {title : Option String} (ht : h.act (.openPane size client title) = some t) :
    t.look.AltSound := by
  obtain rfl := Option.some.inj ht
  have hp : (h.worker.openPane size client title).shared.panes =
      h.worker.shared.panes ++ [{ id := h.worker.backend.nextId, title, size }] :=
    Shared.registerPane_panes ..
  refine altSound_look ?_ (fun i hi => hs.fresh i (Nat.le_of_succ_le hi))
  refine ⟨fun p hm ha => ?_, fun p hm ha => ?_, fun p hm => ?_, hs.kept.owed⟩
  · rw [hp, List.mem_append] at hm
    rcases hm with hm | hm
    · exact hs.kept.off p hm ha
    · obtain rfl := List.mem_singleton.mp hm
      exact ⟨rfl, rfl⟩
  · rw [hp, List.mem_append] at hm
    rcases hm with hm | hm
    · exact (hs.kept.on p hm ha).imp_right .inl
    · obtain rfl := List.mem_singleton.mp hm
      exact .inl rfl
  · rw [hp, List.mem_append] at hm
    rcases hm with hm | hm
    · exact hs.kept.tracked p hm
    · obtain rfl := List.mem_singleton.mp hm
      exact (hs.fresh _ le_rfl).2

lemma AltSound.closePane (hs : h.AltSound) {pane : PaneId}
    (ht : h.act (.closePane pane) = some t) : t.look.AltSound := by
  obtain rfl := Option.some.inj ht
  have hp : ∀ p ∈ (h.worker.closePane pane).shared.panes,
      p ∈ h.worker.shared.panes ∧ ¬ pane = p.id := by
    intro p hm
    have hm : p ∈ (h.worker.shared.removePaneAndAnnounce pane).panes := hm
    rw [Shared.removePaneAndAnnounce_panes, List.mem_filter] at hm
    exact ⟨hm.1, fun he => by simp [he] at hm⟩
  have hwas : ∀ i, ¬ pane = i →
      (h.worker.closePane pane).tracker.wasAlt i = h.worker.tracker.wasAlt i :=
    fun i hi => PaneModeTracker.wasAlt_forget.trans (if_neg hi)
  refine altSound_look ?_ (fun i hi => ?_)
  · refine ⟨fun p hm ha => hs.kept.off p (hp p hm).1 ha,
      fun p hm ha => (hs.kept.on p (hp p hm).1 ha).imp_right .inl,
      fun p hm => (hwas _ (hp p hm).2).trans (hs.kept.tracked p (hp p hm).1), fun i hi => ?_⟩
    have hi : 0 < (h.worker.tracker.forget pane).owed i := hi
    rw [PaneModeTracker.owed_forget] at hi
    split at hi
    · omega
    · rename_i hne
      exact (hwas i hne).trans (hs.kept.owed i hi)
  · exact PaneModeTracker.unseen_forget (hs.fresh i hi)

lemma AltSound.output (hs : h.AltSound) {pane : PaneId} {data : List UInt8} {now clock : ℕ}
    (ht : h.act (.output pane data now clock) = some t) : t.look.AltSound := by
  simp only [act] at ht
  split at ht
  · rename_i hlt
    obtain rfl := Option.some.inj ht
    have ho := Shared.recordPaneOutput_outcome h.worker.shared h.worker.tracker pane data now clock
    refine altSound_look ?_ (fun i hi => ?_)
    · exact Kept.output (hs.kept.mono fun i g hg => .inl hg) ho fun g hg => .inr hg
    · have hi : h.worker.backend.nextId ≤ i := hi
      have hne : pane ≠ i := (hlt.trans_le hi).ne
      exact ⟨(ho.emulators i hne).trans (hs.fresh i hi).1,
        (ho.wasAlt i).trans ((if_neg hne).trans (hs.fresh i hi).2)⟩
  · cases ht

lemma AltSound.resize (hs : h.AltSound) {pane : PaneId} {size : PaneSize} {client connection : ℕ}
    {accepted : Bool} {now : ℕ}
    (ht : h.act (.resize pane size client connection accepted now) = some t) :
    t.look.AltSound := by
  obtain rfl := Option.some.inj ht
  have hsame : h.look.AltSound :=
    altSound_look (hs.kept.mono fun i g hg => .inl hg) hs.fresh
  simp only [Worker.resizePane]
  split
  · split
    · exact hsame
    · split
      · exact hs.arranged rfl (List.Subset.refl _) rfl rfl
      · split
        · exact hsame
        · rename_i backend hb
          refine altSound_look ?_ (fun i hi => ?_)
          · exact Kept.of_subset (Kept.applySize (hs.kept.mono fun i g hg => .inl hg) backend size
              fun g hg => .inr hg) (List.Subset.refl _)
          · refine Worker.unseen_applySize (hs.fresh i ?_)
            have hi : (h.worker.applySize backend pane size now).backend.nextId ≤ i := hi
            rwa [Worker.backend_applySize, Worker.nextId_resize hb] at hi
  · exact hsame

lemma AltSound.settleSync (hs : h.AltSound) {now : ℕ} (ht : h.act (.settleSync now) = some t) :
    t.look.AltSound := by
  obtain rfl := Option.some.inj ht
  refine altSound_look ?_ (fun i hi => PaneModeTracker.unseen_settlePanes (hs.fresh i hi) _)
  have hstep : ∀ (s : Shared) (v : PaneModeTracker T) pane v' o,
      Kept (fun i g => g ∈ h.visit i) s v → v.settlePane pane = some (v', o) →
      Kept (fun i g => g ∈ h.visit i) (s.storeSettled pane o) v' :=
    fun _ _ _ _ _ hk hv => hk.settle hv
  exact (settlePanes_rule hstep hs.kept _).mono fun i g hg => .inl hg

lemma AltSound.settleRestless (hs : h.AltSound) {now : ℕ}
    (hc : h.StillOnAlternate (.settleRestless now)) (ht : h.act (.settleRestless now) = some t) :
    t.look.AltSound := by
  obtain rfl := Option.some.inj ht
  refine altSound_look ?_ (fun i hi => PaneModeTracker.unseen_settleCandidates (hs.fresh i hi) _)
  refine Kept.settleRestless (hs.kept.mono fun i g hg => .inl hg) hc fun i g hg => .inr ?_
  exact (PaneModeTracker.snapshot_settleCandidates _).trans hg

lemma AltSound.step (hs : h.AltSound) {l : Label} (hc : h.StillOnAlternate l)
    (ht : h.step l = some t) : t.AltSound := by
  obtain ⟨u, hu, rfl⟩ := Option.map_eq_some_iff.mp ht
  cases l with
  | client l => exact hs.client hu
  | openPane size client title => exact hs.openPane hu
  | closePane pane => exact hs.closePane hu
  | reorder order =>
    exact Option.some.inj hu ▸ hs.arranged rfl (Shared.reorderPanes_subset order) rfl rfl
  | restoreIndex pane index =>
    exact Option.some.inj hu ▸ hs.arranged rfl (Shared.restorePaneIndex_subset pane index) rfl rfl
  | zoom pane =>
    obtain rfl := Option.some.inj hu
    exact hs.arranged rfl (fun p hp => Shared.setZoom_panes (s := h.worker.shared) pane ▸ hp) rfl rfl
  | recovery pane report =>
    exact Option.some.inj hu ▸ hs.arranged rfl (List.Subset.refl _) rfl rfl
  | endRecovery pane =>
    exact Option.some.inj hu ▸ hs.arranged rfl (List.Subset.refl _) rfl rfl
  | endRecoveryIfReported pane =>
    obtain rfl := Option.some.inj hu
    exact hs.arranged rfl
      (fun p hp => Shared.endRecoveryIfReported_panes (s := h.worker.shared) pane ▸ hp) rfl rfl
  | resize pane size client connection accepted now => exact hs.resize hu
  | output pane data now clock => exact hs.output hu
  | settleSync now => exact hs.settleSync hu
  | settleRestless now => exact hs.settleRestless hc hu

omit [Terminal T] in
lemma altSound_empty : ({} : Hub T).AltSound where
  kept := ⟨fun p hp => (List.not_mem_nil hp).elim, fun p hp => (List.not_mem_nil hp).elim,
    fun p hp => (List.not_mem_nil hp).elim, fun i hi => by simp [PaneModeTracker.owed] at hi⟩
  fresh i _ := by simp [PaneModeTracker.Unseen, PaneModeTracker.wasAlt]

theorem records_belong {labels : List Label} (hr : run step ({} : Hub T) labels = some h)
    (hc : Along step StillOnAlternate ({} : Hub T) labels) :
    ∀ p ∈ h.worker.shared.panes,
      (p.modes.altScreen = false → p.screen = [] ∧ p.since = []) ∧
        (p.modes.altScreen = true → p.screen = [] ∨ p.screen ∈ h.visit p.id) := by
  have hs : h.AltSound := run_guarded (fun _ _ _ hs hc ht => hs.step hc ht) altSound_empty hc hr
  exact fun p hp => ⟨hs.kept.off p hp, hs.kept.on p hp⟩

end Hub

end Nightcrow.Session.Terminal
