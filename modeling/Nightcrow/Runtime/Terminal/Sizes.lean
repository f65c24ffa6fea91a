import Nightcrow.Runtime.Terminal.State

namespace Nightcrow.Runtime.Terminal

open Nightcrow.Library Nightcrow.Runtime.Emulator

abbrev PaneLayout := PaneId × UInt16 × UInt16

def PaneLayout.size (layout : PaneLayout) : Size := effectiveSize layout.2.1 layout.2.2

structure Sizing where
  confirmed : Option Size
  pending : Option PendingPaneResize

def Sizing.due (x : Sizing) (size : Size) (now : ℕ) : Bool :=
  x.pending.all
    (fun pending => pending.size ≠ size || resizeRetryInterval ≤ now - pending.attemptedAt)

def Sizing.fit (x : Sizing) (size : Size) (now : ℕ) (outcome : ResizeOutcome) : Sizing × Bool :=
  if x.confirmed = some size then ({ x with pending := none }, false)
  else if x.due size now then
    (if outcome = .applied then ⟨some size, none⟩ else { x with pending := some ⟨size, now⟩ }, true)
  else (x, false)

namespace TerminalState

variable {T : Type*} [Answering T] {s : TerminalState T} {log : List Entry} {p : PaneId}

def sizing (s : TerminalState T) (p : PaneId) : Sizing :=
  ⟨s.confirmedContentSize.lookup p, s.pendingContentSize.lookup p⟩

def requests (calls : List Call) (p : PaneId) : List Call :=
  calls.filter (fun
    | .resize q _ _ _ => q = p
    | _ => false)

lemma requests_append (calls calls' : List Call) :
    requests (calls ++ calls') p = requests calls p ++ requests calls' p :=
  List.filter_append _ _

lemma requestResize_ownsSize (id : PaneId) (size : Size) (now : ℕ) (outcome : ResizeOutcome) :
    (s.requestResize id size now outcome).ownsSize = s.ownsSize := by
  cases outcome <;> rfl

lemma fitPane_ownsSize (answer : PaneId → ResizeOutcome) (now : ℕ) (layout : PaneLayout) :
    (fitPane answer now s layout).1.ownsSize = s.ownsSize := by
  have hsized : (if s.activePaneId = some layout.1 then
      { s with size := effectiveSize layout.2.1 layout.2.2 } else s).ownsSize = s.ownsSize := by
    split_ifs <;> rfl
  rw [fitPane]
  dsimp only
  split_ifs
  all_goals first | exact hsized | rfl | exact requestResize_ownsSize _ _ _ _

lemma requestResize_other {id : PaneId} {size : Size} {now : ℕ} (outcome : ResizeOutcome)
    (hp : p ≠ id) : (s.requestResize id size now outcome).sizing p = s.sizing p := by
  cases outcome <;>
    simp [sizing, requestResize, noteResizeAttempt, AList.lookup_insert_ne hp,
      AList.lookup_erase_ne hp]

lemma requestResize_self {size : Size} {now : ℕ} (outcome : ResizeOutcome) :
    (s.requestResize p size now outcome).sizing p =
      if outcome = .applied then ⟨some size, none⟩
      else { s.sizing p with pending := some ⟨size, now⟩ } := by
  cases outcome <;> simp [sizing, requestResize, noteResizeAttempt]

lemma fitPane_eq (answer : PaneId → ResizeOutcome) (now : ℕ) (layout : PaneLayout)
    (howned : s.ownsSize = true) : ∃ t : TerminalState T, (∀ p, t.sizing p = s.sizing p) ∧
      fitPane answer now s layout =
        if t.confirmedContentSize.lookup layout.1 = some layout.size then
          ({ t with pendingContentSize := t.pendingContentSize.erase layout.1 }, [])
        else if t.retryDue layout.1 layout.size now then
          (t.requestResize layout.1 layout.size now (answer layout.1),
            [.resize layout.1 layout.size now (answer layout.1)])
        else (t, []) := by
  have hkept : (if s.activePaneId = some layout.1 then
      { s with size := layout.size } else s).ownsSize = true := by
    split_ifs <;> exact howned
  have hsized : ∀ p, (if s.activePaneId = some layout.1 then
      { s with size := layout.size } else s).sizing p = s.sizing p := by
    intro p
    split_ifs <;> rfl
  refine ⟨{ (if s.activePaneId = some layout.1 then { s with size := layout.size } else s) with
    lastContentSize := (if s.activePaneId = some layout.1 then
      { s with size := layout.size } else s).lastContentSize.insert layout.1 layout.size },
    hsized, ?_⟩
  rw [fitPane]
  exact if_neg (by rw [Bool.not_eq_true', Bool.not_eq_false]; exact hkept)

lemma fitPane_other (answer : PaneId → ResizeOutcome) (now : ℕ) {layout : PaneLayout}
    (howned : s.ownsSize = true) (hp : p ≠ layout.1) :
    (fitPane answer now s layout).1.sizing p = s.sizing p ∧
      requests (fitPane answer now s layout).2 p = [] := by
  obtain ⟨t, hsized, heq⟩ := fitPane_eq answer now layout howned
  rw [heq]
  split_ifs
  · refine ⟨Eq.trans ?_ (hsized p), rfl⟩
    simp [sizing, AList.lookup_erase_ne hp]
  · refine ⟨(requestResize_other _ hp).trans (hsized p), ?_⟩
    simp [requests, Ne.symm hp]
  · exact ⟨hsized p, rfl⟩

lemma fitPane_self (answer : PaneId → ResizeOutcome) (now : ℕ) (layout : PaneLayout)
    (howned : s.ownsSize = true) :
    (fitPane answer now s layout).1.sizing layout.1 =
        ((s.sizing layout.1).fit layout.size now (answer layout.1)).1 ∧
      requests (fitPane answer now s layout).2 layout.1 =
        if ((s.sizing layout.1).fit layout.size now (answer layout.1)).2 then
          [.resize layout.1 layout.size now (answer layout.1)] else [] := by
  obtain ⟨t, hsized, heq⟩ := fitPane_eq answer now layout howned
  rw [heq, ← hsized, Sizing.fit]
  by_cases hdone : t.confirmedContentSize.lookup layout.1 = some layout.size
  · have hconfirmed : (t.sizing layout.1).confirmed = some layout.size := hdone
    rw [if_pos hdone, if_pos hconfirmed]
    refine ⟨?_, rfl⟩
    simp [sizing]
  · have hconfirmed : (t.sizing layout.1).confirmed ≠ some layout.size := hdone
    rw [if_neg hdone, if_neg hconfirmed]
    by_cases hdue : t.retryDue layout.1 layout.size now = true
    · have hdue' : (t.sizing layout.1).due layout.size now = true := hdue
      rw [if_pos hdue, if_pos hdue']
      refine ⟨requestResize_self _, ?_⟩
      simp [requests]
    · have hdue' : ¬ (t.sizing layout.1).due layout.size now = true := hdue
      rw [if_neg hdue, if_neg hdue']
      exact ⟨rfl, rfl⟩

lemma frame_ownsSize {answer : PaneId → ResizeOutcome} {now : ℕ} {layouts : List PaneLayout} :
    ∀ {s : TerminalState T}, (resizeVisiblePanes answer now layouts s).1.ownsSize = s.ownsSize := by
  induction layouts with
  | nil => exact rfl
  | cons layout layouts ih => exact ih.trans (fitPane_ownsSize answer now layout)

lemma frame_other (answer : PaneId → ResizeOutcome) (now : ℕ) {layouts : List PaneLayout} :
    ∀ {s : TerminalState T}, s.ownsSize = true → p ∉ layouts.map Prod.fst →
      (resizeVisiblePanes answer now layouts s).1.sizing p = s.sizing p ∧
        requests (resizeVisiblePanes answer now layouts s).2 p = [] := by
  induction layouts with
  | nil => exact fun _ _ => ⟨rfl, rfl⟩
  | cons layout layouts ih =>
    intro s howned hp
    rw [List.map_cons, List.mem_cons, not_or] at hp
    obtain ⟨hfirst, hcalls⟩ := fitPane_other answer now howned hp.1
    obtain ⟨hrest, hcalls'⟩ := ih ((fitPane_ownsSize answer now layout).trans howned) hp.2
    rw [resizeVisiblePanes]
    dsimp only
    rw [requests_append, hcalls, hcalls']
    exact ⟨hrest.trans hfirst, rfl⟩

lemma frame_self (answer : PaneId → ResizeOutcome) (now : ℕ) {layout : PaneLayout}
    {layouts : List PaneLayout} : ∀ {s : TerminalState T}, s.ownsSize = true →
      (layouts.map Prod.fst).Nodup → layout ∈ layouts →
      (resizeVisiblePanes answer now layouts s).1.sizing layout.1 =
          ((s.sizing layout.1).fit layout.size now (answer layout.1)).1 ∧
        requests (resizeVisiblePanes answer now layouts s).2 layout.1 =
          if ((s.sizing layout.1).fit layout.size now (answer layout.1)).2 then
            [.resize layout.1 layout.size now (answer layout.1)] else [] := by
  induction layouts with
  | nil => exact fun _ _ h => (nomatch h)
  | cons first layouts ih =>
    intro s howned hn hmem
    obtain ⟨hnot, hn⟩ := List.nodup_cons.mp hn
    have hnext := (fitPane_ownsSize (s := s) answer now first).trans howned
    rw [resizeVisiblePanes]
    dsimp only
    rw [requests_append]
    rcases List.mem_cons.mp hmem with rfl | hmem
    · obtain ⟨hself, hcalls⟩ := fitPane_self answer now layout howned
      obtain ⟨hrest, hcalls'⟩ := frame_other answer now hnext hnot
      rw [hrest, hself, hcalls, hcalls', List.append_nil]
      exact ⟨rfl, rfl⟩
    · have hne : layout.1 ≠ first.1 := fun he => hnot (he ▸ List.mem_map_of_mem hmem)
      obtain ⟨hother, hcalls⟩ := fitPane_other answer now howned hne
      obtain ⟨hself, hcalls'⟩ := ih hnext hn hmem
      rw [hself, hcalls, hcalls', hother, List.nil_append]
      exact ⟨rfl, rfl⟩

lemma step_sizing (h : Tracks s log) (hheld : (s.emulators.lookup p).isSome)
    (howned : s.ownsSize = true) {st : Step} (hnext : (s.step st).1.ownsSize = true)
    (hframe : ∀ answer now layouts, st ≠ .frame answer now layouts) (hforce : st ≠ .forceRefit)
    (hexit : ∀ clock, st ≠ .event (.exited p) clock)
    (hresized : ∀ rows cols clock, st ≠ .event (.resized p rows cols) clock) :
    (s.step st).1.sizing p = s.sizing p := by
  have hsame : ∀ {t : TerminalState T}, Untouched s t → t.sizing p = s.sizing p := by
    intro t ht
    rw [sizing, ht.confirmed, ht.pending, ← sizing]
  cases st with
  | frame answer now layouts => exact absurd rfl (hframe answer now layouts)
  | forceRefit => exact absurd rfl hforce
  | settle now => exact hsame (settlePanes_spec false (s.expired_nodup now)).1
  | event event clock =>
    cases event with
    | created q rows cols requested title =>
      change (s.adoptPane q rows cols requested title).sizing p = s.sizing p
      rw [adoptPane]
      by_cases hq : s.panes.any (fun info => info.id = q) = true
      · rw [if_pos hq]
      · have hne : p ≠ q := fun he => hq (any_id.mpr (he ▸ (h.held p).mpr hheld))
        rw [if_neg hq]
        simp [sizing, AList.lookup_insert_ne hne]
    | output q data => exact hsame (applyOutput_spec s q data clock).1
    | replayOutput q data =>
      rw [step, apply]
      cases he : s.emulators.lookup q with
      | none => rfl
      | some e =>
        have hout := (applyOutput_spec { s with
          emulators := s.emulators.insert q (e.suppressPtyReplies true)
          replayingPanes := s.replayingPanes.insert q } q data clock).1
        dsimp only
        rw [sizing, hout.confirmed, hout.pending]
        rfl
    | replayComplete =>
      have hsettle := (settlePanes_spec true h.nodup (s := { s with replayingPanes := [] })).1
      change (settlePanes true s.replayingPanes { s with replayingPanes := [] }).1.sizing p = _
      rw [sizing, hsettle.confirmed, hsettle.pending]
      rfl
    | resized q rows cols =>
      have hne : p ≠ q := fun he => hresized rows cols clock (he ▸ rfl)
      change (s.confirmResize q rows cols).sizing p = s.sizing p
      rw [confirmResize]
      cases s.emulators.lookup q with
      | none => rfl
      | some e => simp [sizing, AList.lookup_insert_ne hne, AList.lookup_erase_ne hne]
    | reordered order => rfl
    | sizeOwnership owned =>
      have hown : owned = true := hnext
      change (s.sizeOwnership owned).sizing p = s.sizing p
      rw [sizing, TerminalState.sizeOwnership, howned, hown]
      rfl
    | exited q =>
      have hne : p ≠ q := fun he => hexit clock (he ▸ rfl)
      rw [step, apply]
      dsimp only
      split_ifs
      · simp [sizing, removePaneState, AList.lookup_erase_ne hne]
      · rfl

lemma confirmResize_sizing (hheld : (s.emulators.lookup p).isSome) (rows cols : UInt16) :
    (s.confirmResize p rows cols).sizing p = ⟨some (effectiveSize rows cols), none⟩ := by
  obtain ⟨e, he⟩ := Option.isSome_iff_exists.mp hheld
  rw [confirmResize, he]
  simp [sizing]

lemma step_requests {st : Step} (h : Tracks s log)
    (hframe : ∀ answer now layouts, st ≠ .frame answer now layouts) :
    ∀ c ∈ (s.step st).2, ¬ Call.IsResize c := by
  cases st with
  | frame answer now layouts => exact absurd rfl (hframe answer now layouts)
  | forceRefit => exact fun c hc => List.mem_singleton.mp hc ▸ id
  | settle now => exact settlePanes_calls_not_resize (s.expired_nodup now)
  | event event clock =>
    cases event with
    | output q data =>
      intro c hc
      rw [step, apply, (applyOutput_spec s q data clock).2.2] at hc
      obtain ⟨e, -, hsend⟩ := Option.bind_eq_some_iff.mp (Option.mem_toList.mp hc)
      exact sends_not_resize hsend
    | replayOutput q data =>
      intro c hc
      rw [step, apply] at hc
      cases he : s.emulators.lookup q with
      | none =>
        rw [he] at hc
        cases hc
      | some e =>
        rw [he] at hc
        dsimp only at hc
        rw [(applyOutput_spec _ q data clock).2.2] at hc
        obtain ⟨e, -, hsend⟩ := Option.bind_eq_some_iff.mp (Option.mem_toList.mp hc)
        exact sends_not_resize hsend
    | replayComplete => exact settlePanes_calls_not_resize h.nodup
    | exited q =>
      intro c hc
      rw [step, apply] at hc
      dsimp only at hc
      split_ifs at hc
      · exact List.mem_singleton.mp hc ▸ id
      · cases hc
    | created => exact List.forall_mem_nil _
    | resized => exact List.forall_mem_nil _
    | reordered => exact List.forall_mem_nil _
    | sizeOwnership => exact List.forall_mem_nil _

lemma frame_not_owner (answer : PaneId → ResizeOutcome) (now : ℕ) {layouts : List PaneLayout} :
    ∀ {s : TerminalState T}, s.ownsSize = false →
      (resizeVisiblePanes answer now layouts s).2 = [] := by
  induction layouts with
  | nil => exact fun _ => rfl
  | cons layout layouts ih =>
    intro s h
    have hfirst : (fitPane answer now s layout).2 = [] := by
      have hkept : (if s.activePaneId = some layout.1 then
          { s with size := effectiveSize layout.2.1 layout.2.2 } else s).ownsSize = false := by
        split_ifs <;> exact h
      rw [fitPane]
      dsimp only
      rw [if_pos (by rw [hkept]; rfl)]
    rw [resizeVisiblePanes]
    dsimp only
    rw [hfirst, ih ((fitPane_ownsSize answer now layout).trans h)]
    rfl

lemma stand_isSome {entry : Entry} {standing : Option Standing} (h : standing.isSome)
    (hexit : entry ≠ .event (.exited p)) : (stand p entry standing).isSome := by
  obtain ⟨here, rfl⟩ := Option.isSome_iff_exists.mp h
  cases entry with
  | call c =>
    cases c with
    | resize q size now outcome =>
      cases outcome with
      | applied => rw [stand]; split_ifs <;> rfl
      | pending => rfl
      | failed => rfl
    | _ => rfl
  | event event =>
    cases event with
    | exited q =>
      rw [stand, if_neg (fun he : q = p => hexit (he ▸ rfl))]
      rfl
    | created => rw [stand]; split_ifs <;> rfl
    | replayOutput => rw [stand]; split_ifs <;> rfl
    | resized => rw [stand]; split_ifs <;> rfl
    | _ => rfl

lemma standing_isSome {entries : List Entry} (h : (standing log p).isSome)
    (hexit : .event (.exited p) ∉ entries) : (standing (entries ++ log) p).isSome := by
  induction entries with
  | nil => exact h
  | cons entry entries ih =>
    rw [List.mem_cons, not_or] at hexit
    exact stand_isSome (ih hexit.2) (Ne.symm hexit.1)

lemma step_held (h : Tracks s log) (hheld : (s.emulators.lookup p).isSome) {st : Step}
    (hexit : ∀ clock, st ≠ .event (.exited p) clock) :
    ((s.step st).1.emulators.lookup p).isSome := by
  have hstanding : (standing log p).isSome := by
    rw [h.standing, Option.isSome_map]
    exact hheld
  have hentries : .event (.exited p) ∉ ((s.step st).2.map Entry.call).reverse ++ st.entries := by
    rw [List.mem_append, List.mem_reverse, not_or]
    refine ⟨fun hm => ?_, fun hm => ?_⟩
    · obtain ⟨c, -, hc⟩ := List.mem_map.mp hm
      exact (nomatch hc)
    · cases st with
      | event event clock =>
        injection List.mem_singleton.mp hm with he
        exact hexit clock (he ▸ rfl)
      | settle => exact (nomatch hm)
      | frame => exact (nomatch hm)
      | forceRefit => exact (nomatch hm)
  have hafter := standing_isSome hstanding hentries
  rw [List.append_assoc, ← logged, (h.step st).standing, Option.isSome_map] at hafter
  exact hafter

end TerminalState

open TerminalState

/-- From some moment the client owns the sizing and its layout is fixed: frames keep coming at
growing times, each later request is answered by the size it carries, and the answers to earlier
ones run out. -/
structure Fitting {T : Type*} [Answering T] (run : ℕ → TerminalState T) (steps : ℕ → Step)
    (layouts : List PaneLayout) : Prop where
  start : ∃ log, Reaches (run 0) log
  step : ∀ n, run (n + 1) = ((run n).step (steps n)).1
  owned : ∀ n, (run n).ownsSize = true
  distinct : (layouts.map Prod.fst).Nodup
  held : ∀ layout ∈ layouts, ((run 0).emulators.lookup layout.1).isSome
  kept : ∀ n clock, ∀ layout ∈ layouts, steps n ≠ .event (.exited layout.1) clock
  unforced : ∀ n, steps n ≠ .forceRefit
  fixed : ∀ n answer now layouts', steps n = .frame answer now layouts' → layouts' = layouts
  frames : ∀ n t, ∃ m answer now, n ≤ m ∧ t ≤ now ∧ steps m = .frame answer now layouts
  growing : ∀ n m answer answer' now now', n ≤ m → steps n = .frame answer now layouts →
    steps m = .frame answer' now' layouts → now ≤ now'
  answered : ∀ n pane size now outcome,
    .resize pane size now outcome ∈ ((run n).step (steps n)).2 → outcome ≠ .applied →
      ∃ m clock, n < m ∧ steps m = .event (.resized pane size.1 size.2) clock
  strays : ∃ n, ∀ m ≥ n, ∀ layout ∈ layouts, ∀ rows cols clock,
    steps m = .event (.resized layout.1 rows cols) clock → effectiveSize rows cols = layout.size

namespace Fitting

variable {T : Type*} [Answering T] {run : ℕ → TerminalState T} {steps : ℕ → Step}
  {layouts : List PaneLayout} {layout : PaneLayout}

lemma tracks (h : Fitting run steps layouts) (n : ℕ) : ∃ log, Tracks (run n) log := by
  induction n with
  | zero =>
    obtain ⟨log, hlog⟩ := h.start
    exact ⟨log, hlog.tracks⟩
  | succ n ih =>
    obtain ⟨log, hlog⟩ := ih
    rw [h.step]
    exact ⟨_, hlog.step (steps n)⟩

lemma isHeld (h : Fitting run steps layouts) (hl : layout ∈ layouts) (n : ℕ) :
    ((run n).emulators.lookup layout.1).isSome := by
  induction n with
  | zero => exact h.held layout hl
  | succ n ih =>
    obtain ⟨log, hlog⟩ := h.tracks n
    rw [h.step]
    exact step_held hlog ih (fun clock => h.kept n clock layout hl)

lemma step_cases (h : Fitting run steps layouts) (hl : layout ∈ layouts) (n : ℕ) :
    (∃ answer now, steps n = .frame answer now layouts ∧
      (run (n + 1)).sizing layout.1 =
        (((run n).sizing layout.1).fit layout.size now (answer layout.1)).1 ∧
      requests ((run n).step (steps n)).2 layout.1 =
        if (((run n).sizing layout.1).fit layout.size now (answer layout.1)).2 then
          [.resize layout.1 layout.size now (answer layout.1)] else []) ∨
    (∃ rows cols clock, steps n = .event (.resized layout.1 rows cols) clock ∧
      (run (n + 1)).sizing layout.1 = ⟨some (effectiveSize rows cols), none⟩ ∧
      requests ((run n).step (steps n)).2 layout.1 = []) ∨
    ((run (n + 1)).sizing layout.1 = (run n).sizing layout.1 ∧
      requests ((run n).step (steps n)).2 layout.1 = []) := by
  obtain ⟨log, hlog⟩ := h.tracks n
  have hnone : (∀ answer now layouts', steps n ≠ .frame answer now layouts') →
      requests ((run n).step (steps n)).2 layout.1 = [] := by
    intro hframe
    refine List.filter_eq_nil_iff.mpr (fun c hc hr => ?_)
    have hnot := step_requests hlog hframe c hc
    cases c with
    | resize => exact hnot trivial
    | _ => exact Bool.false_ne_true hr
  rw [h.step]
  by_cases hframe : ∃ answer now layouts', steps n = .frame answer now layouts'
  · obtain ⟨answer, now, layouts', hst⟩ := hframe
    obtain rfl := h.fixed n answer now layouts' hst
    refine Or.inl ⟨answer, now, hst, ?_⟩
    rw [hst]
    exact frame_self answer now (h.owned n) h.distinct hl
  · have hframe' : ∀ answer now layouts', steps n ≠ .frame answer now layouts' :=
      fun answer now layouts' hst => hframe ⟨answer, now, layouts', hst⟩
    by_cases hresized : ∃ rows cols clock, steps n = .event (.resized layout.1 rows cols) clock
    · obtain ⟨rows, cols, clock, hst⟩ := hresized
      refine Or.inr (Or.inl ⟨rows, cols, clock, hst, ?_, hnone hframe'⟩)
      rw [hst]
      exact confirmResize_sizing (h.isHeld hl n) rows cols
    · refine Or.inr (Or.inr ⟨?_, hnone hframe'⟩)
      exact step_sizing hlog (h.isHeld hl n) (h.owned n) (h.step n ▸ h.owned (n + 1)) hframe'
        (h.unforced n) (fun clock => h.kept n clock layout hl)
        (fun rows cols clock hst => hresized ⟨rows, cols, clock, hst⟩)

def Fits (run : ℕ → TerminalState T) (layout : PaneLayout) (n : ℕ) : Prop :=
  ((run n).sizing layout.1).confirmed = some layout.size

lemma fits_step (h : Fitting run steps layouts) (hl : layout ∈ layouts) {n : ℕ}
    (hstray : ∀ rows cols clock, steps n = .event (.resized layout.1 rows cols) clock →
      effectiveSize rows cols = layout.size) (hfits : Fits run layout n) :
    Fits run layout (n + 1) ∧ requests ((run n).step (steps n)).2 layout.1 = [] := by
  rcases h.step_cases hl n with ⟨answer, now, -, hsizing, hreq⟩ | ⟨rows, cols, clock, hst, hsizing,
    hreq⟩ | ⟨hsizing, hreq⟩
  · have hc : ((run n).sizing layout.1).confirmed = some layout.size := hfits
    rw [Sizing.fit, if_pos hc] at hsizing hreq
    rw [Fits, hsizing]
    exact ⟨hfits, hreq⟩
  · rw [Fits, hsizing, hstray rows cols clock hst]
    exact ⟨rfl, hreq⟩
  · rw [Fits, hsizing]
    exact ⟨hfits, hreq⟩

lemma mem_requests {calls : List Call} {p : PaneId} {size : Size} {now : ℕ}
    {outcome : ResizeOutcome} : .resize p size now outcome ∈ requests calls p ↔
      .resize p size now outcome ∈ calls := by
  rw [requests, List.mem_filter]
  exact ⟨fun h => h.1, fun h => ⟨h, decide_eq_true rfl⟩⟩

lemma fits_of_request (h : Fitting run steps layouts) (hl : layout ∈ layouts) {n now : ℕ}
    {outcome : ResizeOutcome} (hreq : .resize layout.1 layout.size now outcome ∈
      requests ((run n).step (steps n)).2 layout.1)
    (hsizing : outcome = .applied → (run (n + 1)).sizing layout.1 = ⟨some layout.size, none⟩) :
    ∃ m, n < m ∧ Fits run layout m := by
  by_cases happlied : outcome = .applied
  · refine ⟨n + 1, Nat.lt_succ_self n, ?_⟩
    rw [Fits, hsizing happlied]
  · obtain ⟨m, clock, hlt, hst⟩ := h.answered n _ _ _ _ (mem_requests.mp hreq) happlied
    refine ⟨m + 1, hlt.trans (Nat.lt_succ_self m), ?_⟩
    have hsizing : ((run m).step (steps m)).1.sizing layout.1 =
        ⟨some (effectiveSize layout.size.1 layout.size.2), none⟩ := by
      rw [hst]
      exact confirmResize_sizing (h.isHeld hl m) _ _
    rw [Fits, h.step, hsizing, PaneLayout.size, effectiveSize_effectiveSize]

lemma fit_cases (x : Sizing) (size : Size) (now : ℕ) (outcome : ResizeOutcome)
    (hx : x.confirmed ≠ some size) :
    (x.fit size now outcome).2 = true ∧
        (x.fit size now outcome).1 = (if outcome = .applied then ⟨some size, none⟩
          else { x with pending := some ⟨size, now⟩ }) ∧
        (∀ pending, x.pending = some pending → pending.size = size →
          resizeRetryInterval ≤ now - pending.attemptedAt) ∨
      (x.fit size now outcome).2 = false ∧ (x.fit size now outcome).1 = x ∧
        ∃ attemptedAt, x.pending = some ⟨size, attemptedAt⟩ ∧
          now - attemptedAt < resizeRetryInterval := by
  rw [Sizing.fit, if_neg hx]
  by_cases hdue : x.due size now = true
  · rw [if_pos hdue]
    refine Or.inl ⟨rfl, rfl, fun pending hp hsize => ?_⟩
    rw [Sizing.due, hp] at hdue
    simpa [hsize] using hdue
  · rw [if_neg hdue]
    refine Or.inr ⟨rfl, rfl, ?_⟩
    rw [Sizing.due] at hdue
    cases hp : x.pending with
    | none =>
      rw [hp] at hdue
      exact absurd rfl hdue
    | some pending =>
      rw [hp] at hdue
      obtain ⟨size', attemptedAt⟩ := pending
      simp only [Option.all_some, ne_eq, Bool.or_eq_true, decide_eq_true_eq, not_or, not_not,
        not_le] at hdue
      obtain ⟨rfl, hlt⟩ := hdue
      exact ⟨attemptedAt, rfl, hlt⟩

/-- A pane that is laid out fits sooner or later: while it does not, each frame finds its size
pending, and the pending request grows too old. -/
lemma eventually_fits (h : Fitting run steps layouts) (hl : layout ∈ layouts) (start : ℕ)
    (hstray : ∀ m ≥ start, ∀ rows cols clock,
      steps m = .event (.resized layout.1 rows cols) clock → effectiveSize rows cols = layout.size) :
    ∃ n, start ≤ n ∧ Fits run layout n := by
  by_contra hnone
  have hnever : ∀ n, start ≤ n → ¬ Fits run layout n := fun n hn hf => hnone ⟨n, hn, hf⟩
  -- no request is made, for its answer would make the pane fit
  have hquiet : ∀ n, start ≤ n → ∀ answer now, steps n = .frame answer now layouts →
      ∃ attemptedAt, ((run n).sizing layout.1).pending = some ⟨layout.size, attemptedAt⟩ ∧
        now - attemptedAt < resizeRetryInterval := by
    intro n hn answer now hst
    have hreq := (frame_self answer now (h.owned n) h.distinct hl)
    rcases fit_cases ((run n).sizing layout.1) layout.size now (answer layout.1) (hnever n hn) with
      ⟨hasked, hfit, -⟩ | ⟨-, -, hpending⟩
    · rw [hasked, if_pos rfl] at hreq
      have hasked : .resize layout.1 layout.size now (answer layout.1) ∈
          requests ((run n).step (steps n)).2 layout.1 := by
        rw [hst]
        exact hreq.2 ▸ List.mem_singleton_self _
      obtain ⟨m, hlt, hf⟩ := h.fits_of_request hl hasked
        (fun happlied => by rw [h.step, hst]; exact hreq.1.trans (hfit.trans (if_pos happlied)))
      exact absurd hf (hnever m (hn.trans hlt.le))
    · exact hpending
  -- so what is pending stays
  have hstays : ∀ n, start ≤ n → ∀ k, ((run (n + k)).sizing layout.1).pending =
      ((run n).sizing layout.1).pending := by
    intro n hn k
    induction k with
    | zero => rfl
    | succ k ih =>
      refine Eq.trans ?_ ih
      rcases h.step_cases hl (n + k) with ⟨answer, now, hst, hsizing, -⟩ | ⟨rows, cols, clock, hst,
        hsizing, -⟩ | ⟨hsizing, -⟩
      · rcases fit_cases ((run (n + k)).sizing layout.1) layout.size now (answer layout.1)
          (hnever (n + k) (by omega)) with ⟨-, -, hold⟩ | ⟨-, hfit, -⟩
        · obtain ⟨attemptedAt, hpending, hlt⟩ := hquiet (n + k) (by omega) answer now hst
          exact absurd (hold _ hpending rfl) (by dsimp only; omega)
        · rw [← add_assoc, hsizing, hfit]
      · have hfits : Fits run layout (n + k + 1) := by
          rw [Fits, hsizing, hstray (n + k) (by omega) rows cols clock hst]
        exact absurd hfits (hnever _ (by omega))
      · rw [← add_assoc, hsizing]
  obtain ⟨n, answer, now, hn, -, hst⟩ := h.frames start 0
  obtain ⟨attemptedAt, hpending, -⟩ := hquiet n hn answer now hst
  obtain ⟨m, answer', now', hm, hlate, hst'⟩ := h.frames n (attemptedAt + resizeRetryInterval)
  obtain ⟨attemptedAt', hpending', hlt⟩ := hquiet m (hn.trans hm) answer' now' hst'
  obtain ⟨k, rfl⟩ := Nat.exists_eq_add_of_le hm
  rw [hstays n hn k, hpending] at hpending'
  obtain rfl := congrArg PendingPaneResize.attemptedAt (Option.some.inj hpending')
  dsimp only at hlt
  omega

lemma finally_fits (h : Fitting run steps layouts) (hl : layout ∈ layouts) :
    ∃ start, ∀ n ≥ start, Fits run layout n ∧
      requests ((run n).step (steps n)).2 layout.1 = [] := by
  obtain ⟨quiet, hquiet⟩ := h.strays
  obtain ⟨start, hstart, hfits⟩ := h.eventually_fits hl quiet (fun m hm => hquiet m hm layout hl)
  have hall : ∀ n ≥ start, Fits run layout n := by
    intro n hn
    induction n, hn using Nat.le_induction with
    | base => exact hfits
    | succ n hn ih => exact (h.fits_step hl (hquiet n (hstart.trans hn) layout hl) ih).1
  exact ⟨start, fun n hn => ⟨hall n hn,
    (h.fits_step hl (hquiet n (hstart.trans hn) layout hl) (hall n hn)).2⟩⟩

lemma all_finally_fit (h : Fitting run steps layouts) (some' : List PaneLayout)
    (hsub : ∀ layout ∈ some', layout ∈ layouts) :
    ∃ start, ∀ n ≥ start, ∀ layout ∈ some', Fits run layout n ∧
      requests ((run n).step (steps n)).2 layout.1 = [] := by
  induction some' with
  | nil => exact ⟨0, fun _ _ _ hm => (nomatch hm)⟩
  | cons layout some' ih =>
    obtain ⟨start, hstart⟩ := ih (fun l hm => hsub l (List.mem_cons_of_mem _ hm))
    obtain ⟨start', hstart'⟩ := h.finally_fits (hsub layout (List.mem_cons_self ..))
    refine ⟨max start start', fun n hn l hm => ?_⟩
    rcases List.mem_cons.mp hm with rfl | hm
    · exact hstart' n ((le_max_right _ _).trans hn)
    · exact hstart n ((le_max_left _ _).trans hn) l hm

lemma requests_of_other (h : Fitting run steps layouts) {p : PaneId}
    (hp : p ∉ layouts.map Prod.fst) (n : ℕ) : requests ((run n).step (steps n)).2 p = [] := by
  by_cases hframe : ∃ answer now layouts', steps n = .frame answer now layouts'
  · obtain ⟨answer, now, layouts', hst⟩ := hframe
    obtain rfl := h.fixed n answer now layouts' hst
    rw [hst]
    exact (frame_other answer now (h.owned n) hp).2
  · obtain ⟨log, hlog⟩ := h.tracks n
    refine List.filter_eq_nil_iff.mpr (fun c hc hr => ?_)
    have hnot := step_requests hlog (fun answer now layouts' hst =>
      hframe ⟨answer, now, layouts', hst⟩) c hc
    cases c with
    | resize => exact hnot trivial
    | _ => exact Bool.false_ne_true hr

def Confirmed (run : ℕ → TerminalState T) (steps : ℕ → Step) (p : PaneId) (n : ℕ) : Prop :=
  (∃ rows cols clock, steps n = .event (.resized p rows cols) clock) ∨
    ∃ size now, .resize p size now .applied ∈ ((run n).step (steps n)).2

lemma asked_step (h : Fitting run steps layouts) (hl : layout ∈ layouts) {n now : ℕ}
    {answer : PaneId → ResizeOutcome} (hst : steps n = .frame answer now layouts)
    (hnot : ¬ Fits run layout n) (hnone : ¬ Confirmed run steps layout.1 n)
    (hfit : (((run n).sizing layout.1).fit layout.size now (answer layout.1)).2 = true) :
    ¬ Fits run layout (n + 1) ∧
      ((run (n + 1)).sizing layout.1).pending = some ⟨layout.size, now⟩ := by
  obtain ⟨hself, hreq⟩ := frame_self answer now (h.owned n) h.distinct hl
  rw [hfit, if_pos rfl] at hreq
  have hpending : answer layout.1 ≠ .applied := by
    intro happlied
    refine hnone (Or.inr ⟨layout.size, now, mem_requests.mp ?_⟩)
    rw [hst, ← happlied]
    exact hreq ▸ List.mem_singleton_self _
  have hsizing : (run (n + 1)).sizing layout.1 =
      { (run n).sizing layout.1 with pending := some ⟨layout.size, now⟩ } := by
    rw [h.step, hst]
    refine hself.trans ?_
    rcases fit_cases ((run n).sizing layout.1) layout.size now (answer layout.1) hnot with
      ⟨-, heq, -⟩ | ⟨hno, -⟩
    · rw [heq, if_neg hpending]
    · exact absurd hfit (by rw [hno]; exact Bool.false_ne_true)
  rw [Fits, hsizing]
  exact ⟨hnot, rfl⟩

def Waits (run : ℕ → TerminalState T) (layout : PaneLayout) (since n : ℕ) : Prop :=
  ¬ Fits run layout n ∧ ∃ attemptedAt, since ≤ attemptedAt ∧
    ((run n).sizing layout.1).pending = some ⟨layout.size, attemptedAt⟩

lemma waits_step (h : Fitting run steps layouts) (hl : layout ∈ layouts) {n since : ℕ}
    (hlate : ∀ answer now, steps n = .frame answer now layouts → since ≤ now)
    (hnone : ¬ Confirmed run steps layout.1 n) (hwaits : Waits run layout since n) :
    Waits run layout since (n + 1) := by
  obtain ⟨hnot, attemptedAt, hsince, hpending⟩ := hwaits
  rcases h.step_cases hl n with ⟨answer, now, hst, hsizing, -⟩ | ⟨rows, cols, clock, hst, -⟩ |
    ⟨hsizing, -⟩
  · rcases fit_cases ((run n).sizing layout.1) layout.size now (answer layout.1) hnot with
      ⟨hfit, -⟩ | ⟨-, heq, -⟩
    · obtain ⟨hnot', hnew⟩ := h.asked_step hl hst hnot hnone hfit
      exact ⟨hnot', now, hlate answer now hst, hnew⟩
    · rw [Waits, Fits, hsizing, heq]
      exact ⟨hnot, attemptedAt, hsince, hpending⟩
  · exact absurd (Or.inl ⟨rows, cols, clock, hst⟩) hnone
  · rw [Waits, Fits, hsizing]
    exact ⟨hnot, attemptedAt, hsince, hpending⟩

lemma frame_of_request (h : Fitting run steps layouts) (hl : layout ∈ layouts) {n now : ℕ}
    {size : Size} {outcome : ResizeOutcome}
    (hreq : .resize layout.1 size now outcome ∈ ((run n).step (steps n)).2) :
    ∃ answer, steps n = .frame answer now layouts ∧ ¬ Fits run layout n ∧
      (((run n).sizing layout.1).fit layout.size now (answer layout.1)).2 = true := by
  have hmem := mem_requests.mpr hreq
  rcases h.step_cases hl n with ⟨answer, now', hst, -, hcalls⟩ | ⟨-, -, -, -, -, hcalls⟩ |
    ⟨-, hcalls⟩
  · rw [hcalls] at hmem
    split_ifs at hmem with hfit
    · injection List.mem_singleton.mp hmem with _ _ hnow _
      subst hnow
      refine ⟨answer, hst, fun hfits => ?_, hfit⟩
      have hc : ((run n).sizing layout.1).confirmed = some layout.size := hfits
      rw [Sizing.fit, if_pos hc] at hfit
      exact Bool.false_ne_true hfit
    · exact (nomatch hmem)
  · rw [hcalls] at hmem
    exact (nomatch hmem)
  · rw [hcalls] at hmem
    exact (nomatch hmem)

lemma laid_of_requests (h : Fitting run steps layouts) {n : ℕ} {p : PaneId}
    (hreq : requests ((run n).step (steps n)).2 p ≠ []) : ∃ layout ∈ layouts, layout.1 = p := by
  by_contra hnone
  refine hreq (h.requests_of_other (fun hm => ?_) n)
  obtain ⟨layout, hl, hp⟩ := List.mem_map.mp hm
  exact hnone ⟨layout, hl, hp⟩

lemma requests_apart (h : Fitting run steps layouts) (hl : layout ∈ layouts) {n m now now' : ℕ}
    {size size' : Size} {outcome outcome' : ResizeOutcome} (hlt : n < m)
    (hreq : .resize layout.1 size now outcome ∈ ((run n).step (steps n)).2)
    (hreq' : .resize layout.1 size' now' outcome' ∈ ((run m).step (steps m)).2)
    (hnone : ∀ k, n ≤ k → k < m → ¬ Confirmed run steps layout.1 k) :
    resizeRetryInterval ≤ now' - now := by
  obtain ⟨answer, hst, hnot, hfit⟩ := h.frame_of_request hl hreq
  obtain ⟨answer', hst', hnot', hfit'⟩ := h.frame_of_request hl hreq'
  have hwaits : ∀ k, n + 1 ≤ k → k ≤ m → Waits run layout now k := by
    intro k hk
    induction k, hk using Nat.le_induction with
    | base =>
      intro _
      obtain ⟨hnext, hpending⟩ := h.asked_step hl hst hnot (hnone n le_rfl hlt) hfit
      exact ⟨hnext, now, le_rfl, hpending⟩
    | succ k hk ih =>
      intro hkm
      exact h.waits_step hl (fun a t hk' => h.growing n k answer a now t (by omega) hst hk')
        (hnone k (by omega) (by omega)) (ih (by omega))
  obtain ⟨-, attemptedAt, hsince, hpending⟩ := hwaits m hlt le_rfl
  rcases fit_cases ((run m).sizing layout.1) layout.size now' (answer' layout.1) hnot' with
    ⟨-, -, hold⟩ | ⟨hno, -⟩
  · have hage := hold _ hpending rfl
    dsimp only at hage
    omega
  · exact absurd hfit' (by rw [hno]; exact Bool.false_ne_true)

end Fitting

/-- Everywhere an emulator has the size last confirmed and only an owner asks for sizes; and an
owner's layout reaches every pane it names: once it is fixed each pane comes to fit, is not asked
for again, and until then is asked for at intervals. -/
theorem owner_layout_reaches_panes {T : Type*} [Answering T] :
    (∀ (s : TerminalState T) log, Reaches s log →
      (∀ p, (standing log p).map Standing.size =
        (s.emulators.lookup p).map ClientEmulator.size) ∧
      (∀ p e size, s.emulators.lookup p = some e →
        s.confirmedContentSize.lookup p = some size → e.size = size) ∧
      s.ownsSize = owner log ∧
      ∀ st, s.ownsSize = false → ∀ c ∈ (s.step st).2, ¬ Call.IsResize c) ∧
    ∀ (run : ℕ → TerminalState T) (steps : ℕ → Step) (layouts : List PaneLayout),
      Fitting run steps layouts →
      (∃ start, ∀ n ≥ start,
        (∀ layout ∈ layouts, (run n).confirmedContentSize.lookup layout.1 = some layout.size) ∧
        ∀ c ∈ ((run n).step (steps n)).2, ¬ Call.IsResize c) ∧
      ∀ n m p size size' now now' outcome outcome', n < m →
        .resize p size now outcome ∈ ((run n).step (steps n)).2 →
        .resize p size' now' outcome' ∈ ((run m).step (steps m)).2 →
        resizeRetryInterval ≤ now' - now ∨
          ∃ k, n ≤ k ∧ k < m ∧ Fitting.Confirmed run steps p k := by
  refine ⟨fun s log hs => ?_, fun run steps layouts h => ⟨?_, fun n m p size size' now now' outcome
    outcome' hlt hreq hreq' => ?_⟩⟩
  · have htracks := hs.tracks
    refine ⟨fun p => ?_, htracks.confirmed, htracks.ownsSize, fun st howned => ?_⟩
    · rw [htracks.standing, Option.map_map]
      rfl
    · by_cases hframe : ∃ answer now layouts', st = .frame answer now layouts'
      · obtain ⟨answer, now, layouts', rfl⟩ := hframe
        rw [TerminalState.step, frame_not_owner answer now howned]
        exact List.forall_mem_nil _
      · exact step_requests htracks
          (fun answer now layouts' hst => hframe ⟨answer, now, layouts', hst⟩)
  · obtain ⟨start, hstart⟩ := h.all_finally_fit layouts (fun _ hl => hl)
    refine ⟨start, fun n hn => ⟨fun layout hl => (hstart n hn layout hl).1, fun c hc hr => ?_⟩⟩
    cases c with
    | resize p size now outcome =>
      have hmem := Fitting.mem_requests.mpr hc
      obtain ⟨layout, hl, rfl⟩ := h.laid_of_requests (List.ne_nil_of_mem hmem)
      rw [(hstart n hn layout hl).2] at hmem
      cases hmem
    | _ => exact hr
  · obtain ⟨layout, hl, rfl⟩ :=
      h.laid_of_requests (List.ne_nil_of_mem (Fitting.mem_requests.mpr hreq))
    by_cases hnone : ∃ k, n ≤ k ∧ k < m ∧ Fitting.Confirmed run steps layout.1 k
    · exact Or.inr hnone
    · exact Or.inl (h.requests_apart hl hlt hreq hreq'
        (fun k hk hkm hc => hnone ⟨k, hk, hkm, hc⟩))

def frameThenAnswer (n : ℕ) : Step :=
  if n % 2 = 0 then .frame (fun _ => .pending) n [(1, 24, 80)]
  else .event (.resized 1 24 80) n

def frameThenAnswerRun : ℕ → TerminalState HomeCursor
  | 0 => (TerminalState.step {} (.event (.created 1 10 40 true none) 0)).1
  | n + 1 => ((frameThenAnswerRun n).step (frameThenAnswer n)).1

lemma frameThenAnswerRun_ownsSize (n : ℕ) : (frameThenAnswerRun n).ownsSize = true := by
  induction n with
  | zero => rfl
  | succ n ih =>
    rw [frameThenAnswerRun, frameThenAnswer]
    split_ifs
    · exact frame_ownsSize.trans ih
    · refine Eq.trans ?_ ih
      change ((frameThenAnswerRun n).confirmResize 1 24 80).ownsSize = _
      rw [confirmResize]
      cases (frameThenAnswerRun n).emulators.lookup 1 <;> rfl

lemma frameThenAnswer_fitting :
    Fitting frameThenAnswerRun frameThenAnswer [(1, 24, 80)] where
  start := ⟨_, Reaches.start.step (.event (.created 1 10 40 true none) 0)⟩
  step _ := rfl
  owned := frameThenAnswerRun_ownsSize
  distinct := List.nodup_singleton _
  held layout hl := by
    obtain rfl := List.mem_singleton.mp hl
    decide
  kept n clock layout _ he := by
    rw [frameThenAnswer] at he
    split_ifs at he
    cases he
  unforced n he := by
    rw [frameThenAnswer] at he
    split_ifs at he
  fixed n answer now layouts' he := by
    rw [frameThenAnswer] at he
    split_ifs at he
    injection he with _ _ he
    exact he.symm
  frames n t := by
    refine ⟨2 * (n + t), fun _ => .pending, 2 * (n + t), by omega, by omega, ?_⟩
    rw [frameThenAnswer, if_pos (by omega)]
  growing n m answer answer' now now' hle he he' := by
    rw [frameThenAnswer] at he he'
    split_ifs at he he'
    · injection he with _ he _
      injection he' with _ he' _
      omega
  answered n pane size now outcome hc _ := by
    rw [frameThenAnswer] at hc
    split_ifs at hc with heven
    · by_cases hp : pane ∈ [((1 : PaneId), (24 : UInt16), (80 : UInt16))].map Prod.fst
      · obtain rfl := List.mem_singleton.mp hp
        have hmem := Fitting.mem_requests.mpr hc
        have hself := (@frame_self _ _ (fun _ => .pending) n _ _ _
          (frameThenAnswerRun_ownsSize n)
          (show ([((1 : PaneId), (24 : UInt16), (80 : UInt16))].map Prod.fst).Nodup from
            List.nodup_singleton _)
          (List.mem_singleton_self ((1 : PaneId), (24 : UInt16), (80 : UInt16)))).2
        rw [step, hself] at hmem
        split_ifs at hmem
        · injection List.mem_singleton.mp hmem with _ hsize _ _
          refine ⟨n + 1, n + 1, Nat.lt_succ_self n, ?_⟩
          rw [frameThenAnswer, if_neg (by omega), hsize]
          rfl
        · cases hmem
      · have hmem := Fitting.mem_requests.mpr hc
        rw [step, (frame_other _ n (frameThenAnswerRun_ownsSize n) hp).2] at hmem
        cases hmem
    · cases hc
  strays := by
    refine ⟨0, fun m _ layout hl rows cols clock he => ?_⟩
    obtain rfl := List.mem_singleton.mp hl
    rw [frameThenAnswer] at he
    split_ifs at he
    injection he with he _
    injection he with _ hrows hcols
    rw [← hrows, ← hcols]
    rfl

theorem owner_layout_reaches_panes_answered : ∃ start, ∀ n ≥ start,
    (frameThenAnswerRun n).confirmedContentSize.lookup 1 = some (24, 80) := by
  obtain ⟨start, hstart⟩ := (owner_layout_reaches_panes.2 frameThenAnswerRun frameThenAnswer _
    frameThenAnswer_fitting).1
  exact ⟨start, fun n hn => (hstart n hn).1 (1, 24, 80) (List.mem_singleton_self _)⟩

end Nightcrow.Runtime.Terminal
