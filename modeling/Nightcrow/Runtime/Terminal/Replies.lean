import Nightcrow.Runtime.Terminal.State

/-! A replay never types into a program: what the emulators answer while they read history is
not sent. -/

namespace Nightcrow.Runtime.Terminal

open Nightcrow.Library Nightcrow.Runtime.Emulator

section

variable {T : Type*} [Answering T] {s : TerminalState T} {log : List Entry}

def Call.input? : Call → Option (PaneId × List UInt8)
  | .sendInput pane data => some (pane, data)
  | _ => none

def inputs (calls : List Call) : List (PaneId × List UInt8) := calls.filterMap Call.input?

def answered (s : TerminalState T) : Step → List (PaneId × List UInt8)
  | .event (.output pane data) clock => ((s.emulators.lookup pane).map
      (fun e => (pane, (Answering.answers e.term clock data).flatten))).toList
  | .event (.replayOutput pane data) clock => ((s.emulators.lookup pane).map
      (fun e => (pane, (Answering.answers e.term clock data).flatten))).toList
  | .event .replayComplete _ => s.replayingPanes.filterMap (fun pane =>
      (s.emulators.lookup pane).map (fun e => (pane, (Answering.stopAnswers e.term).flatten)))
  | .settle now => (s.expired now).filterMap (fun pane =>
      (s.emulators.lookup pane).map (fun e => (pane, (Answering.stopAnswers e.term).flatten)))
  | _ => []

def quiet (s : TerminalState T) (st : Step) (log : List Entry) (pane : PaneId) : Bool :=
  replaying log pane || replaying (s.logged st log) pane

lemma replaying_cons (entry : Entry) (p : PaneId) :
    replaying (entry :: log) p = (stand p entry (standing log p)).any Standing.replaying := rfl

lemma replaying_calls {calls : List Call} (h : ∀ c ∈ calls, ¬ Call.IsResize c) (p : PaneId) :
    replaying ((calls.map Entry.call).reverse ++ log) p = replaying log p := by
  have hrev : ∀ c ∈ calls.reverse, ¬ Call.IsResize c := fun c hm => h c (List.mem_reverse.mp hm)
  rw [replaying, ← List.map_reverse, TerminalState.standing_calls hrev, ← replaying]

lemma replaying_complete (p : PaneId) : replaying (.event .replayComplete :: log) p = false := by
  rw [replaying_cons, stand]
  cases standing log p <;> rfl

namespace TerminalState

omit [Answering T] in
lemma Tracks.suppressed (h : Tracks s log) {p : PaneId} {e : ClientEmulator T}
    (he : s.emulators.lookup p = some e) : e.suppressPtyWrites = Terminal.replaying log p := by
  rw [Terminal.replaying, h.standing, he]
  rfl

omit [Answering T] in
lemma input_sends {p : PaneId} {e : ClientEmulator T} {answers : List (List UInt8)} {q : Bool}
    (hq : q = e.suppressPtyWrites) : (sends p (e.kept answers)).bind Call.input? =
      (some (p, answers.flatten)).filter (fun x => !q && !x.2.isEmpty) := by
  subst hq
  rw [ClientEmulator.kept, sends]
  cases e.suppressPtyWrites with
  | true => rfl
  | false =>
    rw [if_neg Bool.false_ne_true]
    cases hempty : answers.flatten with
    | nil => rfl
    | cons byte bytes => rfl

lemma inputs_toList (call : Option Call) : inputs call.toList = (call.bind Call.input?).toList := by
  cases call with
  | none => rfl
  | some call =>
    rw [Option.toList_some, inputs, List.filterMap_cons, List.filterMap_nil, Option.bind_some]
    cases call.input? <;> rfl

lemma filter_toList {α : Type*} (a : Option α) (q : α → Bool) :
    a.toList.filter q = (a.filter q).toList := by
  cases a with
  | none => rfl
  | some a =>
    rw [Option.toList_some, Option.filter_some, List.filter_singleton]
    cases q a <;> rfl

omit [Answering T] in
lemma inputs_of_pane (pane : PaneId) (answers : ClientEmulator T → List (List UInt8)) {q : Bool}
    (hq : ∀ e, s.emulators.lookup pane = some e → q = e.suppressPtyWrites) :
    ((s.emulators.lookup pane).bind (fun e => sends pane (e.kept (answers e)))).bind Call.input? =
      ((s.emulators.lookup pane).map (fun e => (pane, (answers e).flatten))).filter
        (fun x => !q && !x.2.isEmpty) := by
  cases he : s.emulators.lookup pane with
  | none => rfl
  | some e => exact input_sends (hq e he)

lemma inputs_settlePanes {release : Bool} {panes : List PaneId} (hn : panes.Nodup)
    {q : PaneId → Bool} (hq : ∀ p e, s.emulators.lookup p = some e → q p = e.suppressPtyWrites) :
    inputs (settlePanes release panes s).2 =
      (panes.filterMap (fun pane => (s.emulators.lookup pane).map
        (fun e => (pane, (Answering.stopAnswers e.term).flatten)))).filter
          (fun x => !q x.1 && !x.2.isEmpty) := by
  rw [(settlePanes_spec release hn).2.2, inputs, List.filterMap_filterMap,
    List.filter_filterMap]
  refine List.filterMap_congr (fun pane _ => ?_)
  refine (inputs_of_pane pane (fun e => Answering.stopAnswers e.term) (hq pane)).trans ?_
  cases s.emulators.lookup pane <;> rfl

lemma inputs_output (h : Tracks s log) (pane : PaneId) (data : List UInt8) (clock : ℕ) :
    inputs (s.step (.event (.output pane data) clock)).2 =
      (answered s (.event (.output pane data) clock)).filter
        (fun x => !quiet s (.event (.output pane data) clock) log x.1 && !x.2.isEmpty) := by
  obtain ⟨-, -, hcalls⟩ := applyOutput_spec s pane data clock
  have hnot : ∀ c ∈ (s.applyOutput pane data clock).2, ¬ Call.IsResize c := by
    intro c hc
    rw [hcalls] at hc
    obtain ⟨e, -, hsend⟩ := Option.bind_eq_some_iff.mp (Option.mem_toList.mp hc)
    exact sends_not_resize hsend
  have hquiet : ∀ p, quiet s (.event (.output pane data) clock) log p =
      Terminal.replaying log p := by
    intro p
    have hafter : Terminal.replaying (s.logged (.event (.output pane data) clock) log) p =
        Terminal.replaying log p :=
      (replaying_calls hnot p).trans (replaying_cons _ p)
    rw [quiet, hafter, Bool.or_self]
  have hpane := inputs_of_pane pane
    (fun e : ClientEmulator T => Answering.answers e.term clock data)
    (q := quiet s (.event (.output pane data) clock) log pane)
    (fun e he => (hquiet pane).trans (h.suppressed he).symm)
  rw [step, apply, hcalls, inputs_toList, answered, filter_toList]
  refine congrArg Option.toList (hpane.trans ?_)
  cases s.emulators.lookup pane <;> rfl

lemma inputs_replayOutput (h : Tracks s log) (pane : PaneId) (data : List UInt8) (clock : ℕ) :
    inputs (s.step (.event (.replayOutput pane data) clock)).2 =
      (answered s (.event (.replayOutput pane data) clock)).filter
        (fun x => !quiet s (.event (.replayOutput pane data) clock) log x.1 && !x.2.isEmpty) := by
  cases he : s.emulators.lookup pane with
  | none =>
    rw [step, apply, answered, he]
    rfl
  | some e =>
    have hcalls : (s.step (.event (.replayOutput pane data) clock)).2 = [] := by
      rw [step, apply, he]
      dsimp only
      rw [(applyOutput_spec _ pane data clock).2.2]
      dsimp only
      rw [AList.lookup_insert]
      rfl
    have hquiet : quiet s (.event (.replayOutput pane data) clock) log pane = true := by
      have hafter : Terminal.replaying
          (s.logged (.event (.replayOutput pane data) clock) log) pane = true := by
        rw [logged, hcalls]
        have hstanding := congrArg (stand pane (.event (.replayOutput pane data))) (h.standing pane)
        refine (congrArg (Option.any Standing.replaying) hstanding).trans ?_
        rw [stand, if_pos rfl, he]
        rfl
      rw [quiet, hafter, Bool.or_true]
    rw [hcalls, answered, he, Option.map_some, Option.toList_some, List.filter_singleton,
      hquiet]
    rfl

lemma inputs_replayComplete (h : Tracks s log) (clock : ℕ) :
    inputs (s.step (.event .replayComplete clock)).2 =
      (answered s (.event .replayComplete clock)).filter
        (fun x => !quiet s (.event .replayComplete clock) log x.1 && !x.2.isEmpty) := by
  refine inputs_settlePanes (s := { s with replayingPanes := [] }) h.nodup (fun p e he => ?_)
  have hafter : Terminal.replaying (s.logged (.event .replayComplete clock) log) p = false :=
    (replaying_calls (settlePanes_calls_not_resize h.nodup) p).trans (replaying_complete p)
  rw [quiet, hafter, Bool.or_false]
  exact (h.suppressed he).symm

lemma inputs_settle (h : Tracks s log) (now : ℕ) :
    inputs (s.step (.settle now)).2 =
      (answered s (.settle now)).filter
        (fun x => !quiet s (.settle now) log x.1 && !x.2.isEmpty) := by
  have hn := s.expired_nodup now
  refine inputs_settlePanes hn (fun p e he => ?_)
  have hafter : Terminal.replaying (s.logged (.settle now) log) p = Terminal.replaying log p :=
    replaying_calls (settlePanes_calls_not_resize hn) p
  rw [quiet, hafter, Bool.or_self]
  exact (h.suppressed he).symm

lemma inputs_frame (answer : PaneId → ResizeOutcome) (now : ℕ)
    (layouts : List (PaneId × UInt16 × UInt16)) :
    ∀ s : TerminalState T, inputs (resizeVisiblePanes answer now layouts s).2 = [] := by
  induction layouts with
  | nil => exact fun _ => rfl
  | cons layout layouts ih =>
    intro s
    have hfirst : inputs (fitPane answer now s layout).2 = [] := by
      rw [fitPane]
      dsimp only
      split_ifs <;> rfl
    rw [resizeVisiblePanes]
    dsimp only
    rw [inputs, List.filterMap_append, ← inputs, ← inputs, hfirst, ih]
    rfl

lemma inputs_step (h : Tracks s log) (st : Step) :
    inputs (s.step st).2 =
      (answered s st).filter (fun x => !quiet s st log x.1 && !x.2.isEmpty) := by
  cases st with
  | settle now => exact inputs_settle h now
  | frame answer now layouts => exact inputs_frame answer now layouts s
  | forceRefit => rfl
  | event event clock =>
    cases event with
    | output pane data => exact inputs_output h pane data clock
    | replayOutput pane data => exact inputs_replayOutput h pane data clock
    | replayComplete => exact inputs_replayComplete h clock
    | created => rfl
    | resized => rfl
    | reordered => rfl
    | sizeOwnership => rfl
    | exited pane =>
      rw [step, apply]
      dsimp only
      split_ifs <;> rfl

lemma settleSync_current (hstop : ∀ t : T, Terminal.syncBytesCount (Terminal.stopSync t).1 = 0)
    (release : Bool) (e : ClientEmulator T) :
    Terminal.syncBytesCount (settled release e).term = 0 := by
  cases release <;> exact hstop e.term

lemma replayComplete_current
    (hstop : ∀ t : T, Terminal.syncBytesCount (Terminal.stopSync t).1 = 0)
    (h : Tracks s log) {p : PaneId} (hp : Terminal.replaying log p = true) (clock : ℕ)
    {e : ClientEmulator T}
    (he : (s.step (.event .replayComplete clock)).1.emulators.lookup p = some e) :
    Terminal.syncBytesCount e.term = 0 := by
  have hlookup := (settlePanes_spec true h.nodup (s := { s with replayingPanes := [] })).2.1 p
  have hmem : p ∈ s.replayingPanes := by
    rw [Terminal.replaying, h.standing, Option.any_map, Option.any_eq_true] at hp
    obtain ⟨f, hf, hs⟩ := hp
    exact h.replaying p f hf hs
  rw [if_pos hmem] at hlookup
  obtain ⟨f, -, rfl⟩ := Option.map_eq_some_iff.mp (hlookup.symm.trans he)
  exact settleSync_current hstop true f

lemma Reaches.poll (now : ℕ) {events : List (BackendEvent × ℕ)} :
    ∀ {s : TerminalState T} {log : List Entry}, Reaches s log →
      ∃ log', Reaches (s.poll now events).1 log' := by
  induction events with
  | nil => exact fun h => ⟨_, h.step (.settle now)⟩
  | cons event events ih => exact fun h => ih (h.step (.event event.1 event.2))

end TerminalState

lemma replaying_cons_iff {entry : Entry} {log : List Entry} {p : PaneId} :
    replaying (entry :: log) p = true ↔
      (∃ data, entry = .event (.replayOutput p data) ∧ (standing log p).isSome) ∨
        replaying log p = true ∧ entry ≠ .event .replayComplete ∧ entry ≠ .event (.exited p) := by
  have hsome : replaying log p = true → (standing log p).isSome := by
    intro h
    rw [replaying, Option.any_eq_true] at h
    obtain ⟨here, hst, -⟩ := h
    exact Option.isSome_iff_exists.mpr ⟨here, hst⟩
  rw [replaying_cons, replaying]
  cases entry with
  | call c =>
    cases c with
    | resize q size now outcome =>
      cases outcome with
      | applied => rw [stand]; split_ifs <;> simp [Option.any_map]
      | pending => simp [stand]
      | failed => simp [stand]
    | _ => simp [stand]
  | event event =>
    cases event with
    | created q rows cols requested title =>
      rw [stand]
      split_ifs
      · cases standing log p <;> simp
      · simp
    | replayOutput q data =>
      rw [stand]
      by_cases hq : q = p
      · subst hq
        cases standing log q <;> simp
      · simp [hq]
    | replayComplete =>
      rw [stand]
      cases standing log p <;> simp
    | resized q rows cols =>
      rw [stand]
      split_ifs <;> simp [Option.any_map]
    | exited q =>
      rw [stand]
      by_cases hq : q = p <;> simp [hq]
    | _ => simp [stand]

lemma replaying_iff {log : List Entry} {p : PaneId} : replaying log p = true ↔
    ∃ recent data older, log = recent ++ .event (.replayOutput p data) :: older ∧
      (standing older p).isSome ∧ .event .replayComplete ∉ recent ∧
      .event (.exited p) ∉ recent := by
  induction log with
  | nil => exact ⟨fun h => (nomatch h), fun ⟨recent, _, _, h, _⟩ => by cases recent <;> cases h⟩
  | cons entry log ih =>
    rw [replaying_cons_iff, ih]
    constructor
    · rintro (⟨data, rfl, hsome⟩ | ⟨⟨recent, data, older, rfl, hsome, hrecent, hrecent'⟩, hne, hne'⟩)
      · exact ⟨[], data, log, rfl, hsome, List.not_mem_nil, List.not_mem_nil⟩
      · refine ⟨entry :: recent, data, older, rfl, hsome, ?_, ?_⟩
        · exact List.not_mem_cons_of_ne_of_not_mem hne.symm hrecent
        · exact List.not_mem_cons_of_ne_of_not_mem hne'.symm hrecent'
    · rintro ⟨recent, data, older, heq, hsome, hrecent, hrecent'⟩
      rcases recent with _ | ⟨first, recent⟩
      · obtain ⟨rfl, rfl⟩ := List.cons.inj heq
        exact Or.inl ⟨data, rfl, hsome⟩
      · obtain ⟨rfl, rfl⟩ := List.cons.inj heq
        rw [List.mem_cons, not_or] at hrecent hrecent'
        exact Or.inr ⟨⟨recent, data, older, rfl, hsome, hrecent.2, hrecent'.2⟩,
          Ne.symm hrecent.1, Ne.symm hrecent'.1⟩

end

/-- A replay never types into a program: in every step, what is typed into the programs is what
their terminals answer to live output, and nothing of what they answer while a replay is on. -/
theorem replay_never_types {T : Type*} [Answering T]
    (hstop : ∀ t : T, Terminal.syncBytesCount (Terminal.stopSync t).1 = 0)
    (s : TerminalState T) (log : List Entry) (h : TerminalState.Reaches s log) :
    (∀ st, inputs (s.step st).2 = (answered s st).filter
      (fun x => !quiet s st log x.1 && !x.2.isEmpty)) ∧
    (∀ p, replaying log p = true ↔
      ∃ recent data older, log = recent ++ .event (.replayOutput p data) :: older ∧
        (standing older p).isSome ∧ .event .replayComplete ∉ recent ∧
        .event (.exited p) ∉ recent) ∧
    (∀ p e, s.emulators.lookup p = some e → e.suppressPtyWrites = replaying log p) ∧
    (∀ p e clock, replaying log p = true →
      (s.step (.event .replayComplete clock)).1.emulators.lookup p = some e →
      Terminal.syncBytesCount e.term = 0) ∧
    ∀ now events, ∃ log', TerminalState.Reaches (s.poll now events).1 log' := by
  have htracks := h.tracks
  exact ⟨TerminalState.inputs_step htracks, fun p => replaying_iff,
    fun p e he => htracks.suppressed he,
    fun p e clock hp he => TerminalState.replayComplete_current hstop htracks hp clock he,
    fun now events => h.poll now⟩

theorem replay_never_types_home :
    ∃ s log, TerminalState.Reaches (T := HomeCursor) s log ∧
      inputs (s.step (.event (.replayOutput 1 HomeCursor.query) 0)).2 = [] := by
  have hcreated := (TerminalState.Reaches.start (T := HomeCursor)).step
    (.event (.created 1 24 80 true none) 0)
  refine ⟨_, _, hcreated, ?_⟩
  rw [(replay_never_types (fun _ => rfl) _ _ hcreated).1]
  decide

end Nightcrow.Runtime.Terminal
