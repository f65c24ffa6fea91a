import Nightcrow.Library.Keyed
import Nightcrow.Library.Table
import Nightcrow.Runtime.Emulator.Emulator

/-! A client's panes: the emulators that follow their output, and the sizes they are given. What
only the renderer reads (the split window, attention, recovery reports) is left out. -/

namespace Nightcrow.Runtime.Terminal

open Nightcrow.Library Nightcrow.Runtime.Emulator

class Answering (T : Type*) extends Emulator.Terminal T where
  answers : T → (clock : ℕ) → List UInt8 → List (List UInt8)
  stopAnswers : T → List (List UInt8)

abbrev PaneId := UInt32

abbrev Size := UInt16 × UInt16

def scrollbackLines : ℕ := 1000

structure EmulatorEvents where
  title : Option String
  ptyWrites : List UInt8

structure ClientEmulator (T : Type*) where
  term : T
  size : Size
  suppressPtyWrites : Bool := false

namespace ClientEmulator

variable {T : Type*} [Answering T]

def create (size : Size) : ClientEmulator T :=
  { term := Terminal.create (effectiveSize size.1 size.2).1 (effectiveSize size.1 size.2).2
      scrollbackLines
    size := effectiveSize size.1 size.2 }

def kept (e : ClientEmulator T) (answers : List (List UInt8)) : List UInt8 :=
  if e.suppressPtyWrites then [] else answers.flatten

def process (e : ClientEmulator T) (clock : ℕ) (bytes : List UInt8) :
    ClientEmulator T × EmulatorEvents :=
  ({ e with term := (Terminal.advance e.term clock bytes).1 },
    { title := takeTitle (Terminal.advance e.term clock bytes).2
      ptyWrites := e.kept (Answering.answers e.term clock bytes) })

def settleSync (e : ClientEmulator T) : ClientEmulator T × EmulatorEvents :=
  ({ e with term := (Terminal.stopSync e.term).1 },
    { title := takeTitle (Terminal.stopSync e.term).2
      ptyWrites := e.kept (Answering.stopAnswers e.term) })

def suppressPtyReplies (e : ClientEmulator T) (suppress : Bool) : ClientEmulator T :=
  { e with suppressPtyWrites := suppress }

def resize (e : ClientEmulator T) (size : Size) : ClientEmulator T :=
  { e with
    term := Terminal.resize e.term (effectiveSize size.1 size.2).1 (effectiveSize size.1 size.2).2
    size := effectiveSize size.1 size.2 }

def syncExpired (e : ClientEmulator T) (now : ℕ) : Bool :=
  (Terminal.syncTimeout e.term).any (· ≤ now)

end ClientEmulator

inductive ResizeOutcome
  | applied | pending | failed
  deriving DecidableEq

inductive Call
  | sendInput (pane : PaneId) (data : List UInt8)
  | resize (pane : PaneId) (size : Size) (now : ℕ) (outcome : ResizeOutcome)
  | destroyPane (pane : PaneId)
  | claimSize
  deriving DecidableEq

inductive BackendEvent
  | created (pane : PaneId) (rows cols : UInt16) (requested : Bool) (title : Option String)
  | output (pane : PaneId) (data : List UInt8)
  | replayOutput (pane : PaneId) (data : List UInt8)
  | replayComplete
  | resized (pane : PaneId) (rows cols : UInt16)
  | reordered (order : List PaneId)
  | sizeOwnership (owned : Bool)
  | exited (pane : PaneId)

structure PaneInfo where
  id : PaneId
  title : String

structure PendingPaneResize where
  size : Size
  attemptedAt : ℕ

structure TerminalState (T : Type*) where
  panes : List PaneInfo := []
  active : ℕ := 0
  size : Size := (22, 78)
  lastContentSize : Table PaneId Size := ∅
  confirmedContentSize : Table PaneId Size := ∅
  pendingContentSize : Table PaneId PendingPaneResize := ∅
  ownsSize : Bool := true
  pendingTitles : List (Option String) := []
  emulators : Table PaneId (ClientEmulator T) := ∅
  replayingPanes : List PaneId := []

def resizeRetryInterval : ℕ := 100 * 1000000

namespace TerminalState

variable {T : Type*} [Answering T]

def activePaneId (s : TerminalState T) : Option PaneId := (s.panes[s.active]?).map PaneInfo.id

def applyEmulatorEvents (s : TerminalState T) (pane : PaneId) (events : EmulatorEvents) :
    TerminalState T × List Call :=
  ({ s with panes := s.panes.map (fun info =>
      if info.id = pane then { info with title := events.title.getD info.title } else info) },
    if events.ptyWrites.isEmpty then [] else [.sendInput pane events.ptyWrites])

def applyOutput (s : TerminalState T) (pane : PaneId) (data : List UInt8) (clock : ℕ) :
    TerminalState T × List Call :=
  match s.emulators.lookup pane with
  | none => (s, [])
  | some e =>
    applyEmulatorEvents { s with emulators := s.emulators.insert pane (e.process clock data).1 }
      pane (e.process clock data).2

def settlePanes (release : Bool) : List PaneId → TerminalState T → TerminalState T × List Call
  | [], s => (s, [])
  | pane :: panes, s =>
    match s.emulators.lookup pane with
    | none => settlePanes release panes s
    | some e =>
      let settled := if release then e.settleSync.1.suppressPtyReplies false else e.settleSync.1
      let (s, calls) := applyEmulatorEvents
        { s with emulators := s.emulators.insert pane settled } pane e.settleSync.2
      ((settlePanes release panes s).1, calls ++ (settlePanes release panes s).2)

def expired (s : TerminalState T) (now : ℕ) : List PaneId :=
  (s.emulators.entries.filter (fun entry => entry.2.syncExpired now)).map Sigma.fst

def settleSyncUpdates (s : TerminalState T) (now : ℕ) : TerminalState T × List Call :=
  settlePanes false (s.expired now) s

def adoptPane (s : TerminalState T) (id : PaneId) (rows cols : UInt16) (requested : Bool)
    (named : Option String) : TerminalState T :=
  if s.panes.any (fun pane => pane.id = id) then s
  else
    let size := effectiveSize rows cols
    let queued := if named.isNone && requested then s.pendingTitles.head?.join else none
    let title := (named.or queued).getD ("shell " ++ toString (s.panes.length + 1))
    { s with
      emulators := s.emulators.insert id (ClientEmulator.create size)
      lastContentSize := s.lastContentSize.insert id size
      confirmedContentSize := s.confirmedContentSize.insert id size
      pendingTitles := if named.isNone && requested then s.pendingTitles.tail else s.pendingTitles
      panes := s.panes ++ [⟨id, title⟩]
      active := if requested then s.panes.length else s.active }

def removePaneState (s : TerminalState T) (id : PaneId) : TerminalState T :=
  { s with
    emulators := s.emulators.erase id
    lastContentSize := s.lastContentSize.erase id
    confirmedContentSize := s.confirmedContentSize.erase id
    pendingContentSize := s.pendingContentSize.erase id }

def confirmResize (s : TerminalState T) (pane : PaneId) (rows cols : UInt16) : TerminalState T :=
  match s.emulators.lookup pane with
  | none => s
  | some e =>
    let size := effectiveSize rows cols
    { s with
      emulators := s.emulators.insert pane (e.resize size)
      confirmedContentSize := s.confirmedContentSize.insert pane size
      pendingContentSize := s.pendingContentSize.erase pane
      lastContentSize :=
        if s.ownsSize then s.lastContentSize else s.lastContentSize.insert pane size }

def applyOrder (s : TerminalState T) (order : List PaneId) : TerminalState T :=
  let arranged := Keyed.takeByKey PaneInfo.id order s.panes
  let panes := arranged.1 ++ arranged.2
  { s with
    panes
    active := min ((s.activePaneId.bind (fun id => panes.findIdx? (fun pane => pane.id = id))).getD
      s.active) (panes.length - 1) }

def sizeOwnership (s : TerminalState T) (owned : Bool) : TerminalState T :=
  { s with
    lastContentSize :=
      if owned && !s.ownsSize then ∅
      else if !owned && s.ownsSize then s.confirmedContentSize
      else s.lastContentSize
    pendingContentSize := if owned = s.ownsSize then s.pendingContentSize else ∅
    ownsSize := owned }

def apply (s : TerminalState T) (event : BackendEvent) (clock : ℕ) : TerminalState T × List Call :=
  -- `clock` is what the processor reads while it advances
  match event with
  | .created pane rows cols requested title => (s.adoptPane pane rows cols requested title, [])
  | .output pane data => s.applyOutput pane data clock
  | .replayOutput pane data =>
    match s.emulators.lookup pane with
    | none => (s, [])
    | some e =>
      applyOutput { s with
        emulators := s.emulators.insert pane (e.suppressPtyReplies true)
        replayingPanes := s.replayingPanes.insert pane } pane data clock
  | .replayComplete => settlePanes true s.replayingPanes { s with replayingPanes := [] }
  | .resized pane rows cols => (s.confirmResize pane rows cols, [])
  | .reordered order => (s.applyOrder order, [])
  | .sizeOwnership owned => (s.sizeOwnership owned, [])
  | .exited pane =>
    if s.panes.any (fun info => info.id = pane) then
      ({ s.removePaneState pane with panes := s.panes.filter (fun info => info.id ≠ pane) },
        [.destroyPane pane])
    else (s, [])

def forceRefit (s : TerminalState T) : TerminalState T × List Call :=
  ({ s with confirmedContentSize := ∅, pendingContentSize := ∅ }, [.claimSize])

def noteResizeAttempt (s : TerminalState T) (id : PaneId) (size : Size) (now : ℕ) :
    TerminalState T :=
  { s with pendingContentSize := s.pendingContentSize.insert id ⟨size, now⟩ }

def requestResize (s : TerminalState T) (id : PaneId) (size : Size) (now : ℕ)
    (outcome : ResizeOutcome) : TerminalState T :=
  -- `outcome` is what the backend answers; without a backend it is `applied`
  match outcome with
  | .applied =>
    { s with
      emulators :=
        match s.emulators.lookup id with
        | none => s.emulators
        | some e => s.emulators.insert id (e.resize size)
      confirmedContentSize := s.confirmedContentSize.insert id size
      pendingContentSize := s.pendingContentSize.erase id }
  | .pending => s.noteResizeAttempt id size now
  | .failed => s.noteResizeAttempt id size now

def retryDue (s : TerminalState T) (id : PaneId) (size : Size) (now : ℕ) : Bool :=
  (s.pendingContentSize.lookup id).all
    (fun pending => pending.size ≠ size || resizeRetryInterval ≤ now - pending.attemptedAt)

def fitPane (answer : PaneId → ResizeOutcome) (now : ℕ) (s : TerminalState T)
    (layout : PaneId × UInt16 × UInt16) : TerminalState T × List Call :=
  -- the body of the loop of `resize_visible_panes_at`
  let id := layout.1
  let size := effectiveSize layout.2.1 layout.2.2
  let s := if s.activePaneId = some id then { s with size } else s
  if !s.ownsSize then (s, [])
  else
    let s := { s with lastContentSize := s.lastContentSize.insert id size }
    if s.confirmedContentSize.lookup id = some size then
      ({ s with pendingContentSize := s.pendingContentSize.erase id }, [])
    else if s.retryDue id size now then
      (s.requestResize id size now (answer id), [.resize id size now (answer id)])
    else (s, [])

def resizeVisiblePanes (answer : PaneId → ResizeOutcome) (now : ℕ) :
    List (PaneId × UInt16 × UInt16) → TerminalState T → TerminalState T × List Call
  | [], s => (s, [])
  | layout :: layouts, s =>
    let (s, calls) := fitPane answer now s layout
    ((resizeVisiblePanes answer now layouts s).1,
      calls ++ (resizeVisiblePanes answer now layouts s).2)

end TerminalState

inductive Step
  | event (event : BackendEvent) (clock : ℕ)
  | settle (now : ℕ)
  | frame (answer : PaneId → ResizeOutcome) (now : ℕ) (layouts : List (PaneId × UInt16 × UInt16))
  | forceRefit

inductive Entry
  | event (event : BackendEvent)
  | call (call : Call)

def Step.entries : Step → List Entry
  | .event e _ => [.event e]
  | _ => []

namespace TerminalState

variable {T : Type*} [Answering T]

def step (s : TerminalState T) : Step → TerminalState T × List Call
  | .event event clock => s.apply event clock
  | .settle now => s.settleSyncUpdates now
  | .frame answer now layouts => resizeVisiblePanes answer now layouts s
  | .forceRefit => s.forceRefit

def logged (s : TerminalState T) (st : Step) (log : List Entry) : List Entry :=
  ((s.step st).2.map Entry.call).reverse ++ (st.entries ++ log)

inductive Reaches : TerminalState T → List Entry → Prop
  | start : Reaches {} []
  | step {s : TerminalState T} {log : List Entry} (st : Step) : Reaches s log →
      Reaches (s.step st).1 (s.logged st log)

def poll (now : ℕ) : List (BackendEvent × ℕ) → TerminalState T → TerminalState T × List Call
  | [], s => s.settleSyncUpdates now
  | (event, clock) :: events, s =>
    ((poll now events (s.apply event clock).1).1,
      (s.apply event clock).2 ++ (poll now events (s.apply event clock).1).2)

end TerminalState

structure Standing where
  replaying : Bool
  size : Size
  deriving DecidableEq

def stand (pane : PaneId) : Entry → Option Standing → Option Standing
  | .event (.created p rows cols _ _), standing =>
    if p = pane then standing.or (some ⟨false, effectiveSize rows cols⟩) else standing
  | .event (.replayOutput p _), standing =>
    if p = pane then standing.map (fun h => { h with replaying := true }) else standing
  | .event .replayComplete, standing => standing.map (fun h => { h with replaying := false })
  | .event (.resized p rows cols), standing =>
    if p = pane then standing.map (fun h => { h with size := effectiveSize rows cols })
    else standing
  | .event (.exited p), standing => if p = pane then none else standing
  | .call (.resize p size _ .applied), standing =>
    if p = pane then standing.map (fun h => { h with size }) else standing
  | _, standing => standing

def standing (log : List Entry) (pane : PaneId) : Option Standing :=
  log.foldr (stand pane) none

def replaying (log : List Entry) (pane : PaneId) : Bool :=
  (standing log pane).any Standing.replaying

def owner : List Entry → Bool
  | [] => true
  | .event (.sizeOwnership owned) :: _ => owned
  | _ :: log => owner log

def Call.IsResize : Call → Prop
  | .resize _ _ _ _ => True
  | _ => False

def ClientEmulator.view {T : Type*} (e : ClientEmulator T) : Standing :=
  ⟨e.suppressPtyWrites, e.size⟩

def sends (pane : PaneId) (data : List UInt8) : Option Call :=
  if data.isEmpty then none else some (.sendInput pane data)

lemma max_max (a b : UInt16) : max (max a b) b = max a b := by
  have hmax : ∀ a b : UInt16, max a b = if a ≤ b then b else a := fun _ _ => rfl
  rw [hmax a b]
  split_ifs with hle
  · rw [hmax, if_pos (UInt16.le_refl b)]
  · rw [hmax, if_neg hle]

@[simp] lemma effectiveSize_effectiveSize (rows cols : UInt16) :
    effectiveSize (effectiveSize rows cols).1 (effectiveSize rows cols).2 =
      effectiveSize rows cols :=
  Prod.ext (max_max rows minScreenLines) (max_max cols minColumns)

namespace TerminalState

variable {T : Type*} [Answering T] {s s' : TerminalState T} {log : List Entry}

omit [Answering T] in
structure Untouched (s s' : TerminalState T) : Prop where
  ids : s'.panes.map PaneInfo.id = s.panes.map PaneInfo.id
  replayingPanes : s'.replayingPanes = s.replayingPanes
  confirmed : s'.confirmedContentSize = s.confirmedContentSize
  pending : s'.pendingContentSize = s.pendingContentSize
  ownsSize : s'.ownsSize = s.ownsSize

omit [Answering T] in
lemma Untouched.refl (s : TerminalState T) : Untouched s s := ⟨rfl, rfl, rfl, rfl, rfl⟩

omit [Answering T] in
lemma Untouched.trans {s'' : TerminalState T} (h : Untouched s s') (h' : Untouched s' s'') :
    Untouched s s'' :=
  ⟨h'.ids.trans h.ids, h'.replayingPanes.trans h.replayingPanes, h'.confirmed.trans h.confirmed,
    h'.pending.trans h.pending, h'.ownsSize.trans h.ownsSize⟩

omit [Answering T] in
lemma applyEmulatorEvents_untouched (s : TerminalState T) (emulators) (pane : PaneId)
    (events : EmulatorEvents) :
    Untouched s (applyEmulatorEvents { s with emulators } pane events).1 := by
  refine ⟨?_, rfl, rfl, rfl, rfl⟩
  rw [applyEmulatorEvents]
  dsimp only
  rw [List.map_map]
  refine List.map_congr_left (fun info _ => ?_)
  rw [Function.comp_apply]
  split_ifs <;> rfl

omit [Answering T] in
lemma applyEmulatorEvents_calls (s : TerminalState T) (pane : PaneId) (events : EmulatorEvents) :
    (applyEmulatorEvents s pane events).2 = (sends pane events.ptyWrites).toList := by
  rw [applyEmulatorEvents, sends]
  dsimp only
  split_ifs <;> rfl

def settled (release : Bool) (e : ClientEmulator T) : ClientEmulator T :=
  if release then e.settleSync.1.suppressPtyReplies false else e.settleSync.1

lemma settlePanes_spec (release : Bool) {panes : List PaneId} : ∀ {s : TerminalState T},
    panes.Nodup → Untouched s (settlePanes release panes s).1 ∧
      (∀ p, (settlePanes release panes s).1.emulators.lookup p =
        if p ∈ panes then (s.emulators.lookup p).map (settled release)
        else s.emulators.lookup p) ∧
      (settlePanes release panes s).2 = panes.filterMap (fun p =>
        (s.emulators.lookup p).bind (fun e => sends p e.settleSync.2.ptyWrites)) := by
  induction panes with
  | nil => exact fun _ => ⟨.refl _, fun _ => rfl, rfl⟩
  | cons pane panes ih =>
    intro s hn
    obtain ⟨hpane, hn⟩ := List.nodup_cons.mp hn
    rw [settlePanes]
    cases hlookup : s.emulators.lookup pane with
    | none =>
      obtain ⟨hsame, hemulators, hcalls⟩ := ih (s := s) hn
      refine ⟨hsame, fun p => (hemulators p).trans ?_, hcalls.trans ?_⟩
      · by_cases hp : p = pane
        · subst hp
          rw [if_neg hpane, if_pos (List.mem_cons_self ..), hlookup]
          rfl
        · simp only [List.mem_cons, hp, false_or]
      · rw [List.filterMap_cons, hlookup]
        rfl
    | some e =>
      dsimp only
      have huntouched := applyEmulatorEvents_untouched s
        (s.emulators.insert pane (settled release e)) pane e.settleSync.2
      set next := (applyEmulatorEvents
        { s with emulators := s.emulators.insert pane (settled release e) } pane
        e.settleSync.2).1
      have hother : ∀ p, p ≠ pane → next.emulators.lookup p = s.emulators.lookup p :=
        fun p hp => AList.lookup_insert_ne hp
      have hself : next.emulators.lookup pane = some (settled release e) :=
        AList.lookup_insert _
      obtain ⟨hsame, hemulators, hcalls⟩ := ih (s := next) hn
      refine ⟨huntouched.trans hsame, fun p => (hemulators p).trans ?_, ?_⟩
      · by_cases hp : p = pane
        · subst hp
          rw [if_neg hpane, if_pos (List.mem_cons_self ..), hself, hlookup]
          rfl
        · simp only [List.mem_cons, hp, false_or, hother p hp]
      · rw [applyEmulatorEvents_calls]
        refine (congrArg _ hcalls).trans ?_
        have hrest : panes.filterMap (fun p =>
            (next.emulators.lookup p).bind (fun e => sends p e.settleSync.2.ptyWrites)) =
            panes.filterMap (fun p =>
              (s.emulators.lookup p).bind (fun e => sends p e.settleSync.2.ptyWrites)) := by
          refine List.filterMap_congr (fun p hp => ?_)
          rw [hother p (fun he => hpane (he ▸ hp))]
        rw [hrest, List.filterMap_cons, hlookup, Option.bind_some]
        cases sends pane e.settleSync.2.ptyWrites <;> rfl

lemma expired_nodup (s : TerminalState T) (now : ℕ) : (s.expired now).Nodup :=
  List.Nodup.sublist (List.filter_sublist.map _) s.emulators.nodupKeys

structure Tracks (s : TerminalState T) (log : List Entry) : Prop where
  held : ∀ p, p ∈ s.panes.map PaneInfo.id ↔ (s.emulators.lookup p).isSome
  standing : ∀ p, standing log p = (s.emulators.lookup p).map ClientEmulator.view
  replaying : ∀ p e, s.emulators.lookup p = some e → e.suppressPtyWrites = true →
    p ∈ s.replayingPanes
  nodup : s.replayingPanes.Nodup
  confirmed : ∀ p e size, s.emulators.lookup p = some e →
    s.confirmedContentSize.lookup p = some size → e.size = size
  ownsSize : s.ownsSize = owner log

omit [Answering T] in
lemma Tracks.start : Tracks ({} : TerminalState T) [] :=
  ⟨fun _ => by simp, fun _ => rfl, fun _ _ h => (nomatch h), List.nodup_nil,
    fun _ _ _ h => (nomatch h), rfl⟩

omit [Answering T] in
lemma standing_calls {calls : List Call} (h : ∀ c ∈ calls, ¬ Call.IsResize c) (p : PaneId) :
    Terminal.standing (calls.map Entry.call ++ log) p = Terminal.standing log p := by
  induction calls with
  | nil => rfl
  | cons c calls ih =>
    obtain ⟨hc, hcalls⟩ := List.forall_mem_cons.mp h
    refine Eq.trans ?_ (ih hcalls)
    cases c with
    | resize => exact absurd trivial hc
    | sendInput => rfl
    | destroyPane => rfl
    | claimSize => rfl

lemma owner_calls (calls : List Call) : owner (calls.map Entry.call ++ log) = owner log := by
  induction calls with
  | nil => rfl
  | cons c calls ih => exact ih

omit [Answering T] in
lemma Tracks.calls {calls : List Call} (h : Tracks s log) (hc : ∀ c ∈ calls, ¬ Call.IsResize c) :
    Tracks s ((calls.map Entry.call).reverse ++ log) := by
  have hrev : ∀ c ∈ calls.reverse, ¬ Call.IsResize c := fun c hm => hc c (List.mem_reverse.mp hm)
  rw [← List.map_reverse]
  exact ⟨h.held, fun p => (standing_calls hrev p).trans (h.standing p), h.replaying, h.nodup,
    h.confirmed, h.ownsSize.trans (owner_calls _).symm⟩

lemma sends_not_resize {p : PaneId} {data : List UInt8} {c : Call} (h : c ∈ sends p data) :
    ¬ Call.IsResize c := by
  rw [sends] at h
  split_ifs at h
  · exact (nomatch h)
  · obtain rfl := Option.some.inj h
    exact id

omit [Answering T] in
lemma Tracks.of_untouched (h : Tracks s log) (hsame : Untouched s s')
    (hview : ∀ p, (s'.emulators.lookup p).map ClientEmulator.view =
      (s.emulators.lookup p).map ClientEmulator.view) : Tracks s' log := by
  have hback : ∀ p e, s'.emulators.lookup p = some e →
      ∃ e', s.emulators.lookup p = some e' ∧ e'.view = e.view := by
    intro p e he
    have hp := hview p
    rw [he] at hp
    exact Option.map_eq_some_iff.mp hp.symm
  refine ⟨fun p => ?_, fun p => (h.standing p).trans (hview p).symm, fun p e he hs => ?_, ?_,
    fun p e size he hsize => ?_, hsame.ownsSize.trans h.ownsSize⟩
  · rw [hsame.ids, h.held, ← Option.isSome_map (f := ClientEmulator.view), ← hview,
      Option.isSome_map]
  · obtain ⟨e', he', hv⟩ := hback p e he
    rw [hsame.replayingPanes]
    exact h.replaying p e' he' ((congrArg Standing.replaying hv).trans hs)
  · rw [hsame.replayingPanes]
    exact h.nodup
  · obtain ⟨e', he', hv⟩ := hback p e he
    rw [hsame.confirmed] at hsize
    exact (congrArg Standing.size hv).symm.trans (h.confirmed p e' size he' hsize)

lemma applyOutput_spec (s : TerminalState T) (pane : PaneId) (data : List UInt8) (clock : ℕ) :
    Untouched s (s.applyOutput pane data clock).1 ∧
      (∀ p, ((s.applyOutput pane data clock).1.emulators.lookup p).map ClientEmulator.view =
        (s.emulators.lookup p).map ClientEmulator.view) ∧
      (s.applyOutput pane data clock).2 = ((s.emulators.lookup pane).bind
        (fun e => sends pane (e.process clock data).2.ptyWrites)).toList := by
  rw [applyOutput]
  cases hlookup : s.emulators.lookup pane with
  | none => exact ⟨.refl s, fun _ => rfl, rfl⟩
  | some e =>
    refine ⟨applyEmulatorEvents_untouched s _ pane _, fun p => ?_,
      applyEmulatorEvents_calls _ pane _⟩
    by_cases hp : p = pane
    · subst hp
      refine (congrArg _ (AList.lookup_insert s.emulators)).trans ?_
      rw [hlookup]
      rfl
    · exact congrArg _ (AList.lookup_insert_ne hp)

lemma Tracks.output (h : Tracks s log) (pane : PaneId) (data : List UInt8) (clock : ℕ) :
    Tracks (s.applyOutput pane data clock).1
      (((s.applyOutput pane data clock).2.map Entry.call).reverse ++ log) := by
  obtain ⟨hsame, hview, hcalls⟩ := applyOutput_spec s pane data clock
  refine (h.of_untouched hsame hview).calls (fun c hc => ?_)
  rw [hcalls] at hc
  obtain ⟨e, -, hsend⟩ := Option.bind_eq_some_iff.mp (Option.mem_toList.mp hc)
  exact sends_not_resize hsend

lemma settlePanes_calls_not_resize {release : Bool} {panes : List PaneId} (hn : panes.Nodup) :
    ∀ c ∈ (settlePanes release panes s).2, ¬ Call.IsResize c := by
  intro c hc
  rw [(settlePanes_spec release hn).2.2] at hc
  obtain ⟨p, -, hp⟩ := List.mem_filterMap.mp hc
  obtain ⟨e, -, hsend⟩ := Option.bind_eq_some_iff.mp hp
  exact sends_not_resize hsend

lemma Tracks.settle (h : Tracks s log) (now : ℕ) :
    Tracks (s.settleSyncUpdates now).1
      (((s.settleSyncUpdates now).2.map Entry.call).reverse ++ log) := by
  have hn := s.expired_nodup now
  obtain ⟨hsame, hlookup, -⟩ := settlePanes_spec false hn (s := s)
  refine (h.of_untouched hsame (fun p => ?_)).calls (settlePanes_calls_not_resize hn)
  rw [hlookup]
  split_ifs
  · rw [Option.map_map]
    rfl
  · rfl

omit [Answering T] in
lemma standing_cons (entry : Entry) (p : PaneId) :
    Terminal.standing (entry :: log) p = stand p entry (Terminal.standing log p) := rfl

omit [Answering T] in
lemma Tracks.suppress (h : Tracks s log) {pane : PaneId} {e : ClientEmulator T} {data : List UInt8}
    (he : s.emulators.lookup pane = some e) :
    Tracks { s with
      emulators := s.emulators.insert pane (e.suppressPtyReplies true)
      replayingPanes := s.replayingPanes.insert pane }
      (.event (.replayOutput pane data) :: log) := by
  refine ⟨fun p => ?_, fun p => ?_, fun p f hf hs => ?_, h.nodup.insert, fun p f size hf hsize => ?_,
    h.ownsSize⟩
  · rw [h.held]
    by_cases hp : p = pane
    · subst hp
      rw [AList.lookup_insert, he]
      rfl
    · rw [AList.lookup_insert_ne hp]
  · rw [standing_cons, h.standing, stand]
    by_cases hp : p = pane
    · subst hp
      rw [if_pos rfl, AList.lookup_insert, he]
      rfl
    · rw [if_neg (Ne.symm hp), AList.lookup_insert_ne hp]
  · by_cases hp : p = pane
    · subst hp
      exact List.mem_insert_self
    · rw [AList.lookup_insert_ne hp] at hf
      exact List.mem_insert_of_mem (h.replaying p f hf hs)
  · by_cases hp : p = pane
    · subst hp
      rw [AList.lookup_insert] at hf
      obtain rfl := Option.some.inj hf
      exact h.confirmed p e size he hsize
    · rw [AList.lookup_insert_ne hp] at hf
      exact h.confirmed p f size hf hsize

omit [Answering T] in
lemma Tracks.absent (h : Tracks s log) {event : BackendEvent}
    (hstand : ∀ p, stand p (.event event) (Terminal.standing log p) = Terminal.standing log p)
    (howner : owner (.event event :: log) = owner log) : Tracks s (.event event :: log) :=
  ⟨h.held, fun p => (hstand p).trans (h.standing p), h.replaying, h.nodup, h.confirmed,
    h.ownsSize.trans howner.symm⟩

omit [Answering T] in
lemma Tracks.standing_none (h : Tracks s log) {p : PaneId} (hp : s.emulators.lookup p = none) :
    Terminal.standing log p = none := by
  rw [h.standing, hp]
  rfl

lemma Tracks.replayOutput (h : Tracks s log) (pane : PaneId) (data : List UInt8) (clock : ℕ) :
    Tracks (s.step (.event (.replayOutput pane data) clock)).1
      (s.logged (.event (.replayOutput pane data) clock) log) := by
  rw [logged, step, apply]
  cases he : s.emulators.lookup pane with
  | none =>
    refine h.absent (fun p => ?_) rfl
    rw [stand]
    split_ifs with hp
    · subst hp
      rw [h.standing_none he]
      rfl
    · rfl
  | some e => exact (h.suppress he).output pane data clock

lemma Tracks.replayComplete (h : Tracks s log) (clock : ℕ) :
    Tracks (s.step (.event .replayComplete clock)).1
      (s.logged (.event .replayComplete clock) log) := by
  obtain ⟨hsame, hlookup, -⟩ := settlePanes_spec true h.nodup (s := { s with replayingPanes := [] })
  rw [logged, step, apply]
  refine Tracks.calls ⟨fun p => ?_, fun p => ?_, fun p f hf hs => ?_, ?_, fun p f size hf hsize => ?_,
    hsame.ownsSize.trans h.ownsSize⟩ (settlePanes_calls_not_resize h.nodup)
  · rw [hsame.ids, hlookup, h.held]
    split_ifs
    · rw [Option.isSome_map]
    · rfl
  · rw [hlookup]
    refine (congrArg (stand p (.event .replayComplete)) (h.standing p)).trans ?_
    rw [stand, Option.map_map]
    split_ifs with hp
    · rw [Option.map_map]
      rfl
    · cases hf : s.emulators.lookup p with
      | none => rfl
      | some f =>
        have hquiet : f.suppressPtyWrites = false :=
          Bool.eq_false_iff.mpr (fun hs => hp (h.replaying p f hf hs))
        simp [ClientEmulator.view, hquiet]
  · rw [hlookup] at hf
    split_ifs at hf with hp
    · obtain ⟨g, -, rfl⟩ := Option.map_eq_some_iff.mp hf
      exact absurd hs Bool.false_ne_true
    · exact absurd (h.replaying p f hf hs) hp
  · rw [hsame.replayingPanes]
    exact List.nodup_nil
  · rw [hsame.confirmed] at hsize
    rw [hlookup] at hf
    split_ifs at hf
    · obtain ⟨g, hg, rfl⟩ := Option.map_eq_some_iff.mp hf
      exact h.confirmed p g size hg hsize
    · exact h.confirmed p f size hf hsize

omit [Answering T] in
lemma any_id {pane : PaneId} :
    s.panes.any (fun info => info.id = pane) = true ↔ pane ∈ s.panes.map PaneInfo.id := by
  simp

lemma Tracks.created (h : Tracks s log) (pane : PaneId) (rows cols : UInt16) (requested : Bool)
    (title : Option String) : Tracks (s.adoptPane pane rows cols requested title)
      (.event (.created pane rows cols requested title) :: log) := by
  rw [adoptPane]
  by_cases hheld : s.panes.any (fun info => info.id = pane) = true
  · rw [if_pos hheld]
    refine h.absent (fun p => ?_) rfl
    rw [stand]
    split_ifs with hp
    · obtain ⟨e, he⟩ := Option.isSome_iff_exists.mp ((h.held pane).mp (any_id.mp hheld))
      rw [← hp, h.standing, he]
      rfl
    · rfl
  · have hnone : s.emulators.lookup pane = none :=
      Option.not_isSome_iff_eq_none.mp (fun hs => hheld (any_id.mpr ((h.held pane).mpr hs)))
    rw [if_neg hheld]
    refine ⟨fun p => ?_, fun p => ?_, fun p f hf hs => ?_, h.nodup, fun p f size hf hsize => ?_,
      h.ownsSize⟩
    · dsimp only
      rw [List.map_append, List.mem_append, h.held, List.map_singleton, List.mem_singleton]
      by_cases hp : p = pane
      · subst hp
        rw [AList.lookup_insert]
        simp
      · rw [AList.lookup_insert_ne hp]
        simp [hp]
    · rw [standing_cons, h.standing, stand]
      by_cases hp : p = pane
      · subst hp
        rw [if_pos rfl, AList.lookup_insert, hnone]
        simp [ClientEmulator.create, ClientEmulator.view]
      · rw [if_neg (Ne.symm hp), AList.lookup_insert_ne hp]
    · by_cases hp : p = pane
      · subst hp
        rw [AList.lookup_insert] at hf
        obtain rfl := Option.some.inj hf
        exact absurd hs Bool.false_ne_true
      · rw [AList.lookup_insert_ne hp] at hf
        exact h.replaying p f hf hs
    · by_cases hp : p = pane
      · subst hp
        rw [AList.lookup_insert] at hf hsize
        obtain rfl := Option.some.inj hf
        obtain rfl := Option.some.inj hsize
        exact effectiveSize_effectiveSize rows cols
      · rw [AList.lookup_insert_ne hp] at hf hsize
        exact h.confirmed p f size hf hsize

lemma Tracks.resize (h : Tracks s log) {pane : PaneId} {e : ClientEmulator T} {size : Size}
    (he : s.emulators.lookup pane = some e) (hsize : effectiveSize size.1 size.2 = size)
    {pending : Table PaneId PendingPaneResize} {last : Table PaneId Size} {entry : Entry}
    (hstand : ∀ p, stand p entry (Terminal.standing log p) =
      if pane = p then (Terminal.standing log p).map (fun here => { here with size })
      else Terminal.standing log p) (howner : owner (entry :: log) = owner log) :
    Tracks { s with
      emulators := s.emulators.insert pane (e.resize size)
      confirmedContentSize := s.confirmedContentSize.insert pane size
      pendingContentSize := pending
      lastContentSize := last } (entry :: log) := by
  have hself : (e.resize size).view = { e.view with size } := by
    rw [ClientEmulator.view, ClientEmulator.resize, hsize]
    rfl
  refine ⟨fun p => ?_, fun p => ?_, fun p f hf hs => ?_, h.nodup, fun p f size' hf hsize' => ?_,
    h.ownsSize.trans howner.symm⟩
  · rw [h.held]
    by_cases hp : p = pane
    · subst hp
      rw [AList.lookup_insert, he]
      rfl
    · rw [AList.lookup_insert_ne hp]
  · rw [standing_cons, hstand, h.standing]
    by_cases hp : p = pane
    · subst hp
      rw [if_pos rfl, AList.lookup_insert, he, Option.map_some, Option.map_some, Option.map_some,
        hself]
    · rw [if_neg (Ne.symm hp), AList.lookup_insert_ne hp]
  · by_cases hp : p = pane
    · subst hp
      rw [AList.lookup_insert] at hf
      obtain rfl := Option.some.inj hf
      exact h.replaying p e he hs
    · rw [AList.lookup_insert_ne hp] at hf
      exact h.replaying p f hf hs
  · by_cases hp : p = pane
    · subst hp
      rw [AList.lookup_insert] at hf hsize'
      obtain rfl := Option.some.inj hf
      obtain rfl := Option.some.inj hsize'
      exact hsize
    · rw [AList.lookup_insert_ne hp] at hf hsize'
      exact h.confirmed p f size' hf hsize'

lemma Tracks.resized (h : Tracks s log) (pane : PaneId) (rows cols : UInt16) :
    Tracks (s.confirmResize pane rows cols) (.event (.resized pane rows cols) :: log) := by
  rw [confirmResize]
  cases he : s.emulators.lookup pane with
  | none =>
    refine h.absent (fun p => ?_) rfl
    rw [stand]
    split_ifs with hp
    · rw [← hp, h.standing_none he]
      rfl
    · rfl
  | some e =>
    exact h.resize he (effectiveSize_effectiveSize rows cols) (fun _ => rfl) rfl

lemma Tracks.exited (h : Tracks s log) (pane : PaneId) (clock : ℕ) :
    Tracks (s.step (.event (.exited pane) clock)).1
      (s.logged (.event (.exited pane) clock) log) := by
  rw [logged, step, apply]
  dsimp only
  split_ifs with hheld
  · refine Tracks.calls ⟨fun p => ?_, fun p => ?_, fun p f hf hs => ?_, h.nodup,
      fun p f size hf hsize => ?_, h.ownsSize⟩ (fun c hc => List.mem_singleton.mp hc ▸ id)
    · have hmem : p ∈ (s.panes.filter (fun info => info.id ≠ pane)).map PaneInfo.id ↔
          p ≠ pane ∧ p ∈ s.panes.map PaneInfo.id := by
        simp only [List.mem_map, List.mem_filter]
        constructor
        · rintro ⟨info, ⟨hinfo, hne⟩, rfl⟩
          exact ⟨of_decide_eq_true hne, info, hinfo, rfl⟩
        · rintro ⟨hne, info, hinfo, rfl⟩
          exact ⟨info, ⟨hinfo, decide_eq_true hne⟩, rfl⟩
      refine hmem.trans ?_
      rw [h.held]
      by_cases hp : p = pane
      · subst hp
        simp [removePaneState]
      · simp [removePaneState, AList.lookup_erase_ne hp, hp]
    · refine (congrArg (stand p (.event (.exited pane))) (h.standing p)).trans ?_
      rw [stand]
      by_cases hp : p = pane
      · subst hp
        rw [if_pos rfl]
        simp [removePaneState]
      · rw [if_neg (Ne.symm hp)]
        simp [removePaneState, AList.lookup_erase_ne hp]
    · by_cases hp : p = pane
      · subst hp
        simp [removePaneState] at hf
      · simp only [removePaneState, AList.lookup_erase_ne hp] at hf
        exact h.replaying p f hf hs
    · by_cases hp : p = pane
      · subst hp
        simp [removePaneState] at hf
      · simp only [removePaneState, AList.lookup_erase_ne hp] at hf hsize
        exact h.confirmed p f size hf hsize
  · have hnone : s.emulators.lookup pane = none :=
      Option.not_isSome_iff_eq_none.mp (fun hs => hheld (any_id.mpr ((h.held pane).mpr hs)))
    refine h.absent (fun p => ?_) rfl
    rw [stand]
    split_ifs with hp
    · rw [← hp, h.standing_none hnone]
    · rfl

omit [Answering T] in
lemma Tracks.reordered (h : Tracks s log) (order : List PaneId) :
    Tracks (s.applyOrder order) (.event (.reordered order) :: log) := by
  refine ⟨fun p => ?_, h.standing, h.replaying, h.nodup, h.confirmed, h.ownsSize⟩
  refine Iff.trans ?_ (h.held p)
  exact ((Keyed.takeByKey_perm order s.panes).map PaneInfo.id).mem_iff

omit [Answering T] in
lemma Tracks.sizeOwnership (h : Tracks s log) (owned : Bool) :
    Tracks (s.sizeOwnership owned) (.event (.sizeOwnership owned) :: log) :=
  ⟨h.held, h.standing, h.replaying, h.nodup, h.confirmed, rfl⟩

omit [Answering T] in
lemma Tracks.forceRefit (h : Tracks s log) :
    Tracks s.forceRefit.1 ((s.forceRefit.2.map Entry.call).reverse ++ log) :=
  Tracks.calls ⟨h.held, h.standing, h.replaying, h.nodup, fun _ _ _ _ he => (nomatch he),
    h.ownsSize⟩ (fun _ hc => List.mem_singleton.mp hc ▸ id)

lemma Tracks.requestResize (h : Tracks s log) {id : PaneId} {size : Size} {now : ℕ}
    (outcome : ResizeOutcome) (hsize : effectiveSize size.1 size.2 = size) :
    Tracks (s.requestResize id size now outcome)
      (.call (.resize id size now outcome) :: log) := by
  cases outcome with
  | applied =>
    rw [TerminalState.requestResize]
    cases he : s.emulators.lookup id with
    | some e => exact h.resize he hsize (fun _ => rfl) rfl
    | none =>
      refine ⟨h.held, fun p => ?_, h.replaying, h.nodup, fun p f size' hf hsize' => ?_, h.ownsSize⟩
      · rw [standing_cons, stand]
        split_ifs with hp
        · rw [← hp, h.standing_none he, Option.map_none, he]
          rfl
        · exact h.standing p
      · have hp : p ≠ id := fun hp => by rw [hp, he] at hf; exact (nomatch hf)
        rw [AList.lookup_insert_ne hp] at hsize'
        exact h.confirmed p f size' hf hsize'
  | pending => exact ⟨h.held, h.standing, h.replaying, h.nodup, h.confirmed, h.ownsSize⟩
  | failed => exact ⟨h.held, h.standing, h.replaying, h.nodup, h.confirmed, h.ownsSize⟩

omit [Answering T] in
lemma Tracks.of_eq (h : Tracks s log) {size : Size} {last : Table PaneId Size}
    {pending : Table PaneId PendingPaneResize} :
    Tracks { s with size, lastContentSize := last, pendingContentSize := pending } log :=
  ⟨h.held, h.standing, h.replaying, h.nodup, h.confirmed, h.ownsSize⟩

lemma Tracks.fitPane (h : Tracks s log) (answer : PaneId → ResizeOutcome) (now : ℕ)
    (layout : PaneId × UInt16 × UInt16) :
    Tracks (fitPane answer now s layout).1
      (((fitPane answer now s layout).2.map Entry.call).reverse ++ log) := by
  have hsized : Tracks (if s.activePaneId = some layout.1 then
      { s with size := effectiveSize layout.2.1 layout.2.2 } else s) log := by
    split_ifs
    · exact h.of_eq
    · exact h
  rw [TerminalState.fitPane]
  dsimp only
  set t := if s.activePaneId = some layout.1 then
    { s with size := effectiveSize layout.2.1 layout.2.2 } else s
  split_ifs
  · exact hsized
  · exact hsized.of_eq
  · exact hsized.of_eq.requestResize _ (effectiveSize_effectiveSize _ _)
  · exact hsized.of_eq

lemma Tracks.frame (answer : PaneId → ResizeOutcome) (now : ℕ)
    {layouts : List (PaneId × UInt16 × UInt16)} :
    ∀ {s : TerminalState T} {log : List Entry}, Tracks s log →
      Tracks (resizeVisiblePanes answer now layouts s).1
        (((resizeVisiblePanes answer now layouts s).2.map Entry.call).reverse ++ log) := by
  induction layouts with
  | nil => exact fun h => h
  | cons layout layouts ih =>
    intro s log h
    rw [resizeVisiblePanes]
    dsimp only
    rw [List.map_append, List.reverse_append, List.append_assoc]
    exact ih (h.fitPane answer now layout)

lemma Tracks.step (h : Tracks s log) (st : Step) :
    Tracks (s.step st).1 (s.logged st log) := by
  cases st with
  | settle now => exact h.settle now
  | frame answer now layouts => exact Tracks.frame answer now h
  | forceRefit => exact h.forceRefit
  | event event clock =>
    cases event with
    | created pane rows cols requested title => exact h.created pane rows cols requested title
    | output pane data =>
      have hlog : Tracks s (.event (.output pane data) :: log) := h.absent (fun _ => rfl) rfl
      exact hlog.output pane data clock
    | replayOutput pane data => exact h.replayOutput pane data clock
    | replayComplete => exact h.replayComplete clock
    | resized pane rows cols => exact h.resized pane rows cols
    | reordered order => exact h.reordered order
    | sizeOwnership owned => exact h.sizeOwnership owned
    | exited pane => exact h.exited pane clock

lemma Reaches.tracks (h : Reaches s log) : Tracks s log := by
  induction h with
  | start => exact .start
  | step st _ ih => exact ih.step st

end TerminalState

inductive HomeCursor
  | home

def HomeCursor.query : List UInt8 := [0x1b, 0x5b, 0x36, 0x6e]

def HomeCursor.report : List UInt8 := [0x1b, 0x5b, 0x31, 0x3b, 0x31, 0x52]

instance : Answering HomeCursor where
  create _ _ _ := .home
  advance t _ _ := (t, [])
  stopSync t := (t, [])
  resize t _ _ := t
  modes _ := {}
  screenSnapshot _ := []
  syncBytesCount _ := 0
  syncTimeout _ := none
  answers _ _ bytes := if bytes = HomeCursor.query then [HomeCursor.report] else []
  stopAnswers _ := []

end Nightcrow.Runtime.Terminal
