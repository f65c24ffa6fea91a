import Nightcrow.Library.Runs
import Nightcrow.Recovery.Provider.Payload

/-! The OpenCode adapter: it watches a pane's sessions retry, and reports once they are over. -/

namespace Nightcrow.Recovery.OpenCode

open Nightcrow.Library Nightcrow.Backend

def minPollIntervalSecs : ℤ := 5

def maxSessionIdBytes : ℕ := 64

def retryEndedDetail : String := "opencode stopped retrying without producing a result"

def millisPerSec : ℤ := 1000

def maxRelativeNextMillis : ℤ := maxResetHorizonSecs * millisPerSec

def sessionIdKeys : List String := ["sessionID", "sessionId", "id"]

inductive StatusKind where
  | retry (next : Option ℤ)
  | busy
  | idle
  | unknown
  deriving DecidableEq

structure SessionStatus where
  sessionId : Option String
  kind : StatusKind
  deriving DecidableEq

def SessionStatus.retries (s : SessionStatus) : Bool :=
  match s.kind with
  | .retry _ => true
  | _ => false

def statusKind (status : Value) : StatusKind :=
  match (status.get "type").bind Value.asStr with
  | some "retry" => .retry ((status.get "next").bind Value.asI64)
  | some "busy" => .busy
  | some "idle" => .idle
  | _ => .unknown

def statusObject (entry : Value) : Option Value :=
  if (entry.get "type").isSome then some entry
  else (entry.get "status").bind (fun nested => (nested.get "type").map (fun _ => nested))

def readEntry (entry : Value) (key : Option String) : Option SessionStatus :=
  (statusObject entry).map (fun status => {
    sessionId := sessionIdKeys.findSome? (fun k => (entry.get k).bind Value.asStr) <|> key
    kind := statusKind status })

def parseStatusBody (parse : String → Option Value) (body : String) : List SessionStatus :=
  -- keyed by session or as an array; `parse` is the JSON parser
  match parse body with
  | some (.object fields) => fields.filterMap (fun field => readEntry field.2 (some field.1))
  | some (.array items) => items.filterMap (fun entry => readEntry entry none)
  | _ => []

def interpretNext (next nowEpoch : ℤ) : Option ℤ :=
  if next ≤ 0 then none
  else
    plausibleReset next nowEpoch <|> plausibleReset (next / millisPerSec) nowEpoch <|>
      if next ≤ maxRelativeNextMillis then some (saturatingAdd nowEpoch (next / millisPerSec))
      else none

def validatedSessionId (raw : String) : Option String :=
  if raw = "" ∨ maxSessionIdBytes < raw.utf8ByteSize then none
  else if plainArgument raw then some raw
  else none

def SessionStatus.deadline (status : SessionStatus) (nowEpoch : ℤ) : Option ℤ :=
  match status.kind with
  | .retry (some next) => interpretNext next nowEpoch
  | _ => none

structure Retrying where
  sessionId : Option String := none
  resetsAt : Option ℤ := none
  deriving DecidableEq

structure Adapter where
  generation : Option PaneGeneration := none
  retrying : Option Retrying := none
  exited : Bool := false
  fired : Bool := false
  lastPoll : Option ℤ := none

namespace Adapter

variable (s : Adapter)

def syncGeneration (generation : PaneGeneration) : Adapter :=
  if s.generation = some generation then s else { generation := some generation }

def due (nowEpoch : ℤ) : Bool :=
  match s.lastPoll with
  | none => true
  | some last => ¬ (last ≤ nowEpoch ∧ nowEpoch < saturatingAdd last minPollIntervalSecs)

def rememberRetry (status : SessionStatus) (nowEpoch : ℤ) : Adapter :=
  let known := s.retrying.getD {}
  { s with retrying := some {
      sessionId := status.sessionId <|> known.sessionId
      resetsAt := status.deadline nowEpoch <|> known.resetsAt } }

def wentIdle (statuses : List SessionStatus) : Bool :=
  let watched := s.retrying.bind Retrying.sessionId
  statuses.any (fun status => status.kind = .idle &&
    match watched, status.sessionId with
    | some want, some got => want = got
    | _, _ => true)

def emit (nowEpoch : ℤ) : Option LimitEvent × Adapter :=
  match s.retrying with
  | none => (none, s)
  | some retrying =>
    (some {
      sessionId := retrying.sessionId.bind validatedSessionId
      resetsAt := retrying.resetsAt.filter (fun resetsAt => nowEpoch < resetsAt)
      detail := retryEndedDetail }, { s with fired := true })

def asks (nowEpoch : ℤ) : Bool := !s.fired && !s.exited && s.due nowEpoch

def pollSynced (parse : String → Option Value) (nowEpoch : ℤ) (body : Option String) :
    Option LimitEvent × Adapter :=
  if s.fired then (none, s)
  else if s.exited then s.emit nowEpoch
  else if !s.due nowEpoch then (none, s)
  else
    let s := { s with lastPoll := some nowEpoch }
    match body with
    | none => (none, s)
    | some body =>
      let statuses := parseStatusBody parse body
      match statuses.find? SessionStatus.retries with
      | some status => (none, s.rememberRetry status nowEpoch)
      | none =>
        if s.retrying.isSome && s.wentIdle statuses then s.emit nowEpoch else (none, s)

def poll (parse : String → Option Value) (generation : PaneGeneration) (nowEpoch : ℤ)
    (body : Option String) : Option LimitEvent × Adapter :=
  (s.syncGeneration generation).pollSynced parse nowEpoch body

def onExit (generation : PaneGeneration) : Adapter :=
  { s.syncGeneration generation with exited := true }

end Adapter

def Retrying.event (retrying : Retrying) (nowEpoch : ℤ) : LimitEvent where
  sessionId := retrying.sessionId.bind validatedSessionId
  resetsAt := retrying.resetsAt.filter (fun resetsAt => nowEpoch < resetsAt)
  detail := retryEndedDetail

namespace Adapter

lemma emit_none {s : Adapter} (h : s.retrying = none) (nowEpoch : ℤ) :
    s.emit nowEpoch = (none, s) := by
  rw [Adapter.emit]
  simp only [h]

lemma emit_some {s : Adapter} {retrying : Retrying} (h : s.retrying = some retrying)
    (nowEpoch : ℤ) : s.emit nowEpoch = (some (retrying.event nowEpoch), { s with fired := true }) := by
  rw [Adapter.emit]
  simp only [h]
  rfl

/-- What a poll in step with its generation may do: nothing but note the time, remember the first
retry of the snapshot, or report the remembered one over. -/
lemma pollSynced_cases (s : Adapter) (parse : String → Option Value) (nowEpoch : ℤ)
    (body : Option String) :
    let statuses := if s.asks nowEpoch then (body.map (parseStatusBody parse)).getD [] else []
    (∃ lastPoll, s.pollSynced parse nowEpoch body = (none, { s with lastPoll })) ∨
    (∃ status, statuses.find? SessionStatus.retries = some status ∧
      s.pollSynced parse nowEpoch body =
        (none, { s with lastPoll := some nowEpoch }.rememberRetry status nowEpoch)) ∨
    ∃ lastPoll retrying, s.fired = false ∧ s.retrying = some retrying ∧
      (s.exited = true ∨ s.wentIdle statuses = true) ∧
      s.pollSynced parse nowEpoch body =
        (some (retrying.event nowEpoch), { s with lastPoll, fired := true }) := by
  intro statuses
  rw [Adapter.pollSynced]
  split
  · exact .inl ⟨s.lastPoll, rfl⟩
  · rename_i hfired
    rw [Bool.not_eq_true] at hfired
    split
    · rename_i hexited
      obtain hretrying | ⟨retrying, hretrying⟩ := Option.eq_none_or_eq_some s.retrying
      · exact .inl ⟨s.lastPoll, emit_none hretrying nowEpoch⟩
      · exact .inr (.inr ⟨s.lastPoll, retrying, hfired, hretrying, .inl hexited,
          emit_some hretrying nowEpoch⟩)
    · rename_i hexited
      rw [Bool.not_eq_true] at hexited
      split
      · exact .inl ⟨s.lastPoll, rfl⟩
      · rename_i hdue
        have hasks : s.asks nowEpoch = true := by
          simp only [Adapter.asks, hfired, hexited]
          simpa using hdue
        cases body with
        | none => exact .inl ⟨some nowEpoch, rfl⟩
        | some body =>
          have hstatuses : statuses = parseStatusBody parse body := by
            simp only [statuses, hasks, if_true]
            rfl
          dsimp only
          rw [← hstatuses]
          cases hfind : statuses.find? SessionStatus.retries with
          | some status => exact .inr (.inl ⟨status, rfl, rfl⟩)
          | none =>
            dsimp only
            split
            · rename_i hidle
              obtain ⟨hretrying, hidle⟩ := Bool.and_eq_true_iff.mp hidle
              obtain ⟨retrying, hretrying⟩ := Option.isSome_iff_exists.mp hretrying
              exact .inr (.inr ⟨some nowEpoch, retrying, hfired, hretrying, .inr hidle,
                emit_some (s := { s with lastPoll := some nowEpoch }) hretrying nowEpoch⟩)
            · exact .inl ⟨some nowEpoch, rfl⟩

end Adapter

/-- A report, with what had been seen of its generation by then: the retry entries with the time
each was read, the snapshot just read and whether the process had exited. -/
structure Report where
  event : LimitEvent
  generation : PaneGeneration
  period : ℕ
  retries : List (SessionStatus × ℤ)
  snapshot : List SessionStatus
  exited : Bool

structure Watch where
  adapter : Adapter := {}
  period : ℕ := 0
  retries : List (SessionStatus × ℤ) := []
  reports : List Report := []

inductive Call where
  | poll (generation : PaneGeneration) (nowEpoch : ℤ) (body : Option String)
  | exit (generation : PaneGeneration)

def Call.generation : Call → PaneGeneration
  | .poll generation _ _ => generation
  | .exit generation => generation

def entered (generations : List PaneGeneration) (generation : PaneGeneration) :
    List PaneGeneration :=
  if generations.getLast? = some generation then generations else generations ++ [generation]

/-- The generations the calls enter, in order. -/
def generations (calls : List Call) : List PaneGeneration :=
  (calls.map Call.generation).foldl entered []

namespace Watch

def synced (w : Watch) (generation : PaneGeneration) : Watch :=
  if w.adapter.generation = some generation then w
  else { w with
    adapter := w.adapter.syncGeneration generation
    period := w.period + 1
    retries := [] }

def snapshot (parse : String → Option Value) (w : Watch) (nowEpoch : ℤ) (body : Option String) :
    List SessionStatus :=
  if w.adapter.asks nowEpoch then (body.map (parseStatusBody parse)).getD [] else []

def seen (parse : String → Option Value) (w : Watch) (nowEpoch : ℤ) (body : Option String) :
    List (SessionStatus × ℤ) :=
  w.retries ++ ((w.snapshot parse nowEpoch body).filter SessionStatus.retries).map
    (fun status => (status, nowEpoch))

def report (parse : String → Option Value) (w : Watch) (generation : PaneGeneration)
    (nowEpoch : ℤ) (body : Option String) (event : LimitEvent) : Report where
  event := event
  generation := generation
  period := w.period
  retries := w.seen parse nowEpoch body
  snapshot := w.snapshot parse nowEpoch body
  exited := w.adapter.exited

def step (parse : String → Option Value) (w : Watch) : Call → Option Watch
  | .exit generation =>
    some { w.synced generation with adapter := w.adapter.onExit generation }
  | .poll generation nowEpoch body =>
    let synced := w.synced generation
    let polled := w.adapter.poll parse generation nowEpoch body
    some { synced with
      adapter := polled.2
      retries := synced.seen parse nowEpoch body
      reports := w.reports ++
        (polled.1.map (synced.report parse generation nowEpoch body)).toList }

def Identified (parse : String → Option Value) (w : Watch) : Call → Prop
  | .exit _ => True
  | .poll generation nowEpoch body =>
    ∀ status ∈ (w.synced generation).snapshot parse nowEpoch body, status.sessionId ≠ none

/-- A retry entry of another session than the remembered one brings a deadline of its own, where
one is remembered. -/
def Kindred (parse : String → Option Value) (w : Watch) : Call → Prop
  | .exit _ => True
  | .poll generation nowEpoch body =>
    ∀ status ∈ ((w.synced generation).snapshot parse nowEpoch body).find? SessionStatus.retries,
      ∀ known ∈ (w.synced generation).adapter.retrying, known.resetsAt ≠ none →
        known.sessionId ≠ status.sessionId → status.deadline nowEpoch ≠ none

end Watch

/-- The report is of one session: its id and its deadline came from retry entries of that session,
which was idle in the end or whose process had exited. -/
def Report.Attributed (report : Report) : Prop :=
  ∃ id, report.event.sessionId = validatedSessionId id ∧
    (∃ e ∈ report.retries, e.1.sessionId = some id) ∧
    (∀ resetsAt, report.event.resetsAt = some resetsAt →
      ∃ e ∈ report.retries, e.1.sessionId = some id ∧ e.1.deadline e.2 = some resetsAt) ∧
    (report.exited = true ∨ ∃ status ∈ report.snapshot, status.sessionId = some id ∧
      status.kind = .idle)

namespace Watch

variable {parse : String → Option Value} {w t : Watch} {generation : PaneGeneration}
  {nowEpoch : ℤ} {body : Option String} {call : Call}

lemma synced_adapter (w : Watch) (generation : PaneGeneration) :
    (w.synced generation).adapter = w.adapter.syncGeneration generation := by
  rw [synced, Adapter.syncGeneration]
  split <;> rfl

lemma synced_reports (w : Watch) (generation : PaneGeneration) :
    (w.synced generation).reports = w.reports := by
  rw [synced]
  split <;> rfl

lemma step_exit (h : w.step parse (.exit generation) = some t) :
    t = { w.synced generation with
      adapter := { (w.synced generation).adapter with exited := true } } := by
  rw [synced_adapter]
  exact (Option.some.inj h).symm

lemma step_poll (h : w.step parse (.poll generation nowEpoch body) = some t) :
    let s := w.synced generation
    (∃ lastPoll, t = { s with
      adapter := { s.adapter with lastPoll }, retries := s.seen parse nowEpoch body }) ∨
    (∃ status, (s.snapshot parse nowEpoch body).find? SessionStatus.retries = some status ∧
      t = { s with
        adapter := { s.adapter with lastPoll := some nowEpoch }.rememberRetry status nowEpoch
        retries := s.seen parse nowEpoch body }) ∨
    ∃ lastPoll retrying, s.adapter.fired = false ∧ s.adapter.retrying = some retrying ∧
      (s.adapter.exited = true ∨ s.adapter.wentIdle (s.snapshot parse nowEpoch body) = true) ∧
      t = { s with
        adapter := { s.adapter with lastPoll, fired := true }
        retries := s.seen parse nowEpoch body
        reports := s.reports ++
          [s.report parse generation nowEpoch body (retrying.event nowEpoch)] } := by
  intro s
  have ht := (Option.some.inj h).symm
  have hreports : w.reports = s.reports := (synced_reports w generation).symm
  rw [Adapter.poll, ← synced_adapter, hreports] at ht
  rcases s.adapter.pollSynced_cases parse nowEpoch body with
    ⟨lastPoll, hp⟩ | ⟨status, hfind, hp⟩ | ⟨lastPoll, retrying, hfired, hretrying, hover, hp⟩
  · refine .inl ⟨lastPoll, ht.trans ?_⟩
    rw [hp]
    simp only [Option.map_none, Option.toList_none, List.append_nil]
    rfl
  · refine .inr (.inl ⟨status, hfind, ht.trans ?_⟩)
    rw [hp]
    simp only [Option.map_none, Option.toList_none, List.append_nil]
    rfl
  · refine .inr (.inr ⟨lastPoll, retrying, hfired, hretrying, hover, ht.trans ?_⟩)
    rw [hp]
    rfl

structure Sparing (w : Watch) : Prop where
  spent : w.adapter.fired = false → ∀ report ∈ w.reports, report.period < w.period
  bounded : ∀ report ∈ w.reports, report.period ≤ w.period
  distinct : w.reports.Pairwise (fun a b => a.period ≠ b.period)
  saw : w.adapter.retrying ≠ none → w.retries ≠ []
  all : ∀ report ∈ w.reports, report.retries ≠ []

lemma Sparing.synced (hw : w.Sparing) (generation : PaneGeneration) :
    (w.synced generation).Sparing := by
  rw [Watch.synced]
  split
  · exact hw
  · rename_i hchanged
    refine ⟨fun _ report hr => Nat.lt_succ_of_le (hw.bounded report hr),
      fun report hr => Nat.le_succ_of_le (hw.bounded report hr), hw.distinct, fun h => ?_, hw.all⟩
    rw [Adapter.syncGeneration, if_neg hchanged] at h
    exact absurd rfl h

lemma seen_ne_nil (h : w.retries ≠ []) : w.seen parse nowEpoch body ≠ [] :=
  List.append_ne_nil_of_left_ne_nil h _

lemma mem_seen_of_find {status : SessionStatus}
    (h : (w.snapshot parse nowEpoch body).find? SessionStatus.retries = some status) :
    (status, nowEpoch) ∈ w.seen parse nowEpoch body :=
  List.mem_append_right _ (List.mem_map.mpr ⟨status,
    List.mem_filter.mpr ⟨List.mem_of_find?_eq_some h, List.find?_some h⟩, rfl⟩)

lemma step_sparing (hw : w.Sparing) (h : w.step parse call = some t) : t.Sparing := by
  cases call with
  | exit generation =>
    obtain rfl := step_exit h
    have hs := hw.synced generation
    exact ⟨hs.spent, hs.bounded, hs.distinct, hs.saw, hs.all⟩
  | poll generation nowEpoch body =>
    have hs := hw.synced generation
    have hstep := step_poll h
    generalize w.synced generation = s at hs hstep
    rcases hstep with ⟨lastPoll, rfl⟩ | ⟨status, hfind, rfl⟩ |
      ⟨lastPoll, retrying, hfired, hretrying, -, rfl⟩
    · exact ⟨hs.spent, hs.bounded, hs.distinct, fun h => seen_ne_nil (hs.saw h), hs.all⟩
    · exact ⟨hs.spent, hs.bounded, hs.distinct,
        fun _ => List.ne_nil_of_mem (mem_seen_of_find hfind), hs.all⟩
    · have hsaw : s.seen parse nowEpoch body ≠ [] :=
        seen_ne_nil (hs.saw (by rw [hretrying]; exact Option.some_ne_none _))
      refine ⟨fun h => Bool.noConfusion h, ?_, ?_, fun _ => hsaw, ?_⟩
      · intro report hr
        rcases List.mem_append.mp hr with hr | hr
        · exact hs.bounded report hr
        · obtain rfl := List.mem_singleton.mp hr
          exact le_rfl
      · refine List.pairwise_append.mpr ⟨hs.distinct, List.pairwise_singleton _ _, ?_⟩
        intro a ha b hb
        obtain rfl := List.mem_singleton.mp hb
        exact (hs.spent hfired a ha).ne
      · intro report hr
        rcases List.mem_append.mp hr with hr | hr
        · exact hs.all report hr
        · obtain rfl := List.mem_singleton.mp hr
          exact hsaw

structure Single (w : Watch) : Prop where
  known : ∀ retrying ∈ w.adapter.retrying, ∃ id, retrying.sessionId = some id ∧
    (∃ e ∈ w.retries, e.1.sessionId = some id) ∧
    ∀ resetsAt, retrying.resetsAt = some resetsAt →
      ∃ e ∈ w.retries, e.1.sessionId = some id ∧ e.1.deadline e.2 = some resetsAt
  attributed : ∀ report ∈ w.reports, report.Attributed

lemma Single.synced (hw : w.Single) (generation : PaneGeneration) :
    (w.synced generation).Single := by
  rw [Watch.synced]
  split
  · exact hw
  · rename_i hchanged
    refine ⟨fun retrying h => ?_, hw.attributed⟩
    rw [Adapter.syncGeneration, if_neg hchanged] at h
    cases h

lemma mem_seen {e : SessionStatus × ℤ} (h : e ∈ w.retries) : e ∈ w.seen parse nowEpoch body :=
  List.mem_append_left _ h

lemma Single.known_seen (hw : w.Single) (parse : String → Option Value) (nowEpoch : ℤ)
    (body : Option String) {retrying : Retrying} (h : retrying ∈ w.adapter.retrying) :
    ∃ id, retrying.sessionId = some id ∧
      (∃ e ∈ w.seen parse nowEpoch body, e.1.sessionId = some id) ∧
      ∀ resetsAt, retrying.resetsAt = some resetsAt →
        ∃ e ∈ w.seen parse nowEpoch body, e.1.sessionId = some id ∧
          e.1.deadline e.2 = some resetsAt := by
  obtain ⟨id, hid, ⟨e, he, hsession⟩, hdeadline⟩ := hw.known retrying h
  refine ⟨id, hid, ⟨e, mem_seen he, hsession⟩, fun resetsAt hresets => ?_⟩
  obtain ⟨e, he, hfound⟩ := hdeadline resetsAt hresets
  exact ⟨e, mem_seen he, hfound⟩

lemma idle_of_wentIdle {s : Adapter} {statuses : List SessionStatus} {retrying : Retrying}
    {id : String} (hretrying : s.retrying = some retrying) (hid : retrying.sessionId = some id)
    (hidentified : ∀ status ∈ statuses, status.sessionId ≠ none)
    (h : s.wentIdle statuses = true) :
    ∃ status ∈ statuses, status.sessionId = some id ∧ status.kind = .idle := by
  rw [Adapter.wentIdle, List.any_eq_true] at h
  obtain ⟨status, hmem, hidle⟩ := h
  obtain ⟨got, hgot⟩ := Option.ne_none_iff_exists'.mp (hidentified status hmem)
  rw [hretrying, Option.bind_some, hid, hgot] at hidle
  obtain ⟨hidle, hsame⟩ := Bool.and_eq_true_iff.mp hidle
  rw [of_decide_eq_true hsame]
  exact ⟨status, hmem, hgot, of_decide_eq_true hidle⟩

lemma step_single (hw : w.Single) (hidentified : w.Identified parse call)
    (hkindred : w.Kindred parse call) (h : w.step parse call = some t) : t.Single := by
  cases call with
  | exit generation =>
    obtain rfl := step_exit h
    have hs := hw.synced generation
    exact ⟨hs.known, hs.attributed⟩
  | poll generation nowEpoch body =>
    have hs := hw.synced generation
    have hstep := step_poll h
    rw [Identified] at hidentified
    rw [Kindred] at hkindred
    generalize w.synced generation = s at hs hstep hidentified hkindred
    rcases hstep with ⟨lastPoll, rfl⟩ | ⟨status, hfind, rfl⟩ |
      ⟨lastPoll, retrying, hfired, hretrying, hover, rfl⟩
    · exact ⟨fun retrying hr => hs.known_seen parse nowEpoch body hr, hs.attributed⟩
    · refine ⟨?_, hs.attributed⟩
      obtain ⟨id, hid⟩ :=
        Option.ne_none_iff_exists'.mp (hidentified status (List.mem_of_find?_eq_some hfind))
      have hmem := mem_seen_of_find hfind
      rintro _ ⟨⟩
      refine ⟨id, by rw [hid]; rfl, ⟨_, hmem, hid⟩, fun resetsAt hresets => ?_⟩
      rcases Option.eq_none_or_eq_some (status.deadline nowEpoch) with hnone | ⟨deadline, hsome⟩
      · -- no deadline of its own: the remembered one is kept, and is of this session
        rw [hnone] at hresets
        obtain hempty | ⟨known, hknown⟩ := Option.eq_none_or_eq_some s.adapter.retrying
        · rw [hempty] at hresets
          cases hresets
        · rw [hknown] at hresets
          have hsame : known.sessionId = status.sessionId := by
            by_contra hother
            exact hkindred status hfind known hknown
              (Option.ne_none_iff_exists'.mpr ⟨resetsAt, hresets⟩) hother hnone
          obtain ⟨same, hsession, -, hdeadline⟩ := hs.known_seen parse nowEpoch body hknown
          rw [hsession, hid] at hsame
          obtain rfl := Option.some.inj hsame
          exact hdeadline resetsAt hresets
      · rw [hsome] at hresets
        exact ⟨_, hmem, hid, hsome.trans hresets⟩
    · obtain ⟨id, hid, hlearned, hdeadline⟩ :=
        hs.known_seen parse nowEpoch body hretrying
      refine ⟨fun _ hr => hs.known_seen parse nowEpoch body hr, fun report hr => ?_⟩
      rcases List.mem_append.mp hr with hr | hr
      · exact hs.attributed report hr
      · obtain rfl := List.mem_singleton.mp hr
        refine ⟨id, ?_, hlearned, fun resetsAt hresets => ?_, ?_⟩
        · rw [Watch.report, Retrying.event, hid]
          rfl
        · exact hdeadline resetsAt (Option.filter_eq_some_iff.mp hresets).1
        · exact hover.imp_right (idle_of_wentIdle hretrying hid hidentified)

structure Numbered (generations : List PaneGeneration) (w : Watch) : Prop where
  current : w.adapter.generation = generations.getLast?
  counted : w.period = generations.length
  named : ∀ report ∈ w.reports, 0 < report.period ∧
    generations[report.period - 1]? = some report.generation

lemma Numbered.synced {generations : List PaneGeneration} (hw : w.Numbered generations)
    (generation : PaneGeneration) :
    (w.synced generation).Numbered (entered generations generation) ∧
      (w.synced generation).adapter.generation = some generation := by
  rw [Watch.synced, entered, hw.current]
  split
  · rename_i hlast
    exact ⟨hw, hw.current.trans hlast⟩
  · rename_i hchanged
    have hgeneration : (w.adapter.syncGeneration generation).generation = some generation := by
      rw [Adapter.syncGeneration, hw.current, if_neg hchanged]
    refine ⟨⟨?_, ?_, fun report hr => ⟨(hw.named report hr).1, ?_⟩⟩, hgeneration⟩
    · rw [List.getLast?_concat]
      exact hgeneration
    · rw [List.length_append, List.length_singleton, ← hw.counted]
    · obtain ⟨hlt, -⟩ := List.getElem?_eq_some_iff.mp (hw.named report hr).2
      rw [List.getElem?_append_left hlt]
      exact (hw.named report hr).2

lemma Numbered.distinct {generations : List PaneGeneration} (hw : w.Numbered generations)
    (hdistinct : w.reports.Pairwise (fun a b => a.period ≠ b.period)) (honce : generations.Nodup) :
    w.reports.Pairwise (fun a b => a.generation ≠ b.generation) := by
  refine hdistinct.imp_of_mem (fun {a b} ha hb hperiod hsame => hperiod ?_)
  obtain ⟨hposA, hnamedA⟩ := hw.named a ha
  obtain ⟨hposB, hnamedB⟩ := hw.named b hb
  obtain ⟨hlt, -⟩ := List.getElem?_eq_some_iff.mp hnamedA
  have hindex : a.period - 1 = b.period - 1 :=
    (List.getElem?_inj hlt honce).mp (by rw [hnamedA, hnamedB, hsame])
  omega

lemma step_numbered {generations : List PaneGeneration} (hw : w.Numbered generations)
    (h : w.step parse call = some t) : t.Numbered (entered generations call.generation) := by
  cases call with
  | exit generation =>
    obtain rfl := step_exit h
    obtain ⟨hs, -⟩ := hw.synced generation
    exact ⟨hs.current, hs.counted, hs.named⟩
  | poll generation nowEpoch body =>
    obtain ⟨hs, hgeneration⟩ := hw.synced generation
    have hstep := step_poll h
    generalize w.synced generation = s at hs hstep hgeneration
    rcases hstep with ⟨lastPoll, rfl⟩ | ⟨status, hfind, rfl⟩ |
      ⟨lastPoll, retrying, hfired, hretrying, -, rfl⟩
    · exact ⟨hs.current, hs.counted, hs.named⟩
    · exact ⟨hs.current, hs.counted, hs.named⟩
    · refine ⟨hs.current, hs.counted, fun report hr => ?_⟩
      rcases List.mem_append.mp hr with hr | hr
      · exact hs.named report hr
      · -- the new report is of the period that counts the generation entered last
        obtain rfl := List.mem_singleton.mp hr
        have hlast := hs.current.symm.trans hgeneration
        have hpos : 0 < s.period := by
          rw [hs.counted]
          exact List.length_pos_of_ne_nil (fun h => by rw [h] at hlast; cases hlast)
        refine ⟨hpos, ?_⟩
        rw [List.getLast?_eq_getElem?, ← hs.counted] at hlast
        exact hlast

lemma run_numbered {generations : List PaneGeneration} {calls : List Call}
    (hw : w.Numbered generations) (h : run (step parse) w calls = some t) :
    t.Numbered ((calls.map Call.generation).foldl entered generations) := by
  induction calls generalizing w generations with
  | nil =>
    obtain rfl := Option.some.inj h
    exact hw
  | cons call calls ih =>
    obtain ⟨u, hu, h⟩ := run_cons.mp h
    exact ih (step_numbered hw hu) h

/-- At most one report for each time a generation is entered, each after a retry; and each of one
session, where every entry has an id and no retry of another session leaves the remembered
deadline in place. -/
theorem reports_are_attributed {calls : List Call} (h : run (step parse) {} calls = some t) :
    t.reports.Pairwise (fun a b => a.period ≠ b.period) ∧
      (∀ report ∈ t.reports, 0 < report.period ∧
        (generations calls)[report.period - 1]? = some report.generation) ∧
      ((generations calls).Nodup →
        t.reports.Pairwise (fun a b => a.generation ≠ b.generation)) ∧
      (∀ report ∈ t.reports, report.retries ≠ []) ∧
      (Along (step parse) (Identified parse) {} calls →
        Along (step parse) (Kindred parse) {} calls → ∀ report ∈ t.reports, report.Attributed) := by
  have hsparing : t.Sparing := by
    refine run_invariant (fun s call u hs hstep => step_sparing hs hstep) ?_ h
    exact ⟨fun _ => nofun, nofun, List.Pairwise.nil, fun h => absurd rfl h, nofun⟩
  have hnumbered : t.Numbered (generations calls) :=
    run_numbered ⟨rfl, rfl, fun _ h => absurd h List.not_mem_nil⟩ h
  refine ⟨hsparing.distinct, hnumbered.named, hnumbered.distinct hsparing.distinct, hsparing.all,
    fun hidentified hkindred => ?_⟩
  have hsingle : t.Single := by
    refine run_guarded (fun s call u hs hallowed hstep =>
      step_single hs hallowed.1 hallowed.2 hstep) ?_ (hidentified.and hkindred) h
    exact ⟨nofun, nofun⟩
  exact hsingle.attributed

def retryBody : String :=
  "[\x7b\"sessionID\":\"ses_a\",\"type\":\"retry\",\"next\":3600000\x7d]"

def otherRetryBody : String := "[\x7b\"sessionID\":\"ses_b\",\"type\":\"retry\"\x7d]"

def idleBody (id : String) : String :=
  "[\x7b\"sessionID\":\"" ++ id ++ "\",\"type\":\"idle\"\x7d]"

def parseSample (body : String) : Option Value :=
  if body = retryBody then
    some (.array [.object [("next", .number (some 3600000)), ("sessionID", .string "ses_a"),
      ("type", .string "retry")]])
  else if body = otherRetryBody then
    some (.array [.object [("sessionID", .string "ses_b"), ("type", .string "retry")]])
  else if body = idleBody "ses_a" then
    some (.array [.object [("sessionID", .string "ses_a"), ("type", .string "idle")]])
  else if body = idleBody "ses_b" then
    some (.array [.object [("sessionID", .string "ses_b"), ("type", .string "idle")]])
  else none

def calmCalls : List Call :=
  [.poll 0 1800000000 (some retryBody), .poll 0 1800000005 (some (idleBody "ses_a"))]

def crossedCalls : List Call :=
  [.poll 0 1800000000 (some retryBody), .poll 0 1800000005 (some otherRetryBody),
    .poll 0 1800000010 (some (idleBody "ses_b"))]

instance (parse : String → Option Value) (w : Watch) :
    ∀ call, Decidable (w.Identified parse call)
  | .exit _ => isTrue trivial
  | .poll generation nowEpoch body =>
    inferInstanceAs (Decidable (∀ status ∈ (w.synced generation).snapshot parse nowEpoch body,
      status.sessionId ≠ none))

instance (parse : String → Option Value) (w : Watch) :
    ∀ call, Decidable (w.Kindred parse call)
  | .exit _ => isTrue trivial
  | .poll generation nowEpoch body =>
    inferInstanceAs (Decidable
      (∀ status ∈ ((w.synced generation).snapshot parse nowEpoch body).find? SessionStatus.retries,
        ∀ known ∈ (w.synced generation).adapter.retrying, known.resetsAt ≠ none →
          known.sessionId ≠ status.sessionId → status.deadline nowEpoch ≠ none))

def reported (calls : List Call) : Option (List (LimitEvent × List (SessionStatus × ℤ))) :=
  (run (step parseSample) {} calls).map
    (fun w => w.reports.map (fun report => (report.event, report.retries)))

lemma run_of_reported {calls : List Call} {entry : LimitEvent × List (SessionStatus × ℤ)}
    (h : reported calls = some [entry]) :
    ∃ t report, run (step parseSample) {} calls = some t ∧ t.reports = [report] ∧
      report.event = entry.1 ∧ report.retries = entry.2 := by
  obtain ⟨t, ht, hreports⟩ := Option.map_eq_some_iff.mp h
  obtain ⟨report, hreport, rfl⟩ := List.map_eq_singleton_iff.mp hreports
  exact ⟨t, report, ht, hreport, rfl, rfl⟩

lemma calm_reported : reported calmCalls = some [({
    sessionId := some "ses_a"
    resetsAt := some 1800003600
    detail := retryEndedDetail }, [(⟨some "ses_a", .retry (some 3600000)⟩, 1800000000)])] := by
  decide +kernel

lemma crossed_reported : reported crossedCalls = some [({
    sessionId := some "ses_b"
    resetsAt := some 1800003600
    detail := retryEndedDetail }, [(⟨some "ses_a", .retry (some 3600000)⟩, 1800000000),
      (⟨some "ses_b", .retry none⟩, 1800000005)])] := by
  decide +kernel

theorem calm_report_attributed : ∃ t report, run (step parseSample) {} calmCalls = some t ∧
    t.reports = [report] ∧ report.event.sessionId = some "ses_a" ∧
      report.event.resetsAt = some 1800003600 ∧ report.Attributed := by
  obtain ⟨t, report, ht, hreports, hevent, -⟩ := run_of_reported calm_reported
  refine ⟨t, report, ht, hreports, by rw [hevent], by rw [hevent], ?_⟩
  exact (reports_are_attributed ht).2.2.2.2 (by decide +kernel) (by decide +kernel) report
    (hreports ▸ List.mem_singleton_self report)

/-- The retry of one session is reported with the deadline of another's. -/
theorem deadline_of_another_session : ∃ t,
    run (step parseSample) {} crossedCalls = some t ∧
      Along (step parseSample) (Identified parseSample) {} crossedCalls ∧
      ¬ ∀ report ∈ t.reports, report.Attributed := by
  obtain ⟨t, report, ht, hreports, hevent, hretries⟩ := run_of_reported crossed_reported
  refine ⟨t, ht, by decide +kernel, fun hall => ?_⟩
  obtain ⟨id, hid, -, hdeadline, -⟩ := hall report (hreports ▸ List.mem_singleton_self report)
  obtain ⟨e, he, hsession, hfound⟩ := hdeadline 1800003600 (by rw [hevent])
  rw [hretries] at he
  rw [hevent] at hid
  rcases List.mem_pair.mp he with rfl | rfl
  · obtain rfl := Option.some.inj hsession
    exact absurd hid (by decide +kernel)
  · exact absurd hfound (by decide +kernel)

end Watch

end Nightcrow.Recovery.OpenCode
