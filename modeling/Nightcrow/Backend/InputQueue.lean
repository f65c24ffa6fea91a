import Mathlib.Algebra.Order.BigOperators.Group.List
import Mathlib.Data.List.Infix
import Mathlib.Tactic.Linarith

namespace Nightcrow.Backend

def inputByteLimit : ℕ := 4 * 1024 * 1024

def inputMessageLimit : ℕ := 256

structure InputState where
  queue : List (List UInt8) := []
  pendingBytes : ℕ := 0
  pendingMessages : ℕ := 0
  closed : Bool := false
  failure : Option String := none
deriving DecidableEq, Repr

inductive EnqueueError
  | failed (error : String)
  | closed
  | full
deriving DecidableEq, Repr

def checkedSub (a b : ℕ) : Option ℕ := if b ≤ a then some (a - b) else none

def queuedBytes (queue : List (List UInt8)) : ℕ := (queue.map List.length).sum

namespace InputState

def enqueue (state : InputState) (data : List UInt8) : Except EnqueueError InputState :=
  match state.failure with
  | some error => .error (.failed error)
  | none =>
    if state.closed then .error .closed
    else if data.isEmpty then .ok state
    else if inputByteLimit < data.length || inputMessageLimit ≤ state.pendingMessages ||
        inputByteLimit < state.pendingBytes + data.length then .error .full
    else
      .ok { state with
        queue := state.queue ++ [data]
        pendingBytes := state.pendingBytes + data.length
        pendingMessages := state.pendingMessages + 1 }

def clear (state : InputState) : Option InputState := do
  let pendingBytes ← checkedSub state.pendingBytes (queuedBytes state.queue)
  let pendingMessages ← checkedSub state.pendingMessages state.queue.length
  some { state with queue := [], pendingBytes, pendingMessages }

def close (state : InputState) : Option InputState := clear { state with closed := true }

def account (state : InputState) (data : List UInt8) (error : Option String) :
    Option InputState := do
  let pendingBytes ← checkedSub state.pendingBytes data.length
  let pendingMessages ← checkedSub state.pendingMessages 1
  let state := { state with pendingBytes, pendingMessages }
  match error with
  | none => some state
  | some error => (clear state).map fun state => { state with failure := some error }

end InputState

inductive WriterPhase
  | waiting
  | popped (data : List UInt8)
  | wrote (data : List UInt8) (error : Option String)
  | stopped
deriving DecidableEq, Repr

def WriterPhase.inFlight : WriterPhase → List (List UInt8)
  | .popped data | .wrote data _ => [data]
  | .waiting | .stopped => []

def WriterPhase.unwritten : WriterPhase → List (List UInt8)
  | .popped data => [data]
  | .waiting | .wrote _ _ | .stopped => []

inductive InputCall
  | enqueue (data : List UInt8)
  | close
  | pop
  | write (error : Option String)
  | account

/-- The queue and its writer, beside the requests accepted and the messages handed to the pane,
both in order. -/
structure InputQueue where
  state : InputState := {}
  phase : WriterPhase := .waiting
  accepted : List (List UInt8) := []
  handed : List (List UInt8) := []
deriving DecidableEq, Repr

namespace InputQueue

def pop (q : InputQueue) : InputQueue :=
  if q.state.closed || q.state.failure.isSome then { q with phase := .stopped }
  else
    match q.state.queue with
    | [] => q
    | data :: queue => { q with state := { q.state with queue }, phase := .popped data }

def step (q : InputQueue) : InputCall → Option InputQueue
  | .enqueue data =>
    match q.state.enqueue data with
    | .error _ => some q
    | .ok state =>
      some { q with state, accepted := q.accepted ++ if data.isEmpty then [] else [data] }
  | .close => q.state.close.map fun state => { q with state }
  | .pop => if q.phase = .waiting then some q.pop else some q
  | .write error =>
    match q.phase with
    | .popped data => some { q with phase := .wrote data error, handed := q.handed ++ [data] }
    | _ => some q
  | .account =>
    match q.phase with
    | .wrote data error => (q.state.account data error).map fun state =>
        { q with state, phase := if error.isSome then .stopped else .waiting }
    | _ => some q

def run (calls : List InputCall) : Option InputQueue := calls.foldlM step {}

def Shut (q : InputQueue) : Prop := q.state.closed = true ∨ q.state.failure.isSome = true

structure Accounted (q : InputQueue) : Prop where
  bytes : q.state.pendingBytes = queuedBytes (q.phase.inFlight ++ q.state.queue)
  messages : q.state.pendingMessages = (q.phase.inFlight ++ q.state.queue).length
  byteBound : q.state.pendingBytes ≤ inputByteLimit
  messageBound : q.state.pendingMessages ≤ inputMessageLimit
  order : q.handed ++ q.phase.unwritten ++ q.state.queue <+: q.accepted
  whole : ¬ q.Shut → q.handed ++ q.phase.unwritten ++ q.state.queue = q.accepted
  emptied : q.Shut → q.state.queue = []
  failed : q.state.failure.isSome = true → q.phase = .stopped

variable {q q' : InputQueue} {data : List UInt8} {error : Option String}

@[simp] lemma queuedBytes_nil : queuedBytes [] = 0 := rfl

@[simp] lemma queuedBytes_append (xs ys : List (List UInt8)) :
    queuedBytes (xs ++ ys) = queuedBytes xs + queuedBytes ys := by
  simp [queuedBytes]

@[simp] lemma queuedBytes_cons (x : List UInt8) (xs : List (List UInt8)) :
    queuedBytes (x :: xs) = x.length + queuedBytes xs := by
  simp [queuedBytes]

lemma checkedSub_of_add {a b c : ℕ} (h : a = b + c) : checkedSub a b = some c := by
  rw [checkedSub, if_pos (h ▸ Nat.le_add_right b c), h, Nat.add_sub_cancel_left]

lemma clear_eq {state : InputState} {bytes messages : ℕ}
    (hb : state.pendingBytes = queuedBytes state.queue + bytes)
    (hm : state.pendingMessages = state.queue.length + messages) :
    state.clear = some { state with
      queue := [], pendingBytes := bytes, pendingMessages := messages } := by
  rw [InputState.clear, checkedSub_of_add hb, checkedSub_of_add hm]
  rfl

lemma enqueue_shut (h : q.Shut) (data : List UInt8) :
    ∃ error, q.state.enqueue data = .error error := by
  rw [InputState.enqueue]
  cases hf : q.state.failure with
  | some error => exact ⟨.failed error, rfl⟩
  | none =>
    rcases h with hc | hc
    · exact ⟨.closed, by simp [hc]⟩
    · rw [hf] at hc
      cases hc

lemma enqueue_open {state : InputState} (h : q.state.enqueue data = .ok state) :
    ¬ q.Shut ∧ (data = [] ∧ state = q.state ∨
      data ≠ [] ∧ q.state.pendingMessages < inputMessageLimit ∧
      q.state.pendingBytes + data.length ≤ inputByteLimit ∧
      state = { q.state with
        queue := q.state.queue ++ [data]
        pendingBytes := q.state.pendingBytes + data.length
        pendingMessages := q.state.pendingMessages + 1 }) := by
  refine ⟨?_, ?_⟩
  · intro hs
    obtain ⟨error, he⟩ := enqueue_shut hs data
    rw [he] at h
    cases h
  rw [InputState.enqueue] at h
  cases hf : q.state.failure with
  | some error =>
    rw [hf] at h
    cases h
  | none =>
    simp only [hf] at h
    split_ifs at h with hc hempty hfull
    · exact .inl ⟨List.isEmpty_iff.mp hempty, (Except.ok.inj h).symm⟩
    · simp only [Bool.or_eq_true, decide_eq_true_eq, not_or, not_lt, not_le] at hfull
      refine .inr ⟨fun hn => hempty (List.isEmpty_iff.mpr hn), hfull.1.2, hfull.2, ?_⟩
      simp only [← Except.ok.inj h, hf]

namespace Accounted

lemma step_enqueue (h : q.Accounted) (data : List UInt8) :
    ∃ q', q.step (.enqueue data) = some q' ∧ q'.Accounted := by
  rw [step]
  cases he : q.state.enqueue data with
  | error error => exact ⟨q, rfl, h⟩
  | ok state =>
    obtain ⟨hopen, ⟨rfl, rfl⟩ | ⟨hdata, hmessages, hbytes, rfl⟩⟩ := enqueue_open he
    · refine ⟨q, ?_, h⟩
      simp
    · refine ⟨_, rfl, ?_⟩
      have hwhole := h.whole hopen
      have hnext : (if data.isEmpty then [] else [data]) = [data] := by
        rw [if_neg fun hn => hdata (List.isEmpty_iff.mp hn)]
      have horder : q.handed ++ q.phase.unwritten ++ (q.state.queue ++ [data]) =
          q.accepted ++ [data] := by
        rw [← hwhole, List.append_assoc _ _ [data]]
      simp only [hnext]
      exact
        { bytes := by
            simp only [h.bytes, queuedBytes_append, queuedBytes_cons, queuedBytes_nil]
            omega
          messages := by
            simp only [h.messages, List.length_append, List.length_singleton]
            omega
          byteBound := hbytes
          messageBound := hmessages
          order := horder ▸ List.prefix_rfl
          whole := fun _ => horder
          emptied := fun hs => absurd hs hopen
          failed := h.failed }

lemma step_close (h : q.Accounted) : ∃ q', q.step .close = some q' ∧ q'.Accounted ∧
    q'.accepted = q.accepted ∧ q'.handed = q.handed ∧ q'.phase = q.phase ∧ q'.Shut := by
  have hb := h.bytes
  have hm := h.messages
  rw [queuedBytes_append, Nat.add_comm] at hb
  rw [List.length_append, Nat.add_comm] at hm
  have hclear := @clear_eq { q.state with closed := true } _ _ hb hm
  rw [step, InputState.close, hclear]
  refine ⟨_, rfl, ?_, rfl, rfl, rfl, .inl rfl⟩
  exact
    { bytes := by simp
      messages := by simp
      byteBound := by
        have hbound := h.byteBound
        simp only
        omega
      messageBound := by
        have hbound := h.messageBound
        simp only
        omega
      order := by
        rw [List.append_nil]
        exact (List.prefix_append _ _).trans h.order
      whole := fun hs => absurd (.inl rfl) hs
      emptied := fun _ => rfl
      failed := h.failed }

lemma step_pop (h : q.Accounted) : ∃ q', q.step .pop = some q' ∧ q'.Accounted ∧
    q'.accepted = q.accepted ∧ q'.handed = q.handed ∧ (q.Shut → q'.Shut) ∧
    (q.Shut → q'.phase.unwritten = q.phase.unwritten) := by
  rw [step]
  split_ifs with hwaiting
  swap
  · exact ⟨q, rfl, h, rfl, rfl, fun hs => hs, fun _ => rfl⟩
  refine ⟨_, rfl, ?_⟩
  rw [pop]
  split_ifs with hshut
  · have hs : q.Shut := by simpa [Shut] using hshut
    have hfl : q.phase.inFlight = [] := by rw [hwaiting]; rfl
    have hun : q.phase.unwritten = [] := by rw [hwaiting]; rfl
    refine ⟨?_, rfl, rfl, fun _ => hs, fun _ => hun.symm⟩
    have hb := h.bytes
    have hm := h.messages
    have ho := h.order
    rw [hfl] at hb hm
    rw [hun] at ho
    exact ⟨hb, hm, h.byteBound, h.messageBound, ho, fun hn => absurd hs hn, h.emptied,
      fun _ => rfl⟩
  · have hopen : ¬ q.Shut := by simpa [Shut] using hshut
    cases hq : q.state.queue with
    | nil => exact ⟨h, rfl, rfl, fun hs => hs, fun _ => rfl⟩
    | cons data queue =>
      refine ⟨?_, rfl, rfl, fun hs => hs, fun hs => absurd hs hopen⟩
      have hb := h.bytes
      have hm := h.messages
      have ho := h.order
      have hw := h.whole hopen
      rw [hwaiting, hq] at hb hm ho hw
      have hsame : ∀ xs : List (List UInt8), xs ++ [] ++ data :: queue = xs ++ [data] ++ queue := by
        intro xs
        simp
      exact
        { bytes := hb
          messages := hm
          byteBound := h.byteBound
          messageBound := h.messageBound
          order := hsame q.handed ▸ ho
          whole := fun _ => hsame q.handed ▸ hw
          emptied := fun hs => absurd hs hopen
          failed := fun hf => absurd (.inr hf) hopen }

lemma step_write (h : q.Accounted) (error : Option String) :
    ∃ q', q.step (.write error) = some q' ∧ q'.Accounted ∧ q'.accepted = q.accepted ∧
      q'.state = q.state ∧ q'.handed = q.handed ++ (if q'.phase = q.phase then []
        else q.phase.unwritten) ∧
      q'.handed ++ q'.phase.unwritten = q.handed ++ q.phase.unwritten := by
  rw [step]
  cases hp : q.phase with
  | waiting => exact ⟨q, rfl, h, rfl, rfl, by simp [hp], by simp [hp]⟩
  | wrote data error => exact ⟨q, rfl, h, rfl, rfl, by simp [hp], by simp [hp]⟩
  | stopped => exact ⟨q, rfl, h, rfl, rfl, by simp [hp], by simp [hp]⟩
  | popped data =>
    refine ⟨_, rfl, ?_, rfl, rfl, by simp [WriterPhase.unwritten], by
      simp [WriterPhase.unwritten]⟩
    have hb := h.bytes
    have hm := h.messages
    have ho := h.order
    have hw := h.whole
    rw [hp] at hb hm ho hw
    have hsame : q.handed ++ [data] ++ [] ++ q.state.queue =
        q.handed ++ [data] ++ q.state.queue := by
      rw [List.append_nil]
    exact
      { bytes := hb
        messages := hm
        byteBound := h.byteBound
        messageBound := h.messageBound
        order := hsame ▸ ho
        whole := fun hs => hsame ▸ hw hs
        emptied := h.emptied
        failed := fun hf => absurd (h.failed hf) (by simp [hp]) }

lemma step_account (h : q.Accounted) : ∃ q', q.step .account = some q' ∧ q'.Accounted ∧
    q'.accepted = q.accepted ∧ q'.handed = q.handed ∧ (q.Shut → q'.Shut) ∧
    q'.phase.unwritten = q.phase.unwritten := by
  rw [step]
  cases hp : q.phase with
  | waiting => exact ⟨q, rfl, h, rfl, rfl, fun hs => hs, by rw [hp]⟩
  | popped data => exact ⟨q, rfl, h, rfl, rfl, fun hs => hs, by rw [hp]⟩
  | stopped => exact ⟨q, rfl, h, rfl, rfl, fun hs => hs, by rw [hp]⟩
  | wrote data error =>
    have hb : q.state.pendingBytes = data.length + queuedBytes q.state.queue := by
      rw [h.bytes, hp]
      simp [WriterPhase.inFlight]
    have hm : q.state.pendingMessages = 1 + q.state.queue.length := by
      rw [h.messages, hp]
      simp [WriterPhase.inFlight, Nat.add_comm]
    have ho := h.order
    have hw := h.whole
    rw [hp] at ho hw
    have hbytes := h.byteBound
    have hmessages := h.messageBound
    have hrun : ¬ q.state.failure.isSome = true := fun hf => by
      have hstop := h.failed hf
      rw [hp] at hstop
      cases hstop
    simp only [InputState.account, checkedSub_of_add hb, checkedSub_of_add hm,
      Option.bind_eq_bind, Option.bind_some]
    cases error with
    | none =>
      refine ⟨_, rfl, ?_, rfl, rfl, fun hs => hs, rfl⟩
      exact
        { bytes := rfl
          messages := rfl
          byteBound := by
            simp only
            omega
          messageBound := by
            simp only
            omega
          order := ho
          whole := hw
          emptied := h.emptied
          failed := fun hf => absurd hf hrun }
    | some error =>
      have hclear := @clear_eq { q.state with
        pendingBytes := queuedBytes q.state.queue
        pendingMessages := q.state.queue.length } 0 0 rfl rfl
      simp only [hclear, Option.map_some]
      refine ⟨_, rfl, ?_, rfl, rfl, fun _ => .inr rfl, rfl⟩
      exact
        { bytes := rfl
          messages := rfl
          byteBound := Nat.zero_le _
          messageBound := Nat.zero_le _
          order := by
            rw [List.append_nil]
            exact (List.prefix_append _ _).trans ho
          whole := fun hs => absurd (.inr rfl) hs
          emptied := fun _ => rfl
          failed := fun _ => rfl }

end Accounted

structure Winds (q q' : InputQueue) : Prop where
  shut : q'.Shut
  accepted : q'.accepted = q.accepted
  handed : q.handed <+: q'.handed
  rest : q'.handed ++ q'.phase.unwritten = q.handed ++ q.phase.unwritten

lemma Accounted.step (h : q.Accounted) (call : InputCall) :
    ∃ q', q.step call = some q' ∧ q'.Accounted ∧ (q.Shut → q.Winds q') := by
  cases call with
  | enqueue data =>
    obtain ⟨q', hq, h'⟩ := h.step_enqueue data
    refine ⟨q', hq, h', fun hs => ?_⟩
    obtain ⟨error, he⟩ := enqueue_shut hs data
    rw [InputQueue.step, he] at hq
    obtain rfl := Option.some.inj hq
    exact ⟨hs, rfl, List.prefix_rfl, rfl⟩
  | close =>
    obtain ⟨q', hq, h', ha, hh, hp, hs⟩ := h.step_close
    exact ⟨q', hq, h', fun _ => ⟨hs, ha, hh ▸ List.prefix_rfl, by rw [hh, hp]⟩⟩
  | pop =>
    obtain ⟨q', hq, h', ha, hh, hs, hu⟩ := h.step_pop
    exact ⟨q', hq, h', fun hq => ⟨hs hq, ha, hh ▸ List.prefix_rfl, by rw [hh, hu hq]⟩⟩
  | write error =>
    obtain ⟨q', hq, h', ha, hst, hh, hr⟩ := h.step_write error
    refine ⟨q', hq, h', fun hs => ⟨?_, ha, hh ▸ List.prefix_append _ _, hr⟩⟩
    rw [Shut, hst]
    exact hs
  | account =>
    obtain ⟨q', hq, h', ha, hh, hs, hu⟩ := h.step_account
    exact ⟨q', hq, h', fun hq => ⟨hs hq, ha, hh ▸ List.prefix_rfl, by rw [hh, hu]⟩⟩

lemma Accounted.foldlM (h : q.Accounted) (calls : List InputCall) :
    ∃ q', calls.foldlM InputQueue.step q = some q' ∧ q'.Accounted ∧ (q.Shut → q.Winds q') := by
  induction calls generalizing q with
  | nil => exact ⟨q, rfl, h, fun hs => ⟨hs, rfl, List.prefix_rfl, rfl⟩⟩
  | cons call calls ih =>
    obtain ⟨q₁, hq₁, h₁, hw₁⟩ := h.step call
    obtain ⟨q₂, hq₂, h₂, hw₂⟩ := ih h₁
    refine ⟨q₂, ?_, h₂, fun hs => ?_⟩
    · rw [List.foldlM_cons, hq₁]
      exact hq₂
    · obtain ⟨hs₁, ha₁, hh₁, hr₁⟩ := hw₁ hs
      obtain ⟨hs₂, ha₂, hh₂, hr₂⟩ := hw₂ hs₁
      exact ⟨hs₂, ha₂.trans ha₁, hh₁.trans hh₂, hr₂.trans hr₁⟩

lemma accounted_empty : InputQueue.Accounted {} :=
  ⟨rfl, rfl, Nat.zero_le _, Nat.zero_le _, List.prefix_rfl, fun _ => rfl, fun _ => rfl,
    by simp⟩

/-- A close lands while the writer holds a message, which is written nevertheless. -/
theorem written_after_close : ¬ ∀ calls more q q', run calls = some q → q.Shut →
    run (calls ++ more) = some q' → q'.accepted = q.accepted ∧ q'.handed = q.handed := by
  intro hclaim
  have hboth := hclaim [.enqueue [1], .pop, .close] [.write none] _ _ rfl (.inl rfl) rfl
  exact absurd hboth.2 (by decide)

/-- Pane input is written in the order it was accepted, with the counters exact; once the queue
is closed or its writer failed, only what the writer had taken is still written. -/
theorem input_is_fifo_and_accounted (calls : List InputCall) : ∃ q, run calls = some q ∧
    q.state.pendingBytes = queuedBytes (q.phase.inFlight ++ q.state.queue) ∧
    q.state.pendingMessages = (q.phase.inFlight ++ q.state.queue).length ∧
    q.state.pendingBytes ≤ inputByteLimit ∧ q.state.pendingMessages ≤ inputMessageLimit ∧
    q.handed <+: q.accepted ∧
    (¬ q.Shut → q.accepted = q.handed ++ q.phase.unwritten ++ q.state.queue) ∧
    (q.Shut → (∀ data, ∃ error, q.state.enqueue data = .error error) ∧
      ∀ more, ∃ q', run (calls ++ more) = some q' ∧ q'.accepted = q.accepted ∧
        (q'.handed = q.handed ∨
          q.state.failure = none ∧ ∃ data, q.phase = .popped data ∧
            q'.handed = q.handed ++ [data])) := by
  obtain ⟨q, hq, h, -⟩ := accounted_empty.foldlM calls
  refine ⟨q, hq, h.bytes, h.messages, h.byteBound, h.messageBound, ?_,
    fun hs => (h.whole hs).symm, fun hs => ⟨enqueue_shut hs, fun more => ?_⟩⟩
  · exact (List.prefix_append _ _).trans ((List.prefix_append _ _).trans h.order)
  · obtain ⟨q', hq', -, hw⟩ := h.foldlM more
    obtain ⟨-, ha, hh, hr⟩ := hw hs
    refine ⟨q', ?_, ha, ?_⟩
    · rw [run, List.foldlM_append, hq]
      exact hq'
    · have hle : q'.handed <+: q.handed ++ q.phase.unwritten := hr ▸ List.prefix_append _ _
      cases hp : q.phase with
      | popped data =>
        rw [hp] at hle
        have hrun : q.state.failure = none := by
          by_contra hf
          have hstop := h.failed (Option.isSome_iff_ne_none.mpr hf)
          rw [hp] at hstop
          cases hstop
        rcases List.prefix_concat_iff.mp hle with hall | hle
        · exact .inr ⟨hrun, data, rfl, hall⟩
        · exact .inl (hle.eq_of_length_le hh.length_le)
      | waiting =>
        rw [hp, WriterPhase.unwritten, List.append_nil] at hle
        exact .inl (hle.eq_of_length_le hh.length_le)
      | wrote data error =>
        rw [hp, WriterPhase.unwritten, List.append_nil] at hle
        exact .inl (hle.eq_of_length_le hh.length_le)
      | stopped =>
        rw [hp, WriterPhase.unwritten, List.append_nil] at hle
        exact .inl (hle.eq_of_length_le hh.length_le)

end InputQueue

end Nightcrow.Backend
