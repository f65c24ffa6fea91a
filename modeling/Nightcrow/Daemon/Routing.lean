import Nightcrow.Daemon.TerminalLink
import Nightcrow.Library.Runs

/-! The router's inboxes against the deliveries it accepted: bytes are delayed and glued
together, never dropped, and the counters stay the sums they stand for. -/

namespace Nightcrow.Daemon

open Nightcrow.Library Nightcrow.Session.Terminal

def glueOutputs : TerminalMessage → TerminalMessage → Option TerminalMessage
  | .output pane data, .output next more =>
    if pane = next then some (.output pane (data ++ more)) else none
  | _, _ => none

lemma glueOutputs_eq_some {a b ab : TerminalMessage} : glueOutputs a b = some ab ↔
    ∃ pane data more, a = .output pane data ∧ b = .output pane more ∧
      ab = .output pane (data ++ more) := by
  constructor
  · intro h
    rcases a with _ | ⟨p, d⟩
    · cases h
    · rcases b with _ | ⟨q, e⟩
      · cases h
      · simp only [glueOutputs, Option.ite_none_right_eq_some, Option.some.injEq] at h
        obtain ⟨rfl, rfl⟩ := h
        exact ⟨p, d, e, rfl, rfl, rfl⟩
  · rintro ⟨p, d, e, rfl, rfl, rfl⟩
    exact if_pos rfl

def outputs : Gluing TerminalMessage where
  glue := glueOutputs
  glue_assoc := by
    intro a b ab h x
    obtain ⟨p, d, e, rfl, rfl, rfl⟩ := glueOutputs_eq_some.mp h
    rcases x with _ | ⟨q, c⟩
    · rfl
    · by_cases hq : q = p <;> simp [glueOutputs, hq]
  glue_chain := by
    intro x a xa b ab h h'
    obtain ⟨p, c, d, rfl, rfl, rfl⟩ := glueOutputs_eq_some.mp h
    obtain ⟨q, d', e, hd, rfl, rfl⟩ := glueOutputs_eq_some.mp h'
    cases hd
    simp [glueOutputs]

lemma glue_output (pane : PaneId) (data more : List UInt8) :
    outputs.glue (.output pane data) (.output pane more) = some (.output pane (data ++ more)) :=
  if_pos rfl

namespace TerminalRouter

variable {r : TerminalRouter} {repo : String} {message : TerminalMessage}

@[simp] lemma bytesOf_nil : bytesOf [] = 0 := rfl

@[simp] lemma bytesOf_append (xs ys : List TerminalMessage) :
    bytesOf (xs ++ ys) = bytesOf xs + bytesOf ys := by
  simp [bytesOf]

@[simp] lemma bytesOf_singleton : bytesOf [message] = message.outputBytes := by simp [bytesOf]

lemma elim_lookup (f : List TerminalMessage → ℕ) (h : f [] = 0) :
    (r.state.inboxes.lookup repo).elim 0 f = f (r.inbox repo) := by
  unfold inbox
  cases r.state.inboxes.lookup repo <;> simp [h]

lemma coalesces_cases (h : r.coalesces repo message = true) :
    ∃ queued pane data more, r.inbox repo = queued ++ [.output pane data] ∧
      message = .output pane more := by
  unfold coalesces at h
  rcases hl : r.state.inboxes.lookup repo with _ | inbox
  · simp [hl, fits] at h
  · rcases List.eq_nil_or_concat inbox with rfl | ⟨queued, last, he⟩
    · simp [hl, fits] at h
    · rw [List.concat_eq_append] at he
      subst he
      rcases last with _ | ⟨pane, data⟩
      · simp [hl, fits] at h
      · rcases message with _ | ⟨next, more⟩
        · simp [hl, fits] at h
        · have hp : pane = next := by
            have hlast : (queued ++ [TerminalMessage.output pane data]).getLast? =
                some (.output pane data) := List.getLast?_concat
            rw [hl, Option.bind_some, hlast] at h
            simp only [fits, Bool.and_eq_true, beq_iff_eq] at h
            exact h.1
          subst hp
          exact ⟨queued, pane, data, more, by simp [inbox, hl], rfl⟩

structure Filed (r : TerminalRouter) (repo : String) (message : TerminalMessage)
    (inbox : List TerminalMessage) : Prop where
  merged : ∀ earlier, outputs.merged (earlier ++ inbox) =
    outputs.merged (earlier ++ r.inbox repo ++ [message])
  bytes : bytesOf inbox = bytesOf (r.inbox repo) + message.outputBytes
  length : inbox.length =
    (r.inbox repo).length + if r.coalesces repo message then 0 else 1

def filed (r : TerminalRouter) (repo : String) (message : TerminalMessage)
    (inbox : List TerminalMessage) : TerminalRouter :=
  { r with
    state :=
      { r.state with
        queuedOutputBytes := r.state.queuedOutputBytes + message.outputBytes
        queuedMessages :=
          if r.coalesces repo message then r.state.queuedMessages
          else r.state.queuedMessages + 1
        inboxes := r.state.inboxes.insert repo inbox } }

def poisoned (r : TerminalRouter) : TerminalRouter :=
  { r with state := { r.state with overflowed := true } }

lemma deliver_accepted (h : r.accepts repo message = true) :
    ∃ inbox, r.Filed repo message inbox ∧
      r.deliver repo message = some (.ok (), r.filed repo message inbox) := by
  by_cases hc : r.coalesces repo message = true
  · obtain ⟨queued, pane, data, more, hq, rfl⟩ := coalesces_cases hc
    refine ⟨queued ++ [.output pane (data ++ more)], ⟨?_, ?_, ?_⟩, ?_⟩
    · intro earlier
      rw [hq, ← List.append_assoc, Gluing.merged_glued (glue_output pane data more),
        ← List.append_assoc]
    · simp [hq, TerminalMessage.outputBytes, Nat.add_assoc]
    · simp [hq, hc]
    · simp [deliver, h, hc, hq, appendToFittingTail, filed]
  · refine ⟨r.inbox repo ++ [message], ⟨?_, ?_, ?_⟩, ?_⟩
    · intro earlier
      rw [List.append_assoc]
    · simp
    · simp [hc]
    · simp [deliver, h, hc, filed]

lemma deliver_refused (h : ¬ r.accepts repo message = true) :
    r.deliver repo message = some (.error (r.overflow message), r.poisoned) := by
  simp [deliver, h, poisoned]

def Light (xs : List TerminalMessage) : Prop :=
  bytesOf xs ≤ terminalDrainBytes ∨ ∃ m, xs = [m] ∧ terminalDrainBytes < m.outputBytes

structure Takes (drained inbox more rest : List TerminalMessage) : Prop where
  split : inbox = more ++ rest
  result : drainLoop drained (bytesOf drained) inbox =
    (drained ++ more, bytesOf (drained ++ more), rest)
  short : drained.length ≤ terminalDrainMessages →
    (drained ++ more).length ≤ terminalDrainMessages
  light : Light drained → Light (drained ++ more)
  takesFirst : drained = [] → inbox ≠ [] → more ≠ []

lemma takes_nothing {drained inbox : List TerminalMessage} (hd : drained ≠ [])
    (h : drainLoop drained (bytesOf drained) inbox = (drained, bytesOf drained, inbox)) :
    Takes drained inbox [] inbox :=
  ⟨rfl, by simp [h], by simp, by simp, fun he => absurd he hd⟩

lemma light_snoc {drained : List TerminalMessage}
    (h : ¬ (drained ≠ [] ∧
      terminalDrainBytes < saturatingAdd (bytesOf drained) message.outputBytes)) :
    Light (drained ++ [message]) := by
  by_cases hn : drained = []
  · subst hn
    rcases Nat.lt_or_ge terminalDrainBytes message.outputBytes with hgt | hle
    · exact Or.inr ⟨message, rfl, hgt⟩
    · exact Or.inl (by simpa using hle)
  · have hs : ¬ terminalDrainBytes < saturatingAdd (bytesOf drained) message.outputBytes :=
      fun hs => h ⟨hn, hs⟩
    refine Or.inl ?_
    simp only [saturatingAdd, usizeMax, terminalDrainBytes, bytesOf_append,
      bytesOf_singleton] at hs ⊢
    omega

lemma drainLoop_takes (inbox drained : List TerminalMessage) :
    ∃ more rest, Takes drained inbox more rest := by
  induction inbox generalizing drained with
  | nil => exact ⟨[], [], rfl, by simp [drainLoop], by simp, by simp, by simp⟩
  | cons next inbox ih =>
    by_cases hl : drained.length < terminalDrainMessages
    · by_cases hb : drained ≠ [] ∧
          terminalDrainBytes < saturatingAdd (bytesOf drained) next.outputBytes
      · exact ⟨[], _, takes_nothing hb.1 (by simp only [drainLoop, if_pos hl, if_pos hb])⟩
      · obtain ⟨more, rest, h⟩ := ih (drained ++ [next])
        have hs : drainLoop drained (bytesOf drained) (next :: inbox) =
            drainLoop (drained ++ [next]) (bytesOf (drained ++ [next])) inbox := by
          simp only [drainLoop, if_pos hl, if_neg hb, bytesOf_append, bytesOf_singleton]
        refine ⟨next :: more, rest, ?_, ?_, ?_, ?_, by simp⟩
        · rw [h.split, List.cons_append]
        · rw [hs, h.result, List.append_assoc, List.singleton_append]
        · intro _
          simpa using h.short (by simpa using hl)
        · intro _
          simpa using h.light (light_snoc hb)
    · refine ⟨[], _, takes_nothing ?_ (by simp only [drainLoop, if_neg hl])⟩
      rintro rfl
      exact hl (by decide)

structure Counted (r : TerminalRouter) : Prop where
  bytes : r.state.queuedOutputBytes = r.state.inboxes.total bytesOf
  messages : r.state.queuedMessages = r.state.inboxes.total List.length
  bytesBound : r.state.queuedOutputBytes ≤ r.byteLimit
  messagesBound : r.state.queuedMessages ≤ r.messageLimit

lemma total_insert_inbox (r : TerminalRouter) (repo : String) (inbox : List TerminalMessage)
    (f : List TerminalMessage → ℕ) (h : f [] = 0) :
    Table.total (r.state.inboxes.insert repo inbox) f + f (r.inbox repo) =
      f inbox + r.state.inboxes.total f := by
  rw [Table.total_insert, r.state.inboxes.total_erase (a := repo) f, elim_lookup f h]
  omega

lemma accepts_cases (h : r.accepts repo message = true) :
    r.state.overflowed = false ∧
      r.state.queuedOutputBytes + message.outputBytes ≤ r.byteLimit ∧
      (r.coalesces repo message = false → r.state.queuedMessages < r.messageLimit) := by
  simp only [accepts, bytesFit, Bool.and_eq_true, Bool.not_eq_true', Bool.or_eq_true,
    decide_eq_true_eq] at h
  obtain ⟨⟨ho, hb⟩, hm⟩ := h
  refine ⟨ho, ?_, fun hc => hm.resolve_left (by simp [hc])⟩
  unfold checkedAdd at hb
  split at hb
  · simpa using hb
  · simp at hb

lemma counted_filed {inbox : List TerminalMessage} (hc : r.Counted)
    (ha : r.accepts repo message = true) (hf : r.Filed repo message inbox) :
    (r.filed repo message inbox).Counted := by
  have hb := r.total_insert_inbox repo inbox bytesOf rfl
  have hl := r.total_insert_inbox repo inbox List.length rfl
  have hfb := hf.bytes
  have hfl := hf.length
  obtain ⟨-, hbytes, hmessages⟩ := accepts_cases ha
  have hcb := hc.bytes
  have hcm := hc.messages
  have hcl := hc.messagesBound
  by_cases hg : r.coalesces repo message = true
  · rw [if_pos hg] at hfl
    constructor <;> simp only [filed, if_pos hg] <;> omega
  · rw [if_neg hg] at hfl
    have := hmessages (by simpa using hg)
    constructor <;> simp only [filed, if_neg hg] <;> omega

lemma inbox_filed (inbox : List TerminalMessage) (other : String) :
    (r.filed repo message inbox).inbox other =
      if other = repo then inbox else r.inbox other := by
  by_cases h : other = repo
  · subst h
    simp [TerminalRouter.inbox, filed]
  · simp [TerminalRouter.inbox, filed, h, AList.lookup_insert_ne h]

def relieved (r : TerminalRouter) (bytes messages : ℕ)
    (inboxes : Table String (List TerminalMessage)) : TerminalRouter :=
  { r with
    state :=
      { r.state with
        queuedOutputBytes := r.state.queuedOutputBytes - bytes
        queuedMessages := r.state.queuedMessages - messages
        inboxes } }

lemma counted_relieved (hc : r.Counted) {bytes messages : ℕ}
    {inboxes : Table String (List TerminalMessage)}
    (hb : r.state.inboxes.total bytesOf = bytes + inboxes.total bytesOf)
    (hm : r.state.inboxes.total List.length = messages + inboxes.total List.length) :
    checkedSub r.state.queuedOutputBytes bytes = some (r.state.queuedOutputBytes - bytes) ∧
      checkedSub r.state.queuedMessages messages = some (r.state.queuedMessages - messages) ∧
      (r.relieved bytes messages inboxes).Counted := by
  have hcb := hc.bytes
  have hcm := hc.messages
  have hbb := hc.bytesBound
  have hmb := hc.messagesBound
  refine ⟨if_pos (by omega), if_pos (by omega), ?_⟩
  constructor <;> simp only [relieved] <;> omega

structure Drains (r : TerminalRouter) (repo : String) (drained : List TerminalMessage)
    (s : TerminalRouter) : Prop where
  split : r.inbox repo = drained ++ s.inbox repo
  others : ∀ other, other ≠ repo → s.inbox other = r.inbox other
  short : drained.length ≤ terminalDrainMessages
  light : Light drained
  takesFirst : r.inbox repo ≠ [] → drained ≠ []
  overflowed : s.state.overflowed = r.state.overflowed
  limits : s.byteLimit = r.byteLimit ∧ s.messageLimit = r.messageLimit
  counted : s.Counted

lemma drain_drains (hc : r.Counted) (repo : String) :
    ∃ drained s, r.drain repo = some (drained, s) ∧ r.Drains repo drained s := by
  rcases hl : r.state.inboxes.lookup repo with _ | inbox
  · have hi : r.inbox repo = [] := by simp [inbox, hl]
    refine ⟨[], r, by simp [drain, hl], rfl, fun _ _ => rfl, by simp, Or.inl (by simp), ?_, rfl,
      ⟨rfl, rfl⟩, hc⟩
    exact fun h => absurd hi h
  · have hi : r.inbox repo = inbox := by simp [TerminalRouter.inbox, hl]
    obtain ⟨drained, rest, ht⟩ := drainLoop_takes inbox []
    have hr : drainLoop [] 0 inbox = (drained, bytesOf drained, rest) := ht.result
    have hb := r.total_insert_inbox repo rest bytesOf rfl
    have hm := r.total_insert_inbox repo rest List.length rfl
    have hsb : bytesOf inbox = bytesOf drained + bytesOf rest := by
      rw [ht.split, bytesOf_append]
    have hsm : inbox.length = drained.length + rest.length := by
      rw [ht.split, List.length_append]
    rw [hi] at hb hm
    have hb' : r.state.inboxes.total bytesOf =
        bytesOf drained + Table.total (r.state.inboxes.insert repo rest) bytesOf := by omega
    have hm' : r.state.inboxes.total List.length =
        drained.length + Table.total (r.state.inboxes.insert repo rest) List.length := by omega
    obtain ⟨h₁, h₂, hd⟩ := counted_relieved hc hb' hm'
    refine ⟨drained, r.relieved (bytesOf drained) drained.length (r.state.inboxes.insert repo rest),
      ?_, ?_, ?_, ?_, ?_, ?_, ?_, ?_, hd⟩
    · simp only [drain, hl, hr, h₁, h₂, Option.bind_some, Option.map_some, relieved]
    · simp [TerminalRouter.inbox, hl, ht.split, relieved]
    · intro other ho
      simp [TerminalRouter.inbox, relieved, AList.lookup_insert_ne ho]
    · exact ht.short (by simp)
    · exact ht.light (Or.inl (by simp))
    · exact fun h => ht.takesFirst rfl (hi ▸ h)
    · rfl
    · exact ⟨rfl, rfl⟩

lemma inbox_retain {openRepos : List String} {s : TerminalRouter}
    (hs : r.retain openRepos = some s) (other : String) :
    s.inbox other = if other ∈ openRepos then r.inbox other else [] := by
  simp only [retain, Option.bind_eq_some_iff, Option.map_eq_some_iff] at hs
  obtain ⟨-, -, -, -, rfl⟩ := hs
  simp only [inbox, Table.lookup_keep]
  split <;> rfl

lemma retain_counted (hc : r.Counted) (openRepos : List String) :
    ∃ s, r.retain openRepos = some s ∧ s.Counted ∧ s.state.overflowed = r.state.overflowed ∧
      s.byteLimit = r.byteLimit ∧ s.messageLimit = r.messageLimit := by
  have hb := r.state.inboxes.total_keep (p := (· ∈ openRepos)) bytesOf
  have hm := r.state.inboxes.total_keep (p := (· ∈ openRepos)) List.length
  set gone := r.state.inboxes.keep (· ∉ openRepos) with hg
  obtain ⟨h₁, h₂, hd⟩ := counted_relieved hc (hb.trans (Nat.add_comm _ _))
    (hm.trans (Nat.add_comm _ _))
  refine ⟨r.relieved (gone.total bytesOf) (gone.total List.length)
    (r.state.inboxes.keep (· ∈ openRepos)), ?_, hd, rfl, rfl, rfl⟩
  simp only [retain, ← hg, h₁, h₂, Option.bind_some, Option.map_some, relieved]

end TerminalRouter

/-- A router and what has passed through it: what each repository's deliveries and drains
amount to, the repositories whose inbox a `retain` dropped, and whether a delivery was ever
refused. -/
structure Traffic where
  router : TerminalRouter
  accepted : String → List TerminalMessage := fun _ => []
  drained : String → List TerminalMessage := fun _ => []
  removed : String → Bool := fun _ => false
  refused : Bool := false

inductive Call
  | deliver (repo : String) (message : TerminalMessage)
  | drain (repo : String)
  | retain (openRepos : List String)

namespace Traffic

variable (t : Traffic)

def step : Call → Option Traffic
  | .deliver repo message =>
    (t.router.deliver repo message).map fun r =>
      match r.1 with
      | .ok () => { t with
          router := r.2
          accepted := Function.update t.accepted repo (t.accepted repo ++ [message]) }
      | .error _ => { t with router := r.2, refused := true }
  | .drain repo =>
    (t.router.drain repo).map fun r => { t with
      router := r.2
      drained := Function.update t.drained repo (t.drained repo ++ r.1) }
  | .retain openRepos =>
    (t.router.retain openRepos).map fun r => { t with
      router := r
      removed := fun repo => t.removed repo ||
        (repo ∉ openRepos && (t.router.state.inboxes.lookup repo).isSome) }

structure Faithful (byteLimit messageLimit : ℕ) : Prop where
  limits : t.router.byteLimit = byteLimit ∧ t.router.messageLimit = messageLimit
  noHole : ∀ repo, t.removed repo = false →
    outputs.merged (t.drained repo ++ t.router.inbox repo) = outputs.merged (t.accepted repo)
  refusesOn : t.refused = true → ∀ repo message,
    t.router.deliver repo message = some (.error (t.router.overflow message), t.router)
  counted : t.router.Counted
  drains : ∀ repo, ∃ drained s,
    t.router.drain repo = some (drained, s) ∧ t.router.Drains repo drained s

variable {t} {byteLimit messageLimit : ℕ}

lemma noHole_deliver {repo : String} {message : TerminalMessage}
    {inbox : List TerminalMessage} (hf : t.router.Filed repo message inbox)
    (h : ∀ repo, t.removed repo = false →
      outputs.merged (t.drained repo ++ t.router.inbox repo) = outputs.merged (t.accepted repo)) :
    ∀ other, t.removed other = false →
      outputs.merged (t.drained other ++ (t.router.filed repo message inbox).inbox other) =
        outputs.merged (Function.update t.accepted repo (t.accepted repo ++ [message]) other) := by
  intro other ho
  rw [TerminalRouter.inbox_filed]
  by_cases he : other = repo
  · subst he
    rw [if_pos rfl, Function.update_self, hf.merged]
    exact Gluing.merged_append_congr (h other ho)
  · rw [if_neg he, Function.update_of_ne he]
    exact h other ho

lemma noHole_drain {repo : String} {drained : List TerminalMessage} {s : TerminalRouter}
    (hd : t.router.Drains repo drained s)
    (h : ∀ repo, t.removed repo = false →
      outputs.merged (t.drained repo ++ t.router.inbox repo) = outputs.merged (t.accepted repo)) :
    ∀ other, t.removed other = false →
      outputs.merged (Function.update t.drained repo (t.drained repo ++ drained) other ++
        s.inbox other) = outputs.merged (t.accepted other) := by
  intro other ho
  by_cases he : other = repo
  · subst he
    rw [Function.update_self, List.append_assoc, ← hd.split]
    exact h other ho
  · rw [Function.update_of_ne he, hd.others other he]
    exact h other ho

structure Sound (t : Traffic) (byteLimit messageLimit : ℕ) : Prop where
  limits : t.router.byteLimit = byteLimit ∧ t.router.messageLimit = messageLimit
  noHole : ∀ repo, t.removed repo = false →
    outputs.merged (t.drained repo ++ t.router.inbox repo) = outputs.merged (t.accepted repo)
  poisoned : t.refused = true → t.router.state.overflowed = true
  counted : t.router.Counted

lemma sound_deliver (h : t.Sound byteLimit messageLimit) (repo : String)
    (message : TerminalMessage) :
    ∃ u, t.step (.deliver repo message) = some u ∧ u.Sound byteLimit messageLimit := by
  by_cases ha : t.router.accepts repo message = true
  · obtain ⟨inbox, hf, hd⟩ := TerminalRouter.deliver_accepted ha
    have hu : t.step (.deliver repo message) = some { t with
        router := t.router.filed repo message inbox
        accepted := Function.update t.accepted repo (t.accepted repo ++ [message]) } := by
      simp only [step, hd, Option.map_some]
    exact ⟨_, hu, h.limits, noHole_deliver hf h.noHole, h.poisoned,
      TerminalRouter.counted_filed h.counted ha hf⟩
  · have hu : t.step (.deliver repo message) =
        some { t with router := t.router.poisoned, refused := true } := by
      simp only [step, TerminalRouter.deliver_refused ha, Option.map_some]
    refine ⟨_, hu, h.limits, h.noHole, fun _ => rfl, ?_⟩
    exact ⟨h.counted.bytes, h.counted.messages, h.counted.bytesBound, h.counted.messagesBound⟩

lemma sound_drain (h : t.Sound byteLimit messageLimit) (repo : String) :
    ∃ u, t.step (.drain repo) = some u ∧ u.Sound byteLimit messageLimit := by
  obtain ⟨drained, s, hs, hd⟩ := TerminalRouter.drain_drains h.counted repo
  have hu : t.step (.drain repo) = some { t with
      router := s
      drained := Function.update t.drained repo (t.drained repo ++ drained) } := by
    simp only [step, hs, Option.map_some]
  refine ⟨_, hu, ?_, noHole_drain hd h.noHole, ?_, hd.counted⟩
  · exact ⟨hd.limits.1.trans h.limits.1, hd.limits.2.trans h.limits.2⟩
  · intro hr
    exact hd.overflowed.trans (h.poisoned hr)

lemma sound_retain (h : t.Sound byteLimit messageLimit) (openRepos : List String) :
    ∃ u, t.step (.retain openRepos) = some u ∧ u.Sound byteLimit messageLimit := by
  obtain ⟨s, hs, hc, ho, hb, hm⟩ := TerminalRouter.retain_counted h.counted openRepos
  have hu : t.step (.retain openRepos) = some { t with
      router := s
      removed := fun repo => t.removed repo ||
        (repo ∉ openRepos && (t.router.state.inboxes.lookup repo).isSome) } := by
    simp only [step, hs, Option.map_some]
  refine ⟨_, hu, ⟨hb.trans h.limits.1, hm.trans h.limits.2⟩, ?_,
    fun hr => ho.trans (h.poisoned hr), hc⟩
  intro repo hr
  simp only [Bool.or_eq_false_iff, Bool.and_eq_false_iff, decide_eq_false_iff_not, not_not] at hr
  rw [TerminalRouter.inbox_retain hs]
  rcases hr.2 with hm | hn
  · rw [if_pos hm]
    exact h.noHole repo hr.1
  · have hi : t.router.inbox repo = [] := by
      rw [Option.isSome_eq_false_iff, Option.isNone_iff_eq_none] at hn
      simp [TerminalRouter.inbox, hn]
    have := h.noHole repo hr.1
    rw [hi] at this
    split
    · rw [hi]
      exact this
    · exact this

lemma sound_step (call : Call) (h : t.Sound byteLimit messageLimit) :
    ∃ u, t.step call = some u ∧ u.Sound byteLimit messageLimit := by
  cases call with
  | deliver repo message => exact sound_deliver h repo message
  | drain repo => exact sound_drain h repo
  | retain openRepos => exact sound_retain h openRepos

lemma Sound.faithful (h : t.Sound byteLimit messageLimit) :
    t.Faithful byteLimit messageLimit := by
  refine ⟨h.limits, h.noHole, ?_, h.counted, TerminalRouter.drain_drains h.counted⟩
  intro hr repo message
  have ho := h.poisoned hr
  have hn : ¬ t.router.accepts repo message = true :=
    fun ha => by simp [(TerminalRouter.accepts_cases ha).1] at ho
  have hp : t.router.poisoned = t.router := by
    unfold TerminalRouter.poisoned
    rw [← ho]
  rw [TerminalRouter.deliver_refused hn, hp]

theorem makes_no_hole (byteLimit messageLimit : ℕ) (calls : List Call) :
    ∃ t, run step { router := { byteLimit, messageLimit } } calls = some t ∧
      t.Faithful byteLimit messageLimit := by
  have hs : Sound { router := { byteLimit, messageLimit } } byteLimit messageLimit := by
    refine ⟨⟨rfl, rfl⟩, fun _ _ => rfl, by simp, ?_⟩
    constructor <;> simp [Table.total]
  obtain ⟨t, ht, h⟩ := run_total (fun t call => sound_step call) calls hs
  exact ⟨t, ht, h.faithful⟩

example (a b : List UInt8) : outputs.merged [.output 1 a, .output 1 b] = [.output 1 (a ++ b)] :=
  rfl

end Traffic

end Nightcrow.Daemon
