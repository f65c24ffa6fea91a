import Nightcrow.Runtime.Snapshot.Filter

/-! The reader thread of a repository's status, times in milliseconds. -/

namespace Nightcrow.Runtime.Snapshot

def minReadInterval : ℕ := 1000

def idleReadInterval : ℕ := 10000

def reopenRepoEveryReads : ℕ := 30

inductive Wake where
  | changed (paths : List Path)
  | stop
  deriving DecidableEq

structure Repo where
  commondir : Path
  deriving DecidableEq

structure Watches where
  tree : Bool := false
  treeAttempted : Bool := false
  gitDir : Bool := false
  gitDirSettled : Bool := false
  gitDirAt : Option Path := none
  deriving DecidableEq

structure ReadState where
  repo : Option Repo := none
  readsSinceOpen : ℕ := 0
  changed : Bool := true
  lastRead : Option ℕ := none
  ignored : IgnoredDirs := []
  deriving DecidableEq

structure Worker where
  roots : Roots
  watching : Bool := false
  watch : Watches := {}
  state : ReadState := {}
  deriving DecidableEq

def due (lastRead : Option ℕ) (now : ℕ) : Bool :=
  match lastRead with
  | none => true
  | some last => minReadInterval ≤ now - last

def externalGitDir (repo : Repo) (roots : Roots) : Option Path :=
  match roots.tree.relative repo.commondir with
  | some _ => none
  | none => some repo.commondir

namespace Worker

def passStart (w : Worker) (awake installed : Bool) : Worker :=
  if awake && !w.watch.treeAttempted then
    { w with
      watch := { w.watch with treeAttempted := true, tree := installed }
      state := { w.state with changed := true } }
  else if !awake && w.watch.treeAttempted then
    { w with watch := {}, watching := false, state := { w.state with repo := none } }
  else w

def reads (w : Worker) (awake : Bool) (now : ℕ) : Bool :=
  awake && w.state.changed && due w.state.lastRead now

def readThrough (w : Worker) (repo : Repo) (readsSinceOpen : ℕ) (ok : Bool) (now : ℕ) : Worker :=
  { w with state := { w.state with
    repo := if ok then some repo else none
    readsSinceOpen := (if ok then readsSinceOpen else 0) + 1
    changed := false
    lastRead := some now } }

def readOnce (w : Worker) (discovered : Option Repo) (ok : Bool) (now : ℕ) : Worker :=
  let held := if reopenRepoEveryReads ≤ w.state.readsSinceOpen then none else w.state.repo
  match held with
  | some repo => w.readThrough repo w.state.readsSinceOpen ok now
  | none =>
    match discovered with
    | some opened => w.readThrough opened 0 ok now
    | none =>
      { w with
        watching := w.watch.tree
        state := { w.state with repo := none, changed := false, lastRead := some now } }

def followGitDir (w : Worker) (canonical : Path) (installed : Bool) : Worker :=
  match w.state.repo with
  | none => w
  | some repo =>
    let wanted := externalGitDir repo w.roots
    if w.watch.gitDirSettled && wanted == w.watch.gitDirAt then w
    else
      let held := wanted.isSome && installed
      { w with
        roots := { w.roots with gitDir := wanted.map (fun given => { given, canonical }) }
        watching := w.watch.tree && (wanted.isNone || held)
        watch := { w.watch with gitDir := held, gitDirSettled := true, gitDirAt := wanted }
        state := { w.state with changed := held || w.state.changed } }

def absorb (w : Worker) (git : Git) (paths : List Path) : Bool × Worker :=
  if w.state.changed then (true, w)
  else
    let asked := anyMatters (w.state.repo.map (fun _ => git)) w.roots w.state.ignored paths
    (asked.1, { w with state := { w.state with changed := asked.1, ignored := asked.2 } })

def forget (w : Worker) : Worker := { w with state := { w.state with ignored := [] } }

def lapse (w : Worker) : Worker := { w with state := { w.state with changed := true } }

def wait (w : Worker) (awake : Bool) (now : ℕ) : ℕ :=
  if !awake then idleReadInterval
  else
    match w.state.lastRead with
    | none => 0
    | some last =>
      let target := if w.state.changed then minReadInterval
        else if w.watching then idleReadInterval
        else minReadInterval
      last + target - now

end Worker

inductive Phase where
  | top
  | loaded
  | reading
  | finished
  | delivered
  | waiting (deadline : ℕ)
  | draining
  | stopped
  deriving DecidableEq

/-- What happened: an event queued, the two halves of a call of `set_awake`, a read begun, a reading
delivered, and a wake absorbed with its answer. -/
inductive Entry where
  | event (paths : List Path)
  | stored (awake : Bool)
  | sent (awake : Bool)
  | began (now : ℕ)
  | delivered
  | absorbed (paths : List Path) (matters : Bool)
  deriving DecidableEq

/-- The worker between its steps, and what it shares: the switch, the calls that have stored it and
not yet sent their wake, and the wake queue. -/
structure World where
  worker : Worker
  now : ℕ := 0
  awake : Bool
  calls : List Bool := []
  queue : List Wake := []
  observed : Bool := false
  phase : Phase := .top
  log : List Entry := []
  deriving DecidableEq

namespace World

inductive Step : World → World → Prop
  | event (w : World) (paths : List Path) :
      Step w { w with queue := w.queue ++ [.changed paths], log := .event paths :: w.log }
  | store (w : World) (awake : Bool) :
      Step w { w with awake, calls := awake :: w.calls, log := .stored awake :: w.log }
  | send (w : World) (awake : Bool) (h : awake ∈ w.calls) :
      Step w { w with
        calls := w.calls.erase awake
        queue := w.queue ++ [.changed []]
        log := .sent awake :: w.log }
  | stop (w : World) : Step w { w with queue := w.queue ++ [.stop] }
  | tick (w : World) (ms : ℕ) : Step w { w with now := w.now + ms }
  | load (w : World) (installed : Bool) (h : w.phase = .top) :
      Step w { w with
        worker := w.worker.passStart w.awake installed, observed := w.awake, phase := .loaded }
  | begin (w : World) (h : w.phase = .loaded) (hreads : w.worker.reads w.observed w.now = true) :
      Step w { w with phase := .reading, log := .began w.now :: w.log }
  | skip (w : World) (h : w.phase = .loaded) (hreads : w.worker.reads w.observed w.now = false) :
      Step w { w with phase := .waiting (w.now + w.worker.wait w.observed w.now) }
  | finish (w : World) (discovered : Option Repo) (ok : Bool) (h : w.phase = .reading) :
      Step w { w with worker := w.worker.readOnce discovered ok w.now, phase := .finished }
  | deliver (w : World) (h : w.phase = .finished) (hawake : w.awake = true) :
      Step w { w with
        worker := w.worker.forget, phase := .delivered, log := .delivered :: w.log }
  | withhold (w : World) (h : w.phase = .finished) (hawake : w.awake = false) :
      Step w { w with worker := w.worker.forget, phase := .delivered }
  | gone (w : World) (h : w.phase = .finished) (hawake : w.awake = true) :
      Step w { w with worker := w.worker.forget, phase := .stopped }
  | follow (w : World) (canonical : Path) (installed : Bool) (h : w.phase = .delivered) :
      Step w { w with
        worker := w.worker.followGitDir canonical installed
        phase := .waiting
          (w.now + (w.worker.followGitDir canonical installed).wait w.observed w.now) }
  | absorb (w : World) (git : Git) (paths : List Path) (queue : List Wake)
      (h : (∃ deadline, w.phase = .waiting deadline) ∨ w.phase = .draining)
      (hqueue : w.queue = .changed paths :: queue) :
      Step w { w with
        worker := (w.worker.absorb git paths).2
        queue
        phase := .draining
        log := .absorbed paths (w.worker.absorb git paths).1 :: w.log }
  | halt (w : World) (queue : List Wake)
      (h : (∃ deadline, w.phase = .waiting deadline) ∨ w.phase = .draining)
      (hqueue : w.queue = .stop :: queue) : Step w { w with queue, phase := .stopped }
  | drained (w : World) (h : w.phase = .draining) (hqueue : w.queue = []) :
      Step w { w with phase := .top }
  | timeout (w : World) (deadline : ℕ) (h : w.phase = .waiting deadline) (hqueue : w.queue = [])
      (hnow : deadline ≤ w.now) : Step w { w with worker := w.worker.lapse, phase := .top }

def spawned (root : Prefix) (awake : Bool) : World := { worker := { roots := ⟨root, none⟩ }, awake }

inductive Reaches (root : Prefix) (awake : Bool) : World → Prop
  | spawned : Reaches root awake (spawned root awake)
  | step {w w' : World} : Reaches root awake w → Step w w' → Reaches root awake w'

end World

namespace Worker

variable {w : Worker} {awake installed ok : Bool} {now : ℕ} {git : Git} {paths : List Path}
  {canonical : Path} {discovered : Option Repo}

lemma passStart_lastRead :
    (w.passStart awake installed).state.lastRead = w.state.lastRead := by
  rw [passStart]
  split_ifs <;> rfl

lemma passStart_changed (h : (w.passStart awake installed).state.changed = false) :
    w.state.changed = false := by
  rw [passStart] at h
  split_ifs at h
  · exact h
  · exact h

lemma passStart_attempted : (w.passStart awake installed).watch.treeAttempted = awake := by
  cases awake <;> cases h : w.watch.treeAttempted <;> simp [passStart, h]

lemma passStart_asleep (h : w.watch.treeAttempted = false → w.state.repo = none ∧ w.watch = {}) :
    (w.passStart false installed).state.repo = none ∧ (w.passStart false installed).watch = {} := by
  cases htried : w.watch.treeAttempted with
  | true => simp [passStart, htried]
  | false => simpa [passStart, htried] using h htried

lemma readOnce_state : (w.readOnce discovered ok now).state.changed = false ∧
    (w.readOnce discovered ok now).state.lastRead = some now ∧
    (w.readOnce discovered ok now).watch = w.watch := by
  simp only [readOnce]
  cases (if reopenRepoEveryReads ≤ w.state.readsSinceOpen then none else w.state.repo) with
  | some repo => exact ⟨rfl, rfl, rfl⟩
  | none => cases discovered <;> exact ⟨rfl, rfl, rfl⟩

lemma followGitDir_state :
    ((w.followGitDir canonical installed).state.changed = false → w.state.changed = false) ∧
    (w.followGitDir canonical installed).state.lastRead = w.state.lastRead ∧
    (w.followGitDir canonical installed).watch.treeAttempted = w.watch.treeAttempted := by
  rw [followGitDir]
  split
  · exact ⟨id, rfl, rfl⟩
  · dsimp only
    split_ifs
    · exact ⟨id, rfl, rfl⟩
    · exact ⟨fun h => (Bool.or_eq_false_iff.mp h).2, rfl, rfl⟩

lemma absorb_state : (w.absorb git paths).2.state.lastRead = w.state.lastRead ∧
    (w.absorb git paths).2.state.repo = w.state.repo ∧
    (w.absorb git paths).2.watch = w.watch := by
  rw [absorb]
  split_ifs <;> exact ⟨rfl, rfl, rfl⟩

lemma absorb_refused (h : (w.absorb git paths).2.state.changed = false) :
    w.state.changed = false ∧ (w.absorb git paths).1 = false ∧ paths ≠ [] := by
  rw [absorb] at h ⊢
  split_ifs at h ⊢ with hchanged
  · rw [hchanged] at h
    cases h
  · refine ⟨Bool.eq_false_iff.mpr hchanged, h, ?_⟩
    rintro rfl
    cases h

lemma reads_due (h : w.reads awake now = true) : awake = true ∧ w.state.changed = true ∧
    ∀ last, w.state.lastRead = some last → last + minReadInterval ≤ now := by
  rw [reads, Bool.and_eq_true, Bool.and_eq_true] at h
  obtain ⟨⟨hawake, hchanged⟩, hdue⟩ := h
  refine ⟨hawake, hchanged, fun last hlast => ?_⟩
  rw [hlast] at hdue
  have hle : minReadInterval ≤ now - last := of_decide_eq_true hdue
  rw [minReadInterval] at hle ⊢
  omega

end Worker

namespace Entry

/-- Nothing that a later read is owed for. -/
def Quiet : Entry → Prop
  | .event _ => True
  | .delivered => True
  | .absorbed _ matters => matters = false
  | .stored _ => False
  | .sent _ => False
  | .began _ => False

def queued : Entry → Option (List Path)
  | .event paths => some paths
  | .sent _ => some []
  | _ => none

def taken : Entry → Option (List Path)
  | .absorbed paths _ => some paths
  | _ => none

def begun : Entry → Option ℕ
  | .began now => some now
  | _ => none

end Entry

def Wake.paths : Wake → Option (List Path)
  | .changed paths => some paths
  | .stop => none

def Fresh (delivered : Bool) (log : List Entry) : Prop :=
  ∃ newer now older, log = newer ++ .began now :: older ∧ (∀ e ∈ newer, e.Quiet) ∧
    (delivered = true → .delivered ∈ newer)

lemma Fresh.cons {d : Bool} {log : List Entry} {e : Entry} (h : Fresh d log) (he : e.Quiet) :
    Fresh d (e :: log) := by
  obtain ⟨newer, now, older, rfl, hquiet, hdelivered⟩ := h
  exact ⟨e :: newer, now, older, rfl, List.forall_mem_cons.mpr ⟨he, hquiet⟩,
    fun hd => List.mem_cons_of_mem _ (hdelivered hd)⟩

lemma Fresh.delivered {log : List Entry} (h : Fresh false log) : Fresh true (.delivered :: log) := by
  obtain ⟨newer, now, older, rfl, hquiet, -⟩ := h
  exact ⟨.delivered :: newer, now, older, rfl, List.forall_mem_cons.mpr ⟨trivial, hquiet⟩,
    fun _ => List.mem_cons_self⟩

def Phase.Settled (p : Phase) : Prop := p ≠ .reading ∧ p ≠ .finished ∧ p ≠ .stopped

namespace World

variable {w w' : World}

def Owed (w : World) : Prop := w.calls ≠ [] ∨ .changed [] ∈ w.queue

structure Shape (w : World) : Prop where
  busy : w.phase = .reading ∨ w.phase = .finished ∨ w.phase = .delivered → w.observed = true
  attempted : w.worker.watch.treeAttempted = w.observed
  asleep : w.observed = false → w.worker.state.repo = none ∧ w.worker.watch = {}

lemma Shape.step (h : Shape w) (hs : Step w w') : Shape w' := by
  cases hs with
  | event | store | send | stop | tick => exact ⟨h.busy, h.attempted, h.asleep⟩
  | load installed hphase =>
    refine ⟨by simp, Worker.passStart_attempted, fun hasleep => ?_⟩
    dsimp only at hasleep ⊢
    rw [hasleep]
    exact Worker.passStart_asleep (fun htried => h.asleep (h.attempted.symm.trans htried))
  | begin hphase hreads => exact ⟨fun _ => (Worker.reads_due hreads).1, h.attempted, h.asleep⟩
  | skip => exact ⟨by simp, h.attempted, h.asleep⟩
  | finish discovered ok hphase =>
    have hbusy := h.busy (.inl hphase)
    refine ⟨fun _ => hbusy, ?_, fun hasleep => absurd (hasleep.symm.trans hbusy) (by simp)⟩
    dsimp only
    rw [Worker.readOnce_state.2.2]
    exact h.attempted
  | deliver hphase | withhold hphase =>
    exact ⟨fun _ => h.busy (.inr (.inl hphase)), h.attempted, h.asleep⟩
  | gone => exact ⟨by simp, h.attempted, h.asleep⟩
  | follow canonical installed hphase =>
    have hbusy := h.busy (.inr (.inr hphase))
    exact ⟨by simp, Worker.followGitDir_state.2.2.trans h.attempted,
      fun hasleep => absurd (hasleep.symm.trans hbusy) (by simp)⟩
  | absorb git paths queue hphase hqueue =>
    obtain ⟨-, hrepo, hwatch⟩ := @Worker.absorb_state w.worker git paths
    refine ⟨by simp, ?_, fun hasleep => ?_⟩
    · dsimp only
      rw [hwatch]
      exact h.attempted
    · dsimp only
      rw [hrepo, hwatch]
      exact h.asleep hasleep
  | halt | drained | timeout => exact ⟨by simp, h.attempted, h.asleep⟩

structure Paced (w : World) : Prop where
  apart : (w.log.filterMap Entry.begun).Pairwise
    (fun later earlier => earlier + minReadInterval ≤ later)
  passed : ∀ t ∈ w.log.filterMap Entry.begun, t ≤ w.now
  recent : w.phase ≠ .reading → ∀ t ∈ w.log.filterMap Entry.begun,
    ∃ last, w.worker.state.lastRead = some last ∧ t ≤ last

lemma Paced.step (h : Paced w) (hs : Step w w') : Paced w' := by
  cases hs with
  | event | store | send | stop => exact ⟨h.apart, h.passed, h.recent⟩
  | tick ms => exact ⟨h.apart, fun t ht => (h.passed t ht).trans (Nat.le_add_right _ _), h.recent⟩
  | load installed hphase =>
    refine ⟨h.apart, h.passed, fun _ => ?_⟩
    dsimp only
    rw [Worker.passStart_lastRead]
    exact h.recent (by simp [hphase])
  | begin hphase hreads =>
    have hdue := (Worker.reads_due hreads).2.2
    refine ⟨List.pairwise_cons.mpr ⟨fun t ht => ?_, h.apart⟩, ?_, fun hne => absurd rfl hne⟩
    · obtain ⟨last, hlast, hle⟩ := h.recent (by simp [hphase]) t ht
      exact (Nat.add_le_add_right hle _).trans (hdue last hlast)
    · exact List.forall_mem_cons.mpr ⟨le_rfl, h.passed⟩
  | skip hphase => exact ⟨h.apart, h.passed, fun _ => h.recent (by simp [hphase])⟩
  | finish discovered ok hphase =>
    exact ⟨h.apart, h.passed, fun _ t ht => ⟨w.now, Worker.readOnce_state.2.1, h.passed t ht⟩⟩
  | deliver hphase | withhold hphase | gone hphase =>
    exact ⟨h.apart, h.passed, fun _ => h.recent (by simp [hphase])⟩
  | follow canonical installed hphase =>
    refine ⟨h.apart, h.passed, fun _ => ?_⟩
    dsimp only
    rw [Worker.followGitDir_state.2.1]
    exact h.recent (by simp [hphase])
  | absorb git paths queue hphase hqueue =>
    refine ⟨h.apart, h.passed, fun _ => ?_⟩
    dsimp only
    rw [Worker.absorb_state.1]
    exact h.recent (by rcases hphase with ⟨_, hphase⟩ | hphase <;> simp [hphase])
  | halt queue hphase =>
    exact ⟨h.apart, h.passed, fun _ => h.recent
      (by rcases hphase with ⟨_, hphase⟩ | hphase <;> simp [hphase])⟩
  | drained hphase | timeout deadline hphase =>
    exact ⟨h.apart, h.passed, fun _ => h.recent (by simp [hphase])⟩

def Conserved (w : World) : Prop :=
  w.log.filterMap Entry.queued =
    (w.queue.filterMap Wake.paths).reverse ++ w.log.filterMap Entry.taken

lemma Conserved.step (h : Conserved w) (hs : Step w w') : Conserved w' := by
  rw [Conserved] at h ⊢
  cases hs with
  | event paths =>
    simpa [Entry.queued, Entry.taken, Wake.paths, List.filterMap_cons] using h
  | send awake hcall =>
    simpa [Entry.queued, Entry.taken, Wake.paths, List.filterMap_cons] using h
  | stop => simpa [Wake.paths, List.filterMap_cons] using h
  | absorb git paths queue hphase hqueue | halt queue hphase hqueue =>
    rw [hqueue] at h
    simpa [Entry.queued, Entry.taken, Wake.paths, List.filterMap_cons] using h
  | store | tick | load | begin | skip | finish | deliver | withhold | gone | follow | drained
  | timeout => exact h

structure Current (w : World) : Prop where
  switch : w.phase = .loaded ∨ w.phase = .reading ∨ w.phase = .finished → w.observed = true →
    w.awake = true ∨ w.Owed
  begun : w.phase = .reading ∨ w.phase = .finished → w.Owed ∨ Fresh false w.log
  fresh : w.phase.Settled → w.worker.state.changed = false → w.Owed ∨ Fresh true w.log

lemma Current.step (hshape : Shape w) (h : Current w) (hs : Step w w') : Current w' := by
  cases hs with
  | event paths =>
    have howed : w.Owed → Owed { w with
        queue := w.queue ++ [.changed paths], log := .event paths :: w.log } :=
      Or.imp_right (fun hmem => List.mem_append_left _ hmem)
    exact ⟨fun hp ho => (h.switch hp ho).imp_right howed,
      fun hp => (h.begun hp).imp howed (fun hf => hf.cons trivial),
      fun hp hc => (h.fresh hp hc).imp howed (fun hf => hf.cons trivial)⟩
  | store awake =>
    have howed : Owed { w with
        awake, calls := awake :: w.calls, log := .stored awake :: w.log } :=
      .inl (List.cons_ne_nil _ _)
    exact ⟨fun _ _ => .inr howed, fun _ => .inl howed, fun _ _ => .inl howed⟩
  | send awake hcall =>
    have howed : Owed { w with
        calls := w.calls.erase awake
        queue := w.queue ++ [.changed []]
        log := .sent awake :: w.log } :=
      .inr (List.mem_append_right _ List.mem_cons_self)
    exact ⟨fun _ _ => .inr howed, fun _ => .inl howed, fun _ _ => .inl howed⟩
  | stop =>
    have howed : w.Owed → Owed { w with queue := w.queue ++ [.stop] } :=
      Or.imp_right (fun hmem => List.mem_append_left _ hmem)
    exact ⟨fun hp ho => (h.switch hp ho).imp_right howed, fun hp => (h.begun hp).imp_left howed,
      fun hp hc => (h.fresh hp hc).imp_left howed⟩
  | tick => exact ⟨h.switch, h.begun, h.fresh⟩
  | load installed hphase =>
    refine ⟨fun _ ho => .inl ho, by simp, fun _ hc => ?_⟩
    exact h.fresh (by simp [Phase.Settled, hphase]) (Worker.passStart_changed hc)
  | begin hphase hreads =>
    exact ⟨fun _ ho => h.switch (.inl hphase) ho,
      fun _ => .inr ⟨[], w.now, w.log, rfl, List.forall_mem_nil _, by simp⟩,
      fun hp => absurd rfl hp.1⟩
  | skip hphase =>
    exact ⟨by simp, by simp, fun _ hc => h.fresh (by simp [Phase.Settled, hphase]) hc⟩
  | finish discovered ok hphase =>
    exact ⟨fun _ ho => h.switch (.inr (.inl hphase)) ho, fun _ => h.begun (.inl hphase),
      fun hp => absurd rfl hp.2.1⟩
  | deliver hphase hawake =>
    exact ⟨by simp, by simp, fun _ _ => (h.begun (.inr hphase)).imp_right Fresh.delivered⟩
  | withhold hphase hawake =>
    refine ⟨by simp, by simp, fun _ _ => .inl ?_⟩
    refine (h.switch (.inr (.inr hphase)) (hshape.busy (.inr (.inl hphase)))).resolve_left ?_
    rw [hawake]
    exact Bool.false_ne_true
  | gone => exact ⟨by simp, by simp, fun hp => absurd rfl hp.2.2⟩
  | follow canonical installed hphase =>
    exact ⟨by simp, by simp, fun _ hc => h.fresh (by simp [Phase.Settled, hphase])
      (Worker.followGitDir_state.1 hc)⟩
  | absorb git paths queue hphase hqueue =>
    refine ⟨by simp, by simp, fun _ hc => ?_⟩
    obtain ⟨hchanged, hrefused, hpaths⟩ := Worker.absorb_refused hc
    have hsettled : w.phase.Settled := by
      rcases hphase with ⟨_, hphase⟩ | hphase <;> simp [Phase.Settled, hphase]
    refine (h.fresh hsettled hchanged).imp (Or.imp_right (fun hmem => ?_))
      (fun hf => hf.cons hrefused)
    rw [hqueue] at hmem
    rcases List.mem_cons.mp hmem with heq | hmem
    · exact absurd (Wake.changed.inj heq).symm hpaths
    · exact hmem
  | halt => exact ⟨by simp, by simp, fun hp => absurd rfl hp.2.2⟩
  | drained hphase =>
    exact ⟨by simp, by simp, fun _ hc => h.fresh (by simp [Phase.Settled, hphase]) hc⟩
  | timeout => exact ⟨by simp, by simp, fun _ hc => absurd hc.symm (by simp [Worker.lapse])⟩

structure Sound (w : World) : Prop where
  shape : Shape w
  paced : Paced w
  conserved : Conserved w
  current : Current w

lemma Reaches.sound {root : Prefix} {awake : Bool} (h : Reaches root awake w) : Sound w := by
  induction h with
  | spawned =>
    exact ⟨⟨by simp [World.spawned], rfl, fun _ => ⟨rfl, rfl⟩⟩,
      ⟨.nil, List.forall_mem_nil _, fun _ => List.forall_mem_nil _⟩, rfl,
      ⟨by simp [World.spawned], by simp [World.spawned],
        fun _ hc => absurd (show true = false from hc) (by simp)⟩⟩
  | step _ hs ih =>
    exact ⟨ih.shape.step hs, ih.paced.step hs, ih.conserved.step hs, ih.current.step ih.shape hs⟩

/-- Whenever the worker is about to block with nothing owed and no call of `set_awake` between its
halves, its last reading was delivered and nothing since owes another. Asleep it holds no watch. -/
theorem watching_loses_no_change {root : Prefix} {awake : Bool} (h : Reaches root awake w) :
    (∀ deadline, w.phase = .waiting deadline → w.queue = [] → w.calls = [] →
      w.observed = true → w.worker.state.changed = false →
        (∃ newer now older, w.log = newer ++ .began now :: older ∧ .delivered ∈ newer ∧
          ∀ e ∈ newer, e.Quiet) ∧
        w.log.filterMap Entry.queued = w.log.filterMap Entry.taken) ∧
    (w.log.filterMap Entry.begun).Pairwise
      (fun later earlier => earlier + minReadInterval ≤ later) ∧
    (w.observed = false → w.worker.state.repo = none ∧ w.worker.watch = {}) ∧
    ∀ w', Step w w' → w'.log = .delivered :: w.log → w.awake = true := by
  have hsound := h.sound
  refine ⟨fun deadline hphase hqueue hcalls hawake hchanged => ⟨?_, ?_⟩, hsound.paced.apart,
    hsound.shape.asleep, fun w' hs hlog => ?_⟩
  · rcases hsound.current.fresh (by simp [Phase.Settled, hphase]) hchanged with howed | hfresh
    · rcases howed with hcall | hwake
      · exact absurd hcalls hcall
      · rw [hqueue] at hwake
        cases hwake
    · obtain ⟨newer, now, older, hlog, hquiet, hdelivered⟩ := hfresh
      exact ⟨newer, now, older, hlog, hdelivered rfl, hquiet⟩
  · have hconserved := hsound.conserved
    rw [Conserved, hqueue] at hconserved
    exact hconserved
  · cases hs <;> simp_all

-- a checkout that keeps its git directory inside
def checkout : Prefix := { given := [['r']], canonical := [['r']] }

def repository : Repo := { commondir := [['r'], ".git".toList] }

def rules : Git := ⟨fun _ => false, fun _ => false⟩

def source : Path := [['r'], ['s']]

def looseObject : Path := [['r'], ".git".toList, "objects".toList, ['0']]

def woken : World where
  worker := {
    roots := { tree := checkout }
    watching := true
    watch := { tree := true, treeAttempted := true, gitDirSettled := true }
    state := {
      repo := some repository, readsSinceOpen := 2, changed := false, lastRead := some 1000 } }
  now := 1000
  awake := true
  observed := true
  phase := .waiting (1000 + idleReadInterval)
  log := [.absorbed [looseObject] false, .event [looseObject], .delivered, .began 1000,
    .absorbed [source] true, .event [source], .delivered, .began 0, .absorbed [] true, .sent true,
    .stored true]

lemma woken_reaches : Reaches checkout false woken := by
  have hasleep := (@Reaches.spawned checkout false).step (.load _ true rfl)
  have hwaits := hasleep.step (.skip _ rfl rfl)
  have hcalled := (hwaits.step (.store _ true)).step (.send _ true List.mem_cons_self)
  have hwoken := (hcalled.step (.absorb _ rules [] [] (.inl ⟨_, rfl⟩) rfl)).step
    (.drained _ rfl rfl)
  have hread := ((hwoken.step (.load _ true rfl)).step (.begin _ rfl (by decide))).step
    (.finish _ (some repository) true rfl)
  have hfirst := (hread.step (.deliver _ rfl rfl)).step (.follow _ [] true rfl)
  have hchanged := ((hfirst.step (.event _ [source])).step
    (.absorb _ rules [source] [] (.inl ⟨_, rfl⟩) rfl)).step (.drained _ rfl rfl)
  have hagain := (((hchanged.step (.tick _ 1000)).step (.load _ true rfl)).step
    (.begin _ rfl (by decide))).step (.finish _ none true rfl)
  have hsecond := (hagain.step (.deliver _ rfl rfl)).step (.follow _ [] true rfl)
  have hrefused := ((hsecond.step (.event _ [looseObject])).step
    (.absorb _ rules [looseObject] [] (.inl ⟨_, rfl⟩) rfl)).step (.drained _ rfl rfl)
  exact (hrefused.step (.load _ true rfl)).step (.skip _ rfl rfl)

theorem watching_loses_no_change_woken :
    (∃ newer now older, woken.log = newer ++ .began now :: older ∧ .delivered ∈ newer ∧
      ∀ e ∈ newer, e.Quiet) ∧
    woken.log.filterMap Entry.queued = woken.log.filterMap Entry.taken :=
  (watching_loses_no_change woken_reaches).1 (1000 + idleReadInterval) rfl rfl rfl rfl rfl

end World

end Nightcrow.Runtime.Snapshot
