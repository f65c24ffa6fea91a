import Nightcrow.Git.LoadWorker

/-! What the git views wait for: one intent a lane, taken by the reply of its own request. -/

namespace Nightcrow.Git

open Nightcrow.Library.RoundRobin

inductive DiffTarget where
  | status (path : String)
  | commit (oid : String)
  | commitFile (oid path : String)
  deriving DecidableEq

def DiffTarget.operation : DiffTarget → GitLoadOperation
  | .status path => .statusDiff path
  | .commit oid => .commitDiff oid
  | .commitFile oid path => .commitFileDiff oid path

inductive DiffLoadMode where
  | reset
  | keepScroll (scroll : ℕ)
  | resetWithTitle (title : String)
  deriving DecidableEq

inductive FileViewKey where
  | status (path : String)
  | commit (oid path : String) (kind : StatusKind)
  deriving DecidableEq

def FileViewKey.operation : FileViewKey → GitLoadOperation
  | .status path => .workdirFile path
  | .commit oid path kind => .commitFile oid path kind

structure DiffIntent where
  generation : ℕ
  repo : String
  target : DiffTarget
  mode : DiffLoadMode
  restoreScroll : Option ℕ
  deriving DecidableEq

structure FileIntent where
  generation : ℕ
  repo : String
  key : FileViewKey
  anchor : Option ℕ
  deriving DecidableEq

structure CommitFilesIntent where
  generation : ℕ
  repo : String
  oid : String
  title : String
  deriving DecidableEq

structure DecorationsIntent where
  generation : ℕ
  repo : String
  fingerprint : ℕ
  deriving DecidableEq

structure LoadController where
  nextGeneration : ℕ := 0
  diff : Option DiffIntent := none
  file : Option FileIntent := none
  commitFiles : Option CommitFilesIntent := none
  decorations : Option DecorationsIntent := none
  deriving DecidableEq

def GitLoadRequest.answers (r : GitLoadRequest) (generation : ℕ) (repo : String) : Bool :=
  generation = r.generation && repo = r.repo

namespace LoadController

variable (c : LoadController) (repo : String)

def generation : ℕ := (c.nextGeneration + 1) % 2 ^ 64

def requestDiff (target : DiffTarget) (mode : DiffLoadMode) : LoadController × GitLoadRequest :=
  let restoreScroll := (c.diff.filter (fun intent => intent.repo = repo && intent.target = target))
    |>.bind (·.restoreScroll)
  ({ c with
      nextGeneration := c.generation
      diff := some { generation := c.generation, repo, target, mode, restoreScroll } },
    { repo, generation := c.generation, operation := target.operation })

def requestFile (key : FileViewKey) (anchor : Option ℕ) : LoadController × GitLoadRequest :=
  ({ c with
      nextGeneration := c.generation
      file := some { generation := c.generation, repo, key, anchor } },
    { repo, generation := c.generation, operation := key.operation })

def requestCommitFiles (oid title : String) : LoadController × GitLoadRequest :=
  ({ c with
      nextGeneration := c.generation
      commitFiles := some { generation := c.generation, repo, oid, title } },
    { repo, generation := c.generation, operation := .commitFiles oid })

def requestDecorations (fingerprint : ℕ) : LoadController × GitLoadRequest :=
  ({ c with
      nextGeneration := c.generation
      decorations := some { generation := c.generation, repo, fingerprint } },
    { repo, generation := c.generation, operation := .decorations })

def restoreDiffScroll (scroll : ℕ) : LoadController :=
  { c with diff := c.diff.map (fun intent => { intent with restoreScroll := some scroll }) }

def cancelDiff : LoadController := { c with nextGeneration := c.generation, diff := none }

def cancelFile : LoadController := { c with nextGeneration := c.generation, file := none }

def cancelCommitFiles : LoadController :=
  { c with nextGeneration := c.generation, commitFiles := none }

def applyGitLoad (reply : GitLoadRequest) : LoadController :=
  if reply.repo ≠ repo then c
  else match reply.operation.lane with
    | .diff => { c with diff := c.diff.filter (fun i => !reply.answers i.generation i.repo) }
    | .file => { c with file := c.file.filter (fun i => !reply.answers i.generation i.repo) }
    | .commitFiles => { c with
        commitFiles := c.commitFiles.filter (fun i => !reply.answers i.generation i.repo) }
    | .decorations => { c with
        decorations := c.decorations.filter (fun i => !reply.answers i.generation i.repo) }

def wanted : Fin 4 → Option GitLoadRequest
  | 0 => c.diff.map (fun i => ⟨i.repo, i.generation, i.target.operation⟩)
  | 1 => c.file.map (fun i => ⟨i.repo, i.generation, i.key.operation⟩)
  | 2 => c.commitFiles.map (fun i => ⟨i.repo, i.generation, .commitFiles i.oid⟩)
  | 3 => c.decorations.map (fun i => ⟨i.repo, i.generation, .decorations⟩)

end LoadController

lemma DiffTarget.operation_lane (target : DiffTarget) : target.operation.lane = .diff := by
  cases target <;> rfl

lemma FileViewKey.operation_lane (key : FileViewKey) : key.operation.lane = .file := by
  cases key <;> rfl

structure Asks (c : LoadController) (repo : String) (asked : LoadController × GitLoadRequest) :
    Prop where
  counted : asked.1.nextGeneration = c.generation
  stamped : asked.2.generation = c.generation
  here : asked.2.repo = repo
  stored : asked.1.wanted = Function.update c.wanted asked.2.index (some asked.2)

namespace LoadController

variable {c : LoadController} {repo : String}

lemma wanted_update {c' : LoadController} {lane : LoadLane} {r : Option GitLoadRequest}
    (hlane : c'.wanted lane.index = r)
    (hother : ∀ i, i ≠ lane.index → c'.wanted i = c.wanted i) :
    c'.wanted = Function.update c.wanted lane.index r := by
  funext i
  by_cases hi : i = lane.index
  · rw [hi, hlane, Function.update_self]
  · rw [hother i hi, Function.update_of_ne hi]

lemma requestDiff_asks (target : DiffTarget) (mode : DiffLoadMode) :
    Asks c repo (c.requestDiff repo target mode) where
  counted := rfl
  stamped := rfl
  here := rfl
  stored := by
    have hindex : (c.requestDiff repo target mode).2.index = LoadLane.index .diff :=
      congrArg LoadLane.index target.operation_lane
    rw [hindex]
    refine wanted_update rfl (fun i hi => ?_)
    fin_cases i
    · exact absurd rfl hi
    all_goals rfl

lemma requestFile_asks (key : FileViewKey) (anchor : Option ℕ) :
    Asks c repo (c.requestFile repo key anchor) where
  counted := rfl
  stamped := rfl
  here := rfl
  stored := by
    have hindex : (c.requestFile repo key anchor).2.index = LoadLane.index .file :=
      congrArg LoadLane.index key.operation_lane
    rw [hindex]
    refine wanted_update rfl (fun i hi => ?_)
    fin_cases i
    · rfl
    · exact absurd rfl hi
    all_goals rfl

lemma requestCommitFiles_asks (oid title : String) :
    Asks c repo (c.requestCommitFiles repo oid title) where
  counted := rfl
  stamped := rfl
  here := rfl
  stored := by
    apply @wanted_update _ _ .commitFiles _ rfl
    intro i hi
    fin_cases i
    · rfl
    · rfl
    · exact absurd rfl hi
    · rfl

lemma requestDecorations_asks (fingerprint : ℕ) :
    Asks c repo (c.requestDecorations repo fingerprint) where
  counted := rfl
  stamped := rfl
  here := rfl
  stored := by
    apply @wanted_update _ _ .decorations _ rfl
    intro i hi
    fin_cases i
    · rfl
    · rfl
    · rfl
    · exact absurd rfl hi

lemma restoreDiffScroll_wanted (scroll : ℕ) : (c.restoreDiffScroll scroll).wanted = c.wanted := by
  funext i
  fin_cases i
  · exact Option.map_map ..
  all_goals rfl

lemma cancelDiff_wanted :
    c.cancelDiff.wanted = Function.update c.wanted (LoadLane.index .diff) none := by
  refine wanted_update rfl (fun i hi => ?_)
  fin_cases i
  · exact absurd rfl hi
  all_goals rfl

lemma cancelFile_wanted :
    c.cancelFile.wanted = Function.update c.wanted (LoadLane.index .file) none := by
  refine wanted_update rfl (fun i hi => ?_)
  fin_cases i
  · rfl
  · exact absurd rfl hi
  all_goals rfl

lemma cancelCommitFiles_wanted :
    c.cancelCommitFiles.wanted = Function.update c.wanted (LoadLane.index .commitFiles) none := by
  refine wanted_update rfl (fun i hi => ?_)
  fin_cases i
  · rfl
  · rfl
  · exact absurd rfl hi
  · rfl

lemma applyGitLoad_nextGeneration (reply : GitLoadRequest) :
    (c.applyGitLoad repo reply).nextGeneration = c.nextGeneration := by
  rw [applyGitLoad]
  split
  · rfl
  · cases reply.operation.lane <;> rfl

lemma applyGitLoad_wanted (reply : GitLoadRequest) :
    (c.applyGitLoad repo reply).wanted =
      if reply.repo ≠ repo then c.wanted
      else Function.update c.wanted reply.index
        ((c.wanted reply.index).filter (fun q => !reply.answers q.generation q.repo)) := by
  rw [applyGitLoad]
  split
  · rfl
  · cases hlane : reply.operation.lane
    all_goals
      rw [show reply.index = LoadLane.index _ from congrArg LoadLane.index hlane]
      refine wanted_update ?_ (fun i hi => ?_)
      · simp only [wanted, LoadLane.index, Option.filter_map]
        rfl
      · fin_cases i
        all_goals first | rfl | exact absurd rfl hi

lemma of_applyGitLoad {reply q : GitLoadRequest} {i : Fin 4}
    (h : (c.applyGitLoad repo reply).wanted i = some q) :
    c.wanted i = some q ∧ (reply.repo = repo → q.repo = repo → reply.index = i →
      reply.generation ≠ q.generation) := by
  rw [applyGitLoad_wanted] at h
  split at h
  · rename_i hrepo
    exact ⟨h, fun heq => absurd heq hrepo⟩
  · by_cases hi : i = reply.index
    · subst hi
      rw [Function.update_self, Option.filter_eq_some_iff] at h
      refine ⟨h.1, fun hr hq _ hgen => ?_⟩
      have hanswers := h.2
      simp [GitLoadRequest.answers, hr, hq, hgen] at hanswers
    · rw [Function.update_of_ne hi] at h
      exact ⟨h, fun _ _ heq => absurd heq.symm hi⟩

lemma takes_of_applyGitLoad {reply : GitLoadRequest} {i : Fin 4}
    (h : (c.applyGitLoad repo reply).wanted i ≠ c.wanted i) :
    ∃ q, c.wanted i = some q ∧ q.generation = reply.generation := by
  rw [applyGitLoad_wanted] at h
  split at h
  · exact absurd rfl h
  · by_cases hi : i = reply.index
    · subst hi
      rw [Function.update_self] at h
      cases hq : c.wanted reply.index with
      | none => simp [hq] at h
      | some q =>
        refine ⟨q, rfl, ?_⟩
        by_contra hgen
        apply h
        rw [hq]
        simp [GitLoadRequest.answers, hgen]
    · rw [Function.update_of_ne hi] at h
      exact absurd rfl h

end LoadController

structure LoadSystem (R : Type*) where
  repo : String
  controller : LoadController := {}
  worker : LoadWorld R := {}
  received : ℕ := 0

namespace LoadSystem

variable {R : Type*} {s s' : LoadSystem R}

def ask (s : LoadSystem R) (asked : LoadController × GitLoadRequest) : LoadSystem R :=
  { s with controller := asked.1, worker := s.worker.submit asked.2 }

def withdraw (s : LoadSystem R) (controller : LoadController) (lane : LoadLane) : LoadSystem R :=
  { s with controller, worker := s.worker.cancel lane controller.nextGeneration }

inductive Serves : LoadSystem R → LoadSystem R → Prop
  | work (s : LoadSystem R) {worker : LoadWorld R} (h : LoadWorld.Works s.worker worker) :
      Serves s { s with worker }
  | receive (s : LoadSystem R) (reply : GitLoadRequest) (result : R)
      (h : s.worker.replies[s.received]? = some (reply, result)) :
      Serves s { s with
        controller := s.controller.applyGitLoad s.repo reply, received := s.received + 1 }

inductive Step : LoadSystem R → LoadSystem R → Prop
  | requestDiff (s : LoadSystem R) (target : DiffTarget) (mode : DiffLoadMode) :
      Step s (s.ask (s.controller.requestDiff s.repo target mode))
  | requestFile (s : LoadSystem R) (key : FileViewKey) (anchor : Option ℕ) :
      Step s (s.ask (s.controller.requestFile s.repo key anchor))
  | requestCommitFiles (s : LoadSystem R) (oid title : String) :
      Step s (s.ask (s.controller.requestCommitFiles s.repo oid title))
  | requestDecorations (s : LoadSystem R) (fingerprint : ℕ) :
      Step s (s.ask (s.controller.requestDecorations s.repo fingerprint))
  | restoreDiffScroll (s : LoadSystem R) (scroll : ℕ) :
      Step s { s with controller := s.controller.restoreDiffScroll scroll }
  | cancelDiff (s : LoadSystem R) : Step s (s.withdraw s.controller.cancelDiff .diff)
  | cancelFile (s : LoadSystem R) : Step s (s.withdraw s.controller.cancelFile .file)
  | cancelCommitFiles (s : LoadSystem R) :
      Step s (s.withdraw s.controller.cancelCommitFiles .commitFiles)
  | serve {s s' : LoadSystem R} (h : Serves s s') : Step s s'

inductive Reaches (repo : String) : LoadSystem R → Prop
  | opened : Reaches repo { repo }
  | step {s s' : LoadSystem R} : Reaches repo s → Step s s' → Reaches repo s'

end LoadSystem

def LoadEntry.isAsk : LoadEntry → Bool
  | .submitted _ => true
  | .cancelled _ => true
  | _ => false

def asked (log : List LoadEntry) : ℕ := log.countP LoadEntry.isAsk

lemma asked_cons_of_ask {e : LoadEntry} (he : e.isAsk = true) (log : List LoadEntry) :
    asked (e :: log) = asked log + 1 := List.countP_cons_of_pos he

def Made (log : List LoadEntry) : Prop :=
  ∀ r, .taken r ∈ log ∨ .replied r ∈ log → .submitted r ∈ log

lemma Made.cons_ask {log : List LoadEntry} {e : LoadEntry} (h : Made log) (he : e.isAsk = true) :
    Made (e :: log) := by
  intro r hr
  apply List.mem_cons_of_mem
  apply h r
  refine hr.imp (fun htaken => ?_) (fun hreplied => ?_)
  · rcases List.mem_cons.mp htaken with rfl | hmem
    · cases he
    · exact hmem
  · rcases List.mem_cons.mp hreplied with rfl | hmem
    · cases he
    · exact hmem

lemma mem_of_lastTaken {log : List LoadEntry} {r : GitLoadRequest} (h : lastTaken log = some r) :
    .taken r ∈ log := by
  obtain ⟨e, he, hr⟩ := List.mem_filterMap.mp (List.mem_of_mem_head? h)
  cases e with
  | taken q =>
    obtain rfl := Option.some.inj hr
    exact he
  | _ => cases hr

namespace LoadWorld

variable {R : Type*} {w w' : LoadWorld R} {r : GitLoadRequest}

lemma Standing.mem {log newer older : List LoadEntry} (h : Standing log newer older r) :
    .submitted r ∈ log := by
  rw [h.1]
  exact List.mem_append_right _ List.mem_cons_self

lemma Standing.push {log newer older : List LoadEntry} {e : LoadEntry}
    (h : Standing log newer older r) (he : ¬ e.Sets r.index) :
    Standing (e :: log) (e :: newer) older r :=
  ⟨by rw [h.1]; rfl, List.forall_mem_cons.mpr ⟨he, h.2⟩⟩

lemma Works.effect (h : Works w w') :
    (∃ more, w'.replies = w.replies ++ more) ∧ w'.pending.stopped = w.pending.stopped ∧
      (w'.log = w.log ∨ ∃ e, w'.log = e :: w.log ∧ e.isAsk = false ∧ ∀ i, ¬ e.Sets i) := by
  cases h with
  | take r pending _ _ htake =>
    obtain ⟨⟨_, lanes⟩, -, heq⟩ := Option.map_eq_some_iff.mp htake
    obtain ⟨-, rfl⟩ := Prod.mk.inj heq
    exact ⟨⟨[], (List.append_nil _).symm⟩, rfl, .inr ⟨_, rfl, rfl, fun _ => id⟩⟩
  | drop => exact ⟨⟨[], (List.append_nil _).symm⟩, rfl, .inl rfl⟩
  | enter => exact ⟨⟨[], (List.append_nil _).symm⟩, rfl, .inr ⟨_, rfl, rfl, fun _ => id⟩⟩
  | reply => exact ⟨⟨_, rfl⟩, rfl, .inr ⟨_, rfl, rfl, fun _ => id⟩⟩
  | leave => exact ⟨⟨[], (List.append_nil _).symm⟩, rfl, .inl rfl⟩

lemma Works.alive (h : Works w w') (hrun : w.pending.stopped = false) :
    w'.phase ≠ .ended := by
  cases h with
  | leave _ hstop => exact absurd (hrun.symm.trans hstop) Bool.false_ne_true
  | _ => exact LoadPhase.noConfusion

lemma made_of_works (h : Made w.log) (hs : w.Sound) (hw : Works w w') : Made w'.log := by
  cases hw with
  | take r pending _ _ htake =>
    intro q hq
    apply List.mem_cons_of_mem
    obtain ⟨⟨_, lanes⟩, hlanes, heq⟩ := Option.map_eq_some_iff.mp htake
    obtain ⟨rfl, -⟩ := Prod.mk.inj heq
    obtain ⟨i, hi, -⟩ := Lanes.takeNext_spec hlanes
    obtain ⟨-, newer, older, hstanding, -⟩ := hs.held i _ hi
    simp only [List.mem_cons, LoadEntry.taken.injEq, reduceCtorEq, false_or] at hq
    rcases hq with (rfl | hq) | hq
    · exact hstanding.mem
    · exact h q (.inl hq)
    · exact h q (.inr hq)
  | drop => exact h
  | enter r =>
    intro q hq
    apply List.mem_cons_of_mem
    apply h q
    simpa using hq
  | reply r result hphase =>
    intro q hq
    apply List.mem_cons_of_mem
    simp only [List.mem_cons, LoadEntry.replied.injEq, reduceCtorEq, false_or] at hq
    rcases hq with hq | rfl | hq
    · exact h q (.inl hq)
    · exact h q (.inl (mem_of_lastTaken (hs.current q (.inr hphase))))
    · exact h q (.inr hq)
  | leave => exact h

end LoadWorld

namespace LoadSystem

variable {R : Type*} {s s' : LoadSystem R} {repo : String}

structure Sound (s : LoadSystem R) : Prop where
  worker : s.worker.Sound
  running : s.worker.pending.stopped = false
  alive : s.worker.phase ≠ .ended
  counted : s.controller.nextGeneration = asked s.worker.log
  submitted : ∀ r, .submitted r ∈ s.worker.log →
    r.repo = s.repo ∧ r.generation ≤ asked s.worker.log
  distinct : ∀ r r', .submitted r ∈ s.worker.log → .submitted r' ∈ s.worker.log →
    r.generation = r'.generation → r = r'
  made : Made s.worker.log
  read : s.received ≤ s.worker.replies.length
  unanswered : ∀ i r, s.controller.wanted i = some r → r.index = i ∧
    (∃ newer older, LoadWorld.Standing s.worker.log newer older r) ∧
    ∀ a ∈ s.worker.replies.take s.received, a.1 ≠ r

lemma sound_opened : Sound ({ repo } : LoadSystem R) where
  worker := LoadWorld.sound_spawned
  running := rfl
  alive := LoadPhase.noConfusion
  counted := rfl
  submitted _ h := absurd h List.not_mem_nil
  distinct _ _ h := absurd h List.not_mem_nil
  made _ h := by simp at h
  read := le_rfl
  unanswered i _ h := by fin_cases i <;> cases h

lemma Sound.submitted_of_reply (h : s.Sound) {a : GitLoadRequest × R}
    (ha : a ∈ s.worker.replies) : .submitted a.1 ∈ s.worker.log := by
  have hmem : a.1 ∈ s.worker.log.filterMap (·.repliedRequest) := by
    rw [h.worker.replied, List.mem_reverse]
    exact List.mem_map_of_mem ha
  obtain ⟨e, he, hr⟩ := List.mem_filterMap.mp hmem
  cases e with
  | replied q =>
    obtain rfl := Option.some.inj hr
    exact h.made _ (.inr he)
  | _ => cases hr

lemma Sound.next (h : s.Sound) (hbound : asked s.worker.log + 1 < 2 ^ 64) :
    s.controller.generation = asked s.worker.log + 1 := by
  rw [LoadController.generation, h.counted]
  exact Nat.mod_eq_of_lt hbound

lemma ask_sound (h : s.Sound) {a : LoadController × GitLoadRequest}
    (ha : Asks s.controller s.repo a) (hbound : asked s.worker.log + 1 < 2 ^ 64) :
    (s.ask a).Sound := by
  have hworker := h.worker.step (.submit s.worker a.2)
  have hnext := h.next hbound
  have hfresh : ∀ r, .submitted r ∈ s.worker.log → r.generation ≠ a.2.generation := by
    intro r hr heq
    have hle := (h.submitted r hr).2
    rw [heq, ha.stamped, hnext] at hle
    omega
  have hasked := asked_cons_of_ask (e := .submitted a.2) rfl s.worker.log
  rw [LoadWorld.submit_of_running h.running] at hworker
  rw [ask, LoadWorld.submit_of_running h.running]
  refine ⟨hworker, h.running, h.alive, ?_, fun r hr => ?_, fun r r' hr hr' hgen => ?_,
    h.made.cons_ask rfl, h.read, fun i r hi => ?_⟩
  · rw [ha.counted, hnext, hasked]
  · rw [hasked]
    rcases List.mem_cons.mp hr with heq | hmem
    · obtain rfl := LoadEntry.submitted.inj heq
      exact ⟨ha.here, (ha.stamped.trans hnext).le⟩
    · have hr := h.submitted r hmem
      exact ⟨hr.1, hr.2.trans (Nat.le_succ _)⟩
  · rcases List.mem_cons.mp hr with heq | hmem
    · rcases List.mem_cons.mp hr' with heq' | hmem'
      · exact (LoadEntry.submitted.inj heq).trans (LoadEntry.submitted.inj heq').symm
      · obtain rfl := LoadEntry.submitted.inj heq
        exact absurd hgen.symm (hfresh r' hmem')
    · rcases List.mem_cons.mp hr' with heq' | hmem'
      · obtain rfl := LoadEntry.submitted.inj heq'
        exact absurd hgen (hfresh r hmem)
      · exact h.distinct r r' hmem hmem' hgen
  · dsimp only at hi
    rw [ha.stored] at hi
    by_cases heq : i = a.2.index
    · subst heq
      rw [Function.update_self] at hi
      obtain rfl := Option.some.inj hi
      refine ⟨rfl, ⟨[], _, rfl, List.forall_mem_nil _⟩, fun b hb heq => ?_⟩
      have hmem := h.submitted_of_reply (List.mem_of_mem_take hb)
      rw [heq] at hmem
      exact hfresh _ hmem rfl
    · rw [Function.update_of_ne heq] at hi
      obtain ⟨rfl, ⟨newer, older, hstanding⟩, hunread⟩ := h.unanswered i r hi
      exact ⟨rfl, ⟨_, _, hstanding.push (fun hsets => heq hsets.symm)⟩, hunread⟩

lemma withdraw_sound (h : s.Sound) {c : LoadController} {lane : LoadLane}
    (hcount : c.nextGeneration = s.controller.generation)
    (hwanted : c.wanted = Function.update s.controller.wanted lane.index none)
    (hbound : asked s.worker.log + 1 < 2 ^ 64) : (s.withdraw c lane).Sound := by
  have hasked := asked_cons_of_ask (e := .cancelled lane) rfl s.worker.log
  have hmem : ∀ r, .submitted r ∈ LoadEntry.cancelled lane :: s.worker.log →
      .submitted r ∈ s.worker.log := by
    intro r hr
    rcases List.mem_cons.mp hr with heq | hmem
    · cases heq
    · exact hmem
  refine ⟨h.worker.step (.cancel _ _ _), h.running, h.alive, ?_, fun r hr => ?_,
    fun r r' hr hr' => h.distinct r r' (hmem r hr) (hmem r' hr'), h.made.cons_ask rfl, h.read,
    fun i r hi => ?_⟩
  · exact hcount.trans ((h.next hbound).trans hasked.symm)
  · have hr := h.submitted r (hmem r hr)
    exact ⟨hr.1, hr.2.trans (hasked ▸ Nat.le_succ _)⟩
  · change c.wanted i = some r at hi
    rw [hwanted] at hi
    by_cases heq : i = lane.index
    · rw [heq, Function.update_self] at hi
      cases hi
    · rw [Function.update_of_ne heq] at hi
      obtain ⟨rfl, ⟨newer, older, hstanding⟩, hunread⟩ := h.unanswered i r hi
      exact ⟨rfl, ⟨_, _, hstanding.push (fun hsets => heq hsets.symm)⟩, hunread⟩

lemma work_sound (h : s.Sound) {worker : LoadWorld R} (hw : LoadWorld.Works s.worker worker) :
    Sound { s with worker } := by
  obtain ⟨⟨more, hreplies⟩, hstopped, hlog⟩ := hw.effect
  have hasked : asked worker.log = asked s.worker.log := by
    rcases hlog with hlog | ⟨e, hlog, he, -⟩
    · rw [hlog]
    · rw [hlog]
      exact List.countP_cons_of_neg (by rw [he]; exact Bool.false_ne_true)
  have hmem : ∀ r, .submitted r ∈ worker.log → .submitted r ∈ s.worker.log := by
    intro r hr
    rcases hlog with hlog | ⟨e, hlog, he, -⟩
    · rwa [hlog] at hr
    · rw [hlog] at hr
      rcases List.mem_cons.mp hr with rfl | hr
      · cases he
      · exact hr
  have hstanding : ∀ newer older r, LoadWorld.Standing s.worker.log newer older r →
      ∃ newer, LoadWorld.Standing worker.log newer older r := by
    intro newer older r hr
    rcases hlog with hlog | ⟨e, hlog, -, he⟩
    · exact ⟨newer, hlog ▸ hr⟩
    · exact ⟨e :: newer, hlog ▸ hr.push (he _)⟩
  refine ⟨h.worker.step (.work hw), hstopped.trans h.running, hw.alive h.running,
    h.counted.trans hasked.symm, fun r hr => ?_,
    fun r r' hr hr' => h.distinct r r' (hmem r hr) (hmem r' hr'),
    LoadWorld.made_of_works h.made h.worker hw, ?_, fun i r hi => ?_⟩
  · exact hasked ▸ h.submitted r (hmem r hr)
  · dsimp only
    rw [hreplies, List.length_append]
    exact h.read.trans (Nat.le_add_right _ _)
  · obtain ⟨hindex, ⟨newer, older, hr⟩, hunread⟩ := h.unanswered i r hi
    obtain ⟨newer, hr⟩ := hstanding newer older r hr
    refine ⟨hindex, ⟨newer, older, hr⟩, ?_⟩
    dsimp only
    rwa [hreplies, List.take_append_of_le_length h.read]

lemma receive_sound (h : s.Sound) {reply : GitLoadRequest} {result : R}
    (hreply : s.worker.replies[s.received]? = some (reply, result)) :
    Sound { s with
      controller := s.controller.applyGitLoad s.repo reply, received := s.received + 1 } := by
  obtain ⟨hlt, hget⟩ := List.getElem?_eq_some_iff.mp hreply
  refine ⟨h.worker, h.running, h.alive, ?_, h.submitted, h.distinct, h.made, hlt, fun i r hi => ?_⟩
  · exact (LoadController.applyGitLoad_nextGeneration reply).trans h.counted
  · obtain ⟨hi, hother⟩ := LoadController.of_applyGitLoad hi
    obtain ⟨rfl, ⟨newer, older, hstanding⟩, hunread⟩ := h.unanswered i r hi
    refine ⟨rfl, ⟨newer, older, hstanding⟩, fun a ha => ?_⟩
    rw [List.take_add_one, hreply, List.mem_append] at ha
    rcases ha with ha | ha
    · exact hunread a ha
    · obtain rfl := List.mem_singleton.mp ha
      rintro rfl
      have hrepo := (h.submitted _ hstanding.mem).1
      exact hother hrepo hrepo rfl rfl

lemma Serves.sound (h : s.Sound) (hs : Serves s s') : s'.Sound := by
  cases hs with
  | work hw => exact work_sound h hw
  | receive reply result hreply => exact receive_sound h hreply

lemma asked_ask (hrun : s.worker.pending.stopped = false) (a : LoadController × GitLoadRequest) :
    asked (s.ask a).worker.log = asked s.worker.log + 1 := by
  rw [ask, LoadWorld.submit_of_running hrun]
  exact asked_cons_of_ask rfl _

lemma asked_withdraw (c : LoadController) (lane : LoadLane) :
    asked (s.withdraw c lane).worker.log = asked s.worker.log + 1 :=
  asked_cons_of_ask rfl _

lemma Serves.asked_eq (h : Serves s s') : asked s'.worker.log = asked s.worker.log := by
  cases h with
  | work hw =>
    obtain ⟨-, -, hlog | ⟨e, hlog, he, -⟩⟩ := hw.effect
    · exact congrArg asked hlog
    · dsimp only
      rw [hlog]
      exact List.countP_cons_of_neg (by rw [he]; exact Bool.false_ne_true)
  | receive => rfl

lemma Step.running (hrun : s.worker.pending.stopped = false) (h : Step s s') :
    s'.worker.pending.stopped = false := by
  cases h with
  | serve hs =>
    cases hs with
    | work hw => exact hw.effect.2.1.trans hrun
    | receive => exact hrun
  | restoreDiffScroll | cancelDiff | cancelFile | cancelCommitFiles => exact hrun
  | _ =>
    rw [ask, LoadWorld.submit_of_running hrun]
    exact hrun

lemma Reaches.running (h : Reaches repo s) : s.worker.pending.stopped = false := by
  induction h with
  | opened => rfl
  | step _ hs ih => exact hs.running ih

lemma Step.asked_le (hrun : s.worker.pending.stopped = false) (h : Step s s') :
    asked s.worker.log ≤ asked s'.worker.log := by
  cases h with
  | serve hs => exact hs.asked_eq.ge
  | restoreDiffScroll => exact le_rfl
  | cancelDiff | cancelFile | cancelCommitFiles => exact (asked_withdraw _ _) ▸ Nat.le_succ _
  | _ => exact (asked_ask hrun _) ▸ Nat.le_succ _

lemma Step.sound (h : s.Sound) (hs : Step s s') (hbound : asked s'.worker.log < 2 ^ 64) :
    s'.Sound := by
  cases hs with
  | requestDiff target mode =>
    rw [asked_ask h.running] at hbound
    exact ask_sound h (LoadController.requestDiff_asks target mode) hbound
  | requestFile key anchor =>
    rw [asked_ask h.running] at hbound
    exact ask_sound h (LoadController.requestFile_asks key anchor) hbound
  | requestCommitFiles oid title =>
    rw [asked_ask h.running] at hbound
    exact ask_sound h (LoadController.requestCommitFiles_asks oid title) hbound
  | requestDecorations fingerprint =>
    rw [asked_ask h.running] at hbound
    exact ask_sound h (LoadController.requestDecorations_asks fingerprint) hbound
  | restoreDiffScroll scroll =>
    refine ⟨h.worker, h.running, h.alive, h.counted, h.submitted, h.distinct, h.made, h.read,
      fun i r hi => ?_⟩
    rw [LoadController.restoreDiffScroll_wanted] at hi
    exact h.unanswered i r hi
  | cancelDiff =>
    rw [asked_withdraw] at hbound
    exact withdraw_sound h rfl LoadController.cancelDiff_wanted hbound
  | cancelFile =>
    rw [asked_withdraw] at hbound
    exact withdraw_sound h rfl LoadController.cancelFile_wanted hbound
  | cancelCommitFiles =>
    rw [asked_withdraw] at hbound
    exact withdraw_sound h rfl LoadController.cancelCommitFiles_wanted hbound
  | serve hs => exact hs.sound h

lemma Reaches.sound (h : Reaches repo s) (hbound : asked s.worker.log < 2 ^ 64) : s.Sound := by
  induction h with
  | opened => exact sound_opened
  | step hreach hs ih => exact hs.sound (ih ((hs.asked_le hreach.running).trans_lt hbound)) hbound

/-- What is left to do: a bound on the steps that go on without a further request. -/
def rest (s : LoadSystem R) : ℕ :=
  4 * (Finset.univ.filter (fun i => (s.worker.pending.lanes.slots i).isSome)).card +
    (match s.worker.phase with
      | .ended => 0
      | .idle => 1
      | .admitted _ => 3
      | .taken _ => 4) +
    (s.worker.replies.length - s.received)

lemma card_takeNext {l l' : Lanes 4 GitLoadRequest} {r : GitLoadRequest}
    (h : l.takeNext = some (r, l')) :
    (Finset.univ.filter (fun i => (l'.slots i).isSome)).card + 1 =
      (Finset.univ.filter (fun i => (l.slots i).isSome)).card := by
  obtain ⟨i, hi, rfl, -⟩ := Lanes.takeNext_spec h
  have hmem : i ∈ Finset.univ.filter (fun i => (l.slots i).isSome) := by simp [hi]
  rw [← Finset.card_erase_add_one hmem]
  congr 2
  ext j
  by_cases hj : j = i
  · simp [hj]
  · simp [hj, Function.update_of_ne]

lemma Serves.rest_lt (hread : s.received ≤ s.worker.replies.length) (h : Serves s s') :
    s'.rest < s.rest := by
  cases h with
  | work hw =>
    cases hw with
    | take r pending hidle _ htake =>
      obtain ⟨⟨_, lanes⟩, hlanes, heq⟩ := Option.map_eq_some_iff.mp htake
      obtain ⟨rfl, rfl⟩ := Prod.mk.inj heq
      have hcard := card_takeNext hlanes
      simp only [rest, hidle]
      omega
    | drop r hphase =>
      simp only [rest, hphase]
      omega
    | enter r hphase =>
      simp only [rest, hphase]
      omega
    | reply r result hphase =>
      simp only [rest, hphase, List.length_append, List.length_singleton]
      omega
    | leave hphase =>
      rcases hphase with hphase | ⟨r, hphase⟩
      · simp only [rest, hphase]
        omega
      · simp only [rest, hphase]
        omega
  | receive reply result hreply =>
    obtain ⟨hlt, -⟩ := List.getElem?_eq_some_iff.mp hreply
    simp only [rest]
    omega

lemma Sound.quiet [Nonempty R] (h : s.Sound) (hquiet : ∀ s', ¬ Serves s s') :
    (∀ i, s.worker.pending.lanes.slots i = none) ∧
      (∀ r, s.worker.phase ≠ .taken r ∧ s.worker.phase ≠ .admitted r) ∧
      s.worker.replies.take s.received = s.worker.replies := by
  have hphase : ∀ r, s.worker.phase ≠ .taken r ∧ s.worker.phase ≠ .admitted r := by
    refine fun r => ⟨fun htaken => ?_, fun hadmitted => ?_⟩
    · cases hlatest : s.worker.pending.isLatest r
      · exact hquiet _ (.work s (.drop s.worker r htaken hlatest))
      · exact hquiet _ (.work s (.enter s.worker r htaken hlatest))
    · obtain ⟨result⟩ := ‹Nonempty R›
      exact hquiet _ (.work s (.reply s.worker r result hadmitted))
  refine ⟨?_, hphase, ?_⟩
  · have hidle : s.worker.phase = .idle := by
      cases hp : s.worker.phase with
      | idle => rfl
      | taken r => exact absurd hp (hphase r).1
      | admitted r => exact absurd hp (hphase r).2
      | ended => exact absurd hp h.alive
    cases hnext : s.worker.pending.lanes.takeNext with
    | none => exact Lanes.takeNext_eq_none hnext
    | some next =>
      have htake : s.worker.pending.takeNext =
          some (next.1, { s.worker.pending with lanes := next.2 }) := by
        rw [Pending.takeNext, hnext]
        rfl
      exact absurd (.work s (.take s.worker _ _ hidle h.running htake)) (hquiet _)
  · apply List.take_of_length_le
    by_contra hlt
    have hlt := not_le.mp hlt
    exact hquiet _ (.receive s _ _ (List.getElem?_eq_getElem hlt))

/-- Every intent of the views is answered, by the load it was made for: a reply takes no other
lane's intent and no later one's, and when nothing more goes on by itself, after a bounded
number of steps, no intent waits. -/
theorem every_intent_is_answered [Nonempty R] (h : Reaches repo s)
    (hbound : asked s.worker.log < 2 ^ 64) :
    (∀ reply result i, s.worker.replies[s.received]? = some (reply, result) →
      (s.controller.applyGitLoad s.repo reply).wanted i ≠ s.controller.wanted i →
      s.controller.wanted i = some reply) ∧
    ((∀ s', ¬ Serves s s') → ∀ i, s.controller.wanted i = none) ∧
    ∀ s', Serves s s' → s'.rest < s.rest := by
  have hsound := h.sound hbound
  refine ⟨fun reply result i hreply hne => ?_, fun hquiet i => ?_,
    fun s' hs => hs.rest_lt hsound.read⟩
  · obtain ⟨q, hq, hgen⟩ := LoadController.takes_of_applyGitLoad hne
    obtain ⟨-, ⟨newer, older, hstanding⟩, -⟩ := hsound.unanswered i q hq
    have hmem := hsound.submitted_of_reply (List.mem_of_getElem? hreply)
    rw [hq, hsound.distinct q reply hstanding.mem hmem hgen]
  · obtain ⟨hempty, hphase, hread⟩ := hsound.quiet hquiet
    cases hi : s.controller.wanted i with
    | none => rfl
    | some r =>
      obtain ⟨-, ⟨newer, older, hstanding⟩, hunread⟩ := hsound.unanswered i r hi
      exfalso
      rcases (hsound.worker.standing newer older r hstanding hsound.running).2 with hw | hserved
      · have hheld := hw.held
        rw [hempty] at hheld
        cases hheld
      · rcases hserved.worked with htaken | hadmitted | hreplied
        · exact (hphase r).1 htaken
        · exact (hphase r).2 hadmitted
        · have hmem : r ∈ s.worker.log.filterMap (·.repliedRequest) := by
            refine List.mem_filterMap.mpr ⟨.replied r, ?_, rfl⟩
            rw [hstanding.1]
            exact List.mem_append_left _ hreplied
          rw [hsound.worker.replied, List.mem_reverse] at hmem
          obtain ⟨a, ha, heq⟩ := List.mem_map.mp hmem
          rw [← hread] at ha
          exact hunread a ha heq

theorem every_intent_is_answered_replaced : ∃ s t : LoadSystem Unit,
    Reaches "r" s ∧ s.worker.replies.map Prod.fst =
      [⟨"r", 2, .statusDiff "b"⟩, ⟨"r", 3, .workdirFile "c"⟩] ∧
    s.controller.wanted 0 = some ⟨"r", 2, .statusDiff "b"⟩ ∧
    (∀ s', Serves s s' → s'.rest < s.rest) ∧
    Reaches "r" t ∧ t.received = 2 ∧ ∀ i, t.controller.wanted i = none := by
  have hasked := (((@Reaches.opened Unit "r").step
    (.requestDiff _ (.status "a") .reset)).step (.requestDiff _ (.status "b") .reset)).step
      (.requestFile _ (.status "c") none)
  have hdiff := ((hasked.step (.serve (.work _ (.take _ _ _ rfl rfl rfl)))).step
    (.serve (.work _ (.enter _ _ rfl rfl)))).step (.serve (.work _ (.reply _ _ () rfl)))
  have hfile := ((hdiff.step (.serve (.work _ (.take _ _ _ rfl rfl rfl)))).step
    (.serve (.work _ (.enter _ _ rfl rfl)))).step (.serve (.work _ (.reply _ _ () rfl)))
  have hread := (hfile.step (.serve (.receive _ _ _ rfl))).step (.serve (.receive _ _ _ rfl))
  obtain ⟨hanswers, -, hrest⟩ := every_intent_is_answered hfile (by decide)
  obtain ⟨-, hquiet, -⟩ := every_intent_is_answered hread (by decide)
  refine ⟨_, _, hfile, rfl, hanswers _ () 0 rfl (by decide), hrest, hread, rfl, hquiet ?_⟩
  intro s' hs
  cases hs with
  | work hworks =>
    cases hworks with
    | take _ _ _ _ htake => cases htake
    | drop _ htaken => cases htaken
    | enter _ htaken => cases htaken
    | reply _ _ hadmitted => cases hadmitted
    | leave _ hstopped => cases hstopped
  | receive _ _ hunread => cases hunread

end LoadSystem

end Nightcrow.Git
