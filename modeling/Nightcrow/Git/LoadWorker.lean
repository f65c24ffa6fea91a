import Nightcrow.Library.RoundRobin

namespace Nightcrow.Git

open Nightcrow.Library.RoundRobin

inductive StatusKind where
  | unmodified
  | added
  | modified
  | deleted
  | renamed
  | typeChanged
  | untracked
  | unmerged
  deriving DecidableEq

inductive LoadLane where
  | diff
  | file
  | commitFiles
  | decorations
  deriving DecidableEq

def LoadLane.index : LoadLane → Fin 4
  | .diff => 0
  | .file => 1
  | .commitFiles => 2
  | .decorations => 3

inductive GitLoadOperation where
  | statusDiff (path : String)
  | commitDiff (oid : String)
  | commitFileDiff (oid path : String)
  | workdirFile (path : String)
  | commitFile (oid path : String) (status : StatusKind)
  | commitFiles (oid : String)
  | decorations
  deriving DecidableEq

def GitLoadOperation.lane : GitLoadOperation → LoadLane
  | .statusDiff _ => .diff
  | .commitDiff _ => .diff
  | .commitFileDiff _ _ => .diff
  | .workdirFile _ => .file
  | .commitFile _ _ _ => .file
  | .commitFiles _ => .commitFiles
  | .decorations => .decorations

structure GitLoadRequest where
  repo : String
  generation : ℕ
  operation : GitLoadOperation
  deriving DecidableEq

def GitLoadRequest.index (r : GitLoadRequest) : Fin 4 := r.operation.lane.index

structure Pending where
  lanes : Lanes 4 GitLoadRequest := { slots := fun _ => none, next := 0 }
  latest : Fin 4 → ℕ := fun _ => 0
  stopped : Bool := false

namespace Pending

def replace (p : Pending) (r : GitLoadRequest) : Pending :=
  { p with
    latest := Function.update p.latest r.index r.generation
    lanes := p.lanes.put r.index (some r) }

def takeNext (p : Pending) : Option (GitLoadRequest × Pending) :=
  p.lanes.takeNext.map (fun (r, lanes) => (r, { p with lanes }))

def cancel (p : Pending) (lane : LoadLane) (generation : ℕ) : Pending :=
  { p with
    latest := Function.update p.latest lane.index generation
    lanes := p.lanes.put lane.index none }

def isLatest (p : Pending) (r : GitLoadRequest) : Bool := p.latest r.index = r.generation

end Pending

inductive LoadPhase where
  | idle
  | taken (r : GitLoadRequest)
  | admitted (r : GitLoadRequest)
  | ended
  deriving DecidableEq

inductive LoadEntry where
  | submitted (r : GitLoadRequest)
  | cancelled (lane : LoadLane)
  | taken (r : GitLoadRequest)
  | began (r : GitLoadRequest)
  | replied (r : GitLoadRequest)
  deriving DecidableEq

structure LoadWorld (R : Type*) where
  pending : Pending := {}
  phase : LoadPhase := .idle
  replies : List (GitLoadRequest × R) := []
  log : List LoadEntry := []

namespace LoadWorld

variable {R : Type*}

def submit (w : LoadWorld R) (r : GitLoadRequest) : LoadWorld R :=
  if w.pending.stopped then w
  else { w with pending := w.pending.replace r, log := .submitted r :: w.log }

def cancel (w : LoadWorld R) (lane : LoadLane) (generation : ℕ) : LoadWorld R :=
  { w with pending := w.pending.cancel lane generation, log := .cancelled lane :: w.log }

inductive Works : LoadWorld R → LoadWorld R → Prop
  | take (w : LoadWorld R) (r : GitLoadRequest) (pending : Pending) (h : w.phase = .idle)
      (hrun : w.pending.stopped = false) (htake : w.pending.takeNext = some (r, pending)) :
      Works w { w with pending, phase := .taken r, log := .taken r :: w.log }
  | drop (w : LoadWorld R) (r : GitLoadRequest) (h : w.phase = .taken r)
      (hold : w.pending.isLatest r = false) : Works w { w with phase := .idle }
  -- a load begins once its lane still wants it and it is let in
  | enter (w : LoadWorld R) (r : GitLoadRequest) (h : w.phase = .taken r)
      (hlatest : w.pending.isLatest r = true) :
      Works w { w with phase := .admitted r, log := .began r :: w.log }
  | reply (w : LoadWorld R) (r : GitLoadRequest) (result : R) (h : w.phase = .admitted r) :
      Works w { w with
        phase := .idle
        replies := w.replies ++ [(r, result)]
        log := .replied r :: w.log }
  | leave (w : LoadWorld R) (h : w.phase = .idle ∨ ∃ r, w.phase = .admitted r)
      (hstop : w.pending.stopped = true) : Works w { w with phase := .ended }

inductive Step : LoadWorld R → LoadWorld R → Prop
  | submit (w : LoadWorld R) (r : GitLoadRequest) : Step w (w.submit r)
  | cancel (w : LoadWorld R) (lane : LoadLane) (generation : ℕ) :
      Step w (w.cancel lane generation)
  | stop (w : LoadWorld R) : Step w { w with pending := { w.pending with stopped := true } }
  | work {w w' : LoadWorld R} (h : Works w w') : Step w w'

inductive Reaches : LoadWorld R → Prop
  | spawned : Reaches {}
  | step {w w' : LoadWorld R} : Reaches w → Step w w' → Reaches w'

end LoadWorld

namespace LoadEntry

def Sets (i : Fin 4) : LoadEntry → Prop
  | .submitted r => r.index = i
  | .cancelled lane => lane.index = i
  | .taken _ => False
  | .began _ => False
  | .replied _ => False

def TakesFrom (i : Fin 4) : LoadEntry → Prop
  | .taken r => r.index = i
  | _ => False

def isTake : LoadEntry → Bool
  | .taken _ => true
  | _ => false

def takenRequest : LoadEntry → Option GitLoadRequest
  | .taken r => some r
  | _ => none

def begunRequest : LoadEntry → Option GitLoadRequest
  | .began r => some r
  | _ => none

def repliedRequest : LoadEntry → Option GitLoadRequest
  | .replied r => some r
  | _ => none

end LoadEntry

def lastTaken (log : List LoadEntry) : Option GitLoadRequest := (log.filterMap (·.takenRequest)).head?

lemma cons_split {α : Type*} {e x : α} {log newer older : List α}
    (h : e :: log = newer ++ x :: older) :
    (newer = [] ∧ e = x ∧ log = older) ∨
      ∃ rest, newer = e :: rest ∧ log = rest ++ x :: older := by
  cases newer with
  | nil =>
    obtain ⟨rfl, rfl⟩ := List.cons.inj h
    exact .inl ⟨rfl, rfl, rfl⟩
  | cons y rest =>
    obtain ⟨rfl, hlog⟩ := List.cons.inj h
    exact .inr ⟨rest, rfl, hlog⟩

namespace LoadWorld

variable {R : Type*} {w w' : LoadWorld R} {r : GitLoadRequest}

def Standing (log newer older : List LoadEntry) (r : GitLoadRequest) : Prop :=
  log = newer ++ .submitted r :: older ∧ ∀ e ∈ newer, ¬ e.Sets r.index

structure Waits (w : LoadWorld R) (newer : List LoadEntry) (r : GitLoadRequest) : Prop where
  held : w.pending.lanes.slots r.index = some r
  passed : newer.countP LoadEntry.isTake + w.pending.lanes.distance r.index ≤ 3
  untaken : ∀ e ∈ newer, ¬ e.TakesFrom r.index

structure Served (w : LoadWorld R) (newer : List LoadEntry) (r : GitLoadRequest) : Prop where
  empty : w.pending.lanes.slots r.index = none
  worked : w.phase = .taken r ∨ w.phase = .admitted r ∨ .replied r ∈ newer

/-- Every load begun is answered, in order, but the one that is under way or was given up. -/
def Answered (w : LoadWorld R) : Prop :=
  ∃ busy : Option GitLoadRequest,
    w.log.filterMap (·.begunRequest) = busy.toList ++ (w.replies.map Prod.fst).reverse ∧
      match w.phase with
      | .admitted r => busy = some r
      | .ended => True
      | _ => busy = none

lemma Answered.idle (h : w.Answered) (hphase : (∀ r, w.phase ≠ .admitted r) ∧ w.phase ≠ .ended) :
    w.log.filterMap (·.begunRequest) = (w.replies.map Prod.fst).reverse := by
  obtain ⟨busy, hlog, hbusy⟩ := h
  split at hbusy
  · rename_i r hadmitted
    exact absurd hadmitted (hphase.1 r)
  · rename_i hended
    exact absurd hended hphase.2
  · rw [hlog, hbusy]
    rfl

structure Sound (w : LoadWorld R) : Prop where
  standing : ∀ newer older r, Standing w.log newer older r → w.pending.stopped = false →
    w.pending.latest r.index = r.generation ∧ (w.Waits newer r ∨ w.Served newer r)
  held : ∀ i r, w.pending.lanes.slots i = some r →
    r.index = i ∧ ∃ newer older, Standing w.log newer older r ∧ ∀ e ∈ newer, ¬ e.TakesFrom i
  current : ∀ r, w.phase = .taken r ∨ w.phase = .admitted r → lastTaken w.log = some r
  begun : ∀ newer older r, w.log = newer ++ .began r :: older → lastTaken older = some r
  replied : w.log.filterMap (·.repliedRequest) = (w.replies.map Prod.fst).reverse
  answered : w.Answered

lemma sound_spawned : Sound ({} : LoadWorld R) where
  standing newer older r h := by simp [Standing] at h
  held i r h := by cases h
  current r h := by simp at h
  begun newer older r h := by simp at h
  replied := rfl
  answered := ⟨none, rfl, rfl⟩

lemma Standing.cons {log newer older : List LoadEntry} {e : LoadEntry}
    (h : Standing (e :: log) newer older r) (he : e ≠ .submitted r) :
    ∃ rest, newer = e :: rest ∧ Standing log rest older r ∧ ¬ e.Sets r.index := by
  rcases cons_split h.1 with ⟨-, heq, -⟩ | ⟨rest, rfl, hlog⟩
  · exact absurd heq he
  · obtain ⟨hnot, hrest⟩ := List.forall_mem_cons.mp h.2
    exact ⟨rest, rfl, ⟨hlog, hrest⟩, hnot⟩

lemma Waits.cons {rest : List LoadEntry} {e : LoadEntry} (h : w.Waits rest r)
    (hslot : w'.pending.lanes.slots r.index = w.pending.lanes.slots r.index)
    (hnext : w'.pending.lanes.next = w.pending.lanes.next) (he : e.isTake = false) :
    w'.Waits (e :: rest) r where
  held := hslot.trans h.held
  passed := by
    have hpassed := h.passed
    rw [List.countP_cons_of_neg (by rw [he]; exact Bool.false_ne_true)]
    rwa [Lanes.distance, hnext]
  untaken := by
    refine List.forall_mem_cons.mpr ⟨fun htakes => ?_, h.untaken⟩
    cases e with
    | taken => cases he
    | _ => exact htakes

lemma Served.cons {rest : List LoadEntry} {e : LoadEntry} (h : w.Served rest r)
    (hslot : w'.pending.lanes.slots r.index = w.pending.lanes.slots r.index)
    (hphase : w.phase = .taken r ∨ w.phase = .admitted r →
      w'.phase = .taken r ∨ w'.phase = .admitted r ∨ e = .replied r) :
    w'.Served (e :: rest) r where
  empty := hslot.trans h.empty
  worked := by
    rw [List.mem_cons]
    rcases h.worked with htaken | hadmitted | hreplied
    · rcases hphase (.inl htaken) with h | h | h
      · exact .inl h
      · exact .inr (.inl h)
      · exact .inr (.inr (.inl h.symm))
    · rcases hphase (.inr hadmitted) with h | h | h
      · exact .inl h
      · exact .inr (.inl h)
      · exact .inr (.inr (.inl h.symm))
    · exact .inr (.inr (.inr hreplied))

lemma Sound.begun_cons (h : w.Sound) {e : LoadEntry} (he : ∀ r, e ≠ .began r)
    {newer older : List LoadEntry} (hlog : e :: w.log = newer ++ .began r :: older) :
    lastTaken older = some r := by
  rcases cons_split hlog with ⟨-, heq, -⟩ | ⟨rest, -, hlog⟩
  · exact absurd heq (he r)
  · exact h.begun rest older r hlog

lemma Sound.held_cons (h : w.Sound) {e : LoadEntry} {i : Fin 4}
    (hi : w.pending.lanes.slots i = some r) (hsets : ¬ e.Sets i) (htakes : ¬ e.TakesFrom i) :
    r.index = i ∧ ∃ newer older, Standing (e :: w.log) newer older r ∧
      ∀ e ∈ newer, ¬ e.TakesFrom i := by
  obtain ⟨rfl, newer, older, ⟨hlog, hquiet⟩, huntaken⟩ := h.held i r hi
  exact ⟨rfl, e :: newer, older, ⟨by rw [hlog]; rfl, List.forall_mem_cons.mpr ⟨hsets, hquiet⟩⟩,
    List.forall_mem_cons.mpr ⟨htakes, huntaken⟩⟩

lemma submit_of_running (hrun : w.pending.stopped = false) (r : GitLoadRequest) :
    w.submit r = { w with pending := w.pending.replace r, log := .submitted r :: w.log } :=
  if_neg (Bool.eq_false_iff.mp hrun)

lemma replace_sound (h : w.Sound) (hrun : w.pending.stopped = false) :
    Sound { w with pending := w.pending.replace r, log := .submitted r :: w.log } where
  standing newer older r' hr' _ := by
    rcases cons_split hr'.1 with ⟨rfl, heq, -⟩ | ⟨rest, rfl, hlog⟩
    · obtain rfl := LoadEntry.submitted.inj heq
      refine ⟨Function.update_self .., .inl ⟨Function.update_self .., ?_, List.forall_mem_nil _⟩⟩
      have hlt := Lanes.distance_lt (w.pending.lanes.put r.index (some r)) r.index
      rw [List.countP_nil, Nat.zero_add]
      exact Nat.le_of_lt_succ hlt
    · obtain ⟨hnot, hrest⟩ := List.forall_mem_cons.mp hr'.2
      have hne : r'.index ≠ r.index := fun heq => hnot heq.symm
      have hslot : (w.pending.replace r).lanes.slots r'.index = w.pending.lanes.slots r'.index :=
        Function.update_of_ne hne _ _
      obtain ⟨hlatest, hstands⟩ := h.standing rest older r' ⟨hlog, hrest⟩ hrun
      refine ⟨(Function.update_of_ne hne _ _).trans hlatest, ?_⟩
      exact hstands.imp (fun hw => hw.cons hslot rfl rfl)
        (fun hs => hs.cons hslot (fun hp => hp.imp_right .inl))
  held i r' hi := by
    by_cases heq : i = r.index
    · subst heq
      change Function.update _ _ _ _ = _ at hi
      rw [Function.update_self] at hi
      obtain rfl := Option.some.inj hi
      exact ⟨rfl, [], w.log, ⟨rfl, List.forall_mem_nil _⟩, List.forall_mem_nil _⟩
    · change Function.update _ _ _ _ = _ at hi
      rw [Function.update_of_ne heq] at hi
      exact h.held_cons hi (fun hsets => heq hsets.symm) id
  current r' hr' := h.current r' hr'
  begun _ _ _ hlog := h.begun_cons (fun _ => LoadEntry.noConfusion) hlog
  replied := h.replied
  answered := h.answered

lemma submit_sound (h : w.Sound) (r : GitLoadRequest) : (w.submit r).Sound := by
  cases hrun : w.pending.stopped
  · rw [submit_of_running hrun]
    exact replace_sound h hrun
  · rw [submit, if_pos hrun]
    exact h

lemma cancel_sound (h : w.Sound) (lane : LoadLane) (generation : ℕ) :
    (w.cancel lane generation).Sound where
  standing newer older r hr hrun := by
    obtain ⟨rest, rfl, hrest, hnot⟩ := hr.cons LoadEntry.noConfusion
    have hne : r.index ≠ lane.index := fun heq => hnot heq.symm
    have hslot : (w.pending.cancel lane generation).lanes.slots r.index =
        w.pending.lanes.slots r.index := Function.update_of_ne hne _ _
    obtain ⟨hlatest, hstands⟩ := h.standing rest older r hrest hrun
    refine ⟨(Function.update_of_ne hne _ _).trans hlatest, ?_⟩
    exact hstands.imp (fun hw => hw.cons hslot rfl rfl)
      (fun hs => hs.cons hslot (fun hp => hp.imp_right .inl))
  held i r hi := by
    by_cases heq : i = lane.index
    · subst heq
      change Function.update _ _ _ _ = _ at hi
      rw [Function.update_self] at hi
      cases hi
    · change Function.update _ _ _ _ = _ at hi
      rw [Function.update_of_ne heq] at hi
      exact h.held_cons hi (fun hsets => heq hsets.symm) id
  current r hr := h.current r hr
  begun _ _ _ hlog := h.begun_cons (fun _ => LoadEntry.noConfusion) hlog
  replied := h.replied
  answered := h.answered

lemma take_sound {pending : Pending} (h : w.Sound) (hidle : w.phase = .idle)
    (htake : w.pending.takeNext = some (r, pending)) :
    Sound { w with pending, phase := .taken r, log := .taken r :: w.log } := by
  obtain ⟨⟨r', lanes⟩, hlanes, heq⟩ := Option.map_eq_some_iff.mp htake
  obtain ⟨heq, rfl⟩ := Prod.mk.inj heq
  subst r'
  obtain ⟨i, hi, hafter, -⟩ := Lanes.takeNext_spec hlanes
  obtain ⟨rfl, -⟩ := h.held i r hi
  have hother : ∀ j, j ≠ r.index → lanes.slots j = w.pending.lanes.slots j := by
    intro j hj
    rw [hafter]
    exact Function.update_of_ne hj _ _
  have hemptied : lanes.slots r.index = none := by
    rw [hafter]
    exact Function.update_self ..
  refine ⟨fun newer older r' hr' hrun => ?_, fun j r' hj => ?_, fun r' hr' => ?_,
    fun _ _ _ hlog => h.begun_cons (fun _ => LoadEntry.noConfusion) hlog, h.replied,
    none, h.answered.idle (by simp [hidle]), rfl⟩
  · obtain ⟨rest, rfl, hrest, -⟩ := hr'.cons LoadEntry.noConfusion
    obtain ⟨hlatest, hwaits | hserved⟩ := h.standing rest older r' hrest hrun
    · refine ⟨hlatest, ?_⟩
      by_cases hsame : r'.index = r.index
      · have hheld := hwaits.held
        rw [hsame, hi] at hheld
        obtain rfl := Option.some.inj hheld
        exact .inr ⟨hemptied, .inl rfl⟩
      · have hheld : lanes.slots r'.index = some r' := (hother _ hsame).trans hwaits.held
        refine .inl ⟨hheld, ?_, List.forall_mem_cons.mpr ⟨fun heq => hsame heq.symm,
          hwaits.untaken⟩⟩
        have hnearer := @Lanes.distance_taken _ _ _ _ _ _ r'.index hlanes (by rw [hheld]; rfl)
        have hpassed := hwaits.passed
        dsimp only
        rw [List.countP_cons_of_pos rfl]
        omega
    · refine ⟨hlatest, .inr ?_⟩
      have hsame : r'.index ≠ r.index := by
        intro heq
        have hempty := hserved.empty
        rw [heq, hi] at hempty
        cases hempty
      refine ⟨(hother _ hsame).trans hserved.empty, .inr (.inr (List.mem_cons_of_mem _ ?_))⟩
      have hworked := hserved.worked
      rw [hidle] at hworked
      simpa using hworked
  · have hsame : j ≠ r.index := by
      rintro rfl
      rw [hemptied] at hj
      cases hj
    exact h.held_cons ((hother j hsame).symm.trans hj) id (fun heq => hsame heq.symm)
  · simp only [LoadPhase.taken.injEq, reduceCtorEq, or_false] at hr'
    rw [← hr']
    rfl

lemma drop_sound (h : w.Sound) (hphase : w.phase = .taken r)
    (hold : w.pending.isLatest r = false) : Sound { w with phase := .idle } where
  standing newer older r' hr' hrun := by
    obtain ⟨hlatest, hwaits | hserved⟩ := h.standing newer older r' hr' hrun
    · exact ⟨hlatest, .inl ⟨hwaits.held, hwaits.passed, hwaits.untaken⟩⟩
    · refine ⟨hlatest, .inr ⟨hserved.empty, .inr (.inr ?_)⟩⟩
      rcases hserved.worked with htaken | hadmitted | hreplied
      · obtain rfl := LoadPhase.taken.inj (hphase.symm.trans htaken)
        rw [Pending.isLatest, hlatest] at hold
        simp at hold
      · rw [hphase] at hadmitted
        cases hadmitted
      · exact hreplied
  held := h.held
  current r' hr' := by simp at hr'
  begun := h.begun
  replied := h.replied
  answered := ⟨none, h.answered.idle (by simp [hphase]), rfl⟩

lemma enter_sound (h : w.Sound) (hphase : w.phase = .taken r) :
    Sound { w with phase := .admitted r, log := .began r :: w.log } where
  standing newer older r' hr' hrun := by
    obtain ⟨rest, rfl, hrest, -⟩ := hr'.cons LoadEntry.noConfusion
    obtain ⟨hlatest, hstands⟩ := h.standing rest older r' hrest hrun
    refine ⟨hlatest, hstands.imp (fun hw => hw.cons rfl rfl rfl) (fun hs => hs.cons rfl ?_)⟩
    rw [hphase]
    rintro (htaken | hadmitted)
    · exact .inr (.inl (congrArg LoadPhase.admitted (LoadPhase.taken.inj htaken)))
    · cases hadmitted
  held i r' hi := h.held_cons hi id id
  current r' hr' := by
    simp only [LoadPhase.admitted.injEq, reduceCtorEq, false_or] at hr'
    subst hr'
    exact h.current r (.inl hphase)
  begun newer older r' hlog := by
    rcases cons_split hlog with ⟨-, heq, rfl⟩ | ⟨rest, -, hlog⟩
    · obtain rfl := LoadEntry.began.inj heq
      exact h.current r (.inl hphase)
    · exact h.begun rest older r' hlog
  replied := h.replied
  answered := ⟨some r, congrArg (List.cons r) (h.answered.idle (by simp [hphase])), rfl⟩

lemma reply_sound (h : w.Sound) (hphase : w.phase = .admitted r) (result : R) :
    Sound { w with
      phase := .idle
      replies := w.replies ++ [(r, result)]
      log := .replied r :: w.log } where
  standing newer older r' hr' hrun := by
    obtain ⟨rest, rfl, hrest, -⟩ := hr'.cons LoadEntry.noConfusion
    obtain ⟨hlatest, hstands⟩ := h.standing rest older r' hrest hrun
    refine ⟨hlatest, hstands.imp (fun hw => hw.cons rfl rfl rfl) (fun hs => hs.cons rfl ?_)⟩
    rw [hphase]
    rintro (htaken | hadmitted)
    · cases htaken
    · exact .inr (.inr (congrArg LoadEntry.replied (LoadPhase.admitted.inj hadmitted)))
  held i r' hi := h.held_cons hi id id
  current r' hr' := by simp at hr'
  begun _ _ _ hlog := h.begun_cons (fun _ => LoadEntry.noConfusion) hlog
  replied := by
    rw [List.map_append, List.reverse_append, ← h.replied]
    rfl
  answered := by
    obtain ⟨busy, hlog, hbusy⟩ := h.answered
    rw [hphase] at hbusy
    obtain rfl : busy = some r := hbusy
    refine ⟨none, ?_, rfl⟩
    rw [List.map_append, List.reverse_append]
    exact hlog

lemma Sound.work (h : w.Sound) (hs : Works w w') : w'.Sound := by
  cases hs with
  | take r pending hidle _ htake => exact take_sound h hidle htake
  | drop r hphase hold => exact drop_sound h hphase hold
  | enter r hphase => exact enter_sound h hphase
  | reply r result hphase => exact reply_sound h hphase result
  | leave _ hstop =>
    exact ⟨fun _ _ _ _ hrun => absurd (hrun.symm.trans hstop) Bool.false_ne_true, h.held,
      fun _ hr => by simp at hr, h.begun, h.replied, h.answered.imp (fun _ ha => ⟨ha.1, trivial⟩)⟩

lemma Sound.step (h : w.Sound) (hs : Step w w') : w'.Sound := by
  cases hs with
  | submit r => exact submit_sound h r
  | cancel lane generation => exact cancel_sound h lane generation
  | stop =>
    exact ⟨fun _ _ _ _ hrun => Bool.noConfusion hrun, h.held, h.current, h.begun, h.replied,
      h.answered⟩
  | work hs => exact h.work hs

lemma Reaches.sound (h : Reaches w) : w.Sound := by
  induction h with
  | spawned => exact sound_spawned
  | step _ hs ih => exact ih.step hs

/-- While the worker is not stopped the last request of a lane that was not cancelled is loaded: it
waits while at most three others are taken before it, is worked on, or is answered. -/
theorem last_submitted_is_answered (h : Reaches w) :
    (∀ newer older r, Standing w.log newer older r → w.pending.stopped = false →
      w.Waits newer r ∨ w.Served newer r) ∧
    (∀ newer older r, Standing w.log newer older r → w.pending.stopped = false →
      w.phase = .idle → (∀ i, w.pending.lanes.slots i = none) → ∃ result, (r, result) ∈ w.replies) ∧
    (∀ newer older r, w.log = newer ++ .began r :: older → lastTaken older = some r) ∧
    w.Answered := by
  have hsound := h.sound
  refine ⟨fun newer older r hr hrun => (hsound.standing newer older r hr hrun).2,
    fun newer older r hr hrun hidle hempty => ?_, hsound.begun, hsound.answered⟩
  have hreplied : LoadEntry.replied r ∈ newer := by
    rcases (hsound.standing newer older r hr hrun).2 with hwaits | hserved
    · have hheld := hwaits.held
      rw [hempty] at hheld
      cases hheld
    · have hworked := hserved.worked
      rw [hidle] at hworked
      simpa using hworked
  have hmem : r ∈ w.log.filterMap (·.repliedRequest) := by
    refine List.mem_filterMap.mpr ⟨.replied r, ?_, rfl⟩
    rw [hr.1]
    exact List.mem_append_left _ hreplied
  rw [hsound.replied, List.mem_reverse] at hmem
  obtain ⟨⟨_, result⟩, hresult, rfl⟩ := List.mem_map.mp hmem
  exact ⟨result, hresult⟩

def blobOf (path : String) (generation : ℕ) : GitLoadRequest :=
  ⟨"r", generation, .workdirFile path⟩

def diffOf (path : String) (generation : ℕ) : GitLoadRequest :=
  ⟨"r", generation, .statusDiff path⟩

theorem last_submitted_is_answered_replaced : ∃ w : LoadWorld Unit, Reaches w ∧
    w.log = [.replied (diffOf "b" 3), .began (diffOf "b" 3), .taken (diffOf "b" 3),
      .replied (blobOf "a" 2), .began (blobOf "a" 2), .taken (blobOf "a" 2),
      .submitted (diffOf "b" 3), .submitted (blobOf "a" 2), .taken (diffOf "a" 1),
      .submitted (diffOf "a" 1)] ∧
    (∃ result, (diffOf "b" 3, result) ∈ w.replies) ∧ w.Answered := by
  have htaken := (Reaches.spawned.step (.submit _ (diffOf "a" 1))).step
    (.work (.take (R := Unit) _ (diffOf "a" 1) _ rfl rfl rfl))
  have hreplaced := (htaken.step (.submit _ (blobOf "a" 2))).step (.submit _ (diffOf "b" 3))
  have hdropped := hreplaced.step (.work (.drop _ (diffOf "a" 1) rfl rfl))
  have hread := ((hdropped.step (.work (.take _ (blobOf "a" 2) _ rfl rfl rfl))).step
    (.work (.enter _ (blobOf "a" 2) rfl rfl))).step (.work (.reply _ (blobOf "a" 2) () rfl))
  have hdiff := ((hread.step (.work (.take _ (diffOf "b" 3) _ rfl rfl rfl))).step
    (.work (.enter _ (diffOf "b" 3) rfl rfl))).step (.work (.reply _ (diffOf "b" 3) () rfl))
  have hanswered := last_submitted_is_answered hdiff
  refine ⟨_, hdiff, rfl, hanswered.2.1 (_ :: _ :: _ :: _ :: _ :: [_]) _ (diffOf "b" 3)
    ⟨rfl, ?_⟩ rfl rfl ?_, hanswered.2.2.2⟩
  · simp [LoadEntry.Sets]
  · decide

end LoadWorld

end Nightcrow.Git
