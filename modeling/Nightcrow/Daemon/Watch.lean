import Mathlib

/-! Telling attached clients the session's shape: one thread reads it and is the only one to send
it. -/

namespace Nightcrow.Daemon.Watch

structure RepoSummary where
  id : String
  path : String
  deriving DecidableEq

structure Shape where
  repos : List RepoSummary
  active : Option String
  accent : ℕ
  deriving DecidableEq

structure Session where
  repos : List RepoSummary
  stored : Option String
  accent : ℕ
  deriving DecidableEq

def idOfPath (repos : List RepoSummary) (path : String) : Option String :=
  (repos.find? (fun repo => repo.path = path)).map RepoSummary.id

def firstId (repos : List RepoSummary) : Option String := repos.head?.map RepoSummary.id

def Session.activeRepo (s : Session) : Option String :=
  (s.stored.bind (idOfPath s.repos)).or (firstId s.repos)

def Session.shape (s : Session) : Shape := ⟨s.repos, s.activeRepo, s.accent⟩

def clientQueueDepth : ℕ := 256

/-- A client: whether it is owed the set, how full its queue is, whether its writer has ended. `sets`
are the sets queued to it so far, and `asked` says that it came or asked since the watcher last
began to read. -/
structure Attached where
  id : ℕ
  owedSet : Bool
  queued : ℕ := 0
  ended : Bool := false
  sets : List Shape := []
  asked : Bool := true
  deriving DecidableEq

namespace Attached

def room (c : Attached) : Bool := !c.ended && c.queued < clientQueueDepth

def queueSet (c : Attached) (shape : Shape) : Option Attached :=
  if c.room then some { c with queued := c.queued + 1, sets := c.sets ++ [shape] } else none

def queueOther (c : Attached) : Option Attached :=
  if c.room then some { c with queued := c.queued + 1 } else none

end Attached

structure AttachedClients where
  inner : List Attached := []
  nextId : ℕ := 0

namespace AttachedClients

variable (a : AttachedClients)

def tryConnect (capacity : ℕ) : Option AttachedClients :=
  if capacity ≤ a.inner.length then none
  else some { inner := a.inner ++ [{ id := a.nextId, owedSet := true }], nextId := a.nextId + 1 }

def disconnect (id : ℕ) : AttachedClients := { a with inner := a.inner.filter (·.id ≠ id) }

def broadcast (shape : Shape) : AttachedClients :=
  { a with inner := a.inner.filterMap (fun c => { c with owedSet := false }.queueSet shape) }

def oweSet (id : ℕ) : AttachedClients :=
  { a with
    inner := a.inner.map (fun c =>
      if c.id = id then { c with owedSet := true, asked := true } else c) }

def takeOwedSets : List ℕ × AttachedClients :=
  ((a.inner.filter (·.owedSet)).map (·.id),
    { a with inner := a.inner.map (fun c => { c with owedSet := false }) })

def sendTo (id : ℕ) (queue : Attached → Option Attached) : AttachedClients :=
  { a with inner := a.inner.filterMap (fun c => if c.id = id then queue c else some c) }

end AttachedClients

inductive Phase where
  | waiting
  | listed (repos : List RepoSummary)
  | recalled (repos : List RepoSummary) (stored : Option String)
  | unresolved (repos : List RepoSummary)
  | fronted (repos : List RepoSummary) (active : Option String)
  | read (shape : Shape)
  | serving (shape : Shape) (ids : List ℕ)

/-- The session, its clients, and the watcher with what it told them last. `tellings` are all the
shapes it took on, in order; `clean` says that the session has not changed since it last began to
read. -/
structure World where
  session : Session
  clients : AttachedClients := {}
  phase : Phase := .waiting
  told : Option Shape := none
  tellings : List Shape := []
  clean : Bool := false

namespace World

variable {capacity : ℕ} {w w' : World} {c : Attached} {shape : Shape}

def withClients (w : World) (f : Attached → Attached) : AttachedClients :=
  { w.clients with inner := w.clients.inner.map f }

inductive Other (capacity : ℕ) : World → World → Prop
  | change (w : World) (session : Session) : Other capacity w { w with session, clean := false }
  | connect (w : World) (clients : AttachedClients)
      (h : w.clients.tryConnect capacity = some clients) : Other capacity w { w with clients }
  | disconnect (w : World) (id : ℕ) :
      Other capacity w { w with clients := w.clients.disconnect id }
  | oweSet (w : World) (id : ℕ) : Other capacity w { w with clients := w.clients.oweSet id }
  | frame (w : World) (id : ℕ) :
      Other capacity w { w with clients := w.clients.sendTo id Attached.queueOther }
  | drain (w : World) (id : ℕ) :
      Other capacity w { w with
        clients := w.withClients (fun c =>
          if c.id = id then { c with queued := c.queued - 1 } else c) }
  | ended (w : World) (id : ℕ) :
      Other capacity w { w with
        clients := w.withClients (fun c => if c.id = id then { c with ended := true } else c) }

inductive Pass : World → World → Prop
  | begin (w : World) (h : w.phase = .waiting) :
      Pass w { w with
        phase := .listed w.session.repos
        clean := true
        clients := w.withClients (fun c => { c with asked := c.asked && w.told.isNone }) }
  | stored (w : World) (repos : List RepoSummary) (h : w.phase = .listed repos) :
      Pass w { w with phase := .recalled repos w.session.stored }
  | resolved (w : World) (repos : List RepoSummary) (stored : Option String) (id : String)
      (h : w.phase = .recalled repos stored)
      (hid : stored.bind (idOfPath w.session.repos) = some id) :
      Pass w { w with phase := .fronted repos (some id) }
  | unresolved (w : World) (repos : List RepoSummary) (stored : Option String)
      (h : w.phase = .recalled repos stored)
      (hid : stored.bind (idOfPath w.session.repos) = none) :
      Pass w { w with phase := .unresolved repos }
  | fallback (w : World) (repos : List RepoSummary) (h : w.phase = .unresolved repos) :
      Pass w { w with phase := .fronted repos (firstId w.session.repos) }
  | accent (w : World) (repos : List RepoSummary) (active : Option String)
      (h : w.phase = .fronted repos active) :
      Pass w { w with phase := .read ⟨repos, active, w.session.accent⟩ }
  | seed (w : World) (shape : Shape) (h : w.phase = .read shape) (htold : w.told = none) :
      Pass w { w with phase := .waiting, told := some shape, tellings := [shape] }
  | broadcast (w : World) (shape told : Shape) (h : w.phase = .read shape)
      (htold : w.told = some told) (hne : told ≠ shape) :
      Pass w { w with
        phase := .waiting
        told := some shape
        tellings := w.tellings ++ [shape]
        clients := w.clients.broadcast shape }
  | take (w : World) (shape : Shape) (h : w.phase = .read shape) (htold : w.told = some shape) :
      Pass w { w with
        phase := .serving shape w.clients.takeOwedSets.1
        clients := w.clients.takeOwedSets.2 }
  | serve (w : World) (shape : Shape) (id : ℕ) (ids : List ℕ)
      (h : w.phase = .serving shape (id :: ids)) :
      Pass w { w with
        phase := .serving shape ids
        clients := w.clients.sendTo id (fun c => c.queueSet shape) }
  | done (w : World) (shape : Shape) (h : w.phase = .serving shape []) :
      Pass w { w with phase := .waiting }

inductive Reaches (capacity : ℕ) : World → Prop
  | started (session : Session) : Reaches capacity { session }
  | other {w w' : World} : Reaches capacity w → Other capacity w w' → Reaches capacity w'
  | pass {w w' : World} : Reaches capacity w → Pass w w' → Reaches capacity w'

end World

def Follows (sets tellings : List Shape) : Prop :=
  ∃ picks : List ℕ, picks.Pairwise (· ≤ ·) ∧
    sets.map some = picks.map (fun i => tellings[i]?)

lemma Follows.grow {sets tellings : List Shape} (h : Follows sets tellings) (shape : Shape) :
    Follows sets (tellings ++ [shape]) := by
  obtain ⟨picks, hsorted, hpicks⟩ := h
  refine ⟨picks, hsorted, hpicks.trans (List.map_congr_left (fun i hi => ?_))⟩
  have hmem : tellings[i]? ∈ sets.map some := hpicks ▸ List.mem_map_of_mem hi
  obtain ⟨told, -, htold⟩ := List.mem_map.mp hmem
  obtain ⟨hlt, -⟩ := List.getElem?_eq_some_iff.mp htold.symm
  rw [List.getElem?_append_left hlt]

lemma Follows.push {sets tellings : List Shape} {shape : Shape} (h : Follows sets tellings)
    (hlast : tellings.getLast? = some shape) : Follows (sets ++ [shape]) tellings := by
  obtain ⟨picks, hsorted, hpicks⟩ := h
  refine ⟨picks ++ [tellings.length - 1], ?_, ?_⟩
  · rw [List.pairwise_append]
    refine ⟨hsorted, List.pairwise_singleton _ _, fun i hi j hj => ?_⟩
    obtain rfl := List.mem_singleton.mp hj
    have hmem : tellings[i]? ∈ sets.map some := hpicks ▸ List.mem_map_of_mem hi
    obtain ⟨told, -, htold⟩ := List.mem_map.mp hmem
    obtain ⟨hlt, -⟩ := List.getElem?_eq_some_iff.mp htold.symm
    exact Nat.le_sub_one_of_lt hlt
  · rw [List.map_append, List.map_append, hpicks, List.map_singleton, List.map_singleton,
      ← List.getLast?_eq_getElem?, hlast]

def Phase.ids : Phase → List ℕ
  | .serving _ ids => ids
  | _ => []

def Phase.Settling : Phase → Prop
  | .waiting => True
  | .serving _ _ => True
  | _ => False

def Phase.Reads (session : Session) (told : Option Shape) : Phase → Prop
  | .waiting => ∀ shape ∈ told, shape = session.shape
  | .listed repos => repos = session.repos
  | .recalled repos stored => repos = session.repos ∧ stored = session.stored
  | .unresolved repos =>
    repos = session.repos ∧ session.stored.bind (idOfPath session.repos) = none
  | .fronted repos active => repos = session.repos ∧ active = session.activeRepo
  | .read shape => shape = session.shape
  | .serving _ _ => ∀ shape ∈ told, shape = session.shape

structure Fine (told : Option Shape) (tellings : List Shape) (phase : Phase) (c : Attached) :
    Prop where
  follows : Follows c.sets tellings
  served : c.owedSet = false → c.id ∈ phase.ids ∨ ∃ shape, told = some shape ∧
    c.sets.getLast? = some shape
  owed : phase.Settling → c.owedSet = true → c.asked = true
  fresh : told = none → c.asked = true

variable {c : Attached} {shape : Shape}

lemma Fine.of_queue {told : Option Shape} {tellings : List Shape} {phase : Phase} {d : Attached}
    (h : Fine told tellings phase c) (hd : c.queueOther = some d) : Fine told tellings phase d := by
  rw [Attached.queueOther] at hd
  split at hd
  · obtain rfl := Option.some.inj hd
    exact ⟨h.follows, h.served, h.owed, h.fresh⟩
  · cases hd

lemma Attached.queueSet_eq {d : Attached} (h : c.queueSet shape = some d) :
    d = { c with queued := c.queued + 1, sets := c.sets ++ [shape] } := by
  rw [queueSet] at h
  split at h
  · exact (Option.some.inj h).symm
  · cases h

lemma Fine.of_set {told : Option Shape} {tellings : List Shape} {phase phase' : Phase}
    {d : Attached} (h : Fine told tellings phase c) (htold : told = some shape)
    (hlast : tellings.getLast? = told) (hd : c.queueSet shape = some d)
    (howed : phase'.Settling → d.owedSet = true → d.asked = true) :
    Fine told tellings phase' d := by
  obtain rfl := Attached.queueSet_eq hd
  exact ⟨h.follows.push (hlast.trans htold), fun _ => .inr ⟨shape, htold, List.getLast?_concat⟩,
    howed, h.fresh⟩

namespace World

variable {capacity : ℕ} {w w' : World}

structure Sound (capacity : ℕ) (w : World) : Prop where
  few : w.clients.inner.length ≤ capacity
  last : w.tellings.getLast? = w.told
  fine : ∀ c ∈ w.clients.inner, Fine w.told w.tellings w.phase c
  answers : ∀ shape ids, w.phase = .serving shape ids → w.told = some shape
  reads : w.clean = true → w.phase.Reads w.session w.told

lemma sound_started (session : Session) : Sound capacity { session } where
  few := Nat.zero_le _
  last := rfl
  fine := List.forall_mem_nil _
  answers _ _ h := by cases h
  reads h := by cases h

lemma Other.sound (h : w.Sound capacity) (hs : Other capacity w w') : w'.Sound capacity := by
  cases hs with
  | change session => exact ⟨h.few, h.last, h.fine, h.answers, fun hc => (by cases hc)⟩
  | connect clients hconnect =>
    rw [AttachedClients.tryConnect] at hconnect
    split at hconnect
    · cases hconnect
    · rename_i hroom
      obtain rfl := Option.some.inj hconnect
      refine ⟨?_, h.last, fun c hc => ?_, h.answers, h.reads⟩
      · rw [List.length_append]
        exact not_le.mp hroom
      · rcases List.mem_append.mp hc with hc | hc
        · exact h.fine c hc
        · obtain rfl := List.mem_singleton.mp hc
          exact ⟨⟨[], List.Pairwise.nil, rfl⟩, fun howed => (by cases howed), fun _ _ => rfl,
            fun _ => rfl⟩
  | disconnect id =>
    exact ⟨(List.length_filter_le _ _).trans h.few, h.last,
      fun c hc => h.fine c (List.mem_of_mem_filter hc), h.answers, h.reads⟩
  | oweSet id =>
    refine ⟨(List.length_map _).le.trans h.few, h.last, fun c hc => ?_, h.answers, h.reads⟩
    obtain ⟨d, hd, rfl⟩ := List.mem_map.mp hc
    have hfine := h.fine d hd
    split
    · exact ⟨hfine.follows, fun howed => (by cases howed), fun _ _ => rfl, fun _ => rfl⟩
    · exact hfine
  | frame id =>
    refine ⟨(List.length_filterMap_le _ _).trans h.few, h.last, fun c hc => ?_, h.answers,
      h.reads⟩
    obtain ⟨d, hd, hqueue⟩ := List.mem_filterMap.mp hc
    split at hqueue
    · exact (h.fine d hd).of_queue hqueue
    · obtain rfl := Option.some.inj hqueue
      exact h.fine d hd
  | drain id =>
    refine ⟨(List.length_map _).le.trans h.few, h.last, fun c hc => ?_, h.answers, h.reads⟩
    obtain ⟨d, hd, rfl⟩ := List.mem_map.mp hc
    have hfine := h.fine d hd
    split
    · exact ⟨hfine.follows, hfine.served, hfine.owed, hfine.fresh⟩
    · exact hfine
  | ended id =>
    refine ⟨(List.length_map _).le.trans h.few, h.last, fun c hc => ?_, h.answers, h.reads⟩
    obtain ⟨d, hd, rfl⟩ := List.mem_map.mp hc
    have hfine := h.fine d hd
    split
    · exact ⟨hfine.follows, hfine.served, hfine.owed, hfine.fresh⟩
    · exact hfine

lemma reading_sound (h : w.Sound capacity) {phase : Phase} (hids : phase.ids = w.phase.ids)
    (hunsettled : ¬ phase.Settling) (hanswers : ∀ shape ids, phase ≠ .serving shape ids)
    (hreads : w.clean = true → phase.Reads w.session w.told) :
    Sound capacity { w with phase } := by
  refine ⟨h.few, h.last, fun c hc => ?_, fun shape ids heq => absurd heq (hanswers shape ids),
    hreads⟩
  have hfine := h.fine c hc
  exact ⟨hfine.follows, hids ▸ hfine.served, fun hsettling => absurd hsettling hunsettled,
    hfine.fresh⟩

lemma broadcast_sound (h : w.Sound capacity) (hphase : w.phase = .read shape) :
    Sound capacity { w with
      phase := .waiting
      told := some shape
      tellings := w.tellings ++ [shape]
      clients := w.clients.broadcast shape } := by
  refine ⟨(List.length_filterMap_le _ _).trans h.few, List.getLast?_concat, fun c hc => ?_,
    fun _ _ heq => (by cases heq), fun hclean => ?_⟩
  · obtain ⟨d, hd, hqueue⟩ := List.mem_filterMap.mp hc
    have hfine := h.fine d hd
    have hgrown : Fine (some shape) (w.tellings ++ [shape]) (.serving shape [d.id])
        { d with owedSet := false } :=
      ⟨hfine.follows.grow shape, fun _ => .inl List.mem_cons_self, fun _ howed => (by cases howed),
        fun hnone => (by cases hnone)⟩
    have howed : c.owedSet = false := by
      rw [Attached.queueSet_eq hqueue]
    refine hgrown.of_set rfl List.getLast?_concat hqueue (fun _ htrue => ?_)
    rw [howed] at htrue
    cases htrue
  · have hreads := h.reads hclean
    rw [hphase] at hreads
    intro s hs
    obtain rfl := Option.some.inj hs
    exact hreads

lemma take_sound (h : w.Sound capacity) (hphase : w.phase = .read shape)
    (htold : w.told = some shape) :
    Sound capacity { w with
      phase := .serving shape w.clients.takeOwedSets.1
      clients := w.clients.takeOwedSets.2 } := by
  refine ⟨(List.length_map _).le.trans h.few, h.last, fun c hc => ?_, fun s ids heq => ?_,
    fun hclean => ?_⟩
  · obtain ⟨d, hd, rfl⟩ := List.mem_map.mp hc
    have hfine := h.fine d hd
    refine ⟨hfine.follows, fun _ => ?_, fun _ howed => (by cases howed), hfine.fresh⟩
    cases howed : d.owedSet with
    | true => exact .inl (List.mem_map.mpr ⟨d, List.mem_filter.mpr ⟨hd, howed⟩, rfl⟩)
    | false =>
      have hserved := hfine.served howed
      rw [hphase] at hserved
      exact .inr (hserved.resolve_left List.not_mem_nil)
  · cases heq
    exact htold
  · have hreads := h.reads hclean
    rw [hphase] at hreads
    intro s hs
    obtain rfl := Option.some.inj (htold.symm.trans hs)
    exact hreads

lemma serve_sound (h : w.Sound capacity) {id : ℕ} {ids : List ℕ}
    (hphase : w.phase = .serving shape (id :: ids)) :
    Sound capacity { w with
      phase := .serving shape ids
      clients := w.clients.sendTo id (fun c => c.queueSet shape) } := by
  have htold := h.answers shape _ hphase
  refine ⟨(List.length_filterMap_le _ _).trans h.few, h.last, fun c hc => ?_, fun s l heq => ?_,
    fun hclean => ?_⟩
  · obtain ⟨d, hd, hqueue⟩ := List.mem_filterMap.mp hc
    have hfine := h.fine d hd
    rw [hphase] at hfine
    split at hqueue
    · refine hfine.of_set htold h.last hqueue (fun _ howed => ?_)
      rw [Attached.queueSet_eq hqueue] at howed ⊢
      exact hfine.owed trivial howed
    · rename_i hother
      obtain rfl := Option.some.inj hqueue
      refine ⟨hfine.follows, fun howed => ?_, hfine.owed, hfine.fresh⟩
      refine (hfine.served howed).imp_left (fun hmem => ?_)
      exact (List.mem_cons.mp hmem).resolve_left hother
  · cases heq
    exact htold
  · have hreads := h.reads hclean
    rw [hphase] at hreads
    exact hreads

lemma Pass.sound (h : w.Sound capacity) (hs : Pass w w') : w'.Sound capacity := by
  cases hs with
  | begin hphase =>
    refine ⟨(List.length_map _).le.trans h.few, h.last, fun c hc => ?_,
      fun _ _ heq => (by cases heq), fun _ => rfl⟩
    obtain ⟨d, hd, rfl⟩ := List.mem_map.mp hc
    have hfine := h.fine d hd
    refine ⟨hfine.follows, fun howed => ?_, fun hsettling => absurd hsettling id,
      fun hnone => ?_⟩
    · have hserved := hfine.served howed
      rw [hphase] at hserved
      exact hserved
    · change w.told = none at hnone
      rw [hfine.fresh hnone, hnone]
      rfl
  | stored repos hphase =>
    refine reading_sound h (by rw [hphase]; rfl) id (fun _ _ heq => (by cases heq))
      (fun hclean => ?_)
    have hreads := h.reads hclean
    rw [hphase] at hreads
    exact ⟨hreads, rfl⟩
  | resolved repos stored id' hphase hid =>
    refine reading_sound h (by rw [hphase]; rfl) id (fun _ _ heq => (by cases heq))
      (fun hclean => ?_)
    have hreads := h.reads hclean
    rw [hphase] at hreads
    obtain ⟨hrepos, rfl⟩ := hreads
    refine ⟨hrepos, ?_⟩
    rw [Session.activeRepo, hid]
    rfl
  | unresolved repos stored hphase hid =>
    refine reading_sound h (by rw [hphase]; rfl) id (fun _ _ heq => (by cases heq))
      (fun hclean => ?_)
    have hreads := h.reads hclean
    rw [hphase] at hreads
    obtain ⟨hrepos, rfl⟩ := hreads
    exact ⟨hrepos, hid⟩
  | fallback repos hphase =>
    refine reading_sound h (by rw [hphase]; rfl) id (fun _ _ heq => (by cases heq))
      (fun hclean => ?_)
    have hreads := h.reads hclean
    rw [hphase] at hreads
    refine ⟨hreads.1, ?_⟩
    rw [Session.activeRepo, hreads.2]
    rfl
  | accent repos active hphase =>
    refine reading_sound h (by rw [hphase]; rfl) id (fun _ _ heq => (by cases heq))
      (fun hclean => ?_)
    have hreads := h.reads hclean
    rw [hphase] at hreads
    obtain ⟨rfl, rfl⟩ := hreads
    rfl
  | seed shape hphase htold =>
    refine ⟨h.few, rfl, fun c hc => ?_, fun _ _ heq => (by cases heq), fun hclean => ?_⟩
    · have hfine := h.fine c hc
      have hnothing : w.tellings = [] := List.getLast?_eq_none_iff.mp (h.last.trans htold)
      refine ⟨?_, fun howed => ?_, fun _ _ => hfine.fresh htold, fun hnone => (by cases hnone)⟩
      · have hgrown := hfine.follows.grow shape
        rwa [hnothing] at hgrown
      · have hserved := hfine.served howed
        rw [hphase] at hserved
        obtain ⟨told, hsome, -⟩ := hserved.resolve_left List.not_mem_nil
        cases htold.symm.trans hsome
    · have hreads := h.reads hclean
      rw [hphase] at hreads
      intro s hs
      obtain rfl := Option.some.inj hs
      exact hreads
  | broadcast shape told hphase => exact broadcast_sound h hphase
  | take shape hphase htold => exact take_sound h hphase htold
  | serve shape id ids hphase => exact serve_sound h hphase
  | done shape hphase =>
    refine ⟨h.few, h.last, fun c hc => ?_, fun _ _ heq => (by cases heq), fun hclean => ?_⟩
    · have hfine := h.fine c hc
      rw [hphase] at hfine
      exact ⟨hfine.follows, hfine.served, hfine.owed, hfine.fresh⟩
    · have hreads := h.reads hclean
      rw [hphase] at hreads
      exact hreads

lemma Reaches.sound (h : Reaches capacity w) : w.Sound capacity := by
  induction h with
  | started session => exact sound_started session
  | other _ hs ih => exact hs.sound ih
  | pass _ hs ih => exact hs.sound ih

/-- Every client comes to show the session: one is sent the sets in the order they were told, is
never more than the cap, and when the watcher waits after a pass before which it had attached and
asked, it was sent the last set told last; which is the session, where that has not changed since
the pass began. -/
theorem clients_show_the_session (h : Reaches capacity w) :
    w.clients.inner.length ≤ capacity ∧
    (∀ c ∈ w.clients.inner, Follows c.sets w.tellings) ∧
    (w.phase = .waiting → ∀ c ∈ w.clients.inner, c.asked = false →
      c.sets.getLast? = w.told ∧ (w.clean = true → c.sets.getLast? = some w.session.shape)) := by
  have hsound := h.sound
  refine ⟨hsound.few, fun c hc => (hsound.fine c hc).follows, fun hphase c hc hasked => ?_⟩
  have hfine := hsound.fine c hc
  rw [hphase] at hfine
  have howed : c.owedSet = false := by
    cases howed : c.owedSet with
    | false => rfl
    | true => exact absurd (hfine.owed trivial howed) (by rw [hasked]; exact Bool.false_ne_true)
  obtain ⟨shape, htold, hlast⟩ := (hfine.served howed).resolve_left List.not_mem_nil
  refine ⟨hlast.trans htold.symm, fun hclean => ?_⟩
  have hreads := hsound.reads hclean
  rw [hphase] at hreads
  rw [hlast, hreads shape htold]

theorem clients_show_the_session_first :
    ∃ w : World, w.phase = .waiting ∧ w.clean = true ∧ ∃ c ∈ w.clients.inner, c.asked = false ∧
      c.sets.getLast? = some w.session.shape := by
  have hstart : Reaches 4 { session := ⟨[⟨"r1", "/w"⟩], none, 2⟩ } := .started _
  have hseeded := ((((((hstart.pass (.begin _ rfl)).pass (.stored _ _ rfl)).pass
    (.unresolved _ _ _ rfl rfl)).pass (.fallback _ _ rfl)).pass (.accent _ _ _ rfl)).pass
    (.seed _ _ rfl rfl))
  have hattached := hseeded.other (.connect _ _ rfl)
  have hread := ((((hattached.pass (.begin _ rfl)).pass (.stored _ _ rfl)).pass
    (.unresolved _ _ _ rfl rfl)).pass (.fallback _ _ rfl)).pass (.accent _ _ _ rfl)
  have hserved := ((hread.pass (.take _ _ rfl rfl)).pass (.serve _ _ _ _ rfl)).pass (.done _ _ rfl)
  exact ⟨_, rfl, rfl, _, List.mem_cons_self, rfl,
    ((clients_show_the_session hserved).2.2 rfl _ List.mem_cons_self rfl).2 rfl⟩

end World

end Nightcrow.Daemon.Watch
