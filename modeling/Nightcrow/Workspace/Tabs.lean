import Nightcrow.Library.Keyed

namespace Nightcrow.Workspace

open Nightcrow.Library

inductive MouseButton
  | left | right | middle
  deriving DecidableEq

structure MousePress where
  pane : ℕ
  button : MouseButton
  col : UInt16
  row : UInt16
  deriving DecidableEq

structure App (View : Type) where
  repositoryPath : String
  repositoryId : Option String := none
  pendingMousePress : Option MousePress := none
  notice : Option String := none
  view : View

structure RepoSession (Saved : Type) where
  repo : String
  state : Saved

structure Tabs (View Saved : Type) where
  projects : List (App View) := []
  active : ℕ := 0
  emptyNotice : Option String := none
  remembered : List (RepoSession Saved) := []

structure RepoSummary where
  id : String
  path : String

def maxProjects : ℕ := 10

def maxRemembered : ℕ := 50

section

variable {View Saved : Type}

structure App.Same (a b : App View) : Prop where
  repositoryPath : b.repositoryPath = a.repositoryPath
  notice : b.notice = a.notice
  view : b.view = a.view

lemma App.Same.refl (a : App View) : a.Same a := ⟨rfl, rfl, rfl⟩

lemma App.Same.trans {a b c : App View} (h : a.Same b) (h' : b.Same c) : a.Same c :=
  ⟨h'.repositoryPath.trans h.repositoryPath, h'.notice.trans h.notice, h'.view.trans h.view⟩

def App.releasePendingPressInPlace (a : App View) : App View := { a with pendingMousePress := none }

namespace Tabs

def indexOfRepo (w : Tabs View Saved) (path : String) : Option ℕ :=
  w.projects.findIdx? (fun a => a.repositoryPath = path)

def isFull (w : Tabs View Saved) : Bool := maxProjects ≤ w.projects.length

def raiseNotice (w : Tabs View Saved) (text : String) : Tabs View Saved :=
  if w.active < w.projects.length then
    { w with projects := w.projects.modify w.active (fun a => { a with notice := some text }) }
  else { w with emptyNotice := some text }

def sessionFor (w : Tabs View Saved) (repo : String) : Option Saved :=
  (w.remembered.find? (fun s => s.repo = repo)).map RepoSession.state

def add (w : Tabs View Saved) (project : App View) : Bool × Tabs View Saved :=
  if maxProjects ≤ w.projects.length then (false, w)
  else
    (true, { w with
      emptyNotice := none
      projects := w.projects.modify w.active App.releasePendingPressInPlace ++ [project]
      active := w.projects.length })

def closeAt (save : View → Saved) (w : Tabs View Saved) (index : ℕ) : Tabs View Saved :=
  -- an index in range; what is saved of a view is `save`
  match w.projects[index]? with
  | none => w
  | some closing =>
    let projects := w.projects.eraseIdx index
    let remembered := w.remembered.filter (fun s => s.repo ≠ closing.repositoryPath)
    { w with
      projects
      remembered := (⟨closing.repositoryPath, save closing.view⟩ :: remembered).take maxRemembered
      active := min (if index < w.active then w.active - 1 else w.active) (projects.length - 1) }

def closeRepo (save : View → Saved) (w : Tabs View Saved) (repo : String) : Tabs View Saved :=
  match w.indexOfRepo repo with
  | none => w
  | some index => w.closeAt save index

def reorderTo (w : Tabs View Saved) (order : List String) : Tabs View Saved :=
  let activePath := (w.projects[w.active]?).map App.repositoryPath
  let arranged := Keyed.takeByKey App.repositoryPath order w.projects
  let w := { w with projects := arranged.1 ++ arranged.2 }
  { w with active := (activePath.bind w.indexOfRepo).getD 0 }

def setRepoId (w : Tabs View Saved) (repo id : String) : Tabs View Saved :=
  match w.indexOfRepo repo with
  | none => w
  | some index =>
    { w with projects := w.projects.modify index (fun a => { a with repositoryId := some id }) }

def openMissing (init : String → Option Saved → View) :
    List RepoSummary → Tabs View Saved → Tabs View Saved
  -- the loop of `adopt` that opens what is not open
  | [], w => w
  | repo :: repos, w =>
    if (w.indexOfRepo repo.path).isSome then openMissing init repos w
    else if w.isFull then
      w.raiseNotice ("cannot open more than " ++ toString maxProjects ++ " projects")
    else
      openMissing init repos
        (w.add { repositoryPath := repo.path, view := init repo.path (w.sessionFor repo.path) }).2

def adopt (save : View → Saved) (init : String → Option Saved → View) (w : Tabs View Saved)
    (repos : List RepoSummary) : Tabs View Saved :=
  let wanted := repos.map RepoSummary.path
  let doomed := (w.projects.map App.repositoryPath).filter (fun path => path ∉ wanted)
  let w := doomed.foldl (closeRepo save) w
  let w := openMissing init repos w
  let w := w.reorderTo wanted
  repos.foldl (fun w repo => w.setRepoId repo.path repo.id) w

lemma indexOfRepo_none {w : Tabs View Saved} {path : String} (h : w.indexOfRepo path = none) :
    path ∉ w.projects.map App.repositoryPath := by
  intro hmem
  obtain ⟨a, ha, rfl⟩ := List.mem_map.mp hmem
  have hne := List.findIdx?_eq_none_iff.mp h a ha
  simp at hne

lemma indexOfRepo_isSome {w : Tabs View Saved} {path : String} :
    (w.indexOfRepo path).isSome ↔ path ∈ w.projects.map App.repositoryPath := by
  rw [indexOfRepo, List.findIdx?_isSome]
  simp

lemma closeRepo_projects {save : View → Saved} {w : Tabs View Saved} {repo : String}
    (hn : (w.projects.map App.repositoryPath).Nodup) :
    (w.closeRepo save repo).projects = w.projects.filter (fun a => a.repositoryPath ≠ repo) := by
  rw [closeRepo]
  cases hidx : w.indexOfRepo repo with
  | none =>
    have hnone := indexOfRepo_none hidx
    refine (List.filter_eq_self.mpr (fun a ha => decide_eq_true ?_)).symm
    exact fun he => hnone (he ▸ List.mem_map_of_mem ha)
  | some index =>
    obtain ⟨hlt, -, -⟩ := List.findIdx?_eq_some_iff_getElem.mp hidx
    dsimp only
    rw [closeAt, List.getElem?_eq_getElem hlt]
    exact Keyed.eraseIdx_eq_filter hn hidx

lemma closeRepo_active {save : View → Saved} {w : Tabs View Saved} {repo : String} {a : App View}
    (ha : w.projects[w.active]? = some a) (hne : a.repositoryPath ≠ repo) :
    (w.closeRepo save repo).projects[(w.closeRepo save repo).active]? = some a := by
  rw [closeRepo]
  cases hidx : w.indexOfRepo repo with
  | none => exact ha
  | some index =>
    obtain ⟨hlt, hpath, -⟩ := List.findIdx?_eq_some_iff_getElem.mp hidx
    have hindex : index ≠ w.active := by
      rintro rfl
      rw [List.getElem?_eq_getElem hlt, Option.some.injEq] at ha
      exact hne (ha ▸ of_decide_eq_true hpath)
    have hshift := Keyed.getElem?_eraseIdx_shift ha hindex
    obtain ⟨hin, -⟩ := List.getElem?_eq_some_iff.mp hshift
    dsimp only
    rw [closeAt, List.getElem?_eq_getElem hlt]
    dsimp only
    rw [min_eq_left (by omega)]
    exact hshift

lemma closeRepo_remembered {save : View → Saved} {w : Tabs View Saved} {a : App View}
    (hn : (w.projects.map App.repositoryPath).Nodup) (ha : a ∈ w.projects) :
    (w.closeRepo save a.repositoryPath).remembered =
      (⟨a.repositoryPath, save a.view⟩ ::
        w.remembered.filter (fun s => s.repo ≠ a.repositoryPath)).take maxRemembered := by
  obtain ⟨i, hi⟩ := List.mem_iff_getElem?.mp ha
  rw [closeRepo, indexOfRepo, Keyed.findIdx?_eq_some hn hi]
  dsimp only
  rw [closeAt, hi]

def closeAll (save : View → Saved) (w : Tabs View Saved) (repos : List String) : Tabs View Saved :=
  repos.foldl (closeRepo save) w

lemma closeAll_projects {save : View → Saved} {w : Tabs View Saved} {repos : List String}
    (hn : (w.projects.map App.repositoryPath).Nodup) :
    (w.closeAll save repos).projects = w.projects.filter (fun a => a.repositoryPath ∉ repos) := by
  induction repos generalizing w with
  | nil => simp [closeAll]
  | cons repo repos ih =>
    have hnext : ((w.closeRepo save repo).projects.map App.repositoryPath).Nodup := by
      rw [closeRepo_projects hn]
      exact hn.sublist (List.filter_sublist.map _)
    have hrest := ih hnext
    rw [closeAll] at hrest ⊢
    rw [List.foldl_cons, hrest, closeRepo_projects hn, List.filter_filter]
    refine List.filter_congr (fun a _ => ?_)
    simp [not_or, Bool.and_comm]

lemma closeAll_active {save : View → Saved} {w : Tabs View Saved} {repos : List String}
    {a : App View} (ha : w.projects[w.active]? = some a) (hne : a.repositoryPath ∉ repos) :
    (w.closeAll save repos).projects[(w.closeAll save repos).active]? = some a := by
  induction repos generalizing w with
  | nil => exact ha
  | cons repo repos ih =>
    rw [List.mem_cons, not_or] at hne
    exact ih (closeRepo_active ha hne.1) hne.2

def sessionOf (save : View → Saved) (a : App View) : RepoSession Saved :=
  ⟨a.repositoryPath, save a.view⟩

def Remembers (front old new : List (RepoSession Saved)) : Prop :=
  ∃ rest, new = (front ++ rest).take maxRemembered ∧ rest.Sublist old ∧
    ∀ s ∈ rest, s.repo ∉ front.map RepoSession.repo

lemma Remembers.close {front old new : List (RepoSession Saved)} {s : RepoSession Saved}
    (h : Remembers front old new) (hs : s.repo ∉ front.map RepoSession.repo) :
    Remembers (s :: front) old
      ((s :: new.filter (fun r => r.repo ≠ s.repo)).take maxRemembered) := by
  obtain ⟨rest, rfl, hrest, hfresh⟩ := h
  have hfront : ∀ n, (front.take n).filter (fun r => r.repo ≠ s.repo) = front.take n := by
    refine fun n => List.filter_eq_self.mpr (fun r hr => decide_eq_true (fun he => ?_))
    exact hs (he ▸ List.mem_map_of_mem (List.mem_of_mem_take hr))
  refine ⟨(rest.take (maxRemembered - front.length)).filter (fun r => r.repo ≠ s.repo), ?_, ?_,
    fun r hr => ?_⟩
  · rw [List.take_append, List.filter_append, hfront]
    rcases le_or_gt maxRemembered front.length with hle | hlt
    · rw [Nat.sub_eq_zero_of_le hle, List.take_zero, List.filter_nil, List.append_nil,
        List.append_nil]
      rw [maxRemembered, List.take_succ_cons, List.take_succ_cons, List.take_take]
      rfl
    · rw [List.take_of_length_le hlt.le, List.cons_append]
  · exact List.filter_sublist.trans ((List.take_sublist _ _).trans hrest)
  · obtain ⟨hmem, hne⟩ := List.mem_filter.mp hr
    rw [List.map_cons, List.mem_cons, not_or]
    exact ⟨of_decide_eq_true hne, hfresh r (List.mem_of_mem_take hmem)⟩

lemma Remembers.length_le {front old new : List (RepoSession Saved)}
    (h : Remembers front old new) : new.length ≤ maxRemembered := by
  obtain ⟨rest, rfl, -, -⟩ := h
  exact List.length_take_le _ _

lemma closeRepo_paths_nodup {save : View → Saved} {w : Tabs View Saved} {repo : String}
    (hn : (w.projects.map App.repositoryPath).Nodup) :
    ((w.closeRepo save repo).projects.map App.repositoryPath).Nodup := by
  rw [closeRepo_projects hn]
  exact hn.sublist (List.filter_sublist.map _)

lemma closeRepo_keeps {save : View → Saved} {w : Tabs View Saved} {a : App View}
    {closed : List (App View)} (hn : (w.projects.map App.repositoryPath).Nodup)
    (hopen : ∀ b ∈ closed, b ∈ w.projects)
    (ha : a.repositoryPath ∉ closed.map App.repositoryPath) :
    ∀ b ∈ closed, b ∈ (w.closeRepo save a.repositoryPath).projects := by
  intro b hb
  rw [closeRepo_projects hn]
  refine List.mem_filter.mpr ⟨hopen b hb, decide_eq_true ?_⟩
  exact fun he => ha (he ▸ List.mem_map_of_mem hb)

lemma Remembers.closeAll {save : View → Saved} {closed : List (App View)} :
    ∀ {w : Tabs View Saved} {front old : List (RepoSession Saved)},
      Remembers front old w.remembered → (w.projects.map App.repositoryPath).Nodup →
      (∀ a ∈ closed, a ∈ w.projects) → (closed.map App.repositoryPath).Nodup →
      (∀ a ∈ closed, a.repositoryPath ∉ front.map RepoSession.repo) →
      Remembers ((closed.map (sessionOf save)).reverse ++ front) old
        (w.closeAll save (closed.map App.repositoryPath)).remembered := by
  induction closed with
  | nil => exact fun h _ _ _ _ => h
  | cons a closed ih =>
    intro w front old h hn hopen hclosed hfront
    obtain ⟨ha, hclosed⟩ := List.nodup_cons.mp hclosed
    have hmem := hopen a (List.mem_cons_self ..)
    have hstep : Remembers (sessionOf save a :: front) old
        (w.closeRepo save a.repositoryPath).remembered := by
      rw [closeRepo_remembered hn hmem]
      exact h.close (hfront a (List.mem_cons_self ..))
    have hrest := ih hstep (closeRepo_paths_nodup hn)
      (closeRepo_keeps hn (fun b hb => hopen b (List.mem_cons_of_mem _ hb)) ha) hclosed
      (fun b hb => ?_)
    · rw [List.map_cons, List.reverse_cons, List.append_assoc]
      exact hrest
    · rw [List.map_cons, List.mem_cons, not_or]
      refine ⟨fun (he : b.repositoryPath = a.repositoryPath) => ?_,
        hfront b (List.mem_cons_of_mem _ hb)⟩
      exact ha (he ▸ List.mem_map_of_mem hb)

lemma closeAll_remembered {save : View → Saved} {w : Tabs View Saved} {closed : List (App View)}
    (hn : (w.projects.map App.repositoryPath).Nodup) (hopen : ∀ a ∈ closed, a ∈ w.projects)
    (hclosed : (closed.map App.repositoryPath).Nodup) (hne : closed ≠ []) :
    Remembers (closed.map (sessionOf save)).reverse w.remembered
      (w.closeAll save (closed.map App.repositoryPath)).remembered := by
  obtain ⟨a, closed, rfl⟩ := List.exists_cons_of_ne_nil hne
  obtain ⟨ha, hclosed⟩ := List.nodup_cons.mp hclosed
  have hfirst : Remembers [sessionOf save a] w.remembered
      (w.closeRepo save a.repositoryPath).remembered := by
    rw [closeRepo_remembered hn (hopen a (List.mem_cons_self ..))]
    refine ⟨_, rfl, List.filter_sublist, fun s hs => ?_⟩
    simpa [sessionOf] using (List.mem_filter.mp hs).2
  rw [List.map_cons, List.reverse_cons]
  refine hfirst.closeAll (closeRepo_paths_nodup hn)
    (closeRepo_keeps hn (fun b hb => hopen b (List.mem_cons_of_mem _ hb)) ha) hclosed
    (fun b hb => ?_)
  rw [List.map_singleton, List.mem_singleton]
  exact fun (he : b.repositoryPath = a.repositoryPath) => ha (he ▸ List.mem_map_of_mem hb)

lemma add_paths {w : Tabs View Saved} {a : App View} (h : w.projects.length < maxProjects) :
    (w.add a).2.projects.map App.repositoryPath =
      w.projects.map App.repositoryPath ++ [a.repositoryPath] := by
  rw [add, if_neg (by omega)]
  dsimp only
  rw [List.map_append, Keyed.map_modify (f := App.releasePendingPressInPlace)
    (fun _ => rfl)]
  rfl

lemma add_keeps {w : Tabs View Saved} {a b : App View} (h : w.projects.length < maxProjects)
    (hb : b ∈ w.projects) : ∃ c ∈ (w.add a).2.projects, b.Same c := by
  obtain ⟨i, hi⟩ := List.mem_iff_getElem?.mp hb
  rw [add, if_neg (by omega)]
  dsimp only
  have hget : (w.projects.modify w.active App.releasePendingPressInPlace)[i]? =
      some (if w.active = i then b.releasePendingPressInPlace else b) := by
    rw [List.getElem?_modify, hi]
    split_ifs <;> rfl
  refine ⟨_, List.mem_append_left _ (List.mem_of_getElem? hget), ?_⟩
  split_ifs
  · exact ⟨rfl, rfl, rfl⟩
  · exact App.Same.refl b

lemma openMissing_opens (init : String → Option Saved → View) {repos : List RepoSummary} :
    ∀ {w : Tabs View Saved}, (repos.map RepoSummary.path).Nodup →
      w.projects.length + (repos.filter
        (fun repo => repo.path ∉ w.projects.map App.repositoryPath)).length ≤ maxProjects →
      (openMissing init repos w).projects.map App.repositoryPath =
        w.projects.map App.repositoryPath ++ (repos.filter
          (fun repo => repo.path ∉ w.projects.map App.repositoryPath)).map RepoSummary.path ∧
      (∀ a ∈ w.projects, ∃ b ∈ (openMissing init repos w).projects, a.Same b) ∧
      (openMissing init repos w).remembered = w.remembered := by
  induction repos with
  | nil => exact fun _ _ => ⟨(List.append_nil _).symm, fun a ha => ⟨a, ha, .refl a⟩, rfl⟩
  | cons repo repos ih =>
    intro w hn hroom
    obtain ⟨hrepo, hn⟩ := List.nodup_cons.mp hn
    rw [openMissing]
    by_cases hopen : repo.path ∈ w.projects.map App.repositoryPath
    · rw [if_pos (indexOfRepo_isSome.mpr hopen)]
      rw [List.filter_cons_of_neg (by simpa using hopen)] at hroom ⊢
      exact ih hn hroom
    · rw [if_neg (fun h => hopen (indexOfRepo_isSome.mp h))]
      rw [List.filter_cons_of_pos (by simpa using hopen)] at hroom ⊢
      rw [List.length_cons] at hroom
      have hlt : w.projects.length < maxProjects := by omega
      rw [if_neg (by simpa [isFull] using hlt)]
      set opened : App View :=
        { repositoryPath := repo.path, view := init repo.path (w.sessionFor repo.path) }
      have hpaths := add_paths (a := opened) hlt
      have hfilter : repos.filter
          (fun r => r.path ∉ (w.add opened).2.projects.map App.repositoryPath) =
            repos.filter (fun r => r.path ∉ w.projects.map App.repositoryPath) := by
        refine List.filter_congr (fun r hr => ?_)
        have hne : r.path ≠ opened.repositoryPath := fun (he : r.path = repo.path) =>
          hrepo (he ▸ List.mem_map_of_mem hr)
        refine decide_eq_decide.mpr (not_congr ?_)
        rw [hpaths, List.mem_append, List.mem_singleton, or_iff_left hne]
      have hlength : (w.add opened).2.projects.length = w.projects.length + 1 := by
        rw [← List.length_map App.repositoryPath, hpaths, List.length_append, List.length_map]
        rfl
      obtain ⟨hopened, hkept, hremembered⟩ :=
        ih (w := (w.add opened).2) hn (by rw [hfilter, hlength]; omega)
      refine ⟨?_, fun a ha => ?_, hremembered.trans ?_⟩
      · rw [hopened, hfilter, hpaths, List.append_assoc]
        rfl
      · obtain ⟨b, hb, hab⟩ := add_keeps hlt ha
        obtain ⟨c, hc, hbc⟩ := hkept b hb
        exact ⟨c, hc, hab.trans hbc⟩
      · rw [add, if_neg (by omega)]

lemma openMissing_of_open {init : String → Option Saved → View} {repos : List RepoSummary}
    {w : Tabs View Saved} (h : ∀ repo ∈ repos, repo.path ∈ w.projects.map App.repositoryPath) :
    openMissing init repos w = w := by
  induction repos with
  | nil => rfl
  | cons repo repos ih =>
    rw [openMissing, if_pos (indexOfRepo_isSome.mpr (h repo (List.mem_cons_self ..)))]
    exact ih (fun r hr => h r (List.mem_cons_of_mem _ hr))

lemma reorderTo_projects {w : Tabs View Saved} {order : List String}
    (hn : (w.projects.map App.repositoryPath).Nodup) (horder : order.Nodup) :
    (w.reorderTo order).projects =
      order.filterMap (fun path => w.projects.find? (fun a => a.repositoryPath = path)) ++
        w.projects.filter (fun a => a.repositoryPath ∉ order) := by
  rw [reorderTo]
  dsimp only
  rw [Keyed.takeByKey_eq hn horder]

lemma reorderTo_mem {w : Tabs View Saved} {order : List String} {a : App View}
    (hn : (w.projects.map App.repositoryPath).Nodup) (horder : order.Nodup)
    (ha : a ∈ w.projects) : a ∈ (w.reorderTo order).projects := by
  rw [reorderTo_projects hn horder, List.mem_append]
  by_cases hpath : a.repositoryPath ∈ order
  · exact Or.inl (List.mem_filterMap.mpr ⟨_, hpath, Keyed.find?_eq_some hn ha⟩)
  · exact Or.inr (List.mem_filter.mpr ⟨ha, decide_eq_true hpath⟩)

lemma reorderTo_paths {w : Tabs View Saved} {order : List String}
    (hn : (w.projects.map App.repositoryPath).Nodup) (horder : order.Nodup)
    (hmem : ∀ path, path ∈ order ↔ path ∈ w.projects.map App.repositoryPath) :
    (w.reorderTo order).projects.map App.repositoryPath = order := by
  have hleft : w.projects.filter (fun a => a.repositoryPath ∉ order) = [] := by
    refine List.filter_eq_nil_iff.mpr (fun a ha => ?_)
    simpa using (hmem _).mpr (List.mem_map_of_mem ha)
  rw [reorderTo_projects hn horder, hleft, List.append_nil, List.map_filterMap]
  calc order.filterMap (fun path =>
        (w.projects.find? (fun a => a.repositoryPath = path)).map App.repositoryPath)
      = order.filterMap some := by
        refine List.filterMap_congr (fun path hpath => ?_)
        obtain ⟨a, ha, rfl⟩ := List.mem_map.mp ((hmem path).mp hpath)
        rw [Keyed.find?_eq_some hn ha]
        rfl
    _ = order := List.filterMap_some ..

lemma reorderTo_active_in_range (w : Tabs View Saved) (order : List String) :
    (w.reorderTo order).active < (w.reorderTo order).projects.length ∨
      (w.reorderTo order).projects = [] ∧ (w.reorderTo order).active = 0 := by
  rw [reorderTo]
  dsimp only
  generalize (Keyed.takeByKey App.repositoryPath order w.projects).1 ++
    (Keyed.takeByKey App.repositoryPath order w.projects).2 = arranged
  cases hidx : ((w.projects[w.active]?).map App.repositoryPath).bind
      (indexOfRepo { w with projects := arranged }) with
  | none =>
    rcases arranged with _ | ⟨a, arranged⟩
    · exact Or.inr ⟨rfl, rfl⟩
    · exact Or.inl (Nat.succ_pos _)
  | some i =>
    obtain ⟨path, -, hi⟩ := Option.bind_eq_some_iff.mp hidx
    obtain ⟨hlt, -, -⟩ := List.findIdx?_eq_some_iff_getElem.mp hi
    exact Or.inl hlt

lemma reorderTo_active {w : Tabs View Saved} {order : List String} {a : App View}
    (hn : (w.projects.map App.repositoryPath).Nodup) (horder : order.Nodup)
    (hnew : ((w.reorderTo order).projects.map App.repositoryPath).Nodup)
    (ha : w.projects[w.active]? = some a) :
    (w.reorderTo order).projects[(w.reorderTo order).active]? = some a := by
  obtain ⟨i, hi⟩ := List.mem_iff_getElem?.mp
    (reorderTo_mem hn horder (List.mem_of_getElem? ha))
  have hactive : (w.reorderTo order).active = i := by
    have hfind : (w.reorderTo order).indexOfRepo a.repositoryPath = some i :=
      Keyed.findIdx?_eq_some hnew hi
    rw [reorderTo] at hfind ⊢
    dsimp only at hfind ⊢
    rw [ha]
    exact congrArg (Option.getD · 0) hfind
  rw [hactive]
  exact hi

def identify (repos : List RepoSummary) (a : App View) : App View :=
  repos.foldl (fun a repo =>
    if a.repositoryPath = repo.path then { a with repositoryId := some repo.id } else a) a

lemma identify_same (repos : List RepoSummary) (a : App View) : a.Same (identify repos a) := by
  induction repos generalizing a with
  | nil => exact .refl a
  | cons repo repos ih =>
    rw [identify, List.foldl_cons]
    refine App.Same.trans ?_ (ih _)
    split_ifs
    · exact ⟨rfl, rfl, rfl⟩
    · exact .refl a

lemma identify_pendingMousePress (repos : List RepoSummary) (a : App View) :
    (identify repos a).pendingMousePress = a.pendingMousePress := by
  induction repos generalizing a with
  | nil => rfl
  | cons repo repos ih =>
    rw [identify, List.foldl_cons]
    refine (ih _).trans ?_
    split_ifs <;> rfl

lemma identify_of_not_mem {repos : List RepoSummary} {a : App View}
    (h : a.repositoryPath ∉ repos.map RepoSummary.path) : identify repos a = a := by
  induction repos with
  | nil => rfl
  | cons repo repos ih =>
    rw [List.map_cons, List.mem_cons, not_or] at h
    rw [identify, List.foldl_cons, if_neg h.1]
    exact ih h.2

lemma identify_repositoryId {repos : List RepoSummary} {repo : RepoSummary} {a : App View}
    (hn : (repos.map RepoSummary.path).Nodup) (hrepo : repo ∈ repos)
    (ha : a.repositoryPath = repo.path) : (identify repos a).repositoryId = some repo.id := by
  induction repos generalizing a with
  | nil => simp at hrepo
  | cons r repos ih =>
    obtain ⟨hr, hn⟩ := List.nodup_cons.mp hn
    rw [identify, List.foldl_cons]
    rcases List.mem_cons.mp hrepo with rfl | hrepo
    · rw [if_pos ha]
      have hlast := identify_of_not_mem (a := { a with repositoryId := some repo.id })
        (fun h => hr (ha ▸ h))
      rw [identify] at hlast
      rw [hlast]
    · have hne : a.repositoryPath ≠ r.path := by
        rw [ha]
        exact fun he => hr (he ▸ List.mem_map_of_mem hrepo)
      rw [if_neg hne]
      exact ih hn hrepo ha

lemma setRepoId_eq {w : Tabs View Saved} {repo id : String}
    (hn : (w.projects.map App.repositoryPath).Nodup) :
    w.setRepoId repo id = { w with projects := w.projects.map (fun a =>
      if a.repositoryPath = repo then { a with repositoryId := some id } else a) } := by
  rw [setRepoId]
  cases hidx : w.indexOfRepo repo with
  | none =>
    have hnone := indexOfRepo_none hidx
    have hid : w.projects.map (fun a =>
        if a.repositoryPath = repo then { a with repositoryId := some id } else a) =
          w.projects := by
      refine (List.map_congr_left (fun a ha => if_neg ?_)).trans (List.map_id _)
      exact fun he => hnone (he ▸ List.mem_map_of_mem ha)
    rw [hid]
  | some index =>
    dsimp only
    rw [Keyed.modify_eq_map hn hidx]

lemma setRepoIds_eq (repos : List RepoSummary) : ∀ {w : Tabs View Saved},
    (w.projects.map App.repositoryPath).Nodup →
      repos.foldl (fun w repo => w.setRepoId repo.path repo.id) w =
        { w with projects := w.projects.map (identify repos) } := by
  induction repos with
  | nil =>
    intro w _
    have hid : w.projects.map (identify []) = w.projects := List.map_id _
    rw [List.foldl_nil, hid]
  | cons repo repos ih =>
    intro w hn
    have hpaths : (w.setRepoId repo.path repo.id).projects.map App.repositoryPath =
        w.projects.map App.repositoryPath := by
      rw [setRepoId_eq hn, List.map_map]
      refine List.map_congr_left (fun a _ => ?_)
      rw [Function.comp_apply]
      split_ifs <;> rfl
    rw [List.foldl_cons, ih (hpaths ▸ hn), setRepoId_eq hn]
    dsimp only
    rw [List.map_map]
    rfl

lemma Remembers.nodup {front old new : List (RepoSession Saved)} (h : Remembers front old new)
    (hn : (front.map RepoSession.repo).Nodup) :
    ((new.filter (fun s => s.repo ∈ front.map RepoSession.repo)).map RepoSession.repo).Nodup := by
  obtain ⟨rest, rfl, -, hrest⟩ := h
  have hnone : rest.filter (fun s => s.repo ∈ front.map RepoSession.repo) = [] :=
    List.filter_eq_nil_iff.mpr (fun s hs => by simpa using hrest s hs)
  have hsub := (List.take_sublist maxRemembered (front ++ rest)).filter
    (fun s => s.repo ∈ front.map RepoSession.repo)
  rw [List.filter_append, hnone, List.append_nil] at hsub
  exact hn.sublist ((hsub.trans List.filter_sublist).map _)

lemma Remembers.isPrefix {front old new : List (RepoSession Saved)} (h : Remembers front old new)
    (hfront : front.length ≤ maxRemembered) : front <+: new := by
  obtain ⟨rest, rfl, -, -⟩ := h
  rw [List.take_append, List.take_of_length_le hfront]
  exact List.prefix_append _ _

def closedBy (w : Tabs View Saved) (repos : List RepoSummary) : List (App View) :=
  w.projects.filter (fun a => a.repositoryPath ∉ repos.map RepoSummary.path)

lemma closedBy_paths (w : Tabs View Saved) (repos : List RepoSummary) :
    (w.closedBy repos).map App.repositoryPath = (w.projects.map App.repositoryPath).filter
      (fun path => path ∉ repos.map RepoSummary.path) := by
  rw [List.filter_map]
  rfl

lemma closedBy_nodup {w : Tabs View Saved} (repos : List RepoSummary)
    (hn : (w.projects.map App.repositoryPath).Nodup) :
    ((w.closedBy repos).map App.repositoryPath).Nodup :=
  hn.sublist (List.filter_sublist.map _)

lemma mem_closeAll_closedBy {save : View → Saved} {w : Tabs View Saved}
    {repos : List RepoSummary} (hn : (w.projects.map App.repositoryPath).Nodup) (a : App View) :
    a ∈ (w.closeAll save ((w.closedBy repos).map App.repositoryPath)).projects ↔
      a ∈ w.projects ∧ a.repositoryPath ∈ repos.map RepoSummary.path := by
  rw [closeAll_projects hn, List.mem_filter, closedBy_paths]
  refine and_congr_right (fun ha => ?_)
  have hpath := List.mem_map_of_mem (f := App.repositoryPath) ha
  rw [decide_eq_true_iff, List.mem_filter, not_and, decide_eq_true_iff, not_not]
  exact ⟨fun h => h hpath, fun h _ => h⟩

structure Gathered (save : View → Saved) (w t : Tabs View Saved) (repos : List RepoSummary) :
    Prop where
  nodup : (t.projects.map App.repositoryPath).Nodup
  mem : ∀ path, path ∈ repos.map RepoSummary.path ↔ path ∈ t.projects.map App.repositoryPath
  kept : ∀ a ∈ w.projects, a.repositoryPath ∈ repos.map RepoSummary.path →
    ∃ b ∈ t.projects, a.Same b
  remembered : t.remembered =
    (w.closeAll save ((w.closedBy repos).map App.repositoryPath)).remembered

lemma openMissing_gathers (save : View → Saved) (init : String → Option Saved → View)
    {w : Tabs View Saved} {repos : List RepoSummary}
    (hw : (w.projects.map App.repositoryPath).Nodup)
    (hrepos : (repos.map RepoSummary.path).Nodup) (hmax : repos.length ≤ maxProjects) :
    Gathered save w (openMissing init repos
      (w.closeAll save ((w.closedBy repos).map App.repositoryPath))) repos := by
  set left := w.closeAll save ((w.closedBy repos).map App.repositoryPath)
  have hleft : (left.projects.map App.repositoryPath).Nodup := by
    rw [closeAll_projects hw]
    exact hw.sublist (List.filter_sublist.map _)
  set new := repos.filter (fun repo => repo.path ∉ left.projects.map App.repositoryPath)
  have hnew : ∀ path, path ∈ new.map RepoSummary.path ↔
      path ∈ repos.map RepoSummary.path ∧ path ∉ left.projects.map App.repositoryPath := by
    refine fun path => ⟨fun h => ?_, fun ⟨h, hpath⟩ => ?_⟩
    · obtain ⟨repo, hrepo, rfl⟩ := List.mem_map.mp h
      obtain ⟨hmem, hnot⟩ := List.mem_filter.mp hrepo
      exact ⟨List.mem_map_of_mem hmem, of_decide_eq_true hnot⟩
    · obtain ⟨repo, hrepo, rfl⟩ := List.mem_map.mp h
      exact List.mem_map_of_mem (List.mem_filter.mpr ⟨hrepo, decide_eq_true hpath⟩)
  have hnodup : (left.projects.map App.repositoryPath ++ new.map RepoSummary.path).Nodup := by
    refine List.nodup_append.mpr ⟨hleft, hrepos.sublist (List.filter_sublist.map _), ?_⟩
    rintro path hpath _ hpath' rfl
    exact ((hnew _).mp hpath').2 hpath
  have hmem : ∀ path, path ∈ left.projects.map App.repositoryPath ++ new.map RepoSummary.path ↔
      path ∈ repos.map RepoSummary.path := by
    intro path
    rw [List.mem_append, hnew]
    constructor
    · rintro (h | h)
      · obtain ⟨a, ha, rfl⟩ := List.mem_map.mp h
        exact ((mem_closeAll_closedBy hw a).mp ha).2
      · exact h.1
    · exact fun h => (em _).imp_right (fun hnot => ⟨h, hnot⟩)
  have hroom : left.projects.length + new.length ≤ maxProjects := by
    have hsub := (List.subperm_of_subset hnodup (fun path => (hmem path).mp)).length_le
    simp only [List.length_append, List.length_map] at hsub
    exact hsub.trans hmax
  obtain ⟨hopened, hkept, hremembered⟩ := openMissing_opens init hrepos hroom
  refine ⟨?_, fun path => ?_, fun a ha hpath => ?_, hremembered⟩
  · rw [hopened]
    exact hnodup
  · rw [hopened]
    exact (hmem path).symm
  · exact hkept a ((mem_closeAll_closedBy hw a).mpr ⟨ha, hpath⟩)

lemma adopt_eq (save : View → Saved) (init : String → Option Saved → View)
    {w : Tabs View Saved} {repos : List RepoSummary}
    (hw : (w.projects.map App.repositoryPath).Nodup)
    (hrepos : (repos.map RepoSummary.path).Nodup) (hmax : repos.length ≤ maxProjects) :
    ∃ t : Tabs View Saved, Gathered save w t repos ∧
      (t.reorderTo (repos.map RepoSummary.path)).projects.map App.repositoryPath =
        repos.map RepoSummary.path ∧
      w.adopt save init repos = { t.reorderTo (repos.map RepoSummary.path) with
        projects := (t.reorderTo (repos.map RepoSummary.path)).projects.map (identify repos) } ∧
      t = openMissing init repos
        (w.closeAll save ((w.closedBy repos).map App.repositoryPath)) := by
  have hgathered := openMissing_gathers save init hw hrepos hmax
  have hpaths := reorderTo_paths hgathered.nodup hrepos hgathered.mem
  refine ⟨_, hgathered, hpaths, ?_, rfl⟩
  have hids := setRepoIds_eq repos (hpaths.symm ▸ hrepos)
  rw [adopt]
  dsimp only
  rw [← closedBy_paths]
  exact hids

theorem adopt_becomes_session_set (save : View → Saved) (init : String → Option Saved → View)
    (w : Tabs View Saved) (repos : List RepoSummary)
    (hw : (w.projects.map App.repositoryPath).Nodup)
    (hrepos : (repos.map RepoSummary.path).Nodup) (hmax : repos.length ≤ maxProjects) :
    let t := w.adopt save init repos
    let closed := w.closedBy repos
    t.projects.map (fun a => (a.repositoryPath, a.repositoryId)) =
      repos.map (fun repo => (repo.path, some repo.id)) ∧
    (∀ a ∈ w.projects, a.repositoryPath ∈ repos.map RepoSummary.path →
      ∃ b ∈ t.projects, a.Same b) ∧
    (closed = [] → t.remembered = w.remembered) ∧
    (closed ≠ [] → Remembers (closed.map (sessionOf save)).reverse w.remembered t.remembered) ∧
    (closed ≠ [] → closed.length ≤ maxRemembered →
      (closed.map (sessionOf save)).reverse <+: t.remembered) ∧
    (closed ≠ [] → ((t.remembered.filter
      (fun s => s.repo ∈ closed.map App.repositoryPath)).map RepoSession.repo).Nodup) ∧
    (closed ≠ [] ∨ w.remembered.length ≤ maxRemembered → t.remembered.length ≤ maxRemembered) ∧
    (t.active < t.projects.length ∨ t.projects = [] ∧ t.active = 0) ∧
    ((∀ repo ∈ repos, repo.path ∈ w.projects.map App.repositoryPath) → ∀ a,
      w.projects[w.active]? = some a → a.repositoryPath ∈ repos.map RepoSummary.path →
      ∃ b, t.projects[t.active]? = some b ∧ a.Same b ∧
        b.pendingMousePress = a.pendingMousePress) := by
  intro t closed
  obtain ⟨u, hgathered, hpaths, ht, hu⟩ := adopt_eq save init hw hrepos hmax
  have hclosed := closedBy_nodup repos hw
  have hopen : ∀ a ∈ closed, a ∈ w.projects := fun a ha => List.mem_of_mem_filter ha
  have hremembered : t.remembered =
      (w.closeAll save (closed.map App.repositoryPath)).remembered := by
    rw [show t = _ from ht]
    exact hgathered.remembered
  have hsome : closed ≠ [] →
      Remembers (closed.map (sessionOf save)).reverse w.remembered t.remembered := by
    intro hne
    rw [hremembered]
    exact closeAll_remembered hw hopen hclosed hne
  have hnone : closed = [] → t.remembered = w.remembered := by
    intro he
    rw [hremembered, he]
    rfl
  have hfront : (closed.map (sessionOf save)).reverse.map RepoSession.repo =
      (closed.map App.repositoryPath).reverse := by
    rw [List.map_reverse, List.map_map]
    rfl
  refine ⟨?_, fun a ha hpath => ?_, hnone, hsome, fun hne hle => ?_, fun hne => ?_,
    fun hle => ?_, ?_, fun hall a ha hpath => ?_⟩
  · rw [show t = _ from ht]
    dsimp only
    refine List.ext_getElem? (fun i => ?_)
    have hi := congrArg (fun l : List String => l[i]?) hpaths
    simp only [List.getElem?_map, Option.map_map] at hi ⊢
    cases hrepo : repos[i]? with
    | none =>
      rw [hrepo, Option.map_none, Option.map_eq_none_iff] at hi
      rw [hi]
      rfl
    | some repo =>
      rw [hrepo, Option.map_some, Option.map_eq_some_iff] at hi
      obtain ⟨a, ha, hpath⟩ := hi
      rw [ha, Option.map_some, Option.map_some, Function.comp_apply,
        (identify_same repos a).repositoryPath, hpath,
        identify_repositoryId hrepos (List.mem_of_getElem? hrepo) hpath]
  · obtain ⟨b, hb, hab⟩ := hgathered.kept a ha hpath
    rw [show t = _ from ht]
    exact ⟨_, List.mem_map_of_mem (reorderTo_mem hgathered.nodup hrepos hb),
      hab.trans (identify_same repos b)⟩
  · refine (hsome hne).isPrefix ?_
    rwa [List.length_reverse, List.length_map]
  · have hnodup := (hsome hne).nodup (hfront ▸ List.nodup_reverse.mpr hclosed)
    simpa only [hfront, List.mem_reverse] using hnodup
  · by_cases hne : closed = []
    · rw [hnone hne]
      exact hle.resolve_left (fun h => h hne)
    · exact (hsome hne).length_le
  · rw [show t = _ from ht]
    dsimp only
    rw [List.length_map, List.map_eq_nil_iff]
    exact reorderTo_active_in_range u _
  · have hkept : a.repositoryPath ∉ closed.map App.repositoryPath := by
      rw [closedBy_paths, List.mem_filter, not_and, decide_eq_true_iff, not_not]
      exact fun _ => hpath
    have hopened : u = w.closeAll save (closed.map App.repositoryPath) := by
      rw [hu]
      refine openMissing_of_open (fun repo hrepo => ?_)
      obtain ⟨b, hb, hbpath⟩ := List.mem_map.mp (hall repo hrepo)
      refine List.mem_map.mpr ⟨b, (mem_closeAll_closedBy hw b).mpr ⟨hb, ?_⟩, hbpath⟩
      exact hbpath ▸ List.mem_map_of_mem hrepo
    have hactive : u.projects[u.active]? = some a := by
      rw [hopened]
      exact closeAll_active ha hkept
    have hstill := reorderTo_active hgathered.nodup hrepos (hpaths.symm ▸ hrepos) hactive
    rw [show t = _ from ht]
    dsimp only
    rw [List.getElem?_map, hstill]
    exact ⟨_, rfl, identify_same repos a, identify_pendingMousePress repos a⟩

theorem adopt_becomes_session_set_mixed :
    let w : Tabs ℕ ℕ := { projects := [⟨"/a", none, none, none, 1⟩, ⟨"/b", none, none, none, 2⟩,
      ⟨"/c", none, none, none, 3⟩], active := 2, remembered := [⟨"/b", 9⟩, ⟨"/d", 4⟩] }
    let t := w.adopt id (fun _ saved => saved.getD 0) [⟨"c", "/c"⟩, ⟨"d", "/d"⟩, ⟨"a", "/a"⟩]
    t.active < t.projects.length ∨ t.projects = [] ∧ t.active = 0 := by
  intro w t
  exact (adopt_becomes_session_set id (fun _ saved => saved.getD 0) w
    [⟨"c", "/c"⟩, ⟨"d", "/d"⟩, ⟨"a", "/a"⟩] (by decide) (by decide)
    (by decide)).2.2.2.2.2.2.2.1

/-- What the file of an earlier run held is not shortened while nothing is closed. -/
theorem adopt_leaves_overlong_remembered :
    ¬ ∀ (w : Tabs Unit Unit) (repos : List RepoSummary),
      (w.projects.map App.repositoryPath).Nodup → (repos.map RepoSummary.path).Nodup →
      repos.length ≤ maxProjects →
      (w.adopt (fun _ => ()) (fun _ _ => ()) repos).remembered.length ≤ maxRemembered := by
  intro h
  have hlong := h { remembered := (List.range 51).map (fun i => ⟨toString i, ()⟩) } []
    List.nodup_nil List.nodup_nil (Nat.zero_le _)
  exact absurd hlong (by decide)

end Tabs

end

end Nightcrow.Workspace
