import Nightcrow.Session.Operations

/-! The client's half of the shared tabs: it takes over whatever strip the session reports. -/

namespace Nightcrow.Workspace

open Nightcrow.Library

variable {View Saved : Type}

def App.acknowledgeAttention (acknowledge : View → View) (a : App View) : App View :=
  { a with view := acknowledge a.view }

namespace Tabs

section

variable (acknowledge : View → View) (w : Tabs View Saved)

def switch (index : ℕ) : Tabs View Saved :=
  let acknowledged := App.acknowledgeAttention acknowledge
  if w.projects.length ≤ index then w
  else if index = w.active then { w with projects := w.projects.modify index acknowledged }
  else
    let projects := w.projects.modify w.active App.releasePendingPressInPlace
    { w with projects := projects.modify index acknowledged, active := index }

def focusRepo (repo : String) : Bool × Tabs View Saved :=
  match w.projects.findIdx? (fun a => a.repositoryId = some repo) with
  | some index => (true, w.switch acknowledge index)
  | none => (false, w)

def sync (save : View → Saved) (init : String → Option Saved → View) (repos : List RepoSummary)
    (active : Option String) : Tabs View Saved :=
  let w := w.adopt save init repos
  match active with
  | some active => (w.focusRepo acknowledge active).2
  | none => w

end

structure Shows (w : Tabs View Saved) (t : Strip String) : Prop where
  tabs : w.projects.map App.repositoryPath = t.tabs
  front : (w.projects[w.active]?).map App.repositoryPath = t.front

variable {w : Tabs View Saved} {t : Strip String} {save : View → Saved}
  {init : String → Option Saved → View} {acknowledge : View → View} {repos : List RepoSummary}

lemma Shows.nodup (h : w.Shows t) : (w.projects.map App.repositoryPath).Nodup :=
  h.tabs ▸ t.nodup

lemma switch_paths (index : ℕ) :
    (w.switch acknowledge index).projects.map App.repositoryPath =
      w.projects.map App.repositoryPath := by
  rw [switch]
  split_ifs
  · rfl
  · exact Keyed.map_modify (f := App.acknowledgeAttention acknowledge) (fun _ => rfl)
  · refine (Keyed.map_modify (f := App.acknowledgeAttention acknowledge) (fun _ => rfl)).trans ?_
    exact Keyed.map_modify (f := App.releasePendingPressInPlace) (fun _ => rfl)

lemma switch_active {index : ℕ} (h : index < w.projects.length) :
    (w.switch acknowledge index).active = index := by
  rw [switch, if_neg (not_le.mpr h)]
  dsimp only
  split_ifs with hactive
  · exact hactive.symm
  · rfl

lemma Shows.front_path (h : w.Shows t) : (w.projects.map App.repositoryPath)[w.active]? = t.front :=
  List.getElem?_map.trans h.front

lemma closeRepo_front {path : String} (h : w.Shows t) :
    ((w.closeRepo save path).projects[(w.closeRepo save path).active]?).map App.repositoryPath =
      t.frontWithout path := by
  rw [Strip.frontWithout]
  by_cases hf : t.front = some path
  · obtain ⟨a, ha, hpath⟩ := Option.map_eq_some_iff.mp (h.front.trans hf)
    have hidx : w.indexOfRepo path = some w.active := by
      rw [← hpath]
      exact Keyed.findIdx?_eq_some h.nodup ha
    obtain ⟨hlt, -⟩ := List.getElem?_eq_some_iff.mp ha
    have hplace : t.tabs.idxOf path = w.active := by
      have hget : t.tabs[w.active]? = some path := by
        rw [← h.tabs, h.front_path, hf]
      obtain ⟨hin, hat⟩ := List.getElem?_eq_some_iff.mp hget
      rw [← hat]
      exact t.nodup.idxOf_getElem _ _
    rw [if_pos hf, closeRepo, hidx]
    dsimp only
    rw [closeAt, ha]
    dsimp only
    rw [if_neg (lt_irrefl _), getElem?_eraseIdx_min hlt, ← beside_map, h.tabs, hplace]
  · rw [if_neg hf]
    cases hactive : w.projects[w.active]? with
    | some a =>
      have hpath : a.repositoryPath ≠ path := by
        rintro rfl
        exact hf (by rw [← h.front, hactive]; rfl)
      rw [closeRepo_active hactive hpath, ← h.front, hactive]
    | none =>
      have hnone : t.front = none := by rw [← h.front, hactive]; rfl
      have hempty : w.projects = [] := by
        rw [← List.map_eq_nil_iff (f := App.repositoryPath), h.tabs]
        exact t.front_none hnone
      have hclosed : (w.closeRepo save path).projects =
          w.projects.filter (fun a => a.repositoryPath ≠ path) := closeRepo_projects h.nodup
      rw [hempty, List.filter_nil] at hclosed
      rw [hclosed, hnone]
      rfl

def gathered (save : View → Saved) (init : String → Option Saved → View) (w : Tabs View Saved)
    (repos : List RepoSummary) : Tabs View Saved :=
  openMissing init repos (w.closeAll save ((w.closedBy repos).map App.repositoryPath))

lemma adopt_paths (hw : (w.projects.map App.repositoryPath).Nodup)
    (hrepos : (repos.map RepoSummary.path).Nodup) (hmax : repos.length ≤ maxProjects) :
    (w.adopt save init repos).projects.map App.repositoryPath = repos.map RepoSummary.path := by
  obtain ⟨u, -, hpaths, hadopt, -⟩ := adopt_eq save init hw hrepos hmax
  rw [hadopt]
  dsimp only
  rw [List.map_map]
  refine (List.map_congr_left (fun a _ => ?_)).trans hpaths
  exact (identify_same repos a).repositoryPath

lemma adopt_shows (hw : (w.projects.map App.repositoryPath).Nodup)
    (hrepos : repos.map RepoSummary.path = t.tabs) (hmax : repos.length ≤ maxProjects)
    (hfront : ((w.gathered save init repos).projects[(w.gathered save init repos).active]?).map
      App.repositoryPath = t.front) :
    (w.adopt save init repos).Shows t := by
  have hnodup : (repos.map RepoSummary.path).Nodup := hrepos ▸ t.nodup
  obtain ⟨u, hgathered, hpaths, hadopt, hu⟩ := adopt_eq save init hw hnodup hmax
  rw [gathered, ← hu] at hfront
  constructor
  · rw [adopt_paths hw hnodup hmax, hrepos]
  · rw [hadopt]
    dsimp only
    rw [List.getElem?_map, Option.map_map]
    have hidentify : App.repositoryPath ∘ identify repos =
        (App.repositoryPath : App View → String) :=
      funext (fun a => (identify_same repos a).repositoryPath)
    rw [hidentify]
    cases hactive : u.projects[u.active]? with
    | some a =>
      rw [reorderTo_active hgathered.nodup hnodup (hpaths.symm ▸ hnodup) hactive, ← hfront, hactive]
    | none =>
      have hnone : t.front = none := by rw [← hfront, hactive]; rfl
      have hempty : (u.reorderTo (repos.map RepoSummary.path)).projects = [] := by
        rw [← List.map_eq_nil_iff (f := App.repositoryPath), hpaths, hrepos]
        exact t.front_none hnone
      rw [hempty, hnone]
      rfl

lemma gathered_of_open (hw : (w.projects.map App.repositoryPath).Nodup)
    (h : ∀ path ∈ repos.map RepoSummary.path, path ∈ w.projects.map App.repositoryPath) :
    w.gathered save init repos = w.closeAll save ((w.closedBy repos).map App.repositoryPath) := by
  refine openMissing_of_open (fun repo hrepo => ?_)
  have hpath := List.mem_map_of_mem (f := RepoSummary.path) hrepo
  obtain ⟨a, ha, he⟩ := List.mem_map.mp (h _ hpath)
  refine List.mem_map.mpr ⟨a, (mem_closeAll_closedBy hw a).mpr ⟨ha, ?_⟩, he⟩
  rw [he]
  exact hpath

lemma closeAll_nil (w : Tabs View Saved) : w.closeAll save [] = w := rfl

lemma closedBy_nil (h : ∀ path ∈ w.projects.map App.repositoryPath,
    path ∈ repos.map RepoSummary.path) : (w.closedBy repos).map App.repositoryPath = [] := by
  rw [closedBy_paths, List.filter_eq_nil_iff]
  exact fun path hpath hnot => of_decide_eq_true hnot (h path hpath)

lemma gathered_same (hw : (w.projects.map App.repositoryPath).Nodup)
    (h : ∀ path, path ∈ repos.map RepoSummary.path ↔ path ∈ w.projects.map App.repositoryPath) :
    w.gathered save init repos = w := by
  rw [gathered_of_open hw (fun path => (h path).mp), closedBy_nil (fun path => (h path).mpr),
    closeAll_nil]

lemma gathered_closed {path : String} (hw : (w.projects.map App.repositoryPath).Nodup)
    (hpath : path ∈ w.projects.map App.repositoryPath)
    (h : repos.map RepoSummary.path =
      (w.projects.map App.repositoryPath).filter (· ≠ path)) :
    w.gathered save init repos = w.closeRepo save path := by
  rw [gathered_of_open hw (fun q hq => List.mem_of_mem_filter (h ▸ hq))]
  have hone : (w.closedBy repos).map App.repositoryPath = [path] := by
    rw [closedBy_paths, h]
    calc (w.projects.map App.repositoryPath).filter
          (fun q => q ∉ (w.projects.map App.repositoryPath).filter (· ≠ path))
        = (w.projects.map App.repositoryPath).filter (· == path) := by
          refine List.filter_congr (fun q hq => ?_)
          simp [List.mem_filter, hq, beq_eq_decide]
      _ = [path] := by
          rw [List.filter_beq, List.count_eq_one_of_mem hw hpath]
          rfl
  rw [hone]
  rfl

lemma gathered_opened {path : String} (hpath : path ∉ w.projects.map App.repositoryPath)
    (hmax : repos.length ≤ maxProjects)
    (h : repos.map RepoSummary.path = w.projects.map App.repositoryPath ++ [path]) :
    ((w.gathered save init repos).projects[(w.gathered save init repos).active]?).map
      App.repositoryPath = some path := by
  obtain ⟨before, rest, rfl, hbefore, hrest⟩ := List.map_eq_append_iff.mp h
  obtain ⟨repo, rfl, hrepo⟩ := List.map_eq_singleton_iff.mp hrest
  have hkept : (w.closedBy (before ++ [repo])).map App.repositoryPath = [] := by
    refine closedBy_nil (fun q hq => ?_)
    rw [h]
    exact List.mem_append_left _ hq
  have hroom : w.projects.length < maxProjects := by
    have hlength := congrArg List.length h
    simp only [List.length_map, List.length_append, List.length_singleton] at hlength hmax
    omega
  have hopens : w.gathered save init (before ++ [repo]) =
      (w.add { repositoryPath := repo.path, view := init repo.path (w.sessionFor repo.path) }).2 := by
    rw [gathered, hkept, closeAll_nil]
    have hskips : ∀ l : List RepoSummary, (∀ r ∈ l, r.path ∈ w.projects.map App.repositoryPath) →
        openMissing init (l ++ [repo]) w = openMissing init [repo] w := by
      intro l hl
      induction l with
      | nil => rfl
      | cons r l ih =>
        rw [List.cons_append, openMissing,
          if_pos (indexOfRepo_isSome.mpr (hl r (List.mem_cons_self ..)))]
        exact ih (fun q hq => hl q (List.mem_cons_of_mem _ hq))
    rw [hskips before (fun r hr => hbefore ▸ List.mem_map_of_mem hr), openMissing, if_neg, if_neg]
    · rfl
    · simpa [isFull] using hroom
    · rw [indexOfRepo_isSome, hrepo]
      exact hpath
  rw [hopens, add, if_neg (by omega)]
  dsimp only
  rw [List.getElem?_append_right (by rw [List.length_modify]), List.length_modify, Nat.sub_self]
  exact congrArg some hrepo

lemma adopt_ids (hw : (w.projects.map App.repositoryPath).Nodup)
    (hrepos : (repos.map RepoSummary.path).Nodup) (hmax : repos.length ≤ maxProjects) :
    (w.adopt save init repos).projects.map App.repositoryId =
      repos.map (fun repo => some repo.id) := by
  obtain ⟨u, -, hpaths, hadopt, -⟩ := adopt_eq save init hw hrepos hmax
  set named := fun path => (repos.find? (fun repo => repo.path = path)).map RepoSummary.id
  have hnamed : ∀ repo ∈ repos, named repo.path = some repo.id := fun repo hrepo =>
    congrArg (Option.map RepoSummary.id) (Keyed.find?_eq_some hrepos hrepo)
  have hopen : ∀ a ∈ (u.reorderTo (repos.map RepoSummary.path)).projects,
      (identify repos a).repositoryId = named a.repositoryPath := by
    intro a ha
    have hpath := List.mem_map_of_mem (f := App.repositoryPath) ha
    rw [hpaths] at hpath
    obtain ⟨repo, hrepo, he⟩ := List.mem_map.mp hpath
    rw [identify_repositoryId hrepos hrepo he.symm, ← he, hnamed repo hrepo]
  rw [hadopt]
  calc ((u.reorderTo (repos.map RepoSummary.path)).projects.map (identify repos)).map
          App.repositoryId
      = (u.reorderTo (repos.map RepoSummary.path)).projects.map
          (fun a => named a.repositoryPath) := by
        rw [List.map_map]
        exact List.map_congr_left hopen
    _ = (repos.map RepoSummary.path).map named :=
        (List.map_map.symm.trans (congrArg (List.map named) hpaths))
    _ = repos.map (fun repo => some repo.id) := by
        rw [List.map_map]
        exact List.map_congr_left hnamed

def Settles (t : Strip String) : Strip.Op String → Prop
  | .opened path => path ∉ t.tabs
  | .focused path => t.front = some path
  | .closed path => path ∈ t.tabs
  | .arranged _ => True

lemma adopt_simulates {op : Strip.Op String} (h : w.Shows t) (hop : Settles t op)
    (hrepos : repos.map RepoSummary.path = (t.apply op).tabs) (hmax : repos.length ≤ maxProjects) :
    (w.adopt save init repos).Shows (t.apply op) := by
  refine adopt_shows h.nodup hrepos hmax ?_
  have hkept : ∀ r : Strip String, r.front = t.front → repos.map RepoSummary.path = r.tabs →
      (∀ path, path ∈ r.tabs ↔ path ∈ t.tabs) →
      ((w.gathered save init repos).projects[(w.gathered save init repos).active]?).map
        App.repositoryPath = r.front := by
    intro r hfront htabs hmem
    rw [gathered_same h.nodup (fun path => by rw [htabs, h.tabs, hmem]), h.front, hfront]
  cases op with
  | opened path =>
    have hnew : path ∉ w.projects.map App.repositoryPath := h.tabs ▸ hop
    refine gathered_opened hnew hmax ?_
    rw [hrepos, h.tabs]
    exact if_neg hop
  | focused path =>
    refine hkept _ ?_ hrepos (fun _ => Iff.rfl)
    exact (if_pos (t.front_mem path hop)).trans (Eq.symm hop)
  | closed path =>
    have hopen : path ∈ w.projects.map App.repositoryPath := h.tabs ▸ hop
    rw [gathered_closed h.nodup hopen (by rw [hrepos, h.tabs]; rfl)]
    exact closeRepo_front h
  | arranged order => exact hkept _ rfl hrepos (fun _ => mem_arranged)

end Tabs

end Nightcrow.Workspace

namespace Nightcrow.Session.SessionState

open Nightcrow.Library Nightcrow.Platform Nightcrow.Workspace

variable {View Saved : Type} {os : Os} {s : SessionState Saved} {w : Tabs View Saved}

def listSessionRepos (s : SessionState Saved) : List RepoSummary :=
  s.catalog.entries.map (fun m => ⟨m.id, m.path⟩)

lemma listSessionRepos_paths : s.listSessionRepos.map RepoSummary.path = s.strip.tabs :=
  List.map_map

lemma listSessionRepos_length : s.listSessionRepos.length = s.strip.tabs.length := by
  rw [← listSessionRepos_paths, List.length_map]

variable (save : View → Saved) (init : String → Option Saved → View) (acknowledge : View → View)

lemma pathOf_activeRepo {id : String} (h : s.activeRepo = some id) :
    ∃ path, s.pathOf id = some path := by
  rw [← Option.isSome_iff_exists, Option.isSome_iff_ne_none]
  intro hnone
  have hfront : s.strip.front = none := by
    change s.activeRepo.bind s.pathOf = none
    rw [h, Option.bind_some, hnone]
  have hempty : s.catalog.entries = [] := List.map_eq_nil_iff.mp (s.strip.front_none hfront)
  rw [activeRepo, activeRepoFrom, hempty, List.head?_nil, Option.map_none, Option.or_none,
    Option.bind_eq_some_iff] at h
  obtain ⟨path, -, hid⟩ := h
  have hmem := Catalog.idOfPath_eq.mp hid
  rw [hempty] at hmem
  exact List.not_mem_nil hmem

lemma sync_shows (hw : (w.projects.map App.repositoryPath).Nodup)
    (hmax : s.strip.tabs.length ≤ maxProjects) :
    (w.sync acknowledge save init s.listSessionRepos s.activeRepo).Shows s.strip := by
  have hnodup : (s.listSessionRepos.map RepoSummary.path).Nodup :=
    listSessionRepos_paths (s := s) ▸ s.strip.nodup
  have hlength : s.listSessionRepos.length ≤ maxProjects := listSessionRepos_length (s := s) ▸ hmax
  set v := w.adopt save init s.listSessionRepos with hv
  have hids : v.projects.map App.repositoryId =
      (s.catalog.entries.map Catalog.Member.id).map some := by
    rw [hv, Tabs.adopt_ids hw hnodup hlength, listSessionRepos, List.map_map, List.map_map]
    rfl
  have hpaths : v.projects.map App.repositoryPath = s.strip.tabs :=
    (Tabs.adopt_paths hw hnodup hlength).trans listSessionRepos_paths
  cases hactive : s.activeRepo with
  | none =>
    have hnone : s.strip.front = none := by
      change s.activeRepo.bind s.pathOf = none
      rw [hactive]
      rfl
    have hempty : v.projects = [] := by
      rw [← List.map_eq_nil_iff (f := App.repositoryPath), hpaths]
      exact s.strip.front_none hnone
    refine ⟨hpaths, ?_⟩
    change (v.projects[v.active]?).map App.repositoryPath = _
    rw [hempty, hnone]
    rfl
  | some id =>
    obtain ⟨path, hpath⟩ := pathOf_activeRepo hactive
    have hfront : s.strip.front = some path := by
      change s.activeRepo.bind s.pathOf = _
      rw [hactive]
      exact hpath
    obtain ⟨i, hi⟩ := List.mem_iff_getElem?.mp (pathOf_eq.mp hpath)
    obtain ⟨a, ha, hid⟩ : ∃ a, v.projects[i]? = some a ∧ a.repositoryId = some id := by
      rw [← Option.map_eq_some_iff, ← List.getElem?_map, hids, List.map_map, List.getElem?_map, hi]
      rfl
    have hplace : v.projects.findIdx? (fun b => b.repositoryId = some id) = some i := by
      rw [← hid]
      refine Keyed.findIdx?_eq_some ?_ ha
      rw [hids]
      exact ids_nodup.map (Option.some_injective _)
    have hfocus : w.sync acknowledge save init s.listSessionRepos (some id) =
        v.switch acknowledge i := by
      change (v.focusRepo acknowledge id).2 = _
      rw [Tabs.focusRepo, hplace]
    have hat : s.strip.tabs[i]? = some path := by
      change (s.catalog.entries.map Catalog.Member.path)[i]? = _
      rw [List.getElem?_map, hi]
      rfl
    obtain ⟨hlt, -⟩ := List.getElem?_eq_some_iff.mp ha
    rw [hfocus]
    refine ⟨(Tabs.switch_paths i).trans hpaths, ?_⟩
    rw [← List.getElem?_map, Tabs.switch_paths, Tabs.switch_active hlt, hpaths, hat, hfront]

def Settles (around : Surroundings) (s : SessionState Saved) (request : Request) : Prop :=
  (∀ op, s.asked around request = some op → Tabs.Settles s.strip op) ∧
    ∀ id path, request = .closeRepo id → s.pathOf id = some path →
      around.resolveRepoPath path = path

/-- Once a frame of the session is taken over, the tabs are its strip; and where no other tab was
brought to the front, taking over the repositories alone has moved the front the same way. -/
theorem tabs_follow_the_session (h : Reaches os s) (around : Surroundings) (request : Request)
    (hw : (w.projects.map App.repositoryPath).Nodup)
    (hmax : (s.serve os around request).strip.tabs.length ≤ maxProjects) :
    let t := s.serve os around request
    (w.sync acknowledge save init t.listSessionRepos t.activeRepo).Shows t.strip ∧
      (w.Shows s.strip → s.Settles around request →
        (w.adopt save init t.listSessionRepos).Shows t.strip) := by
  intro t
  refine ⟨sync_shows save init acknowledge hw hmax, ?_⟩
  rintro hshows ⟨hsettles, hclose⟩
  have hlength : t.listSessionRepos.length ≤ maxProjects := listSessionRepos_length (s := t) ▸ hmax
  have hrepos := listSessionRepos_paths (s := t)
  -- the same tabs in whatever order: nothing opens or closes, and the front is found again
  have hkept : t.strip.front = s.strip.front → (∀ p, p ∈ t.strip.tabs ↔ p ∈ s.strip.tabs) →
      (w.adopt save init t.listSessionRepos).Shows t.strip := by
    intro hfront hmem
    refine Tabs.adopt_shows hshows.nodup hrepos hlength ?_
    rw [Tabs.gathered_same hshows.nodup, hshows.front, hfront]
    intro path
    rw [hrepos, hshows.tabs, hmem]
  by_cases hreorder : ∃ ids, request = .reorderRepos ids
  · obtain ⟨ids, rfl⟩ := hreorder
    have hstrip : t.strip = s.strip.arranged _ := reorderRepos_arranged ids
    refine hkept ?_ (fun p => ?_)
    · rw [hstrip]
      rfl
    · rw [hstrip]
      exact mem_arranged
  · have hworks : s.Works around request := by
      cases request with
      | closeRepo id => exact fun path hid => hclose id path rfl hid
      | reorderRepos ids => exact absurd ⟨ids, rfl⟩ hreorder
      | openRepo | focusRepo | setAccent => trivial
    have hanswered : t.strip = s.answered (s.asked around request) :=
      (strip_answered h around request).mpr hworks
    cases hasked : s.asked around request with
    | none =>
      rw [hasked] at hanswered
      exact hkept (congrArg Strip.front hanswered) (fun p => by rw [hanswered]; rfl)
    | some op =>
      rw [hasked] at hanswered
      rw [hanswered] at hrepos ⊢
      exact Tabs.adopt_simulates hshows (hsettles op hasked) hrepos hlength

theorem tabs_follow_the_session_closed :
    let around : Surroundings := ⟨some, fun path => path, true⟩
    let s : SessionState Unit := start around ["/a", "/b", "/c"] {} true none
    let t := s.serve .unix around (.closeRepo "r1")
    let w : Tabs Unit Unit := { projects := [⟨"/a", none, none, none, ()⟩,
      ⟨"/b", none, none, none, ()⟩, ⟨"/c", none, none, none, ()⟩] }
    (w.sync (fun v => v) (fun v => v) (fun _ _ => ()) t.listSessionRepos t.activeRepo).Shows
        t.strip ∧
      (w.adopt (fun v => v) (fun _ _ => ()) t.listSessionRepos).Shows t.strip := by
  intro around s t w
  have hstart : Reaches .unix s := .start around ["/a", "/b", "/c"] {} true none
  have hfollows := tabs_follow_the_session (fun v => v) (fun _ _ => ()) (fun v => v) hstart around
    (.closeRepo "r1") (w := w) (by decide) (by decide)
  refine ⟨hfollows.1, hfollows.2 ⟨by decide, by decide⟩ ⟨fun op hop => ?_, fun _ _ _ _ => rfl⟩⟩
  have hpath : s.pathOf "r1" = some "/a" := by decide
  rw [asked, hpath] at hop
  obtain rfl := Option.some.inj hop
  exact (by decide : "/a" ∈ s.strip.tabs)

end Nightcrow.Session.SessionState
