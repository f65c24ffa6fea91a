import Nightcrow.Library.Strip
import Nightcrow.Library.Text
import Nightcrow.Session.Catalog.Facade
import Nightcrow.Session.Prefs
import Nightcrow.Workspace.Tabs

/-! What a client asks of the session, whichever way it asks: the tabs of the session are a strip,
and every request is an operation on it. -/

namespace Nightcrow.Session

open Nightcrow.Library Nightcrow.Platform

structure WorkspaceState (Saved : Type) where
  repos : List String := []
  active : ℕ := 0
  sessions : List (Workspace.RepoSession Saved) := []

structure SessionState (Saved : Type) where
  catalog : Catalog
  prefs : ViewerPrefs
  persist : Bool
  /-- The workspace file, where there is one that can be read. -/
  file : Option (WorkspaceState Saved)

structure Surroundings where
  /-- The worktree of the directory a text names, if it names one. -/
  worktree : String → Option String
  resolveRepoPath : String → String
  /-- Whether the workspace file can be written. -/
  writable : Bool

inductive OpenError
  | emptyPath
  | notADirectory
  | tooMany
deriving DecidableEq

inductive CloseError
  | unknownRepo
deriving DecidableEq

inductive Request
  | openRepo (raw : String)
  | focusRepo (id : String)
  | closeRepo (id : String)
  | reorderRepos (ids : List String)
  | setAccent (accent : ℕ)

namespace SessionState

variable {Saved : Type} (os : Os) (around : Surroundings) (s : SessionState Saved)

def start (paths : List String) (prefs : ViewerPrefs) (persist : Bool)
    (file : Option (WorkspaceState Saved)) : SessionState Saved where
  -- `with_plugins`, as far as the tabs go
  catalog := Catalog.commit
    (Catalog.CatalogMembership.setPaths {} (paths.map around.resolveRepoPath))
  prefs
  persist
  file

def activeRepoFrom (stored : Option String) : Option String :=
  (stored.bind s.catalog.idOfPath).or (s.catalog.entries.head?.map Catalog.Member.id)

def activeRepo : Option String := s.activeRepoFrom s.prefs.activeRepo

def persistWorkspace : SessionState Saved :=
  if s.persist then
    let ws := s.file.getD {}
    let activePath := ws.repos[ws.active]?
    let repos := s.catalog.paths
    let active := (activePath.bind (fun path => repos.findIdx? (· = path))).getD 0
    if around.writable then { s with file := some { ws with repos, active } } else s
  else s

def setActiveRepo (path : String) : SessionState Saved :=
  { s with prefs := s.prefs.update os { activeRepo := some path } }

def setActiveRepoIf (expected : Option String) (path : String) : SessionState Saved :=
  { s with prefs := s.prefs.setActiveRepoIf expected path }

def openRepo (raw : String) : Except OpenError String × SessionState Saved :=
  if trim raw = "" then (.error .emptyPath, s)
  else
    match around.worktree (trim raw) with
    | none => (.error .notADirectory, s)
    | some resolved =>
      match s.catalog.addPath (around.resolveRepoPath resolved) Workspace.maxProjects with
      | (.tooMany, catalog) => (.error .tooMany, { s with catalog })
      | (.present id, catalog) =>
        let s := { s with catalog }
        let s :=
          match catalog.get id with
          | some entry => s.setActiveRepo os entry.path
          | none => s
        (.ok id, s.persistWorkspace around)

def focusRepo (id : String) : Except CloseError Unit × SessionState Saved :=
  match s.catalog.get id with
  | none => (.error .unknownRepo, s)
  | some entry => (.ok (), s.setActiveRepo os entry.path)

def successorOf (id : String) : Option String :=
  (s.catalog.entries.findIdx? (·.id = id)).bind
    (fun closing => (beside s.catalog.entries closing).map Catalog.Member.path)

def closeRepo (id : String) : Except CloseError Unit × SessionState Saved :=
  match s.catalog.get id with
  | none => (.error .unknownRepo, s)
  | some entry =>
    let focusBefore := s.prefs.activeRepo
    let successor := if s.activeRepoFrom focusBefore = some id then s.successorOf id else none
    let s := { s with catalog := s.catalog.removePath (around.resolveRepoPath entry.path) }
    let s :=
      match successor with
      | some path =>
        if (s.catalog.idOfPath path).isSome then s.setActiveRepoIf focusBefore path else s
      | none => s
    (.ok (), s.persistWorkspace around)

def pathOf (id : String) : Option String := (s.catalog.get id).map Catalog.Member.path

def reorderRepos (ids : List String) : SessionState Saved :=
  let focusBefore := s.prefs.activeRepo
  let front :=
    if (focusBefore.bind s.catalog.idOfPath).isNone then
      (s.activeRepoFrom focusBefore).bind s.pathOf
    else none
  let paths := ids.filterMap s.pathOf
  let s :=
    match front with
    | some path => s.setActiveRepoIf focusBefore path
    | none => s
  persistWorkspace around { s with catalog := s.catalog.reorder around.resolveRepoPath paths }

def setAccent (accent : ℕ) : SessionState Saved :=
  { s with prefs := s.prefs.update os { accent := some accent } }

def serve : Request → SessionState Saved
  | .openRepo raw => (s.openRepo os around raw).2
  | .focusRepo id => (s.focusRepo os id).2
  | .closeRepo id => (s.closeRepo around id).2
  | .reorderRepos ids => s.reorderRepos around ids
  | .setAccent accent => s.setAccent os accent

inductive Reaches : SessionState Saved → Prop
  | start (around : Surroundings) (paths : List String) (prefs : ViewerPrefs) (persist : Bool)
      (file : Option (WorkspaceState Saved)) : Reaches (start around paths prefs persist file)
  | serve (around : Surroundings) (s : SessionState Saved) (request : Request) (h : Reaches s) :
      Reaches (s.serve os around request)

end SessionState

/-! ## The catalog the operations keep -/

namespace Catalog

structure Tidy (c : Catalog) : Prop where
  closed : c.membership.Closed
  ordered : ∀ p ∈ c.membership.order, p ∈ c.paths

variable {c : Catalog} {path id : String} {max : ℕ} {m : CatalogMembership}

lemma paths_commit : (commit m).paths = m.served := paths_eq

lemma tidy_commit (hc : m.Closed) (ho : ∀ p ∈ m.order, p ∈ m.served) : Tidy (commit m) :=
  ⟨⟨hc.notAdded, hc.notOrdered⟩, fun p hp => paths_commit ▸ ho p hp⟩

lemma addPath_tidy (h : Tidy c) (path : String) (max : ℕ) :
    (path ∈ c.paths ∧ ∃ id d, c.addPath path max = (.present id, d) ∧ d.paths = c.paths ∧
      (⟨id, path⟩ : Member) ∈ d.entries ∧ Tidy d) ∨
    (path ∉ c.paths ∧ c.paths.length < max ∧ ∃ id d, c.addPath path max = (.present id, d) ∧
      d.paths = c.paths ++ [path] ∧ (⟨id, path⟩ : Member) ∈ d.entries ∧ Tidy d) ∨
    (path ∉ c.paths ∧ max ≤ c.paths.length ∧ c.addPath path max = (.tooMany, c)) := by
  have hserved : ∀ p ∈ c.membership.order, p ∈ c.membership.served :=
    fun p hp => paths_eq ▸ h.ordered p hp
  rcases c.membership.addPath_cases path max with ⟨id, hp, hid, he⟩ | ⟨hp, hm, he⟩ | ⟨hp, hm, he⟩
  · refine Or.inl ⟨paths_eq ▸ hp, id, commit c.membership.members.2, ?_, ?_, ?_, ?_⟩
    · rw [addPath, he]
    · rw [paths_commit, paths_eq]
      rfl
    · rw [mem_entries, paths_commit]
      exact ⟨hp, CatalogMembership.extends_members path id hid⟩
    · exact tidy_commit ⟨h.closed.notAdded, h.closed.notOrdered⟩ hserved
  all_goals
    have ho : path ∉ c.membership.order := fun ho => hp (hserved path ho)
    have hopened := CatalogMembership.served_opened h.closed hp ho
    have hnew : path ∉ c.paths := paths_eq ▸ hp
    rw [hopened, List.length_append, List.length_singleton, ← paths_eq] at hm
  · refine Or.inr (Or.inr ⟨hnew, by omega, ?_⟩)
    rw [addPath, he]
  · set n : CatalogMembership :=
      { c.membership.opened path with ids := (c.membership.members.2.ids.idFor path).2 } with hn
    refine Or.inr (Or.inl ⟨hnew, by omega, (c.membership.members.2.ids.idFor path).1, commit n,
      ?_, ?_, ?_, ?_⟩)
    · rw [addPath, he]
    · rw [paths_commit, paths_eq]
      exact hopened
    · rw [mem_entries, paths_commit]
      refine ⟨CatalogMembership.mem_served_opened, ?_⟩
      exact CatalogMembership.extends_members (c := n) path _ IdAssigner.lookup_idFor
    · refine tidy_commit (CatalogMembership.closed_opened h.closed _) (fun p hp => ?_)
      have hmem : p ∈ (c.membership.opened path).served := by
        rw [hopened]
        exact List.mem_append_left _ (hserved p hp)
      exact hmem

lemma mem_commit (hpaths : ∀ p ∈ c.paths, p ∈ m.served) (hids : m.ids.Extends c.membership.ids)
    {e : Member} (he : e ∈ c.entries) : e ∈ (commit m).entries := by
  obtain ⟨hpath, hid⟩ := mem_entries.mp he
  rw [mem_entries, paths_commit]
  exact ⟨hpaths _ hpath, CatalogMembership.extends_members _ _ (hids _ _ hid)⟩

lemma mem_addPath {e : Member} (he : e ∈ c.entries) : e ∈ (c.addPath path max).2.entries := by
  have hids : c.membership.members.2.ids.Extends c.membership.ids :=
    CatalogMembership.extends_members
  have hserved : ∀ p ∈ c.paths, p ∈ c.membership.served := fun p hp => paths_eq ▸ hp
  rcases c.membership.addPath_cases path max with ⟨id, -, -, hadd⟩ | ⟨-, -, hadd⟩ | ⟨hp, -, hadd⟩
  · rw [addPath, hadd]
    exact mem_commit (m := c.membership.members.2) hserved hids he
  · rw [addPath, hadd]
    exact he
  · rw [addPath, hadd]
    refine mem_commit (fun p hmem => ?_) (IdAssigner.extends_idFor.trans hids) he
    obtain ⟨hany, hshown⟩ := CatalogMembership.mem_served.mp (hserved p hmem)
    have hne : p ≠ path := fun hpath => hp (hpath ▸ hserved p hmem)
    refine CatalogMembership.mem_served.mpr ⟨?_, fun hhidden => hshown ?_⟩
    · refine hany.imp (fun hbase => ?_) (fun hadded => ?_)
      · by_cases hh : path ∈ c.membership.hidden
        · simp [CatalogMembership.opened, hh, hbase, hne]
        · simpa [CatalogMembership.opened, hh] using hbase
      · by_cases ha : path ∈ c.membership.added
        · simpa [CatalogMembership.opened, ha] using hadded
        · simp [CatalogMembership.opened, ha, hadded]
    · by_cases hh : path ∈ c.membership.hidden
      · exact (by simpa [CatalogMembership.opened, hh] using hhidden :
          p ∈ c.membership.hidden ∧ p ≠ path).1
      · simpa [CatalogMembership.opened, hh] using hhidden

lemma paths_removePath : (c.removePath path).paths = c.paths.filter (· ≠ path) := by
  rw [removePath, paths_commit, CatalogMembership.served_removePath, paths_eq]

lemma tidy_removePath (h : Tidy c) (path : String) : Tidy (c.removePath path) := by
  refine tidy_commit (CatalogMembership.closed_removePath h.closed) (fun p hp => ?_)
  obtain ⟨hp, hne⟩ := List.mem_filter.mp hp
  rw [CatalogMembership.served_removePath]
  exact List.mem_filter.mpr ⟨paths_eq ▸ h.ordered p hp, hne⟩

lemma paths_reorder (resolve : String → String) (desired : List String) :
    (c.reorder resolve desired).paths = arranged (desired.map resolve) c.paths := by
  rw [reorder, paths_commit, CatalogMembership.served_reorder, paths_eq]

lemma tidy_reorder (h : Tidy c) (resolve : String → String) (desired : List String) :
    Tidy (c.reorder resolve desired) := by
  refine tidy_commit (CatalogMembership.closed_reorder h.closed _) (fun p hp => ?_)
  rw [CatalogMembership.served_reorder]
  exact hp

lemma tidy_start (paths : List String) : Tidy (commit (CatalogMembership.setPaths {} paths)) := by
  refine tidy_commit ⟨?_, ?_⟩ ?_
  · exact fun p hp => absurd hp List.not_mem_nil
  · exact fun p hp => absurd hp List.not_mem_nil
  · exact fun p hp => absurd hp List.not_mem_nil

end Catalog

/-! ## The strip -/

def frontOf (paths : List String) (stored : Option String) : Option String :=
  (stored.filter (· ∈ paths)).or paths.head?

section

variable {paths : List String} {stored : Option String} {path : String}

lemma frontOf_stored (h : path ∈ paths) : frontOf paths (some path) = some path := by
  simp [frontOf, h]

lemma frontOf_fallback (h : ∀ p ∈ stored, p ∉ paths) : frontOf paths stored = paths.head? := by
  have hnone : stored.filter (· ∈ paths) = none :=
    Option.filter_eq_none_iff.mpr (fun p hp => by simpa using h p hp)
  rw [frontOf, hnone, Option.none_or]

lemma frontOf_cases (paths : List String) (stored : Option String) :
    (∃ p ∈ paths, stored = some p ∧ frontOf paths stored = some p) ∨
      (∀ p ∈ stored, p ∉ paths) ∧ frontOf paths stored = paths.head? := by
  by_cases h : ∃ p ∈ paths, stored = some p
  · obtain ⟨p, hp, rfl⟩ := h
    exact Or.inl ⟨p, hp, rfl, frontOf_stored hp⟩
  · have hnone : ∀ p ∈ stored, p ∉ paths := fun p hp hmem => h ⟨p, hmem, hp⟩
    exact Or.inr ⟨hnone, frontOf_fallback hnone⟩

lemma frontOf_mem (h : frontOf paths stored = some path) : path ∈ paths := by
  rcases frontOf_cases paths stored with ⟨p, hp, -, he⟩ | ⟨-, he⟩
  · rw [he, Option.some.injEq] at h
    exact h ▸ hp
  · exact List.mem_of_mem_head? (he ▸ h)

lemma frontOf_none (h : frontOf paths stored = none) : paths = [] := by
  rcases frontOf_cases paths stored with ⟨p, -, -, he⟩ | ⟨-, he⟩
  · rw [he] at h
    cases h
  · exact List.head?_eq_none_iff.mp (he ▸ h)

lemma frontOf_filter (h : frontOf paths stored ≠ some path) :
    frontOf (paths.filter (· ≠ path)) stored = frontOf paths stored := by
  rcases frontOf_cases paths stored with ⟨p, hp, rfl, he⟩ | ⟨hnone, he⟩
  · have hne : p ≠ path := fun hpath => h (by rw [he, hpath])
    rw [he]
    exact frontOf_stored (List.mem_filter.mpr ⟨hp, decide_eq_true hne⟩)
  · rw [he, frontOf_fallback (fun p hp hmem => hnone p hp (List.mem_of_mem_filter hmem))]
    rw [he] at h
    cases paths with
    | nil => rfl
    | cons first paths =>
      have hne : first ≠ path := fun hpath => h (by rw [hpath, List.head?_cons])
      rw [List.filter_cons_of_pos (by simpa using hne)]
      rfl

end

namespace SessionState

variable {Saved : Type} {os : Os} {around : Surroundings} {s : SessionState Saved}
  {stored : Option String} {path id : String}

lemma pathOf_eq : s.pathOf id = some path ↔ ⟨id, path⟩ ∈ s.catalog.entries := by
  rw [pathOf, Option.map_eq_some_iff]
  constructor
  · rintro ⟨m, hm, rfl⟩
    obtain ⟨hmem, rfl⟩ := Catalog.get_eq.mp hm
    exact hmem
  · exact fun hm => ⟨_, Catalog.get_eq.mpr ⟨hm, rfl⟩, rfl⟩

lemma pathOf_mem (h : s.pathOf id = some path) : path ∈ s.catalog.paths :=
  Catalog.path_of_entry (pathOf_eq.mp h)

lemma activeRepoFrom_pathOf :
    (s.activeRepoFrom stored).bind s.pathOf = frontOf s.catalog.paths stored := by
  rcases frontOf_cases s.catalog.paths stored with ⟨p, hp, rfl, he⟩ | ⟨hnone, he⟩
  · obtain ⟨id, hid⟩ := Catalog.entry_of_path hp
    rw [he, activeRepoFrom, Option.bind_some, Catalog.idOfPath_eq.mpr hid]
    exact pathOf_eq.mpr hid
  · have hid : stored.bind s.catalog.idOfPath = none := by
      rw [Option.bind_eq_none_iff]
      exact fun p hp => Catalog.idOfPath_eq_none.mpr (hnone p hp)
    rw [he, activeRepoFrom, hid, Option.none_or, Catalog.paths, List.head?_map]
    cases hhead : s.catalog.entries.head? with
    | none => rfl
    | some m => exact pathOf_eq.mpr (List.mem_of_mem_head? hhead)

lemma activeRepoFrom_eq (hid : s.pathOf id = some path) :
    s.activeRepoFrom stored = some id ↔ frontOf s.catalog.paths stored = some path := by
  rw [← activeRepoFrom_pathOf]
  constructor
  · intro h
    rw [h]
    exact hid
  · intro h
    obtain ⟨other, hother, hpath⟩ := Option.bind_eq_some_iff.mp h
    have hsame := Catalog.entry_eq_of_path (pathOf_eq.mp hpath) (pathOf_eq.mp hid) rfl
    exact hother.trans (congrArg (fun m => some m.id) hsame)

def strip (s : SessionState Saved) : Strip String where
  tabs := s.catalog.paths
  front := s.activeRepo.bind s.pathOf
  nodup := Catalog.nodup_paths
  front_mem := by
    intro p hp
    rw [activeRepo, activeRepoFrom_pathOf] at hp
    exact frontOf_mem hp
  front_none := by
    intro hf
    rw [activeRepo, activeRepoFrom_pathOf] at hf
    exact frontOf_none hf

lemma strip_front : s.strip.front = frontOf s.catalog.paths s.prefs.activeRepo :=
  activeRepoFrom_pathOf

lemma strip_eq {t : Strip String} (htabs : s.catalog.paths = t.tabs)
    (hfront : frontOf s.catalog.paths s.prefs.activeRepo = t.front) : s.strip = t :=
  Strip.ext htabs (strip_front.trans hfront)

@[simp] lemma persistWorkspace_catalog :
    (s.persistWorkspace around).catalog = s.catalog := by
  rw [persistWorkspace]
  split_ifs <;> rfl

@[simp] lemma persistWorkspace_prefs : (s.persistWorkspace around).prefs = s.prefs := by
  rw [persistWorkspace]
  split_ifs <;> rfl

lemma persistWorkspace_strip : (s.persistWorkspace around).strip = s.strip :=
  strip_eq (by rw [persistWorkspace_catalog]; rfl)
    (by rw [persistWorkspace_catalog, persistWorkspace_prefs, strip_front])

def asked (around : Surroundings) (s : SessionState Saved) : Request → Option (Strip.Op String)
  | .openRepo raw =>
    if trim raw = "" then none
    else ((around.worktree (trim raw)).map around.resolveRepoPath).bind (fun path =>
      if path ∈ s.strip.tabs ∨ s.strip.tabs.length < Workspace.maxProjects then
        some (.opened path)
      else none)
  | .focusRepo id => (s.pathOf id).map .focused
  | .closeRepo id => (s.pathOf id).map .closed
  | .reorderRepos ids => some (.arranged (ids.filterMap s.pathOf))
  | .setAccent _ => none

lemma ids_nodup : (s.catalog.entries.map Catalog.Member.id).Nodup := by
  refine List.Nodup.map_on (fun m hm n hn he => Catalog.entry_eq_of_id hm hn he) ?_
  exact List.Nodup.of_map Catalog.Member.path Catalog.nodup_paths

lemma successorOf_eq (hid : s.pathOf id = some path) :
    s.successorOf id = beside s.catalog.paths (s.catalog.paths.idxOf path) := by
  have hmem := pathOf_eq.mp hid
  have hpath : path ∈ s.catalog.paths := pathOf_mem hid
  have hat : s.catalog.entries[s.catalog.paths.idxOf path]? = some ⟨id, path⟩ := by
    have hget : s.catalog.paths[s.catalog.paths.idxOf path]? = some path := by
      rw [List.getElem?_eq_getElem (List.idxOf_lt_length_of_mem hpath), List.getElem_idxOf]
    nth_rewrite 1 [Catalog.paths] at hget
    rw [List.getElem?_map, Option.map_eq_some_iff] at hget
    obtain ⟨m, hm, hmpath⟩ := hget
    rw [hm, Catalog.entry_eq_of_path (List.mem_of_getElem? hm) hmem hmpath]
  have hplace : s.catalog.entries.findIdx? (·.id = id) = some (s.catalog.paths.idxOf path) :=
    Keyed.findIdx?_eq_some ids_nodup hat
  rw [successorOf, hplace, Option.bind_some, ← beside_map]
  rfl

/-! ## The requests -/

def answered (s : SessionState Saved) (op : Option (Strip.Op String)) : Strip String :=
  op.elim s.strip s.strip.apply

lemma openRepo_cases (os : Os) (around : Surroundings) (ht : s.catalog.Tidy) (raw : String) :
    (s.asked around (.openRepo raw) = none ∧ (s.openRepo os around raw).2 = s ∧
      ∃ e, (s.openRepo os around raw).1 = .error e) ∨
    ∃ id p c, s.asked around (.openRepo raw) = some (.opened p) ∧ c.Tidy ∧
      c.paths = (s.strip.opened p).tabs ∧ (⟨id, p⟩ : Catalog.Member) ∈ c.entries ∧
      s.openRepo os around raw =
        (.ok id, ({ s with catalog := c }.setActiveRepo os p).persistWorkspace around) := by
  rw [openRepo, asked]
  split_ifs with hraw
  · exact Or.inl ⟨rfl, rfl, _, rfl⟩
  cases hw : around.worktree (trim raw) with
  | none => exact Or.inl ⟨rfl, rfl, _, rfl⟩
  | some resolved =>
    rw [Option.map_some, Option.bind_some]
    dsimp only
    set p := around.resolveRepoPath resolved
    have hget : ∀ {id : String} {d : Catalog}, (⟨id, p⟩ : Catalog.Member) ∈ d.entries →
        d.get id = some ⟨id, p⟩ := fun hmem => Catalog.get_eq.mpr ⟨hmem, rfl⟩
    rcases Catalog.addPath_tidy ht p Workspace.maxProjects with
      ⟨hp, id, d, he, hpaths, hmem, hd⟩ | ⟨hp, hroom, id, d, he, hpaths, hmem, hd⟩ |
      ⟨hp, hfull, he⟩
    · refine Or.inr ⟨id, p, d, if_pos (Or.inl hp), hd, ?_, hmem, ?_⟩
      · rw [hpaths]
        exact (if_pos hp).symm
      · rw [he]
        dsimp only
        rw [hget hmem]
    · refine Or.inr ⟨id, p, d, if_pos (Or.inr hroom), hd, ?_, hmem, ?_⟩
      · rw [hpaths]
        exact (if_neg hp).symm
      · rw [he]
        dsimp only
        rw [hget hmem]
    · refine Or.inl ⟨if_neg ?_, ?_, ?_⟩
      · exact not_or.mpr ⟨hp, not_lt.mpr hfull⟩
      · rw [he]
      · rw [he]
        exact ⟨_, rfl⟩

lemma openRepo_strip (ht : s.catalog.Tidy) (raw : String) :
    (s.openRepo os around raw).2.strip = s.answered (s.asked around (.openRepo raw)) := by
  rcases openRepo_cases os around ht raw with
    ⟨hasked, he, -⟩ | ⟨id, p, c, hasked, -, hpaths, hmem, he⟩
  · rw [hasked, he]
    rfl
  · rw [hasked, he, persistWorkspace_strip]
    refine strip_eq hpaths ?_
    exact frontOf_stored (Catalog.path_of_entry hmem)

lemma focusRepo_strip (id : String) :
    (s.focusRepo os id).2.strip = s.answered (s.asked around (.focusRepo id)) := by
  rw [focusRepo, asked, pathOf]
  cases hget : s.catalog.get id with
  | none => rfl
  | some entry =>
    have hmem : entry.path ∈ s.catalog.paths := pathOf_mem (by rw [pathOf, hget]; rfl)
    refine strip_eq rfl ?_
    exact (frontOf_stored hmem).trans (if_pos hmem).symm

def closedPrefs (s : SessionState Saved) (id : String) (c : Catalog) : ViewerPrefs :=
  match if s.activeRepo = some id then s.successorOf id else none with
  | some path =>
    if (c.idOfPath path).isSome then s.prefs.setActiveRepoIf s.prefs.activeRepo path else s.prefs
  | none => s.prefs

lemma closeRepo_eq (hid : s.pathOf id = some path) :
    s.closeRepo around id = (.ok (), persistWorkspace around
      { s with
        catalog := s.catalog.removePath (around.resolveRepoPath path)
        prefs := s.closedPrefs id (s.catalog.removePath (around.resolveRepoPath path)) }) := by
  obtain ⟨entry, hget, rfl⟩ := Option.map_eq_some_iff.mp hid
  rw [closeRepo, hget, closedPrefs, activeRepo]
  dsimp only
  cases hsucc : if s.activeRepoFrom s.prefs.activeRepo = some id then s.successorOf id else none with
  | none => rfl
  | some next =>
    dsimp only
    split_ifs <;> rfl

lemma successor_eq (hid : s.pathOf id = some path) :
    (if s.activeRepo = some id then s.successorOf id else none) =
      if s.strip.front = some path then s.strip.frontWithout path else none := by
  have hfront : s.activeRepo = some id ↔ s.strip.front = some path := by
    rw [strip_front, activeRepo]
    exact activeRepoFrom_eq hid
  by_cases hf : s.strip.front = some path
  · rw [if_pos (hfront.mpr hf), if_pos hf, successorOf_eq hid, Strip.frontWithout, if_pos hf]
    rfl
  · rw [if_neg (fun h => hf (hfront.mp h)), if_neg hf]

lemma closedPrefs_front (hid : s.pathOf id = some path) :
    frontOf (s.catalog.removePath path).paths
        (s.closedPrefs id (s.catalog.removePath path)).activeRepo =
      s.strip.frontWithout path := by
  rw [closedPrefs, Catalog.paths_removePath, successor_eq hid]
  by_cases hf : s.strip.front = some path
  · rw [if_pos hf]
    cases hw : s.strip.frontWithout path with
    | none =>
      have hempty : s.catalog.paths.filter (· ≠ path) = [] :=
        List.filter_eq_nil_iff.mpr (fun p hp => by simpa using Strip.frontWithout_none hw p hp)
      rw [hempty, frontOf_fallback (fun _ _ => List.not_mem_nil)]
      rfl
    | some next =>
      obtain ⟨hmem, hne⟩ := Strip.frontWithout_mem hw
      have hkept : next ∈ s.catalog.paths.filter (· ≠ path) :=
        List.mem_filter.mpr ⟨hmem, decide_eq_true hne⟩
      have hserved : ((s.catalog.removePath path).idOfPath next).isSome := by
        rw [Option.isSome_iff_ne_none, ne_eq, Catalog.idOfPath_eq_none, not_not,
          Catalog.paths_removePath]
        exact hkept
      dsimp only
      rw [if_pos hserved, ViewerPrefs.setActiveRepoIf, if_pos rfl]
      exact frontOf_stored hkept
  · have hsame : s.strip.frontWithout path = s.strip.front := if_neg hf
    rw [if_neg hf, hsame, strip_front]
    rw [strip_front] at hf
    exact frontOf_filter hf

lemma closeRepo_strip (hid : s.pathOf id = some path) :
    (s.closeRepo around id).2.strip = s.strip.closed path ↔ around.resolveRepoPath path = path := by
  rw [closeRepo_eq hid, persistWorkspace_strip]
  constructor
  · intro he
    have htabs : (s.catalog.removePath (around.resolveRepoPath path)).paths =
        s.catalog.paths.filter (· ≠ path) := congrArg Strip.tabs he
    rw [Catalog.paths_removePath] at htabs
    by_contra hne
    have hmem : path ∈ s.catalog.paths.filter (· ≠ around.resolveRepoPath path) :=
      List.mem_filter.mpr ⟨pathOf_mem hid, decide_eq_true (fun h => hne h.symm)⟩
    rw [htabs] at hmem
    simp at hmem
  · intro he
    rw [he]
    exact strip_eq Catalog.paths_removePath (closedPrefs_front hid)

def pinned (s : SessionState Saved) : Option String :=
  if (s.prefs.activeRepo.bind s.catalog.idOfPath).isNone then
    (s.activeRepoFrom s.prefs.activeRepo).bind s.pathOf
  else none

lemma pinned_cases (s : SessionState Saved) :
    (∃ p ∈ s.catalog.paths, s.prefs.activeRepo = some p ∧ s.pinned = none) ∨
      (∀ p ∈ s.prefs.activeRepo, p ∉ s.catalog.paths) ∧ s.pinned = s.catalog.paths.head? := by
  rw [pinned, activeRepoFrom_pathOf]
  rcases frontOf_cases s.catalog.paths s.prefs.activeRepo with ⟨p, hp, hstored, -⟩ | ⟨hnone, he⟩
  · obtain ⟨id, hid⟩ := Catalog.entry_of_path hp
    refine Or.inl ⟨p, hp, hstored, if_neg ?_⟩
    rw [hstored, Option.bind_some, Catalog.idOfPath_eq.mpr hid]
    simp
  · refine Or.inr ⟨hnone, (if_pos ?_).trans he⟩
    rw [Option.isNone_iff_eq_none, Option.bind_eq_none_iff]
    exact fun p hp => Catalog.idOfPath_eq_none.mpr (hnone p hp)

def pinnedPrefs (s : SessionState Saved) : ViewerPrefs :=
  match s.pinned with
  | some path => s.prefs.setActiveRepoIf s.prefs.activeRepo path
  | none => s.prefs

lemma reorderRepos_eq (ids : List String) :
    s.reorderRepos around ids = persistWorkspace around
      { s with
        catalog := s.catalog.reorder around.resolveRepoPath (ids.filterMap s.pathOf)
        prefs := s.pinnedPrefs } := by
  have hpinned : (if (s.prefs.activeRepo.bind s.catalog.idOfPath).isNone then
      (s.activeRepoFrom s.prefs.activeRepo).bind s.pathOf else none) = s.pinned := rfl
  rw [reorderRepos, pinnedPrefs]
  rw [hpinned]
  cases s.pinned <;> rfl

lemma pinnedPrefs_front (order : List String) :
    frontOf (arranged order s.catalog.paths) s.pinnedPrefs.activeRepo = s.strip.front := by
  rw [pinnedPrefs, strip_front]
  rcases s.pinned_cases with ⟨p, hp, hstored, he⟩ | ⟨hnone, he⟩
  · rw [he, hstored, frontOf_stored hp]
    exact frontOf_stored (mem_arranged.mpr hp)
  · rw [he, frontOf_fallback hnone]
    cases hhead : s.catalog.paths.head? with
    | none =>
      have hempty : arranged order s.catalog.paths = [] := by
        rw [List.head?_eq_none_iff.mp hhead]
        exact List.eq_nil_iff_forall_not_mem.mpr (fun p hp => by simp at hp)
      rw [hempty, frontOf_fallback (fun _ _ => List.not_mem_nil)]
      rfl
    | some first =>
      dsimp only
      rw [ViewerPrefs.setActiveRepoIf, if_pos rfl]
      exact frontOf_stored (mem_arranged.mpr (List.mem_of_mem_head? hhead))

lemma reorderRepos_arranged (ids : List String) : (s.reorderRepos around ids).strip =
    s.strip.arranged ((ids.filterMap s.pathOf).map around.resolveRepoPath) := by
  rw [reorderRepos_eq, persistWorkspace_strip]
  refine strip_eq (Catalog.paths_reorder _ _) ?_
  dsimp only
  rw [Catalog.paths_reorder]
  exact pinnedPrefs_front _

lemma reorderRepos_strip (ids : List String) :
    (s.reorderRepos around ids).strip = s.answered (s.asked around (.reorderRepos ids)) ↔
      arranged ((ids.filterMap s.pathOf).map around.resolveRepoPath) s.strip.tabs =
        arranged (ids.filterMap s.pathOf) s.strip.tabs := by
  rw [reorderRepos_arranged]
  exact ⟨congrArg Strip.tabs, fun h => Strip.ext h rfl⟩

lemma setAccent_strip (accent : ℕ) :
    (s.setAccent os accent).strip = s.answered (s.asked around (.setAccent accent)) :=
  strip_eq rfl strip_front.symm

/-! ## The file -/

structure Written (old : Option (WorkspaceState Saved)) (tabs : List String)
    (new : WorkspaceState Saved) : Prop where
  repos : new.repos = tabs
  sessions : new.sessions = (old.getD {}).sessions
  active : new.repos[new.active]? = frontOf tabs ((old.getD {}).repos[(old.getD {}).active]?)

lemma persistWorkspace_file (hp : s.persist = true) (hw : around.writable = true) :
    ∃ ws, (s.persistWorkspace around).file = some ws ∧ Written s.file s.catalog.paths ws := by
  rw [persistWorkspace, if_pos hp]
  dsimp only
  rw [if_pos hw]
  refine ⟨_, rfl, rfl, rfl, ?_⟩
  dsimp only
  rcases frontOf_cases s.catalog.paths ((s.file.getD {}).repos[(s.file.getD {}).active]?) with
    ⟨p, hmem, hstored, he⟩ | ⟨hnone, he⟩
  · obtain ⟨i, hi⟩ := List.mem_iff_getElem?.mp hmem
    have hn : (s.catalog.paths.map id).Nodup := by
      rw [List.map_id]
      exact Catalog.nodup_paths
    have hplace : s.catalog.paths.findIdx? (fun q => q = p) = some i :=
      Keyed.findIdx?_eq_some hn hi
    rw [he, hstored, Option.bind_some, hplace]
    exact hi
  · have hplace : ((s.file.getD {}).repos[(s.file.getD {}).active]?).bind
        (fun path => s.catalog.paths.findIdx? (· = path)) = none := by
      rw [Option.bind_eq_none_iff]
      intro p hp
      rw [List.findIdx?_eq_none_iff]
      intro q hq
      exact decide_eq_false (fun hqp => hnone p hp (hqp ▸ hq))
    rw [he, hplace, List.head?_eq_getElem?]
    rfl

lemma persistWorkspace_kept (h : (s.persist && around.writable) = false) :
    s.persistWorkspace around = s := by
  rw [persistWorkspace]
  split_ifs with hp hw
  · simp [hp, hw] at h
  · rfl
  · rfl

lemma persistWorkspace_persist : (s.persistWorkspace around).persist = s.persist := by
  rw [persistWorkspace]
  split_ifs <;> rfl

def rewrites (around : Surroundings) (s : SessionState Saved) (request : Request) : Bool :=
  s.persist && around.writable && match s.asked around request with
    | some (.opened _) | some (.closed _) | some (.arranged _) => true
    | some (.focused _) | none => false

def FileFollows (rewrites : Bool) (s t : SessionState Saved) : Prop :=
  match rewrites with
  | true => ∃ ws, t.file = some ws ∧ Written s.file t.strip.tabs ws
  | false => t.file = s.file

lemma fileFollows_persist {t : SessionState Saved} (hfile : t.file = s.file)
    (hpersist : t.persist = s.persist) :
    FileFollows (s.persist && around.writable) s (t.persistWorkspace around) := by
  cases h : s.persist && around.writable with
  | false => exact congrArg file (persistWorkspace_kept (hpersist ▸ h)) |>.trans hfile
  | true =>
    obtain ⟨hp, hw⟩ := Bool.and_eq_true_iff.mp h
    obtain ⟨ws, hws, hwritten⟩ := persistWorkspace_file (s := t) (hpersist ▸ hp) hw
    refine ⟨ws, hws, ?_⟩
    rw [persistWorkspace_strip, ← hfile]
    exact hwritten

lemma file_serve (ht : s.catalog.Tidy) (request : Request) :
    FileFollows (s.rewrites around request) s (s.serve os around request) ∧
      (s.serve os around request).persist = s.persist := by
  cases request with
  | openRepo raw =>
    rw [rewrites, serve]
    rcases openRepo_cases os around ht raw with
      ⟨hasked, he, -⟩ | ⟨id, p, c, hasked, -, -, -, he⟩
    · rw [hasked, he, Bool.and_false]
      exact ⟨rfl, rfl⟩
    · rw [hasked, he, Bool.and_true]
      exact ⟨fileFollows_persist rfl rfl, persistWorkspace_persist⟩
  | focusRepo id =>
    rw [rewrites, serve, focusRepo, asked, pathOf]
    cases s.catalog.get id with
    | none =>
      rw [Option.map_none, Option.map_none, Bool.and_false]
      exact ⟨rfl, rfl⟩
    | some entry =>
      rw [Option.map_some, Option.map_some, Bool.and_false]
      exact ⟨rfl, rfl⟩
  | closeRepo id =>
    rw [rewrites, serve, asked]
    cases hid : s.pathOf id with
    | none =>
      rw [Option.map_none, Bool.and_false, closeRepo, Option.map_eq_none_iff.mp hid]
      exact ⟨rfl, rfl⟩
    | some path =>
      rw [Option.map_some, Bool.and_true, closeRepo_eq hid]
      exact ⟨fileFollows_persist rfl rfl, persistWorkspace_persist⟩
  | reorderRepos ids =>
    rw [rewrites, serve, asked, Bool.and_true, reorderRepos_eq]
    exact ⟨fileFollows_persist rfl rfl, persistWorkspace_persist⟩
  | setAccent accent =>
    rw [rewrites, asked, Bool.and_false]
    exact ⟨rfl, rfl⟩

lemma tidy_serve (ht : s.catalog.Tidy) (request : Request) :
    (s.serve os around request).catalog.Tidy := by
  cases request with
  | openRepo raw =>
    rw [serve]
    rcases openRepo_cases os around ht raw with
      ⟨-, he, -⟩ | ⟨id, p, c, -, hc, -, -, he⟩
    · rw [he]
      exact ht
    · rw [he, persistWorkspace_catalog]
      exact hc
  | focusRepo id =>
    rw [serve, focusRepo]
    cases s.catalog.get id <;> exact ht
  | closeRepo id =>
    rw [serve]
    cases hid : s.pathOf id with
    | none =>
      rw [closeRepo, Option.map_eq_none_iff.mp hid]
      exact ht
    | some path =>
      rw [closeRepo_eq hid, persistWorkspace_catalog]
      exact Catalog.tidy_removePath ht _
  | reorderRepos ids =>
    rw [serve, reorderRepos_eq, persistWorkspace_catalog]
    exact Catalog.tidy_reorder ht _ _
  | setAccent accent => exact ht

lemma Reaches.tidy (h : Reaches os s) : s.catalog.Tidy := by
  induction h with
  | start around paths prefs persist file => exact Catalog.tidy_start _
  | serve around s request _ ih => exact tidy_serve ih request

/-- When a request finds the tabs under the names they were opened by: a close its own, and a
reorder as far as the order it names goes. -/
def Works (around : Surroundings) (s : SessionState Saved) : Request → Prop
  | .closeRepo id => ∀ path, s.pathOf id = some path → around.resolveRepoPath path = path
  | .reorderRepos ids =>
    arranged ((ids.filterMap s.pathOf).map around.resolveRepoPath) s.strip.tabs =
      arranged (ids.filterMap s.pathOf) s.strip.tabs
  | _ => True

lemma works_of_resolved (request : Request)
    (h : ∀ path ∈ s.strip.tabs, around.resolveRepoPath path = path) : s.Works around request := by
  cases request with
  | closeRepo id => exact fun path hid => h path (pathOf_mem hid)
  | reorderRepos ids =>
    have hsame : (ids.filterMap s.pathOf).map around.resolveRepoPath = ids.filterMap s.pathOf := by
      refine (List.map_congr_left fun path hpath => ?_).trans (List.map_id _)
      obtain ⟨id, -, hid⟩ := List.mem_filterMap.mp hpath
      exact h path (pathOf_mem hid)
    rw [Works, hsame]
  | openRepo raw => trivial
  | focusRepo id => trivial
  | setAccent accent => trivial

lemma strip_answered (h : Reaches os s) (around : Surroundings) (request : Request) :
    (s.serve os around request).strip = s.answered (s.asked around request) ↔
      s.Works around request := by
  cases request with
  | openRepo raw => exact iff_of_true (openRepo_strip h.tidy raw) trivial
  | focusRepo id => exact iff_of_true (focusRepo_strip id) trivial
  | closeRepo id =>
    cases hid : s.pathOf id with
    | none =>
      refine iff_of_true ?_ (fun path hpath => ?_)
      · rw [serve, asked, hid, closeRepo, Option.map_eq_none_iff.mp hid]
        rfl
      · rw [hid] at hpath
        cases hpath
    | some path =>
      rw [asked, hid, serve]
      refine (closeRepo_strip hid).trans ⟨fun he p hpath => ?_, fun hall => hall path hid⟩
      rw [hid, Option.some.injEq] at hpath
      exact hpath ▸ he
  | reorderRepos ids => exact reorderRepos_strip ids
  | setAccent accent => exact iff_of_true (setAccent_strip accent) trivial

/-- Whichever requests came before, a request works the strip as it asks exactly when it finds the
tabs under their names; a reorder that does not keeps the front. The file follows the strip. -/
theorem requests_work_the_strip (h : Reaches os s) (around : Surroundings) (request : Request) :
    ((s.serve os around request).strip = s.answered (s.asked around request) ↔
      s.Works around request) ∧
    ((∀ path ∈ s.strip.tabs, around.resolveRepoPath path = path) → s.Works around request) ∧
    (∀ ids, request = .reorderRepos ids →
      (s.serve os around request).strip.front = s.strip.front ∧
        (s.serve os around request).strip.tabs.Perm s.strip.tabs) ∧
    FileFollows (s.rewrites around request) s (s.serve os around request) ∧
    (s.serve os around request).persist = s.persist := by
  refine ⟨strip_answered h around request, works_of_resolved request, ?_,
    file_serve h.tidy request⟩
  rintro ids rfl
  rw [serve, reorderRepos_arranged]
  exact ⟨rfl, perm_arranged s.strip.nodup⟩

theorem requests_work_the_strip_renamed :
    let around : Surroundings := ⟨some, fun path => path, true⟩
    let moved : Surroundings := ⟨some, fun path => if path = "/p/b" then "/p" else path, true⟩
    let s : SessionState Unit := start around ["/a", "/p/b", "/c"] {} true none
    (s.serve .unix around (.closeRepo "r1")).strip =
        s.answered (s.asked around (.closeRepo "r1")) ∧
      (s.serve .unix moved (.reorderRepos ["r2", "r1", "r3"])).strip ≠
        s.answered (s.asked moved (.reorderRepos ["r2", "r1", "r3"])) ∧
      (s.serve .unix moved (.reorderRepos ["r2", "r1", "r3"])).strip.front = some "/a" := by
  intro around moved s
  have hstart : Reaches .unix s := .start around ["/a", "/p/b", "/c"] {} true none
  have hclose := requests_work_the_strip hstart around (.closeRepo "r1")
  have hreorder := requests_work_the_strip hstart moved (.reorderRepos ["r2", "r1", "r3"])
  refine ⟨hclose.1.mpr (hclose.2.1 fun _ _ => rfl), fun hsame => ?_, ?_⟩
  · have hworks : arranged _ _ = arranged _ _ := hreorder.1.mp hsame
    exact absurd hworks (by decide)
  · exact (hreorder.2.2.1 _ rfl).1.trans (by decide)

end SessionState

end Nightcrow.Session
