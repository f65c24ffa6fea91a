import Nightcrow.Session.Catalog.Promises

/-! The catalog as its callers see it: every change of the membership is committed to the served
entries in one transaction. -/

namespace Nightcrow.Session.Catalog

open Nightcrow.Library

namespace IdAssigner

variable {ids : IdAssigner} {paths : List String}

lemma membersOf_assigned (h : ∀ p ∈ paths, ids.byPath.lookup p ≠ none) :
    (ids.membersOf paths).2 = ids := by
  induction paths with
  | nil => rfl
  | cons path paths ih =>
    obtain ⟨id, hid⟩ := Option.ne_none_iff_exists'.mp (h path List.mem_cons_self)
    have hfor : ids.idFor path = (id, ids) := idFor_of_lookup hid
    have hrest := ih (fun p hp => h p (List.mem_cons_of_mem _ hp))
    simpa [membersOf, hfor] using hrest

def memberFor (ids : IdAssigner) (path : String) : Member :=
  ⟨(ids.byPath.lookup path).getD "", path⟩

lemma membersOf_eq (h : ∀ p ∈ paths, ids.byPath.lookup p ≠ none) :
    (ids.membersOf paths).1 = paths.map ids.memberFor := by
  induction paths with
  | nil => rfl
  | cons path paths ih =>
    obtain ⟨id, hid⟩ := Option.ne_none_iff_exists'.mp (h path List.mem_cons_self)
    have hfor : ids.idFor path = (id, ids) := idFor_of_lookup hid
    have hrest := ih (fun p hp => h p (List.mem_cons_of_mem _ hp))
    simpa [membersOf, hfor, memberFor, hid] using hrest

end IdAssigner

namespace CatalogMembership

variable {c : CatalogMembership} {path : String}

lemma served_removePath : (c.removePath path).served = c.served.filter (· ≠ path) := by
  have hnatural : pushNew (· ∉ (c.removePath path).hidden) []
      ((c.removePath path).base ++ (c.removePath path).added) =
      (pushNew (· ∉ c.hidden) [] (c.base ++ c.added)).filter (· ≠ path) := by
    have happend : (c.removePath path).base ++ (c.removePath path).added =
        (c.base ++ c.added).filter (· ≠ path) := by
      rw [List.filter_append]
      rfl
    rw [happend, pushNew_filter, filter_pushNew, List.filter_nil]
    apply pushNew_congr
    intro p _
    by_cases hh : path ∈ c.hidden
    · simp [removePath, hh]
    · simp only [removePath, hh, if_false, List.mem_append, List.mem_singleton, not_or]
      tauto
  have hserved : (c.removePath path).served = arranged (c.order.filter (· ≠ path))
      ((pushNew (· ∉ c.hidden) [] (c.base ++ c.added)).filter (· ≠ path)) :=
    congrArg (arranged (c.order.filter (· ≠ path))) hnatural
  rw [hserved, ← filter_arranged]
  rfl

end CatalogMembership

end Nightcrow.Session.Catalog

namespace Nightcrow.Session

open Nightcrow.Library

structure Catalog where
  membership : Catalog.CatalogMembership
  assigned : ∀ p ∈ membership.served, membership.ids.byPath.lookup p ≠ none

namespace Catalog

def commit (m : CatalogMembership) : Catalog where
  membership := m.members.2
  assigned := by
    intro p hp
    obtain ⟨e, he, hpath⟩ : ∃ e ∈ m.members.1, e.path = p := by
      have hp : p ∈ m.members.1.map (·.path) := by
        rw [CatalogMembership.members_paths]
        exact hp
      exact List.mem_map.mp hp
    rw [← hpath, (CatalogMembership.mem_members.mp he).2]
    exact Option.some_ne_none _

variable (c : Catalog)

def entries : List Member := c.membership.members.1

def get (id : String) : Option Member := c.entries.find? (·.id = id)

def idOfPath (path : String) : Option String := (c.entries.find? (·.path = path)).map (·.id)

def paths : List String := c.entries.map (·.path)

def addPath (path : String) (max : ℕ) : AddMembership × Catalog :=
  match c.membership.addPath path max with
  | (.present id, m) => (.present id, commit m)
  | (.tooMany, _) => (.tooMany, c)

def removePath (path : String) : Catalog := commit (c.membership.removePath path)

-- `resolve` is `normalized`: the other two are called with paths it has been applied to
def reorder (resolve : String → String) (desired : List String) : Catalog :=
  commit (c.membership.reorder (desired.map resolve))

variable {c} {path id : String} {m : Member}

lemma paths_eq : c.paths = c.membership.served := CatalogMembership.members_paths

lemma nodup_paths : c.paths.Nodup := paths_eq ▸ CatalogMembership.nodup_served

lemma members_assigned : c.membership.members.2.ids = c.membership.ids :=
  IdAssigner.membersOf_assigned c.assigned

lemma mem_entries : m ∈ c.entries ↔
    m.path ∈ c.paths ∧ c.membership.ids.byPath.lookup m.path = some m.id := by
  rw [entries, CatalogMembership.mem_members, members_assigned, paths_eq]

lemma entry_of_path (h : path ∈ c.paths) : ∃ id, ⟨id, path⟩ ∈ c.entries := by
  obtain ⟨m, hm, rfl⟩ := List.mem_map.mp h
  exact ⟨m.id, hm⟩

lemma path_of_entry (h : m ∈ c.entries) : m.path ∈ c.paths := List.mem_map_of_mem h

lemma entry_eq_of_path {n : Member} (hm : m ∈ c.entries) (hn : n ∈ c.entries)
    (h : m.path = n.path) : m = n := by
  have hid : some m.id = some n.id := by
    rw [← (mem_entries.mp hm).2, ← (mem_entries.mp hn).2, h]
  cases m
  cases n
  simp_all

lemma entry_eq_of_id {n : Member} (hm : m ∈ c.entries) (hn : n ∈ c.entries) (h : m.id = n.id) :
    m = n := by
  refine entry_eq_of_path hm hn ?_
  exact c.membership.ids.distinct _ _ m.id (mem_entries.mp hm).2 (h ▸ (mem_entries.mp hn).2)

lemma get_eq : c.get id = some m ↔ m ∈ c.entries ∧ m.id = id := by
  constructor
  · intro h
    exact ⟨List.mem_of_find?_eq_some h, by simpa using List.find?_some h⟩
  · rintro ⟨hm, rfl⟩
    rcases h : c.get m.id with _ | n
    · have hnone := List.find?_eq_none.mp h m hm
      simp at hnone
    · have hid : n.id = m.id := by simpa using List.find?_some h
      rw [entry_eq_of_id (List.mem_of_find?_eq_some h) hm hid]

lemma idOfPath_eq : c.idOfPath path = some id ↔ ⟨id, path⟩ ∈ c.entries := by
  rw [idOfPath, Option.map_eq_some_iff]
  constructor
  · rintro ⟨n, hn, rfl⟩
    have hpath : n.path = path := by simpa using List.find?_some hn
    rw [← hpath]
    exact List.mem_of_find?_eq_some hn
  · intro hm
    rcases h : c.entries.find? (·.path = path) with _ | n
    · have hnone := List.find?_eq_none.mp h ⟨id, path⟩ hm
      simp at hnone
    · have hpath : n.path = path := by simpa using List.find?_some h
      exact ⟨n, h, congrArg Member.id (entry_eq_of_path (List.mem_of_find?_eq_some h) hm hpath)⟩

lemma idOfPath_eq_none : c.idOfPath path = none ↔ path ∉ c.paths := by
  rw [Option.eq_none_iff_forall_ne_some]
  constructor
  · intro h hp
    obtain ⟨id, hid⟩ := entry_of_path hp
    exact h id (idOfPath_eq.mpr hid)
  · intro h id hid
    exact h (path_of_entry (idOfPath_eq.mp hid))

lemma entries_eq : c.entries = c.paths.map c.membership.ids.memberFor := by
  rw [paths_eq]
  exact IdAssigner.membersOf_eq c.assigned

lemma entries_commit (c : Catalog) (n : CatalogMembership) (hids : n.ids = c.membership.ids)
    (hserved : ∀ p ∈ n.served, p ∈ c.paths) :
    (commit n).entries = n.served.map c.membership.ids.memberFor := by
  have hassigned : ∀ p ∈ n.served, n.ids.byPath.lookup p ≠ none := by
    intro p hp
    rw [hids]
    exact c.assigned p (paths_eq ▸ hserved p hp)
  have hkept : (commit n).membership.ids = c.membership.ids := by
    rw [← hids]
    exact IdAssigner.membersOf_assigned hassigned
  have hpaths : (commit n).paths = n.served := paths_eq
  rw [entries_eq, hkept, hpaths]

lemma mem_entries_reorder {resolve : String → String} {desired : List String} :
    m ∈ (c.reorder resolve desired).entries ↔ m ∈ c.entries := by
  have h : (c.reorder resolve desired).entries =
      (c.membership.reorder (desired.map resolve)).served.map c.membership.ids.memberFor := by
    apply entries_commit c (c.membership.reorder (desired.map resolve)) rfl
    intro p hp
    rw [CatalogMembership.served_reorder, mem_arranged] at hp
    exact paths_eq ▸ hp
  rw [h, entries_eq, paths_eq, CatalogMembership.served_reorder]
  simp

end Catalog

end Nightcrow.Session
