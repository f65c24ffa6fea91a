import Nightcrow.Session.Operations

/-! The operations on the session as calls of many threads, each of which reaches the catalog and
the preferences one locked access at a time. -/

namespace Nightcrow.Session

open Nightcrow.Library Nightcrow.Platform

structure Shared where
  catalog : Catalog
  stored : Option String

inductive Call
  | adding (path : String)
  | looking (id : String)
  | focusing (id : String)
  | fronting (path : String)
  | closing (id : String)
  | closeRead (id path : String)
  | closeServed (id path : String) (focusBefore : Option String)
  | closeFallback (id path : String) (focusBefore : Option String)
  | closeBeside (id path : String) (focusBefore : Option String)
  | closeRemove (path : String) (focusBefore successor : Option String)
  | closeStill (focusBefore : Option String) (successor : String)
  | closeFront (focusBefore : Option String) (successor : String)
  | reordering (ids : List String)
  | reorderServed (ids : List String) (focusBefore : Option String)
  | reorderFrom (ids : List String) (focusBefore : Option String)
  | reorderFallback (ids : List String) (focusBefore : Option String)
  | reorderName (ids : List String) (focusBefore : Option String) (id : String)
  | reorderPaths (ids : List String) (focusBefore front : Option String) (paths : List String)
  | reorderFront (focusBefore : Option String) (front : String) (paths : List String)
  | reorderMove (paths : List String)

namespace Call

def closeDecided (id path : String) (focusBefore active : Option String) : Call :=
  if active = some id then .closeBeside id path focusBefore
  else .closeRemove path focusBefore none

def reorderReads (focusBefore front : Option String) : List String → List String → Call
  | [], paths =>
    match front with
    | some front => .reorderFront focusBefore front paths
    | none => .reorderMove paths
  | ids, paths => .reorderPaths ids focusBefore front paths

def access (resolve : String → String) (s : Shared) : Call → Shared × Option Call
  | .adding path =>
    match s.catalog.addPath path Workspace.maxProjects with
    | (.tooMany, catalog) => ({ s with catalog }, none)
    | (.present id, catalog) => ({ s with catalog }, some (.looking id))
  | .looking id | .focusing id =>
    (s, (s.catalog.get id).map (fun entry => .fronting entry.path))
  | .fronting path => ({ s with stored := some path }, none)
  | .closing id => (s, (s.catalog.get id).map (fun entry => .closeRead id entry.path))
  | .closeRead id path =>
    match s.stored with
    | some stored => (s, some (.closeServed id path (some stored)))
    | none => (s, some (.closeFallback id path none))
  | .closeServed id path focusBefore =>
    match focusBefore.bind s.catalog.idOfPath with
    | some active => (s, some (closeDecided id path focusBefore (some active)))
    | none => (s, some (.closeFallback id path focusBefore))
  | .closeFallback id path focusBefore =>
    (s, some (closeDecided id path focusBefore (s.catalog.entries.head?.map Catalog.Member.id)))
  | .closeBeside id path focusBefore =>
    let successor := (s.catalog.entries.findIdx? (·.id = id)).bind
      (fun closing => (beside s.catalog.entries closing).map Catalog.Member.path)
    (s, some (.closeRemove path focusBefore successor))
  | .closeRemove path focusBefore successor =>
    ({ s with catalog := s.catalog.removePath (resolve path) },
      successor.map (.closeStill focusBefore))
  | .closeStill focusBefore successor =>
    (s, if (s.catalog.idOfPath successor).isSome then some (.closeFront focusBefore successor)
      else none)
  | .closeFront focusBefore successor =>
    (if s.stored = focusBefore then { s with stored := some successor } else s, none)
  | .reordering ids => (s, some (.reorderServed ids s.stored))
  | .reorderServed ids focusBefore =>
    (s, some (if (focusBefore.bind s.catalog.idOfPath).isNone then .reorderFrom ids focusBefore
      else reorderReads focusBefore none ids []))
  | .reorderFrom ids focusBefore =>
    match focusBefore.bind s.catalog.idOfPath with
    | some id => (s, some (.reorderName ids focusBefore id))
    | none => (s, some (.reorderFallback ids focusBefore))
  | .reorderFallback ids focusBefore =>
    match s.catalog.entries.head? with
    | some entry => (s, some (.reorderName ids focusBefore entry.id))
    | none => (s, some (reorderReads focusBefore none ids []))
  | .reorderName ids focusBefore id =>
    (s, some (reorderReads focusBefore ((s.catalog.get id).map Catalog.Member.path) ids []))
  | .reorderPaths [] focusBefore front paths =>
    (s, some (reorderReads focusBefore front [] paths))
  | .reorderPaths (id :: ids) focusBefore front paths =>
    (s, some (reorderReads focusBefore front ids
      (paths ++ ((s.catalog.get id).map Catalog.Member.path).toList)))
  | .reorderFront focusBefore front paths =>
    (if s.stored = focusBefore then { s with stored := some front } else s,
      some (.reorderMove paths))
  | .reorderMove paths => ({ s with catalog := s.catalog.reorder resolve paths }, none)

def Initial : Call → Prop
  | .adding _ | .focusing _ | .closing _ | .reordering _ => True
  | _ => False

end Call

structure Shared.World where
  shared : Shared
  calls : List Call := []

namespace Shared

variable {resolve : String → String} {x s t : Shared} {w w' : World} {call : Call}
  {stored : Option String}

inductive Acts : World → Call → World → Prop
  | act (s : Shared) (before after : List Call) (call : Call) (resolve : String → String) :
      Acts ⟨s, before ++ call :: after⟩ call
        ⟨(call.access resolve s).1, before ++ (call.access resolve s).2.toList ++ after⟩

def front (s : Shared) : Option String := frontOf s.catalog.paths s.stored

def Keeps (x : Shared) : Call → Prop
  | .closeRemove .. => False
  | .adding path => x.stored = some path → path ∈ x.catalog.paths
  | _ => True

/-- From a session at rest, what calls that keep its tabs can bring about. -/
inductive Reaches (x : Shared) : World → Prop
  | start : Reaches x ⟨x, []⟩
  | called (w : World) (call : Call) (h : Reaches x w) (hcall : call.Initial) :
      Reaches x { w with calls := call :: w.calls }
  | acts (w w' : World) (call : Call) (h : Reaches x w) (hact : Acts w call w')
      (hkeeps : Keeps x call) : Reaches x w'

def Served (s : Shared) (stored : Option String) : Prop := ∃ p ∈ s.catalog.paths, stored = some p

def Lost (x s : Shared) (stored : Option String) : Prop :=
  stored = x.stored ∧ ∀ p ∈ x.stored, p ∉ s.catalog.paths

def Settled (x s : Shared) (first : Option String) : Prop :=
  Served s s.stored ∨ first = x.catalog.paths.head?

def Pins (x s : Shared) (focusBefore : Option String) : Option String → Prop
  | none => Served s s.stored
  | some front => Lost x s focusBefore ∧ front ∈ s.catalog.paths ∧ Settled x s (some front)

def Fine (x s : Shared) : Call → Prop
  | .fronting path => path ∈ s.catalog.paths
  | .reorderServed _ focusBefore =>
    Served s focusBefore ∧ Served s s.stored ∨ Lost x s focusBefore
  | .reorderFrom _ focusBefore | .reorderFallback _ focusBefore => Lost x s focusBefore
  | .reorderName _ focusBefore id => Lost x s focusBefore ∧
    ∃ p, ⟨id, p⟩ ∈ s.catalog.entries ∧ Settled x s (some p)
  | .reorderPaths _ focusBefore front _ => Pins x s focusBefore front
  | .reorderFront focusBefore front _ => Pins x s focusBefore (some front)
  | .reorderMove _ => Served s s.stored
  | .closeStill .. | .closeFront .. => False
  | _ => True

structure Sound (x s : Shared) : Prop where
  tidy : s.catalog.Tidy
  tabs : s.catalog.paths ≠ []
  kept : ∀ p ∈ x.catalog.paths, p ∈ s.catalog.paths
  stored : Served s s.stored ∨ Lost x s s.stored ∧ s.catalog.paths.head? = x.catalog.paths.head?

structure Grows (x s t : Shared) : Prop where
  entries : ∀ m ∈ s.catalog.entries, m ∈ t.catalog.entries
  lost : (∀ p ∈ x.stored, p ∉ s.catalog.paths) → ∀ p ∈ x.stored, p ∉ t.catalog.paths
  stored : Served s s.stored → Served t t.stored

lemma Grows.paths (h : Grows x s t) {p : String} (hp : p ∈ s.catalog.paths) :
    p ∈ t.catalog.paths := by
  obtain ⟨m, hm, rfl⟩ := List.mem_map.mp hp
  exact Catalog.path_of_entry (h.entries m hm)

lemma Grows.refl : Grows x s s := ⟨fun _ hm => hm, fun hl => hl, fun hs => hs⟩

lemma Grows.served (h : Grows x s t) (hs : Served s stored) : Served t stored := by
  obtain ⟨p, hp, rfl⟩ := hs
  exact ⟨p, h.paths hp, rfl⟩

lemma Grows.mem_lost (h : Grows x s t) (hl : Lost x s stored) : Lost x t stored :=
  ⟨hl.1, h.lost hl.2⟩

lemma Grows.settled {first : Option String} (h : Grows x s t) (hs : Settled x s first) :
    Settled x t first := hs.imp h.stored (fun he => he)

lemma Grows.pins (h : Grows x s t) {front : Option String} (hp : Pins x s stored front) :
    Pins x t stored front := by
  cases front with
  | none => exact h.stored hp
  | some front => exact ⟨h.mem_lost hp.1, h.paths hp.2.1, h.settled hp.2.2⟩

lemma Grows.fine (h : Grows x s t) (hf : Fine x s call) : Fine x t call := by
  cases call with
  | fronting path => exact h.paths hf
  | reorderServed ids focusBefore =>
    exact hf.imp (fun ⟨hb, hs⟩ => ⟨h.served hb, h.stored hs⟩) h.mem_lost
  | reorderFrom ids focusBefore => exact h.mem_lost hf
  | reorderFallback ids focusBefore => exact h.mem_lost hf
  | reorderName ids focusBefore id =>
    obtain ⟨hl, p, hp, hs⟩ := hf
    exact ⟨h.mem_lost hl, p, h.entries _ hp, h.settled hs⟩
  | reorderPaths ids focusBefore front paths => exact h.pins hf
  | reorderFront focusBefore front paths =>
    have hpins : Pins x s focusBefore (some front) := hf
    exact h.pins hpins
  | reorderMove paths => exact h.stored hf
  | closeStill focusBefore successor => exact hf
  | closeFront focusBefore successor => exact hf
  | adding path => trivial
  | looking id => trivial
  | focusing id => trivial
  | closing id => trivial
  | closeRead id path => trivial
  | closeServed id path focusBefore => trivial
  | closeFallback id path focusBefore => trivial
  | closeBeside id path focusBefore => trivial
  | closeRemove path focusBefore successor => trivial
  | reordering ids => trivial

lemma not_served_of_lost (hl : Lost x s stored) : ¬ Served s stored := by
  rintro ⟨p, hp, rfl⟩
  exact hl.2 p hl.1.symm hp

lemma idOfPath_of_lost (hl : Lost x s stored) : stored.bind s.catalog.idOfPath = none := by
  rw [Option.bind_eq_none_iff]
  intro p hp
  exact Catalog.idOfPath_eq_none.mpr (fun hmem => not_served_of_lost hl ⟨p, hmem, hp⟩)

lemma idOfPath_of_served (hs : Served s stored) :
    (stored.bind s.catalog.idOfPath).isNone = false := by
  obtain ⟨p, hp, rfl⟩ := hs
  obtain ⟨id, hid⟩ := Catalog.entry_of_path hp
  rw [Option.bind_some, Catalog.idOfPath_eq.mpr hid]
  rfl

lemma front_of_served (hs : Served s s.stored) : s.front = s.stored := by
  obtain ⟨p, hp, he⟩ := hs
  rw [front, he]
  exact frontOf_stored hp

lemma front_of_lost (hl : Lost x s s.stored) : s.front = s.catalog.paths.head? :=
  frontOf_fallback (fun p hp hmem => not_served_of_lost hl ⟨p, hmem, hp⟩)

lemma fine_reorderReads {focusBefore front : Option String} (h : Pins x s focusBefore front)
    (ids paths : List String) : Fine x s (Call.reorderReads focusBefore front ids paths) := by
  cases ids with
  | cons id ids => exact h
  | nil =>
    cases front with
    | none => exact h
    | some front => exact h

lemma fine_closeDecided (id path : String) (focusBefore active : Option String) :
    Fine x s (Call.closeDecided id path focusBefore active) := by
  rw [Call.closeDecided]
  split_ifs <;> trivial

structure Passes (x s : Shared) (call : Call) (r : Shared × Option Call) : Prop where
  grows : Grows x s r.1
  sound : Sound x r.1
  next : ∀ c ∈ r.2, Fine x r.1 c
  front : r.1.front = s.front ∨ ∃ p, call = .fronting p ∧ r.1.front = some p

lemma passes_read (hs : Sound x s) {next : Option Call} (hnext : ∀ c ∈ next, Fine x s c) :
    Passes x s call (s, next) :=
  ⟨Grows.refl, hs, hnext, Or.inl rfl⟩

lemma passes_read_one (hs : Sound x s) {next : Call} (hnext : Fine x s next) :
    Passes x s call (s, some next) :=
  passes_read hs (fun _ hc => Option.some.inj hc ▸ hnext)

lemma no_call : ∀ c ∈ (none : Option Call), Fine x s c := by
  intro c hc
  cases hc

lemma passes_adding (hs : Sound x s) {path : String} (hk : Keeps x (.adding path)) :
    Passes x s (.adding path) ((Call.adding path).access resolve s) := by
  have hentries : ∀ m ∈ s.catalog.entries,
      m ∈ (s.catalog.addPath path Workspace.maxProjects).2.entries := fun m hm =>
    Catalog.mem_addPath hm
  rcases Catalog.addPath_tidy hs.tidy path Workspace.maxProjects with
    ⟨hp, id, d, he, hpaths, hmem, hd⟩ | ⟨hp, -, id, d, he, hpaths, hmem, hd⟩ | ⟨-, -, he⟩
  all_goals
    rw [he] at hentries
    rw [Call.access, he]
    dsimp only
  · have hserved : Served s s.stored → Served { s with catalog := d } s.stored :=
      fun ⟨p, hp, hsp⟩ => ⟨p, hpaths.symm ▸ hp, hsp⟩
    refine ⟨⟨hentries, fun hl p hx => hpaths.symm ▸ hl p hx, hserved⟩, ⟨hd, hpaths.symm ▸ hs.tabs,
      fun p hx => hpaths.symm ▸ hs.kept p hx, hs.stored.imp hserved (fun ⟨hl, hhead⟩ => ?_)⟩,
      fun c hc => Option.some.inj hc ▸ trivial, Or.inl ?_⟩
    · exact ⟨⟨hl.1, fun p hx => hpaths.symm ▸ hl.2 p hx⟩, hpaths.symm ▸ hhead⟩
    · exact congrArg (frontOf · s.stored) hpaths
  · have hin : ∀ p ∈ s.catalog.paths, p ∈ d.paths := fun p hx =>
      hpaths.symm ▸ List.mem_append_left _ hx
    have hserved : Served s s.stored → Served { s with catalog := d } s.stored :=
      fun ⟨p, hp, hsp⟩ => ⟨p, hin p hp, hsp⟩
    have hlost : (∀ p ∈ x.stored, p ∉ s.catalog.paths) → ∀ p ∈ x.stored, p ∉ d.paths := by
      intro hl p hx hmem
      rw [hpaths, List.mem_append, List.mem_singleton] at hmem
      rcases hmem with hmem | rfl
      · exact hl p hx hmem
      · exact hl p hx (hs.kept p (hk hx))
    have hhead : d.paths.head? = s.catalog.paths.head? := by
      rw [hpaths, List.head?_append_of_ne_nil _ hs.tabs]
    have hnext : Lost x s s.stored → Lost x { s with catalog := d } s.stored :=
      fun hl => ⟨hl.1, hlost hl.2⟩
    refine ⟨⟨hentries, hlost, hserved⟩, ⟨hd, ?_, fun p hx => hin p (hs.kept p hx),
      hs.stored.imp hserved (fun ⟨hl, he⟩ => ⟨hnext hl, hhead.trans he⟩)⟩,
      fun c hc => Option.some.inj hc ▸ trivial, Or.inl ?_⟩
    · obtain ⟨p, hmem⟩ := List.exists_mem_of_ne_nil _ hs.tabs
      exact List.ne_nil_of_mem (hin p hmem)
    · rcases hs.stored with hserves | ⟨hl, -⟩
      · rw [front_of_served hserves]
        exact front_of_served (s := { s with catalog := d }) (hserved hserves)
      · rw [front_of_lost hl, ← hhead]
        exact front_of_lost (s := { s with catalog := d }) (hnext hl)
  · exact passes_read hs no_call

lemma passes_fronting (hs : Sound x s) {path : String} (hpath : path ∈ s.catalog.paths) :
    Passes x s (.fronting path) ((Call.fronting path).access resolve s) := by
  have hserved : Served { s with stored := some path } (some path) := ⟨path, hpath, rfl⟩
  exact ⟨⟨fun _ hm => hm, fun hl => hl, fun _ => hserved⟩,
    ⟨hs.tidy, hs.tabs, hs.kept, Or.inl hserved⟩, no_call,
    Or.inr ⟨path, rfl, frontOf_stored hpath⟩⟩

lemma passes_reorderFront (hs : Sound x s) {focusBefore : Option String} {front : String}
    {paths : List String} (hf : Pins x s focusBefore (some front)) :
    Passes x s (.reorderFront focusBefore front paths)
      ((Call.reorderFront focusBefore front paths).access resolve s) := by
  obtain ⟨hlost, hmem, hsettled⟩ := hf
  by_cases he : s.stored = focusBefore
  · have hpinned : (Call.reorderFront focusBefore front paths).access resolve s =
        ({ s with stored := some front }, some (.reorderMove paths)) := by
      rw [Call.access, if_pos he]
    have hserved : Served { s with stored := some front } (some front) := ⟨front, hmem, rfl⟩
    rw [← he] at hlost
    have hfirst : some front = x.catalog.paths.head? :=
      hsettled.resolve_left (not_served_of_lost hlost)
    have hhead := (hs.stored.resolve_left (not_served_of_lost hlost)).2
    rw [hpinned]
    refine ⟨⟨fun _ hm => hm, fun hl => hl, fun _ => hserved⟩,
      ⟨hs.tidy, hs.tabs, hs.kept, Or.inl hserved⟩,
      fun c hc => Option.some.inj hc ▸ hserved, Or.inl ?_⟩
    rw [front_of_lost hlost, hhead, ← hfirst]
    exact frontOf_stored hmem
  · have hleft : (Call.reorderFront focusBefore front paths).access resolve s =
        (s, some (.reorderMove paths)) := by
      rw [Call.access, if_neg he]
    rw [hleft]
    refine passes_read_one hs (hs.stored.resolve_right (fun hl => he ?_))
    exact hl.1.1.trans hlost.1.symm

lemma passes_reorderMove (hs : Sound x s) {paths : List String} (hf : Served s s.stored) :
    Passes x s (.reorderMove paths) ((Call.reorderMove paths).access resolve s) := by
  have hmem : ∀ p, p ∈ (s.catalog.reorder resolve paths).paths ↔ p ∈ s.catalog.paths := by
    intro p
    rw [Catalog.paths_reorder, mem_arranged]
  obtain ⟨p, hp, hstored⟩ := hf
  have hserved : Served { s with catalog := s.catalog.reorder resolve paths } s.stored :=
    ⟨p, (hmem p).mpr hp, hstored⟩
  refine ⟨⟨fun _ hm => Catalog.mem_entries_reorder.mpr hm,
      fun hl q hq hin => hl q hq ((hmem q).mp hin), fun _ => hserved⟩,
    ⟨Catalog.tidy_reorder hs.tidy resolve paths, List.ne_nil_of_mem ((hmem p).mpr hp),
      fun q hq => (hmem q).mpr (hs.kept q hq), Or.inl hserved⟩, no_call, Or.inl ?_⟩
  rw [front_of_served ⟨p, hp, hstored⟩]
  exact front_of_served (s := { s with catalog := s.catalog.reorder resolve paths }) hserved

/-- An access that keeps the tabs keeps what the session is in and what every call has read, and
takes the front nowhere but where an opening or a focus puts it. -/
lemma passes_access (resolve : String → String) (hs : Sound x s) (hf : Fine x s call) (hk : Keeps x call) :
    Passes x s call (call.access resolve s) := by
  cases call with
  | adding path => exact passes_adding hs hk
  | fronting path => exact passes_fronting hs hf
  | reorderFront focusBefore front paths => exact passes_reorderFront hs hf
  | reorderMove paths => exact passes_reorderMove hs hf
  | closeRemove path focusBefore successor => exact absurd hk (fun h => h)
  | closeStill focusBefore successor => exact absurd hf (fun h => h)
  | closeFront focusBefore successor => exact absurd hf (fun h => h)
  | looking id | focusing id =>
    refine passes_read hs (fun c hc => ?_)
    obtain ⟨entry, hentry, rfl⟩ := Option.map_eq_some_iff.mp hc
    exact Catalog.path_of_entry (Catalog.get_eq.mp hentry).1
  | closing id =>
    refine passes_read hs (fun c hc => ?_)
    obtain ⟨entry, -, rfl⟩ := Option.map_eq_some_iff.mp hc
    trivial
  | closeRead id path =>
    rw [Call.access]
    cases s.stored with
    | none => exact passes_read_one hs trivial
    | some stored => exact passes_read_one hs trivial
  | closeServed id path focusBefore =>
    rw [Call.access]
    cases focusBefore.bind s.catalog.idOfPath with
    | none => exact passes_read_one hs trivial
    | some active => exact passes_read_one hs (fine_closeDecided ..)
  | closeFallback id path focusBefore => exact passes_read_one hs (fine_closeDecided ..)
  | closeBeside id path focusBefore => exact passes_read_one hs trivial
  | reordering ids =>
    refine passes_read_one hs (hs.stored.imp (fun h => ⟨h, h⟩) (fun h => h.1))
  | reorderServed ids focusBefore =>
    refine passes_read_one hs ?_
    rcases hf with ⟨hb, hserved⟩ | hlost
    · rw [idOfPath_of_served hb]
      have hpins : Pins x s focusBefore none := hserved
      exact fine_reorderReads hpins ids []
    · rw [idOfPath_of_lost hlost]
      exact hlost
  | reorderFrom ids focusBefore =>
    rw [Call.access, idOfPath_of_lost hf]
    exact passes_read_one hs hf
  | reorderFallback ids focusBefore =>
    rw [Call.access]
    cases hhead : s.catalog.entries.head? with
    | none =>
      rw [List.head?_eq_none_iff] at hhead
      exact absurd (List.map_eq_nil_iff.mpr hhead) hs.tabs
    | some entry =>
      refine passes_read_one hs ⟨hf, entry.path, List.mem_of_mem_head? hhead, ?_⟩
      refine hs.stored.imp (fun h => h) (fun h => ?_)
      rw [← h.2, Catalog.paths, List.head?_map, hhead]
      rfl
  | reorderName ids focusBefore id =>
    obtain ⟨hlost, p, hp, hsettled⟩ := hf
    refine passes_read_one hs (fine_reorderReads ?_ ids [])
    rw [Catalog.get_eq.mpr ⟨hp, rfl⟩]
    exact ⟨hlost, Catalog.path_of_entry hp, hsettled⟩
  | reorderPaths ids focusBefore front paths =>
    cases ids with
    | nil => exact passes_read_one hs (fine_reorderReads hf [] paths)
    | cons id ids => exact passes_read_one hs (fine_reorderReads hf ids _)

lemma sound_reaches (hc : x.catalog.Tidy) (hx : x.catalog.paths ≠ []) (h : Reaches x w) :
    Sound x w.shared ∧ ∀ c ∈ w.calls, Fine x w.shared c := by
  induction h with
  | start =>
    refine ⟨⟨hc, hx, fun _ hp => hp, ?_⟩, fun c hcall => absurd hcall List.not_mem_nil⟩
    rcases frontOf_cases x.catalog.paths x.stored with ⟨p, hp, hstored, -⟩ | ⟨hnone, -⟩
    · exact Or.inl ⟨p, hp, hstored⟩
    · exact Or.inr ⟨⟨rfl, hnone⟩, rfl⟩
  | called w call _ hcall ih =>
    refine ⟨ih.1, List.forall_mem_cons.mpr ⟨?_, ih.2⟩⟩
    cases call <;> trivial
  | acts w w' call _ hact hkeeps ih =>
    obtain ⟨s, before, after, call, resolve⟩ := hact
    obtain ⟨hs, hcalls⟩ := ih
    have hmem : call ∈ before ++ call :: after :=
      List.mem_append_right _ (List.mem_cons_self ..)
    have hpasses := passes_access resolve hs (hcalls call hmem) hkeeps
    refine ⟨hpasses.sound, fun c hc => ?_⟩
    rw [List.mem_append, List.mem_append, Option.mem_toList] at hc
    rcases hc with (hc | hc) | hc
    · exact hpasses.grows.fine (hcalls c (List.mem_append_left _ hc))
    · exact hpasses.next c hc
    · exact hpasses.grows.fine (hcalls c (List.mem_append_right _ (List.mem_cons_of_mem _ hc)))

/-- However the calls take turns, while tabs are kept the front goes nowhere but where an opening or
a focus puts it: a reorder never moves it. -/
theorem reorders_leave_the_front (hc : x.catalog.Tidy) (hx : x.catalog.paths ≠ [])
    (h : Reaches x w) (hact : Acts w call w') (hkeeps : Keeps x call) :
    w'.shared.front = w.shared.front ∨
      ∃ p ∈ w'.shared.catalog.paths, call = .fronting p ∧ w'.shared.front = some p := by
  obtain ⟨hs, hcalls⟩ := sound_reaches hc hx h
  obtain ⟨s, before, after, call, resolve⟩ := hact
  have hmem : call ∈ before ++ call :: after := List.mem_append_right _ (List.mem_cons_self ..)
  refine (passes_access resolve hs (hcalls call hmem) hkeeps).front.imp_right ?_
  rintro ⟨p, hcall, hfront⟩
  exact ⟨p, frontOf_mem hfront, hcall, hfront⟩

lemma reaches_access (resolve : String → String) {s : Shared} (h : Reaches x ⟨s, [call]⟩)
    (hkeeps : Keeps x call) :
    Reaches x ⟨(call.access resolve s).1, (call.access resolve s).2.toList⟩ := by
  refine .acts _ _ call h ?_ hkeeps
  have hact := Acts.act s [] [] call resolve
  rw [List.nil_append, List.append_nil] at hact
  exact hact

theorem reorders_leave_the_front_moved :
    let x : Shared := ⟨Catalog.commit (Catalog.CatalogMembership.setPaths {} ["/a", "/b"]), none⟩
    let w : World := ⟨⟨x.catalog, some "/a"⟩, [.reorderMove ["/b", "/a"]]⟩
    let w' : World := ⟨⟨x.catalog.reorder id ["/b", "/a"], some "/a"⟩, []⟩
    w'.shared.catalog.paths = ["/b", "/a"] ∧
      (w'.shared.front = w.shared.front ∨ ∃ p ∈ w'.shared.catalog.paths,
        Call.reorderMove ["/b", "/a"] = .fronting p ∧ w'.shared.front = some p) := by
  intro x w w'
  have htabs : x.catalog.paths ≠ [] := List.ne_nil_of_length_pos (by decide)
  have hcalled : Reaches x ⟨x, [.reordering ["r2", "r1"]]⟩ :=
    .called ⟨x, []⟩ (.reordering ["r2", "r1"]) .start trivial
  have hserved : Reaches x ⟨x, [.reorderServed ["r2", "r1"] none]⟩ :=
    reaches_access id hcalled trivial
  have hfrom : Reaches x ⟨x, [.reorderFrom ["r2", "r1"] none]⟩ := reaches_access id hserved trivial
  have hfallback : Reaches x ⟨x, [.reorderFallback ["r2", "r1"] none]⟩ :=
    reaches_access id hfrom trivial
  have hname : Reaches x ⟨x, [.reorderName ["r2", "r1"] none "r1"]⟩ :=
    reaches_access id hfallback trivial
  have hpaths : Reaches x ⟨x, [.reorderPaths ["r2", "r1"] none (some "/a") []]⟩ :=
    reaches_access id hname trivial
  have hpath : Reaches x ⟨x, [.reorderPaths ["r1"] none (some "/a") ["/b"]]⟩ :=
    reaches_access id hpaths trivial
  have hfront : Reaches x ⟨x, [.reorderFront none "/a" ["/b", "/a"]]⟩ :=
    reaches_access id hpath trivial
  have hmove : Reaches x w := reaches_access id hfront trivial
  have hact : Acts w (.reorderMove ["/b", "/a"]) w' := .act _ [] [] _ id
  exact ⟨by decide, reorders_leave_the_front (Catalog.tidy_start _) htabs hmove hact trivial⟩

/-! ## A call alone -/

inductive Alone (resolve : String → String) : Shared → Call → Shared → Prop
  | last {s t : Shared} {c : Call} (h : c.access resolve s = (t, none)) : Alone resolve s c t
  | next {s t u : Shared} {c d : Call} (h : c.access resolve s = (t, some d))
      (hnext : Alone resolve t d u) : Alone resolve s c u

end Shared

namespace SessionState

open Shared

variable {Saved : Type} {os : Os} {around : Surroundings} {s : SessionState Saved} {u : Shared}
  {id path : String}

def shared (s : SessionState Saved) : Shared := ⟨s.catalog, s.prefs.activeRepo⟩

lemma persistWorkspace_shared : (s.persistWorkspace around).shared = s.shared := by
  rw [shared, persistWorkspace_catalog, persistWorkspace_prefs]
  rfl

lemma alone_fronting (path : String) :
    Alone around.resolveRepoPath s.shared (.fronting path) (s.setActiveRepo os path).shared :=
  .last rfl

lemma alone_looking {entry : Catalog.Member} (hget : s.shared.catalog.get id = some entry) :
    Alone around.resolveRepoPath s.shared (.looking id) (s.setActiveRepo os entry.path).shared := by
  refine .next (t := s.shared) ?_ (alone_fronting entry.path)
  rw [Call.access, hget]
  rfl

lemma alone_focusRepo (id : String) :
    Alone around.resolveRepoPath s.shared (.focusing id) (s.focusRepo os id).2.shared := by
  rw [focusRepo]
  cases hget : s.catalog.get id with
  | none =>
    have hshared : s.shared.catalog.get id = none := hget
    refine .last ?_
    rw [Call.access, hshared]
    rfl
  | some entry =>
    have hshared : s.shared.catalog.get id = some entry := hget
    refine .next (t := s.shared) ?_ (alone_fronting entry.path)
    rw [Call.access, hshared]
    rfl

lemma alone_openRepo {raw resolved : String} (hraw : trim raw ≠ "")
    (hw : around.worktree (trim raw) = some resolved) :
    Alone around.resolveRepoPath s.shared (.adding (around.resolveRepoPath resolved))
      (s.openRepo os around raw).2.shared := by
  rw [openRepo, if_neg hraw, hw]
  dsimp only
  rcases hadd : s.catalog.addPath (around.resolveRepoPath resolved) Workspace.maxProjects with
    ⟨id | _, c⟩
  all_goals
    have hshared : s.shared.catalog.addPath (around.resolveRepoPath resolved)
      Workspace.maxProjects = _ := hadd
  · have hadds : (Call.adding (around.resolveRepoPath resolved)).access around.resolveRepoPath
        s.shared = (⟨c, s.prefs.activeRepo⟩, some (.looking id)) := by
      rw [Call.access, hshared]
      rfl
    dsimp only
    rw [persistWorkspace_shared]
    cases hget : c.get id with
    | none =>
      refine .next hadds (.last ?_)
      rw [Call.access, hget]
      rfl
    | some entry => exact .next hadds (alone_looking (s := { s with catalog := c }) hget)
  · refine .last ?_
    rw [Call.access, hshared]
    rfl

lemma alone_closeRead (h : Alone around.resolveRepoPath s.shared
      (Call.closeDecided id path s.prefs.activeRepo s.activeRepo) u) :
    Alone around.resolveRepoPath s.shared (.closeRead id path) u := by
  have hfallback : s.prefs.activeRepo.bind s.catalog.idOfPath = none →
      Alone around.resolveRepoPath s.shared (.closeFallback id path s.prefs.activeRepo) u := by
    intro hnone
    rw [activeRepo, activeRepoFrom, hnone, Option.none_or] at h
    exact .next rfl h
  cases hstored : s.prefs.activeRepo with
  | none =>
    rw [hstored] at hfallback
    have hshared : s.shared.stored = none := hstored
    refine .next (t := s.shared) ?_ (hfallback rfl)
    rw [Call.access, hshared]
  | some stored =>
    rw [hstored] at hfallback
    have hshared : s.shared.stored = some stored := hstored
    refine .next (t := s.shared) (d := .closeServed id path (some stored)) ?_ ?_
    · rw [Call.access, hshared]
    · cases hid : (some stored).bind s.catalog.idOfPath with
      | none =>
        have hnamed : (some stored).bind s.shared.catalog.idOfPath = none := hid
        refine .next (t := s.shared) ?_ (hfallback hid)
        rw [Call.access, hnamed]
      | some active =>
        have hnamed : (some stored).bind s.shared.catalog.idOfPath = some active := hid
        rw [activeRepo, activeRepoFrom, hstored, hid, Option.some_or] at h
        refine .next (t := s.shared) ?_ h
        rw [Call.access, hnamed]

lemma alone_closeDecided {active : Option String} (h : Alone around.resolveRepoPath s.shared
      (.closeRemove path s.prefs.activeRepo (if active = some id then s.successorOf id else none))
      u) :
    Alone around.resolveRepoPath s.shared
      (Call.closeDecided id path s.prefs.activeRepo active) u := by
  rw [Call.closeDecided]
  split_ifs with hactive
  · rw [if_pos hactive] at h
    exact .next rfl h
  · rw [if_neg hactive] at h
    exact h

lemma alone_closeRepo (id : String) :
    Alone around.resolveRepoPath s.shared (.closing id) (s.closeRepo around id).2.shared := by
  cases hid : s.pathOf id with
  | none =>
    have hget : s.shared.catalog.get id = none := Option.map_eq_none_iff.mp hid
    rw [closeRepo, show s.catalog.get id = none from hget]
    refine .last ?_
    rw [Call.access, hget]
    rfl
  | some path =>
    obtain ⟨entry, hget, rfl⟩ := Option.map_eq_some_iff.mp hid
    have hshared : s.shared.catalog.get id = some entry := hget
    have hreads : (Call.closing id).access around.resolveRepoPath s.shared =
        (s.shared, some (.closeRead id entry.path)) := by
      rw [Call.access, hshared]
      rfl
    rw [closeRepo_eq hid, persistWorkspace_shared]
    refine .next hreads (alone_closeRead (alone_closeDecided ?_))
    rw [shared, closedPrefs]
    cases hsucc : if s.activeRepo = some id then s.successorOf id else none with
    | none => exact .last rfl
    | some next =>
      dsimp only
      set c := s.catalog.removePath (around.resolveRepoPath entry.path)
      refine .next (t := ⟨c, s.prefs.activeRepo⟩) (d := .closeStill s.prefs.activeRepo next) rfl ?_
      by_cases hstill : (c.idOfPath next).isSome
      · rw [if_pos hstill]
        refine .next (t := ⟨c, s.prefs.activeRepo⟩)
          (d := .closeFront s.prefs.activeRepo next) ?_ (.last ?_)
        · rw [Call.access, if_pos hstill]
        · rw [Call.access, if_pos rfl, ViewerPrefs.setActiveRepoIf, if_pos rfl]
          rfl
      · rw [if_neg hstill]
        refine .last ?_
        rw [Call.access, if_neg hstill]
        rfl

lemma alone_reorderReads {focusBefore front : Option String} (ids paths : List String)
    (h : Alone around.resolveRepoPath s.shared
      (Call.reorderReads focusBefore front [] (paths ++ ids.filterMap s.pathOf)) u) :
    Alone around.resolveRepoPath s.shared (Call.reorderReads focusBefore front ids paths) u := by
  induction ids generalizing paths with
  | nil =>
    rw [List.filterMap_nil, List.append_nil] at h
    exact h
  | cons id ids ih =>
    refine .next (t := s.shared) rfl (ih _ ?_)
    rw [List.append_assoc]
    have hread : (s.pathOf id).toList ++ ids.filterMap s.pathOf =
        (id :: ids).filterMap s.pathOf := by
      rw [List.filterMap_cons]
      cases s.pathOf id <;> rfl
    exact hread.symm ▸ h

lemma alone_reorderRepos (ids : List String) :
    Alone around.resolveRepoPath s.shared (.reordering ids) (s.reorderRepos around ids).shared := by
  rw [reorderRepos_eq, persistWorkspace_shared]
  refine .next (t := s.shared) (d := .reorderServed ids s.prefs.activeRepo) rfl ?_
  have hends : Alone around.resolveRepoPath s.shared
      (Call.reorderReads s.prefs.activeRepo s.pinned ids [])
      (shared { s with
        catalog := s.catalog.reorder around.resolveRepoPath (ids.filterMap s.pathOf)
        prefs := s.pinnedPrefs }) := by
    refine alone_reorderReads ids [] ?_
    rw [shared, pinnedPrefs, List.nil_append]
    cases s.pinned with
    | none => exact .last rfl
    | some front =>
      change Alone _ _ (.reorderFront s.prefs.activeRepo front (ids.filterMap s.pathOf))
        ⟨_, (s.prefs.setActiveRepoIf s.prefs.activeRepo front).activeRepo⟩
      rw [ViewerPrefs.setActiveRepoIf, if_pos rfl]
      refine .next (t := ⟨s.catalog, some front⟩) (d := .reorderMove (ids.filterMap s.pathOf)) ?_
        (.last rfl)
      rw [Call.access, if_pos rfl]
  rw [pinned] at hends
  cases hnone : (s.prefs.activeRepo.bind s.catalog.idOfPath).isNone with
  | false =>
    have hshared : (s.prefs.activeRepo.bind s.shared.catalog.idOfPath).isNone = false := hnone
    rw [hnone] at hends
    refine .next (t := s.shared) ?_ hends
    rw [Call.access, hshared]
    rfl
  | true =>
    have hshared : (s.prefs.activeRepo.bind s.shared.catalog.idOfPath).isNone = true := hnone
    have hnamed : s.prefs.activeRepo.bind s.shared.catalog.idOfPath = none :=
      Option.isNone_iff_eq_none.mp hshared
    rw [hnone, if_pos rfl, activeRepoFrom, show s.prefs.activeRepo.bind s.catalog.idOfPath = none
      from hnamed, Option.none_or] at hends
    refine .next (t := s.shared) (d := .reorderFrom ids s.prefs.activeRepo) ?_ ?_
    · rw [Call.access, hshared]
      rfl
    refine .next (t := s.shared) (d := .reorderFallback ids s.prefs.activeRepo) ?_ ?_
    · rw [Call.access, hnamed]
    cases hhead : s.catalog.entries.head? with
    | none =>
      have hfirst : s.shared.catalog.entries.head? = none := hhead
      rw [hhead] at hends
      refine .next (t := s.shared) ?_ hends
      rw [Call.access, hfirst]
      rfl
    | some entry =>
      have hfirst : s.shared.catalog.entries.head? = some entry := hhead
      rw [hhead] at hends
      refine .next (t := s.shared) (d := .reorderName ids s.prefs.activeRepo entry.id) ?_
        (.next (t := s.shared) rfl hends)
      rw [Call.access, hfirst]

def called (around : Surroundings) : Request → Option Call
  | .openRepo raw =>
    if trim raw = "" then none
    else (around.worktree (trim raw)).map (fun resolved => .adding (around.resolveRepoPath resolved))
  | .focusRepo id => some (.focusing id)
  | .closeRepo id => some (.closing id)
  | .reorderRepos ids => some (.reordering ids)
  | .setAccent _ => none

theorem alone_serves (request : Request) (call : Call) (h : call ∈ called around request) :
    call.Initial ∧
      Alone around.resolveRepoPath s.shared call (s.serve os around request).shared := by
  cases request with
  | openRepo raw =>
    rw [called] at h
    split_ifs at h with hraw
    · cases h
    · obtain ⟨resolved, hw, rfl⟩ := Option.map_eq_some_iff.mp h
      exact ⟨trivial, alone_openRepo hraw hw⟩
  | focusRepo id =>
    obtain rfl := Option.some.inj h
    exact ⟨trivial, alone_focusRepo id⟩
  | closeRepo id =>
    obtain rfl := Option.some.inj h
    exact ⟨trivial, alone_closeRepo id⟩
  | reorderRepos ids =>
    obtain rfl := Option.some.inj h
    exact ⟨trivial, alone_reorderRepos ids⟩
  | setAccent accent => cases h

end SessionState

end Nightcrow.Session
