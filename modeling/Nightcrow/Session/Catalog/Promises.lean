import Nightcrow.Library.Runs
import Nightcrow.Session.Catalog.Membership

namespace Nightcrow.Session.Catalog

open Nightcrow.Library

namespace CatalogMembership

variable {c : CatalogMembership} {path : String} {max : ℕ}

lemma mem_served : path ∈ c.served ↔ (path ∈ c.base ∨ path ∈ c.added) ∧ path ∉ c.hidden := by
  simp [served, unionPaths]

lemma nodup_served : c.served.Nodup := nodup_arranged

@[simp] lemma members_base : c.members.2.base = c.base := rfl
@[simp] lemma members_added : c.members.2.added = c.added := rfl
@[simp] lemma members_hidden : c.members.2.hidden = c.hidden := rfl
@[simp] lemma members_order : c.members.2.order = c.order := rfl
@[simp] lemma members_served : c.members.2.served = c.served := rfl

lemma members_paths : c.members.1.map (·.path) = c.served := IdAssigner.membersOf_paths

lemma mem_members {m : Member} : m ∈ c.members.1 ↔
    m.path ∈ c.served ∧ c.members.2.ids.byPath.lookup m.path = some m.id := by
  constructor
  · intro h
    refine ⟨?_, IdAssigner.lookup_membersOf h⟩
    rw [← members_paths]
    exact List.mem_map_of_mem h
  · rintro ⟨h, hid⟩
    exact IdAssigner.mem_membersOf h hid

def opened (c : CatalogMembership) (path : String) : CatalogMembership :=
  { c with
    hidden := if path ∈ c.hidden then c.hidden.filter (· ≠ path) else c.hidden
    base := if path ∈ c.hidden then c.base.filter (· ≠ path) else c.base
    added := if path ∈ c.added then c.added else c.added ++ [path] }

lemma notMem_opened_hidden : path ∉ (c.opened path).hidden := by
  by_cases hh : path ∈ c.hidden <;> simp [opened, hh]

lemma unionPathsWithVisible_eq :
    c.unionPathsWithVisible path (decide (path ∈ c.hidden)) = (c.opened path).served := by
  by_cases h : path ∈ c.hidden <;> simp [unionPathsWithVisible, opened, served, h]

lemma addPath_cases (c : CatalogMembership) (path : String) (max : ℕ) :
    (∃ id, path ∈ c.served ∧ c.members.2.ids.byPath.lookup path = some id ∧
      c.addPath path max = (.present id, c.members.2)) ∨
    (path ∉ c.served ∧ max < (c.opened path).served.length ∧
      c.addPath path max = (.tooMany, c.members.2)) ∨
    (path ∉ c.served ∧ (c.opened path).served.length ≤ max ∧
      c.addPath path max = (.present (c.members.2.ids.idFor path).1,
        { c.opened path with ids := (c.members.2.ids.idFor path).2 })) := by
  rcases hf : c.members.1.find? (·.path = path) with _ | m
  · have hp : path ∉ c.served := by
      intro h
      rw [← members_paths] at h
      obtain ⟨m, hm, rfl⟩ := List.mem_map.mp h
      simpa using List.find?_eq_none.mp hf m hm
    have hl : (c.members.2.unionPathsWithVisible path (decide (path ∈ c.members.2.hidden))).length =
        (c.opened path).served.length := by
      rw [unionPathsWithVisible_eq]
      rfl
    by_cases hm : max < (c.opened path).served.length
    · refine Or.inr (Or.inl ⟨hp, hm, ?_⟩)
      simp only [addPath, hf]
      rw [if_pos (hl ▸ hm)]
    · refine Or.inr (Or.inr ⟨hp, not_lt.mp hm, ?_⟩)
      simp only [addPath, hf]
      rw [if_neg (hl ▸ hm)]
      by_cases hh : path ∈ c.hidden
      · simp only [opened, members_hidden, hh, decide_true, if_true]
        rfl
      · simp only [opened, members_hidden, hh, decide_false, if_false]
        rfl
  · have hm := List.mem_of_find?_eq_some hf
    have hp : m.path = path := by simpa using List.find?_some hf
    subst hp
    refine Or.inl ⟨m.id, (mem_members.mp hm).1, (mem_members.mp hm).2, ?_⟩
    simp only [addPath, hf]

structure Closed (c : CatalogMembership) : Prop where
  notAdded : ∀ p ∈ c.hidden, p ∉ c.added
  notOrdered : ∀ p ∈ c.hidden, p ∉ c.order

variable (h : c.Closed) (hp : path ∉ c.served)

include h hp

lemma natural_opened :
    pushNew (· ∉ (c.opened path).hidden) [] ((c.opened path).base ++ (c.opened path).added) =
      pushNew (· ∉ c.hidden) [] (c.base ++ c.added) ++ [path] := by
  have hn : path ∉ pushNew (· ∉ c.hidden) [] (c.base ++ c.added) := by
    simpa [served, unionPaths] using hp
  have ha : path ∉ c.added := by
    intro ha
    by_cases hh : path ∈ c.hidden
    · exact h.notAdded path hh ha
    · exact hp (mem_served.mpr ⟨Or.inr ha, hh⟩)
  have hadd : (c.opened path).added = c.added ++ [path] := if_neg ha
  rw [hadd, ← List.append_assoc, pushNew_append]
  have hv : pushNew (· ∉ (c.opened path).hidden) [] ((c.opened path).base ++ c.added) =
      pushNew (· ∉ c.hidden) [] (c.base ++ c.added) := by
    by_cases hh : path ∈ c.hidden
    · have hb : (c.opened path).base ++ c.added = (c.base ++ c.added).filter (· ≠ path) := by
        have hf : c.added.filter (· ≠ path) = c.added :=
          List.filter_eq_self.mpr fun p hq => by simpa using fun he : p = path => ha (he ▸ hq)
        rw [List.filter_append, hf]
        simp [opened, hh]
      rw [hb, pushNew_filter]
      apply pushNew_congr
      intro p _
      constructor
      · rintro ⟨hq, hne⟩ hm
        exact hq (by simpa [opened, hh, hm] using hne)
      · intro hq
        exact ⟨by simpa [opened, hh] using fun hm => absurd hm hq, fun he => hq (he ▸ hh)⟩
    · simp [opened, hh]
  rw [hv, pushNew_cons, if_pos, pushNew_nil]
  exact ⟨notMem_opened_hidden, hn⟩

lemma served_opened (ho : path ∉ c.order) : (c.opened path).served = c.served ++ [path] := by
  have hn : path ∉ pushNew (· ∉ c.hidden) [] (c.base ++ c.added) := by
    simpa [served, unionPaths] using hp
  exact (congrArg (arranged c.order) (natural_opened h hp)).trans (arranged_append_new hn ho)

lemma filter_served_opened : (c.opened path).served.filter (· ≠ path) = c.served := by
  have hn : path ∉ pushNew (· ∉ c.hidden) [] (c.base ++ c.added) := by
    simpa [served, unionPaths] using hp
  have ha : (c.opened path).served = arranged c.order
      (pushNew (· ∉ c.hidden) [] (c.base ++ c.added) ++ [path]) :=
    congrArg (arranged c.order) (natural_opened h hp)
  rw [ha]
  exact filter_arranged_append hn

omit h hp

lemma mem_served_opened : path ∈ (c.opened path).served := by
  refine mem_served.mpr ⟨Or.inr ?_, notMem_opened_hidden⟩
  by_cases ha : path ∈ c.added <;> simp [opened, ha]

lemma closed_opened (h : c.Closed) (ids : IdAssigner) : ({ c.opened path with ids } : _).Closed := by
  constructor
  · intro p hm
    by_cases hh : path ∈ c.hidden
    · have : p ∈ c.hidden ∧ p ≠ path := by simpa [opened, hh] using hm
      have := h.notAdded p this.1
      by_cases ha : path ∈ c.added <;> simp_all [opened]
    · have hm' : p ∈ c.hidden := by simpa [opened, hh] using hm
      have := h.notAdded p hm'
      by_cases ha : path ∈ c.added
      · simpa [opened, ha] using this
      · simp only [opened, ha, if_false, List.mem_append, List.mem_singleton, not_or]
        exact ⟨this, fun he => hh (he ▸ hm')⟩
  · intro p hm
    apply h.notOrdered
    by_cases hh : path ∈ c.hidden
    · exact (by simpa [opened, hh] using hm : p ∈ c.hidden ∧ p ≠ path).1
    · simpa [opened, hh] using hm

lemma closed_addPath (h : c.Closed) : (c.addPath path max).2.Closed := by
  rcases c.addPath_cases path max with ⟨id, -, -, he⟩ | ⟨-, -, he⟩ | ⟨-, -, he⟩ <;> rw [he]
  · exact ⟨h.notAdded, h.notOrdered⟩
  · exact ⟨h.notAdded, h.notOrdered⟩
  · exact closed_opened h _

lemma closed_removePath (h : c.Closed) : (c.removePath path).Closed := by
  have hm : ∀ p ∈ (c.removePath path).hidden, p = path ∨ p ∈ c.hidden := by
    intro p hp
    by_cases hh : path ∈ c.hidden
    · exact Or.inr (by simpa [removePath, hh] using hp)
    · simpa [removePath, hh, or_comm] using hp
  constructor
  · intro p hp
    rcases hm p hp with rfl | hq
    · simp [removePath]
    · simp [removePath, h.notAdded p hq]
  · intro p hp
    rcases hm p hp with rfl | hq
    · simp [removePath]
    · simp [removePath, h.notOrdered p hq]

lemma closed_reorder (h : c.Closed) (desired : List String) : (c.reorder desired).Closed := by
  refine ⟨h.notAdded, fun p hp ho => ?_⟩
  exact (mem_served.mp (mem_arranged.mp ho)).2 hp

lemma served_reorder (desired : List String) :
    (c.reorder desired).served = arranged desired c.served := by
  have hn : (pushNew (· ∉ c.hidden) [] (c.base ++ c.added)).Nodup := nodup_pushNew List.nodup_nil
  refine arranged_arranged ?_ hn
  exact (perm_arranged nodup_served).trans (perm_arranged hn)

structure AddPromise (c : CatalogMembership) (path : String) (max : ℕ) : Prop where
  presentIff : ∀ id, (c.addPath path max).1 = .present id ↔
    ⟨id, path⟩ ∈ (c.addPath path max).2.members.1
  bounded : (c.addPath path max).2.served = c.served ∨ (c.addPath path max).2.served.length ≤ max
  refused : (c.addPath path max).1 = .tooMany →
    (c.addPath path max).2 = { c with ids := (c.addPath path max).2.ids } ∧
    (c.addPath path max).2.ids.Extends c.ids ∧
    ∀ p ∉ c.served, (c.addPath path max).2.ids.byPath.lookup p = c.ids.byPath.lookup p
  keepsOthers : path ∉ c.served → (c.addPath path max).1 ≠ .tooMany →
    (c.addPath path max).2.served.filter (· ≠ path) = c.served
  addsLast : path ∉ c.served → (c.addPath path max).1 ≠ .tooMany → path ∉ c.order →
    (c.addPath path max).2.served = c.served ++ [path]

lemma extends_members : c.members.2.ids.Extends c.ids := IdAssigner.extends_membersOf

lemma addPromise (h : c.Closed) (path : String) (max : ℕ) : c.AddPromise path max := by
  rcases c.addPath_cases path max with ⟨id, hp, hid, he⟩ | ⟨hp, hm, he⟩ | ⟨hp, hm, he⟩
  · have hmem : ∀ id', (⟨id', path⟩ : Member) ∈ c.members.2.members.1 ↔ id = id' := by
      intro id'
      rw [mem_members]
      have := extends_members (c := c.members.2) path id hid
      simp [this, hp]
    constructor <;> rw [he]
    · intro id'
      rw [hmem, AddMembership.present.injEq]
    · exact Or.inl rfl
    · intro hf
      cases hf
    · exact fun hn => absurd hp hn
    · exact fun hn => absurd hp hn
  · constructor <;> rw [he]
    · intro id
      simp only [reduceCtorEq, false_iff, mem_members]
      exact fun hf => hp hf.1
    · exact Or.inl rfl
    · intro _
      exact ⟨rfl, extends_members, fun p hq => IdAssigner.lookup_membersOf_of_notMem hq⟩
    · exact fun _ hn => absurd rfl hn
    · exact fun _ hn => absurd rfl hn
  · set d : CatalogMembership :=
      { c.opened path with ids := (c.members.2.ids.idFor path).2 } with hd
    have hs : d.served = (c.opened path).served := rfl
    have hid : d.ids.byPath.lookup path = some (c.members.2.ids.idFor path).1 :=
      IdAssigner.lookup_idFor
    constructor <;> rw [he]
    · intro id
      rw [mem_members, hs]
      have := extends_members (c := d) path _ hid
      simp [this, mem_served_opened]
    · exact Or.inr hm
    · intro hf
      cases hf
    · intro _ _
      exact filter_served_opened h hp
    · intro _ _ ho
      exact served_opened h hp ho

end CatalogMembership

/-! ## Histories -/

inductive Op
  | setPaths (paths : List String)
  | addPath (path : String) (max : ℕ)
  | removePath (path : String)
  | reorder (desired : List String)
  | members

/-- A membership, every id it has answered with, and the paths removed from it that no
`add_path` has let in since. -/
structure History where
  membership : CatalogMembership := {}
  answers : List Member := []
  removed : List String := []

namespace History

def step (h : History) : Op → Option History
  | .setPaths paths => some { h with membership := h.membership.setPaths paths }
  | .addPath path max =>
    let r := h.membership.addPath path max
    match r.1 with
    | .present id => some
      { membership := r.2
        answers := ⟨id, path⟩ :: h.answers
        removed := h.removed.filter (· ≠ path) }
    | .tooMany => some { h with membership := r.2 }
  | .removePath path => some
    { h with membership := h.membership.removePath path, removed := path :: h.removed }
  | .reorder desired => some { h with membership := h.membership.reorder desired }
  | .members => some
    { h with
      membership := h.membership.members.2
      answers := h.membership.members.1 ++ h.answers }

structure Sound (h : History) : Prop where
  closed : h.membership.Closed
  hidden : ∀ p ∈ h.removed, p ∈ h.membership.hidden
  answered : ∀ m ∈ h.answers, h.membership.ids.byPath.lookup m.path = some m.id

lemma sound_empty : Sound {} := by
  constructor
  · constructor <;> simp
  · simp
  · simp

variable {h t : History}

lemma sound_addPath (hs : h.Sound) {path : String} {max : ℕ}
    (ht : h.step (.addPath path max) = some t) : t.Sound := by
  have hc : (h.membership.addPath path max).2.Closed :=
    CatalogMembership.closed_addPath hs.closed
  have hk : ∀ m ∈ h.answers, h.membership.members.2.ids.byPath.lookup m.path = some m.id :=
    fun m hm => CatalogMembership.extends_members _ _ (hs.answered m hm)
  rcases h.membership.addPath_cases path max with ⟨id, -, hid, he⟩ | ⟨-, -, he⟩ | ⟨-, -, he⟩ <;>
    rw [he] at hc <;> simp only [step, he, Option.some.injEq] at ht <;> subst ht
  · refine ⟨hc, fun p hp => hs.hidden p (List.mem_of_mem_filter hp), ?_⟩
    intro m hm
    rcases List.mem_cons.mp hm with rfl | hm
    · exact hid
    · exact hk m hm
  · exact ⟨hc, hs.hidden, hk⟩
  · refine ⟨hc, ?_, ?_⟩
    · intro p hp
      obtain ⟨hp, hne⟩ := List.mem_filter.mp hp
      have hh := hs.hidden p hp
      by_cases hm : path ∈ h.membership.hidden
      · simpa [CatalogMembership.opened, hm, hh] using hne
      · simpa [CatalogMembership.opened, hm] using hh
    · intro m hm
      rcases List.mem_cons.mp hm with rfl | hm
      · exact IdAssigner.lookup_idFor
      · exact IdAssigner.extends_idFor _ _ (hk m hm)

lemma sound_step {op : Op} (hs : h.Sound) (ht : h.step op = some t) : t.Sound := by
  cases op with
  | setPaths paths =>
    cases ht
    exact ⟨⟨hs.closed.notAdded, hs.closed.notOrdered⟩, hs.hidden, hs.answered⟩
  | addPath path max => exact sound_addPath hs ht
  | removePath path =>
    cases ht
    refine ⟨CatalogMembership.closed_removePath hs.closed, ?_, hs.answered⟩
    intro p hp
    simp only [CatalogMembership.removePath]
    rcases List.mem_cons.mp hp with rfl | hp
    · split
      · assumption
      · exact List.mem_append_right _ (List.mem_singleton_self _)
    · split
      · exact hs.hidden p hp
      · exact List.mem_append_left _ (hs.hidden p hp)
  | reorder desired =>
    cases ht
    exact ⟨CatalogMembership.closed_reorder hs.closed desired, hs.hidden, hs.answered⟩
  | members =>
    cases ht
    refine ⟨⟨hs.closed.notAdded, hs.closed.notOrdered⟩, hs.hidden, ?_⟩
    intro m hm
    rcases List.mem_append.mp hm with hm | hm
    · exact (CatalogMembership.mem_members.mp hm).2
    · exact CatalogMembership.extends_members _ _ (hs.answered m hm)

lemma sound_run {ops : List Op} (hr : run step {} ops = some h) : h.Sound :=
  run_invariant (fun _ _ _ hs => sound_step hs) sound_empty hr

structure Promises (h : History) : Prop where
  distinct : (h.membership.members.1.map (·.path)).Nodup
  neverHidden : ∀ m ∈ h.membership.members.1, m.path ∉ h.membership.hidden
  oneId : ∀ m ∈ h.answers, ∀ n ∈ h.answers, m.path = n.path ↔ m.id = n.id
  adds : ∀ path max, h.membership.AddPromise path max
  noOldSlot : ∀ p ∈ h.membership.hidden, p ∉ h.membership.order
  staysClosed : ∀ paths, ∀ p ∈ h.removed, p ∉ (h.membership.setPaths paths).served
  onlyOrder : ∀ desired,
    h.membership.reorder desired =
      { h.membership with order := (h.membership.reorder desired).order } ∧
    (h.membership.reorder desired).served.Perm h.membership.served

theorem promises_kept {ops : List Op} (hr : run step {} ops = some h) : h.Promises := by
  have hs := sound_run hr
  constructor
  · rw [CatalogMembership.members_paths]
    exact CatalogMembership.nodup_served
  · intro m hm
    exact (CatalogMembership.mem_served.mp (CatalogMembership.mem_members.mp hm).1).2
  · intro m hm n hn
    have hm' := hs.answered m hm
    have hn' := hs.answered n hn
    constructor
    · intro he
      rw [he, hn', Option.some.injEq] at hm'
      exact hm'.symm
    · intro he
      rw [← he] at hn'
      exact IdAssigner.distinct _ _ _ _ hm' hn'
  · exact CatalogMembership.addPromise hs.closed
  · exact hs.closed.notOrdered
  · intro paths p hp hm
    exact (CatalogMembership.mem_served.mp hm).2 (hs.hidden p hp)
  · intro desired
    refine ⟨rfl, ?_⟩
    rw [CatalogMembership.served_reorder]
    exact perm_arranged CatalogMembership.nodup_served

def reopened : List Op :=
  [.setPaths ["a", "b"], .reorder ["b", "a"], .removePath "a", .addPath "a" 2]

theorem promises_kept_reopened : ∃ h, run step {} reopened = some h ∧ h.Promises := by
  have hr : ∃ h, run step {} reopened = some h := ⟨_, rfl⟩
  obtain ⟨h, hr⟩ := hr
  exact ⟨h, hr, promises_kept hr⟩

/-- A path that kept its slot in `order` while the base dropped it comes back into that slot,
and a refused opening hands ids to the paths already served. -/
theorem slot_kept_and_ids_given :
    (∃ h, run step {} [.setPaths ["a", "b"], .reorder ["a", "b"], .setPaths ["b"]] = some h ∧
      h.membership.served = ["b"] ∧ (h.membership.addPath "a" 2).1 = .present "r2" ∧
      (h.membership.addPath "a" 2).2.served = ["a", "b"]) ∧
    ∃ h, run step {} [.setPaths ["a"]] = some h ∧ (h.membership.addPath "b" 1).1 = .tooMany ∧
      (h.membership.addPath "b" 1).2 ≠ h.membership := by
  refine ⟨⟨_, rfl, rfl, rfl, rfl⟩, _, rfl, rfl, ?_⟩
  intro he
  exact absurd (congrArg (fun c => c.ids.next) he) (by decide)

end History

end Nightcrow.Session.Catalog
