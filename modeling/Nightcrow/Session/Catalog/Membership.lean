import Nightcrow.Library.Ordered
import Nightcrow.Library.Table

namespace Nightcrow.Session.Catalog

open Nightcrow.Library

def idName (n : ℕ) : String := "r" ++ toString n

lemma idName_injective : Function.Injective idName := by
  intro m n h
  have h' : (toString m).toList = (toString n).toList := by
    have := congrArg String.toList h
    simpa [idName] using this
  exact Nat.repr_injective (String.ext_iff.mpr h')

/-- `next` counts the entries of `byPath`, so a table that fits in memory never wraps the
`u64` it is. -/
structure IdAssigner where
  next : ℕ
  byPath : Table String String
  named : ∀ path id, byPath.lookup path = some id → ∃ n ≤ next, id = idName n
  distinct : ∀ path other id,
    byPath.lookup path = some id → byPath.lookup other = some id → path = other

namespace IdAssigner

def empty : IdAssigner := ⟨0, ∅, by simp, by simp⟩

variable (ids : IdAssigner) (path : String)

lemma fresh {other id : String} (h : ids.byPath.lookup other = some id) :
    id ≠ idName (ids.next + 1) := by
  obtain ⟨n, hn, rfl⟩ := ids.named other id h
  intro hi
  have := idName_injective hi
  omega

def assign : IdAssigner where
  next := ids.next + 1
  byPath := ids.byPath.insert path (idName (ids.next + 1))
  named := by
    intro other id h
    by_cases ho : other = path
    · subst ho
      rw [AList.lookup_insert, Option.some.injEq] at h
      exact ⟨_, le_refl _, h.symm⟩
    · rw [AList.lookup_insert_ne ho] at h
      obtain ⟨n, hn, hi⟩ := ids.named other id h
      exact ⟨n, Nat.le_succ_of_le hn, hi⟩
  distinct := by
    intro p q id hp hq
    by_cases hpp : p = path
    · by_cases hqp : q = path
      · exact hpp.trans hqp.symm
      · subst hpp
        rw [AList.lookup_insert, Option.some.injEq] at hp
        rw [AList.lookup_insert_ne hqp] at hq
        exact absurd hp.symm (ids.fresh hq)
    · rw [AList.lookup_insert_ne hpp] at hp
      by_cases hqp : q = path
      · subst hqp
        rw [AList.lookup_insert, Option.some.injEq] at hq
        exact absurd hq.symm (ids.fresh hp)
      · rw [AList.lookup_insert_ne hqp] at hq
        exact ids.distinct p q id hp hq

def idFor : String × IdAssigner :=
  match ids.byPath.lookup path with
  | some existing => (existing, ids)
  | none => (idName (ids.next + 1), ids.assign path)

def Extends (later ids : IdAssigner) : Prop :=
  ∀ path id, ids.byPath.lookup path = some id → later.byPath.lookup path = some id

variable {ids path}

lemma Extends.refl : Extends ids ids := fun _ _ h => h

lemma Extends.trans {mid later : IdAssigner} (h : Extends later mid) (h' : Extends mid ids) :
    Extends later ids :=
  fun path id hp => h path id (h' path id hp)

lemma lookup_idFor : (ids.idFor path).2.byPath.lookup path = some (ids.idFor path).1 := by
  unfold idFor
  split
  next h => exact h
  next => exact AList.lookup_insert _

lemma lookup_idFor_ne {other : String} (h : other ≠ path) :
    (ids.idFor path).2.byPath.lookup other = ids.byPath.lookup other := by
  unfold idFor
  split
  · rfl
  · exact AList.lookup_insert_ne h

lemma extends_idFor : Extends (ids.idFor path).2 ids := by
  intro other id h
  by_cases ho : other = path
  · subst ho
    simp [idFor, h]
  · rw [lookup_idFor_ne ho, h]

lemma idFor_of_lookup {id : String} (h : ids.byPath.lookup path = some id) :
    ids.idFor path = (id, ids) := by
  simp [idFor, h]

end IdAssigner

structure Member where
  id : String
  path : String
deriving DecidableEq

def IdAssigner.membersOf : IdAssigner → List String → List Member × IdAssigner
  | ids, [] => ([], ids)
  | ids, path :: paths =>
    let r := (ids.idFor path).2.membersOf paths
    (⟨(ids.idFor path).1, path⟩ :: r.1, r.2)

namespace IdAssigner

variable {ids : IdAssigner} {paths : List String}

lemma extends_membersOf : Extends (ids.membersOf paths).2 ids := by
  induction paths generalizing ids with
  | nil => exact Extends.refl
  | cons path paths ih => exact ih.trans extends_idFor

lemma membersOf_paths : (ids.membersOf paths).1.map (·.path) = paths := by
  induction paths generalizing ids with
  | nil => rfl
  | cons path paths ih => exact congrArg _ ih

lemma lookup_membersOf {m : Member} (h : m ∈ (ids.membersOf paths).1) :
    (ids.membersOf paths).2.byPath.lookup m.path = some m.id := by
  induction paths generalizing ids with
  | nil => exact absurd h List.not_mem_nil
  | cons path paths ih =>
    rcases List.mem_cons.mp h with rfl | h
    · have he : Extends ((ids.idFor path).2.membersOf paths).2 (ids.idFor path).2 :=
        extends_membersOf
      exact he path _ lookup_idFor
    · exact ih h

lemma lookup_membersOf_of_notMem {path : String} (h : path ∉ paths) :
    (ids.membersOf paths).2.byPath.lookup path = ids.byPath.lookup path := by
  induction paths generalizing ids with
  | nil => rfl
  | cons other paths ih =>
    rw [List.mem_cons, not_or] at h
    exact (ih h.2).trans (lookup_idFor_ne h.1)

lemma mem_membersOf {path id : String} (h : path ∈ paths)
    (hid : (ids.membersOf paths).2.byPath.lookup path = some id) :
    ⟨id, path⟩ ∈ (ids.membersOf paths).1 := by
  have hp : path ∈ (ids.membersOf paths).1.map (·.path) := by
    rwa [membersOf_paths]
  obtain ⟨m, hm, rfl⟩ := List.mem_map.mp hp
  have := (lookup_membersOf hm).symm.trans hid
  rw [← Option.some.inj this]
  exact hm

end IdAssigner

def unionPaths (base added hidden order : List String) : List String :=
  let natural := pushNew (· ∉ hidden) [] (base ++ added)
  arranged order natural

structure CatalogMembership where
  ids : IdAssigner := .empty
  base : List String := []
  added : List String := []
  hidden : List String := []
  order : List String := []

inductive AddMembership
  | present (id : String)
  | tooMany
deriving DecidableEq

namespace CatalogMembership

variable (c : CatalogMembership)

-- `union_paths`
def served : List String := unionPaths c.base c.added c.hidden c.order

def members : List Member × CatalogMembership :=
  let r := c.ids.membersOf c.served
  (r.1, { c with ids := r.2 })

def unionPathsWithVisible (path : String) (wasHidden : Bool) : List String :=
  unionPaths (if wasHidden then c.base.filter (· ≠ path) else c.base)
    (if path ∈ c.added then c.added else c.added ++ [path])
    (c.hidden.filter (fun hidden => !wasHidden || hidden ≠ path)) c.order

def setPaths (paths : List String) : CatalogMembership := { c with base := paths }

def addPath (path : String) (max : ℕ) : AddMembership × CatalogMembership :=
  let r := c.members
  match r.1.find? (·.path = path) with
  | some member => (.present member.id, r.2)
  | none =>
    let c := r.2
    let wasHidden := decide (path ∈ c.hidden)
    if max < (c.unionPathsWithVisible path wasHidden).length then (.tooMany, c)
    else
      let r := c.ids.idFor path
      (.present r.1,
        { c with
          ids := r.2
          hidden := if wasHidden then c.hidden.filter (· ≠ path) else c.hidden
          base := if wasHidden then c.base.filter (· ≠ path) else c.base
          added := if path ∈ c.added then c.added else c.added ++ [path] })

def removePath (path : String) : CatalogMembership :=
  { c with
    added := c.added.filter (· ≠ path)
    base := c.base.filter (· ≠ path)
    order := c.order.filter (· ≠ path)
    hidden := if path ∈ c.hidden then c.hidden else c.hidden ++ [path] }

def reorder (desired : List String) : CatalogMembership :=
  { c with order := arranged desired c.served }

end CatalogMembership

end Nightcrow.Session.Catalog
