import Nightcrow.Library.Remembered
import Nightcrow.Platform.Path
import Mathlib.Data.Char

namespace Nightcrow.Session

open Nightcrow.Library Nightcrow.Platform

inductive Accent
  | yellow
  | cyan
  | green
  | magenta
  | blue
deriving DecidableEq, Repr

def Accent.all : List Accent := [.yellow, .cyan, .green, .magenta, .blue]

def defaultUpperPct : ℕ := 55

def minUpperPct : ℕ := 20

def maxUpperPct : ℕ := 85

def clampPct (pct : ℕ) : ℕ := max minUpperPct (min pct maxUpperPct)

inductive MaximizedPanel
  | files
  | terminal
deriving DecidableEq, Repr

structure RepoMaximized where
  repo : String
  panel : MaximizedPanel
deriving DecidableEq, Repr

namespace RepoMaximized

def maxRemembered : ℕ := 50

def remember (list : List RepoMaximized) (repo : String) : Option MaximizedPanel →
    List RepoMaximized
  | none => list.filter fun entry => entry.repo ≠ repo
  | some panel => (setFirst RepoMaximized.repo { repo, panel } list).take maxRemembered

def normalize (list : List RepoMaximized) : List RepoMaximized :=
  (firsts RepoMaximized.repo [] list).take maxRemembered

def panelOf (list : List RepoMaximized) (repo : String) : Option MaximizedPanel :=
  (valueOf RepoMaximized.repo repo list).map RepoMaximized.panel

end RepoMaximized

inductive ViewTab
  | status
  | log
  | tree
deriving DecidableEq, Repr

inductive ViewFace
  | diff
  | source
deriving DecidableEq, Repr

structure ViewFile where
  path : String
  commit : Option String := none
  face : ViewFace
deriving DecidableEq, Repr

structure RepoView where
  repo : String
  tab : ViewTab
  file : Option ViewFile := none
  treeExpanded : List String := []
deriving DecidableEq, Repr

def isSafeRelPath (os : Os) (rel : String) : Bool :=
  rel ≠ "" && (components os rel.toList).all fun c =>
    match c with
    | .normal _ | .curDir => true
    | .volume _ | .rootDir | .parentDir => false

namespace RepoView

def maxRememberedViews : ℕ := 50

def maxTreeExpanded : ℕ := 200

def maxOidLen : ℕ := 40

def isSafe (os : Os) (path : String) : Bool := '\x00' ∉ path.toList && isSafeRelPath os path

def isHexDigit (c : Char) : Bool :=
  c.isDigit || ('a' ≤ c && c ≤ 'f') || ('A' ≤ c && c ≤ 'F')

def isOid (oid : String) : Bool :=
  oid ≠ "" && oid.utf8ByteSize ≤ maxOidLen && oid.toList.all isHexDigit

def fileAllowed (os : Os) (file : ViewFile) : Bool :=
  isSafe os file.path && file.commit.all isOid

def sanitize (os : Os) (view : RepoView) : RepoView :=
  { view with
    file := view.file.filter (fileAllowed os)
    treeExpanded := (view.treeExpanded.filter (isSafe os)).take maxTreeExpanded }

def remember (os : Os) (list : List RepoView) (view : RepoView) : List RepoView :=
  (setFirst RepoView.repo (sanitize os view) list).take maxRememberedViews

def viewOf (list : List RepoView) (repo : String) : Option RepoView :=
  valueOf RepoView.repo repo list

def normalize (os : Os) (list : List RepoView) : List RepoView :=
  ((firsts RepoView.repo [] list).take maxRememberedViews).map (sanitize os)

end RepoView

structure ViewerPrefs where
  accent : ℕ := 0
  upperPct : ℕ := defaultUpperPct
  activeRepo : Option String := none
  maximized : List RepoMaximized := []
  views : List RepoView := []
deriving DecidableEq, Repr

structure MaximizedUpdate where
  repo : String
  panel : Option MaximizedPanel

structure PrefsUpdate where
  accent : Option ℕ := none
  upperPct : Option ℕ := none
  activeRepo : Option String := none
  maximized : Option MaximizedUpdate := none
  view : Option RepoView := none

inductive PrefsChange
  | update (change : PrefsUpdate)
  | setActiveRepoIf (expected : Option String) (next : String)

namespace ViewerPrefs

variable (os : Os)

def atOr (file : Option ViewerPrefs) (absent : ViewerPrefs) : ViewerPrefs :=
  let state := file.getD absent
  { state with
    upperPct := clampPct state.upperPct
    maximized := RepoMaximized.normalize state.maximized
    views := RepoView.normalize os state.views }

def update (state : ViewerPrefs) (change : PrefsUpdate) : ViewerPrefs where
  accent := (change.accent.map fun accent => accent % Accent.all.length).getD state.accent
  upperPct := (change.upperPct.map clampPct).getD state.upperPct
  activeRepo := change.activeRepo.or state.activeRepo
  maximized :=
    match change.maximized with
    | some change => RepoMaximized.remember state.maximized change.repo change.panel
    | none => state.maximized
  views :=
    match change.view with
    | some view => RepoView.remember os state.views view
    | none => state.views

def setActiveRepoIf (state : ViewerPrefs) (expected : Option String) (next : String) :
    ViewerPrefs :=
  if state.activeRepo = expected then { state with activeRepo := some next } else state

def mutate (state : ViewerPrefs) : PrefsChange → ViewerPrefs
  | .update change => state.update os change
  | .setActiveRepoIf expected next => state.setActiveRepoIf expected next

def served (file : Option ViewerPrefs) (absent : ViewerPrefs) (changes : List PrefsChange) :
    ViewerPrefs :=
  changes.foldl (mutate os) (atOr os file absent)

end ViewerPrefs

namespace RepoMaximized

variable {list : List RepoMaximized} {repo other : String} {panel : Option MaximizedPanel}

lemma remember_bound (h : list.length ≤ maxRemembered) :
    (remember list repo panel).length ≤ maxRemembered := by
  cases panel with
  | none => exact (List.length_filter_le _ _).trans h
  | some panel => exact List.length_take_le _ _

lemma remember_nodup (h : (list.map RepoMaximized.repo).Nodup) :
    ((remember list repo panel).map RepoMaximized.repo).Nodup := by
  cases panel with
  | none => exact h.sublist (List.filter_sublist.map _)
  | some panel => exact (nodup_setFirst h).sublist ((List.take_sublist _ _).map _)

lemma panelOf_remember : panelOf (remember list repo panel) repo = panel := by
  cases panel with
  | none =>
    have hnone : valueOf RepoMaximized.repo repo
        (list.filter fun entry => entry.repo ≠ repo) = none := by
      rw [valueOf, List.find?_eq_none]
      intro entry hentry
      simpa using (List.mem_filter.mp hentry).2
    rw [panelOf, remember, hnone]
    rfl
  | some panel =>
    have hfirst : repo ∈ ((setFirst RepoMaximized.repo { repo, panel } list).take
        maxRemembered).map RepoMaximized.repo := by
      rw [setFirst, maxRemembered, List.take_succ_cons]
      exact List.mem_cons_self
    rw [panelOf, remember, valueOf_take (.inl hfirst)]
    exact congrArg (Option.map RepoMaximized.panel)
      (@valueOf_setFirst _ _ _ RepoMaximized.repo list { repo, panel })

lemma panelOf_remember_of_ne (h : other ≠ repo)
    (hkept : other ∈ (remember list repo panel).map RepoMaximized.repo ∨
      other ∉ list.map RepoMaximized.repo) :
    panelOf (remember list repo panel) other = panelOf list other := by
  cases panel with
  | none => exact congrArg (Option.map RepoMaximized.panel) (valueOf_filter h)
  | some panel =>
    have hin : other ∈ ((setFirst RepoMaximized.repo { repo, panel } list).take
          maxRemembered).map RepoMaximized.repo ∨
        other ∉ (setFirst RepoMaximized.repo { repo, panel } list).map RepoMaximized.repo := by
      refine hkept.imp (fun h0 => h0) fun hnot hmem => ?_
      rcases mem_keys_setFirst.mp hmem with he | hmem
      · exact h he
      · exact hnot hmem
    rw [panelOf, panelOf, remember, valueOf_take hin, valueOf_setFirst_of_ne h]

lemma panelOf_normalize (h : repo ∈ ((list.map RepoMaximized.repo).eraseDups).take maxRemembered) :
    panelOf (normalize list) repo = panelOf list repo := by
  have hmem : repo ∈ ((firsts RepoMaximized.repo [] list).take maxRemembered).map
      RepoMaximized.repo := by
    rw [List.map_take, keys_firsts]
    simpa using h
  rw [panelOf, panelOf, normalize, valueOf_take (.inl hmem), valueOf_firsts List.not_mem_nil]

lemma normalize_of_distinct (hn : (list.map RepoMaximized.repo).Nodup)
    (hl : list.length ≤ maxRemembered) : normalize list = list := by
  rw [normalize, firsts_of_nodup hn (fun _ _ => List.not_mem_nil), List.take_of_length_le hl]

lemma normalize_nodup : ((normalize list).map RepoMaximized.repo).Nodup :=
  nodup_firsts.sublist ((List.take_sublist _ _).map _)

end RepoMaximized

namespace RepoView

variable {os : Os} {list : List RepoView} {view : RepoView} {repo other : String}

structure Allowed (os : Os) (view : RepoView) : Prop where
  file : ∀ file, view.file = some file → isSafe os file.path = true ∧
    ∀ oid, file.commit = some oid → isOid oid = true
  expanded : ∀ path ∈ view.treeExpanded, isSafe os path = true
  bound : view.treeExpanded.length ≤ maxTreeExpanded

lemma allowed_sanitize (os : Os) (view : RepoView) : (sanitize os view).Allowed os := by
  refine ⟨fun file hfile => ?_, fun path hpath => ?_, List.length_take_le _ _⟩
  · have hallowed := (Option.filter_eq_some_iff.mp hfile).2
    rw [fileAllowed, Bool.and_eq_true] at hallowed
    refine ⟨hallowed.1, fun oid hoid => ?_⟩
    rw [hoid] at hallowed
    exact hallowed.2
  · exact (List.mem_filter.mp (List.mem_of_mem_take hpath)).2

lemma sanitize_of_allowed (h : view.Allowed os) : sanitize os view = view := by
  have hfile : view.file.filter (fileAllowed os) = view.file := by
    cases hf : view.file with
    | none => rfl
    | some file =>
      obtain ⟨hsafe, hoid⟩ := h.file file hf
      have hallowed : fileAllowed os file = true := by
        rw [fileAllowed, hsafe, Bool.true_and]
        cases hc : file.commit with
        | none => rfl
        | some oid => exact hoid oid hc
      rw [Option.filter, if_pos hallowed]
  have hexpanded : (view.treeExpanded.filter (isSafe os)).take maxTreeExpanded =
      view.treeExpanded := by
    rw [List.filter_eq_self.mpr h.expanded, List.take_of_length_le h.bound]
  rw [sanitize, hfile, hexpanded]

lemma remember_nodup (h : (list.map RepoView.repo).Nodup) :
    ((remember os list view).map RepoView.repo).Nodup :=
  (nodup_setFirst h).sublist ((List.take_sublist _ _).map _)

lemma remember_allowed (h : ∀ entry ∈ list, entry.Allowed os) :
    ∀ entry ∈ remember os list view, entry.Allowed os := by
  intro entry hentry
  rcases List.mem_cons.mp (List.mem_of_mem_take hentry) with rfl | hentry
  · exact allowed_sanitize os view
  · exact h entry (List.mem_filter.mp hentry).1

lemma viewOf_remember : viewOf (remember os list view) view.repo = some (sanitize os view) := by
  have hfirst : view.repo ∈ ((setFirst RepoView.repo (sanitize os view) list).take
      maxRememberedViews).map RepoView.repo := by
    rw [setFirst, maxRememberedViews, List.take_succ_cons]
    exact List.mem_cons_self
  rw [viewOf, remember, valueOf_take (.inl hfirst)]
  exact @valueOf_setFirst _ _ _ RepoView.repo list (sanitize os view)

lemma viewOf_remember_of_ne (h : other ≠ view.repo)
    (hkept : other ∈ (remember os list view).map RepoView.repo ∨
      other ∉ list.map RepoView.repo) :
    viewOf (remember os list view) other = viewOf list other := by
  have hin : other ∈ ((setFirst RepoView.repo (sanitize os view) list).take
        maxRememberedViews).map RepoView.repo ∨
      other ∉ (setFirst RepoView.repo (sanitize os view) list).map RepoView.repo := by
    refine hkept.imp (fun h0 => h0) fun hnot hmem => ?_
    rcases mem_keys_setFirst.mp hmem with he | hmem
    · exact h he
    · exact hnot hmem
  rw [viewOf, viewOf, remember, valueOf_take hin]
  exact valueOf_setFirst_of_ne h

lemma valueOf_map_sanitize : valueOf RepoView.repo repo (list.map (sanitize os)) =
    (valueOf RepoView.repo repo list).map (sanitize os) := by
  rw [valueOf, valueOf, List.find?_map]
  rfl

lemma viewOf_normalize (h : repo ∈ ((list.map RepoView.repo).eraseDups).take maxRememberedViews) :
    viewOf (normalize os list) repo = (viewOf list repo).map (sanitize os) := by
  have hmem : repo ∈ ((firsts RepoView.repo [] list).take maxRememberedViews).map
      RepoView.repo := by
    rw [List.map_take, keys_firsts]
    simpa using h
  rw [viewOf, viewOf, normalize, valueOf_map_sanitize, valueOf_take (.inl hmem),
    valueOf_firsts List.not_mem_nil]

lemma normalize_of_allowed (hn : (list.map RepoView.repo).Nodup)
    (hl : list.length ≤ maxRememberedViews) (ha : ∀ view ∈ list, view.Allowed os) :
    normalize os list = list := by
  rw [normalize, firsts_of_nodup hn (fun _ _ => List.not_mem_nil), List.take_of_length_le hl,
    List.map_congr_left (g := fun view => view) fun view hview => sanitize_of_allowed (ha view hview)]
  exact List.map_id' list

lemma normalize_nodup : ((normalize os list).map RepoView.repo).Nodup := by
  have hkeys : (normalize os list).map RepoView.repo =
      ((firsts RepoView.repo [] list).take maxRememberedViews).map RepoView.repo := by
    rw [normalize, List.map_map]
    rfl
  rw [hkeys]
  exact nodup_firsts.sublist ((List.take_sublist _ _).map _)

end RepoView

def PrefsChange.SetsAccent : PrefsChange → Prop
  | .update change => change.accent.isSome = true
  | .setActiveRepoIf _ _ => False

namespace ViewerPrefs

variable {os : Os} {state : ViewerPrefs}

structure Stored (os : Os) (state : ViewerPrefs) : Prop where
  pct : minUpperPct ≤ state.upperPct ∧ state.upperPct ≤ maxUpperPct
  maximizedBound : state.maximized.length ≤ RepoMaximized.maxRemembered
  maximizedDistinct : (state.maximized.map RepoMaximized.repo).Nodup
  viewsBound : state.views.length ≤ RepoView.maxRememberedViews
  viewsDistinct : (state.views.map RepoView.repo).Nodup
  views : ∀ view ∈ state.views, view.Allowed os

def FollowsRules (os : Os) (state : ViewerPrefs) : Prop :=
  state.accent < Accent.all.length ∧ state.Stored os

lemma clampPct_bounds (pct : ℕ) : minUpperPct ≤ clampPct pct ∧ clampPct pct ≤ maxUpperPct := by
  simp only [clampPct, minUpperPct, maxUpperPct]
  omega

lemma clampPct_of_bounds {pct : ℕ} (h : minUpperPct ≤ pct ∧ pct ≤ maxUpperPct) :
    clampPct pct = pct := by
  simp only [clampPct, minUpperPct, maxUpperPct] at h ⊢
  omega

lemma stored_atOr (os : Os) (file : Option ViewerPrefs) (absent : ViewerPrefs) :
    (atOr os file absent).Stored os := by
  refine ⟨clampPct_bounds _, List.length_take_le _ _, RepoMaximized.normalize_nodup, ?_,
    RepoView.normalize_nodup, ?_⟩
  · rw [atOr, RepoView.normalize, List.length_map]
    exact List.length_take_le _ _
  · intro view hview
    obtain ⟨entry, -, rfl⟩ := List.mem_map.mp hview
    exact RepoView.allowed_sanitize os entry

lemma Stored.update (h : state.Stored os) (change : PrefsUpdate) :
    (state.update os change).Stored os := by
  refine ⟨?_, ?_, ?_, ?_, ?_, ?_⟩
  · simp only [ViewerPrefs.update]
    cases change.upperPct with
    | none => exact h.pct
    | some pct => exact clampPct_bounds pct
  · simp only [ViewerPrefs.update]
    cases change.maximized with
    | none => exact h.maximizedBound
    | some change => exact RepoMaximized.remember_bound h.maximizedBound
  · simp only [ViewerPrefs.update]
    cases change.maximized with
    | none => exact h.maximizedDistinct
    | some change => exact RepoMaximized.remember_nodup h.maximizedDistinct
  · simp only [ViewerPrefs.update]
    cases change.view with
    | none => exact h.viewsBound
    | some view => exact List.length_take_le _ _
  · simp only [ViewerPrefs.update]
    cases change.view with
    | none => exact h.viewsDistinct
    | some view => exact RepoView.remember_nodup h.viewsDistinct
  · simp only [ViewerPrefs.update]
    cases change.view with
    | none => exact h.views
    | some view => exact RepoView.remember_allowed h.views

lemma Stored.mutate (h : state.Stored os) (change : PrefsChange) :
    (state.mutate os change).Stored os := by
  cases change with
  | update change => exact h.update change
  | setActiveRepoIf expected next =>
    rw [ViewerPrefs.mutate, setActiveRepoIf]
    split_ifs
    · exact ⟨h.pct, h.maximizedBound, h.maximizedDistinct, h.viewsBound, h.viewsDistinct, h.views⟩
    · exact h

lemma stored_served (os : Os) (file : Option ViewerPrefs) (absent : ViewerPrefs)
    (changes : List PrefsChange) : (served os file absent changes).Stored os := by
  induction changes using List.reverseRecOn with
  | nil => exact stored_atOr os file absent
  | append_singleton changes change ih =>
    rw [served, List.foldl_append]
    exact Stored.mutate ih change

lemma accent_mutate (state : ViewerPrefs) (change : PrefsChange) :
    (state.mutate os change).accent < Accent.all.length ↔
      state.accent < Accent.all.length ∨ change.SetsAccent := by
  cases change with
  | setActiveRepoIf expected next =>
    rw [mutate, setActiveRepoIf, PrefsChange.SetsAccent, or_false]
    split_ifs <;> rfl
  | update change =>
    rw [PrefsChange.SetsAccent, mutate, update]
    cases ha : change.accent with
    | none => simp
    | some accent =>
      simp only [Option.map_some, Option.getD_some, Option.isSome_some, or_true, iff_true]
      exact Nat.mod_lt _ (by decide)

lemma accent_served (file : Option ViewerPrefs) (absent : ViewerPrefs)
    (changes : List PrefsChange) :
    (served os file absent changes).accent < Accent.all.length ↔
      (file.getD absent).accent < Accent.all.length ∨ ∃ change ∈ changes, change.SetsAccent := by
  induction changes using List.reverseRecOn with
  | nil => simp [served, atOr]
  | append_singleton changes change ih =>
    have hlast : served os file absent (changes ++ [change]) =
        (served os file absent changes).mutate os change := by
      rw [served, List.foldl_append]
      rfl
    rw [hlast, accent_mutate, ih, or_assoc]
    simp [or_and_right, exists_or]

lemma atOr_of_stored (h : state.Stored os) (absent : ViewerPrefs) :
    atOr os (some state) absent = state := by
  rw [atOr, Option.getD_some, clampPct_of_bounds h.pct,
    RepoMaximized.normalize_of_distinct h.maximizedDistinct h.maximizedBound,
    RepoView.normalize_of_allowed h.viewsDistinct h.viewsBound h.views]

/-- A file's accent is served as it was read. -/
theorem accent_is_served_unchecked : ¬ ∀ (os : Os) (file absent : ViewerPrefs)
    (changes : List PrefsChange), (served os (some file) absent changes).FollowsRules os := by
  intro hclaim
  exact absurd (hclaim .unix { accent := 9 } {} []).1 (by decide)

/-- What is served follows the write path's rules exactly when the file's accent does, or a write
has set the accent since. Beside the accent, what is loaded is what a write would have stored. -/
theorem served_follows_rules_iff (os : Os) (file absent : ViewerPrefs)
    (changes : List PrefsChange) :
    ((served os (some file) absent changes).FollowsRules os ↔
      file.accent < Accent.all.length ∨ ∃ change ∈ changes, change.SetsAccent) ∧
    (served os (some file) absent changes).Stored os ∧
    (∀ repo ∈ ((file.maximized.map RepoMaximized.repo).eraseDups).take
        RepoMaximized.maxRemembered,
      RepoMaximized.panelOf (atOr os (some file) absent).maximized repo =
        RepoMaximized.panelOf file.maximized repo) ∧
    (∀ repo ∈ ((file.views.map RepoView.repo).eraseDups).take RepoView.maxRememberedViews,
      RepoView.viewOf (atOr os (some file) absent).views repo =
        (RepoView.viewOf file.views repo).map (RepoView.sanitize os)) ∧
    atOr os (some (atOr os (some file) absent)) absent = atOr os (some file) absent ∧
    (∀ list repo panel,
      RepoMaximized.panelOf (RepoMaximized.remember list repo panel) repo = panel ∧
      ∀ other, other ≠ repo →
        other ∈ (RepoMaximized.remember list repo panel).map RepoMaximized.repo ∨
          other ∉ list.map RepoMaximized.repo →
        RepoMaximized.panelOf (RepoMaximized.remember list repo panel) other =
          RepoMaximized.panelOf list other) ∧
    ∀ list view,
      RepoView.viewOf (RepoView.remember os list view) view.repo =
        some (RepoView.sanitize os view) ∧
      ∀ other, other ≠ view.repo →
        other ∈ (RepoView.remember os list view).map RepoView.repo ∨
          other ∉ list.map RepoView.repo →
        RepoView.viewOf (RepoView.remember os list view) other = RepoView.viewOf list other := by
  refine ⟨?_, stored_served os _ absent changes, fun repo hrepo => ?_, fun repo hrepo => ?_,
    atOr_of_stored (stored_atOr os _ absent) absent, fun list repo panel => ?_,
    fun list view => ?_⟩
  · rw [FollowsRules, accent_served, Option.getD_some]
    exact and_iff_left (stored_served os _ absent changes)
  · exact RepoMaximized.panelOf_normalize hrepo
  · exact RepoView.viewOf_normalize hrepo
  · exact ⟨RepoMaximized.panelOf_remember,
      fun other hne hkept => RepoMaximized.panelOf_remember_of_ne hne hkept⟩
  · exact ⟨RepoView.viewOf_remember,
      fun other hne hkept => RepoView.viewOf_remember_of_ne hne hkept⟩

end ViewerPrefs

end Nightcrow.Session
