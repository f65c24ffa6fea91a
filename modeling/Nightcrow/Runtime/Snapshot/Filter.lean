import Mathlib

namespace Nightcrow.Runtime.Snapshot

abbrev Path := List (List Char)

def stripBase (base path : Path) : Option Path :=
  if base <+: path then some (path.drop base.length) else none

structure Prefix where
  given : Path
  canonical : Path
  deriving DecidableEq

def Prefix.relative (dir : Prefix) (path : Path) : Option Path :=
  (stripBase dir.canonical path).or (stripBase dir.given path)

structure Roots where
  tree : Prefix
  gitDir : Option Prefix := none
  deriving DecidableEq

def extension (path : Path) : Option (List Char) :=
  match path.getLast? with
  | none => none
  | some name =>
    let ext := name.rtakeWhile (fun c => c ≠ '.')
    if name.length ≤ ext.length + 1 then none else some ext

def gitMetadataMatters (inside : Path) : Bool :=
  if inside.head? = some "objects".toList ∨ inside.head? = some "logs".toList then false
  else extension inside ≠ some "lock".toList

structure Git where
  ignores : Path → Bool
  ignoresDir : Path → Bool

abbrev IgnoredDirs := List Path

def ancestors (relative : Path) : List Path := relative.inits.dropLast

def covers (ignored : IgnoredDirs) (relative : Path) : Bool :=
  (ancestors relative).any (fun dir => dir ∈ ignored)

def ignoredDir (git : Git) (relative : Path) : Option Path :=
  ((ancestors relative).drop 1).find? git.ignoresDir

def remember (git : Git) (ignored : IgnoredDirs) (relative : Path) : IgnoredDirs :=
  match ignoredDir git relative with
  | some dir => dir :: ignored
  | none => ignored

def pathMatters (git : Option Git) (roots : Roots) (ignored : IgnoredDirs) (path : Path) :
    Bool × IgnoredDirs :=
  match roots.gitDir.bind (fun dir => dir.relative path) with
  | some inside => (gitMetadataMatters inside, ignored)
  | none =>
    match roots.tree.relative path with
    | none => (true, ignored)
    | some relative =>
      match stripBase [".git".toList] relative with
      | some inside => (gitMetadataMatters inside, ignored)
      | none =>
        match git with
        | none => (true, ignored)
        | some git =>
          if covers ignored relative then (false, ignored)
          else if git.ignores relative then (false, remember git ignored relative)
          else (true, ignored)

def anyPath (git : Option Git) (roots : Roots) :
    IgnoredDirs → List Path → Bool × IgnoredDirs
  | ignored, [] => (false, ignored)
  | ignored, path :: paths =>
    match pathMatters git roots ignored path with
    | (true, ignored) => (true, ignored)
    | (false, ignored) => anyPath git roots ignored paths

def forgetIfRulesChange (ignored : IgnoredDirs) (paths : List Path) : IgnoredDirs :=
  if paths.any (fun path => path.getLast? = some ".gitignore".toList) then [] else ignored

def anyMatters (git : Option Git) (roots : Roots) (ignored : IgnoredDirs) (paths : List Path) :
    Bool × IgnoredDirs :=
  if paths = [] then (true, ignored)
  else anyPath git roots (forgetIfRulesChange ignored paths) paths

def Git.Hereditary (git : Git) : Prop :=
  ∀ dir path, git.ignoresDir dir → dir <+: path → dir ≠ path → git.ignores path

variable {git : Git} {roots : Roots} {ignored : IgnoredDirs} {path relative : Path}
  {paths : List Path}

lemma mem_ancestors {dir : Path} (h : dir ∈ ancestors relative) :
    dir <+: relative ∧ dir ≠ relative := by
  cases hr : relative.getLast? with
  | none =>
    rw [List.getLast?_eq_none_iff.mp hr] at h
    cases h
  | some name =>
    obtain ⟨rest, rfl⟩ := List.getLast?_eq_some_iff.mp hr
    rw [ancestors, List.inits_append] at h
    have hdir : dir <+: rest := by simpa using h
    refine ⟨hdir.trans (List.prefix_append _ _), fun heq => ?_⟩
    have hlen := hdir.length_le
    rw [heq, List.length_append, List.length_singleton] at hlen
    omega

lemma ignoresDir_of_remembered (h : ∀ dir ∈ ignored, git.ignoresDir dir) {dir : Path}
    (hdir : dir ∈ remember git ignored relative) : git.ignoresDir dir := by
  rw [remember] at hdir
  split at hdir
  · rename_i found hfound
    rcases List.mem_cons.mp hdir with rfl | hdir
    · exact List.find?_some hfound
    · exact h dir hdir
  · exact h dir hdir

lemma pathMatters_remembered (hgit : git.Hereditary) (h : ∀ dir ∈ ignored, git.ignoresDir dir) :
    (pathMatters (some git) roots ignored path).1 = (pathMatters (some git) roots [] path).1 ∧
      ∀ dir ∈ (pathMatters (some git) roots ignored path).2, git.ignoresDir dir := by
  simp only [pathMatters]
  split
  · exact ⟨rfl, h⟩
  · split
    · exact ⟨rfl, h⟩
    · rename_i relative _
      split
      · exact ⟨rfl, h⟩
      · have hnone : covers [] relative = false := by simp [covers]
        rw [hnone]
        by_cases hcovers : covers ignored relative
        · obtain ⟨dir, hdir, hmem⟩ := List.any_eq_true.mp hcovers
          obtain ⟨hpre, hne⟩ := mem_ancestors hdir
          have hignores := hgit dir relative (h dir (of_decide_eq_true hmem)) hpre hne
          simp only [hcovers, hignores, if_true]
          exact ⟨rfl, h⟩
        · simp only [hcovers]
          by_cases hignores : git.ignores relative
          · simp only [hignores, if_true]
            exact ⟨rfl, fun dir => ignoresDir_of_remembered h⟩
          · simp only [hignores]
            exact ⟨rfl, h⟩

lemma anyMatters_iff (hgit : git.Hereditary) (h : ∀ dir ∈ ignored, git.ignoresDir dir) :
    (anyMatters (some git) roots ignored paths).1 ↔
      paths = [] ∨ ∃ path ∈ paths, (pathMatters (some git) roots [] path).1 := by
  have hany : ∀ (paths : List Path) (ignored : IgnoredDirs), (∀ dir ∈ ignored, git.ignoresDir dir) →
      ((anyPath (some git) roots ignored paths).1 ↔
        ∃ path ∈ paths, (pathMatters (some git) roots [] path).1) := by
    intro paths
    induction paths with
    | nil =>
      intro ignored _
      simp [anyPath]
    | cons path paths ih =>
      intro ignored h
      obtain ⟨hanswer, hknown⟩ := @pathMatters_remembered git roots ignored path hgit h
      rw [List.exists_mem_cons_iff, ← hanswer, anyPath]
      split
      · rename_i heq
        simp [heq]
      · rename_i heq
        rw [heq] at hknown
        rw [ih _ hknown, heq]
        simp
  rw [anyMatters]
  split_ifs with hnil
  · simp [hnil]
  · rw [hany paths]
    · simp [hnil]
    · intro dir hdir
      rw [forgetIfRulesChange] at hdir
      split_ifs at hdir
      · cases hdir
      · exact h dir hdir

end Nightcrow.Runtime.Snapshot
