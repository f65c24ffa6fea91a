import Nightcrow.Git.PathGate

namespace Nightcrow.Git

open Nightcrow.Platform Relation

structure TreeEntry where
  name : Name
  isDir : Bool
  deriving DecidableEq

def TreeEntry.precedes (a b : TreeEntry) : Bool :=
  if a.isDir = b.isDir then a.name ≤ b.name else a.isDir

def rowPath (relDir : String) (name : Name) : String :=
  if relDir = "" then String.ofList name else relDir ++ "/" ++ String.ofList name

def treeEntry (os : Os) (relDir : String) (ignored : Option (String → Bool))
    (entry : DirEntry) : Option TreeEntry :=
  entry.fileName.bind (fun name =>
    if isRefusedComponent os name then none
    else entry.fileType.bind (fun type =>
      if (ignored.map (fun f => f (rowPath relDir name))).getD false then none
      else some { name, isDir := type = .dir }))

def listedDir (os : Os) (fs : FileSystem) (workdir : List Component) (relDir : String) :
    Except String (List Component) :=
  if relDir = "" then (fs.canonicalize workdir).mapError (fun _ => "failed to resolve workdir")
  else resolveInWorkdir os fs workdir relDir

def requireDir (fs : FileSystem) (relDir : String) (dir : List Component) : Except String Unit :=
  match fs.symlinkMetadata dir with
  | .error _ => .error s!"failed to stat {relDir}"
  | .ok .dir => .ok ()
  | .ok _ => .error s!"not a directory: {relDir}"

-- `ignored` is absent where ignore rules are not asked for
def readChildren (os : Os) (fs : FileSystem) (workdir : List Component) (relDir : String)
    (ignored : Option (String → Bool)) : Except String (List TreeEntry) := do
  let dir ← listedDir os fs workdir relDir
  requireDir fs relDir dir
  let read ← (fs.readDir dir).mapError (fun _ => s!"failed to read directory {relDir}")
  pure ((read.filterMap (fun entry => entry.bind (treeEntry os relDir ignored))).mergeSort
    TreeEntry.precedes)

variable {os : Os} {fs : FileSystem} {workdir : List Component} {relDir : String}
  {ignored : Option (String → Bool)} {rows : List TreeEntry}

lemma treeEntry_some {entry : DirEntry} {row : TreeEntry}
    (h : treeEntry os relDir ignored entry = some row) :
    entry.fileName = some row.name ∧ isRefusedComponent os row.name = false := by
  obtain ⟨name, hname, h⟩ := Option.bind_eq_some_iff.mp h
  split_ifs at h with hrefused hignored
  · obtain ⟨type, -, h⟩ := Option.bind_eq_some_iff.mp h
    cases h
  · obtain ⟨type, -, h⟩ := Option.bind_eq_some_iff.mp h
    obtain rfl := Option.some.inj h
    exact ⟨hname, Bool.not_eq_true _ ▸ hrefused⟩

lemma listedDir_ok {dir : List Component} (h : listedDir os fs workdir relDir = .ok dir) :
    relDir = "" ∨ validateCommitPath os relDir = .ok () := by
  rw [listedDir] at h
  split_ifs at h with hroot
  · exact .inl hroot
  · exact .inr (resolveInWorkdir_ok h).1

lemma readChildren_ok (h : readChildren os fs workdir relDir ignored = .ok rows) :
    (relDir = "" ∨ validateCommitPath os relDir = .ok ()) ∧
      ∃ dir entries, fs.readDir dir = .ok entries ∧ ∀ row ∈ rows,
        ∃ entry, some entry ∈ entries ∧ entry.fileName = some row.name ∧
          isRefusedComponent os row.name = false := by
  obtain ⟨dir, hdir, h⟩ := bind_ok.mp h
  obtain ⟨_, -, h⟩ := bind_ok.mp h
  obtain ⟨entries, hread, h⟩ := bind_ok.mp h
  obtain rfl := Except.ok.inj h
  refine ⟨listedDir_ok hdir, dir, entries, mapError_ok hread, fun row hrow => ?_⟩
  rw [List.mem_mergeSort] at hrow
  obtain ⟨entry, hentry, hsome⟩ := List.mem_filterMap.mp hrow
  obtain ⟨found, rfl, hsome⟩ := Option.bind_eq_some_iff.mp hsome
  exact ⟨found, hentry, treeEntry_some hsome⟩

def FileSystem.Ordinary (os : Os) (fs : FileSystem) : Prop :=
  ∀ dir entries, fs.readDir dir = .ok entries → ∀ entry, some entry ∈ entries →
    ∀ name ∈ entry.fileName, EntryName os name

lemma rowPath_accepted (hordinary : fs.Ordinary os)
    (h : readChildren os fs workdir relDir ignored = .ok rows) {row : TreeEntry}
    (hrow : row ∈ rows) : validateCommitPath os (rowPath relDir row.name) = .ok () := by
  obtain ⟨hdir, dir, entries, hread, hrows⟩ := readChildren_ok h
  obtain ⟨entry, hentry, hname, hrefused⟩ := hrows row hrow
  have hentryName := hordinary dir entries hread entry hentry row.name hname
  rw [rowPath]
  split
  · have hsingle := (join_accepted_iff (List.cons_ne_nil row.name [])
      (List.forall_mem_singleton.mpr hentryName)).mpr (List.forall_mem_singleton.mpr hrefused)
    rwa [List.intercalate_singleton] at hsingle
  · rename_i hroot
    exact row_accepted (hdir.resolve_left hroot) hentryName hrefused

theorem gate_is_tight (os : Os) :
    (∀ relative, validateCommitPath os relative = .ok () →
      ∀ component ∈ components os relative.toList, ∃ name, component = .normal name ∧
        ∀ opened, ReflTransGen Rewrite name opened → opened ∉ forbiddenNames) ∧
    (∀ fs workdir relative resolved, resolveInWorkdir os fs workdir relative = .ok resolved →
      ∃ base, fs.canonicalize workdir = .ok base ∧
        resolved = base ++ components os relative.toList ∧
        ∀ front, base <+: front → front <+: resolved → front ≠ base →
          ∃ type, fs.symlinkMetadata front = .ok type ∧ type ≠ .symlink) ∧
    (∀ names, names ≠ [] → (∀ name ∈ names, EntryName os name) →
      (validateCommitPath os (String.ofList (['/'].intercalate names)) = .ok () ↔
        ∀ name ∈ names, isRefusedComponent os name = false)) ∧
    ∀ fs workdir relDir ignored rows, FileSystem.Ordinary os fs →
      readChildren os fs workdir relDir ignored = .ok rows → ∀ row ∈ rows,
        validateCommitPath os (rowPath relDir row.name) = .ok () := by
  refine ⟨fun relative h component hmem => ?_, fun fs workdir relative resolved h => ?_,
    fun names hnames h => join_accepted_iff hnames h,
    fun fs workdir relDir ignored rows hordinary h row hrow => rowPath_accepted hordinary h hrow⟩
  · obtain ⟨name, rfl, -, hopened⟩ := accepted_component h hmem
    exact ⟨name, rfl, hopened⟩
  · exact (resolveInWorkdir_ok h).2

def JudgedByName (os : Os) (names : List Name) : Prop :=
  validateCommitPath os (String.ofList (['/'].intercalate names)) = .ok () ↔
    ∀ name ∈ names, isRefusedComponent os name = false

instance (os : Os) (names : List Name) : Decidable (JudgedByName os names) :=
  inferInstanceAs (Decidable (_ ↔ _))

/-- A join with a name that no directory holds is judged otherwise, and so is one of no names. -/
theorem joins_judged_otherwise :
    ¬ JudgedByName .unix ["src".toList, ".".toList] ∧ ¬ JudgedByName .unix ["src".toList, []] ∧
      ¬ JudgedByName .unix ["src/main.rs".toList] ∧ ¬ JudgedByName .unix ["src\x00".toList] ∧
      ¬ JudgedByName .unix [] := by
  decide +kernel

end Nightcrow.Git
