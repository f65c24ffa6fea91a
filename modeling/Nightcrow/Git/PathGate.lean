import Nightcrow.Library.Cut
import Nightcrow.Library.Text
import Nightcrow.Platform.Path

namespace Nightcrow.Git

open Nightcrow.Library Nightcrow.Platform Relation

abbrev Name := List Char

def gitDir : Name := ".git".toList

def namePadding : List Char := ['.', ' ']

def gitShortDir : Name := "git~1".toList

def hfsIgnorable : List Char :=
  ['\u200c', '\u200d', '\u200e', '\u200f', '\u202a', '\u202b', '\u202c', '\u202d',
    '\u202e', '\u206a', '\u206b', '\u206c', '\u206d', '\u206e', '\u206f', '\ufeff']

def effectiveName (name : Name) : Name :=
  let before := name.takeWhile (fun c => c ≠ ':')
  let base := if before = [] then name else before
  (base.filter (fun c => c ∉ hfsIgnorable)).rdropWhile (fun c => c ∈ namePadding)

def eqIgnoreAsciiCase (a b : Name) : Bool := a.map Char.toLower = b.map Char.toLower

def isGitDirName (name : Name) : Bool :=
  eqIgnoreAsciiCase (effectiveName name) gitDir ||
    eqIgnoreAsciiCase (effectiveName name) gitShortDir

def isAPathOfItsOwn (os : Os) (part : Name) : Bool :=
  match components os part with
  | [.normal _] => false
  | _ => true

def isTraversalAfterTrimming (part : Name) : Bool :=
  effectiveName part = [] ∨ effectiveName part = ['.'] ∨ effectiveName part = ['.', '.']

def isRefusedComponent (os : Os) (name : Name) : Bool :=
  isGitDirName name || isTraversalAfterTrimming name || isAPathOfItsOwn os name

def checkComponent (os : Os) (relative : String) : Component → Except String Unit
  | .normal part =>
    if isGitDirName part then .error s!"path enters the git directory: {relative}"
    else if isTraversalAfterTrimming part || isAPathOfItsOwn os part then
      .error s!"path is not a plain relative path: {relative}"
    else .ok ()
  | _ => .error s!"path is not a plain relative path: {relative}"

def validateCommitPath (os : Os) (relative : String) : Except String Unit :=
  if relative = "" then .error "empty path"
  else if '\x00' ∈ relative.toList then .error "path contains a NUL byte"
  else (components os relative.toList).forM (checkComponent os relative)

inductive FileType where
  | file
  | dir
  | symlink
  deriving DecidableEq

structure DirEntry where
  fileName : Option Name
  fileType : Option FileType

structure FileSystem where
  canonicalize : List Component → Except String (List Component)
  symlinkMetadata : List Component → Except String FileType
  readDir : List Component → Except String (List (Option DirEntry))

def componentPath (os : Os) : Component → Name
  | .volume text => text
  | .rootDir => [os.mainSeparator]
  | .curDir => ['.']
  | .parentDir => ['.', '.']
  | .normal name => name

def requirePlain (relative : String) : Component → Except String Unit
  | .normal _ => .ok ()
  | _ => .error s!"path is not a plain relative path: {relative}"

def descend (os : Os) (fs : FileSystem) (relative : String) (resolved : List Component)
    (component : Component) : Except String (List Component) :=
  let resolved := push os resolved (componentPath os component)
  match fs.symlinkMetadata resolved with
  | .error err => .error s!"failed to stat {relative}: {err}"
  | .ok .symlink => .error s!"symlinks are not followed: {relative}"
  | .ok _ => .ok resolved

def resolveInWorkdir (os : Os) (fs : FileSystem) (workdir : List Component) (relative : String) :
    Except String (List Component) := do
  validateCommitPath os relative
  let candidate := components os relative.toList
  candidate.forM (requirePlain relative)
  let base ← (fs.canonicalize workdir).mapError (fun err => s!"worktree is unavailable: {err}")
  let resolved ← candidate.foldlM (descend os fs relative) base
  if base <+: resolved then pure resolved else throw s!"path escapes the worktree: {relative}"

/-- One way a filesystem opens another name than the one asked for. -/
inductive Rewrite : Name → Name → Prop where
  | stream (before rest : Name) : before ≠ [] → Rewrite (before ++ ':' :: rest) before
  | ignorable (before rest : Name) (c : Char) : c ∈ hfsIgnorable →
      Rewrite (before ++ c :: rest) (before ++ rest)
  | padding (before : Name) (c : Char) : c ∈ namePadding → Rewrite (before ++ [c]) before
  | fold (before rest : Name) (c d : Char) : c.toLower = d.toLower →
      Rewrite (before ++ c :: rest) (before ++ d :: rest)
  | shortName : Rewrite gitShortDir gitDir

def forbiddenNames : List Name := [gitDir, ['.'], ['.', '.'], []]

structure EntryName (os : Os) (name : Name) : Prop where
  ne_nil : name ≠ []
  no_separator : ∀ c ∈ name, os.isSeparator c = false
  no_nul : '\x00' ∉ name
  ne_dot : name ≠ ['.']

def keptCharacters (name : Name) : Name :=
  (name.map Char.toLower).filter (fun c => c ∉ hfsIgnorable)

def rewriteKey (name : Name) : Name :=
  ((keptCharacters name).takeWhile (fun c => c ≠ ':')).rdropWhile (fun c => c ∈ namePadding)

def refusedKeys : List Name := [[], gitDir, gitShortDir]

def Guarded (name : Name) : Prop := name.head? = some ':' ∨ rewriteKey name ∉ refusedKeys

variable {os : Os} {name opened before rest : Name} {c d : Char}

@[simp] lemma keptCharacters_append (a b : Name) :
    keptCharacters (a ++ b) = keptCharacters a ++ keptCharacters b := by
  rw [keptCharacters, List.map_append, List.filter_append]
  rfl

lemma keptCharacters_ignorable (hc : c ∈ hfsIgnorable) :
    keptCharacters (before ++ c :: rest) = keptCharacters (before ++ rest) := by
  have hlower : ∀ c ∈ hfsIgnorable, c.toLower = c := by simp [hfsIgnorable]
  have hnone : keptCharacters [c] = [] := by
    rw [keptCharacters, List.map_singleton, List.filter_cons_of_neg, List.filter_nil]
    rw [decide_eq_true_eq, not_not, hlower c hc]
    exact hc
  have hcons : c :: rest = [c] ++ rest := rfl
  rw [hcons, keptCharacters_append, keptCharacters_append, keptCharacters_append, hnone,
    List.nil_append]

lemma takeWhile_cut (l r : Name) (hd : d = ':') :
    (l ++ d :: r).takeWhile (fun c => c ≠ ':') = l.takeWhile (fun c => c ≠ ':') := by
  subst hd
  induction l with
  | nil => rfl
  | cons x l ih =>
    rw [List.cons_append, List.takeWhile_cons, List.takeWhile_cons, ih]

lemma rewriteKey_padding (hc : c ∈ namePadding) :
    rewriteKey (before ++ [c]) = rewriteKey before := by
  have hkept : keptCharacters [c] = [c] := by
    rcases List.mem_pair.mp hc with rfl | rfl <;> decide
  rw [rewriteKey, rewriteKey, keptCharacters_append, hkept]
  generalize keptCharacters before = kept
  by_cases hmem : ':' ∈ kept
  · obtain ⟨front, tail, rfl, -⟩ := List.eq_append_cons_of_mem hmem
    rw [List.append_assoc, List.cons_append, takeWhile_cut _ _ rfl, takeWhile_cut _ _ rfl]
  · have hall : ∀ x ∈ kept, decide (x ≠ ':') = true := fun x hx =>
      decide_eq_true (fun hsep => hmem (hsep ▸ hx))
    have hne : c ≠ ':' := by
      rintro rfl
      exact absurd hc (by decide)
    have hself : kept.takeWhile (fun c => c ≠ ':') = kept := by
      rw [List.takeWhile_eq_self_iff]
      exact hall
    have hone : [c].takeWhile (fun c => c ≠ ':') = [c] := by
      rw [List.takeWhile_eq_self_iff]
      exact fun x hx => decide_eq_true (List.mem_singleton.mp hx ▸ hne)
    rw [List.takeWhile_append_of_pos hall, hone, hself]
    exact List.rdropWhile_concat_pos _ _ _ (decide_eq_true hc)

lemma Rewrite.key (h : Rewrite name opened) :
    rewriteKey opened = rewriteKey name ∨ name = gitShortDir := by
  cases h with
  | stream before rest hne =>
    left
    have hcolon : keptCharacters (':' :: rest) = ':' :: keptCharacters rest := rfl
    rw [rewriteKey, rewriteKey, keptCharacters_append, hcolon, takeWhile_cut _ _ rfl]
  | ignorable before rest c hc =>
    left
    rw [rewriteKey, rewriteKey, keptCharacters_ignorable hc]
  | padding before c hc => exact .inl (rewriteKey_padding hc).symm
  | fold before rest c d hcd =>
    left
    have hlower : (before ++ d :: rest).map Char.toLower =
        (before ++ c :: rest).map Char.toLower := by
      rw [List.map_append, List.map_cons, ← hcd, List.map_append, List.map_cons]
    rw [rewriteKey, keptCharacters, hlower]
    rfl
  | shortName => exact .inr rfl

lemma Rewrite.colon (h : Rewrite name opened) (hname : name.head? = some ':') :
    opened.head? = some ':' := by
  cases h with
  | stream before rest hne =>
    rwa [List.head?_append_of_ne_nil _ hne] at hname
  | ignorable before rest c hc =>
    cases before with
    | nil =>
      obtain rfl := Option.some.inj hname
      exact absurd hc (by decide)
    | cons x before => exact hname
  | padding _ c hc =>
    cases opened with
    | nil =>
      obtain rfl := Option.some.inj hname
      exact absurd hc (by decide)
    | cons x before => exact hname
  | fold before rest c d hcd =>
    cases before with
    | nil =>
      obtain rfl := Option.some.inj hname
      rw [of_toLower hcd.symm (by decide)]
      rfl
    | cons x before => exact hname
  | shortName => cases hname

lemma Guarded.rewrite (h : Guarded name) (hr : Rewrite name opened) : Guarded opened := by
  rcases h with hcolon | hkey
  · exact .inl (hr.colon hcolon)
  · rcases hr.key with hsame | rfl
    · exact .inr (hsame ▸ hkey)
    · exact absurd hkey (by decide)

lemma Guarded.not_forbidden (h : Guarded name) (hr : ReflTransGen Rewrite name opened) :
    opened ∉ forbiddenNames := by
  have hguarded : Guarded opened := by
    induction hr with
    | refl => exact h
    | tail _ hstep ih => exact ih.rewrite hstep
  intro hmem
  have hnone : ∀ name ∈ forbiddenNames, name.head? ≠ some ':' ∧ rewriteKey name ∈ refusedKeys := by
    decide +kernel
  rcases hguarded with hcolon | hkey
  · exact (hnone opened hmem).1 hcolon
  · exact hkey (hnone opened hmem).2

lemma toLower_mem_iff {l : List Char}
    (h : ∀ d ∈ l, d.toLower = d ∧ ¬ ('a' ≤ d ∧ d ≤ 'z')) : c.toLower ∈ l ↔ c ∈ l :=
  ⟨fun hmem => of_toLower rfl (h _ hmem).2 ▸ hmem, fun hmem => (h c hmem).1.symm ▸ hmem⟩

lemma rdropWhile_map (f : Char → Char) (p : Char → Bool) (l : Name) :
    (l.map f).rdropWhile p = (l.rdropWhile (p ∘ f)).map f := by
  rw [List.rdropWhile, List.rdropWhile, ← List.map_reverse, List.dropWhile_map, List.map_reverse]

lemma rewriteKey_eq (h : name.head? ≠ some ':') :
    rewriteKey name = (effectiveName name).map Char.toLower := by
  have hbase : (if name.takeWhile (fun c => c ≠ ':') = [] then name
      else name.takeWhile (fun c => c ≠ ':')) = name.takeWhile (fun c => c ≠ ':') := by
    split
    · rename_i hnil
      cases name with
      | nil => rfl
      | cons c name =>
        have hc : c ≠ ':' := fun hc => h (congrArg some hc)
        rw [List.takeWhile_cons, if_pos (decide_eq_true hc)] at hnil
        cases hnil
    · rfl
  have hcolon : ∀ c : Char, decide (c.toLower ≠ ':') = decide (c ≠ ':') := fun c => by
    have h := toLower_mem_iff (c := c) (l := [':']) (by simp)
    rw [List.mem_singleton, List.mem_singleton] at h
    rw [decide_eq_decide, not_iff_not]
    exact h
  have hignored : ∀ c : Char, decide (c.toLower ∉ hfsIgnorable) = decide (c ∉ hfsIgnorable) :=
    fun c => by
      rw [decide_eq_decide, not_iff_not]
      exact toLower_mem_iff (by simp [hfsIgnorable])
  have hpadding : ∀ c : Char, decide (c.toLower ∈ namePadding) = decide (c ∈ namePadding) :=
    fun c => by
      rw [decide_eq_decide]
      exact toLower_mem_iff (by simp [namePadding])
  -- what is ignored never is a colon, so that cutting first or ignoring first is the same
  have hstays : ∀ c : Char, (!decide (c ∉ hfsIgnorable) || decide (c ≠ ':')) = decide (c ≠ ':') := by
    intro c
    by_cases hc : c = ':'
    · subst hc
      decide
    · rw [decide_eq_true hc, Bool.or_true]
  rw [rewriteKey, effectiveName, hbase, keptCharacters, List.filter_map, List.takeWhile_map,
    rdropWhile_map]
  simp only [Function.comp_def, hcolon, hignored, hpadding]
  rw [List.takeWhile_filter]
  simp only [hstays]

lemma guarded_of_accepted (hgit : isGitDirName name = false)
    (htraversal : isTraversalAfterTrimming name = false) : Guarded name := by
  by_cases hcolon : name.head? = some ':'
  · exact .inl hcolon
  · right
    rw [rewriteKey_eq hcolon]
    rw [isGitDirName, Bool.or_eq_false_iff, eqIgnoreAsciiCase, eqIgnoreAsciiCase] at hgit
    have hlower : gitDir.map Char.toLower = gitDir ∧
        gitShortDir.map Char.toLower = gitShortDir := by decide +kernel
    rw [hlower.1, hlower.2] at hgit
    simp only [isTraversalAfterTrimming, decide_eq_false_iff_not, not_or] at htraversal
    simp only [refusedKeys, List.mem_cons, List.not_mem_nil, or_false, not_or, List.map_eq_nil_iff]
    exact ⟨htraversal.1, of_decide_eq_false hgit.1, of_decide_eq_false hgit.2⟩

lemma bind_ok {α β : Type} {x : Except String α} {f : α → Except String β} {b : β} :
    x >>= f = .ok b ↔ ∃ a, x = .ok a ∧ f a = .ok b := by
  cases x with
  | error err => exact ⟨nofun, fun ⟨_, h, _⟩ => nomatch h⟩
  | ok a => exact ⟨fun h => ⟨a, rfl, h⟩, fun ⟨_, h, hf⟩ => Except.ok.inj h ▸ hf⟩

lemma mapError_ok {α : Type} {x : Except String α} {f : String → String} {a : α}
    (h : x.mapError f = .ok a) : x = .ok a := by
  cases x with
  | error err => cases h
  | ok b => exact h

lemma forM_ok {α : Type} {f : α → Except String Unit} {l : List α} :
    l.forM f = .ok () ↔ ∀ x ∈ l, f x = .ok () := by
  induction l with
  | nil => exact ⟨fun _ => nofun, fun _ => rfl⟩
  | cons x l ih =>
    rw [List.forall_mem_cons, ← ih]
    cases hx : f x with
    | error err => exact ⟨fun h => by simp [List.forM, hx, bind, Except.bind] at h, nofun⟩
    | ok u => simp [List.forM, hx, bind, Except.bind]

lemma checkComponent_ok {relative : String} {component : Component} :
    checkComponent os relative component = .ok () ↔
      ∃ part, component = .normal part ∧ isRefusedComponent os part = false := by
  cases component with
  | normal part =>
    have hexists : (∃ name, Component.normal part = .normal name ∧
        isRefusedComponent os name = false) ↔ isRefusedComponent os part = false := by
      simp
    rw [hexists, checkComponent, isRefusedComponent]
    cases isGitDirName part <;> cases isTraversalAfterTrimming part <;>
      cases isAPathOfItsOwn os part <;> simp
  | _ => simp [checkComponent]

lemma validateCommitPath_ok {relative : String} :
    validateCommitPath os relative = .ok () ↔ relative ≠ "" ∧ '\x00' ∉ relative.toList ∧
      ∀ component ∈ components os relative.toList,
        ∃ part, component = .normal part ∧ isRefusedComponent os part = false := by
  rw [validateCommitPath]
  split_ifs with hempty hnul
  · exact ⟨nofun, fun h => absurd hempty h.1⟩
  · exact ⟨nofun, fun h => absurd hnul h.2.1⟩
  · simp only [forM_ok, checkComponent_ok]
    exact ⟨fun h => ⟨hempty, hnul, h⟩, fun h => h.2.2⟩

lemma components_of_not_own {part : Name} (h : isAPathOfItsOwn os part = false) :
    hasDrive os part = false := by
  by_contra hdrive
  rw [Bool.not_eq_false] at hdrive
  obtain ⟨text, rest, hparts⟩ := components_drive hdrive
  rw [isAPathOfItsOwn, hparts] at h
  cases h

lemma accepted_component {relative : String} {component : Component}
    (h : validateCommitPath os relative = .ok ())
    (hmem : component ∈ components os relative.toList) :
    ∃ name, component = .normal name ∧ PlainName os name ∧
      ∀ opened, ReflTransGen Rewrite name opened → opened ∉ forbiddenNames := by
  obtain ⟨name, rfl, hrefused⟩ := (validateCommitPath_ok.mp h).2.2 component hmem
  rw [isRefusedComponent, Bool.or_eq_false_iff, Bool.or_eq_false_iff] at hrefused
  obtain ⟨⟨hgit, htraversal⟩, hown⟩ := hrefused
  refine ⟨name, rfl, plain_of_mem_components hmem (components_of_not_own hown), ?_⟩
  exact fun opened hr => (guarded_of_accepted hgit htraversal).not_forbidden hr

lemma descend_ok {fs : FileSystem} {relative : String} {resolved next : List Component}
    (hname : PlainName os name)
    (h : descend os fs relative resolved (.normal name) = .ok next) :
    next = resolved ++ [.normal name] ∧
      ∃ type, fs.symlinkMetadata next = .ok type ∧ type ≠ .symlink := by
  rw [descend, componentPath, hname.push] at h
  split at h
  · cases h
  · cases h
  · rename_i type hlink htype
    obtain rfl := Except.ok.inj h
    exact ⟨rfl, type, htype, fun hsym => hlink hsym⟩

lemma foldlM_descend {fs : FileSystem} {relative : String} {parts base resolved : List Component}
    (hparts : ∀ component ∈ parts, ∃ name, component = .normal name ∧ PlainName os name)
    (h : parts.foldlM (descend os fs relative) base = .ok resolved) :
    resolved = base ++ parts ∧ ∀ front, base <+: front → front <+: resolved → front ≠ base →
      ∃ type, fs.symlinkMetadata front = .ok type ∧ type ≠ .symlink := by
  induction parts generalizing base with
  | nil =>
    obtain rfl := Except.ok.inj h
    refine ⟨(List.append_nil base).symm, fun front hbase hfront hne => absurd ?_ hne⟩
    exact hfront.eq_of_length_le hbase.length_le
  | cons component parts ih =>
    obtain ⟨name, rfl, hname⟩ := hparts _ List.mem_cons_self
    rw [List.foldlM_cons] at h
    cases hnext : descend os fs relative base (.normal name) with
    | error err =>
      rw [hnext] at h
      cases h
    | ok next =>
      rw [hnext] at h
      obtain ⟨rfl, hlink⟩ := descend_ok hname hnext
      obtain ⟨rfl, hrest⟩ := ih (fun c hc => hparts c (List.mem_cons_of_mem _ hc)) h
      refine ⟨by rw [List.append_assoc]; rfl, fun front hbase hfront hne => ?_⟩
      by_cases hone : front = base ++ [.normal name]
      · rw [hone]
        exact hlink
      · refine hrest front ?_ hfront hone
        obtain ⟨tail, rfl⟩ := hbase
        rw [List.append_assoc] at hfront
        have htail := (List.prefix_append_right_inj base).mp hfront
        refine (List.prefix_append_right_inj base).mpr ?_
        cases tail with
        | nil => exact absurd (List.append_nil base) hne
        | cons c tail =>
          obtain ⟨rfl, -⟩ := List.cons_prefix_cons.mp htail
          exact List.prefix_append [.normal name] tail

lemma resolveInWorkdir_ok {fs : FileSystem} {workdir resolved : List Component}
    {relative : String} (h : resolveInWorkdir os fs workdir relative = .ok resolved) :
    validateCommitPath os relative = .ok () ∧ ∃ base, fs.canonicalize workdir = .ok base ∧
      resolved = base ++ components os relative.toList ∧
      ∀ front, base <+: front → front <+: resolved → front ≠ base →
        ∃ type, fs.symlinkMetadata front = .ok type ∧ type ≠ .symlink := by
  obtain ⟨_, hvalid, h⟩ := bind_ok.mp h
  obtain ⟨_, -, h⟩ := bind_ok.mp h
  obtain ⟨base, hbase, h⟩ := bind_ok.mp h
  obtain ⟨walked, hwalk, h⟩ := bind_ok.mp h
  have hparts : ∀ component ∈ components os relative.toList,
      ∃ name, component = .normal name ∧ PlainName os name := by
    intro component hmem
    obtain ⟨name, rfl, hname, -⟩ := accepted_component hvalid hmem
    exact ⟨name, rfl, hname⟩
  obtain ⟨rfl, hlinks⟩ := foldlM_descend hparts hwalk
  rw [if_pos (List.prefix_append base _)] at h
  obtain rfl := Except.ok.inj h
  exact ⟨hvalid, base, mapError_ok hbase, rfl, hlinks⟩

lemma segmentOf_entry (h : EntryName os name) :
    segmentOf name = if name = ['.', '.'] then some .parentDir else some (.normal name) := by
  rw [segmentOf, if_neg (not_or.mpr ⟨h.ne_nil, h.ne_dot⟩)]

lemma EntryName.segment_passes (h : EntryName os name) :
    (∀ component ∈ segmentOf name, ∃ part, component = .normal part ∧
      isRefusedComponent os part = false) ↔ isRefusedComponent os name = false := by
  rw [segmentOf_entry h]
  split
  · rename_i hdots
    subst hdots
    constructor
    · intro hall
      obtain ⟨part, hpart, -⟩ := hall _ rfl
      cases hpart
    · intro hrefused
      exact absurd hrefused (by cases os <;> decide)
  · constructor
    · intro hall
      obtain ⟨part, hpart, hrefused⟩ := hall _ rfl
      cases hpart
      exact hrefused
    · rintro hrefused _ ⟨⟩
      exact ⟨name, rfl, hrefused⟩

lemma body_intercalate {names : List Name} (hnames : names ≠ [])
    (h : ∀ name ∈ names, EntryName os name) :
    body os (['/'].intercalate names) = names.filterMap segmentOf := by
  induction names with
  | nil => exact absurd rfl hnames
  | cons name names ih =>
    have hname := body_of_no_separator (h name List.mem_cons_self).no_separator
    cases names with
    | nil =>
      rw [List.intercalate_singleton, hname, List.filterMap_cons]
      cases segmentOf name <;> rfl
    | cons next names =>
      have hrest := ih (List.cons_ne_nil _ _) (fun n hn => h n (List.mem_cons_of_mem _ hn))
      rw [List.intercalate_cons_cons, List.append_assoc, List.singleton_append, body_append, hname,
        hrest, List.filterMap_cons (a := name)]
      cases segmentOf name <;> rfl

lemma not_mem_intercalate {names : List Name} (hc : c ≠ '/') (h : ∀ name ∈ names, c ∉ name) :
    c ∉ ['/'].intercalate names := by
  induction names with
  | nil => exact List.not_mem_nil
  | cons name names ih =>
    have hrest := ih (fun n hn => h n (List.mem_cons_of_mem _ hn))
    cases names with
    | nil =>
      rw [List.intercalate_singleton]
      exact h name List.mem_cons_self
    | cons next names =>
      rw [List.intercalate_cons_cons, List.append_assoc, List.mem_append, List.mem_append,
        List.mem_singleton]
      rintro (hmem | hmem | hmem)
      · exact h name List.mem_cons_self hmem
      · exact hc hmem
      · exact hrest hmem

lemma refused_of_drive (h : hasDrive os name = true) : isRefusedComponent os name = true := by
  obtain ⟨text, rest, hparts⟩ := components_drive h
  rw [isRefusedComponent, isAPathOfItsOwn, hparts, Bool.or_true]

lemma not_accepted_of_drive {relative : String} (h : hasDrive os relative.toList = true) :
    validateCommitPath os relative ≠ .ok () := by
  intro hvalid
  obtain ⟨text, rest, hparts⟩ := components_drive h
  obtain ⟨part, hpart, -⟩ := (validateCommitPath_ok.mp hvalid).2.2 (.volume text)
    (hparts ▸ List.mem_cons_self)
  cases hpart

lemma components_of_entryName (h : EntryName os name) (hdrive : hasDrive os name = false) :
    components os name = (segmentOf name).toList := by
  rw [components_no_drive hdrive, start_of_ne_dot h.ne_nil h.ne_dot h.no_separator,
    body_of_no_separator h.no_separator, List.nil_append]

lemma components_intercalate {names : List Name} (hdrive : hasDrive os name = false)
    (h : ∀ n ∈ name :: names, EntryName os n) :
    components os (['/'].intercalate (name :: names)) = (name :: names).filterMap segmentOf := by
  have hname := h name List.mem_cons_self
  have hfirst := components_of_entryName hname hdrive
  cases names with
  | nil =>
    rw [List.intercalate_singleton, hfirst, List.filterMap_cons]
    cases segmentOf name <;> rfl
  | cons next names =>
    have hrest := body_intercalate (List.cons_ne_nil _ _)
      (fun n hn => h n (List.mem_cons_of_mem _ hn))
    rw [List.intercalate_cons_cons, List.append_assoc, List.singleton_append,
      components_append hname.ne_nil hdrive, hfirst, hrest, List.filterMap_cons (a := name)]
    cases segmentOf name <;> rfl

lemma join_accepted_iff {names : List Name} (hnames : names ≠ [])
    (h : ∀ name ∈ names, EntryName os name) :
    validateCommitPath os (String.ofList (['/'].intercalate names)) = .ok () ↔
      ∀ name ∈ names, isRefusedComponent os name = false := by
  obtain ⟨first, rest, rfl⟩ := List.exists_cons_of_ne_nil hnames
  have hfirst := h first List.mem_cons_self
  cases hdrive : hasDrive os first with
  | true =>
    have hjoined : hasDrive os (String.ofList (['/'].intercalate (first :: rest))).toList = true := by
      rw [String.toList_ofList]
      cases rest with
      | nil => rwa [List.intercalate_singleton]
      | cons next rest =>
        rw [List.intercalate_cons_cons, List.append_assoc, List.singleton_append,
          hasDrive_append hfirst.ne_nil (by decide)]
        exact hdrive
    have hrefused := refused_of_drive hdrive
    refine ⟨fun hvalid => absurd hvalid (not_accepted_of_drive hjoined), fun hall => ?_⟩
    rw [hall first List.mem_cons_self] at hrefused
    cases hrefused
  | false =>
    have hnonempty : String.ofList (['/'].intercalate (first :: rest)) ≠ "" := by
      rw [Ne, String.ofList_eq_empty_iff]
      cases rest with
      | nil => rw [List.intercalate_singleton]; exact hfirst.ne_nil
      | cons next rest =>
        rw [List.intercalate_cons_cons, List.append_assoc]
        exact List.append_ne_nil_of_left_ne_nil hfirst.ne_nil _
    have hnul : '\x00' ∉ ['/'].intercalate (first :: rest) :=
      not_mem_intercalate (by decide) (fun n hn => (h n hn).no_nul)
    rw [validateCommitPath_ok, String.toList_ofList, components_intercalate hdrive h]
    constructor
    · rintro ⟨-, -, hall⟩ name hname
      refine ((h name hname).segment_passes).mp (fun component hcomponent => ?_)
      exact hall component (List.mem_filterMap.mpr ⟨name, hname, hcomponent⟩)
    · intro hall
      refine ⟨hnonempty, hnul, fun component hcomponent => ?_⟩
      obtain ⟨name, hname, hsegment⟩ := List.mem_filterMap.mp hcomponent
      exact ((h name hname).segment_passes).mpr (hall name hname) component hsegment

lemma row_accepted {relDir : String} (hdir : validateCommitPath os relDir = .ok ())
    (hname : EntryName os name) (hrefused : isRefusedComponent os name = false) :
    validateCommitPath os (relDir ++ "/" ++ String.ofList name) = .ok () := by
  obtain ⟨hnonempty, hnul, hall⟩ := validateCommitPath_ok.mp hdir
  have hdrive : hasDrive os relDir.toList = false := by
    rw [← Bool.not_eq_true]
    exact fun hdrive => not_accepted_of_drive hdrive hdir
  have hchars : (relDir ++ "/" ++ String.ofList name).toList = relDir.toList ++ '/' :: name := by
    rw [String.toList_append, String.toList_append, String.toList_ofList,
      List.append_assoc, List.singleton_append, String.toList_ofList]
  have hdirne : relDir.toList ≠ [] := fun h => hnonempty (String.toList_eq_nil_iff.mp h)
  rw [validateCommitPath_ok, hchars, components_append hdirne hdrive,
    body_of_no_separator hname.no_separator]
  refine ⟨fun h => ?_, ?_, fun component hcomponent => ?_⟩
  · rw [h] at hchars
    exact absurd hchars.symm (List.append_ne_nil_of_left_ne_nil hdirne _)
  · rw [List.mem_append, not_or]
    exact ⟨hnul, fun h => (List.mem_cons.mp h).elim (by decide) hname.no_nul⟩
  · rcases List.mem_append.mp hcomponent with hmem | hmem
    · exact hall component hmem
    · exact hname.segment_passes.mpr hrefused component (Option.mem_toList.mp hmem)

end Nightcrow.Git
