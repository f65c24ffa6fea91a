import Nightcrow.Library.Outline
import Nightcrow.Library.Text
import Nightcrow.Platform.Path

/-! The directory browser of the repository dialog, on Unix. -/

namespace Nightcrow.Workspace

open Nightcrow.Library Nightcrow.Library.Outline Nightcrow.Platform

inductive OsName where
  | utf8 (name : List Char)
  | other (bytes : List UInt8)
  deriving DecidableEq

abbrev Dir := List OsName

structure Real (enter : Dir → OsName → Option Dir) (d : Dir) : Prop where
  enters : ∀ p n, p ++ [n] <+: d → enter p n = some (p ++ [n])
  plain : ∀ name, .utf8 name ∈ d → PlainName .unix name

/-- The directories of a file system: where a name in one leads, links followed, and what is read
of its entries, each with whether it is a directory. -/
structure Disk where
  cwd : Dir
  /-- Where the home directory leads, where one is known. -/
  home : Option (Option Dir)
  enter : Dir → OsName → Option Dir
  entries : Dir → Option (List (OsName × Bool))
  lossy : List UInt8 → List Char
  cwd_real : Real enter cwd
  home_real : ∀ d, home = some (some d) → Real enter d
  enter_real : ∀ d n e, enter d n = some e → Real enter e
  entries_plain : ∀ d es, entries d = some es → ∀ name dir, (OsName.utf8 name, dir) ∈ es →
    PlainName .unix name

def isSep (c : Char) : Bool := c == '/'

inductive Base where
  | root
  | cwd
  | home
  deriving DecidableEq

structure PathBuf where
  base : Base
  pieces : List (List Char)
  deriving DecidableEq

def PathBuf.ofText (text : List Char) : PathBuf :=
  { base := if text.head? = some '/' then .root else .cwd, pieces := text.splitOnP isSep }

namespace Disk

variable (fs : Disk)

def resolve (path : Dir) : Option Dir := path.foldlM fs.enter []

def expandTilde (text : List Char) : PathBuf :=
  if (text.splitOnP isSep).head? = some ['~'] ∧ fs.home.isSome then
    { base := .home, pieces := (text.splitOnP isSep).tail }
  else .ofText text

def baseDir : Base → Option Dir
  | .root => some []
  | .cwd => some fs.cwd
  | .home => fs.home.join

def hop (d : Dir) (piece : List Char) : Option Dir :=
  if piece = [] ∨ piece = ['.'] then some d
  else if piece = ['.', '.'] then some d.dropLast
  else fs.enter d (.utf8 piece)

def canonicalize (path : PathBuf) : Option Dir :=
  -- only what leads to a directory is asked for
  if path = .ofText [] then none
  else (fs.baseDir path.base).bind (fun d => path.pieces.foldlM fs.hop d)

def named (text : List Char) : Option Dir := fs.canonicalize (fs.expandTilde text)

def isDir (text : List Char) : Bool := (fs.named text).isSome

def toStringLossy (path : Dir) : List Char :=
  if path = [] then ['/']
  else path.flatMap (fun name => '/' :: match name with
    | .utf8 name => name
    | .other bytes => fs.lossy bytes)

def canonicalizesTo (text : List Char) (expected : Dir) : Bool := fs.named text = some expected

def dirNames (showHidden : Bool) (dir : Option Dir) : List (List Char) :=
  let names := ((dir.bind fs.entries).getD []).filterMap (fun entry => match entry with
    | (.utf8 name, true) => if showHidden ∨ name.head? ≠ some '.' then some name else none
    | _ => none)
  names.insertionSort (· ≤ ·)

def readDirNames (path : Dir) (showHidden : Bool) : List (List Char) :=
  fs.dirNames showHidden (fs.resolve path)

end Disk

def splitDir (text : List Char) : List Char × List Char :=
  (text.rdropWhile (fun c => !isSep c), text.rtakeWhile (fun c => !isSep c))

def endsSep (text : List Char) : Bool := text.getLast?.any isSep

def trim (text : List Char) : List Char :=
  (text.dropWhile isWhiteSpace).rdropWhile isWhiteSpace

abbrev PathRow := Row (List Char)

structure PathTree where
  rootText : List Char
  root : Dir
  sep : Char
  rows : List PathRow
  selected : ℕ
  deriving DecidableEq

def listRows (fs : Disk) (dir : Dir) (depth : ℕ) : List PathRow :=
  (fs.readDirNames dir false).map (fun name => { name, depth, expanded := false })

def openText (fs : Disk) (buf : List Char) : List Char :=
  if trim buf ≠ [] ∧ fs.isDir (trim buf) then trim buf else (splitDir (trim buf)).1

def textClean (text : List Char) : List Char :=
  if text = [] then ['.']
  else
    let t := text.rdropWhile (fun c => c = '/' ∨ c = '\\')
    if t = [] ∨ t.getLast? = some ':' then text else t

def parentText (text : List Char) (sep : Char) : Option (List Char) :=
  let t := text.rdropWhile isSep
  if t = [] then if text = [] then some ['.', '.'] else none
  else if t = ['.'] then some ['.', '.']
  else if (splitDir t).2 = ['.', '.'] then some (t ++ [sep] ++ ['.', '.'])
  else match (splitDir t).1 with
    | [] => some ['.']
    | [c] => some [c]
    | dir => some dir.dropLast

def PathTree.open (fs : Disk) (buf : List Char) : Option PathTree :=
  (fs.named (textClean (openText fs buf))).map (fun root => {
    rootText := openText fs buf
    root
    sep := ((trim buf).reverse.find? isSep).getD '/'
    rows := listRows fs root 0
    selected := 0 })

namespace PathTree

def moveSelection (t : PathTree) (down : Bool) : PathTree :=
  if t.rows = [] then t
  else { t with
    selected := if down then min (t.selected + 1) (t.rows.length - 1) else t.selected - 1 }

/-- The names on the way up from a row, its own first: the nearest row above that is one level
shallower is its parent. -/
def walkUp : ℕ → List PathRow → List (List Char)
  | _, [] => []
  | 0, row :: rows => if row.depth = 0 then [row.name] else walkUp 0 rows
  | want + 1, row :: rows =>
    if row.depth = want + 1 then row.name :: walkUp want rows else walkUp (want + 1) rows

def componentsOf (t : PathTree) (idx : ℕ) : List (List Char) :=
  match t.rows[idx]? with
  | none => []
  | some row => (walkUp row.depth (t.rows.take (idx + 1)).reverse).reverse

def absOf (t : PathTree) (idx : ℕ) : Dir := t.root ++ (t.componentsOf idx).map .utf8

def expand (fs : Disk) (t : PathTree) : PathTree :=
  match t.rows[t.selected]? with
  | none => t
  | some row =>
    if row.expanded then t
    else
      let children := listRows fs (t.absOf t.selected) (row.depth + 1)
      let rows := t.rows.set t.selected { row with expanded := true }
      { t with rows := rows.take (t.selected + 1) ++ children ++ rows.drop (t.selected + 1) }

def reRoot (fs : Disk) (t : PathTree) : PathTree :=
  if t.root = [] then t
  else
    let parent := t.root.dropLast
    let rows := listRows fs parent 0
    { t with
      rootText := ((parentText t.rootText t.sep).filter (fs.canonicalizesTo · parent)).getD
        (fs.toStringLossy parent)
      root := parent
      rows
      selected := match t.root.getLast? with
        | some (.utf8 name) => (rows.findIdx? (fun r => r.name = name)).getD 0
        | _ => 0 }

def collapseOrUp (fs : Disk) (t : PathTree) : PathTree :=
  match t.rows[t.selected]? with
  | none => t.reRoot fs
  | some row =>
    if row.expanded then
      let rows := t.rows.set t.selected { row with expanded := false }
      let start := t.selected + 1
      let stop := start + (rows.drop start).findIdx (fun r => r.depth ≤ row.depth)
      { t with rows := rows.take start ++ rows.drop stop }
    else if 0 < row.depth then
      -- the last of the rows above, found from the selected one up
      match (t.rows.take t.selected).reverse.findIdx? (fun r => r.depth = row.depth - 1) with
      | some i => { t with selected := t.selected - 1 - i }
      | none => t
    else t.reRoot fs

def pushName (sep : Char) (out name : List Char) : List Char :=
  (if out ≠ [] ∧ ¬ endsSep out then out ++ [sep] else out) ++ name

def selectedPath (t : PathTree) : List Char :=
  let out := if t.rows = [] then t.rootText
    else (t.componentsOf t.selected).foldl (pushName t.sep) t.rootText
  let out := if out = [] then ['.'] else out
  if endsSep out then out else out ++ [t.sep]

end PathTree

inductive Action where
  | moveSelection (down : Bool)
  | expand
  | collapseOrUp
  deriving DecidableEq

def PathTree.act (fs : Disk) (t : PathTree) : Action → PathTree
  | .moveSelection down => t.moveSelection down
  | .expand => t.expand fs
  | .collapseOrUp => t.collapseOrUp fs

variable {fs : Disk} {text t u n out : List Char} {d e root : Dir} {names : List (List Char)}

lemma isSep_iff {c : Char} : isSep c = true ↔ c = '/' := beq_iff_eq

lemma splitOnP_append (t u : List Char) :
    (t ++ '/' :: u).splitOnP isSep = t.splitOnP isSep ++ u.splitOnP isSep :=
  List.splitOnP_append_cons t u rfl

lemma splitOnP_name (h : '/' ∉ n) : n.splitOnP isSep = [n] := by
  refine List.splitOnP_eq_singleton (fun c hc => ?_)
  exact Bool.eq_false_iff.mpr (fun hsep => h (isSep_iff.mp hsep ▸ hc))

lemma splitOnP_eq_blank (h : text.splitOnP isSep = [[]]) : text = [] := by
  by_cases hsep : '/' ∈ text
  · obtain ⟨t, u, rfl⟩ := List.append_of_mem hsep
    rw [splitOnP_append] at h
    have hlen := congrArg List.length h
    have ht := List.length_pos_iff.mpr (List.splitOnP_ne_nil isSep t)
    have hu := List.length_pos_iff.mpr (List.splitOnP_ne_nil isSep u)
    rw [List.length_append, List.length_singleton] at hlen
    omega
  · rw [splitOnP_name hsep] at h
    exact List.singleton_inj.mp h

namespace PlainName

lemma not_mem (h : PlainName .unix n) : '/' ∉ n := fun hmem => by
  have hsep := h.no_separator _ hmem
  cases hsep

lemma hop_eq (h : PlainName .unix n) (d : Dir) : fs.hop d n = fs.enter d (.utf8 n) := by
  rw [Disk.hop, if_neg (not_or.mpr ⟨h.ne_nil, h.ne_dot⟩), if_neg h.ne_dots]

end PlainName

namespace Disk

lemma expandTilde_ne (h : text ≠ []) : fs.expandTilde text ≠ .ofText [] := by
  intro heq
  rw [expandTilde] at heq
  split_ifs at heq
  · cases congrArg PathBuf.base heq
  · exact h (splitOnP_eq_blank (congrArg PathBuf.pieces heq))

lemma named_of_ne (h : text ≠ []) : fs.named text =
    (fs.baseDir (fs.expandTilde text).base).bind
      (fun d => (fs.expandTilde text).pieces.foldlM fs.hop d) := by
  rw [named, canonicalize, if_neg (expandTilde_ne h)]

lemma expandTilde_append (fs : Disk) (t : List Char) : ∃ base pieces,
    (∀ u, fs.expandTilde (t ++ '/' :: u) = ⟨base, pieces ++ u.splitOnP isSep⟩) ∧
      (t ≠ [] → fs.expandTilde t = ⟨base, pieces⟩) := by
  have hne := List.splitOnP_ne_nil isSep t
  by_cases htilde : (t.splitOnP isSep).head? = some ['~'] ∧ fs.home.isSome
  · refine ⟨.home, (t.splitOnP isSep).tail, fun u => ?_, fun _ => if_pos htilde⟩
    rw [expandTilde, splitOnP_append, List.head?_append_of_ne_nil _ hne, if_pos htilde,
      List.tail_append_of_ne_nil hne]
  · refine ⟨if (t ++ ['/']).head? = some '/' then .root else .cwd, t.splitOnP isSep,
      fun u => ?_, fun ht => ?_⟩
    · rw [expandTilde, splitOnP_append, List.head?_append_of_ne_nil _ hne, if_neg htilde,
        PathBuf.ofText, splitOnP_append]
      cases t <;> rfl
    · rw [expandTilde, if_neg htilde, PathBuf.ofText, List.head?_append_of_ne_nil _ ht]

lemma hop_nil (fs : Disk) (d : Dir) : fs.hop d [] = some d := if_pos (.inl rfl)

lemma named_slash (h : t ≠ []) : fs.named (t ++ ['/']) = fs.named t := by
  obtain ⟨base, pieces, happend, hself⟩ := expandTilde_append fs t
  rw [named_of_ne h, named_of_ne (by simp), happend [], hself h]
  simp [List.splitOnP_nil, hop_nil]

lemma named_append (t : List Char) (h : PlainName .unix n) :
    fs.named (t ++ '/' :: n) = (fs.named (t ++ ['/'])).bind (fs.enter · (.utf8 n)) := by
  obtain ⟨base, pieces, happend, -⟩ := expandTilde_append fs t
  rw [named_of_ne (by simp), named_of_ne (by simp), happend n, happend [],
    splitOnP_name (PlainName.not_mem h)]
  cases fs.baseDir base with
  | none => rfl
  | some d => simp [List.splitOnP_nil, hop_nil, List.foldlM_append, PlainName.hop_eq h]

lemma named_name (h : PlainName .unix n) (htilde : n ≠ ['~'] ∨ fs.home = none) :
    fs.named n = fs.enter fs.cwd (.utf8 n) := by
  have hsplit := splitOnP_name (PlainName.not_mem h)
  have hhead : n.head? ≠ some '/' := fun hhead =>
    PlainName.not_mem h (List.mem_of_mem_head? hhead)
  have htext : fs.expandTilde n = ⟨.cwd, [n]⟩ := by
    rw [expandTilde, if_neg, PathBuf.ofText, if_neg hhead, hsplit]
    rw [hsplit]
    rintro ⟨hn, hhome⟩
    rcases htilde with hne | hnone
    · exact hne (Option.some.inj hn)
    · rw [hnone] at hhome
      cases hhome
  rw [named_of_ne h.ne_nil, htext]
  simp [baseDir, PlainName.hop_eq h]

lemma eq_append_slash (h : endsSep out) : ∃ t, out = t ++ ['/'] := by
  obtain ⟨c, hc, hsep⟩ := (Option.any_eq_true _ _).mp h
  obtain ⟨t, rfl⟩ := List.getLast?_eq_some_iff.mp hc
  exact ⟨t, by rw [isSep_iff.mp hsep]⟩

lemma named_pushName (hout : out ≠ []) (h : PlainName .unix n) :
    fs.named (PathTree.pushName '/' out n) = (fs.named out).bind (fs.enter · (.utf8 n)) := by
  rw [PathTree.pushName]
  split_ifs with hsep
  · rw [List.append_assoc, List.singleton_append, named_append out h, named_slash hout]
  · obtain ⟨t, rfl⟩ := eq_append_slash (by simpa [hout] using hsep)
    rw [List.append_assoc, List.singleton_append, named_append t h]

lemma pushName_ne_nil (h : PlainName .unix n) : PathTree.pushName '/' out n ≠ [] := fun hnil =>
  h.ne_nil (List.append_eq_nil_iff.mp hnil).2

def walk (fs : Disk) (d : Dir) (names : List (List Char)) : Option Dir :=
  (names.map OsName.utf8).foldlM fs.enter d

lemma named_pushNames (hout : out ≠ []) (h : ∀ n ∈ names, PlainName .unix n) :
    names.foldl (PathTree.pushName '/') out ≠ [] ∧
      fs.named (names.foldl (PathTree.pushName '/') out) =
        (fs.named out).bind (fs.walk · names) := by
  induction names generalizing out with
  | nil => exact ⟨hout, by simp [walk]⟩
  | cons n names ih =>
    obtain ⟨hn, hnames⟩ := List.forall_mem_cons.mp h
    obtain ⟨hne, hwalk⟩ := ih (@pushName_ne_nil n out hn) hnames
    refine ⟨hne, ?_⟩
    rw [List.foldl_cons, hwalk, named_pushName hout hn, Option.bind_assoc]
    rfl

def Roots (fs : Disk) (text : List Char) (root : Dir) : Prop :=
  fs.named text = some root ∨ text = [] ∧ root = fs.cwd

/-- With no text in front of them, the names do not read as the home directory. -/
def PickNamed (fs : Disk) (text : List Char) (names : List (List Char)) : Prop :=
  text = [] → names.head? = some ['~'] → fs.home = none

lemma ne_nil_of_named (h : fs.named text = some d) : text ≠ [] := by
  rintro rfl
  cases hhome : fs.home <;> simp [named, canonicalize, expandTilde, hhome, List.splitOnP_nil] at h

lemma Roots.walk (h : fs.Roots text root) (hnames : ∀ n ∈ names, PlainName .unix n)
    (hpick : fs.PickNamed text names) (hne : names ≠ []) :
    names.foldl (PathTree.pushName '/') text ≠ [] ∧
      fs.named (names.foldl (PathTree.pushName '/') text) = fs.walk root names := by
  rcases h with hnamed | ⟨rfl, rfl⟩
  · obtain ⟨hfold, hwalk⟩ := @named_pushNames fs _ _ (ne_nil_of_named hnamed) hnames
    rw [hnamed] at hwalk
    exact ⟨hfold, hwalk⟩
  · cases names with
    | nil => exact absurd rfl hne
    | cons n names =>
      obtain ⟨hn, hnames⟩ := List.forall_mem_cons.mp hnames
      obtain ⟨hfold, hwalk⟩ := @named_pushNames fs _ _ hn.ne_nil hnames
      refine ⟨hfold, ?_⟩
      have hpush : PathTree.pushName '/' [] n = n := rfl
      rw [List.foldl_cons, hpush, hwalk, named_name hn]
      · rfl
      · by_cases htilde : n = ['~']
        · exact .inr (hpick rfl (congrArg some htilde))
        · exact .inl htilde

lemma plain_of_mem_dirNames {showHidden : Bool} {dir : Option Dir}
    (h : n ∈ fs.dirNames showHidden dir) : PlainName .unix n := by
  rw [dirNames, List.mem_insertionSort, List.mem_filterMap] at h
  obtain ⟨⟨name, isDir⟩, hmem, hname⟩ := h
  obtain ⟨d, es, -, hes, hmem⟩ : ∃ d es, dir = some d ∧ fs.entries d = some es ∧
      (name, isDir) ∈ es := by
    cases hes : dir.bind fs.entries with
    | none => simp [hes] at hmem
    | some es =>
      obtain ⟨d, hd, hes⟩ := Option.bind_eq_some_iff.mp hes
      exact ⟨d, es, hd, hes, by simpa [hd, hes] using hmem⟩
  cases name with
  | other => cases hname
  | utf8 name =>
    cases isDir with
    | false => cases hname
    | true =>
      dsimp only at hname
      split_ifs at hname
      obtain rfl := Option.some.inj hname
      exact fs.entries_plain d es hes name true hmem

lemma resolve_real (h : Real fs.enter d) : fs.resolve d = some d := by
  have hprefix : ∀ p, p <+: d → fs.resolve p = some p := by
    intro p
    induction p using List.reverseRecOn with
    | nil => exact fun _ => rfl
    | append_singleton p n ih =>
      intro hp
      rw [resolve, List.foldlM_append, ← resolve, ih ((List.prefix_append p [n]).trans hp)]
      simpa using h.enters p n hp
  exact hprefix d (List.prefix_refl d)

lemma resolve_append (h : Real fs.enter root) (names : List (List Char)) :
    fs.resolve (root ++ names.map .utf8) = fs.walk root names := by
  rw [resolve, List.foldlM_append, ← resolve, resolve_real h]
  rfl

lemma real_nil : Real fs.enter [] where
  enters p n h := by simp at h
  plain name h := by cases h

lemma real_of_prefixed (h : Real fs.enter d) (hp : e <+: d) : Real fs.enter e where
  enters p n hn := h.enters p n (hn.trans hp)
  plain name hname := h.plain name (hp.subset hname)

lemma real_of_named (h : fs.named text = some d) : Real fs.enter d := by
  rw [named_of_ne (ne_nil_of_named h)] at h
  obtain ⟨base, hbase, hwalk⟩ := Option.bind_eq_some_iff.mp h
  have hreal : Real fs.enter base := by
    cases hb : (fs.expandTilde text).base with
    | root =>
      rw [hb] at hbase
      exact Option.some.inj hbase ▸ real_nil
    | cwd =>
      rw [hb] at hbase
      exact Option.some.inj hbase ▸ fs.cwd_real
    | home =>
      rw [hb] at hbase
      exact fs.home_real base (Option.join_eq_some_iff.mp hbase)
  generalize (fs.expandTilde text).pieces = pieces at hwalk
  clear hbase h
  induction pieces generalizing base with
  | nil => exact Option.some.inj hwalk ▸ hreal
  | cons piece pieces ih =>
    rw [List.foldlM_cons] at hwalk
    obtain ⟨next, hnext, hwalk⟩ := Option.bind_eq_some_iff.mp hwalk
    refine ih next ?_ hwalk
    rw [hop] at hnext
    split_ifs at hnext
    · exact Option.some.inj hnext ▸ hreal
    · exact Option.some.inj hnext ▸ real_of_prefixed hreal (List.dropLast_prefix base)
    · exact fs.enter_real _ _ _ hnext

lemma real_of_walk (hroot : Real fs.enter root) (h : fs.walk root names = some d) :
    Real fs.enter d := by
  induction names generalizing root with
  | nil => exact Option.some.inj h ▸ hroot
  | cons n names ih =>
    rw [walk, List.map_cons, List.foldlM_cons] at h
    obtain ⟨next, hnext, h⟩ := Option.bind_eq_some_iff.mp h
    exact ih (fs.enter_real _ _ _ hnext) h

def below (fs : Disk) (root : Dir) (path : List (List Char)) : List (List Char) :=
  fs.readDirNames (root ++ path.map .utf8) false

def Linkless (fs : Disk) : Prop :=
  ∀ d n, Real fs.enter d → n ∈ fs.readDirNames d false →
    fs.enter d (.utf8 n) = some (d ++ [.utf8 n])

lemma Linkless.walk (h : fs.Linkless) (hroot : Real fs.enter root)
    (halong : ∀ p n, p ++ [n] <+: names → n ∈ fs.below root p) :
    fs.walk root names = some (root ++ names.map .utf8) := by
  induction names using List.reverseRecOn with
  | nil => simp [Disk.walk]
  | append_singleton names n ih =>
    have hwalk := ih (fun p m hm => halong p m (hm.trans (List.prefix_append _ _)))
    have hreal := real_of_walk hroot hwalk
    rw [Disk.walk, List.map_append, List.foldlM_append, ← Disk.walk, hwalk]
    simpa using h _ n hreal (halong names n (List.prefix_refl _))

end Disk

open Disk

namespace PathTree

structure Shows (fs : Disk) (t : PathTree) (places : List (Place (List Char))) : Prop where
  rows : t.rows = places.map Prod.fst
  lists : Lists (fs.below t.root) [] (fs.below t.root []) places
  selected : t.rows ≠ [] → t.selected < t.rows.length

lemma walkUp_eq_climb (want : ℕ) (rows : List PathRow) : walkUp want rows = climb (want + 1) rows := by
  induction rows generalizing want with
  | nil => rfl
  | cons row rows ih =>
    cases want with
    | zero =>
      rw [walkUp, climb, climb_zero, ih]
    | succ want =>
      rw [walkUp, climb, ih, ih]

variable {t : PathTree} {places pre post : List (Place (List Char))} {row : PathRow}
  {path : List (List Char)} {idx : ℕ}

lemma split_getElem? {α : Type*} {l : List α} {x : α} (h : l[idx]? = some x) :
    l = l.take idx ++ x :: l.drop (idx + 1) ∧ (l.take idx).length = idx := by
  obtain ⟨hlt, rfl⟩ := List.getElem?_eq_some_iff.mp h
  exact ⟨by simp, by simp [hlt.le]⟩

namespace Shows

lemma getElem?_row (h : t.Shows fs places) (hi : places[idx]? = some (row, path)) :
    t.rows[idx]? = some row := by
  rw [h.rows, List.getElem?_map, hi]
  rfl

lemma getElem?_place (h : t.Shows fs places) (hrow : t.rows[idx]? = some row) :
    ∃ path, places[idx]? = some (row, path) := by
  rw [h.rows, List.getElem?_map] at hrow
  obtain ⟨⟨row, path⟩, hi, rfl⟩ := Option.map_eq_some_iff.mp hrow
  exact ⟨path, hi⟩

lemma components (h : t.Shows fs places) (hi : places[idx]? = some (row, path)) :
    t.componentsOf idx = path := by
  obtain ⟨hsplit, hlen⟩ := split_getElem? hi
  have hrow := h.getElem?_row hi
  have htake : (t.rows.take (idx + 1)).reverse =
      row :: (((places.take idx).map Prod.fst).reverse ++ []) := by
    rw [List.append_nil, List.take_add_one, hrow, h.rows, List.map_take]
    simp
  have hlists := h.lists
  rw [hsplit] at hlists
  have hplace := hlists.place (x := (row, path)) (by simp)
  rw [componentsOf, hrow]
  dsimp only
  rw [htake, walkUp_eq_climb, ← hplace.2.2, hlists.climb]
  simp [climb_zero]

lemma plain (h : t.Shows fs places) (hi : places[idx]? = some (row, path)) :
    path ≠ [] ∧ (∀ n ∈ path, PlainName .unix n) ∧
      ∀ p n, p ++ [n] <+: path → n ∈ fs.below t.root p := by
  have hmem := List.mem_of_getElem? hi
  have halong : ∀ p n, p ++ [n] <+: path → n ∈ fs.below t.root p := fun p n hn =>
    h.lists.along (fun m hm => hm) hmem List.nil_prefix hn
  refine ⟨List.ne_nil_of_length_pos ?_, fun n hn => ?_, halong⟩
  · have hlen := (h.lists.place hmem).2.2
    dsimp only at hlen
    omega
  · obtain ⟨p, q, rfl⟩ := List.append_of_mem hn
    exact plain_of_mem_dirNames (halong p n ⟨q, by simp⟩)

lemma set_rows (h : t.Shows fs places) (hi : places[idx]? = some (row, path)) (r : PathRow) :
    (t.rows.set idx r).take (idx + 1) = (places.take idx).map Prod.fst ++ [r] ∧
      (t.rows.set idx r).drop (idx + 1) = (places.drop (idx + 1)).map Prod.fst := by
  have hlt := (List.getElem?_eq_some_iff.mp (h.getElem?_row hi)).1
  have hrows : t.rows.set idx r =
      (places.take idx).map Prod.fst ++ r :: (places.drop (idx + 1)).map Prod.fst := by
    rw [List.set_eq_take_append_cons_drop, if_pos hlt, h.rows, List.map_take, List.map_drop]
  have hidx : ((places.take idx).map Prod.fst).length = idx := by
    rw [List.length_map, (split_getElem? hi).2]
  rw [hrows]
  constructor
  · rw [List.take_append, List.take_of_length_le (by omega), hidx]
    simp
  · rw [List.drop_append, List.drop_of_length_le (by omega), hidx]
    simp

lemma expand_eq (h : t.Shows fs places) (hi : places[t.selected]? = some (row, path))
    (he : row.expanded = false) : t.expand fs = { t with
      rows := (places.take t.selected ++ ({ row with expanded := true }, path) ::
        (Outline.leaves path (fs.below t.root path) ++ places.drop (t.selected + 1))).map
          Prod.fst } := by
  have hlen := (h.lists.place (List.mem_of_getElem? hi)).2.2
  dsimp only at hlen
  obtain ⟨htake, hdrop⟩ := h.set_rows hi { row with expanded := true }
  rw [expand, h.getElem?_row hi]
  dsimp only
  rw [if_neg (by rw [he]; exact Bool.false_ne_true), htake, hdrop, absOf, h.components hi]
  simp [listRows, Outline.leaves, below, hlen]

lemma collapse_eq (h : t.Shows fs places) (hi : places[t.selected]? = some (row, path))
    (he : row.expanded = true) : t.collapseOrUp fs = { t with
      rows := (places.take t.selected ++ ({ row with expanded := false }, path) ::
        (places.drop (t.selected + 1)).dropWhile (fun x => row.depth < x.1.depth)).map
          Prod.fst } := by
  obtain ⟨htake, hdrop⟩ := h.set_rows hi { row with expanded := false }
  rw [collapseOrUp, h.getElem?_row hi]
  dsimp only
  rw [if_pos he, htake, hdrop, ← List.drop_drop, hdrop]
  have hfind : ∀ rows : List PathRow, rows.drop (rows.findIdx (fun r => r.depth ≤ row.depth)) =
      rows.dropWhile (fun r => row.depth < r.depth) := by
    intro rows
    rw [List.dropWhile_eq_drop_findIdx_not]
    congr 2
    funext r
    rw [← decide_not]
    exact decide_eq_decide.mpr not_lt.symm
  rw [hfind, List.dropWhile_map]
  simp [Function.comp_def]

lemma after (hi : places[t.selected]? = some (row, path)) {e : Bool}
    {rest : List (Place (List Char))} (hlists : Lists (fs.below t.root) [] (fs.below t.root [])
      (places.take t.selected ++ ({ row with expanded := e }, path) :: rest)) :
    Shows fs { t with rows := (places.take t.selected ++
      ({ row with expanded := e }, path) :: rest).map Prod.fst }
      (places.take t.selected ++ ({ row with expanded := e }, path) :: rest) where
  rows := rfl
  lists := hlists
  selected _ := by
    have hlen := (split_getElem? hi).2
    simp only [List.length_map, List.length_append, List.length_cons, hlen]
    omega

lemma expand (h : t.Shows fs places) (hi : places[t.selected]? = some (row, path))
    (he : row.expanded = false) : Shows fs (t.expand fs)
      (places.take t.selected ++ ({ row with expanded := true }, path) ::
        (Outline.leaves path (fs.below t.root path) ++ places.drop (t.selected + 1))) := by
  have hlists := h.lists
  rw [(split_getElem? hi).1] at hlists
  obtain ⟨below, rest, hpost, hopens, -, hreplace⟩ := hlists.replace
  rw [he] at hopens
  obtain rfl := hopens
  rw [h.expand_eq hi he, hpost]
  exact after hi (hreplace true _ (Lists.leaves _ _))

lemma collapse (h : t.Shows fs places) (hi : places[t.selected]? = some (row, path))
    (he : row.expanded = true) : Shows fs (t.collapseOrUp fs)
      (places.take t.selected ++ ({ row with expanded := false }, path) ::
        (places.drop (t.selected + 1)).dropWhile (fun x => row.depth < x.1.depth)) := by
  have hlists := h.lists
  rw [(split_getElem? hi).1] at hlists
  obtain ⟨below, rest, hpost, hopens, hrest, hreplace⟩ := hlists.replace
  have hlen := (h.lists.place (List.mem_of_getElem? hi)).2.2
  rw [h.collapse_eq hi he, hpost, hopens.dropWhile hlen hrest]
  exact after hi (hreplace false _ rfl)

lemma collapse_expand (h : t.Shows fs places) (hi : places[t.selected]? = some (row, path))
    (he : row.expanded = false) : (t.expand fs).collapseOrUp fs = t := by
  obtain ⟨hsplit, hlen⟩ := split_getElem? hi
  have hlists := h.lists
  rw [hsplit] at hlists
  obtain ⟨below, rest, hpost, hopens, hrest, -⟩ := hlists.replace
  rw [he] at hopens
  obtain rfl := hopens
  rw [List.nil_append] at hpost
  have hopened : Opens (fs.below t.root) path true
      (Outline.leaves path (fs.below t.root path)) := Lists.leaves _ _
  have hdepth := (h.lists.place (List.mem_of_getElem? hi)).2.2
  have hselected : (t.expand fs).selected = t.selected := by rw [h.expand_eq hi he]
  have hrow : (places.take t.selected ++ ({ row with expanded := true }, path) ::
      (Outline.leaves path (fs.below t.root path) ++ places.drop (t.selected + 1)))[
        (t.expand fs).selected]? = some ({ row with expanded := true }, path) := by
    rw [hselected, List.getElem?_append_right hlen.le, hlen, Nat.sub_self]
    rfl
  rw [(h.expand hi he).collapse_eq hrow rfl, hselected, h.expand_eq hi he]
  have htake : ∀ l : List (Place (List Char)),
      (places.take t.selected ++ l).take t.selected = places.take t.selected := by
    intro l
    rw [List.take_append_of_le_length hlen.ge, List.take_of_length_le hlen.le]
  have hdrop : ∀ (x : Place (List Char)) l,
      (places.take t.selected ++ x :: l).drop (t.selected + 1) = l := by
    intro x l
    rw [List.drop_append, List.drop_of_length_le (by omega), hlen, Nat.add_sub_cancel_left]
    rfl
  have hclosed := @Opens.dropWhile _ _ path _ _ { row with expanded := true } hopened hdepth hrest
  rw [htake, hdrop, hpost, hclosed, ← hpost]
  have hback : ({ row with expanded := false } : PathRow) = row := by rw [← he]
  rw [hback, ← hsplit, ← h.rows]

end Shows

def StepsOut (t : PathTree) : Prop :=
  ∀ row, t.rows[t.selected]? = some row → row.expanded = false ∧ row.depth = 0

/-- The text one level up names the parent of the root, or else the parent's own path does. -/
def UpNamed (fs : Disk) (t : PathTree) : Prop :=
  (∃ text, parentText t.rootText t.sep = some text ∧ fs.named text = some t.root.dropLast) ∨
    fs.named (fs.toStringLossy t.root.dropLast) = some t.root.dropLast

structure Sound (fs : Disk) (t : PathTree) : Prop where
  sep : t.sep = '/'
  real : Real fs.enter t.root
  roots : fs.Roots t.rootText t.root
  lists : ∃ places, t.Shows fs places

lemma shows_fresh (hrows : t.rows = listRows fs t.root 0)
    (hselected : t.rows ≠ [] → t.selected < t.rows.length) :
    t.Shows fs (Outline.leaves [] (fs.below t.root [])) where
  rows := by
    rw [hrows, listRows, Outline.leaves, Disk.below, List.map_map]
    simp [Function.comp_def]
  lists := Lists.leaves _ _
  selected := hselected

lemma named_closed (hout : out ≠ []) :
    fs.named (if endsSep out then out else out ++ ['/']) = fs.named out := by
  split_ifs
  · rfl
  · exact named_slash hout

lemma named_dot (fs : Disk) : fs.named ['.'] = some fs.cwd := by
  rw [named_of_ne (by simp)]
  simp [expandTilde, PathBuf.ofText, baseDir, hop, isSep, List.splitOnP_cons_eq_if_modifyHead]

namespace Sound

lemma named_empty (h : t.Sound fs) (hrows : t.rows = []) :
    fs.named t.selectedPath = some t.root := by
  rw [selectedPath, if_pos hrows, h.sep]
  rcases h.roots with hnamed | ⟨htext, hroot⟩
  · rw [if_neg (ne_nil_of_named hnamed), named_closed (ne_nil_of_named hnamed), hnamed]
  · rw [if_pos htext, named_closed (by simp), hroot, named_dot]

lemma named_selected (h : t.Sound fs) (hshows : t.Shows fs places)
    (hi : places[t.selected]? = some (row, path)) (hpick : fs.PickNamed t.rootText path) :
    fs.named t.selectedPath = fs.walk t.root path := by
  have hrows : t.rows ≠ [] := List.ne_nil_of_mem (List.mem_of_getElem? (hshows.getElem?_row hi))
  obtain ⟨hne, hplain, -⟩ := hshows.plain hi
  obtain ⟨hfold, hwalk⟩ := h.roots.walk hplain hpick hne
  rw [selectedPath, if_neg hrows, h.sep, hshows.components hi, if_neg hfold, named_closed hfold,
    hwalk]

lemma moveSelection (h : t.Sound fs) (down : Bool) : (t.moveSelection down).Sound fs := by
  rw [PathTree.moveSelection]
  split_ifs with hrows hdown
  · exact h
  · obtain ⟨places, hshows⟩ := h.lists
    have hlt := hshows.selected hrows
    exact ⟨h.sep, h.real, h.roots, places, hshows.rows, hshows.lists, fun _ => by
      dsimp only
      omega⟩
  · obtain ⟨places, hshows⟩ := h.lists
    have hlt := hshows.selected hrows
    exact ⟨h.sep, h.real, h.roots, places, hshows.rows, hshows.lists, fun _ => by
      dsimp only
      omega⟩

lemma expand (h : t.Sound fs) : (t.expand fs).Sound fs := by
  obtain ⟨places, hshows⟩ := h.lists
  cases hrow : t.rows[t.selected]? with
  | none =>
    rw [PathTree.expand, hrow]
    exact h
  | some row =>
    obtain ⟨path, hi⟩ := hshows.getElem?_place hrow
    cases he : row.expanded with
    | true =>
      rw [PathTree.expand, hrow]
      dsimp only
      rw [if_pos he]
      exact h
    | false =>
      have hafter := hshows.expand hi he
      rw [hshows.expand_eq hi he] at hafter ⊢
      exact ⟨h.sep, h.real, h.roots, _, hafter⟩

lemma reRoot (h : t.Sound fs) (hup : t.root ≠ [] → t.UpNamed fs) :
    (t.reRoot fs).Sound fs := by
  rw [PathTree.reRoot]
  split_ifs with hroot
  · exact h
  · have hreal := real_of_prefixed h.real (List.dropLast_prefix t.root)
    refine ⟨h.sep, hreal, .inl ?_, _, shows_fresh rfl ?_⟩
    · dsimp only
      rcases hfilter : (parentText t.rootText t.sep).filter
        (fs.canonicalizesTo · t.root.dropLast) with _ | text
      · refine (hup hroot).resolve_left ?_
        rintro ⟨text, htext, hnamed⟩
        rw [htext, Option.filter_some, canonicalizesTo, decide_eq_true hnamed] at hfilter
        cases hfilter
      · exact of_decide_eq_true (Option.filter_eq_some_iff.mp hfilter).2
    · intro hne
      dsimp only at hne ⊢
      have hpos := List.length_pos_iff.mpr hne
      split
      · cases hfind : (listRows fs t.root.dropLast 0).findIdx? _ with
        | none => exact hpos
        | some i => exact (List.findIdx?_eq_some_iff_getElem.mp hfind).1
      · exact hpos

lemma collapseOrUp (h : t.Sound fs) (hup : StepsOut t → t.root ≠ [] → t.UpNamed fs) :
    (t.collapseOrUp fs).Sound fs := by
  obtain ⟨places, hshows⟩ := h.lists
  cases hrow : t.rows[t.selected]? with
  | none =>
    rw [PathTree.collapseOrUp, hrow]
    refine h.reRoot (hup (fun row hrow' => ?_))
    rw [hrow] at hrow'
    cases hrow'
  | some row =>
    obtain ⟨path, hi⟩ := hshows.getElem?_place hrow
    cases he : row.expanded with
    | true =>
      have hafter := hshows.collapse hi he
      rw [hshows.collapse_eq hi he] at hafter ⊢
      exact ⟨h.sep, h.real, h.roots, _, hafter⟩
    | false =>
      rw [PathTree.collapseOrUp, hrow]
      dsimp only
      rw [if_neg (by rw [he]; exact Bool.false_ne_true)]
      split_ifs with hdepth
      · split
        · rename_i i hfind
          have hlt := hshows.selected (List.ne_nil_of_mem (List.mem_of_getElem? hrow))
          exact ⟨h.sep, h.real, h.roots, places, hshows.rows, hshows.lists, fun _ => by
            dsimp only
            omega⟩
        · exact h
      · refine h.reRoot (hup (fun row' hrow' => ?_))
        obtain rfl := Option.some.inj (hrow.symm.trans hrow')
        exact ⟨he, by omega⟩

end Sound

lemma sep_eq (buf : List Char) : ((trim buf).reverse.find? isSep).getD '/' = '/' := by
  cases h : (trim buf).reverse.find? isSep with
  | none => rfl
  | some c => exact isSep_iff.mp (List.find?_some h)

/-- The text the browser opens on names the directory it opens, where there is any. -/
def OpensNamed (fs : Disk) (buf : List Char) : Prop :=
  openText fs buf ≠ [] → fs.named (textClean (openText fs buf)) = fs.named (openText fs buf)

lemma sound_open {buf : List Char} (h : PathTree.open fs buf = some t) (hnamed : OpensNamed fs buf) :
    t.Sound fs := by
  obtain ⟨root, hroot, rfl⟩ := Option.map_eq_some_iff.mp h
  refine ⟨sep_eq buf, real_of_named hroot, ?_, _, shows_fresh rfl List.length_pos_iff.mpr⟩
  dsimp only
  by_cases htext : openText fs buf = []
  · rw [htext, textClean, if_pos rfl, named_dot] at hroot
    exact .inr ⟨htext, (Option.some.inj hroot).symm⟩
  · exact .inl ((hnamed htext).symm.trans hroot)

def StepNamed (fs : Disk) (t : PathTree) (a : Action) : Prop :=
  a = .collapseOrUp → t.StepsOut → t.root ≠ [] → t.UpNamed fs

inductive Reaches (fs : Disk) (buf : List Char) : PathTree → Prop
  | opened {t : PathTree} : PathTree.open fs buf = some t → OpensNamed fs buf → Reaches fs buf t
  | acted {t : PathTree} {a : Action} :
    Reaches fs buf t → StepNamed fs t a → Reaches fs buf (t.act fs a)

lemma Reaches.sound {buf : List Char} (h : Reaches fs buf t) : t.Sound fs := by
  induction h with
  | opened hopen hnamed => exact sound_open hopen hnamed
  | @acted t a _ hstep ih =>
    cases a with
    | moveSelection down => exact ih.moveSelection down
    | expand => exact ih.expand
    | collapseOrUp => exact ih.collapseOrUp (hstep rfl)

lemma named_toStringLossy (h : Real fs.enter (names.map .utf8)) :
    fs.named (fs.toStringLossy (names.map .utf8)) = some (names.map .utf8) := by
  have hroot : fs.named ['/'] = some [] := by
    rw [named_of_ne (by simp)]
    simp [expandTilde, PathBuf.ofText, baseDir, hop, isSep,
      List.splitOnP_cons_eq_if_modifyHead]
  induction names using List.reverseRecOn with
  | nil => exact hroot
  | append_singleton names n ih =>
    rw [List.map_append] at h ⊢
    have hname : PlainName .unix n := h.plain n (by simp)
    have hup := ih (real_of_prefixed h (List.prefix_append _ _))
    have henter := h.enters _ _ (List.prefix_refl _)
    have htext : fs.toStringLossy (names.map .utf8 ++ [.utf8 n]) =
        (if names = [] then [] else fs.toStringLossy (names.map .utf8)) ++ '/' :: n := by
      cases names <;> simp [toStringLossy]
    rw [List.map_singleton, htext, named_append _ hname]
    split_ifs with hnil
    · subst hnil
      rw [List.nil_append, hroot]
      exact henter
    · rw [named_slash (ne_nil_of_named hup), hup]
      exact henter

/-- In every run whose steps can name where they go, the browser shows the listing of its root and
opens the selected row's directory, and the path it picks names that directory. -/
theorem picks_shown_row {buf : List Char} (h : Reaches fs buf t) :
    ∃ places, t.Shows fs places ∧
      (t.rows = [] → fs.named t.selectedPath = some t.root) ∧
      ∀ row path, places[t.selected]? = some (row, path) →
        (fs.PickNamed t.rootText path →
          fs.named t.selectedPath = fs.resolve (t.root ++ path.map .utf8)) ∧
        (fs.Linkless → fs.resolve (t.root ++ path.map .utf8) =
          some (t.root ++ path.map .utf8)) ∧
        (row.expanded = false →
          (t.expand fs).rows = t.rows.take t.selected ++ { row with expanded := true } ::
            ((fs.readDirNames (t.root ++ path.map .utf8) false).map
              (⟨·, row.depth + 1, false⟩) ++ t.rows.drop (t.selected + 1)) ∧
          (t.expand fs).collapseOrUp fs = t) := by
  have hsound := h.sound
  obtain ⟨places, hshows⟩ := hsound.lists
  refine ⟨places, hshows, hsound.named_empty, fun row path hi => ?_⟩
  have hresolve := resolve_append hsound.real path
  refine ⟨fun hpick => ?_, fun hlinkless => ?_, fun he => ⟨?_, ?_⟩⟩
  · exact (hsound.named_selected hshows hi hpick).trans hresolve.symm
  · exact hresolve.trans (hlinkless.walk hsound.real (hshows.plain hi).2.2)
  · have hlen := (hshows.lists.place (List.mem_of_getElem? hi)).2.2
    dsimp only at hlen
    rw [hshows.expand_eq hi he, hshows.rows]
    simp [Outline.leaves, below, hlen]
  · exact hshows.collapse_expand hi he

structure Dirs where
  dirs : List (List (List Char))
  cwd : List (List Char)
  home : List (List Char)
  closed : ∀ d ∈ cwd :: home :: dirs, ∀ p ∈ d.inits, p ∈ dirs
  names : ∀ d ∈ dirs, ∀ n ∈ d, '/' ∉ n ∧ n ≠ [] ∧ n ≠ ['.'] ∧ n ≠ ['.', '.']

namespace Dirs

variable (ds : Dirs)

def enter (d : Dir) (n : OsName) : Option Dir :=
  if d ++ [n] ∈ ds.dirs.map (List.map .utf8) then some (d ++ [n]) else none

lemma plain {p : List (List Char)} (hp : p ∈ ds.dirs) (hn : n ∈ p) : PlainName .unix n := by
  obtain ⟨hsep, hnil, hdot, hdots⟩ := ds.names p hp n hn
  refine ⟨fun c hc => ?_, hnil, hdot, hdots, rfl⟩
  have hne : c ≠ '/' := fun heq => hsep (heq ▸ hc)
  simp [Os.isSeparator, Os.mainSeparator, hne]

lemma real {p : List (List Char)} (hp : p ∈ ds.cwd :: ds.home :: ds.dirs) :
    Real ds.enter (p.map .utf8) where
  enters q n hq := by
    refine if_pos ?_
    obtain ⟨rest, hrest⟩ := hq
    refine List.mem_map.mpr ⟨p.take (q ++ [n]).length, ds.closed p hp _ ?_, ?_⟩
    · exact (List.mem_inits _ _).mpr (List.take_prefix _ _)
    · rw [List.map_take, ← hrest, List.take_left]
  plain name hname := by
    obtain ⟨n, hn, heq⟩ := List.mem_map.mp hname
    obtain rfl := OsName.utf8.inj heq
    exact ds.plain (ds.closed p hp p ((List.mem_inits _ _).mpr (List.prefix_refl p))) hn

lemma entries_plain {d : Dir} {es : List (OsName × Bool)}
    (hes : some (ds.dirs.filterMap (fun p =>
      if p.dropLast.map .utf8 = d then p.getLast?.map (fun n => (OsName.utf8 n, true)) else none)) =
        some es) (name : List Char) (dir : Bool) (h : (OsName.utf8 name, dir) ∈ es) :
    PlainName .unix name := by
  obtain rfl := Option.some.inj hes
  obtain ⟨p, hp, hname⟩ := List.mem_filterMap.mp h
  split_ifs at hname
  obtain ⟨n, hn, heq⟩ := Option.map_eq_some_iff.mp hname
  obtain rfl := OsName.utf8.inj (Prod.mk.inj heq).1
  exact ds.plain hp (List.mem_of_getLast? hn)

def disk : Disk where
  cwd := ds.cwd.map .utf8
  home := some (some (ds.home.map .utf8))
  enter := ds.enter
  entries d := some (ds.dirs.filterMap (fun p =>
    if p.dropLast.map .utf8 = d then p.getLast?.map (fun n => (OsName.utf8 n, true)) else none))
  lossy _ := []
  cwd_real := ds.real List.mem_cons_self
  home_real d hd := Option.some.inj (Option.some.inj hd) ▸
    ds.real (List.mem_cons_of_mem _ List.mem_cons_self)
  enter_real d n e he := by
    rw [enter] at he
    split_ifs at he with hmem
    obtain ⟨p, hp, heq⟩ := List.mem_map.mp hmem
    rw [← Option.some.inj he, ← heq]
    exact ds.real (List.mem_cons_of_mem _ (List.mem_cons_of_mem _ hp))
  entries_plain d es hes := ds.entries_plain hes

end Dirs

def nested : Dirs where
  dirs := [[], [['u']], [['u'], ['w']], [['u'], ['w'], ['x']]]
  cwd := [['u'], ['w']]
  home := [['u']]
  closed := by decide
  names := by decide

def nestedStart : PathTree where
  rootText := ['~', '/', 'w']
  root := [.utf8 ['u'], .utf8 ['w']]
  sep := '/'
  rows := [⟨['x'], 0, false⟩]
  selected := 0

def nestedSteps : List Action := [.collapseOrUp, .collapseOrUp, .expand, .moveSelection true]

lemma nestedStart_reaches :
    Reaches nested.disk ['~', '/', 'w'] (nestedSteps.foldl (act nested.disk) nestedStart) := by
  have hopen : Reaches nested.disk ['~', '/', 'w'] nestedStart := by
    exact .opened (by decide) (fun _ => by decide)
  have hup := hopen.acted (a := .collapseOrUp) (fun _ _ _ => .inl ⟨['~'], by decide, by decide⟩)
  have hroot := hup.acted (a := .collapseOrUp) (fun _ _ _ => .inr (by decide))
  have hdown := hroot.acted (a := .expand) (fun h => absurd h (by decide))
  exact hdown.acted (a := .moveSelection true) (fun h => absurd h (by decide))

theorem picks_shown_row_nested : nested.disk.named
    (nestedSteps.foldl (act nested.disk) nestedStart).selectedPath =
      some [.utf8 ['u'], .utf8 ['w']] := by
  obtain ⟨places, hshows, -, hpicks⟩ := picks_shown_row nestedStart_reaches
  have hrow : (nestedSteps.foldl (act nested.disk) nestedStart).rows[
      (nestedSteps.foldl (act nested.disk) nestedStart).selected]? = some ⟨['w'], 1, false⟩ := by
    decide
  obtain ⟨path, hi⟩ := hshows.getElem?_place hrow
  have hpath : path = [['u'], ['w']] := (hshows.components hi).symm.trans (by decide)
  have hpick : nested.disk.PickNamed
      (nestedSteps.foldl (act nested.disk) nestedStart).rootText path := by
    rw [hpath]
    exact fun _ htilde => absurd htilde (by decide)
  rw [(hpicks _ path hi).1 hpick, hpath]
  decide

def besideBackslash : Dirs where
  dirs := [[], [['a']], [['a', '\\']]]
  cwd := []
  home := []
  closed := by decide
  names := by decide

/-- The browser opens `a` for the text of its neighbour, and picks the neighbour. -/
theorem backslash_opens_neighbour :
    ∃ t, PathTree.open besideBackslash.disk ['/', 'a', '\\'] = some t ∧
      t.root = [.utf8 ['a']] ∧ t.rows = [] ∧
      besideBackslash.disk.named t.selectedPath = some [.utf8 ['a', '\\']] := by
  refine ⟨⟨['/', 'a', '\\'], [.utf8 ['a']], '/', [], 0⟩, ?_, rfl, rfl, ?_⟩
  · decide
  · decide

end PathTree

end Nightcrow.Workspace
