import Nightcrow.Library.Lines

namespace Nightcrow.Ui

open Nightcrow.Library

abbrev Text := List UInt8

def newline : UInt8 := 10

def carriageReturn : UInt8 := 13

/-- The syntax highlighter, and the paths and extensions a syntax is chosen by. Syntaxes are told
apart by their names. -/
structure Highlighter (Syntax State Segment : Type*) where
  pathExtension : Text → Text
  resolveSyntaxExtension : Option Text → Syntax
  new : Syntax → State
  highlightLine : State → Text → List Segment × State

def highlightLineCap : ℕ := 4000

def trimLine (l : Text) : Text :=
  if l.getLast? = some newline then
    if l.dropLast.getLast? = some carriageReturn then l.dropLast.dropLast else l.dropLast
  else l

def lines (content : Text) : List Text := (Lines.split newline content).map trimLine

def lineStartsFrom (i : ℕ) : Text → List ℕ
  | [] => []
  | b :: bs =>
    if b = newline ∧ bs ≠ [] then (i + 1) :: lineStartsFrom (i + 1) bs
    else lineStartsFrom (i + 1) bs

def lineStarts (content : Text) : List ℕ :=
  if content = [] then [] else 0 :: lineStartsFrom 0 content

variable {Syntax State Segment : Type*}

namespace Highlighter

variable (h : Highlighter Syntax State Segment)

def highlightLines : State → List Text → List (List Segment) × State
  | s, [] => ([], s)
  | s, l :: ls =>
    let (segments, s) := h.highlightLine s l
    let (rest, s) := highlightLines s ls
    (segments :: rest, s)

variable {h}

lemma highlightLines_append (s : State) (a b : List Text) : h.highlightLines s (a ++ b) =
    ((h.highlightLines s a).1 ++ (h.highlightLines (h.highlightLines s a).2 b).1,
      (h.highlightLines (h.highlightLines s a).2 b).2) := by
  induction a generalizing s with
  | nil => rfl
  | cons l a ih =>
    simp only [List.cons_append, highlightLines]
    rw [ih]

@[simp] lemma length_highlightLines (s : State) (ls : List Text) :
    (h.highlightLines s ls).1.length = ls.length := by
  induction ls generalizing s with
  | nil => rfl
  | cons l ls ih =>
    simp only [highlightLines, List.length_cons]
    rw [ih]

lemma highlightLines_resume (s : State) (ls : List Text) {k n : ℕ} (hk : k ≤ n) :
    h.highlightLines s (ls.take n) =
      ((h.highlightLines s (ls.take k)).1 ++
          (h.highlightLines (h.highlightLines s (ls.take k)).2 ((ls.take n).drop k)).1,
        (h.highlightLines (h.highlightLines s (ls.take k)).2 ((ls.take n).drop k)).2) := by
  have hsplit : ls.take n = ls.take k ++ (ls.take n).drop k := by
    conv_lhs => rw [← List.take_append_drop k (ls.take n), List.take_take, min_eq_left hk]
  rw [← highlightLines_append, ← hsplit]

end Highlighter

structure FileView (Syntax State Segment : Type*) where
  content : Text := []
  scroll : ℕ := 0
  lineHighlights : List (List Segment) := []
  cachedSyntaxName : Option Syntax := none
  totalLines : ℕ := 0
  cachedContentLen : ℕ := 0
  lineStarts : List ℕ := []
  linesLower : List Text := []
  reusableHighlights : ℕ := 0
  highlightCheckpoint : Option State := none

namespace FileView

variable (f : FileView Syntax State Segment)

def maxScroll : ℕ := f.totalLines - 1

def appendablePrefixLen (next : Text) : Option ℕ :=
  let reusable := f.lineHighlights.length
  if reusable = 0 then some 0
  else
    match f.lineStarts[reusable]? with
    | some boundary =>
      if next.length < boundary then some 0
      else if f.content.length < boundary then none
      else if f.content.take boundary ≠ next.take boundary then some 0
      else some reusable
    | none =>
      if f.content.getLast? = some newline ∧ f.content <+: next then some reusable else some 0

def setContent (content : Text) : Option (FileView Syntax State Segment) :=
  (f.appendablePrefixLen content).map (fun reusable =>
    let starts := Ui.lineStarts content
    { f with
      lineStarts := starts
      totalLines := starts.length
      content
      lineHighlights := f.lineHighlights.take reusable
      reusableHighlights := reusable
      cachedSyntaxName := if reusable = 0 then none else f.cachedSyntaxName
      highlightCheckpoint := if reusable = 0 then none else f.highlightCheckpoint
      cachedContentLen := 0
      linesLower := []
      scroll := min f.scroll (starts.length - 1) })

def ensureLowerCache (lower : Text → Text) : FileView Syntax State Segment :=
  if f.linesLower.length = f.totalLines ∧ f.content ≠ [] then f
  else { f with linesLower := (lines f.content).map lower }

def resumed [DecidableEq Syntax] (h : Highlighter Syntax State Segment) (syntaxName : Syntax) :
    List (List Segment) × State :=
  let reusable :=
    if f.cachedSyntaxName = some syntaxName ∧ 0 < f.reusableHighlights ∧
      f.reusableHighlights ≤ f.lineHighlights.length then f.reusableHighlights else 0
  match f.highlightCheckpoint with
  | some checkpoint =>
    if 0 < reusable then (f.lineHighlights.take reusable, checkpoint) else ([], h.new syntaxName)
  | none => ([], h.new syntaxName)

def ensureHighlightCache [DecidableEq Syntax] (h : Highlighter Syntax State Segment)
    (syntaxName : Syntax) : FileView Syntax State Segment :=
  let limit := min f.totalLines highlightLineCap
  if f.lineHighlights.length = limit ∧ f.cachedContentLen = f.content.length ∧
    f.cachedSyntaxName = some syntaxName then f
  else
    let (kept, state) := f.resumed h syntaxName
    let (added, state) := h.highlightLines state (((lines f.content).take limit).drop kept.length)
    let out := kept ++ added
    { f with
      highlightCheckpoint := if out = [] then none else some state
      lineHighlights := out
      cachedSyntaxName := some syntaxName
      cachedContentLen := f.content.length
      reusableHighlights := 0 }

variable {f : FileView Syntax State Segment} {h : Highlighter Syntax State Segment}
  {content next : Text} {k : ℕ}

lemma lineStartsFrom_ne {b : UInt8} (hb : b ≠ newline) (i : ℕ) (bs : Text) :
    lineStartsFrom i (b :: bs) = lineStartsFrom (i + 1) bs := by
  rw [lineStartsFrom, if_neg (fun h => hb h.1)]

lemma offsets_split (i : ℕ) (content : Text) (hne : content ≠ []) :
    i :: lineStartsFrom i content = Lines.offsets i (Lines.split newline content) := by
  induction content generalizing i with
  | nil => exact absurd rfl hne
  | cons b bs ih =>
    by_cases hb : b = newline
    · subst hb
      rw [Lines.split_sep, Lines.offsets, lineStartsFrom]
      by_cases hbs : bs = []
      · subst hbs
        rfl
      · rw [if_pos ⟨rfl, hbs⟩, ih (i + 1) hbs]
        rfl
    · rw [Lines.split_ne hb, lineStartsFrom_ne hb, Lines.offsets]
      by_cases hbs : bs = []
      · subst hbs
        rfl
      · have hrest := ih (i + 1) hbs
        cases hs : Lines.split newline bs with
        | nil => exact absurd (Lines.split_eq_nil.mp hs) hbs
        | cons first rest =>
          rw [hs, Lines.offsets] at hrest
          rw [(List.cons.inj hrest).2]
          simp only [List.headD_cons, List.tail_cons, List.length_cons]
          congr 2
          omega

lemma lineStarts_eq (content : Text) :
    Ui.lineStarts content = Lines.offsets 0 (Lines.split newline content) := by
  rw [Ui.lineStarts]
  split
  · rename_i h
    rw [h]
    rfl
  · rename_i h
    exact offsets_split 0 content h

lemma length_lineStarts (content : Text) :
    (Ui.lineStarts content).length = (lines content).length := by
  rw [lineStarts_eq, Lines.length_offsets, lines, List.length_map]

lemma take_lines_append
    (hends : k < (Lines.split newline content).length ∨ content.getLast? = some newline)
    (rest : Text) :
    lines (((Lines.split newline content).take k).flatten ++ rest) =
      (lines content).take k ++ lines rest := by
  rw [lines, Lines.split_take_append hends, List.map_append, List.map_take]
  rfl

structure Built (h : Highlighter Syntax State Segment) (f : FileView Syntax State Segment) :
    Prop where
  starts : f.lineStarts = Ui.lineStarts f.content
  total : f.totalLines = (lines f.content).length
  within : f.lineHighlights.length ≤ min f.totalLines highlightLineCap
  reusable : f.reusableHighlights = 0 ∨ f.reusableHighlights = f.lineHighlights.length
  unbuilt : f.cachedSyntaxName = none → f.lineHighlights = []
  cached : ∀ syntaxName, f.cachedSyntaxName = some syntaxName →
    f.lineHighlights =
      (h.highlightLines (h.new syntaxName) ((lines f.content).take f.lineHighlights.length)).1
  resumes : ∀ syntaxName checkpoint, f.cachedSyntaxName = some syntaxName →
    f.highlightCheckpoint = some checkpoint → checkpoint =
      (h.highlightLines (h.new syntaxName) ((lines f.content).take f.lineHighlights.length)).2

lemma Built.congr {g : FileView Syntax State Segment} (hb : f.Built h)
    (hsame : ({ g with scroll := 0, linesLower := [] } : FileView Syntax State Segment) =
      { f with scroll := 0, linesLower := [] }) : g.Built h := by
  have hbare : ({ f with scroll := 0, linesLower := [] } :
      FileView Syntax State Segment).Built h :=
    ⟨hb.starts, hb.total, hb.within, hb.reusable, hb.unbuilt, hb.cached, hb.resumes⟩
  rw [← hsame] at hbare
  exact ⟨hbare.starts, hbare.total, hbare.within, hbare.reusable, hbare.unbuilt, hbare.cached,
    hbare.resumes⟩

lemma new_built (h : Highlighter Syntax State Segment) :
    ({} : FileView Syntax State Segment).Built h :=
  ⟨rfl, rfl, Nat.zero_le _, .inl rfl, fun _ => rfl, fun _ h => (by cases h),
    fun _ _ h => (by cases h)⟩

lemma appendablePrefixLen_spec (hb : f.Built h) (next : Text) :
    ∃ r, f.appendablePrefixLen next = some r ∧ (r = 0 ∨ r = f.lineHighlights.length ∧
      (lines next).take r = (lines f.content).take r ∧ r ≤ (lines next).length) := by
  have hwithin : f.lineHighlights.length ≤ (Lines.split newline f.content).length := by
    have := hb.within
    rw [hb.total, lines, List.length_map] at this
    exact this.trans (min_le_left _ _)
  have hkept : ∀ rest : Text, next =
      ((Lines.split newline f.content).take f.lineHighlights.length).flatten ++ rest →
      (f.lineHighlights.length < (Lines.split newline f.content).length ∨
        f.content.getLast? = some newline) →
      (lines next).take f.lineHighlights.length = (lines f.content).take f.lineHighlights.length ∧
        f.lineHighlights.length ≤ (lines next).length := by
    rintro rest rfl hends
    have hlen : ((lines f.content).take f.lineHighlights.length).length =
        f.lineHighlights.length := by
      rw [lines, List.length_take_of_le]
      rw [List.length_map]
      exact hwithin
    rw [take_lines_append hends]
    refine ⟨List.take_left' hlen, ?_⟩
    rw [List.length_append, hlen]
    exact Nat.le_add_right _ _
  rw [appendablePrefixLen]
  split
  · exact ⟨0, rfl, .inl rfl⟩
  · split
    · rename_i boundary hboundary
      rw [hb.starts, lineStarts_eq] at hboundary
      obtain ⟨hlt, hoffset⟩ := Lines.getElem?_offsets hboundary
      rw [Nat.zero_add] at hoffset
      have hstarts : f.content.take boundary =
          ((Lines.split newline f.content).take f.lineHighlights.length).flatten := by
        have htake := Lines.take_flatten_length (Lines.split newline f.content)
          f.lineHighlights.length
        rwa [Lines.flatten_split, ← hoffset] at htake
      split
      · exact ⟨0, rfl, .inl rfl⟩
      · split
        · rename_i hshort
          have hlen := congrArg List.length hstarts
          rw [List.length_take, ← hoffset] at hlen
          omega
        · split
          · exact ⟨0, rfl, .inl rfl⟩
          · rename_i hsame
            refine ⟨_, rfl, .inr ⟨rfl, hkept (next.drop boundary) ?_ (.inl hlt)⟩⟩
            rw [← hstarts, not_not.mp hsame, List.take_append_drop]
    · rename_i hnone
      split
      · rename_i hgrown
        obtain ⟨hends, rest, rfl⟩ := hgrown
        refine ⟨_, rfl, .inr ⟨rfl, hkept rest ?_ (.inr hends)⟩⟩
        rw [hb.starts, List.getElem?_eq_none_iff, length_lineStarts, lines,
          List.length_map] at hnone
        rw [List.take_of_length_le hnone, Lines.flatten_split]
      · exact ⟨0, rfl, .inl rfl⟩

lemma setContent_built (hb : f.Built h) (content : Text) :
    ∃ g, f.setContent content = some g ∧ g.Built h ∧ g.content = content := by
  obtain ⟨r, hr, hkept⟩ := appendablePrefixLen_spec hb content
  have htotal : (Ui.lineStarts content).length = (lines content).length :=
    length_lineStarts content
  rw [setContent, hr]
  refine ⟨_, rfl, ?_, rfl⟩
  rcases hkept with rfl | ⟨rfl, hsame, hle⟩
  · refine ⟨rfl, htotal, ?_, .inl rfl, fun _ => rfl, fun _ h => (by cases h),
      fun _ _ h => (by cases h)⟩
    exact Nat.zero_le _
  · have hall : f.lineHighlights.take f.lineHighlights.length = f.lineHighlights :=
      List.take_length
    dsimp only
    rw [hall]
    refine ⟨rfl, htotal, ?_, .inr rfl, fun hname => ?_, fun name hname => ?_,
      fun name checkpoint hname hcheckpoint => ?_⟩
    · dsimp only
      rw [htotal]
      exact le_min hle (hb.within.trans (min_le_right _ _))
    · dsimp only at hname ⊢
      split at hname
      · rename_i hzero
        exact List.length_eq_zero_iff.mp hzero
      · exact hb.unbuilt hname
    · dsimp only at hname ⊢
      split at hname
      · cases hname
      · rw [hsame]
        exact hb.cached name hname
    · dsimp only at hname hcheckpoint ⊢
      split at hname
      · cases hname
      · rename_i hzero
        rw [if_neg hzero] at hcheckpoint
        rw [hsame]
        exact hb.resumes name checkpoint hname hcheckpoint

variable [DecidableEq Syntax]

lemma resumed_spec (hb : f.Built h) (syntaxName : Syntax) :
    ∃ k, k ≤ min f.totalLines highlightLineCap ∧ f.resumed h syntaxName =
      h.highlightLines (h.new syntaxName) ((lines f.content).take k) := by
  have hnew : ([], h.new syntaxName) =
      h.highlightLines (h.new syntaxName) ((lines f.content).take 0) := by
    rw [List.take_zero]
    rfl
  rw [resumed]
  cases hcheckpoint : f.highlightCheckpoint with
  | none => exact ⟨0, Nat.zero_le _, hnew⟩
  | some checkpoint =>
    dsimp only
    by_cases hreuse : f.cachedSyntaxName = some syntaxName ∧ 0 < f.reusableHighlights ∧
        f.reusableHighlights ≤ f.lineHighlights.length
    · have hall : f.reusableHighlights = f.lineHighlights.length := by
        rcases hb.reusable with h | h
        · omega
        · exact h
      refine ⟨f.lineHighlights.length, hb.within, ?_⟩
      rw [if_pos hreuse, if_pos hreuse.2.1, hall, List.take_length]
      exact Prod.ext (hb.cached _ hreuse.1) (hb.resumes _ _ hreuse.1 hcheckpoint)
    · rw [if_neg hreuse, if_neg (lt_irrefl 0)]
      exact ⟨0, Nat.zero_le _, hnew⟩

lemma ensureHighlightCache_built (hb : f.Built h) (syntaxName : Syntax) :
    (f.ensureHighlightCache h syntaxName).Built h ∧
      (f.ensureHighlightCache h syntaxName).content = f.content ∧
      (f.ensureHighlightCache h syntaxName).lineHighlights = (h.highlightLines (h.new syntaxName)
        ((lines f.content).take highlightLineCap)).1 := by
  have hlimit : (lines f.content).take highlightLineCap =
      (lines f.content).take (min f.totalLines highlightLineCap) := by
    rw [hb.total, min_comm, ← List.take_take, List.take_length]
  have hlen : ((lines f.content).take (min f.totalLines highlightLineCap)).length =
      min f.totalLines highlightLineCap := by
    rw [List.length_take_of_le]
    rw [hb.total]
    exact min_le_left _ _
  rw [ensureHighlightCache]
  split
  · rename_i hdone
    obtain ⟨hfull, -, hname⟩ := hdone
    refine ⟨hb, rfl, ?_⟩
    rw [hlimit, ← hfull]
    exact hb.cached _ hname
  · obtain ⟨k, hk, hresumed⟩ := resumed_spec hb syntaxName
    have hkept : (f.resumed h syntaxName).1.length = k := by
      rw [hresumed, Highlighter.length_highlightLines, List.length_take_of_le]
      exact (hk.trans (min_le_left _ _)).trans hb.total.le
    have hpass : ((f.resumed h syntaxName).1 ++ (h.highlightLines (f.resumed h syntaxName).2
          (((lines f.content).take (min f.totalLines highlightLineCap)).drop
            (f.resumed h syntaxName).1.length)).1,
        (h.highlightLines (f.resumed h syntaxName).2
          (((lines f.content).take (min f.totalLines highlightLineCap)).drop
            (f.resumed h syntaxName).1.length)).2) =
        h.highlightLines (h.new syntaxName)
          ((lines f.content).take (min f.totalLines highlightLineCap)) := by
      rw [hkept, hresumed]
      exact (Highlighter.highlightLines_resume _ _ hk).symm
    have hout := congrArg Prod.fst hpass
    have hstate := congrArg Prod.snd hpass
    dsimp only at hout hstate
    have hsize := congrArg List.length hout
    rw [Highlighter.length_highlightLines, hlen] at hsize
    refine ⟨⟨hb.starts, hb.total, ?_, .inl rfl, fun hname => (by cases hname),
      fun name hname => ?_, fun name checkpoint hname hcheckpoint => ?_⟩, rfl, ?_⟩
    · exact hsize.le
    · obtain rfl := Option.some.inj hname
      dsimp only
      rw [hsize]
      exact hout
    · obtain rfl := Option.some.inj hname
      dsimp only at hcheckpoint ⊢
      rw [hsize]
      split at hcheckpoint
      · cases hcheckpoint
      · rw [← hstate]
        exact (Option.some.inj hcheckpoint).symm
    · rw [hlimit]
      exact hout

end FileView

end Nightcrow.Ui
