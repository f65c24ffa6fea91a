import Nightcrow.Ui.FileView
import Nightcrow.Library.Runs

namespace Nightcrow.Ui

inductive LineKind where
  | added | removed | context
  deriving DecidableEq

structure DiffLine where
  kind : LineKind
  content : Text
  oldLineno : Option ℕ := none
  newLineno : Option ℕ := none
  deriving DecidableEq

structure DiffHunk where
  lines : List DiffLine
  filePath : Option Text := none
  deriving DecidableEq

inductive DiffPaneView where
  | diff | file | split
  deriving DecidableEq

inductive SplitRow where
  | header (hi : ℕ)
  | body (left right : Option (ℕ × ℕ))
  deriving DecidableEq

structure PairCheckpoint (Syntax State : Type*) where
  syntaxName : Syntax
  newSide : State
  oldSide : State

structure SearchQuery where
  raw : List Text := []
  lower : Text := []

structure DiffSearch where
  active : Bool := false
  query : SearchQuery := {}
  found : List ℕ := []
  cursor : ℕ := 0

structure DiffPane (Syntax State Segment : Type*) where
  hunks : List DiffHunk := []
  hunksLinesLower : List (List Text) := []
  lineHighlights : List (List (List Segment)) := []
  previousHighlights : List (List (List Segment)) := []
  previousHunks : List DiffHunk := []
  previousCheckpoints : List (PairCheckpoint Syntax State) := []
  highlightCheckpoints : List (PairCheckpoint Syntax State) := []
  generation : ℕ := 0
  totalLines : ℕ := 0
  hunkStarts : List ℕ := []
  maxLineNumber : ℕ := 0
  syntaxShape : List (Option Text) := []
  splitRows : List SplitRow := []
  lowerCacheGeneration : Option ℕ := none
  highlightCacheGeneration : Option ℕ := none
  scroll : ℕ := 0
  search : DiffSearch := {}
  view : DiffPaneView := .diff
  fileView : FileView Syntax State Segment := {}

structure Pending where
  rows : List SplitRow := []
  removed : List ℕ := []
  added : List ℕ := []

def paired (hi : ℕ) (removed added : List ℕ) : List SplitRow :=
  (List.range (max removed.length added.length)).map (fun i =>
    .body (removed[i]?.map (fun li => (hi, li))) (added[i]?.map (fun li => (hi, li))))

def flushSplitBlocks (hi : ℕ) (s : Pending) : Pending where
  rows := s.rows ++ paired hi s.removed s.added

def splitLines (hi : ℕ) : ℕ → List DiffLine → Pending → Pending
  | _, [], s => s
  | li, line :: rest, s =>
    splitLines hi (li + 1) rest
      (match line.kind with
      | .removed => { s with removed := s.removed ++ [li] }
      | .added => { s with added := s.added ++ [li] }
      | .context =>
        let s := flushSplitBlocks hi s
        { s with rows := s.rows ++ [.body (some (hi, li)) (some (hi, li))] })

def splitHunks : ℕ → List DiffHunk → Pending → Pending
  | _, [], s => s
  | hi, hunk :: rest, s =>
    splitHunks (hi + 1) rest
      (flushSplitBlocks hi
        (splitLines hi 0 hunk.lines { s with rows := s.rows ++ [.header hi] }))

def startsFrom (total : ℕ) : List DiffHunk → List ℕ × ℕ
  | [] => ([], total)
  | hunk :: rest =>
    let (starts, all) := startsFrom (total + (1 + hunk.lines.length)) rest
    (total :: starts, all)

def maxLineno (most : ℕ) (hunks : List DiffHunk) : ℕ :=
  hunks.foldl (fun most hunk => hunk.lines.foldl (fun most line =>
    max (max most (line.oldLineno.getD 0)) (line.newLineno.getD 0)) most) most

def nearestMatchIndex (found : List ℕ) (scroll : ℕ) : ℕ :=
  let i := (found.takeWhile (fun m => m < scroll)).length
  match found[i]?, i with
  | none, _ => found.length - 1
  | some _, 0 => 0
  | some next, j + 1 =>
    if next = scroll then i
    else if scroll - found.getD j 0 ≤ next - scroll then j else i

variable {Syntax State Segment : Type*}

namespace DiffPane

variable (p : DiffPane Syntax State Segment)

def setHunks (h : Highlighter Syntax State Segment) (hunks : List DiffHunk) :
    DiffPane Syntax State Segment :=
  { p with
    previousHunks := if hunks = [] then [] else p.hunks.take p.lineHighlights.length
    previousHighlights := if hunks = [] then [] else p.lineHighlights
    previousCheckpoints := if hunks = [] then [] else p.highlightCheckpoints
    lineHighlights := []
    highlightCheckpoints := []
    hunks
    generation := (p.generation + 1) % 2 ^ 64
    hunksLinesLower := []
    lowerCacheGeneration := none
    hunkStarts := (startsFrom 0 hunks).1
    totalLines := (startsFrom 0 hunks).2
    syntaxShape := hunks.map (fun hunk => hunk.filePath.map h.pathExtension)
    maxLineNumber := maxLineno 0 hunks
    splitRows := (splitHunks 0 hunks {}).rows
    highlightCacheGeneration := none
    search := { p.search with found := [] } }

def rebuildLowerCache (lower : Text → Text) : DiffPane Syntax State Segment :=
  { p with
    hunksLinesLower := p.hunks.map (fun hunk => hunk.lines.map (fun l => lower l.content))
    lowerCacheGeneration := some p.generation }

def ensureLowerCache (lower : Text → Text) : DiffPane Syntax State Segment :=
  if p.lowerCacheGeneration ≠ some p.generation then p.rebuildLowerCache lower else p

def Lowered (lower : Text → Text) : Prop := p.lowerCacheGeneration = some p.generation →
  p.hunksLinesLower = p.hunks.map (fun hunk => hunk.lines.map (fun l => lower l.content))

def matchesIn (query : Text) : ℕ → List Text → List ℕ
  | _, [] => []
  | i, line :: rest =>
    if query <:+: line then i :: matchesIn query (i + 1) rest else matchesIn query (i + 1) rest

def matchesFrom (query : Text) : ℕ → List (List Text) → List ℕ
  | _, [] => []
  | flatIdx, lines :: rest =>
    matchesIn query (flatIdx + 1) lines ++ matchesFrom query (flatIdx + 1 + lines.length) rest

def scrollTo (idx : ℕ) : DiffPane Syntax State Segment :=
  if p.view = .file then
    { p with fileView := { p.fileView with scroll := min idx p.fileView.maxScroll } }
  else { p with scroll := idx }

def findMatches (lower : Text → Text) : DiffPane Syntax State Segment :=
  if p.view = .file then
    let fileView := p.fileView.ensureLowerCache lower
    { p with
      fileView
      search := { p.search with found := matchesIn p.search.query.lower 0 fileView.linesLower } }
  else
    let p := p.ensureLowerCache lower
    { p with
      search := { p.search with
        found := matchesFrom p.search.query.lower 0 p.hunksLinesLower } }

def recomputeMatches (lower : Text → Text) (scrollToMatch : Bool) :
    DiffPane Syntax State Segment :=
  if p.search.query.raw = [] then { p with search := { p.search with found := [], cursor := 0 } }
  else
    let p := p.findMatches lower
    if p.search.found = [] then { p with search := { p.search with cursor := 0 } }
    else if scrollToMatch then
      let cursor := min p.search.cursor (p.search.found.length - 1)
      let p := { p with search := { p.search with cursor } }
      match p.search.found[cursor]? with
      | some idx => p.scrollTo idx
      | none => p
    else
      let anchor := if p.view = .file then p.fileView.scroll else p.scroll
      { p with search := { p.search with cursor := nearestMatchIndex p.search.found anchor } }

def setQuery (lower : Text → Text) (raw : List Text) : DiffPane Syntax State Segment :=
  { p with search := { p.search with query := { raw, lower := lower raw.flatten } } }

def searchPush (lower : Text → Text) (ch : Text) : DiffPane Syntax State Segment :=
  (p.setQuery lower (p.search.query.raw ++ [ch])).recomputeMatches lower true

def searchPop (lower : Text → Text) : DiffPane Syntax State Segment :=
  (if p.search.query.raw = [] then p else p.setQuery lower p.search.query.raw.dropLast)
    |>.recomputeMatches lower true

def startSearch : DiffPane Syntax State Segment :=
  { p with search := { p.search with active := true } }

def cancelSearch : DiffPane Syntax State Segment := { p with search := {} }

def confirmSearch : DiffPane Syntax State Segment :=
  if p.search.query.raw = [] then p.cancelSearch
  else { p with search := { p.search with active := false } }

def moveTo (cursor : ℕ) : DiffPane Syntax State Segment :=
  let p := { p with search := { p.search with cursor } }
  match p.search.found[cursor]? with
  | some idx => p.scrollTo idx
  | none => p

def nextMatch : DiffPane Syntax State Segment :=
  if p.search.found = [] then p
  else if p.search.found.length ≤ p.search.cursor then p.moveTo 0
  else p.moveTo ((p.search.cursor + 1) % p.search.found.length)

def prevMatch : DiffPane Syntax State Segment :=
  if p.search.found = [] then p
  else if p.search.cursor = 0 ∨ p.search.found.length ≤ p.search.cursor then
    p.moveTo (p.search.found.length - 1)
  else p.moveTo (p.search.cursor - 1)

/-! The highlight cache. -/

structure ReusedPrefix where
  wholeHunks : ℕ
  partialLines : Option ℕ

def syntaxAt (h : Highlighter Syntax State Segment) (idx : ℕ) : Syntax :=
  h.resolveSyntaxExtension p.syntaxShape[idx]?.join

def sameLine (line old : DiffLine) : Bool :=
  line.content = old.content && decide (line.kind = .removed ↔ old.kind = .removed)

def sameLines (shared : ℕ) (lines old : List DiffLine) : Bool :=
  ((lines.take shared).zip (old.take shared)).all (fun (line, old) => sameLine line old)

def reusableFrom [DecidableEq Syntax] (h : Highlighter Syntax State Segment) : ℕ →
    List DiffHunk → List DiffHunk → List (List (List Segment)) →
      List (PairCheckpoint Syntax State) → ReusedPrefix
  | idx, hunk :: hunks, previous :: olds, entry :: entries, checkpoint :: checkpoints =>
    if checkpoint.syntaxName ≠ p.syntaxAt h idx then ⟨idx, none⟩
    else if !sameLines (min entry.length hunk.lines.length) hunk.lines previous.lines then
      ⟨idx, none⟩
    else if entry.length = hunk.lines.length then
      reusableFrom h (idx + 1) hunks olds entries checkpoints
    else if entry.length < hunk.lines.length then ⟨idx, some entry.length⟩
    else ⟨idx, none⟩
  | idx, _, _, _, _ => ⟨idx, none⟩

def reusablePrefix [DecidableEq Syntax] (h : Highlighter Syntax State Segment) : ReusedPrefix :=
  p.reusableFrom h 0 p.hunks p.previousHunks p.previousHighlights p.previousCheckpoints

def highlightSides (h : Highlighter Syntax State Segment) : PairCheckpoint Syntax State →
    List DiffLine → List (List Segment) × PairCheckpoint Syntax State
  | pair, [] => ([], pair)
  | pair, line :: rest =>
    if line.kind = .removed then
      let (segments, oldSide) := h.highlightLine pair.oldSide line.content
      let (entry, pair) := highlightSides h { pair with oldSide } rest
      (segments :: entry, pair)
    else
      let (segments, newSide) := h.highlightLine pair.newSide line.content
      let (entry, pair) := highlightSides h { pair with newSide } rest
      (segments :: entry, pair)

def pairFor [DecidableEq Syntax] (h : Highlighter Syntax State Segment)
    (pair : Option (PairCheckpoint Syntax State)) (syntaxName : Syntax) :
    PairCheckpoint Syntax State :=
  match pair with
  | some pair =>
    if pair.syntaxName = syntaxName then pair
    else ⟨syntaxName, h.new syntaxName, h.new syntaxName⟩
  | none => ⟨syntaxName, h.new syntaxName, h.new syntaxName⟩

def highlightFrom [DecidableEq Syntax] (h : Highlighter Syntax State Segment) : ℕ →
    List DiffHunk → ℕ → Option (PairCheckpoint Syntax State) →
      List (List (List Segment)) × List (PairCheckpoint Syntax State)
  | _, [], _, _ => ([], [])
  | idx, hunk :: rest, remaining, pair =>
    if remaining = 0 then ([], [])
    else
      let take := min hunk.lines.length remaining
      let (entry, pair) :=
        highlightSides h (pairFor h pair (p.syntaxAt h idx)) (hunk.lines.take take)
      let (out, checkpoints) := highlightFrom h (idx + 1) rest (remaining - take) (some pair)
      (entry :: out, pair :: checkpoints)

def finishPass [DecidableEq Syntax] (h : Highlighter Syntax State Segment)
    (out : List (List (List Segment))) (checkpoints : List (PairCheckpoint Syntax State))
    (firstHunk remaining : ℕ) (pair : Option (PairCheckpoint Syntax State)) :
    DiffPane Syntax State Segment :=
  let (entries, later) := p.highlightFrom h firstHunk (p.hunks.drop firstHunk) remaining pair
  { p with
    lineHighlights := out ++ entries
    highlightCheckpoints := checkpoints ++ later
    highlightCacheGeneration := some p.generation
    previousHunks := []
    previousHighlights := []
    previousCheckpoints := [] }

def ensureHighlightCache [DecidableEq Syntax] (h : Highlighter Syntax State Segment) :
    Option (DiffPane Syntax State Segment) :=
  if p.highlightCacheGeneration = some p.generation then some p
  else
    let reused := p.reusablePrefix h
    let whole := reused.wholeHunks
    if p.previousHighlights.length < whole ∨ p.previousCheckpoints.length < whole then none
    else
      let out := p.previousHighlights.take whole
      let checkpoints := p.previousCheckpoints.take whole
      let remaining := highlightLineCap - (out.map List.length).sum
      match reused.partialLines with
      | some shared =>
        match p.hunks[whole]?, p.previousHighlights[whole]?, p.previousCheckpoints[whole]? with
        | some hunk, some entry, some checkpoint =>
          if hunk.lines.length < shared then none
          else
            let remaining := remaining - shared
            let additional := min (hunk.lines.length - shared) remaining
            let (added, pair) :=
              highlightSides h checkpoint ((hunk.lines.drop shared).take additional)
            let pair := { pair with syntaxName := p.syntaxAt h whole }
            some (p.finishPass h (out ++ [entry ++ added]) (checkpoints ++ [pair]) (whole + 1)
              (remaining - additional) (some pair))
        | _, _, _ => none
      | none =>
        let pair :=
          if 0 < remaining ∧ whole < p.hunks.length ∧ 0 < whole then
            checkpoints.getLast?.filter (fun c => c.syntaxName = p.syntaxAt h whole)
          else none
        some (p.finishPass h out checkpoints whole remaining pair)

end DiffPane

end Nightcrow.Ui
