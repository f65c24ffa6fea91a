import Nightcrow.Library.Runs
import Nightcrow.Ui.FileView

namespace Nightcrow.Ui

open Nightcrow.Library

def stripSuffix (b : UInt8) (l : Text) : Text := if l.getLast? = some b then l.dropLast else l

namespace FileView

variable {Syntax State Segment : Type*} (f : FileView Syntax State Segment)

def scrollUp (n : ℕ) : FileView Syntax State Segment := { f with scroll := f.scroll - n }

def scrollDown (n : ℕ) : FileView Syntax State Segment :=
  { f with scroll := min (f.scroll + n) f.maxScroll }

def lineText (idx : ℕ) : Option (Option Text) :=
  match f.lineStarts[idx]? with
  | none => some none
  | some start =>
    let stop := f.lineStarts[idx + 1]?.getD f.content.length
    if start ≤ stop ∧ stop ≤ f.content.length then
      let line := (f.content.take stop).drop start
      some (some (stripSuffix carriageReturn (stripSuffix newline line)))
    else none

inductive Action (Syntax : Type*) where
  | setContent (content : Text)
  | scrollUp (n : ℕ)
  | scrollDown (n : ℕ)
  | ensureLowerCache
  | ensureHighlightCache (syntaxName : Syntax)

-- the content that was handed over last
def Action.loaded : Text → Action Syntax → Text
  | _, .setContent content => content
  | last, _ => last

section

variable [DecidableEq Syntax] (h : Highlighter Syntax State Segment) (lower : Text → Text)

def step : Action Syntax → Option (FileView Syntax State Segment)
  | .setContent content => f.setContent content
  | .scrollUp n => some (f.scrollUp n)
  | .scrollDown n => some (f.scrollDown n)
  | .ensureLowerCache => some (f.ensureLowerCache lower)
  | .ensureHighlightCache syntaxName => some (f.ensureHighlightCache h syntaxName)

def run (actions : List (Action Syntax)) : Option (FileView Syntax State Segment) :=
  Library.run (fun f => f.step h lower) {} actions

structure IndexesLines : Prop where
  starts : f.lineStarts = Ui.lineStarts f.content ∧ f.lineStarts.length = (lines f.content).length
  total : f.totalLines = (lines f.content).length
  maxScroll : f.maxScroll = (lines f.content).length - 1
  text : ∀ i, f.lineText i = some (lines f.content)[i]?
  lowered : (f.ensureLowerCache lower).linesLower = (lines f.content).map lower
  highlighted : ∀ syntaxName, (f.ensureHighlightCache h syntaxName).lineHighlights =
    (h.highlightLines (h.new syntaxName) ((lines f.content).take highlightLineCap)).1

end

variable {f} {h : Highlighter Syntax State Segment} {lower : Text → Text} {content line : Text}
  {i : ℕ}

lemma stripSuffix_of_ne {b : UInt8} (hne : line.getLast? ≠ some b) : stripSuffix b line = line :=
  if_neg hne

lemma stripped_eq_iff : stripSuffix carriageReturn (stripSuffix newline line) = trimLine line ↔
    line.getLast? ≠ some carriageReturn := by
  by_cases hlf : line.getLast? = some newline
  · have hcr : line.getLast? ≠ some carriageReturn := by
      rw [hlf]
      decide
    rw [stripSuffix, stripSuffix, if_pos hlf, trimLine, if_pos hlf]
    exact ⟨fun _ => hcr, fun _ => rfl⟩
  · rw [stripSuffix_of_ne hlf, trimLine, if_neg hlf, stripSuffix]
    split
    · rename_i hcr
      refine ⟨fun heq => ?_, fun hne => absurd hcr hne⟩
      have hlen := congrArg List.length heq
      rw [List.length_dropLast] at hlen
      have hpos : 0 < line.length := List.length_pos_of_mem (List.mem_of_getLast? hcr)
      omega
    · rename_i hcr
      exact ⟨fun _ => hcr, fun _ => rfl⟩

lemma lineText_eq (hstarts : f.lineStarts = Ui.lineStarts f.content) (i : ℕ) :
    f.lineText i = some ((Lines.split newline f.content)[i]?.map
      (fun line => stripSuffix carriageReturn (stripSuffix newline line))) := by
  rw [lineText, hstarts, lineStarts_eq]
  by_cases hi : i < (Lines.split newline f.content).length
  · have hslice := Lines.slice_flatten (List.getElem?_eq_getElem hi)
    have hstop := Lines.offsets_next (Lines.split newline f.content) i
    rw [Lines.flatten_split] at hslice hstop
    have hle : ((Lines.split newline f.content).take (i + 1)).flatten.length ≤ f.content.length := by
      conv_rhs => rw [← Lines.flatten_split newline f.content]
      exact ((List.take_sublist _ _).flatten).length_le
    have hstart : ((Lines.split newline f.content).take i).flatten.length ≤
        ((Lines.split newline f.content).take (i + 1)).flatten.length :=
      ((List.take_prefix_take_left (Nat.le_succ i)).sublist.flatten).length_le
    rw [Lines.offsets_getElem? hi, Nat.zero_add]
    dsimp only
    rw [hstop, if_pos ⟨hstart, hle⟩, hslice, List.getElem?_eq_getElem hi]
    rfl
  · have hlen := not_lt.mp hi
    rw [List.getElem?_eq_none hlen, List.getElem?_eq_none ((Lines.length_offsets _ _).trans_le hlen)]
    rfl

lemma getLast?_content (content : Text) :
    content.getLast? = (Lines.split newline content).getLast?.bind List.getLast? := by
  rcases List.eq_nil_or_concat (Lines.split newline content) with hnil | ⟨ls, line, hsplit⟩
  · rw [hnil, Lines.split_eq_nil.mp hnil]
    rfl
  · have hne : line ≠ [] := by
      refine @Lines.ne_nil_of_mem_split _ newline line content _ ?_
      rw [hsplit, List.concat_eq_append]
      exact List.mem_append_right _ (List.mem_singleton_self _)
    have hflat := Lines.flatten_split newline content
    rw [hsplit, List.concat_eq_append, List.flatten_append, List.flatten_singleton] at hflat
    rw [hsplit, List.concat_eq_append, List.getLast?_concat, ← hflat,
      List.getLast?_append_of_ne_nil _ hne]
    rfl

lemma last_of_cr (hline : (Lines.split newline content)[i]? = some line)
    (hcr : line.getLast? = some carriageReturn) : content.getLast? = some carriageReturn := by
  obtain ⟨hi, rfl⟩ := List.getElem?_eq_some_iff.mp hline
  by_cases hlast : i + 1 < (Lines.split newline content).length
  · have hmem : (Lines.split newline content)[i] ∈ (Lines.split newline content).take (i + 1) :=
      List.mem_take_iff_getElem.mpr ⟨i, by omega, rfl⟩
    obtain ⟨body, -, hends⟩ := Lines.isLine_of_mem_take hlast hmem
    rw [hends, List.getLast?_concat] at hcr
    exact absurd (Option.some.inj hcr) (by decide)
  · have hlen : (Lines.split newline content).length - 1 = i := by omega
    rw [getLast?_content, List.getLast?_eq_getElem?, hlen, hline]
    exact hcr

lemma text_iff (hstarts : f.lineStarts = Ui.lineStarts f.content) :
    (∀ i, f.lineText i = some (lines f.content)[i]?) ↔
      f.content.getLast? ≠ some carriageReturn := by
  have hline : ∀ i, f.lineText i = some (lines f.content)[i]? ↔
      ∀ line, (Lines.split newline f.content)[i]? = some line →
        line.getLast? ≠ some carriageReturn := by
    intro i
    rw [lineText_eq hstarts, lines, List.getElem?_map]
    cases (Lines.split newline f.content)[i]? with
    | none => exact ⟨fun _ line h => absurd h.symm (Option.some_ne_none line), fun _ => rfl⟩
    | some line =>
      refine ⟨fun heq line' h => ?_, fun hne => ?_⟩
      · obtain rfl := Option.some.inj h
        exact stripped_eq_iff.mp (Option.some.inj (Option.some.inj heq))
      · exact congrArg (fun line => some (some line)) (stripped_eq_iff.mpr (hne line rfl))
  refine ⟨fun htext hcr => ?_, fun hne i => (hline i).mpr fun line hi hcr => ?_⟩
  · rw [getLast?_content] at hcr
    obtain ⟨line, hlast, hcr⟩ := Option.bind_eq_some_iff.mp hcr
    rw [List.getLast?_eq_getElem?] at hlast
    exact (hline _).mp (htext _) line hlast hcr
  · exact hne (last_of_cr hi hcr)

structure Read (h : Highlighter Syntax State Segment) (lower : Text → Text)
    (f : FileView Syntax State Segment) : Prop where
  built : f.Built h
  lowered : f.linesLower = [] ∨ f.linesLower = (lines f.content).map lower

lemma Read.searched (hf : f.Read h lower) :
    (f.ensureLowerCache lower).linesLower = (lines f.content).map lower := by
  rw [ensureLowerCache]
  split
  · rename_i hdone
    rcases hf.lowered with hnil | hall
    · have hlen := hdone.1
      rw [hnil, hf.built.total] at hlen
      rw [hnil, List.eq_nil_of_length_eq_zero hlen.symm]
      rfl
    · exact hall
  · rfl

variable [DecidableEq Syntax]

lemma Read.step (hf : f.Read h lower) (action : Action Syntax) :
    ∃ g, f.step h lower action = some g ∧ g.Read h lower := by
  cases action with
  | setContent content =>
    obtain ⟨g, hg, hbuilt, -⟩ := setContent_built hf.built content
    refine ⟨g, hg, hbuilt, .inl ?_⟩
    obtain ⟨_, -, rfl⟩ := Option.map_eq_some_iff.mp hg
    rfl
  | scrollUp n => exact ⟨_, rfl, hf.built.congr rfl, hf.lowered⟩
  | scrollDown n => exact ⟨_, rfl, hf.built.congr rfl, hf.lowered⟩
  | ensureLowerCache =>
    refine ⟨_, rfl, ?_, .inr ?_⟩
    · refine hf.built.congr ?_
      rw [FileView.ensureLowerCache]
      split <;> rfl
    · refine hf.searched.trans ?_
      rw [FileView.ensureLowerCache]
      split <;> rfl
  | ensureHighlightCache syntaxName =>
    refine ⟨_, rfl, (ensureHighlightCache_built hf.built syntaxName).1, ?_⟩
    rw [(ensureHighlightCache_built hf.built syntaxName).2.1]
    have hsame : (f.ensureHighlightCache h syntaxName).linesLower = f.linesLower := by
      rw [FileView.ensureHighlightCache]
      split <;> rfl
    rw [hsame]
    exact hf.lowered

lemma run_read (h : Highlighter Syntax State Segment) (lower : Text → Text)
    (actions : List (Action Syntax)) : ∃ f, run h lower actions = some f ∧ f.Read h lower :=
  run_total (fun _ action hf => hf.step action) actions ⟨new_built h, .inl rfl⟩

lemma step_loaded {g : FileView Syntax State Segment} {action : Action Syntax}
    (hg : f.step h lower action = some g) : g.content = action.loaded f.content := by
  cases action with
  | setContent content =>
    obtain ⟨_, -, rfl⟩ := Option.map_eq_some_iff.mp hg
    rfl
  | scrollUp n | scrollDown n =>
    obtain rfl := Option.some.inj hg
    rfl
  | ensureLowerCache =>
    obtain rfl := Option.some.inj hg
    rw [FileView.ensureLowerCache]
    split <;> rfl
  | ensureHighlightCache syntaxName =>
    obtain rfl := Option.some.inj hg
    rw [FileView.ensureHighlightCache]
    split <;> rfl

theorem line_index_iff (h : Highlighter Syntax State Segment) (lower : Text → Text)
    (actions : List (Action Syntax)) : ∃ f, run h lower actions = some f ∧
      f.content = actions.foldl Action.loaded [] ∧
      (f.IndexesLines h lower ↔ f.content.getLast? ≠ some carriageReturn) := by
  obtain ⟨f, hrun, hf⟩ := run_read h lower actions
  have hstarts := hf.built.starts
  refine ⟨f, hrun, run_observe (fun _ _ _ hg => step_loaded hg) hrun,
    fun hall => (text_iff hstarts).mp hall.text, fun hne => ?_⟩
  refine ⟨⟨hstarts, ?_⟩, hf.built.total, ?_, (text_iff hstarts).mpr hne, hf.searched,
    fun syntaxName => (ensureHighlightCache_built hf.built syntaxName).2.2⟩
  · rw [hstarts]
    exact length_lineStarts f.content
  · rw [FileView.maxScroll, hf.built.total]

def loneReturn : Text := [97, 13]

theorem lone_return_is_stripped : ∃ f : FileView ℕ ℕ ℕ,
    run ⟨fun _ => [], fun _ => 0, fun _ => 0, fun s _ => ([], s)⟩ id
      [.setContent loneReturn] = some f ∧
    f.lineText 0 = some (some [97]) ∧ (lines f.content)[0]? = some loneReturn ∧
    ¬ f.IndexesLines ⟨fun _ => [], fun _ => 0, fun _ => 0, fun s _ => ([], s)⟩ id := by
  refine ⟨_, rfl, rfl, rfl, fun hall => ?_⟩
  exact absurd (hall.text 0) (by decide)

end FileView

end Nightcrow.Ui
