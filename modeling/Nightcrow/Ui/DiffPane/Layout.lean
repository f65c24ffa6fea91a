import Nightcrow.Ui.DiffPane.Highlights

namespace Nightcrow.Ui

open Nightcrow.Library

variable {hi li n idx : ℕ} {removed added : List ℕ} {lines block before : List DiffLine}
  {hunks : List DiffHunk} {row : SplitRow} {first last : DiffLine}

namespace SplitRow

def left : SplitRow → Option (ℕ × ℕ)
  | .header _ => none
  | .body left _ => left

def right : SplitRow → Option (ℕ × ℕ)
  | .header _ => none
  | .body _ right => right

def mirror : SplitRow → SplitRow
  | .header hi => .header hi
  | .body left right => .body right left

lemma left_mirror (row : SplitRow) : row.mirror.left = row.right := by
  cases row <;> rfl

end SplitRow

def LineKind.mirror : LineKind → LineKind
  | .added => .removed
  | .removed => .added
  | .context => .context

def DiffLine.mirror (line : DiffLine) : DiffLine := { line with kind := line.kind.mirror }

def linesNot (kind : LineKind) (li : ℕ) (lines : List DiffLine) : List ℕ :=
  ((lines.zipIdx li).filter (fun e => e.1.kind ≠ kind)).map Prod.snd

def linesRows (hi : ℕ) : ℕ → List ℕ → List ℕ → List DiffLine → List SplitRow
  | _, removed, added, [] => paired hi removed added
  | li, removed, added, line :: rest =>
    match line.kind with
    | .removed => linesRows hi (li + 1) (removed ++ [li]) added rest
    | .added => linesRows hi (li + 1) removed (added ++ [li]) rest
    | .context =>
      paired hi removed added ++
        .body (some (hi, li)) (some (hi, li)) :: linesRows hi (li + 1) [] [] rest

lemma flush_splitLines (s : Pending) : flushSplitBlocks hi (splitLines hi li lines s) =
    ⟨s.rows ++ linesRows hi li s.removed s.added lines, [], []⟩ := by
  induction lines generalizing li s with
  | nil => rfl
  | cons line lines ih =>
    rw [splitLines, ih, linesRows]
    cases line.kind with
    | removed => rfl
    | added => rfl
    | context =>
      simp only [flushSplitBlocks, List.append_assoc]
      rfl

lemma splitHunks_rows (s : Pending) (hs : s.removed = [] ∧ s.added = []) :
    (splitHunks hi hunks s).rows = s.rows ++
      (hunks.zipIdx hi).flatMap (fun e => .header e.2 :: linesRows e.2 0 [] [] e.1.lines) := by
  induction hunks generalizing hi s with
  | nil => exact (List.append_nil _).symm
  | cons hunk hunks ih =>
    rw [splitHunks, flush_splitLines, ih _ ⟨rfl, rfl⟩, List.zipIdx_cons, List.flatMap_cons]
    simp only [hs.1, hs.2, List.append_assoc, List.cons_append, List.nil_append]

lemma flatMap_zipIdx {α β : Type*} {l : List α} {f : α × ℕ → List β} {g : ℕ → List β}
    (hsame : ∀ i a, l[i]? = some a → f (a, i) = g i) :
    l.zipIdx.flatMap f = (List.range l.length).flatMap g := by
  rw [List.flatMap_def, List.flatMap_def]
  congr 1
  apply List.ext_getElem?
  intro i
  rw [List.getElem?_map, List.getElem?_map, List.getElem?_zipIdx]
  rcases Nat.lt_or_ge i l.length with hlt | hge
  · rw [List.getElem?_eq_getElem hlt, List.getElem?_range hlt]
    simp only [Option.map_some, Nat.zero_add]
    rw [hsame i _ (List.getElem?_eq_getElem hlt)]
  · rw [List.getElem?_eq_none hge, List.getElem?_eq_none (by simpa using hge)]
    rfl

lemma paired_mirror : paired hi added removed = (paired hi removed added).map SplitRow.mirror := by
  rw [paired, paired, List.map_map, max_comm]
  rfl

lemma linesRows_mirror : linesRows hi li added removed (lines.map DiffLine.mirror) =
    (linesRows hi li removed added lines).map SplitRow.mirror := by
  induction lines generalizing li removed added with
  | nil => exact paired_mirror
  | cons line lines ih =>
    obtain ⟨kind, content, old, new⟩ := line
    cases kind with
    | removed => exact ih
    | added => exact ih
    | context =>
      simp only [List.map_cons, DiffLine.mirror, LineKind.mirror, linesRows, List.map_append]
      rw [paired_mirror, ih]
      rfl

lemma filterMap_getElem? (l : List ℕ) (hn : l.length ≤ n) :
    (List.range n).filterMap (fun i => l[i]?) = l := by
  induction l generalizing n with
  | nil => simp
  | cons a l ih =>
    obtain ⟨m, rfl⟩ := Nat.exists_eq_add_of_le' (Nat.lt_of_lt_of_le (Nat.succ_pos _) hn)
    rw [List.range_succ_eq_map, List.filterMap_cons]
    simp only [List.getElem?_cons_zero, List.filterMap_map]
    congr 1
    exact ih (Nat.le_of_succ_le_succ hn)

lemma left_paired : (paired hi removed added).filterMap SplitRow.left =
    removed.map (fun li => (hi, li)) := by
  have hcells := filterMap_getElem? removed (le_max_left removed.length added.length)
  conv_rhs => rw [← hcells]
  rw [paired, List.filterMap_map, List.map_filterMap]
  rfl

lemma left_linesRows : (linesRows hi li removed added lines).filterMap SplitRow.left =
    (removed ++ linesNot .added li lines).map (fun li => (hi, li)) := by
  induction lines generalizing li removed added with
  | nil =>
    rw [linesRows, left_paired]
    simp [linesNot]
  | cons line lines ih =>
    have hnot : linesNot .added li (line :: lines) =
        if line.kind = .added then linesNot .added (li + 1) lines
        else li :: linesNot .added (li + 1) lines := by
      rw [linesNot, List.zipIdx_cons, List.filter_cons]
      by_cases h : line.kind = .added
      · simp [h, linesNot]
      · simp [h, linesNot]
    rw [linesRows, hnot]
    cases line.kind with
    | removed => simp [ih]
    | added => simp [ih]
    | context =>
      rw [List.filterMap_append, left_paired, List.filterMap_cons]
      simp [ih, SplitRow.left]

lemma linesNot_mirror :
    linesNot .added li (lines.map DiffLine.mirror) = linesNot .removed li lines := by
  induction lines generalizing li with
  | nil => rfl
  | cons line lines ih =>
    obtain ⟨kind, content, old, new⟩ := line
    simp only [linesNot] at ih ⊢
    rw [List.map_cons, List.zipIdx_cons, List.zipIdx_cons]
    cases kind with
    | removed => exact ih
    | added => exact congrArg (List.cons li) ih
    | context => exact congrArg (List.cons li) ih

lemma right_linesRows : (linesRows hi li removed added lines).filterMap SplitRow.right =
    (added ++ linesNot .removed li lines).map (fun li => (hi, li)) := by
  have hcells := @left_linesRows hi li added removed (lines.map DiffLine.mirror)
  rw [linesRows_mirror, linesNot_mirror, List.filterMap_map] at hcells
  rw [← hcells]
  exact List.filterMap_congr (fun row _ => (SplitRow.left_mirror row).symm)

lemma linesRows_context (hfirst : first.kind = .context) (rest : List DiffLine) :
    ∃ above, linesRows hi li removed added (before ++ first :: rest) = above ++
      .body (some (hi, li + before.length)) (some (hi, li + before.length)) ::
        linesRows hi (li + before.length + 1) [] [] rest := by
  induction before generalizing li removed added with
  | nil =>
    refine ⟨paired hi removed added, ?_⟩
    rw [List.nil_append, linesRows, hfirst]
    rfl
  | cons line before ih =>
    have hnext : li + (line :: before).length = li + 1 + before.length := by
      rw [List.length_cons]
      omega
    rw [List.cons_append, linesRows, hnext]
    cases line.kind with
    | removed => exact ih
    | added => exact ih
    | context =>
      obtain ⟨above, hrows⟩ := @ih (li + 1) [] []
      refine ⟨paired hi removed added ++ .body (some (hi, li)) (some (hi, li)) :: above, ?_⟩
      dsimp only
      rw [hrows, List.append_assoc, List.cons_append]

lemma linesRows_block (hblock : ∀ line ∈ block, line.kind ≠ .context)
    (hlast : last.kind = .context) (rest : List DiffLine) :
    ∃ rows, linesRows hi li removed added (block ++ last :: rest) = rows ++
        .body (some (hi, li + block.length)) (some (hi, li + block.length)) ::
          linesRows hi (li + block.length + 1) [] [] rest ∧
      rows.length = max (removed.length + block.countP (fun l => l.kind = .removed))
        (added.length + block.countP (fun l => l.kind = .added)) := by
  induction block generalizing li removed added with
  | nil =>
    refine ⟨paired hi removed added, ?_, ?_⟩
    · rw [List.nil_append, linesRows, hlast]
      rfl
    · rw [paired, List.length_map, List.length_range]
      rfl
  | cons line block ih =>
    obtain ⟨hline, hblock⟩ := List.forall_mem_cons.mp hblock
    have hnext : li + (line :: block).length = li + 1 + block.length := by
      rw [List.length_cons]
      omega
    rw [List.cons_append, linesRows, hnext, List.countP_cons, List.countP_cons]
    cases hkind : line.kind with
    | removed =>
      obtain ⟨rows, hrows, hlen⟩ := @ih (li + 1) (removed ++ [li]) added hblock
      refine ⟨rows, hrows, hlen.trans ?_⟩
      simp only [List.length_append, List.length_singleton, decide_true, if_true]
      congr 1
      omega
    | added =>
      obtain ⟨rows, hrows, hlen⟩ := @ih (li + 1) removed (added ++ [li]) hblock
      refine ⟨rows, hrows, hlen.trans ?_⟩
      simp only [List.length_append, List.length_singleton, decide_true, if_true]
      congr 1
      omega
    | context => exact absurd hkind hline

lemma paired_filled (hrow : row ∈ paired hi removed added) :
    row.left ≠ none ∨ row.right ≠ none := by
  obtain ⟨i, hi, rfl⟩ := List.mem_map.mp hrow
  rcases lt_max_iff.mp (List.mem_range.mp hi) with hlt | hlt
  · left
    simp [SplitRow.left, List.getElem?_eq_getElem hlt]
  · right
    simp [SplitRow.right, List.getElem?_eq_getElem hlt]

lemma linesRows_filled (hrow : row ∈ linesRows hi li removed added lines) :
    row.left ≠ none ∨ row.right ≠ none := by
  induction lines generalizing li removed added with
  | nil => exact paired_filled hrow
  | cons line lines ih =>
    rw [linesRows] at hrow
    cases hkind : line.kind with
    | removed =>
      rw [hkind] at hrow
      exact ih hrow
    | added =>
      rw [hkind] at hrow
      exact ih hrow
    | context =>
      rw [hkind] at hrow
      rcases List.mem_append.mp hrow with hrow | hrow
      · exact paired_filled hrow
      · rcases List.mem_cons.mp hrow with rfl | hrow
        · exact .inl (Option.some_ne_none _)
        · exact ih hrow

structure Faithful (hi : ℕ) (lines : List DiffLine) (rows : List SplitRow) : Prop where
  left : rows.filterMap SplitRow.left = (linesNot .added 0 lines).map (fun li => (hi, li))
  right : rows.filterMap SplitRow.right = (linesNot .removed 0 lines).map (fun li => (hi, li))
  mirrored : ∀ li line, lines[li]? = some line → line.kind = .context →
    .body (some (hi, li)) (some (hi, li)) ∈ rows
  filled : ∀ row ∈ rows, row.left ≠ none ∨ row.right ≠ none
  between : ∀ before first block last rest, lines = before ++ first :: (block ++ last :: rest) →
    first.kind = .context → last.kind = .context → (∀ line ∈ block, line.kind ≠ .context) →
    ∃ above run below, rows = above ++ .body (some (hi, before.length)) (some (hi, before.length))
        :: (run ++ .body (some (hi, before.length + 1 + block.length))
          (some (hi, before.length + 1 + block.length)) :: below) ∧
      run.length = max (block.countP (fun l => l.kind = .removed))
        (block.countP (fun l => l.kind = .added))

lemma linesRows_faithful (hi : ℕ) (lines : List DiffLine) :
    Faithful hi lines (linesRows hi 0 [] [] lines) := by
  refine ⟨left_linesRows, right_linesRows, fun li line hget hkind => ?_,
    fun row hrow => linesRows_filled hrow, ?_⟩
  · obtain ⟨hlt, rfl⟩ := List.getElem?_eq_some_iff.mp hget
    have hsplit : lines = lines.take li ++ lines[li] :: lines.drop (li + 1) := by
      rw [← List.drop_eq_getElem_cons hlt, List.take_append_drop]
    obtain ⟨above, hrows⟩ := @linesRows_context hi 0 [] [] (lines.take li) _ hkind
      (lines.drop (li + 1))
    rw [← hsplit, List.length_take_of_le hlt.le, Nat.zero_add] at hrows
    rw [hrows]
    exact List.mem_append_right _ List.mem_cons_self
  · rintro before first block last rest rfl hfirst hlast hblock
    obtain ⟨above, habove⟩ := @linesRows_context hi 0 [] [] before _ hfirst
      (block ++ last :: rest)
    obtain ⟨run, hrun, hlen⟩ := @linesRows_block hi (before.length + 1) [] [] block _ hblock
      hlast rest
    rw [Nat.zero_add, hrun] at habove
    simp only [List.length_nil, Nat.zero_add] at hlen
    exact ⟨above, run, _, habove, hlen⟩

def flatRows (hi : ℕ) : List DiffHunk → List (ℕ × Option (ℕ × DiffLine))
  | [] => []
  | hunk :: rest =>
    (hi, none) :: (hunk.lines.zipIdx.map (fun e => (hi, some (e.2, e.1))) ++ flatRows (hi + 1) rest)

variable {total : ℕ} {query : Text} {texts : List Text} {hunk : DiffHunk}

lemma startsFrom_total : (startsFrom total hunks).2 = total + (flatRows hi hunks).length := by
  induction hunks generalizing total hi with
  | nil => rfl
  | cons hunk hunks ih =>
    simp only [startsFrom, flatRows]
    rw [@ih (hi + 1) (total + (1 + hunk.lines.length))]
    simp only [List.length_cons, List.length_append, List.length_map, List.length_zipIdx]
    omega

lemma length_startsFrom : (startsFrom total hunks).1.length = hunks.length := by
  induction hunks generalizing total with
  | nil => rfl
  | cons hunk hunks ih => exact congrArg (· + 1) ih

lemma flatRows_line {line : DiffLine} (rest : List DiffHunk)
    (hline : hunk.lines[li]? = some line) :
    (flatRows hi (hunk :: rest))[li + 1]? = some (hi, some (li, line)) := by
  obtain ⟨hlt, -⟩ := List.getElem?_eq_some_iff.mp hline
  rw [flatRows, List.getElem?_cons_succ, List.getElem?_append_left]
  · rw [List.getElem?_map, List.getElem?_zipIdx, hline]
    simp
  · rw [List.length_map, List.length_zipIdx]
    exact hlt

lemma flatRows_skip (rest : List DiffHunk) (i : ℕ) :
    (flatRows hi (hunk :: rest))[1 + hunk.lines.length + i]? = (flatRows (hi + 1) rest)[i]? := by
  have hindex : 1 + hunk.lines.length + i = (hunk.lines.length + i) + 1 := by omega
  rw [flatRows, hindex, List.getElem?_cons_succ, List.getElem?_append_right]
  · simp only [List.length_map, List.length_zipIdx, Nat.add_sub_cancel_left]
  · simp only [List.length_map, List.length_zipIdx, Nat.le_add_right]

lemma startsFrom_spec {k : ℕ} (hhunk : hunks[k]? = some hunk) :
    ∃ s, (startsFrom total hunks).1[k]? = some (total + s) ∧
      (flatRows hi hunks)[s]? = some (hi + k, none) ∧
      ∀ li line, hunk.lines[li]? = some line →
        (flatRows hi hunks)[s + 1 + li]? = some (hi + k, some (li, line)) := by
  induction hunks generalizing total hi k with
  | nil => cases hhunk
  | cons next hunks ih =>
    cases k with
    | zero =>
      obtain rfl := Option.some.inj hhunk
      refine ⟨0, rfl, rfl, fun li line hline => ?_⟩
      rw [Nat.zero_add, Nat.add_comm 1 li]
      exact flatRows_line hunks hline
    | succ k =>
      obtain ⟨s, hs, hheader, hlines⟩ := @ih (hi + 1) (total + (1 + next.lines.length)) _ hhunk
      have hk : hi + (k + 1) = hi + 1 + k := by omega
      refine ⟨1 + next.lines.length + s, ?_, ?_, fun li line hline => ?_⟩
      · simp only [startsFrom, List.getElem?_cons_succ]
        rw [hs, Nat.add_assoc]
      · rw [flatRows_skip, hheader, hk]
      · have hindex : 1 + next.lines.length + s + 1 + li =
            1 + next.lines.length + (s + 1 + li) := by omega
        rw [hindex, flatRows_skip, hlines li line hline, hk]

namespace DiffPane

lemma mem_matchesIn : idx ∈ matchesIn query n texts ↔
    ∃ j l, texts[j]? = some l ∧ query <:+: l ∧ idx = n + j := by
  induction texts generalizing n with
  | nil => simp [matchesIn]
  | cons text texts ih =>
    have hsplit : (∃ j l, (text :: texts)[j]? = some l ∧ query <:+: l ∧ idx = n + j) ↔
        (query <:+: text ∧ idx = n) ∨ ∃ j l, texts[j]? = some l ∧ query <:+: l ∧ idx = n + 1 + j := by
      constructor
      · rintro ⟨j, l, hget, hinside, rfl⟩
        cases j with
        | zero =>
          obtain rfl := Option.some.inj hget
          exact .inl ⟨hinside, rfl⟩
        | succ j => exact .inr ⟨j, l, hget, hinside, by omega⟩
      · rintro (⟨hinside, rfl⟩ | ⟨j, l, hget, hinside, rfl⟩)
        · exact ⟨0, text, rfl, hinside, rfl⟩
        · exact ⟨j + 1, l, hget, hinside, by omega⟩
    rw [hsplit, matchesIn, ← ih]
    split
    · rename_i hinside
      simp [hinside]
    · rename_i hinside
      simp [hinside]

lemma matchesIn_sorted : (matchesIn query n texts).Pairwise (· < ·) := by
  induction texts generalizing n with
  | nil => exact List.Pairwise.nil
  | cons text texts ih =>
    rw [matchesIn]
    split
    · refine List.pairwise_cons.mpr ⟨fun idx hidx => ?_, ih⟩
      obtain ⟨j, l, -, -, rfl⟩ := mem_matchesIn.mp hidx
      omega
    · exact ih

lemma mem_matchesFrom (lower : Text → Text) :
    idx ∈ matchesFrom query n (hunks.map (fun hunk => hunk.lines.map (fun l => lower l.content))) ↔
      n ≤ idx ∧ ∃ k li line, (flatRows hi hunks)[idx - n]? = some (k, some (li, line)) ∧
        query <:+: lower line.content := by
  induction hunks generalizing n hi with
  | nil => simp [matchesFrom, flatRows]
  | cons hunk hunks ih =>
    rw [List.map_cons, matchesFrom, List.mem_append, mem_matchesIn, @ih (hi + 1),
      List.length_map]
    constructor
    · rintro (⟨j, l, hget, hinside, rfl⟩ | ⟨hle, k, li, line, hget, hinside⟩)
      · rw [List.getElem?_map] at hget
        obtain ⟨line, hline, rfl⟩ := Option.map_eq_some_iff.mp hget
        refine ⟨by omega, hi, j, line, ?_, hinside⟩
        have hindex : n + 1 + j - n = j + 1 := by omega
        rw [hindex]
        exact flatRows_line hunks hline
      · refine ⟨by omega, k, li, line, ?_, hinside⟩
        have hindex : idx - n = 1 + hunk.lines.length + (idx - (n + 1 + hunk.lines.length)) := by
          omega
        rw [hindex, flatRows_skip]
        exact hget
    · rintro ⟨hle, k, li, line, hget, hinside⟩
      obtain ⟨i, rfl⟩ := Nat.exists_eq_add_of_le hle
      rw [Nat.add_sub_cancel_left] at hget
      rcases Nat.lt_or_ge i (1 + hunk.lines.length) with hlt | hge
      · left
        cases i with
        | zero => cases hget
        | succ i =>
          have hbound : i < hunk.lines.length := by omega
          have hline := @flatRows_line hi i hunk _ hunks (List.getElem?_eq_getElem hbound)
          rw [hline] at hget
          simp only [Option.some.injEq, Prod.mk.injEq] at hget
          obtain ⟨-, rfl, rfl⟩ := hget
          refine ⟨i, _, ?_, hinside, by omega⟩
          rw [List.getElem?_map, List.getElem?_eq_getElem hbound]
          rfl
      · right
        obtain ⟨j, rfl⟩ := Nat.exists_eq_add_of_le hge
        rw [flatRows_skip] at hget
        refine ⟨by omega, k, li, line, ?_, hinside⟩
        have hindex : n + (1 + hunk.lines.length + j) - (n + 1 + hunk.lines.length) = j := by omega
        rw [hindex]
        exact hget

lemma matchesFrom_sorted {copies : List (List Text)} :
    (matchesFrom query n copies).Pairwise (· < ·) ∧ ∀ idx ∈ matchesFrom query n copies, n < idx := by
  induction copies generalizing n with
  | nil => exact ⟨List.Pairwise.nil, fun _ h => (by cases h)⟩
  | cons texts copies ih =>
    rw [matchesFrom]
    obtain ⟨hsorted, habove⟩ := ih (n := n + 1 + texts.length)
    refine ⟨List.pairwise_append.mpr ⟨matchesIn_sorted, hsorted, fun a ha b hb => ?_⟩,
      fun idx hidx => ?_⟩
    · obtain ⟨j, l, hget, -, rfl⟩ := mem_matchesIn.mp ha
      obtain ⟨hj, -⟩ := List.getElem?_eq_some_iff.mp hget
      have := habove b hb
      omega
    · rcases List.mem_append.mp hidx with hidx | hidx
      · obtain ⟨j, l, -, -, rfl⟩ := mem_matchesIn.mp hidx
        omega
      · have := habove idx hidx
        omega

variable {Syntax State Segment : Type*} [DecidableEq Syntax]
  {h : Highlighter Syntax State Segment} {p q : DiffPane Syntax State Segment}
  {lower : Text → Text}

structure Indexed (lower : Text → Text) (p : DiffPane Syntax State Segment) : Prop where
  splitRows : p.splitRows = (splitHunks 0 p.hunks {}).rows
  hunkStarts : p.hunkStarts = (startsFrom 0 p.hunks).1
  totalLines : p.totalLines = (startsFrom 0 p.hunks).2
  lowered : p.Lowered lower

omit [DecidableEq Syntax] in
lemma Indexed.untouched (hp : p.Indexed lower) (hu : Untouched lower p q) : q.Indexed lower := by
  have hindexes := hu.indexes
  simp only [Prod.mk.injEq] at hindexes
  obtain ⟨hrows, hstarts, htotal, -⟩ := hindexes
  refine ⟨?_, ?_, ?_, hu.lowered hp.lowered⟩
  · rw [hrows, hu.hunks]
    exact hp.splitRows
  · rw [hstarts, hu.hunks]
    exact hp.hunkStarts
  · rw [htotal, hu.hunks]
    exact hp.totalLines

lemma ensureHighlightCache_indexed (hp : p.Indexed lower)
    (hq : p.ensureHighlightCache h = some q) : q.Indexed lower := by
  rw [ensureHighlightCache] at hq
  split at hq
  · exact Option.some.inj hq ▸ hp
  · dsimp only at hq
    split at hq
    · cases hq
    · split at hq
      · split at hq
        · split at hq
          · cases hq
          · exact Option.some.inj hq ▸ ⟨hp.splitRows, hp.hunkStarts, hp.totalLines, hp.lowered⟩
        · cases hq
      · exact Option.some.inj hq ▸ ⟨hp.splitRows, hp.hunkStarts, hp.totalLines, hp.lowered⟩

lemma step_indexed {action : Action Syntax} (hp : p.Indexed lower)
    (hq : p.step h lower action = some q) : q.Indexed lower := by
  cases hloads : action.loads with
  | false =>
    obtain ⟨q', hq', hu⟩ := step_untouched (p := p) (h := h) lower hloads
    obtain rfl := Option.some.inj (hq'.symm.trans hq)
    exact hp.untouched hu
  | true =>
    cases action with
    | setHunks hunks =>
      obtain rfl := Option.some.inj hq
      exact ⟨rfl, rfl, rfl, fun hnone => (by cases hnone)⟩
    | ensureHighlightCache => exact ensureHighlightCache_indexed hp hq
    | setContent content =>
      obtain ⟨g, -, rfl⟩ := Option.map_eq_some_iff.mp hq
      exact ⟨hp.splitRows, hp.hunkStarts, hp.totalLines, hp.lowered⟩
    | ensureFileHighlightCache syntaxName =>
      obtain rfl := Option.some.inj hq
      exact ⟨hp.splitRows, hp.hunkStarts, hp.totalLines, hp.lowered⟩
    | _ => cases hloads

omit [DecidableEq Syntax] in
lemma found_recomputeMatches (hview : p.view ≠ .file) (hquery : p.search.query.raw ≠ [])
    (scrollToMatch : Bool) : (p.recomputeMatches lower scrollToMatch).search.found =
      matchesFrom p.search.query.lower 0 (p.ensureLowerCache lower).hunksLinesLower := by
  have hfind : (p.findMatches lower).search.found =
      matchesFrom p.search.query.lower 0 (p.ensureLowerCache lower).hunksLinesLower := by
    rw [findMatches, if_neg hview]
    rw [ensureLowerCache]
    split <;> rfl
  have hscroll : ∀ (p : DiffPane Syntax State Segment) (idx : ℕ),
      (p.scrollTo idx).search = p.search := by
    intro p idx
    rw [scrollTo]
    split <;> rfl
  rw [recomputeMatches, if_neg hquery]
  dsimp only
  split
  · exact hfind
  · split
    · split
      · rw [hscroll]
        exact hfind
      · exact hfind
    · exact hfind

theorem layout_is_faithful (h : Highlighter Syntax State Segment) (lower : Text → Text)
    (actions : List (Action Syntax)) :
    ∃ p, run (step h lower) ({} : DiffPane Syntax State Segment) actions = some p ∧
      p.hunks = (loaded actions).1 ∧
      (∃ rows : ℕ → List SplitRow,
        p.splitRows = (List.range p.hunks.length).flatMap (fun hi => .header hi :: rows hi) ∧
        ∀ hi hunk, p.hunks[hi]? = some hunk → Faithful hi hunk.lines (rows hi)) ∧
      p.totalLines = (flatRows 0 p.hunks).length ∧
      p.hunkStarts.length = p.hunks.length ∧
      (∀ hi hunk, p.hunks[hi]? = some hunk → ∃ s, p.hunkStarts[hi]? = some s ∧
        (flatRows 0 p.hunks)[s]? = some (hi, none) ∧
        ∀ li line, hunk.lines[li]? = some line →
          (flatRows 0 p.hunks)[s + 1 + li]? = some (hi, some (li, line))) ∧
      (p.view ≠ .file → p.search.query.raw ≠ [] → ∀ scrollToMatch,
        (p.recomputeMatches lower scrollToMatch).search.found.Pairwise (· < ·) ∧
        ∀ idx, idx ∈ (p.recomputeMatches lower scrollToMatch).search.found ↔
          ∃ hi li line, (flatRows 0 p.hunks)[idx]? = some (hi, some (li, line)) ∧
            p.search.query.lower <:+: lower line.content) := by
  obtain ⟨p, hrun, -⟩ := run_total (fun _ action hp => step_kept lower hp action) actions
    (new_kept h)
  have hp : p.Indexed lower :=
    run_invariant (fun _ _ _ hp hs => step_indexed hp hs)
      ⟨rfl, rfl, rfl, fun hnone => (by cases hnone)⟩ hrun
  refine ⟨p, hrun, congrArg Prod.fst (run_loaded hrun), ?_, ?_, ?_, fun hi hunk hhunk => ?_,
    fun hview hquery scrollToMatch => ?_⟩
  · refine ⟨fun hi => linesRows hi 0 [] [] ((p.hunks[hi]?.map DiffHunk.lines).getD []), ?_, ?_⟩
    · rw [hp.splitRows, splitHunks_rows _ ⟨rfl, rfl⟩]
      refine (List.nil_append _).trans (flatMap_zipIdx (fun i hunk hhunk => ?_))
      simp only [hhunk, Option.map_some, Option.getD_some]
    · intro hi hunk hhunk
      simp only [hhunk, Option.map_some, Option.getD_some]
      exact linesRows_faithful hi hunk.lines
  · rw [hp.totalLines, @startsFrom_total 0 _ _, Nat.zero_add]
  · rw [hp.hunkStarts, length_startsFrom]
  · obtain ⟨s, hs, hheader, hlines⟩ := @startsFrom_spec 0 _ 0 _ _ hhunk
    simp only [Nat.zero_add] at hs hheader hlines
    rw [hp.hunkStarts]
    exact ⟨s, hs, hheader, hlines⟩
  · have hcopy : (p.ensureLowerCache lower).hunksLinesLower =
        p.hunks.map (fun hunk => hunk.lines.map (fun l => lower l.content)) := by
      rw [ensureLowerCache]
      split
      · rfl
      · rename_i hcurrent
        exact hp.lowered (not_not.mp hcurrent)
    rw [found_recomputeMatches hview hquery, hcopy]
    refine ⟨matchesFrom_sorted.1, fun idx => ?_⟩
    rw [@mem_matchesFrom 0 _ _ _ _ lower]
    simp only [Nat.zero_le, true_and, Nat.sub_zero]

end DiffPane

end Nightcrow.Ui
