import Nightcrow.Ui.DiffPane

/-! The highlight cache of the diff pane holds what a pass from the start would give. -/

namespace Nightcrow.Ui.DiffPane

open Nightcrow.Library

variable {Syntax State Segment : Type*} [DecidableEq Syntax]
  {h : Highlighter Syntax State Segment} {p q : DiffPane Syntax State Segment}
  {pair c : PairCheckpoint Syntax State} {start : Option (PairCheckpoint Syntax State)}
  {hunk : DiffHunk} {hunks : List DiffHunk} {r n idx : ℕ}

def syntaxOf (h : Highlighter Syntax State Segment) (hunk : DiffHunk) : Syntax :=
  h.resolveSyntaxExtension (hunk.filePath.map h.pathExtension)

def pass (h : Highlighter Syntax State Segment) : List DiffHunk → ℕ →
    Option (PairCheckpoint Syntax State) →
      List (List (List Segment) × PairCheckpoint Syntax State)
  | [], _, _ => []
  | hunk :: rest, remaining, start =>
    if remaining = 0 then []
    else
      let done := highlightSides h (pairFor h start (syntaxOf h hunk))
        (hunk.lines.take (min hunk.lines.length remaining))
      done :: pass h rest (remaining - min hunk.lines.length remaining) (some done.2)

def after (start : Option (PairCheckpoint Syntax State)) :
    List (List (List Segment) × PairCheckpoint Syntax State) →
      Option (PairCheckpoint Syntax State)
  | [] => start
  | (_, c) :: rest => after (some c) rest

def used (done : List (List (List Segment) × PairCheckpoint Syntax State)) : ℕ :=
  (done.map (fun e => e.1.length)).sum

omit [DecidableEq Syntax] in
@[simp] lemma length_highlightSides (pair : PairCheckpoint Syntax State) (ls : List DiffLine) :
    (highlightSides h pair ls).1.length = ls.length := by
  induction ls generalizing pair with
  | nil => rfl
  | cons line ls ih =>
    rw [highlightSides]
    split
    · simp only [List.length_cons, ih]
    · simp only [List.length_cons, ih]

omit [DecidableEq Syntax] in
@[simp] lemma syntaxName_highlightSides (pair : PairCheckpoint Syntax State)
    (ls : List DiffLine) : (highlightSides h pair ls).2.syntaxName = pair.syntaxName := by
  induction ls generalizing pair with
  | nil => rfl
  | cons line ls ih =>
    rw [highlightSides]
    split
    · exact ih _
    · exact ih _

omit [DecidableEq Syntax] in
lemma highlightSides_append (pair : PairCheckpoint Syntax State) (a b : List DiffLine) :
    highlightSides h pair (a ++ b) =
      ((highlightSides h pair a).1 ++ (highlightSides h (highlightSides h pair a).2 b).1,
        (highlightSides h (highlightSides h pair a).2 b).2) := by
  induction a generalizing pair with
  | nil => rfl
  | cons line a ih =>
    simp only [List.cons_append, highlightSides]
    split
    · rw [ih]
      rfl
    · rw [ih]
      rfl

omit [DecidableEq Syntax] in
lemma highlightSides_congr (pair : PairCheckpoint Syntax State) :
    ∀ (a b : List DiffLine), a.length = b.length →
      ((a.zip b).all fun (line, old) => sameLine line old) = true →
      highlightSides h pair a = highlightSides h pair b := by
  intro a b hlen hsame
  induction a generalizing b pair with
  | nil =>
    obtain rfl := List.length_eq_zero_iff.mp hlen.symm
    rfl
  | cons line a ih =>
    cases b with
    | nil => cases hlen
    | cons old b =>
      rw [List.zip_cons_cons, List.all_cons, Bool.and_eq_true_iff] at hsame
      obtain ⟨hsameLine, hrest⟩ := hsame
      have hline : line.content = old.content ∧ (line.kind = .removed ↔ old.kind = .removed) :=
        (Bool.and_eq_true_iff.mp hsameLine).imp of_decide_eq_true of_decide_eq_true
      obtain ⟨hcontent, hside⟩ := hline
      have hlen : a.length = b.length := Nat.succ.inj hlen
      have hrec : ∀ pair, highlightSides h pair a = highlightSides h pair b :=
        fun pair => ih pair b hlen hrest
      by_cases hr : line.kind = .removed
      · simp only [highlightSides, if_pos hr, if_pos (hside.mp hr), hcontent, hrec]
      · have ho : ¬ old.kind = .removed := fun ho => hr (hside.mpr ho)
        simp only [highlightSides, if_neg hr, if_neg ho, hcontent, hrec]

@[simp] lemma syntaxName_pairFor (start : Option (PairCheckpoint Syntax State)) (name : Syntax) :
    (pairFor h start name).syntaxName = name := by
  cases start with
  | none => rfl
  | some c =>
    rw [pairFor]
    split
    · assumption
    · rfl

lemma pass_take (hunks : List DiffHunk) (r : ℕ) (start : Option (PairCheckpoint Syntax State)) :
    pass h (hunks.take (pass h hunks r start).length) r start = pass h hunks r start := by
  induction hunks generalizing r start with
  | nil => rfl
  | cons hunk hunks ih =>
    rw [pass]
    split
    · rfl
    · rename_i hr
      dsimp only
      rw [List.length_cons, List.take_succ_cons, pass, if_neg hr]
      dsimp only
      rw [ih]

lemma pass_congr {start start' : Option (PairCheckpoint Syntax State)}
    (hsame : ∀ hunk rest, hunks = hunk :: rest → 0 < r →
      pairFor h start (syntaxOf h hunk) = pairFor h start' (syntaxOf h hunk)) :
    pass h hunks r start = pass h hunks r start' := by
  cases hunks with
  | nil => rfl
  | cons hunk rest =>
    rw [pass, pass]
    split
    · rfl
    · rename_i hr
      rw [hsame hunk rest rfl (Nat.pos_of_ne_zero hr)]

omit [DecidableEq Syntax] in
lemma after_eq (done : List (List (List Segment) × PairCheckpoint Syntax State))
    (hne : done ≠ []) : after start done = (done.map Prod.snd).getLast? := by
  induction done generalizing start with
  | nil => exact absurd rfl hne
  | cons e done ih =>
    rw [after]
    cases done with
    | nil => rfl
    | cons e' done =>
      rw [ih (List.cons_ne_nil _ _)]
      rfl

omit [DecidableEq Syntax] in
lemma syntaxAt_of_drop
    (hshape : p.syntaxShape = p.hunks.map (fun hunk => hunk.filePath.map h.pathExtension))
    {rest : List DiffHunk} (hdrop : p.hunks.drop idx = hunk :: rest) :
    p.syntaxAt h idx = syntaxOf h hunk := by
  have hget : p.hunks[idx]? = some hunk := by
    rw [← List.head?_drop, hdrop]
    rfl
  rw [syntaxAt, hshape, List.getElem?_map, hget]
  rfl

omit [DecidableEq Syntax] in
lemma drop_succ_of_drop {rest : List DiffHunk} (hdrop : p.hunks.drop idx = hunk :: rest) :
    p.hunks.drop (idx + 1) = rest := by
  rw [← List.drop_drop, hdrop]
  rfl

lemma highlightFrom_eq
    (hshape : p.syntaxShape = p.hunks.map (fun hunk => hunk.filePath.map h.pathExtension))
    (hdrop : p.hunks.drop idx = hunks) :
    p.highlightFrom h idx hunks r start =
      ((pass h hunks r start).map Prod.fst, (pass h hunks r start).map Prod.snd) := by
  induction hunks generalizing idx r start with
  | nil => rfl
  | cons hunk rest ih =>
    rw [highlightFrom, pass]
    split
    · rfl
    · dsimp only
      rw [syntaxAt_of_drop hshape hdrop, ih (drop_succ_of_drop hdrop)]
      rfl

structure Reuse (h : Highlighter Syntax State Segment) (hunks : List DiffHunk)
    (done : List (List (List Segment) × PairCheckpoint Syntax State)) (r : ℕ)
    (start : Option (PairCheckpoint Syntax State)) (n : ℕ) (partialLines : Option ℕ) : Prop where
  inHunks : n ≤ hunks.length
  inDone : n ≤ done.length
  same : pass h hunks r start =
    done.take n ++ pass h (hunks.drop n) (r - used (done.take n)) (after start (done.take n))
  grown : ∀ shared, partialLines = some shared → ∃ hunk rest entry c,
    hunks.drop n = hunk :: rest ∧ done[n]? = some (entry, c) ∧ shared = entry.length ∧
      shared < hunk.lines.length ∧ 0 < r - used (done.take n) ∧
      shared ≤ r - used (done.take n) ∧
      highlightSides h (pairFor h (after start (done.take n)) (syntaxOf h hunk))
        (hunk.lines.take shared) = (entry, c)

lemma Reuse.none (h : Highlighter Syntax State Segment) (hunks : List DiffHunk)
    (done : List (List (List Segment) × PairCheckpoint Syntax State)) (r : ℕ)
    (start : Option (PairCheckpoint Syntax State)) : Reuse h hunks done r start 0 Option.none :=
  ⟨Nat.zero_le _, Nat.zero_le _, rfl, fun _ hs => (by cases hs)⟩

lemma Reuse.whole {done : List (List (List Segment) × PairCheckpoint Syntax State)}
    {entry : List (List Segment)} {partialLines : Option ℕ} (hr : r ≠ 0)
    (hentry : highlightSides h (pairFor h start (syntaxOf h hunk)) hunk.lines = (entry, c))
    (hlen : entry.length ≤ r)
    (hrest : Reuse h hunks done (r - entry.length) (some c) n partialLines) :
    Reuse h (hunk :: hunks) ((entry, c) :: done) r start (n + 1) partialLines := by
  have hlines : hunk.lines.length = entry.length := by
    rw [← length_highlightSides (pairFor h start (syntaxOf h hunk)) hunk.lines, hentry]
  have hused : r - used ((entry, c) :: done.take n) = r - entry.length - used (done.take n) := by
    simp only [used, List.map_cons, List.sum_cons]
    omega
  refine ⟨Nat.succ_le_succ hrest.inHunks, Nat.succ_le_succ hrest.inDone, ?_, ?_⟩
  · rw [pass, if_neg hr]
    dsimp only
    rw [min_eq_left (hlines.le.trans hlen), List.take_length, hentry, hlines, hrest.same,
      List.take_succ_cons, List.drop_succ_cons, hused]
    rfl
  · intro shared hs
    obtain ⟨hunk', rest, entry', c', hdrop, hget, hshared⟩ := hrest.grown shared hs
    rw [List.take_succ_cons, hused]
    exact ⟨hunk', rest, entry', c', hdrop, hget, hshared⟩

lemma reusableFrom_spec
    (hshape : p.syntaxShape = p.hunks.map (fun hunk => hunk.filePath.map h.pathExtension))
    (hunks olds : List DiffHunk) (hdrop : p.hunks.drop idx = hunks) :
    ∃ n, (p.reusableFrom h idx hunks olds ((pass h olds r start).map Prod.fst)
        ((pass h olds r start).map Prod.snd)).wholeHunks = idx + n ∧
      Reuse h hunks (pass h olds r start) r start n
        (p.reusableFrom h idx hunks olds ((pass h olds r start).map Prod.fst)
          ((pass h olds r start).map Prod.snd)).partialLines := by
  induction hunks generalizing olds idx r start with
  | nil => exact ⟨0, rfl, Reuse.none _ _ _ _ _⟩
  | cons hunk hunks ih =>
    cases olds with
    | nil => exact ⟨0, rfl, Reuse.none _ _ _ _ _⟩
    | cons old olds =>
      rw [pass]
      split
      · exact ⟨0, rfl, Reuse.none _ _ _ _ _⟩
      · rename_i hr
        dsimp only
        obtain ⟨⟨entry, c⟩, hdone⟩ : ∃ e, highlightSides h (pairFor h start (syntaxOf h old))
          (old.lines.take (min old.lines.length r)) = e := ⟨_, rfl⟩
        have hentry : entry.length = min old.lines.length r := by
          have hlen := length_highlightSides (h := h) (pairFor h start (syntaxOf h old))
            (old.lines.take (min old.lines.length r))
          rw [hdone, List.length_take_of_le (min_le_left _ _)] at hlen
          exact hlen
        have hname : c.syntaxName = syntaxOf h old := by
          have hname := syntaxName_highlightSides (h := h) (pairFor h start (syntaxOf h old))
            (old.lines.take (min old.lines.length r))
          rwa [hdone, syntaxName_pairFor] at hname
        rw [hdone, List.map_cons, List.map_cons, reusableFrom, syntaxAt_of_drop hshape hdrop]
        split
        · exact ⟨0, rfl, Reuse.none _ _ _ _ _⟩
        · rename_i hsyntax
          have hold : syntaxOf h hunk = syntaxOf h old := (not_not.mp hsyntax).symm.trans hname
          split
          · exact ⟨0, rfl, Reuse.none _ _ _ _ _⟩
          · rename_i hlines
            rw [Bool.not_eq_true', Bool.not_eq_false] at hlines
            have hagree : entry.length ≤ hunk.lines.length →
                highlightSides h (pairFor h start (syntaxOf h hunk))
                  (hunk.lines.take entry.length) = (entry, c) := by
              intro hle
              rw [min_eq_left hle] at hlines
              rw [hold, ← hdone, ← hentry]
              refine highlightSides_congr _ _ _ ?_ hlines
              rw [List.length_take_of_le hle, List.length_take_of_le]
              rw [hentry]
              exact min_le_left _ _
            split
            · rename_i hwhole
              have hall := hagree hwhole.le
              rw [hwhole, List.take_length] at hall
              have hle : entry.length ≤ r := hentry.le.trans (min_le_right _ _)
              obtain ⟨n, hn, hrest⟩ := @ih (some c) (r - entry.length) _ olds
                (drop_succ_of_drop hdrop)
              rw [← hentry]
              refine ⟨n + 1, ?_, Reuse.whole hr hall hle hrest⟩
              rw [hn]
              omega
            · split
              · rename_i hgrown
                refine ⟨0, rfl, Nat.zero_le _, Nat.zero_le _, rfl, fun shared hs => ?_⟩
                obtain rfl := Option.some.inj hs
                exact ⟨hunk, hunks, entry, c, rfl, rfl, rfl, hgrown, Nat.pos_of_ne_zero hr,
                  hentry.le.trans (min_le_right _ _), hagree hgrown.le⟩
              · exact ⟨0, rfl, Reuse.none _ _ _ _ _⟩

structure Kept (h : Highlighter Syntax State Segment) (p : DiffPane Syntax State Segment) :
    Prop where
  shape : p.syntaxShape = p.hunks.map (fun hunk => hunk.filePath.map h.pathExtension)
  previousHighlights : p.previousHighlights =
    (pass h p.previousHunks highlightLineCap none).map Prod.fst
  previousCheckpoints : p.previousCheckpoints =
    (pass h p.previousHunks highlightLineCap none).map Prod.snd
  current : (p.highlightCacheGeneration = none ∧ p.lineHighlights = [] ∧
      p.highlightCheckpoints = []) ∨
    p.lineHighlights = (pass h p.hunks highlightLineCap none).map Prod.fst ∧
      p.highlightCheckpoints = (pass h p.hunks highlightLineCap none).map Prod.snd
  file : p.fileView.Built h

lemma setHunks_kept (hp : p.Kept h) (hunks : List DiffHunk) : (p.setHunks h hunks).Kept h := by
  have hprevious : ∀ hunks : List DiffHunk, hunks ≠ [] →
      (p.setHunks h hunks).previousHighlights =
        (pass h (p.setHunks h hunks).previousHunks highlightLineCap none).map Prod.fst ∧
      (p.setHunks h hunks).previousCheckpoints =
        (pass h (p.setHunks h hunks).previousHunks highlightLineCap none).map Prod.snd := by
    intro hunks hne
    simp only [setHunks, if_neg hne]
    rcases hp.current with ⟨-, hlines, hcheckpoints⟩ | ⟨hlines, hcheckpoints⟩
    · rw [hlines, hcheckpoints]
      exact ⟨rfl, rfl⟩
    · rw [hlines, hcheckpoints, List.length_map, pass_take]
      exact ⟨rfl, rfl⟩
  by_cases hne : hunks = []
  · subst hne
    exact ⟨rfl, rfl, rfl, .inl ⟨rfl, rfl, rfl⟩, hp.file⟩
  · exact ⟨rfl, (hprevious hunks hne).1, (hprevious hunks hne).2, .inl ⟨rfl, rfl, rfl⟩, hp.file⟩

lemma finishPass_kept (hp : p.Kept h)
    {done : List (List (List Segment) × PairCheckpoint Syntax State)} {first remaining : ℕ}
    (hall : done ++ pass h (p.hunks.drop first) remaining start =
      pass h p.hunks highlightLineCap none) :
    (p.finishPass h (done.map Prod.fst) (done.map Prod.snd) first remaining start).Kept h ∧
      (p.finishPass h (done.map Prod.fst) (done.map Prod.snd) first remaining
        start).lineHighlights = (pass h p.hunks highlightLineCap none).map Prod.fst := by
  have hfrom := @highlightFrom_eq _ _ _ _ h p start _ remaining first hp.shape
    (rfl : p.hunks.drop first = p.hunks.drop first)
  have hlines : (p.finishPass h (done.map Prod.fst) (done.map Prod.snd) first remaining
      start).lineHighlights = (pass h p.hunks highlightLineCap none).map Prod.fst := by
    simp only [finishPass, hfrom]
    rw [← List.map_append, hall]
  have hcheckpoints : (p.finishPass h (done.map Prod.fst) (done.map Prod.snd) first remaining
      start).highlightCheckpoints = (pass h p.hunks highlightLineCap none).map Prod.snd := by
    simp only [finishPass, hfrom]
    rw [← List.map_append, hall]
  exact ⟨⟨hp.shape, rfl, rfl, .inr ⟨hlines, hcheckpoints⟩, hp.file⟩, hlines⟩

lemma pass_grown {entry : List (List Segment)} {rest : List DiffHunk} (hr : 0 < r)
    (hle : entry.length ≤ r) (hgrown : entry.length < hunk.lines.length)
    (hentry : highlightSides h (pairFor h start (syntaxOf h hunk))
      (hunk.lines.take entry.length) = (entry, c)) :
    pass h (hunk :: rest) r start =
      let added := highlightSides h c ((hunk.lines.drop entry.length).take
        (min (hunk.lines.length - entry.length) (r - entry.length)))
      (entry ++ added.1, { added.2 with syntaxName := syntaxOf h hunk }) ::
        pass h rest (r - entry.length - min (hunk.lines.length - entry.length) (r - entry.length))
          (some { added.2 with syntaxName := syntaxOf h hunk }) := by
  have hsplit : hunk.lines.take (min hunk.lines.length r) = hunk.lines.take entry.length ++
      (hunk.lines.drop entry.length).take
        (min (hunk.lines.length - entry.length) (r - entry.length)) := by
    have hmin : min hunk.lines.length r = entry.length +
        min (hunk.lines.length - entry.length) (r - entry.length) := by omega
    rw [hmin, List.take_add]
  have hname : c.syntaxName = syntaxOf h hunk := by
    have hname := syntaxName_highlightSides (h := h) (pairFor h start (syntaxOf h hunk))
      (hunk.lines.take entry.length)
    rwa [hentry, syntaxName_pairFor] at hname
  have hdone : highlightSides h (pairFor h start (syntaxOf h hunk))
      (hunk.lines.take (min hunk.lines.length r)) = (entry ++ (highlightSides h c
        ((hunk.lines.drop entry.length).take
          (min (hunk.lines.length - entry.length) (r - entry.length)))).1,
      { (highlightSides h c ((hunk.lines.drop entry.length).take
          (min (hunk.lines.length - entry.length) (r - entry.length)))).2 with
        syntaxName := syntaxOf h hunk }) := by
    rw [hsplit, highlightSides_append, hentry]
    refine Prod.ext rfl ?_
    have hkeeps := syntaxName_highlightSides (h := h) c ((hunk.lines.drop entry.length).take
      (min (hunk.lines.length - entry.length) (r - entry.length)))
    rw [hname] at hkeeps
    rw [← hkeeps]
  have hleft : r - min hunk.lines.length r = r - entry.length -
      min (hunk.lines.length - entry.length) (r - entry.length) := by omega
  rw [pass, if_neg hr.ne']
  dsimp only
  rw [hdone, hleft]

lemma pairFor_filter (start : Option (PairCheckpoint Syntax State)) (name : Syntax) :
    pairFor h (start.filter (fun c => c.syntaxName = name)) name = pairFor h start name := by
  cases start with
  | none => rfl
  | some c =>
    by_cases hc : c.syntaxName = name
    · rw [Option.filter_some, if_pos (decide_eq_true hc)]
    · rw [Option.filter_some, if_neg (by simpa using hc)]
      simp only [pairFor, if_neg hc]

/-- The cache after the pass is the one a pass from the start gives, and no index on the way is
out of bounds. -/
lemma ensureHighlightCache_kept (hp : p.Kept h) :
    ∃ q, p.ensureHighlightCache h = some q ∧ q.Kept h ∧
      q.lineHighlights = (pass h p.hunks highlightLineCap none).map Prod.fst := by
  rw [ensureHighlightCache]
  split
  · rename_i hdone
    rcases hp.current with ⟨hnone, -, -⟩ | ⟨hlines, -⟩
    · rw [hnone] at hdone
      cases hdone
    · exact ⟨p, rfl, hp, hlines⟩
  · obtain ⟨n, hn, hreuse⟩ := @reusableFrom_spec _ _ _ _ h p none highlightLineCap 0
      hp.shape p.hunks p.previousHunks rfl
    rw [Nat.zero_add] at hn
    obtain ⟨done, hdone⟩ : ∃ done, pass h p.previousHunks highlightLineCap none = done := ⟨_, rfl⟩
    have hhighlights := hp.previousHighlights
    have hcheckpoints := hp.previousCheckpoints
    rw [hdone] at hn hreuse hhighlights hcheckpoints
    simp only [reusablePrefix, hhighlights, hcheckpoints]
    obtain ⟨reused, hreused⟩ : ∃ reused, p.reusableFrom h 0 p.hunks p.previousHunks
      (done.map Prod.fst) (done.map Prod.snd) = reused := ⟨_, rfl⟩
    rw [hreused] at hn hreuse ⊢
    have hle := hreuse.inDone
    have hbounds : ¬ ((done.map Prod.fst).length < n ∨ (done.map Prod.snd).length < n) := by
      simp only [List.length_map]
      omega
    have husedmap : (((done.map Prod.fst).take n).map List.length).sum = used (done.take n) := by
      rw [used, ← List.map_take, List.map_map]
      rfl
    rw [hn, if_neg hbounds, husedmap]
    cases hshared : reused.partialLines with
    | some shared =>
      obtain ⟨hunk, rest, entry, c, hdrop, hget, rfl, hgrown, hpos, hfits, hentry⟩ :=
        hreuse.grown shared hshared
      have hhunk : p.hunks[n]? = some hunk := by
        rw [← List.head?_drop, hdrop]
        rfl
      have hafter : p.hunks.drop (n + 1) = rest := drop_succ_of_drop hdrop
      simp only [hhunk, List.getElem?_map, hget, Option.map_some]
      rw [if_neg (by omega)]
      have hsame := hreuse.same
      rw [hdrop, pass_grown hpos hfits hgrown hentry, ← hafter] at hsame
      rw [syntaxAt_of_drop hp.shape hdrop]
      have hfinish := @finishPass_kept _ _ _ _ h p _ hp (done.take n ++ [_]) _ _
        (by rw [List.append_assoc]; exact hsame.symm)
      refine ⟨_, rfl, ?_⟩
      rw [List.map_append, List.map_append, List.map_take, List.map_take] at hfinish
      exact hfinish
    | none =>
      dsimp only
      refine ⟨_, rfl, ?_⟩
      have hstart : pass h (p.hunks.drop n) (highlightLineCap - used (done.take n))
          (if 0 < highlightLineCap - used (done.take n) ∧ n < p.hunks.length ∧ 0 < n then
            (((done.map Prod.snd).take n).getLast?).filter
              (fun c => c.syntaxName = p.syntaxAt h n)
          else none) =
          pass h (p.hunks.drop n) (highlightLineCap - used (done.take n))
            (after none (done.take n)) := by
        apply pass_congr
        intro hunk rest hdrop hpos
        have hlt : n < p.hunks.length := by
          by_contra hge
          rw [List.drop_eq_nil_of_le (not_lt.mp hge)] at hdrop
          cases hdrop
        rw [syntaxAt_of_drop hp.shape hdrop]
        by_cases hzero : n = 0
        · subst hzero
          rw [if_neg (fun h => absurd h.2.2 (lt_irrefl 0))]
          rfl
        · have hne : done.take n ≠ [] := by
            intro hnil
            have hlen := congrArg List.length hnil
            rw [List.length_take_of_le hle] at hlen
            exact hzero hlen
          rw [if_pos ⟨hpos, hlt, Nat.pos_of_ne_zero hzero⟩, pairFor_filter, after_eq _ hne,
            List.map_take]
      have hall := hreuse.same.symm
      rw [← hstart] at hall
      have hfinish := finishPass_kept hp hall
      rw [List.map_take, List.map_take] at hfinish
      exact hfinish

inductive Action (Syntax : Type*) where
  | setHunks (hunks : List DiffHunk)
  | ensureHighlightCache
  | setContent (content : Text)
  | ensureFileHighlightCache (syntaxName : Syntax)
  | ensureLowerCache
  | recomputeMatches (scrollToMatch : Bool)
  | searchPush (ch : Text)
  | searchPop
  | startSearch
  | cancelSearch
  | confirmSearch
  | nextMatch
  | prevMatch
  | setView (view : DiffPaneView)

def step (h : Highlighter Syntax State Segment) (lower : Text → Text)
    (p : DiffPane Syntax State Segment) : Action Syntax → Option (DiffPane Syntax State Segment)
  | .setHunks hunks => some (p.setHunks h hunks)
  | .ensureHighlightCache => p.ensureHighlightCache h
  | .setContent content =>
    (p.fileView.setContent content).map (fun fileView => { p with fileView })
  | .ensureFileHighlightCache syntaxName =>
    some { p with fileView := p.fileView.ensureHighlightCache h syntaxName }
  | .ensureLowerCache => some (p.ensureLowerCache lower)
  | .recomputeMatches scrollToMatch => some (p.recomputeMatches lower scrollToMatch)
  | .searchPush ch => some (p.searchPush lower ch)
  | .searchPop => some (p.searchPop lower)
  | .startSearch => some p.startSearch
  | .cancelSearch => some p.cancelSearch
  | .confirmSearch => some p.confirmSearch
  | .nextMatch => some p.nextMatch
  | .prevMatch => some p.prevMatch
  | .setView view => some { p with view }

structure Untouched (lower : Text → Text) (p q : DiffPane Syntax State Segment) : Prop where
  hunks : q.hunks = p.hunks
  indexes : (q.splitRows, q.hunkStarts, q.totalLines, q.syntaxShape) =
    (p.splitRows, p.hunkStarts, p.totalLines, p.syntaxShape)
  previous : (q.previousHunks, q.previousHighlights, q.previousCheckpoints) =
    (p.previousHunks, p.previousHighlights, p.previousCheckpoints)
  current : (q.highlightCacheGeneration, q.lineHighlights, q.highlightCheckpoints) =
    (p.highlightCacheGeneration, p.lineHighlights, p.highlightCheckpoints)
  file : ({ q.fileView with scroll := 0, linesLower := [] } : FileView Syntax State Segment) =
    { p.fileView with scroll := 0, linesLower := [] }
  lowered : p.Lowered lower → q.Lowered lower

namespace Untouched

variable {lower : Text → Text}

omit [DecidableEq Syntax]

lemma refl (p : DiffPane Syntax State Segment) : Untouched lower p p := ⟨rfl, rfl, rfl, rfl, rfl, id⟩

lemma trans {r : DiffPane Syntax State Segment} (h : Untouched lower p q)
    (g : Untouched lower q r) : Untouched lower p r :=
  ⟨g.hunks.trans h.hunks, g.indexes.trans h.indexes, g.previous.trans h.previous,
    g.current.trans h.current, g.file.trans h.file, g.lowered ∘ h.lowered⟩

lemma scrollTo (p : DiffPane Syntax State Segment) (idx : ℕ) : Untouched lower p (p.scrollTo idx) := by
  rw [DiffPane.scrollTo]
  split
  · exact ⟨rfl, rfl, rfl, rfl, rfl, id⟩
  · exact ⟨rfl, rfl, rfl, rfl, rfl, id⟩

lemma moveTo (p : DiffPane Syntax State Segment) (cursor : ℕ) :
    Untouched lower p (p.moveTo cursor) := by
  have hcursor : Untouched lower p { p with search := { p.search with cursor } } :=
    ⟨rfl, rfl, rfl, rfl, rfl, id⟩
  rw [DiffPane.moveTo]
  dsimp only
  split
  · exact hcursor.trans (scrollTo _ _)
  · exact hcursor

lemma ensureLowerCache (p : DiffPane Syntax State Segment) (lower : Text → Text) :
    Untouched lower p (p.ensureLowerCache lower) := by
  rw [DiffPane.ensureLowerCache]
  split
  · exact ⟨rfl, rfl, rfl, rfl, rfl, fun _ _ => rfl⟩
  · exact refl p

lemma findMatches (p : DiffPane Syntax State Segment) (lower : Text → Text) :
    Untouched lower p (p.findMatches lower) := by
  rw [DiffPane.findMatches]
  split
  · refine ⟨rfl, rfl, rfl, rfl, ?_, id⟩
    dsimp only
    rw [FileView.ensureLowerCache]
    split
    · rfl
    · rfl
  · obtain ⟨h₁, h₂, h₃, h₄, h₅, h₆⟩ := ensureLowerCache p lower
    exact ⟨h₁, h₂, h₃, h₄, h₅, h₆⟩

lemma recomputeMatches (p : DiffPane Syntax State Segment) (lower : Text → Text)
    (scrollToMatch : Bool) : Untouched lower p (p.recomputeMatches lower scrollToMatch) := by
  have hfound := findMatches p lower
  have hsearch : ∀ search, Untouched lower p { p.findMatches lower with search } :=
    fun _ => ⟨hfound.hunks, hfound.indexes, hfound.previous, hfound.current, hfound.file,
      hfound.lowered⟩
  rw [DiffPane.recomputeMatches]
  split
  · exact ⟨rfl, rfl, rfl, rfl, rfl, id⟩
  · dsimp only
    split
    · exact hsearch _
    · split
      · split
        · exact (hsearch _).trans (scrollTo _ _)
        · exact hsearch _
      · exact hsearch _

lemma searchPush (p : DiffPane Syntax State Segment) (lower : Text → Text) (ch : Text) :
    Untouched lower p (p.searchPush lower ch) := by
  have hquery : Untouched lower p (p.setQuery lower (p.search.query.raw ++ [ch])) :=
    ⟨rfl, rfl, rfl, rfl, rfl, id⟩
  exact hquery.trans (recomputeMatches _ _ _)

lemma searchPop (p : DiffPane Syntax State Segment) (lower : Text → Text) :
    Untouched lower p (p.searchPop lower) := by
  rw [DiffPane.searchPop]
  refine Untouched.trans ?_ (recomputeMatches _ _ _)
  split
  · exact refl p
  · exact ⟨rfl, rfl, rfl, rfl, rfl, id⟩

lemma confirmSearch (p : DiffPane Syntax State Segment) : Untouched lower p p.confirmSearch := by
  rw [DiffPane.confirmSearch]
  split
  · exact ⟨rfl, rfl, rfl, rfl, rfl, id⟩
  · exact ⟨rfl, rfl, rfl, rfl, rfl, id⟩

lemma nextMatch (p : DiffPane Syntax State Segment) : Untouched lower p p.nextMatch := by
  rw [DiffPane.nextMatch]
  split
  · exact refl p
  · split
    · exact moveTo _ _
    · exact moveTo _ _

lemma prevMatch (p : DiffPane Syntax State Segment) : Untouched lower p p.prevMatch := by
  rw [DiffPane.prevMatch]
  split
  · exact refl p
  · split
    · exact moveTo _ _
    · exact moveTo _ _

end Untouched

lemma Kept.untouched {lower : Text → Text} (hp : p.Kept h) (hu : Untouched lower p q) :
    q.Kept h := by
  obtain ⟨hhunks, hindexes, hprevious, hcurrent, hfile, -⟩ := hu
  simp only [Prod.mk.injEq] at hindexes hprevious hcurrent
  obtain ⟨-, -, -, hshape⟩ := hindexes
  obtain ⟨hprevious, hhighlights, hcheckpoints⟩ := hprevious
  obtain ⟨hgeneration, hlines, hstates⟩ := hcurrent
  refine ⟨?_, ?_, ?_, ?_, ?_⟩
  · rw [hshape, hhunks]
    exact hp.shape
  · rw [hhighlights, hprevious]
    exact hp.previousHighlights
  · rw [hcheckpoints, hprevious]
    exact hp.previousCheckpoints
  · rw [hgeneration, hlines, hstates, hhunks]
    exact hp.current
  · exact hp.file.congr hfile

def Action.loads : Action Syntax → Bool
  | .setHunks _ | .ensureHighlightCache | .setContent _ | .ensureFileHighlightCache _ => true
  | _ => false

lemma step_untouched (lower : Text → Text) {action : Action Syntax}
    (hsearch : action.loads = false) :
    ∃ q, p.step h lower action = some q ∧ Untouched lower p q := by
  cases action with
  | setHunks | ensureHighlightCache | setContent | ensureFileHighlightCache => cases hsearch
  | ensureLowerCache => exact ⟨_, rfl, .ensureLowerCache p lower⟩
  | recomputeMatches scrollToMatch => exact ⟨_, rfl, .recomputeMatches p lower scrollToMatch⟩
  | searchPush ch => exact ⟨_, rfl, .searchPush p lower ch⟩
  | searchPop => exact ⟨_, rfl, .searchPop p lower⟩
  | startSearch => exact ⟨_, rfl, rfl, rfl, rfl, rfl, rfl, id⟩
  | cancelSearch => exact ⟨_, rfl, rfl, rfl, rfl, rfl, rfl, id⟩
  | confirmSearch => exact ⟨_, rfl, .confirmSearch p⟩
  | nextMatch => exact ⟨_, rfl, .nextMatch p⟩
  | prevMatch => exact ⟨_, rfl, .prevMatch p⟩
  | setView view => exact ⟨_, rfl, rfl, rfl, rfl, rfl, rfl, id⟩

lemma step_kept (lower : Text → Text) (hp : p.Kept h) (action : Action Syntax) :
    ∃ q, p.step h lower action = some q ∧ q.Kept h := by
  cases hloads : action.loads with
  | false =>
    obtain ⟨q, hq, hu⟩ := step_untouched lower hloads
    exact ⟨q, hq, hp.untouched hu⟩
  | true =>
    cases action with
    | setHunks hunks => exact ⟨_, rfl, setHunks_kept hp hunks⟩
    | ensureHighlightCache =>
      obtain ⟨q, hq, hkept, -⟩ := ensureHighlightCache_kept hp
      exact ⟨q, hq, hkept⟩
    | setContent content =>
      obtain ⟨g, hg, hbuilt, -⟩ := FileView.setContent_built hp.file content
      refine ⟨{ p with fileView := g }, ?_, hp.shape, hp.previousHighlights,
        hp.previousCheckpoints, hp.current, hbuilt⟩
      rw [step, hg, Option.map_some]
    | ensureFileHighlightCache syntaxName =>
      exact ⟨_, rfl, hp.shape, hp.previousHighlights, hp.previousCheckpoints, hp.current,
        (FileView.ensureHighlightCache_built hp.file syntaxName).1⟩
    | _ => cases hloads

lemma new_kept (h : Highlighter Syntax State Segment) :
    ({} : DiffPane Syntax State Segment).Kept h :=
  ⟨rfl, rfl, rfl, .inl ⟨rfl, rfl, rfl⟩, FileView.new_built h⟩

-- the hunks and the file content that were handed over last
def Action.loaded : List DiffHunk × Text → Action Syntax → List DiffHunk × Text
  | (_, content), .setHunks hunks => (hunks, content)
  | (hunks, _), .setContent content => (hunks, content)
  | last, _ => last

def loaded (actions : List (Action Syntax)) : List DiffHunk × Text :=
  actions.foldl Action.loaded ([], [])

lemma ensureHighlightCache_hunks (hq : p.ensureHighlightCache h = some q) :
    q.hunks = p.hunks ∧ q.fileView = p.fileView := by
  rw [ensureHighlightCache] at hq
  split at hq
  · obtain rfl := Option.some.inj hq
    exact ⟨rfl, rfl⟩
  · dsimp only at hq
    split at hq
    · cases hq
    · split at hq
      · split at hq
        · split at hq
          · cases hq
          · obtain rfl := Option.some.inj hq
            exact ⟨rfl, rfl⟩
        · cases hq
      · obtain rfl := Option.some.inj hq
        exact ⟨rfl, rfl⟩

lemma step_loaded {lower : Text → Text} {action : Action Syntax}
    (hq : p.step h lower action = some q) :
    (q.hunks, q.fileView.content) = Action.loaded (p.hunks, p.fileView.content) action := by
  cases hloads : action.loads with
  | false =>
    obtain ⟨q', hq', hu⟩ := step_untouched (p := p) (h := h) lower hloads
    obtain rfl := Option.some.inj (hq'.symm.trans hq)
    have hcontent : q'.fileView.content = p.fileView.content :=
      congrArg (fun f => f.content) hu.file
    rw [hu.hunks, hcontent]
    cases action with
    | setHunks | ensureHighlightCache | setContent | ensureFileHighlightCache => cases hloads
    | _ => rfl
  | true =>
    cases action with
    | setHunks hunks =>
      obtain rfl := Option.some.inj hq
      rfl
    | ensureHighlightCache =>
      obtain ⟨hhunks, hfile⟩ := ensureHighlightCache_hunks hq
      rw [hhunks, hfile]
      rfl
    | setContent content =>
      obtain ⟨g, hg, rfl⟩ := Option.map_eq_some_iff.mp hq
      obtain ⟨_, -, rfl⟩ := Option.map_eq_some_iff.mp hg
      rfl
    | ensureFileHighlightCache syntaxName =>
      obtain rfl := Option.some.inj hq
      rw [step, FileView.ensureHighlightCache] at *
      split <;> rfl
    | _ => cases hloads

lemma run_loaded {lower : Text → Text} {actions : List (Action Syntax)}
    (hrun : run (step h lower) ({} : DiffPane Syntax State Segment) actions = some p) :
    (p.hunks, p.fileView.content) = loaded actions :=
  run_observe (fun _ _ _ hq => step_loaded hq) hrun

theorem highlighting_is_from_scratch (h : Highlighter Syntax State Segment)
    (lower : Text → Text) (actions : List (Action Syntax)) :
    ∃ p, run (step h lower) ({} : DiffPane Syntax State Segment) actions = some p ∧
      (p.hunks, p.fileView.content) = loaded actions ∧
      (∃ q fresh, p.ensureHighlightCache h = some q ∧
        (setHunks {} h (loaded actions).1).ensureHighlightCache h = some fresh ∧
        q.lineHighlights = fresh.lineHighlights ∧
        fresh.lineHighlights =
          (pass h (loaded actions).1 highlightLineCap none).map Prod.fst) ∧
      ∀ syntaxName, ∃ fresh, FileView.setContent {} (loaded actions).2 = some fresh ∧
        (p.fileView.ensureHighlightCache h syntaxName).lineHighlights =
          (fresh.ensureHighlightCache h syntaxName).lineHighlights ∧
        (fresh.ensureHighlightCache h syntaxName).lineHighlights =
          (h.highlightLines (h.new syntaxName)
            ((lines (loaded actions).2).take highlightLineCap)).1 := by
  obtain ⟨p, hrun, hp⟩ := run_total (fun _ action hp => step_kept lower hp action) actions
    (new_kept h)
  have hloaded := run_loaded hrun
  refine ⟨p, hrun, hloaded, ?_, fun syntaxName => ?_⟩
  · rw [← hloaded]
    obtain ⟨q, hq, -, hlines⟩ := ensureHighlightCache_kept hp
    obtain ⟨fresh, hfresh, -, hsame⟩ :=
      ensureHighlightCache_kept (setHunks_kept (new_kept h) p.hunks)
    exact ⟨q, fresh, hq, hfresh, hlines.trans hsame.symm, hsame⟩
  · rw [← hloaded]
    obtain ⟨fresh, hfresh, hbuilt, hcontent⟩ :=
      FileView.setContent_built (FileView.new_built h) p.fileView.content
    have hkept := (FileView.ensureHighlightCache_built hp.file syntaxName).2.2
    have hsame := (FileView.ensureHighlightCache_built hbuilt syntaxName).2.2
    rw [hcontent] at hsame
    exact ⟨fresh, hfresh, hkept.trans hsame.symm, hsame⟩

end Nightcrow.Ui.DiffPane
