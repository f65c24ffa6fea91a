import Nightcrow.Page.Edit.Blocks

/-! Parse trees whose source locations nest: where their blocks lie, and what becomes of them
when the contents of some are replaced. -/

namespace Nightcrow.Page.Edit

open Nightcrow.Library

def Element.innerEnd (el : Element) : ℕ := el.endTag.getD el.endOffset

lemma Element.innerEnd_le (el : Element) (h : el.endTag ≠ none → el.innerEnd < el.endOffset) :
    el.innerEnd ≤ el.endOffset := by
  cases hend : el.endTag with
  | none =>
    rw [Element.innerEnd, hend]
    exact le_rfl
  | some stop => exact (h (by rw [hend]; exact Option.some_ne_none _)).le

mutual

def Node.Within : Node → ℕ → ℕ → Prop
  | .text _, _, _ => True
  | .other, _, _ => True
  | .root children, lo, hi => Arranged children lo hi
  | .element el children, lo, hi =>
    match el.startTag with
    | none => Arranged children lo hi
    | some start =>
      lo ≤ el.startOffset ∧ el.startOffset < start ∧ start ≤ el.innerEnd ∧
        (el.endTag ≠ none → el.innerEnd < el.endOffset) ∧ el.endOffset ≤ hi ∧
        Arranged children start el.innerEnd

def Arranged : List Node → ℕ → ℕ → Prop
  | [], lo, hi => lo ≤ hi
  | c :: cs, lo, hi => ∃ mid, lo ≤ mid ∧ c.Within lo mid ∧ Arranged cs mid hi

end

structure Block.Inside (b : Block) (lo hi : ℕ) : Prop where
  lower : lo < b.innerStart
  ordered : b.innerStart ≤ b.innerEnd
  upper : b.innerEnd ≤ hi
  closed : b.locked = none → b.innerEnd < hi

lemma Block.Inside.mono {b : Block} {lo hi lo' hi' : ℕ} (h : b.Inside lo hi) (hlo : lo' ≤ lo)
    (hhi : hi ≤ hi') : b.Inside lo' hi' :=
  ⟨hlo.trans_lt h.lower, h.ordered, h.upper.trans hhi, fun hl => (h.closed hl).trans_le hhi⟩

lemma arranged_le : ∀ (cs : List Node) {lo hi : ℕ}, Arranged cs lo hi → lo ≤ hi
  | [], _, _, h => h
  | _ :: cs, _, _, ⟨_, hlo, _, hrest⟩ => hlo.trans (arranged_le cs hrest)

variable {source content : Text} {lock : Option LockReason} {el : Element} {children : List Node}
  {b : Block} {lo hi : ℕ}

structure Element.Found (source : Text) (lock : Option LockReason) (el : Element)
    (children : List Node) (b : Block) : Prop where
  start : el.startTag = some b.innerStart
  stop : b.innerEnd = el.innerEnd
  inner : b.sourceInner = slice source b.innerStart b.innerEnd
  closed : b.locked = none → el.endTag ≠ none ∧ lock = none
  tag : b.tag = el.tagName
  rcdata : b.rcdata = el.rcdata
  fresh : b.id = 0

lemma Element.found_of_block (h : el.block source lock children = some b) :
    el.Found source lock children b := by
  rw [Element.block] at h
  split at h
  · cases h
  · rename_i start hstart
    split at h
    · rename_i htext
      obtain rfl := Option.some.inj h
      refine ⟨hstart, rfl, rfl, fun hl => ?_, rfl, rfl, rfl⟩
      dsimp only at hl
      split at hl
      · rename_i hend
        exact ⟨Option.isSome_iff_ne_none.mp hend, hl⟩
      · cases hl
    · split at h
      · cases h
      · rename_i stop hstop
        split at h
        · rename_i hempty
          obtain rfl := Option.some.inj h
          refine ⟨hstart, ?_, rfl, fun hl => ⟨?_, ?_⟩, rfl, rfl, rfl⟩
          · rw [Element.innerEnd, hstop]
            rfl
          · rw [hstop]
            exact Option.some_ne_none _
          · cases lock with
            | none => rfl
            | some reason => cases hl
        · cases h

lemma Element.inside_of_block (h : el.block source lock children = some b)
    (hin : (Node.element el children).Within lo hi) : b.Inside lo hi := by
  have hf := Element.found_of_block h
  simp only [Node.Within, hf.start] at hin
  obtain ⟨hlo, hstart, hordered, hend, hhi, -⟩ := hin
  rw [← hf.stop] at hordered hend
  have hupper : b.innerEnd ≤ el.endOffset := by
    rw [hf.stop] at hend ⊢
    exact el.innerEnd_le hend
  exact ⟨hlo.trans_lt hstart, hordered, hupper.trans hhi,
    fun hl => (hend (hf.closed hl).1).trans_le hhi⟩

mutual

lemma visit_inside : ∀ (n : Node) {lock : Option LockReason} {lo hi : ℕ}, n.Within lo hi →
    ∀ b ∈ visit source lock n, b.Inside lo hi
  | .text _, _, _, _, _, b, hb => by cases hb
  | .other, _, _, _, _, b, hb => by cases hb
  | .root children, lock, lo, hi, hin, b, hb => by
    rw [visit] at hb
    rw [Node.Within] at hin
    exact visitAll_inside children hin b hb
  | .element el children, lock, lo, hi, hin, b, hb => by
    rw [visit] at hb
    split at hb
    · cases hb
    · split at hb
      · rename_i found hfound
        obtain rfl := List.mem_singleton.mp hb
        exact Element.inside_of_block hfound hin
      · rw [Node.Within] at hin
        split at hin
        · exact visitAll_inside children hin b hb
        · obtain ⟨hlo, hstart, hordered, hend, hhi, hchildren⟩ := hin
          exact (visitAll_inside children hchildren b hb).mono (hlo.trans hstart.le)
            ((el.innerEnd_le hend).trans hhi)

lemma visitAll_inside : ∀ (cs : List Node) {lock : Option LockReason} {d : Bool} {lo hi : ℕ},
    Arranged cs lo hi → ∀ b ∈ visitAll source lock d cs, b.Inside lo hi
  | [], _, _, _, _, _, b, hb => by cases hb
  | c :: cs, lock, d, lo, hi, ⟨mid, hlo, hc, hcs⟩, b, hb => by
    rw [visitAll] at hb
    rcases List.mem_append.mp hb with hb | hb
    · split at hb
      · exact (visit_inside c hc b hb).mono le_rfl (arranged_le cs hcs)
      · cases hb
    · exact (visitAll_inside cs hcs b hb).mono hlo le_rfl

end

mutual

lemma visit_ordered : ∀ (n : Node) {lock : Option LockReason} {lo hi : ℕ}, n.Within lo hi →
    (visit source lock n).Pairwise (fun b c => b.innerEnd < c.innerStart)
  | .text _, _, _, _, _ => List.Pairwise.nil
  | .other, _, _, _, _ => List.Pairwise.nil
  | .root children, lock, lo, hi, hin => by
    rw [visit]
    rw [Node.Within] at hin
    exact visitAll_ordered children hin
  | .element el children, lock, lo, hi, hin => by
    rw [visit]
    split
    · exact List.Pairwise.nil
    · split
      · exact List.pairwise_singleton _ _
      · rw [Node.Within] at hin
        split at hin
        · exact visitAll_ordered children hin
        · exact visitAll_ordered children hin.2.2.2.2.2

lemma visitAll_ordered : ∀ (cs : List Node) {lock : Option LockReason} {d : Bool} {lo hi : ℕ},
    Arranged cs lo hi →
    (visitAll source lock d cs).Pairwise (fun b c => b.innerEnd < c.innerStart)
  | [], _, _, _, _, _ => List.Pairwise.nil
  | c :: cs, lock, d, lo, hi, ⟨mid, hlo, hc, hcs⟩ => by
    rw [visitAll]
    refine List.pairwise_append.mpr ⟨?_, visitAll_ordered cs hcs, fun b hb b' hb' => ?_⟩
    · split
      · exact visit_ordered c hc
      · exact List.Pairwise.nil
    · split at hb
      · exact (visit_inside c hc b hb).upper.trans_lt (visitAll_inside cs hcs b' hb').lower
      · cases hb

end

mutual

lemma visit_inner : ∀ (n : Node) {lock : Option LockReason}, ∀ b ∈ visit source lock n,
    b.sourceInner = slice source b.innerStart b.innerEnd
  | .text _, _, b, hb => by cases hb
  | .other, _, b, hb => by cases hb
  | .root children, _, b, hb => by
    rw [visit] at hb
    exact visitAll_inner children b hb
  | .element el children, _, b, hb => by
    rw [visit] at hb
    split at hb
    · cases hb
    · split at hb
      · rename_i found hfound
        obtain rfl := List.mem_singleton.mp hb
        exact (Element.found_of_block hfound).inner
      · exact visitAll_inner children b hb

lemma visitAll_inner : ∀ (cs : List Node) {lock : Option LockReason} {d : Bool},
    ∀ b ∈ visitAll source lock d cs, b.sourceInner = slice source b.innerStart b.innerEnd
  | [], _, _, b, hb => by cases hb
  | c :: cs, _, _, b, hb => by
    rw [visitAll] at hb
    rcases List.mem_append.mp hb with hb | hb
    · split at hb
      · exact visit_inner c b hb
      · cases hb
    · exact visitAll_inner cs b hb

end

/-! What the parser is to make of a source whose blocks were given other contents. -/

variable {ps : List (Splice Char)}

def Element.moved (ps : List (Splice Char)) (el : Element) : Element :=
  { el with
    startOffset := Splice.moveStart ps el.startOffset
    startTag := el.startTag.map (Splice.moveStart ps)
    endTag := el.endTag.map (Splice.moveEnd ps)
    endOffset := Splice.moveEnd ps el.endOffset }

def Element.edited (ps : List (Splice Char)) (el : Element) : Prop :=
  ∃ p ∈ ps, el.startTag = some p.start

def KeepsBlock (content : Text) (el : Element) (children : List Node) : Prop :=
  holdsText children = true ∨
    el.rcdata = true ∧ children.any Node.isElement = false ∧
      ∀ start ∈ el.startTag, ∀ stop ∈ el.endTag, blank (slice content start stop) = true

mutual

/-- The second tree is the first with the edited elements' contents replaced and all offsets
moved accordingly; the replaced contents keep their element a block, and no other element gains
or loses all its text by them. -/
def Node.Respliced (content : Text) (ps : List (Splice Char)) : Node → Node → Prop
  | .text value, n => n = .text value
  | .other, n => n = .other
  | .root children, n => ∃ children', n = .root children' ∧
      NodesRespliced content ps children children'
  | .element el children, n => ∃ children', n = .element (el.moved ps) children' ∧
      (el.edited ps → KeepsBlock content (el.moved ps) children') ∧
      (¬ el.edited ps → NodesRespliced content ps children children' ∧
        (children.any Node.isBlockChild = false →
          blank (textOfAll children') = blank (textOfAll children)))

def NodesRespliced (content : Text) (ps : List (Splice Char)) : List Node → List Node → Prop
  | [], ns => ns = []
  | c :: cs, ns => ∃ c' cs', ns = c' :: cs' ∧ c.Respliced content ps c' ∧
      NodesRespliced content ps cs cs'

end

lemma Node.Respliced.shape {n n' : Node} (h : n.Respliced content ps n') :
    n'.isElement = n.isElement ∧ n'.isBlockChild = n.isBlockChild ∧
      hasDirectText [n'] = hasDirectText [n] := by
  cases n with
  | text value =>
    rw [Node.Respliced] at h
    exact h ▸ ⟨rfl, rfl, rfl⟩
  | other =>
    rw [Node.Respliced] at h
    exact h ▸ ⟨rfl, rfl, rfl⟩
  | root children =>
    rw [Node.Respliced] at h
    obtain ⟨children', rfl, -⟩ := h
    exact ⟨rfl, rfl, rfl⟩
  | element el children =>
    rw [Node.Respliced] at h
    obtain ⟨children', rfl, -⟩ := h
    exact ⟨rfl, rfl, rfl⟩

lemma NodesRespliced.shape : ∀ {cs cs' : List Node}, NodesRespliced content ps cs cs' →
    cs'.any Node.isElement = cs.any Node.isElement ∧
      cs'.any Node.isBlockChild = cs.any Node.isBlockChild ∧
      hasDirectText cs' = hasDirectText cs
  | [], _, h => by
    rw [NodesRespliced] at h
    exact h ▸ ⟨rfl, rfl, rfl⟩
  | c :: cs, _, h => by
    rw [NodesRespliced] at h
    obtain ⟨c', cs', rfl, hc, hcs⟩ := h
    obtain ⟨h₁, h₂, h₃⟩ := hc.shape
    obtain ⟨g₁, g₂, g₃⟩ := NodesRespliced.shape hcs
    refine ⟨?_, ?_, ?_⟩
    · rw [List.any_cons, List.any_cons, h₁, g₁]
    · rw [List.any_cons, List.any_cons, h₂, g₂]
    · simp only [hasDirectText, List.any_cons, List.any_nil, Bool.or_false] at h₃ g₃ ⊢
      rw [h₃, g₃]

def Block.moved (content : Text) (ps : List (Splice Char)) (b : Block) : Block :=
  { b with
    innerStart := Splice.moveStart ps b.innerStart
    innerEnd := Splice.moveEnd ps b.innerEnd
    sourceInner := slice content (Splice.moveStart ps b.innerStart)
      (Splice.moveEnd ps b.innerEnd) }

structure Replaces (source content : Text) (ps : List (Splice Char)) : Prop where
  descending : Splice.Descending ps
  fits : ∀ p ∈ ps, p.Fits source
  content : content = Splice.applyAll ps source

def Accounted (ps : List (Splice Char)) (found : List Block) (lo hi : ℕ) : Prop :=
  ∀ p ∈ ps, (∃ b ∈ found, b.locked = none ∧ b.innerStart = p.start ∧ b.innerEnd = p.stop) ∨
    p.stop < lo ∨ hi < p.start

lemma Replaces.slice_clear (h : Replaces source content ps) {a n : ℕ}
    (hclear : ∀ p ∈ ps, p.Clear a (a + n)) :
    slice content (Splice.moveStart ps a) (Splice.moveEnd ps (a + n)) =
      slice source a (a + n) := by
  rw [Splice.moveEnd_clear h.descending (fun p hp => (h.fits p hp).1) hclear, h.content]
  exact Splice.slice_applyAll_clear h.descending h.fits hclear

lemma Replaces.slice_text (h : Replaces source content ps) {p : Splice Char} (hp : p ∈ ps) :
    slice content (Splice.moveStart ps p.start) (Splice.moveEnd ps p.stop) = p.text := by
  rw [Splice.moveEnd_stop h.descending (fun p hp => (h.fits p hp).1) hp, h.content]
  exact Splice.slice_applyAll_text h.descending h.fits hp

lemma Element.block_moved {children' : List Node} (hr : Replaces source content ps)
    (hshape : NodesRespliced content ps children children')
    (hblank : children.any Node.isBlockChild = false →
      blank (textOfAll children') = blank (textOfAll children))
    (hin : (Node.element el children).Within lo hi)
    (hclear : children.any Node.isElement = false → ∀ p ∈ ps, p.stop < lo ∨ hi < p.start) :
    (el.moved ps).block content lock children' =
      (el.block source lock children).map (Block.moved content ps) := by
  obtain ⟨helement, hchild, -⟩ := hshape.shape
  have htext : holdsText children' = holdsText children := by
    rw [holdsText, holdsText, hchild]
    cases hc : children.any Node.isBlockChild with
    | true => rfl
    | false => rw [hblank hc]
  rw [Element.block, Element.block]
  cases hstart : el.startTag with
  | none => simp only [Element.moved, hstart, Option.map_none]
  | some start =>
    simp only [Element.moved, hstart, Option.map_some, htext]
    split
    · have hend : (el.endTag.map (Splice.moveEnd ps)).getD (Splice.moveEnd ps el.endOffset) =
          Splice.moveEnd ps (el.endTag.getD el.endOffset) := by
        cases el.endTag <;> rfl
      simp only [hend, Option.isSome_map]
      rfl
    · cases hstop : el.endTag with
      | none => rfl
      | some stop =>
        simp only [Option.map_some, helement]
        cases he : children.any Node.isElement with
        | true => rfl
        | false =>
          have hsame : slice content (Splice.moveStart ps start) (Splice.moveEnd ps stop) =
              slice source start stop := by
            simp only [Node.Within, hstart, Element.innerEnd, hstop, Option.getD_some] at hin
            obtain ⟨hlo, hlt, hordered, hend, hhi, -⟩ := hin
            obtain ⟨n, rfl⟩ := Nat.exists_eq_add_of_le hordered
            apply hr.slice_clear
            intro p hp
            have hfits := (hr.fits p hp).1
            have hupper := hend (Option.some_ne_none _)
            rcases hclear he p hp with h | h
            · exact .inl (by omega)
            · exact .inr (by omega)
          rw [hsame]
          split
          · simp only [Option.map_some, Block.moved, hsame]
            rfl
          · rfl

lemma Element.block_edited {children' : List Node}
    (hblock : el.block source lock children = some b) (hopen : b.locked = none)
    (hkeeps : KeepsBlock content (el.moved ps) children') :
    (el.moved ps).block content lock children' = some (b.moved content ps) := by
  have hf := Element.found_of_block hblock
  obtain ⟨hend, hlock⟩ := hf.closed hopen
  obtain ⟨stop, hstop⟩ := Option.ne_none_iff_exists'.mp hend
  have hbstop : b.innerEnd = stop := by
    rw [hf.stop, Element.innerEnd, hstop]
    rfl
  obtain ⟨hstart, -, -, -, htag, hrcdata, hfresh⟩ := hf
  obtain ⟨id, tag, innerStart, innerEnd, sourceInner, rcdata, locked⟩ := b
  dsimp only at hstart hbstop hopen htag hrcdata hfresh
  subst hbstop hopen hlock htag hrcdata hfresh
  have hmoved : (el.moved ps).startTag = some (Splice.moveStart ps innerStart) ∧
      (el.moved ps).endTag = some (Splice.moveEnd ps innerEnd) := by
    simp only [Element.moved, hstart, hstop, Option.map_some, and_self]
  rw [Element.block, hmoved.1]
  dsimp only
  rcases hkeeps with htext | ⟨hrcdata, hleaf, hblank⟩
  · rw [if_pos htext, hmoved.2]
    rfl
  · split
    · rw [hmoved.2]
      rfl
    · rw [hmoved.2]
      dsimp only
      have hempty := hblank _ hmoved.1 _ hmoved.2
      rw [hleaf, hempty]
      rfl

lemma Accounted.apart (ha : Accounted ps [] lo hi) : ∀ p ∈ ps, p.stop < lo ∨ hi < p.start := by
  intro p hp
  rcases ha p hp with ⟨b, hb, -⟩ | h
  · cases hb
  · exact h

lemma visitAll_leaf : ∀ (cs : List Node) {d : Bool}, cs.any Node.isElement = false →
    visitAll source lock d cs = []
  | [], _, _ => rfl
  | c :: cs, d, h => by
    rw [List.any_cons, Bool.or_eq_false_iff] at h
    have hc : c.isBlockChild = false := by
      cases c with
      | element el children => cases h.1
      | _ => rfl
    rw [visitAll, visitAll_leaf cs h.2, hc, h.1]
    rfl

mutual

lemma visit_respliced (hr : Replaces source content ps) : ∀ (n n' : Node)
    {lock : Option LockReason} {lo hi : ℕ}, n.Within lo hi → n.Respliced content ps n' →
    Accounted ps (visit source lock n) lo hi →
    visit content lock n' = (visit source lock n).map (Block.moved content ps)
  | .text value, n', lock, lo, hi, hin, h, ha => by
    rw [Node.Respliced] at h
    rw [h]
    rfl
  | .other, n', lock, lo, hi, hin, h, ha => by
    rw [Node.Respliced] at h
    rw [h]
    rfl
  | .root children, n', lock, lo, hi, hin, h, ha => by
    rw [Node.Respliced] at h
    obtain ⟨children', rfl, h⟩ := h
    rw [visit] at ha
    rw [Node.Within] at hin
    rw [visit, visit, h.shape.2.2]
    exact visitAll_respliced hr children children' hin h ha
  | .element el children, n', lock, lo, hi, hin, h, ha => by
    rw [Node.Respliced] at h
    obtain ⟨children', rfl, hedited, hkept⟩ := h
    have hraw : (el.moved ps).tagName = el.tagName := rfl
    have hown : ownLockReason (el.moved ps) = ownLockReason el := rfl
    rw [visit] at ha
    rw [visit, visit, hraw, hown]
    split
    · rfl
    · rename_i hvisible
      rw [if_neg hvisible] at ha
      cases hblock : el.block source (lock <|> ownLockReason el) children with
      | some b =>
        rw [hblock] at ha
        have hf := Element.found_of_block hblock
        have hinside := Element.inside_of_block hblock hin
        by_cases he : el.edited ps
        · obtain ⟨p, hp, hstart⟩ := he
          have hopen : b.locked = none := by
            rcases ha p hp with ⟨b', hb', hopen, -⟩ | h
            · exact List.mem_singleton.mp hb' ▸ hopen
            · have := (hr.fits p hp).1
              have hsame : p.start = b.innerStart := Option.some.inj (hstart.symm.trans hf.start)
              have := hinside.lower
              have := hinside.ordered
              have := hinside.upper
              omega
          rw [Element.block_edited hblock hopen (hedited ⟨p, hp, hstart⟩)]
          rfl
        · obtain ⟨hnodes, hblank⟩ := hkept he
          rw [Element.block_moved hr hnodes hblank hin, hblock]
          · rfl
          · intro _ p hp
            rcases ha p hp with ⟨b', hb', -, hstart, -⟩ | h
            · obtain rfl := List.mem_singleton.mp hb'
              exact absurd ⟨p, hp, hf.start.trans (congrArg some hstart)⟩ he
            · exact h
      | none =>
        rw [hblock] at ha
        dsimp only at ha
        have he : ¬ el.edited ps := by
          rintro ⟨p, hp, hstart⟩
          simp only [Node.Within, hstart] at hin
          obtain ⟨hlo, hlt, hordered, hend, hhi, hchildren⟩ := hin
          have hfits := (hr.fits p hp).1
          have hupper := el.innerEnd_le hend
          rcases ha p hp with ⟨b', hb', -, hsame, -⟩ | h
          · have := (visitAll_inside children hchildren b' hb').lower
            omega
          · omega
        obtain ⟨hnodes, hblank⟩ := hkept he
        have hnone : (el.moved ps).block content (lock <|> ownLockReason el) children' = none := by
          rw [Element.block_moved hr hnodes hblank hin, hblock]
          · rfl
          · intro hleaf
            rw [visitAll_leaf children hleaf] at ha
            exact ha.apart
        rw [hnone]
        dsimp only
        rw [hnodes.shape.2.2]
        rw [Node.Within] at hin
        split at hin
        · exact visitAll_respliced hr children children' hin hnodes ha
        · obtain ⟨hlo, hlt, hordered, hend, hhi, hchildren⟩ := hin
          refine visitAll_respliced hr children children' hchildren hnodes (fun p hp => ?_)
          refine (ha p hp).imp_right (fun h => h.imp (fun h => ?_) (fun h => ?_))
          · omega
          · have := el.innerEnd_le hend
            omega

lemma visitAll_respliced (hr : Replaces source content ps) : ∀ (cs cs' : List Node)
    {lock : Option LockReason} {d : Bool} {lo hi : ℕ}, Arranged cs lo hi →
    NodesRespliced content ps cs cs' → Accounted ps (visitAll source lock d cs) lo hi →
    visitAll content lock d cs' = (visitAll source lock d cs).map (Block.moved content ps)
  | [], cs', lock, d, lo, hi, hin, h, ha => by
    rw [NodesRespliced] at h
    rw [h]
    rfl
  | c :: cs, cs', lock, d, lo, hi, ⟨mid, hlo, hc, hcs⟩, h, ha => by
    rw [NodesRespliced] at h
    obtain ⟨c', cs', rfl, hrc, hrcs⟩ := h
    rw [visitAll] at ha
    rw [visitAll, visitAll, hrc.shape.1, hrc.shape.2.1, List.map_append]
    have hrest : Accounted ps (visitAll source lock d cs) mid hi := by
      intro p hp
      rcases ha p hp with ⟨b, hb, hopen, hstart, hstop⟩ | h
      · rcases List.mem_append.mp hb with hb | hb
        · split at hb
          · refine .inr (.inl ?_)
            rw [← hstop]
            exact (visit_inside c hc b hb).closed hopen
          · cases hb
        · exact .inl ⟨b, hb, hopen, hstart, hstop⟩
      · exact .inr (h.imp_left (fun h => h.trans_le hlo))
    rw [visitAll_respliced hr cs cs' hcs hrcs hrest]
    congr 1
    split
    · rename_i hvisited
      refine visit_respliced hr c c' hc hrc (fun p hp => ?_)
      rcases ha p hp with ⟨b, hb, hopen, hstart, hstop⟩ | h
      · rw [if_pos hvisited] at hb
        rcases List.mem_append.mp hb with hb | hb
        · exact .inl ⟨b, hb, hopen, hstart, hstop⟩
        · refine .inr (.inr ?_)
          rw [← hstart]
          exact (visitAll_inside cs hcs b hb).lower
      · exact .inr (h.imp_right (fun h => (arranged_le cs hcs).trans_lt h))
    · rfl

end

end Nightcrow.Page.Edit
