import Nightcrow.Library.Splice

namespace Nightcrow.Page.Edit

open Nightcrow.Library

abbrev Text := List Char

inductive LockReason where
  | rawText | scriptGenerated | emptyInSource | codeBlock | ambiguous | markerClash
  deriving DecidableEq

structure Block where
  id : ℕ := 0
  tag : String
  innerStart : ℕ
  innerEnd : ℕ
  sourceInner : Text
  rcdata : Bool
  locked : Option LockReason
  deriving DecidableEq

structure Patch where
  id : ℕ
  newInnerHtml : Text
  deriving DecidableEq

def isSpace (c : Char) : Bool :=
  -- what counts as white space to `trim` and `\s`
  "\t\n\u000b\u000c\r \u00a0\u1680\u2028\u2029\u202f\u205f\u3000\ufeff".toList.contains c ||
    ('\u2000' ≤ c && c ≤ '\u200a')

def blank (t : Text) : Bool := t.all isSpace

def inlineTags : List String :=
  ["b", "strong", "span", "br", "small", "i", "em", "a", "code", "u", "sup", "sub", "mark", "s",
    "del", "ins", "abbr", "cite", "q", "kbd", "samp", "var", "time", "wbr", "bdi", "bdo", "ruby",
    "rt", "rp", "font", "strike", "big", "tt"]

def rawTextTags : List String := ["script", "style", "textarea"]

def rcdataTags : List String := ["title"]

def codeBlockClasses : List Text := ["code".toList, "codebox".toList]

def isInline (tag : String) : Bool := inlineTags.contains tag

def hasCodeBlockClass (classAttr : Option Text) : Bool :=
  classAttr.any (fun attr =>
    codeBlockClasses.any (fun c => (attr.splitOnP isSpace).contains c))

structure Element where
  tagName : String
  classAttr : Option Text := none
  startOffset : ℕ := 0
  startTag : Option ℕ := none
  endTag : Option ℕ := none
  endOffset : ℕ := 0

inductive Node where
  | text (value : Text)
  | other
  | element (el : Element) (children : List Node)
  | root (children : List Node)

def Node.isElement : Node → Bool
  | .element _ _ => true
  | _ => false

def Node.isBlockChild : Node → Bool
  | .element el _ => !isInline el.tagName
  | _ => false

def hasDirectText (children : List Node) : Bool :=
  children.any (fun c => match c with
    | .text value => !blank value
    | _ => false)

mutual

def textOf : Node → Text
  | .text value => value
  | .other => []
  | .element el children => if rawTextTags.contains el.tagName then [] else textOfAll children
  | .root children => textOfAll children

def textOfAll : List Node → Text
  | [] => []
  | c :: cs => textOf c ++ textOfAll cs

end

def ownLockReason (el : Element) : Option LockReason :=
  if hasCodeBlockClass el.classAttr then some .codeBlock else none

def Element.rcdata (el : Element) : Bool := rcdataTags.contains el.tagName

def holdsText (children : List Node) : Bool :=
  !children.any Node.isBlockChild && !blank (textOfAll children)

def Element.block (source : Text) (lock : Option LockReason) (el : Element)
    (children : List Node) : Option Block :=
  match el.startTag with
  | none => none
  | some innerStart =>
    if holdsText children then
      let innerEnd := el.endTag.getD el.endOffset
      some {
        tag := el.tagName
        innerStart
        innerEnd
        sourceInner := slice source innerStart innerEnd
        rcdata := el.rcdata
        locked := if el.endTag.isSome then lock else some .ambiguous }
    else
      match el.endTag with
      | none => none
      | some innerEnd =>
        if !children.any Node.isElement && blank (slice source innerStart innerEnd) then
          some {
            tag := el.tagName
            innerStart
            innerEnd
            sourceInner := slice source innerStart innerEnd
            rcdata := el.rcdata
            locked := lock <|> if el.rcdata then none else some .emptyInSource }
        else none

mutual

def visit (source : Text) (inherited : Option LockReason) : Node → List Block
  | .text _ => []
  | .other => []
  | .root children => visitAll source inherited (!hasDirectText children) children
  | .element el children =>
    if rawTextTags.contains el.tagName then []
    else
      match el.block source (inherited <|> ownLockReason el) children with
      | some b => [b]
      | none =>
        visitAll source (inherited <|> ownLockReason el) (!hasDirectText children) children

def visitAll (source : Text) (lock : Option LockReason) (descendIntoInline : Bool) :
    List Node → List Block
  | [] => []
  | c :: cs =>
    (if c.isBlockChild || c.isElement && descendIntoInline then visit source lock c else []) ++
      visitAll source lock descendIntoInline cs

end

def parseBlocks (parse : Text → Node) (source : Text) : List Block :=
  (visit source none (parse source)).mapIdx (fun i b => { b with id := i })

inductive PatchErrorCode where
  | unknownId | locked | stale | duplicate
  deriving DecidableEq

def target (encode : Text → Text) (source : Text) (blocks : List Block) (patch : Patch) :
    Except PatchErrorCode (Splice Char) :=
  match blocks.find? (fun b => b.id = patch.id) with
  | none => .error .unknownId
  | some block =>
    if block.locked ≠ none then .error .locked
    else if slice source block.innerStart block.innerEnd ≠ block.sourceInner then .error .stale
    else .ok ⟨block.innerStart, block.innerEnd,
      if block.rcdata then encode patch.newInnerHtml else patch.newInnerHtml⟩

def targets (encode : Text → Text) (source : Text) (blocks : List Block) :
    List Patch → Except PatchErrorCode (List (Splice Char))
  | [] => .ok []
  | patch :: patches =>
    match target encode source blocks patch with
    | .error e => .error e
    | .ok p =>
      match targets encode source blocks patches with
      | .error e => .error e
      | .ok ps => .ok (p :: ps)

def ordered (ps : List (Splice Char)) : List (Splice Char) :=
  ps.insertionSort (fun p q => q.start ≤ p.start)

def applyPatches (encode : Text → Text) (source : Text) (blocks : List Block)
    (patches : List Patch) : Except PatchErrorCode Text :=
  match targets encode source blocks patches with
  | .error e => .error e
  | .ok ps =>
    if (patches.map Patch.id).Nodup then .ok (Splice.applyAll (ordered ps) source)
    else .error .duplicate

end Nightcrow.Page.Edit
