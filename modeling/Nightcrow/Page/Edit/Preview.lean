import Nightcrow.Library.Weave
import Nightcrow.Page.Edit.Markers

/-! The document the preview frame runs: spliced together in the page at UTF-16 units, and by the
server at UTF-8 bytes. -/

namespace Nightcrow.Page.Edit

open Nightcrow.Library

abbrev Units := List UInt16

def unitsOf (c : Char) : Units :=
  if c.toNat < 0x10000 then [c.toNat.toUInt16]
  else [(0xd800 + (c.toNat - 0x10000) / 0x400).toUInt16,
    (0xdc00 + (c.toNat - 0x10000) % 0x400).toUInt16]

def utf16 (t : Text) : Units := t.flatMap unitsOf

def utf8 (t : Text) : List UInt8 := t.flatMap String.utf8EncodeChar

def isHighSurrogate (u : UInt16) : Prop := 0xd800 ≤ u.toNat ∧ u.toNat ≤ 0xdbff

def isLowSurrogate (u : UInt16) : Prop := 0xdc00 ≤ u.toNat ∧ u.toNat ≤ 0xdfff

instance (u : UInt16) : Decidable (isHighSurrogate u) := inferInstanceAs (Decidable (_ ∧ _))

instance (u : UInt16) : Decidable (isLowSurrogate u) := inferInstanceAs (Decidable (_ ∧ _))

def loneUnit (u : UInt16) : Char :=
  if isHighSurrogate u ∨ isLowSurrogate u then '\ufffd' else Char.ofNat u.toNat

def scalars : Units → Text
  | [] => []
  | [u] => [loneUnit u]
  | u :: v :: us =>
    if isHighSurrogate u ∧ isLowSurrogate v then
      Char.ofNat (0x10000 + (u.toNat - 0xd800) * 0x400 + (v.toNat - 0xdc00)) :: scalars us
    else loneUnit u :: scalars (v :: us)

def textEncode (us : Units) : List UInt8 := utf8 (scalars us)

def Block.inUnits (source : Text) (b : Block) : Block :=
  { b with
    innerStart := (utf16 (source.take b.innerStart)).length
    innerEnd := (utf16 (source.take b.innerEnd)).length }

inductive EditError where
  | marker (id : ℕ) (tag : String)
  | pastSource (start stop : ℕ)
  | overlapping (start stop : ℕ)
  deriving DecidableEq

def insertion (point : ℕ) (text : Units) : Splice UInt16 := ⟨point, point, text⟩

def applyEditsFrom (length : ℕ) : List (Splice UInt16) → ℕ → Units → Except EditError Units
  | [], _, out => .ok out
  | edit :: edits, limit, out =>
    if length < edit.stop ∨ edit.stop < edit.start then .error (.pastSource edit.start edit.stop)
    else if limit < edit.stop then .error (.overlapping edit.start edit.stop)
    else applyEditsFrom length edits edit.start (edit.apply out)

def applyEdits (source : Units) (edits : List (Splice UInt16)) : Except EditError Units :=
  applyEditsFrom source.length
    (edits.insertionSort (fun a b => b.start < a.start ∨ b.start = a.start ∧ b.stop ≤ a.stop))
    source.length source

def markerAttr : String := "data-ne-id"

def markerEdit (source : Units) (block : Block) : Except EditError (Splice UInt16) :=
  if 0 < block.innerStart ∧ source[block.innerStart - 1]? = some 62 then
    .ok (insertion (block.innerStart - 1)
      (utf16 (" " ++ markerAttr ++ "=\"" ++ toString block.id ++ "\"").toList))
  else .error (.marker block.id block.tag)

def markerEdits (source : Units) : List Block → Except EditError (List (Splice UInt16))
  | [] => .ok []
  | block :: blocks =>
    match markerEdit source block with
    | .error e => .error e
    | .ok edit =>
      match markerEdits source blocks with
      | .error e => .error e
      | .ok edits => .ok (edit :: edits)

def lowerUnit (u : UInt16) : UInt16 := if 65 ≤ u ∧ u ≤ 90 then u + 32 else u

def tagAt (name : Units) (html : Units) : Option ℕ :=
  -- where a match of `<name[^>]*>` that starts here ends
  if (html.take (name.length + 1)).map lowerUnit = 60 :: name then
    ((html.drop (name.length + 1)).findIdx? (fun u => u = 62)).map
      (fun i => name.length + 1 + (i + 1))
  else none

def firstTag (name : Units) : Units → Option ℕ
  | [] => none
  | u :: us =>
    match tagAt name (u :: us) with
    | some n => some n
    | none => (firstTag name us).map (fun n => n + 1)

def headAnchorOffset (html : Units) : ℕ :=
  (firstTag (utf16 "head".toList) html <|> firstTag (utf16 "html".toList) html).getD 0

def escapeScript : Text → Text
  -- every `</script`, in either case, with a backslash in it
  | [] => []
  | c :: cs =>
    if ((c :: cs).take 8).map Char.toLower = "</script".toList then
      "<\\/script".toList ++ escapeScript (cs.drop 7)
    else c :: escapeScript cs
termination_by t => t.length
decreasing_by
  · simp only [List.length_drop, List.length_cons]
    omega
  · exact Nat.lt_succ_self _

def hexDigit (n : ℕ) : Char := ("0123456789abcdef".toList)[n]?.getD '0'

def jsonChar (c : Char) : Text :=
  if c = '"' then "\\\"".toList
  else if c = '\\' then "\\\\".toList
  else if c.toNat = 0x08 then "\\b".toList
  else if c = '\t' then "\\t".toList
  else if c = '\n' then "\\n".toList
  else if c.toNat = 0x0c then "\\f".toList
  else if c = '\r' then "\\r".toList
  else if c.toNat < 0x20 then "\\u00".toList ++ [hexDigit (c.toNat / 16), hexDigit (c.toNat % 16)]
  else [c]

-- `JSON.stringify` of a string
def jsonString (t : Text) : Text := '"' :: t.flatMap jsonChar ++ ['"']

def agentScriptTag (agentSource token : Text) : Text :=
  let arg := (jsonString token).flatMap (fun c => if c = '<' then "\\u003c".toList else [c])
  "<script>(".toList ++ escapeScript agentSource ++ ")(".toList ++ arg ++ ");</script>".toList

def lockedAttr : String := "data-ne-locked"

def darkAttr : String := "data-ne-dark"

def revealedAttr : String := "data-ne-revealed"

def editorStyleTag : Text :=
  let editable := "[" ++ markerAttr ++ "]:not([" ++ lockedAttr ++ "])"
  (String.join [
    "<style>",
    "[" ++ markerAttr ++
      "]\x7b--ne-mark:#101012!important;--ne-soft:rgba(16,16,18,.45)!important;",
    "--ne-tint:rgba(16,16,18,.05)!important\x7d",
    "[" ++ darkAttr ++
      "]\x7b--ne-mark:#fff!important;--ne-soft:rgba(255,255,255,.5)!important;",
    "--ne-tint:rgba(255,255,255,.09)!important\x7d",
    editable ++ "\x7bcursor:text\x7d",
    editable ++
      ":hover\x7boutline:2px solid var(--ne-soft)!important;outline-offset:2px!important\x7d",
    "[" ++ markerAttr ++
      "][contenteditable=\"true\"]\x7boutline:2px solid var(--ne-mark)!important;",
    "outline-offset:2px!important;background:var(--ne-tint)!important\x7d",
    "[" ++ lockedAttr ++ "]\x7bcursor:not-allowed\x7d",
    "[" ++ lockedAttr ++
      "]:hover\x7boutline:2px dashed var(--ne-soft)!important;outline-offset:2px!important\x7d",
    "@media (hover:none)\x7b",
    editable ++
      ":active\x7boutline:2px solid var(--ne-soft)!important;outline-offset:2px!important\x7d",
    "[" ++ lockedAttr ++
      "]:active\x7boutline:2px dashed var(--ne-soft)!important;outline-offset:2px!important\x7d",
    "\x7d",
    "[" ++ revealedAttr ++
      "]\x7boutline:2px solid var(--ne-mark)!important;outline-offset:2px!important;",
    "background:var(--ne-tint)!important\x7d",
    "</style>"]).toList

def previewEdits (agentSource : Text) (source : Units) (blocks : List Block) (token : Text) :
    Except EditError (List (Splice UInt16)) :=
  match markerEdits source blocks with
  | .error e => .error e
  | .ok edits => .ok (edits ++
      [insertion (headAnchorOffset source) (utf16 (agentScriptTag agentSource token ++
        editorStyleTag))])

def buildPreviewDocument (agentSource : Text) (source : Units) (blocks : List Block)
    (token : Text) : Except EditError Units :=
  match previewEdits agentSource source blocks token with
  | .error e => .error e
  | .ok edits => applyEdits source edits

structure Insert where
  point : ℕ
  text : Units

def insertsFrom (source : Units) : ℕ → ℕ → List (Splice UInt16) → List Insert
  | _, _, [] => []
  | jsIndex, byteOffset, e :: es =>
    let next := byteOffset + (textEncode (slice source jsIndex e.start)).length
    ⟨next, e.text⟩ :: insertsFrom source e.start next es

def previewInserts (agentSource : Text) (source : Units) (blocks : List Block) (token : Text) :
    Except EditError (List Insert) :=
  match previewEdits agentSource source blocks token with
  | .error e => .error e
  | .ok edits =>
    .ok (insertsFrom source 0 0 (edits.insertionSort (fun a b => a.start ≤ b.start)))

def Insert.received (i : Insert) : ℕ × List UInt8 := (i.point, textEncode i.text)

def isCharBoundary (out : List UInt8) (point : ℕ) : Bool :=
  point = 0 || match out[point]? with
    | none => point = out.length
    | some b => b.toNat < 128 || 192 ≤ b.toNat

def insertPoints : List (ℕ × List UInt8) → List UInt8 → Except String (List UInt8)
  | [], out => .ok out
  | (point, text) :: points, out =>
    if out.length < point ∨ isCharBoundary out point = false then
      .error "an insertion offset is out of range"
    else insertPoints points (out.take point ++ text ++ out.drop point)

def applyInserts (source : List UInt8) (points : List (ℕ × List UInt8)) :
    Except String (List UInt8) :=
  insertPoints (points.insertionSort (fun p q => q.1 ≤ p.1)) source

section

variable {source : Text} {c : Char} {i : ℕ}

lemma unitsOf_ne_nil (c : Char) : unitsOf c ≠ [] := by
  rw [unitsOf]
  split <;> exact List.cons_ne_nil _ _

lemma utf8EncodeChar_ne_nil (c : Char) : String.utf8EncodeChar c ≠ [] := String.utf8EncodeChar_ne_nil

lemma toNat_scalar (c : Char) : c.toNat < 0xd800 ∨ 0xdfff < c.toNat ∧ c.toNat < 0x110000 := c.valid

lemma unitsOf_eq_gt (h : (unitsOf c)[i]? = some 62) : c = '>' ∧ i = 0 := by
  have hc := toNat_scalar c
  rw [unitsOf] at h
  split at h
  · rename_i hsmall
    cases i with
    | zero =>
      have hunit := congrArg UInt16.toNat (Option.some.inj h)
      rw [Nat.toUInt16_eq, UInt16.toNat_ofNat', Nat.mod_eq_of_lt hsmall] at hunit
      exact ⟨Char.toNat_inj.mp (hunit.trans (by decide)), rfl⟩
    | succ i => cases h
  · rename_i hbig
    have hunit : ∀ {n : ℕ}, n < 0x10000 → 62 < n → n.toUInt16 ≠ 62 := by
      intro n hn hlt he
      have hnat := congrArg UInt16.toNat he
      rw [Nat.toUInt16_eq, UInt16.toNat_ofNat', Nat.mod_eq_of_lt hn] at hnat
      exact absurd hnat hlt.ne'
    rcases i with - | - | i
    · exact absurd (Option.some.inj h) (hunit (by omega) (by omega))
    · exact absurd (Option.some.inj h) (hunit (by omega) (by omega))
    · cases h

lemma utf16_eq_gt (h : (utf16 source)[i]? = some 62) :
    ∃ n, source[n]? = some '>' ∧ i = (utf16 (source.take n)).length := by
  induction source generalizing i with
  | nil => cases h
  | cons c source ih =>
    rw [utf16, List.flatMap_cons, List.getElem?_append] at h
    split at h
    · obtain ⟨rfl, rfl⟩ := unitsOf_eq_gt h
      exact ⟨0, rfl, rfl⟩
    · rename_i hle
      obtain ⟨n, hn, hi⟩ := ih h
      refine ⟨n + 1, hn, ?_⟩
      rw [List.take_succ_cons, utf16, List.flatMap_cons, List.length_append]
      rw [utf16] at hi
      omega

lemma scalars_cons {u : UInt16} (us : Units) (hhigh : ¬ isHighSurrogate u)
    (hlow : ¬ isLowSurrogate u) : scalars (u :: us) = Char.ofNat u.toNat :: scalars us := by
  have hlone : loneUnit u = Char.ofNat u.toNat := if_neg (not_or.mpr ⟨hhigh, hlow⟩)
  cases us with
  | nil => exact congrArg (fun c => [c]) hlone
  | cons v us => rw [scalars, if_neg (fun h => hhigh h.1), hlone]

lemma scalars_utf16 (t : Text) : scalars (utf16 t) = t := by
  induction t with
  | nil => rfl
  | cons c t ih =>
    have hc := toNat_scalar c
    rw [utf16] at ih
    rw [utf16, List.flatMap_cons, unitsOf]
    split
    · rename_i hsmall
      have hunit : c.toNat.toUInt16.toNat = c.toNat := by
        rw [Nat.toUInt16_eq, UInt16.toNat_ofNat', Nat.mod_eq_of_lt hsmall]
      rw [List.singleton_append, scalars_cons, hunit, Char.ofNat_toNat, ih]
      · rw [isHighSurrogate, hunit]
        omega
      · rw [isLowSurrogate, hunit]
        omega
    · rename_i hbig
      have hhigh : (0xd800 + (c.toNat - 0x10000) / 0x400).toUInt16.toNat =
          0xd800 + (c.toNat - 0x10000) / 0x400 := by
        rw [Nat.toUInt16_eq, UInt16.toNat_ofNat', Nat.mod_eq_of_lt (by omega)]
      have hlow : (0xdc00 + (c.toNat - 0x10000) % 0x400).toUInt16.toNat =
          0xdc00 + (c.toNat - 0x10000) % 0x400 := by
        rw [Nat.toUInt16_eq, UInt16.toNat_ofNat', Nat.mod_eq_of_lt (by omega)]
      rw [List.cons_append, List.singleton_append, scalars, if_pos, hhigh, hlow, ih]
      · have hback : 0x10000 + (0xd800 + (c.toNat - 0x10000) / 0x400 - 0xd800) * 0x400 +
            (0xdc00 + (c.toNat - 0x10000) % 0x400 - 0xdc00) = c.toNat := by omega
        rw [hback, Char.ofNat_toNat]
      · rw [isHighSurrogate, isLowSurrogate, hhigh, hlow]
        omega

lemma textEncode_utf16 (t : Text) : textEncode (utf16 t) = utf8 t := by
  rw [textEncode, scalars_utf16]

lemma utf8EncodeChar_head (c : Char) : ∃ b bs, String.utf8EncodeChar c = b :: bs ∧
    (b.toNat < 128 ∨ 192 ≤ b.toNat) := by
  have hc := toNat_scalar c
  have hval : c.val.toNat = c.toNat := rfl
  rw [String.utf8EncodeChar, hval]
  split_ifs with h₁ h₂ h₃
  · refine ⟨_, _, rfl, .inl ?_⟩
    rw [UInt8.toNat_ofNat']
    omega
  all_goals
    refine ⟨_, _, rfl, .inr ?_⟩
    rw [UInt8.toNat_ofNat']
    omega

lemma isCharBoundary_take (t : Text) (n : ℕ) :
    isCharBoundary (utf8 t) (utf8 (t.take n)).length = true := by
  have hsplit : utf8 t = utf8 (t.take n) ++ utf8 (t.drop n) := by
    rw [utf8, utf8, utf8, ← List.flatMap_append, List.take_append_drop]
  rw [isCharBoundary, Bool.or_eq_true, hsplit, List.getElem?_append_right le_rfl, Nat.sub_self]
  right
  cases t.drop n with
  | nil =>
    rw [utf8, List.flatMap_nil, List.append_nil]
    exact decide_eq_true rfl
  | cons c cs =>
    obtain ⟨b, bs, hb, hlead⟩ := utf8EncodeChar_head c
    rw [utf8, List.flatMap_cons, hb]
    simpa using hlead

def Insertions (source : Text) (ps : List (Splice Char)) : Prop :=
  ∀ p ∈ ps, p.stop = p.start ∧ p.Fits source

def written (source : Text) (ps : List (Splice Char)) : List (Splice UInt16) :=
  ps.map (Splice.through unitsOf source)

variable {ps : List (Splice Char)} {edit : Splice UInt16} {edits : List (Splice UInt16)}
  {block : Block} {blocks : List Block} {name : Units} {html : Units} {n : ℕ}

lemma utf16_take_succ (h : source[n]? = some '>') :
    (utf16 (source.take (n + 1))).length = (utf16 (source.take n)).length + 1 := by
  rw [List.take_add_one, h, Option.toList_some, utf16, List.flatMap_append, List.length_append]
  rfl

lemma markerEdit_ok (h : markerEdit (utf16 source) block = .ok edit) :
    ∃ p : Splice Char, (p.stop = p.start ∧ p.Fits source) ∧
      edit = p.through unitsOf source := by
  rw [markerEdit] at h
  split at h
  · rename_i hgt
    obtain ⟨n, hn, hpoint⟩ := utf16_eq_gt hgt.2
    obtain rfl := Except.ok.inj h
    obtain ⟨hlt, -⟩ := List.getElem?_eq_some_iff.mp hn
    rw [hpoint]
    exact ⟨⟨n, n, _⟩, ⟨rfl, le_rfl, hlt.le⟩, rfl⟩
  · cases h

lemma markerEdits_ok (h : markerEdits (utf16 source) blocks = .ok edits) :
    ∃ ps, Insertions source ps ∧ edits = written source ps := by
  induction blocks generalizing edits with
  | nil =>
    obtain rfl := Except.ok.inj h
    exact ⟨[], List.forall_mem_nil _, rfl⟩
  | cons block blocks ih =>
    rw [markerEdits] at h
    split at h
    · cases h
    · rename_i edit hedit
      split at h
      · cases h
      · rename_i edits hedits
        obtain rfl := Except.ok.inj h
        obtain ⟨p, hp, rfl⟩ := markerEdit_ok hedit
        obtain ⟨ps, hps, rfl⟩ := ih hedits
        exact ⟨p :: ps, List.forall_mem_cons.mpr ⟨hp, hps⟩, rfl⟩

lemma tagAt_gt (h : tagAt name html = some n) : 0 < n ∧ html[n - 1]? = some 62 := by
  rw [tagAt] at h
  split at h
  · obtain ⟨i, hi, rfl⟩ := Option.map_eq_some_iff.mp h
    obtain ⟨hlt, hgt, -⟩ := List.findIdx?_eq_some_iff_getElem.mp hi
    refine ⟨by omega, ?_⟩
    rw [Nat.add_sub_assoc (Nat.le_add_left _ _), Nat.add_sub_cancel, ← List.getElem?_drop,
      List.getElem?_eq_getElem hlt, of_decide_eq_true hgt]
  · cases h

lemma firstTag_gt (h : firstTag name html = some n) : 0 < n ∧ html[n - 1]? = some 62 := by
  induction html generalizing n with
  | nil => cases h
  | cons u us ih =>
    rw [firstTag] at h
    split at h
    · rename_i k hk
      obtain rfl := Option.some.inj h
      exact tagAt_gt hk
    · obtain ⟨k, hk, rfl⟩ := Option.map_eq_some_iff.mp h
      obtain ⟨hpos, hgt⟩ := ih hk
      obtain ⟨k, rfl⟩ := Nat.exists_eq_succ_of_ne_zero hpos.ne'
      exact ⟨Nat.succ_pos _, hgt⟩

lemma headAnchorOffset_character (source : Text) : ∃ n ≤ source.length,
    headAnchorOffset (utf16 source) = (utf16 (source.take n)).length := by
  rw [headAnchorOffset]
  cases hfirst : firstTag (utf16 "head".toList) (utf16 source) <|>
      firstTag (utf16 "html".toList) (utf16 source) with
  | none => exact ⟨0, Nat.zero_le _, rfl⟩
  | some point =>
    have hgt : 0 < point ∧ (utf16 source)[point - 1]? = some 62 := by
      rcases (Option.orElse_eq_some _ _ _).mp hfirst with h | ⟨-, h⟩
      · exact firstTag_gt h
      · exact firstTag_gt h
    obtain ⟨n, hn, hpoint⟩ := utf16_eq_gt hgt.2
    obtain ⟨hlt, -⟩ := List.getElem?_eq_some_iff.mp hn
    refine ⟨n + 1, hlt, ?_⟩
    rw [utf16_take_succ hn, ← hpoint, Option.getD_some]
    omega

lemma previewEdits_ok {agentSource token : Text}
    (h : previewEdits agentSource (utf16 source) blocks token = .ok edits) :
    ∃ ps, Insertions source ps ∧ edits = written source ps := by
  rw [previewEdits] at h
  split at h
  · cases h
  · rename_i markers hmarkers
    obtain rfl := Except.ok.inj h
    obtain ⟨ps, hps, rfl⟩ := markerEdits_ok hmarkers
    obtain ⟨n, hn, hpoint⟩ := headAnchorOffset_character source
    refine ⟨ps ++ [⟨n, n, agentScriptTag agentSource token ++ editorStyleTag⟩], ?_, ?_⟩
    · refine List.forall_mem_append.mpr ⟨hps, ?_⟩
      exact List.forall_mem_singleton.mpr ⟨rfl, le_rfl, hn⟩
    · rw [hpoint, written, written, List.map_append]
      rfl

lemma applyEditsFrom_insertions {length limit : ℕ} {out : Units}
    (hdescending : edits.Pairwise (fun p q => q.start ≤ p.start))
    (hinserts : ∀ e ∈ edits, e.stop = e.start ∧ e.start ≤ length)
    (hlimit : ∀ e ∈ edits, e.start ≤ limit) :
    applyEditsFrom length edits limit out = .ok (Splice.applyAll edits out) := by
  induction edits generalizing limit out with
  | nil => rfl
  | cons e edits ih =>
    obtain ⟨hbelow, hrest⟩ := List.pairwise_cons.mp hdescending
    obtain ⟨hstop, hlength⟩ := hinserts e List.mem_cons_self
    have he := hlimit e List.mem_cons_self
    rw [applyEditsFrom, if_neg (by omega), if_neg (by omega)]
    exact ih hrest (fun q hq => hinserts q (List.mem_cons_of_mem _ hq)) hbelow

lemma Insertions.ordered (hps : Insertions source ps) :
    Insertions source (ordered ps) ∧ Splice.Backward (ordered ps) := by
  have hmem : ∀ p ∈ Edit.ordered ps, p.stop = p.start ∧ p.Fits source :=
    fun p hp => hps p ((List.mem_insertionSort _).mp hp)
  have hsorted : (Edit.ordered ps).Pairwise (fun p q => q.start ≤ p.start) :=
    pairwise_insertionSort_key ps
  refine ⟨hmem, hsorted.imp_of_mem (fun {p q} _ hq h => ?_)⟩
  rw [(hmem q hq).1]
  exact h

lemma applyEdits_written (hps : Insertions source ps) :
    applyEdits (utf16 source) (written source ps) =
      .ok (utf16 (Splice.applyAll (ordered ps) source)) := by
  obtain ⟨hinserts, hbackward⟩ := hps.ordered
  have hsort : (written source ps).insertionSort
      (fun a b => b.start < a.start ∨ b.start = a.start ∧ b.stop ≤ a.stop) =
        written source (ordered ps) := by
    refine (List.map_insertionSort _ _ _ _ (fun a ha b hb => ?_)).symm
    obtain ⟨hastop, hafits⟩ := hps a ha
    obtain ⟨hbstop, hbfits⟩ := hps b hb
    rw [← flatMap_take_le_iff unitsOf_ne_nil (hbfits.1.trans hbfits.2)]
    simp only [Splice.through, hastop, hbstop]
    omega
  have hle : ∀ e ∈ written source (ordered ps),
      e.stop = e.start ∧ e.start ≤ (utf16 source).length := by
    intro e he
    obtain ⟨p, hp, rfl⟩ := List.mem_map.mp he
    refine ⟨?_, ?_⟩
    · simp only [Splice.through, (hinserts p hp).1]
    · exact length_flatMap_take_le unitsOf source p.start
  have hdescending : (written source (ordered ps)).Pairwise (fun p q => q.start ≤ p.start) := by
    refine List.pairwise_map.mpr (hbackward.imp_of_mem (fun {p q} hp hq h => ?_))
    obtain ⟨hqstop, hqfits⟩ := hinserts q hq
    exact (flatMap_take_le_iff unitsOf_ne_nil (hqfits.1.trans hqfits.2)).mpr (hqfits.1.trans h)
  rw [applyEdits, hsort, applyEditsFrom_insertions hdescending hle (fun e he => (hle e he).2)]
  exact congrArg Except.ok (Splice.applyAll_through hbackward (fun p hp => (hinserts p hp).2))

def pointOf (source : Text) (p : Splice Char) : ℕ × List UInt8 :=
  ((utf8 (source.take p.start)).length, utf8 p.text)

lemma insertsFrom_written {m : ℕ} (hascending : ps.Pairwise (fun p q => p.start ≤ q.start))
    (hm : ∀ p ∈ ps, m ≤ p.start) :
    (insertsFrom (utf16 source) (utf16 (source.take m)).length (utf8 (source.take m)).length
      (written source ps)).map Insert.received = ps.map (pointOf source) := by
  induction ps generalizing m with
  | nil => rfl
  | cons p ps ih =>
    obtain ⟨habove, hrest⟩ := List.pairwise_cons.mp hascending
    have hle := hm p List.mem_cons_self
    have hslice : slice (utf16 source) (utf16 (source.take m)).length
        (p.through unitsOf source).start = utf16 (slice source m p.start) :=
      slice_flatMap unitsOf source hle
    have hnext : (utf8 (source.take m)).length + (utf8 (slice source m p.start)).length =
        (utf8 (source.take p.start)).length := by
      rw [utf8, utf8, utf8, flatMap_take_of_le _ source hle, List.length_append]
    rw [written, List.map_cons, insertsFrom, hslice, textEncode_utf16, hnext, List.map_cons,
      List.map_cons]
    have hfirst : Insert.received ⟨(utf8 (source.take p.start)).length,
        (p.through unitsOf source).text⟩ = pointOf source p :=
      congrArg (Prod.mk _) (textEncode_utf16 p.text)
    rw [hfirst]
    exact congrArg _ (ih hrest habove)

example : (insertsFrom (utf16 "<p>한글</p><p>x</p>".toList) 0 0
    [insertion 2 [], insertion 11 []]).map Insert.point = [2, 15] := by decide

lemma insertPoints_insertions {l : Text} (hps : Insertions l ps) (hbackward : Splice.Backward ps) :
    insertPoints (ps.map (pointOf l)) (utf8 l) = .ok (utf8 (Splice.applyAll ps l)) := by
  induction ps generalizing l with
  | nil => rfl
  | cons p ps ih =>
    obtain ⟨hbelow, hrest⟩ := List.pairwise_cons.mp hbackward
    obtain ⟨hp, hps⟩ := List.forall_mem_cons.mp hps
    have happly : (utf8 l).take (utf8 (l.take p.start)).length ++ utf8 p.text ++
        (utf8 l).drop (utf8 (l.take p.start)).length = utf8 (p.apply l) := by
      have h := Splice.apply_through (f := String.utf8EncodeChar) p l
      rwa [Splice.apply, Splice.through, hp.1] at h
    have hsame : ps.map (pointOf l) = ps.map (pointOf (p.apply l)) := by
      refine List.map_congr_left (fun q hq => ?_)
      rw [pointOf, pointOf, Splice.take_apply hp.2 ((hps q hq).2.1.trans (hbelow q hq))]
    have hlength : ¬ (utf8 l).length < (utf8 (l.take p.start)).length :=
      not_lt.mpr (length_flatMap_take_le String.utf8EncodeChar l p.start)
    have hboundary : ¬ isCharBoundary (utf8 l) (utf8 (l.take p.start)).length = false := by
      rw [isCharBoundary_take]
      exact Bool.noConfusion
    rw [List.map_cons, pointOf, insertPoints, if_neg (not_or.mpr ⟨hlength, hboundary⟩), happly,
      hsame]
    exact ih (fun q hq => ⟨(hps q hq).1,
      Splice.fits_apply_le hp.2 (hps q hq).2 (hbelow q hq)⟩) hrest

lemma applyInserts_written (hps : Insertions source ps) :
    applyInserts (utf8 source) ((insertsFrom (utf16 source) 0 0
      ((written source ps).insertionSort (fun a b => a.start ≤ b.start))).map Insert.received) =
        .ok (utf8 (Splice.applyAll (ordered ps) source)) := by
  have hsort : (written source ps).insertionSort (fun a b => a.start ≤ b.start) =
      written source (ps.insertionSort (fun a b => a.start ≤ b.start)) := by
    refine (List.map_insertionSort _ _ _ _ (fun a ha b hb => ?_)).symm
    exact (flatMap_take_le_iff unitsOf_ne_nil ((hps a ha).2.1.trans (hps a ha).2.2)).symm
  have hascending : (ps.insertionSort (fun a b => a.start ≤ b.start)).Pairwise
      (fun p q => p.start ≤ q.start) := by
    have : Std.Total (fun p q : Splice Char => p.start ≤ q.start) := ⟨fun p q => le_total _ _⟩
    have : IsTrans (Splice Char) (fun p q => p.start ≤ q.start) := ⟨fun _ _ _ h g => h.trans g⟩
    exact List.pairwise_insertionSort _ ps
  have hback : ((ps.insertionSort (fun a b => a.start ≤ b.start)).map (pointOf source)).insertionSort
      (fun p q => q.1 ≤ p.1) = (ordered ps).map (pointOf source) := by
    rw [ordered, ← insertionSort_insertionSort ps]
    refine (List.map_insertionSort _ _ _ _ (fun a _ b hb => ?_)).symm
    have hfits := (hps b ((List.mem_insertionSort _).mp hb)).2
    exact (flatMap_take_le_iff utf8EncodeChar_ne_nil (hfits.1.trans hfits.2)).symm
  have hinserts : (insertsFrom (utf16 source) 0 0
      (written source (ps.insertionSort (fun a b => a.start ≤ b.start)))).map Insert.received =
        (ps.insertionSort (fun a b => a.start ≤ b.start)).map (pointOf source) :=
    insertsFrom_written (m := 0) hascending (fun p _ => Nat.zero_le _)
  obtain ⟨hordered, hbackward⟩ := hps.ordered
  rw [hsort, applyInserts, hinserts, hback]
  exact insertPoints_insertions hordered hbackward

lemma markerEdits_iff : (∃ edits, markerEdits html blocks = .ok edits) ↔
    ∀ b ∈ blocks, 0 < b.innerStart ∧ html[b.innerStart - 1]? = some 62 := by
  induction blocks with
  | nil => exact ⟨fun _ => List.forall_mem_nil _, fun _ => ⟨[], rfl⟩⟩
  | cons block blocks ih =>
    rw [List.forall_mem_cons, ← ih, markerEdits, markerEdit]
    split_ifs with hgt
    · refine ⟨fun ⟨edits, h⟩ => ⟨hgt, ?_⟩, fun ⟨_, edits, h⟩ => ?_⟩
      · dsimp only at h
        split at h
        · cases h
        · rename_i rest hrest
          exact ⟨rest, hrest⟩
      · rw [h]
        exact ⟨_, rfl⟩
    · exact ⟨fun ⟨edits, h⟩ => (nomatch h), fun h => absurd h.1 hgt⟩

lemma previewInserts_iff (agentSource token : Text) :
    (∃ inserts, previewInserts agentSource html blocks token = .ok inserts) ↔
      ∀ b ∈ blocks, 0 < b.innerStart ∧ html[b.innerStart - 1]? = some 62 := by
  rw [← markerEdits_iff, previewInserts, previewEdits]
  cases markerEdits html blocks with
  | error e => exact ⟨fun ⟨_, h⟩ => (nomatch h), fun ⟨_, h⟩ => (nomatch h)⟩
  | ok edits => exact ⟨fun _ => ⟨edits, rfl⟩, fun _ => ⟨_, rfl⟩⟩

lemma preview_matches {agentSource token : Text} {inserts : List Insert}
    (h : previewInserts agentSource (utf16 source) blocks token = .ok inserts) :
    ∃ document, buildPreviewDocument agentSource (utf16 source) blocks token = .ok document ∧
      applyInserts (utf8 source) (inserts.map Insert.received) = .ok (textEncode document) := by
  rw [previewInserts] at h
  split at h
  · cases h
  · rename_i edits hedits
    obtain rfl := Except.ok.inj h
    obtain ⟨ps, hps, rfl⟩ := previewEdits_ok hedits
    refine ⟨utf16 (Splice.applyAll (ordered ps) source), ?_, ?_⟩
    · rw [buildPreviewDocument, hedits]
      exact applyEdits_written hps
    · rw [textEncode_utf16]
      exact applyInserts_written hps

lemma inUnits_closed {b : Block} (hb : 0 < b.innerStart)
    (hgt : source[b.innerStart - 1]? = some '>') :
    0 < (b.inUnits source).innerStart ∧
      (utf16 source)[(b.inUnits source).innerStart - 1]? = some 62 := by
  obtain ⟨n, hn⟩ := Nat.exists_eq_succ_of_ne_zero hb.ne'
  rw [hn, Nat.succ_sub_one] at hgt
  have hpoint : (b.inUnits source).innerStart = (utf16 (source.take n)).length + 1 := by
    rw [Block.inUnits, hn]
    exact utf16_take_succ hgt
  refine ⟨hpoint ▸ Nat.succ_pos _, ?_⟩
  rw [hpoint, Nat.add_sub_cancel, utf16, ← List.head?_drop, utf16, drop_flatMap]
  obtain ⟨hlt, hget⟩ := List.getElem?_eq_some_iff.mp hgt
  rw [List.drop_eq_getElem_cons hlt, hget]
  rfl

end

section

variable {parse : Text → Node} {encode : Text → Text} {source current out : Text}
  {blocks : List Block} {patch : Patch} {patches : List Patch} {p : Splice Char}
  {ps : List (Splice Char)}

/-- The id of the patch is known, and its block neither locked nor stale. -/
def Takes (source : Text) (blocks : List Block) (patch : Patch) : Prop :=
  ∃ block ∈ blocks, block.id = patch.id ∧ block.locked = none ∧
    slice source block.innerStart block.innerEnd = block.sourceInner

def replacements (encode : Text → Text) (blocks : List Block) (patches : List Patch) :
    List (Splice Char) :=
  blocks.filterMap (fun b => (patchOf patches b.id).map (fun html =>
    ⟨b.innerStart, b.innerEnd, if b.rcdata then encode html else html⟩))

lemma parseBlocks_ids (parse : Text → Node) (source : Text) :
    ((parseBlocks parse source).map Block.id).Nodup := by
  refine List.pairwise_map.mpr (List.pairwise_iff_getElem.mpr (fun i j hi hj hlt => ?_))
  have hid : ∀ {k : ℕ} (hk : k < (parseBlocks parse source).length),
      ((parseBlocks parse source)[k]).id = k := fun hk => by
    simp only [parseBlocks, List.getElem_mapIdx]
  rw [hid, hid]
  exact hlt.ne

lemma find?_block (hids : (blocks.map Block.id).Nodup) {b : Block} (hb : b ∈ blocks) :
    blocks.find? (fun c => c.id = b.id) = some b := by
  cases hfind : blocks.find? (fun c => c.id = b.id) with
  | none => exact absurd (decide_eq_true rfl) (List.find?_eq_none.mp hfind b hb)
  | some c =>
    have hfound := List.find?_some hfind
    have hid : c.id = b.id := of_decide_eq_true hfound
    rw [List.inj_on_of_nodup_map hids (List.mem_of_find?_eq_some hfind) hb hid]

lemma target_block (ht : target encode current blocks patch = .ok p) :
    ∃ b ∈ blocks, b.id = patch.id ∧ b.locked = none ∧
      slice current b.innerStart b.innerEnd = b.sourceInner ∧
      p = ⟨b.innerStart, b.innerEnd,
        if b.rcdata then encode patch.newInnerHtml else patch.newInnerHtml⟩ := by
  rw [target] at ht
  split at ht
  · cases ht
  · rename_i b hb
    split at ht
    · cases ht
    · rename_i hopen
      split at ht
      · cases ht
      · rename_i hfresh
        have hfound := List.find?_some hb
        exact ⟨b, List.mem_of_find?_eq_some hb, of_decide_eq_true hfound, not_not.mp hopen,
          not_not.mp hfresh, (Except.ok.inj ht).symm⟩

lemma target_iff (hids : (blocks.map Block.id).Nodup) :
    (∃ p, target encode current blocks patch = .ok p) ↔ Takes current blocks patch := by
  constructor
  · rintro ⟨p, hp⟩
    obtain ⟨b, hb, hid, hopen, hfresh, -⟩ := target_block hp
    exact ⟨b, hb, hid, hopen, hfresh⟩
  · rintro ⟨block, hblock, hid, hopen, hfresh⟩
    rw [target, ← hid, find?_block hids hblock]
    dsimp only
    rw [if_neg (not_not.mpr hopen), if_neg (not_not.mpr hfresh)]
    exact ⟨_, rfl⟩

lemma targets_iff : (∃ ps, targets encode current blocks patches = .ok ps) ↔
    ∀ patch ∈ patches, ∃ p, target encode current blocks patch = .ok p := by
  induction patches with
  | nil => exact ⟨fun _ => List.forall_mem_nil _, fun _ => ⟨[], rfl⟩⟩
  | cons patch patches ih =>
    rw [List.forall_mem_cons, ← ih, targets]
    cases target encode current blocks patch with
    | error e =>
      constructor
      · rintro ⟨_, h⟩
        cases h
      · rintro ⟨⟨_, h⟩, -⟩
        cases h
    | ok p =>
      dsimp only
      cases targets encode current blocks patches with
      | error e =>
        constructor
        · rintro ⟨_, h⟩
          cases h
        · rintro ⟨-, _, h⟩
          cases h
      | ok ps => exact ⟨fun _ => ⟨⟨p, rfl⟩, ps, rfl⟩, fun _ => ⟨_, rfl⟩⟩

lemma applyPatches_iff (hids : (blocks.map Block.id).Nodup) :
    (∃ out, applyPatches encode current blocks patches = .ok out) ↔
      (∀ patch ∈ patches, Takes current blocks patch) ∧ (patches.map Patch.id).Nodup := by
  have htakes : (∀ patch ∈ patches, Takes current blocks patch) ↔
      ∃ ps, targets encode current blocks patches = .ok ps := by
    rw [targets_iff]
    exact forall₂_congr (fun patch _ => (target_iff hids).symm)
  rw [htakes, applyPatches]
  cases targets encode current blocks patches with
  | error e =>
    constructor
    · rintro ⟨_, h⟩
      cases h
    · rintro ⟨⟨_, h⟩, -⟩
      cases h
  | ok ps =>
    dsimp only
    split_ifs with hnodup
    · exact ⟨fun _ => ⟨⟨ps, rfl⟩, hnodup⟩, fun _ => ⟨_, rfl⟩⟩
    · refine ⟨fun h => ?_, fun h => absurd h.2 hnodup⟩
      obtain ⟨_, h⟩ := h
      cases h

lemma patchOf_some {id : ℕ} {html : Text} (h : patchOf patches id = some html) :
    ∃ patch ∈ patches, patch.id = id ∧ patch.newInnerHtml = html := by
  obtain ⟨patch, hfind, hhtml⟩ := Option.map_eq_some_iff.mp h
  have hfound := List.find?_some hfind
  exact ⟨patch, List.mem_of_find?_eq_some hfind, of_decide_eq_true hfound, hhtml⟩

lemma patchOf_perm {patches' : List Patch} (hperm : patches'.Perm patches)
    (hnodup : (patches.map Patch.id).Nodup) (id : ℕ) :
    patchOf patches' id = patchOf patches id := by
  have hnodup' : (patches'.map Patch.id).Nodup := (hperm.map Patch.id).nodup_iff.mpr hnodup
  cases h : patchOf patches id with
  | some html =>
    obtain ⟨patch, hmem, rfl, rfl⟩ := patchOf_some h
    exact World.patchOf_mem hnodup' (hperm.mem_iff.mpr hmem)
  | none =>
    cases h' : patchOf patches' id with
    | none => rfl
    | some html =>
      obtain ⟨patch, hmem, rfl, rfl⟩ := patchOf_some h'
      rw [World.patchOf_mem hnodup (hperm.mem_iff.mp hmem)] at h
      cases h

lemma parseBlocks_inner {b : Block} (hb : b ∈ parseBlocks parse source) :
    b.sourceInner = slice source b.innerStart b.innerEnd := by
  obtain ⟨v, hv, hbv⟩ := mem_parseBlocks hb
  rw [hbv]
  exact visit_inner _ v (List.mem_of_getElem? hv)

lemma parseBlocks_descending (hn : Nests parse) (source : Text) :
    (parseBlocks parse source).Pairwise (fun b c => b.innerEnd < c.innerStart) := by
  refine List.pairwise_iff_getElem.mpr (fun i j hi hj hlt => ?_)
  refine parseBlocks_apart hn (List.getElem_mem hi) (List.getElem_mem hj) ?_
  simp only [parseBlocks, List.getElem_mapIdx]
  exact hlt

lemma mem_replacements (hids : (blocks.map Block.id).Nodup)
    (hnodup : (patches.map Patch.id).Nodup)
    (ht : targets encode current blocks patches = .ok ps) :
    p ∈ replacements encode blocks patches ↔ p ∈ ps := by
  let h : Host := { source := current, baseHash := "", blocks }
  rw [replacements, List.mem_filterMap]
  constructor
  · rintro ⟨b, hb, hp⟩
    obtain ⟨html, hpatch, rfl⟩ := Option.map_eq_some_iff.mp hp
    obtain ⟨patch, hmem, hid, rfl⟩ := patchOf_some hpatch
    obtain ⟨q, hq, htarget⟩ := Host.targets_mem (h := h) ht hmem
    obtain ⟨c, hc, hcid, -, -, rfl⟩ := target_block htarget
    obtain rfl := List.inj_on_of_nodup_map hids hc hb (hcid.trans hid)
    exact hq
  · intro hp
    obtain ⟨patch, hmem, htarget⟩ := Host.mem_targets (h := h) ht hp
    obtain ⟨b, hb, hid, -, -, rfl⟩ := target_block htarget
    refine ⟨b, hb, ?_⟩
    rw [hid, World.patchOf_mem hnodup hmem]
    rfl

lemma applyPatches_eq_weave (hn : Nests parse)
    (hout : applyPatches encode source (parseBlocks parse source) patches = .ok out) :
    out = Splice.weave source 0 (replacements encode (parseBlocks parse source) patches) := by
  let h : Host := { source, baseHash := "", blocks := parseBlocks parse source }
  obtain ⟨ps, hps, hnodup, rfl⟩ := Host.applyPatches_ok (h := h) hout
  have hids := parseBlocks_ids parse source
  have hfits : ∀ p ∈ ps, p.Fits source := by
    intro p hp
    obtain ⟨patch, -, htarget⟩ := Host.mem_targets (h := h) hps hp
    obtain ⟨b, hb, -, -, -, rfl⟩ := target_block htarget
    have hinside := parseBlocks_inside hn hb
    exact ⟨hinside.ordered, hinside.upper⟩
  have hdescending : Splice.Descending (ordered ps) := by
    refine Marked.ordered_descending (fun p hp => (hfits p hp).1)
      (Marked.targets_apart (h := h) hn (fun {patch p} htarget => ?_) hnodup hps)
    obtain ⟨b, hb, hid, -, -, rfl⟩ := target_block htarget
    exact ⟨b, hb, hid, rfl, rfl⟩
  have hreverse : Splice.Descending (replacements encode (parseBlocks parse source) patches).reverse := by
    refine List.pairwise_reverse.mpr (List.pairwise_filterMap.mpr ?_)
    refine (parseBlocks_descending hn source).imp (fun {b c} hlt p hp q hq => ?_)
    obtain ⟨_, -, rfl⟩ := Option.map_eq_some_iff.mp hp
    obtain ⟨_, -, rfl⟩ := Option.map_eq_some_iff.mp hq
    exact hlt
  have hsame : ordered ps = (replacements encode (parseBlocks parse source) patches).reverse := by
    refine hdescending.eq_of_mem_iff hreverse
      (fun p hp => (hfits p ((List.mem_insertionSort _).mp hp)).1) (fun p => ?_)
    rw [List.mem_reverse, mem_replacements hids hnodup hps]
    exact List.mem_insertionSort _
  rw [Splice.applyAll_eq_weave hdescending.backward
    (fun p hp => hfits p ((List.mem_insertionSort _).mp hp)), hsame, List.reverse_reverse]

lemma applyPatches_perm (hn : Nests parse) {patches' : List Patch}
    (hperm : patches'.Perm patches)
    (hout : applyPatches encode source (parseBlocks parse source) patches = .ok out) :
    applyPatches encode source (parseBlocks parse source) patches' = .ok out := by
  have hids := parseBlocks_ids parse source
  obtain ⟨htakes, hnodup⟩ := (applyPatches_iff hids).mp ⟨out, hout⟩
  obtain ⟨out', hout'⟩ : ∃ out',
      applyPatches encode source (parseBlocks parse source) patches' = .ok out' :=
    (applyPatches_iff hids).mpr ⟨fun patch hp => htakes patch (hperm.mem_iff.mp hp),
      (hperm.map Patch.id).nodup_iff.mpr hnodup⟩
  have hsame : replacements encode (parseBlocks parse source) patches' =
      replacements encode (parseBlocks parse source) patches := by
    simp only [replacements, patchOf_perm hperm hnodup]
  rw [hout', applyPatches_eq_weave hn hout', applyPatches_eq_weave hn hout, hsame]

/-- An edit changes the ranges of its blocks and nothing else, and the server splices the preview
the page would. -/
theorem edits_change_only_their_ranges (parse : Text → Node) (encode : Text → Text)
    (hn : Nests parse) (source : Text) :
    (((parseBlocks parse source).map Block.id).Nodup ∧
      (parseBlocks parse source).Pairwise (fun b c => b.innerEnd ≤ c.innerStart) ∧
      ∀ b ∈ parseBlocks parse source, b.innerStart ≤ b.innerEnd ∧ b.innerEnd ≤ source.length ∧
        slice source b.innerStart b.innerEnd = b.sourceInner ∧
        slice (utf16 source) (b.inUnits source).innerStart (b.inUnits source).innerEnd =
          utf16 b.sourceInner) ∧
    (∀ (current : Text) (patches : List Patch),
      (∃ out, applyPatches encode current (parseBlocks parse source) patches = .ok out) ↔
        (∀ patch ∈ patches, Takes current (parseBlocks parse source) patch) ∧
          (patches.map Patch.id).Nodup) ∧
    (∀ (patches : List Patch) (out : Text),
      applyPatches encode source (parseBlocks parse source) patches = .ok out →
        out = Splice.weave source 0 (replacements encode (parseBlocks parse source) patches) ∧
        ∀ patches' : List Patch, patches'.Perm patches →
          applyPatches encode source (parseBlocks parse source) patches' = .ok out) ∧
    (∀ (agentSource token : Text) (blocks : List Block),
      ((∃ inserts, previewInserts agentSource (utf16 source) blocks token = .ok inserts) ↔
        ∀ b ∈ blocks, 0 < b.innerStart ∧ (utf16 source)[b.innerStart - 1]? = some 62) ∧
      ∀ inserts, previewInserts agentSource (utf16 source) blocks token = .ok inserts →
        ∃ document, buildPreviewDocument agentSource (utf16 source) blocks token = .ok document ∧
          applyInserts (utf8 source) (inserts.map Insert.received) = .ok (textEncode document)) ∧
    ((∀ b ∈ parseBlocks parse source, source[b.innerStart - 1]? = some '>') →
      ∀ agentSource token : Text, ∃ inserts, previewInserts agentSource (utf16 source)
        ((parseBlocks parse source).map (Block.inUnits source)) token = .ok inserts) := by
  have hids := parseBlocks_ids parse source
  refine ⟨⟨hids, (parseBlocks_descending hn source).imp Nat.le_of_lt, fun b hb => ?_⟩,
    fun current patches => applyPatches_iff hids,
    fun patches out hout => ⟨applyPatches_eq_weave hn hout, fun patches' hperm =>
      applyPatches_perm hn hperm hout⟩,
    fun agentSource token blocks => ⟨previewInserts_iff agentSource token, fun inserts h =>
      preview_matches h⟩,
    fun hclosed agentSource token => ?_⟩
  · have hinside := parseBlocks_inside hn hb
    have hinner := (parseBlocks_inner hb).symm
    refine ⟨hinside.ordered, hinside.upper, hinner, ?_⟩
    exact (slice_flatMap unitsOf source hinside.ordered).trans (congrArg utf16 hinner)
  · refine (previewInserts_iff agentSource token).mpr (fun c hc => ?_)
    obtain ⟨b, hb, rfl⟩ := List.mem_map.mp hc
    exact inUnits_closed (Nat.zero_lt_of_lt (parseBlocks_inside hn hb).lower) (hclosed b hb)

theorem edits_change_only_their_ranges_paragraphs : ∃ inserts, previewInserts
    "f".toList (utf16 "<p>a</p><p>b</p>".toList)
    ((parseBlocks Marked.parseParagraphs "<p>a</p><p>b</p>".toList).map
      (Block.inUnits "<p>a</p><p>b</p>".toList)) "t".toList = .ok inserts :=
  (edits_change_only_their_ranges Marked.parseParagraphs World.escapeText
    Marked.parseParagraphs_nests "<p>a</p><p>b</p>".toList).2.2.2.2 (by decide) _ _

end

end Nightcrow.Page.Edit
