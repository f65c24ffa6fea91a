import Mathlib

namespace Nightcrow.Library.EventStream

def lf : UInt8 := 10

def cr : UInt8 := 13

def utf8 (s : String) : List UInt8 := s.toList.flatMap String.utf8EncodeChar

structure Event where
  id : List UInt8
  name : List UInt8
  data : List UInt8
deriving DecidableEq

structure Buffers where
  id : List UInt8 := []
  name : List UInt8 := []
  data : List UInt8 := []

def linesFrom (afterCr : Bool) (line : List UInt8) : List UInt8 → List (List UInt8)
  | [] => []
  | b :: bytes =>
    if b = lf then
      if afterCr then linesFrom false line bytes else line :: linesFrom false [] bytes
    else if b = cr then line :: linesFrom true [] bytes
    else linesFrom false (line ++ [b]) bytes

def lines (bytes : List UInt8) : List (List UInt8) := linesFrom false [] bytes

def field (s : Buffers) (name value : List UInt8) : Buffers :=
  if name = utf8 "event" then { s with name := value }
  else if name = utf8 "data" then { s with data := s.data ++ value ++ [lf] }
  else if name = utf8 "id" then if 0 ∈ value then s else { s with id := value }
  else s

def dropSpace : List UInt8 → List UInt8
  | [] => []
  | b :: value => if b = 32 then value else b :: value

def read (s : Buffers) (line : List UInt8) : Buffers :=
  field s (line.takeWhile (· ≠ 58)) (dropSpace (line.dropWhile (· ≠ 58)).tail)

def dispatch (s : Buffers) : Option Event :=
  if s.data = [] then none
  else some ⟨s.id, if s.name = [] then utf8 "message" else s.name, s.data.dropLast⟩

def step (s : Buffers) (line : List UInt8) : Buffers × Option Event :=
  if line = [] then ({ s with name := [], data := [] }, dispatch s) else (read s line, none)

def after (s : Buffers) (ls : List (List UInt8)) : Buffers :=
  ls.foldl (fun s line => (step s line).1) s

def eventsFrom (s : Buffers) : List (List UInt8) → List Event
  | [] => []
  | line :: ls => (step s line).2.toList ++ eventsFrom (step s line).1 ls

def parse (bytes : List UInt8) : List Event := eventsFrom {} (lines bytes)

def readLfFrom (afterCr : Bool) : List UInt8 → List UInt8
  | [] => []
  | b :: bytes =>
    if b = lf then if afterCr then readLfFrom false bytes else lf :: readLfFrom false bytes
    else if b = cr then lf :: readLfFrom true bytes
    else b :: readLfFrom false bytes

def readLf (text : List UInt8) : List UInt8 := readLfFrom false text

variable {s : Buffers} {line bytes more p q : List UInt8} {ls ls' : List (List UInt8)} {b : UInt8}
  {afterCr : Bool}

def Plain (line : List UInt8) : Prop := lf ∉ line ∧ cr ∉ line

instance : DecidablePred Plain :=
  fun line => inferInstanceAs (Decidable (lf ∉ line ∧ cr ∉ line))

lemma linesFrom_plain (h : Plain bytes) (hne : bytes ≠ []) (more : List UInt8) :
    linesFrom afterCr line (bytes ++ more) = linesFrom false (line ++ bytes) more := by
  induction bytes generalizing afterCr line with
  | nil => exact absurd rfl hne
  | cons b bytes ih =>
    have hlf : b ≠ lf := fun he => h.1 (he ▸ List.mem_cons_self)
    have hcr : b ≠ cr := fun he => h.2 (he ▸ List.mem_cons_self)
    rw [List.cons_append, linesFrom, if_neg hlf, if_neg hcr]
    by_cases hrest : bytes = []
    · rw [hrest]
      rfl
    · rw [ih ⟨fun hm => h.1 (List.mem_cons_of_mem _ hm), fun hm => h.2 (List.mem_cons_of_mem _ hm)⟩
        hrest, List.append_assoc]
      rfl

lemma lines_line (h : Plain line) (more : List UInt8) :
    lines (line ++ lf :: more) = line :: lines more := by
  rw [lines]
  by_cases hne : line = []
  · rw [hne]
    rfl
  · rw [linesFrom_plain h hne, List.nil_append, linesFrom, if_pos rfl]
    rfl

lemma lines_flatMap (h : ∀ line ∈ ls, Plain line) (more : List UInt8) :
    lines (ls.flatMap (· ++ [lf]) ++ more) = ls ++ lines more := by
  induction ls with
  | nil => rfl
  | cons line ls ih =>
    obtain ⟨hline, hls⟩ := List.forall_mem_cons.mp h
    rw [List.flatMap_cons, List.append_assoc, List.append_assoc, List.singleton_append,
      lines_line hline, ih hls, List.cons_append]

lemma linesFrom_prefix (bytes more : List UInt8) :
    linesFrom afterCr line bytes <+: linesFrom afterCr line (bytes ++ more) := by
  induction bytes generalizing afterCr line with
  | nil => exact List.nil_prefix
  | cons b bytes ih =>
    rw [List.cons_append, linesFrom, linesFrom]
    split_ifs
    · exact ih
    · exact List.cons_prefix_cons.mpr ⟨rfl, ih⟩
    · exact List.cons_prefix_cons.mpr ⟨rfl, ih⟩
    · exact ih

lemma eventsFrom_append (s : Buffers) (ls ls' : List (List UInt8)) :
    eventsFrom s (ls ++ ls') = eventsFrom s ls ++ eventsFrom (after s ls) ls' := by
  induction ls generalizing s with
  | nil => rfl
  | cons line ls ih =>
    rw [List.cons_append, eventsFrom, eventsFrom, ih, List.append_assoc]
    rfl

lemma after_append (s : Buffers) (ls ls' : List (List UInt8)) :
    after s (ls ++ ls') = after (after s ls) ls' := List.foldl_append

lemma parse_prefix (h : p <+: q) : parse p <+: parse q := by
  obtain ⟨more, rfl⟩ := h
  obtain ⟨ls, hls⟩ : lines p <+: lines (p ++ more) := linesFrom_prefix p more
  rw [parse, parse, ← hls, eventsFrom_append]
  exact List.prefix_append _ _

lemma read_field (name value : List UInt8) (h : 58 ∉ name) :
    read s (name ++ 58 :: 32 :: value) = field s name value := by
  have hne : ∀ b ∈ name, (decide (b ≠ 58)) = true :=
    fun b hb => decide_eq_true (fun he => h (he ▸ hb))
  rw [read, List.takeWhile_append_of_pos hne, List.dropWhile_append_of_pos hne]
  simp [dropSpace]

lemma readLf_cons (h : b = cr → bytes.head? ≠ some lf) :
    readLf (b :: bytes) = (if b = lf ∨ b = cr then lf else b) :: readLf bytes := by
  rw [readLf, readLfFrom]
  by_cases hlf : b = lf
  · rw [if_pos hlf, if_neg Bool.false_ne_true, if_pos (Or.inl hlf)]
    rfl
  · by_cases hcr : b = cr
    · rw [if_neg hlf, if_pos hcr, if_pos (Or.inr hcr)]
      cases bytes with
      | nil => rfl
      | cons c bytes =>
        have hc : c ≠ lf := fun he => h hcr (congrArg some he)
        rw [readLf, readLfFrom, readLfFrom, if_neg hc, if_neg hc]
    · rw [if_neg hlf, if_neg hcr, if_neg (not_or.mpr ⟨hlf, hcr⟩)]
      rfl

def Idle (s : Buffers) : Prop := s.name = [] ∧ s.data = []

structure Block (ls : List (List UInt8)) (events : List Event) : Prop where
  plain : ∀ line ∈ ls, Plain line
  dispatched : ∀ s, Idle s → eventsFrom s ls = events
  idle : ∀ s, Idle s → Idle (after s ls)

variable {events events' : List Event}

lemma Block.nil : Block [] [] :=
  ⟨fun _ h => (nomatch h), fun _ _ => rfl, fun _ h => h⟩

lemma Block.append (h : Block ls events) (h' : Block ls' events') :
    Block (ls ++ ls') (events ++ events') where
  plain line hmem := (List.mem_append.mp hmem).elim (h.plain line) (h'.plain line)
  dispatched s hs := by rw [eventsFrom_append, h.dispatched s hs, h'.dispatched _ (h.idle s hs)]
  idle s hs := by
    rw [after_append]
    exact h'.idle _ (h.idle s hs)

lemma Block.parse (h : Block ls events) : parse (ls.flatMap (· ++ [lf])) = events := by
  have hlines := lines_flatMap h.plain []
  rw [List.append_nil] at hlines
  rw [EventStream.parse, hlines]
  exact (congrArg _ (List.append_nil _)).trans (h.dispatched _ ⟨rfl, rfl⟩)

lemma eventsFrom_of_ne_nil (h : ∀ line ∈ ls, line ≠ []) : eventsFrom s ls = [] := by
  induction ls generalizing s with
  | nil => rfl
  | cons line ls ih =>
    obtain ⟨hline, hls⟩ := List.forall_mem_cons.mp h
    rw [eventsFrom, step, if_neg hline, ih hls]
    rfl

lemma eventsFrom_dispatch (h : ∀ line ∈ ls, line ≠ []) :
    eventsFrom s (ls ++ [[]]) = (dispatch (after s ls)).toList := by
  rw [eventsFrom_append, eventsFrom_of_ne_nil h]
  exact List.append_nil _

lemma idle_after (ls : List (List UInt8)) : Idle (after s (ls ++ [[]])) := by
  rw [after_append]
  exact ⟨rfl, rfl⟩

lemma plain_block (h : ∀ line ∈ ls, Plain line) : ∀ line ∈ ls ++ [[]], Plain line := by
  intro line hline
  rcases List.mem_append.mp hline with hline | hline
  · exact h line hline
  · rw [List.mem_singleton.mp hline]
    exact ⟨List.not_mem_nil, List.not_mem_nil⟩

lemma Block.comment (hline : Plain line) (hcolon : line.head? = some 58) :
    Block ([line] ++ [[]]) [] where
  plain := plain_block (List.forall_mem_singleton.mpr hline)
  dispatched s hs := by
    obtain ⟨bytes, rfl⟩ := List.head?_eq_some_iff.mp hcolon
    rw [eventsFrom_dispatch (List.forall_mem_singleton.mpr (List.cons_ne_nil _ _))]
    exact congrArg Option.toList (if_pos hs.2)
  idle s _ := idle_after _

lemma step_event (s : Buffers) (name : List UInt8) :
    (step s (utf8 "event: " ++ name)).1 = { s with name := name } := by
  have hline : utf8 "event: " ++ name = utf8 "event" ++ 58 :: 32 :: name := rfl
  rw [hline, step, if_neg (List.append_ne_nil_of_left_ne_nil (by decide) _),
    read_field _ _ (by decide), field, if_pos rfl]

lemma step_data (s : Buffers) (value : List UInt8) :
    (step s (utf8 "data: " ++ value)).1 = { s with data := s.data ++ (value ++ [lf]) } := by
  have hline : utf8 "data: " ++ value = utf8 "data" ++ 58 :: 32 :: value := rfl
  rw [hline, step, if_neg (List.append_ne_nil_of_left_ne_nil (by decide) _),
    read_field _ _ (by decide), field, if_neg (by decide), if_pos rfl, List.append_assoc]

lemma step_id (s : Buffers) {value : List UInt8} (h : 0 ∉ value) :
    (step s (utf8 "id: " ++ value)).1 = { s with id := value } := by
  have hline : utf8 "id: " ++ value = utf8 "id" ++ 58 :: 32 :: value := rfl
  rw [hline, step, if_neg (List.append_ne_nil_of_left_ne_nil (by decide) _),
    read_field _ _ (by decide), field, if_neg (by decide), if_neg (by decide), if_pos rfl, if_neg h]

lemma after_data (s : Buffers) (datas : List (List UInt8)) :
    after s (datas.map (utf8 "data: " ++ ·)) =
      { s with data := s.data ++ datas.flatMap (· ++ [lf]) } := by
  induction datas generalizing s with
  | nil => exact congrArg (fun data => ({ s with data } : Buffers)) (List.append_nil _).symm
  | cons value datas ih =>
    have hstep := ih (step s (utf8 "data: " ++ value)).1
    rw [List.map_cons]
    refine hstep.trans ?_
    rw [step_data, List.flatMap_cons, List.append_assoc s.data]

lemma Block.event {id name : List UInt8} {datas : List (List UInt8)} (hid : Plain id)
    (hzero : 0 ∉ id) (hname : Plain name) (hne : name ≠ []) (hdatas : ∀ value ∈ datas, Plain value)
    (hsome : datas ≠ []) :
    Block ((utf8 "id: " ++ id) :: (utf8 "event: " ++ name) :: datas.map (utf8 "data: " ++ ·) ++ [[]])
      [⟨id, name, (datas.flatMap (· ++ [lf])).dropLast⟩] where
  plain := by
    have hfield : ∀ {label value : List UInt8}, Plain label → Plain value →
        Plain (label ++ value) := fun hlabel hvalue =>
      ⟨fun h => (List.mem_append.mp h).elim hlabel.1 hvalue.1,
        fun h => (List.mem_append.mp h).elim hlabel.2 hvalue.2⟩
    refine plain_block (List.forall_mem_cons.mpr ⟨hfield (by decide) hid,
      List.forall_mem_cons.mpr ⟨hfield (by decide) hname, fun line hline => ?_⟩⟩)
    obtain ⟨value, hvalue, rfl⟩ := List.mem_map.mp hline
    exact hfield (by decide) (hdatas value hvalue)
  dispatched s hs := by
    have hfields : ∀ line ∈ (utf8 "id: " ++ id) :: (utf8 "event: " ++ name) ::
        datas.map (utf8 "data: " ++ ·), line ≠ [] := by
      have hlabel : ∀ {label value : List UInt8}, label ≠ [] → label ++ value ≠ [] :=
        fun h => List.append_ne_nil_of_left_ne_nil h _
      refine List.forall_mem_cons.mpr ⟨hlabel (by decide),
        List.forall_mem_cons.mpr ⟨hlabel (by decide), fun line hline => ?_⟩⟩
      obtain ⟨value, -, rfl⟩ := List.mem_map.mp hline
      exact hlabel (by decide)
    have hafter : after s ((utf8 "id: " ++ id) :: (utf8 "event: " ++ name) ::
        datas.map (utf8 "data: " ++ ·)) = ⟨id, name, datas.flatMap (· ++ [lf])⟩ := by
      rw [after, List.foldl_cons, List.foldl_cons, step_id s hzero, step_event]
      refine (after_data _ datas).trans ?_
      rw [hs.2]
      rfl
    obtain ⟨value, rest, rfl⟩ := List.exists_cons_of_ne_nil hsome
    rw [eventsFrom_dispatch hfields, hafter, dispatch, if_neg, if_neg hne]
    · rfl
    · rw [List.flatMap_cons, List.append_assoc]
      exact List.append_ne_nil_of_right_ne_nil _ (List.cons_ne_nil _ _)
  idle s _ := idle_after _

end Nightcrow.Library.EventStream
