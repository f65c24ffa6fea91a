import Nightcrow.Library.Cut

namespace Nightcrow.Platform

open Nightcrow.Library.Cut

inductive Os where
  | unix
  | windows
  deriving DecidableEq

namespace Os

def mainSeparator : Os → Char
  | .unix => '/'
  | .windows => '\\'

def isSeparator (os : Os) (c : Char) : Bool := c == '/' || c == os.mainSeparator

end Os

inductive Component where
  | volume (text : List Char)
  | rootDir
  | curDir
  | parentDir
  | normal (name : List Char)
  deriving DecidableEq

def hasDrive : Os → List Char → Bool
  | .windows, c :: ':' :: _ => c.isAlpha
  | _, _ => false

/-- The drive and what follows it. A path with a network or device prefix starts with a separator,
and reads here as one from the root. -/
def splitDrive (os : Os) (path : List Char) : Option (List Char) × List Char :=
  if hasDrive os path then (some (path.take 2), path.drop 2) else (none, path)

def segmentOf (name : List Char) : Option Component :=
  if name = [] ∨ name = ['.'] then none
  else if name = ['.', '.'] then some .parentDir
  else some (.normal name)

def body (os : Os) (path : List Char) : List Component :=
  (path.splitOnP os.isSeparator).filterMap segmentOf

def start (os : Os) (path : List Char) : List Component :=
  match path with
  | [] => []
  | c :: _ =>
    if os.isSeparator c then [.rootDir]
    else if (path.splitOnP os.isSeparator).head? = some ['.'] then [.curDir]
    else []

def components (os : Os) (path : List Char) : List Component :=
  let (drive, rest) := splitDrive os path
  (drive.map Component.volume).toList ++ start os rest ++ body os rest

def push (os : Os) (base : List Component) (path : List Char) : List Component :=
  match components os path with
  | .volume text :: rest => .volume text :: rest
  | .rootDir :: rest => base.takeWhile (fun c => c matches .volume _) ++ .rootDir :: rest
  | .curDir :: rest => base ++ rest
  | rest => base ++ rest

structure PlainName (os : Os) (name : List Char) : Prop where
  no_separator : ∀ c ∈ name, os.isSeparator c = false
  ne_nil : name ≠ []
  ne_dot : name ≠ ['.']
  ne_dots : name ≠ ['.', '.']
  no_drive : hasDrive os name = false

variable {os : Os} {name path : List Char}

lemma splitDrive_none (h : hasDrive os path = false) : splitDrive os path = (none, path) := by
  rw [splitDrive, if_neg (by rw [h]; exact Bool.false_ne_true)]

lemma hasDrive_append {d : Char} {rest : List Char} (h : name ≠ []) (hd : d ≠ ':') :
    hasDrive os (name ++ d :: rest) = hasDrive os name := by
  cases os with
  | unix => rfl
  | windows =>
    obtain ⟨a, tail, rfl⟩ := List.exists_cons_of_ne_nil h
    cases tail with
    | nil =>
      rw [List.singleton_append, hasDrive.eq_def]
      split
      · rename_i heq
        exact absurd (List.cons.inj (List.cons.inj heq).2).1 hd
      · rfl
    | cons b tail =>
      by_cases hb : b = ':'
      · subst hb
        rfl
      · rw [hasDrive.eq_2 .windows, hasDrive.eq_2 .windows]
        all_goals grind

lemma segmentOf_normal (hnil : name ≠ []) (hdot : name ≠ ['.']) (hdots : name ≠ ['.', '.']) :
    segmentOf name = some (.normal name) := by
  rw [segmentOf, if_neg (not_or.mpr ⟨hnil, hdot⟩), if_neg hdots]

lemma start_of_ne_dot (hnil : name ≠ []) (hdot : name ≠ ['.'])
    (hsep : ∀ c ∈ name, os.isSeparator c = false) : start os name = [] := by
  have hsplit := List.splitOnP_eq_singleton hsep
  cases name with
  | nil => exact absurd rfl hnil
  | cons c name =>
    rw [start, if_neg (by rw [hsep c List.mem_cons_self]; exact Bool.false_ne_true), hsplit,
      List.head?_cons, if_neg (fun h => hdot (Option.some.inj h))]

lemma PlainName.components (h : PlainName os name) :
    components os name = [.normal name] := by
  rw [Platform.components, splitDrive_none h.no_drive]
  simp only [Option.map_none, Option.toList_none, List.nil_append]
  rw [start_of_ne_dot h.ne_nil h.ne_dot h.no_separator, body,
    List.splitOnP_eq_singleton h.no_separator, List.filterMap_cons,
    segmentOf_normal h.ne_nil h.ne_dot h.ne_dots]
  rfl

lemma PlainName.push (h : PlainName os name) (base : List Component) :
    push os base name = base ++ [.normal name] := by
  rw [Platform.push, h.components]

lemma not_mem_start : .normal name ∉ start os path := by
  intro h
  rw [start.eq_def] at h
  split at h
  · cases h
  · split_ifs at h
    · cases List.mem_singleton.mp h
    · cases List.mem_singleton.mp h
    · cases h

lemma mem_body (h : .normal name ∈ body os path) :
    (∀ c ∈ name, os.isSeparator c = false) ∧ name ≠ [] ∧ name ≠ ['.'] ∧ name ≠ ['.', '.'] := by
  obtain ⟨part, hpart, hsegment⟩ := List.mem_filterMap.mp h
  rw [segmentOf] at hsegment
  split_ifs at hsegment with hempty hdots
  · cases hsegment
  obtain rfl := Component.normal.inj (Option.some.inj hsegment)
  rw [not_or] at hempty
  exact ⟨fun c hc => not_mem_splitOnP hpart hc, hempty.1, hempty.2, hdots⟩

lemma plain_of_mem_components (h : .normal name ∈ components os path)
    (hdrive : hasDrive os name = false) : PlainName os name := by
  rw [components] at h
  rcases List.mem_append.mp h with h | h
  · rcases List.mem_append.mp h with h | h
    · rw [Option.mem_toList] at h
      obtain ⟨text, -, htext⟩ := Option.map_eq_some_iff.mp h
      cases htext
    · exact absurd h not_mem_start
  · obtain ⟨hsep, hnil, hdot, hdots⟩ := mem_body h
    exact ⟨hsep, hnil, hdot, hdots, hdrive⟩

lemma components_drive (h : hasDrive os path = true) :
    ∃ text rest, components os path = .volume text :: rest := by
  rw [components, splitDrive, if_pos h]
  exact ⟨_, _, rfl⟩

lemma components_no_drive (h : hasDrive os path = false) :
    components os path = start os path ++ body os path := by
  rw [components, splitDrive_none h]
  rfl

lemma isSeparator_slash (os : Os) : os.isSeparator '/' = true := rfl

lemma start_append (h : path ≠ []) (rest : List Char) :
    start os (path ++ '/' :: rest) = start os path := by
  obtain ⟨c, tail, rfl⟩ := List.exists_cons_of_ne_nil h
  have hhead : ((c :: tail ++ '/' :: rest).splitOnP os.isSeparator).head? =
      ((c :: tail).splitOnP os.isSeparator).head? := by
    rw [List.splitOnP_append_cons _ _ (isSeparator_slash os),
      List.head?_append_of_ne_nil _ (List.splitOnP_ne_nil _ _)]
  rw [List.cons_append] at hhead ⊢
  rw [start, start, hhead]

lemma body_append (path rest : List Char) :
    body os (path ++ '/' :: rest) = body os path ++ body os rest := by
  rw [body, List.splitOnP_append_cons _ _ (isSeparator_slash os), List.filterMap_append]
  rfl

lemma components_append (h : path ≠ []) (hdrive : hasDrive os path = false) (rest : List Char) :
    components os (path ++ '/' :: rest) = components os path ++ body os rest := by
  have hjoined : hasDrive os (path ++ '/' :: rest) = false :=
    (hasDrive_append h (by decide)).trans hdrive
  rw [components_no_drive hjoined, components_no_drive hdrive, start_append h, body_append,
    List.append_assoc]

lemma body_of_no_separator (h : ∀ c ∈ name, os.isSeparator c = false) :
    body os name = (segmentOf name).toList := by
  rw [body, List.splitOnP_eq_singleton h, List.filterMap_cons]
  cases segmentOf name <;> rfl

end Nightcrow.Platform
