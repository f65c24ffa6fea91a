import Nightcrow.Library.Cut
import Nightcrow.Library.Text
import Nightcrow.Platform.Path

namespace Nightcrow.Git

open Nightcrow.Library Nightcrow.Library.Cut Nightcrow.Platform

def schemeMark : List Char := [':', '/', '/']

def allowedSchemes : List String := ["https://", "http://", "ssh://", "git+ssh://"]

def maxCloneUrlBytes : ℕ := 2048

inductive CloneUrlError where
  | empty
  | tooLong
  | control
  | scheme
  | noName
  deriving DecidableEq

def isScpLike (url : List Char) : Bool :=
  match splitOnce [':'] url with
  | none => false
  | some (host, path) =>
    if host = [] ∨ path = [] then false
    else if '/' ∈ host then false
    else path.head? ≠ some ':' ∧ '\\' ∉ host

def hasAllowedScheme (url : String) : Bool :=
  let lower := url.toList.map Char.toLower
  if (splitOnce schemeMark lower).isSome then
    allowedSchemes.any (fun scheme =>
      scheme.utf8ByteSize < url.utf8ByteSize && scheme.toList.isPrefixOf lower)
  else isScpLike url.toList

def withoutQuery (url : List Char) : List Char := url.takeWhile (fun c => c ≠ '?' ∧ c ≠ '#')

def stripSuffix (ending s : List Char) : List Char :=
  if ending.isSuffixOf s then s.take (s.length - ending.length) else s

def gitSuffix : List Char := ".git".toList

def remotePath (url : List Char) : Option (List Char) :=
  match splitOnce schemeMark url with
  | some (_, afterScheme) => (splitOnce ['/'] afterScheme).map Prod.snd
  | none => (splitOnce [':'] url).map Prod.snd

def repoNameFromUrl (os : Os) (url : List Char) : Option (List Char) := do
  let path ← remotePath (withoutQuery url)
  let last ← ((path.rdropWhile (fun c => c = '/')).splitOn '/').reverse.find? (fun s => s ≠ [])
  let name := stripSuffix gitSuffix last
  if name = [] ∨ name.head? = some '.' ∨ os.mainSeparator ∈ name then none else some name

def validateCloneUrl (os : Os) (url : String) : Except CloneUrlError (List Char) :=
  let url := trim url
  if url = "" then .error .empty
  else if maxCloneUrlBytes < url.utf8ByteSize then .error .tooLong
  else if url.toList.any isControl then .error .control
  else if !hasAllowedScheme url then .error .scheme
  else
    match repoNameFromUrl os url.toList with
    | none => .error .noName
    | some name => .ok name

def cloneDest (os : Os) (base : List Component) (rawUrl : String) :
    Except CloneUrlError (List Component) :=
  (validateCloneUrl os (trim rawUrl)).map (push os base)

def isSchemeChar (c : Char) : Bool := c.isAlphanum || c == '+' || c == '-' || c == '.'

def TransportHelper (url : List Char) : Prop :=
  ∃ scheme rest, url = scheme ++ ':' :: ':' :: rest ∧ ∀ c ∈ scheme, isSchemeChar c = true

def LocalPath (os : Os) (url : List Char) : Prop :=
  ':' ∉ url.takeWhile (fun c => c ≠ '/') ∨ hasDrive os url = true

def lastSegment (url : List Char) : List Char :=
  let address := (withoutQuery url).rdropWhile (fun c => c = '/')
  if '/' ∈ address then afterLast '/' address
  else (address.dropWhile (fun c => c ≠ ':')).tail

structure Contained (os : Os) (url : String) (name : List Char) : Prop where
  no_helper : ¬ TransportHelper (trim url).toList
  not_local : ¬ LocalPath os (trim url).toList
  plain : PlainName os name
  no_dot : name.head? ≠ some '.'
  child : ∀ parent, cloneDest os parent url = .ok (parent ++ [.normal name])

variable {os : Os} {url : String} {name last path host rest : List Char} {d : Char}

lemma shape_of_allowed (h : hasAllowedScheme url = true) :
    ∃ host path, url.toList = host ++ ':' :: path ∧ ':' ∉ host ∧ '/' ∉ host ∧
      path.head? ≠ some ':' := by
  rw [hasAllowedScheme] at h
  split at h
  · obtain ⟨scheme, hscheme, hstarts⟩ := List.any_eq_true.mp h
    obtain ⟨rest, hrest⟩ := List.isPrefixOf_iff_prefix.mp (Bool.and_eq_true_iff.mp hstarts).2
    obtain ⟨letters, hletters, hcolon, hslash⟩ : ∃ letters, scheme.toList = letters ++ schemeMark ∧
        ':' ∉ letters ∧ '/' ∉ letters := by
      fin_cases hscheme
      · exact ⟨"https".toList, by decide⟩
      · exact ⟨"http".toList, by decide⟩
      · exact ⟨"ssh".toList, by decide⟩
      · exact ⟨"git+ssh".toList, by decide⟩
    rw [hletters, List.append_assoc, eq_comm] at hrest
    obtain ⟨host, tail, hurl, hhost, htail⟩ := List.map_eq_append_iff.mp hrest
    obtain ⟨colon, path, rfl, hc, hpath⟩ := List.map_eq_cons_iff.mp htail
    obtain rfl := of_toLower hc (by decide)
    refine ⟨host, path, hurl, fun hmem => hcolon ?_, fun hmem => hslash ?_, ?_⟩
    · rw [← hhost]
      exact List.mem_map_of_mem (f := Char.toLower) hmem
    · rw [← hhost]
      exact List.mem_map_of_mem (f := Char.toLower) hmem
    · obtain ⟨slash, path, rfl, hs, -⟩ := List.map_eq_cons_iff.mp hpath
      obtain rfl := of_toLower hs (by decide)
      exact fun h => absurd (Option.some.inj h) (by decide)
  · rw [isScpLike] at h
    split at h
    · cases h
    · rename_i host path hcut
      split_ifs at h with hempty hslash
      refine ⟨host, path, ?_, not_mem_of_splitOnce hcut, hslash, (of_decide_eq_true h).1⟩
      rw [splitOnce_eq hcut, List.append_assoc]
      rfl

lemma not_transportHelper (h : url.toList = host ++ ':' :: path) (hcolon : ':' ∉ host)
    (hpath : path.head? ≠ some ':') : ¬ TransportHelper url.toList := by
  rintro ⟨scheme, rest, hurl, hscheme⟩
  have hnone : ':' ∉ scheme := fun hmem => absurd (hscheme ':' hmem) (by decide)
  obtain ⟨-, rfl⟩ := cut_unique (h.symm.trans hurl) hcolon hnone
  exact hpath rfl

lemma localPath_iff (h : url.toList = host ++ ':' :: path) (hslash : '/' ∉ host) :
    LocalPath os url.toList ↔ hasDrive os url.toList = true := by
  rw [LocalPath, or_iff_right]
  rw [h, not_not, List.takeWhile_append_of_pos, List.takeWhile_cons_of_pos (by decide)]
  · exact List.mem_append_right _ List.mem_cons_self
  · exact fun x hx => decide_eq_true (fun hsep => hslash (hsep ▸ hx))

lemma find_last (h : ((path.rdropWhile (fun c => c = '/')).splitOn '/').reverse.find?
      (fun s => s ≠ []) = some last) :
    path.rdropWhile (fun c => c = '/') ≠ [] ∧
      last = afterLast '/' (path.rdropWhile (fun c => c = '/')) := by
  have hend := List.rdropWhile_last_not (fun c => decide (c = '/')) path
  generalize path.rdropWhile (fun c => c = '/') = kept at h hend
  by_cases hmem : '/' ∈ kept
  · obtain ⟨p, t, rfl, ht⟩ := exists_last hmem
    refine ⟨List.append_ne_nil_of_right_ne_nil _ (List.cons_ne_nil _ _), ?_⟩
    have hnil : t ≠ [] := by
      rintro rfl
      exact hend (by simp) (by simp)
    rw [List.splitOn_append_cons_self, List.splitOn_eq_singleton ht, List.reverse_append,
      List.reverse_singleton, List.singleton_append, List.find?_cons_of_pos (by simpa)] at h
    rw [afterLast_append ht]
    exact (Option.some.inj h).symm
  · rw [List.splitOn_eq_singleton hmem, List.reverse_singleton, List.find?_singleton] at h
    split at h
    · rename_i hnil
      rw [afterLast_of_not_mem hmem]
      exact ⟨of_decide_eq_true hnil, (Option.some.inj h).symm⟩
    · cases h

lemma rdropWhile_slashes {front path : List Char} {d : Char}
    (hpath : path.rdropWhile (fun c => c = '/') ≠ []) :
    (front ++ d :: path).rdropWhile (fun c => c = '/') =
      front ++ d :: path.rdropWhile (fun c => c = '/') := by
  have h := rdropWhile_append (p := front ++ [d]) hpath
  rwa [List.append_assoc, List.append_assoc] at h

lemma afterLast_path (front path : List Char) :
    afterLast '/' (front ++ '/' :: path) = afterLast '/' path := by
  by_cases hmem : '/' ∈ path
  · obtain ⟨p, t, rfl, ht⟩ := exists_last hmem
    rw [afterLast_append ht, ← List.cons_append, ← List.append_assoc, afterLast_append ht]
  · rw [afterLast_append hmem, afterLast_of_not_mem hmem]

lemma lastSegment_eq {path : List Char} (hurl : url.toList = host ++ ':' :: rest)
    (hcolon : ':' ∉ host) (hslash : '/' ∉ host)
    (hpath : remotePath (withoutQuery url.toList) = some path)
    (hkept : path.rdropWhile (fun c => c = '/') ≠ []) :
    lastSegment url.toList = afterLast '/' (path.rdropWhile (fun c => c = '/')) := by
  rw [remotePath] at hpath
  rw [lastSegment]
  split at hpath
  · rename_i scheme afterScheme hscheme
    obtain ⟨⟨authority, after⟩, hcut, hafter⟩ := Option.map_eq_some_iff.mp hpath
    obtain rfl : after = path := hafter
    have haddress : withoutQuery url.toList =
        (scheme ++ schemeMark ++ authority) ++ '/' :: after := by
      rw [splitOnce_eq hscheme, splitOnce_eq hcut]
      simp only [List.append_assoc, List.singleton_append]
    rw [haddress, rdropWhile_slashes hkept, if_pos, afterLast_path]
    exact List.mem_append_right _ List.mem_cons_self
  · obtain ⟨⟨front, after⟩, hcut, hafter⟩ := Option.map_eq_some_iff.mp hpath
    obtain rfl : after = path := hafter
    have haddress : withoutQuery url.toList = front ++ ':' :: after := by
      rw [splitOnce_eq hcut, List.append_assoc]
      rfl
    have hfront : front = host := by
      obtain ⟨query, hquery⟩ := List.takeWhile_prefix (l := url.toList)
        (fun c => decide (c ≠ '?' ∧ c ≠ '#'))
      rw [← withoutQuery, haddress, List.append_assoc, List.cons_append] at hquery
      exact (cut_unique (hquery.trans hurl) (not_mem_of_splitOnce hcut) hcolon).1
    subst hfront
    rw [haddress, rdropWhile_slashes hkept]
    generalize after.rdropWhile (fun c => c = '/') = kept
    split
    · rename_i hmem
      have hkept : '/' ∈ kept := by
        rcases List.mem_append.mp hmem with hmem | hmem
        · exact absurd hmem hslash
        · exact (List.mem_cons.mp hmem).resolve_left (by decide)
      obtain ⟨p, t, rfl, ht⟩ := exists_last hkept
      rw [afterLast_append ht, ← List.cons_append, ← List.append_assoc, afterLast_append ht]
    · rename_i hmem
      have hkept : '/' ∉ kept := fun h =>
        hmem (List.mem_append_right _ (List.mem_cons_of_mem _ h))
      rw [List.dropWhile_append_of_pos, List.dropWhile_cons_of_neg (by simp), List.tail_cons,
        afterLast_of_not_mem hkept]
      exact fun x hx => decide_eq_true (fun hsep => hcolon (hsep ▸ hx))

lemma stripSuffix_cases (ending s : List Char) :
    stripSuffix ending s = s ∨ s = stripSuffix ending s ++ ending := by
  rw [stripSuffix]
  split
  · rename_i hsuffix
    obtain ⟨kept, rfl⟩ := List.isSuffixOf_iff_suffix.mp hsuffix
    right
    rw [List.length_append, Nat.add_sub_cancel, List.take_left]
  · exact .inl rfl

lemma name_spec (hurl : url.toList = host ++ ':' :: rest) (hcolon : ':' ∉ host)
    (hslash : '/' ∉ host) (h : repoNameFromUrl os url.toList = some name) :
    name ≠ [] ∧ name.head? ≠ some '.' ∧ (∀ c ∈ name, os.isSeparator c = false) ∧
      hasDrive os name = hasDrive os (lastSegment url.toList) := by
  rw [repoNameFromUrl] at h
  obtain ⟨path, hpath, h⟩ := Option.bind_eq_some_iff.mp h
  obtain ⟨last, hlast, h⟩ := Option.bind_eq_some_iff.mp h
  obtain ⟨hkept, hsegment⟩ := find_last hlast
  rw [← lastSegment_eq hurl hcolon hslash hpath hkept] at hsegment
  subst hsegment
  dsimp only at h
  split_ifs at h with hrefused
  obtain rfl := Option.some.inj h
  rw [not_or, not_or] at hrefused
  obtain ⟨hnil, hdot, hsep⟩ := hrefused
  have hnoslash : '/' ∉ lastSegment url.toList := by
    rw [lastSegment_eq hurl hcolon hslash hpath hkept]
    exact fun hmem => absurd (List.mem_rtakeWhile_imp hmem) (by decide)
  refine ⟨hnil, hdot, fun c hc => ?_, ?_⟩
  · rw [Os.isSeparator, Bool.or_eq_false_iff, beq_eq_false_iff_ne, beq_eq_false_iff_ne]
    refine ⟨fun hslash => hnoslash ?_, fun hmain => hsep (hmain ▸ hc)⟩
    subst hslash
    rcases stripSuffix_cases gitSuffix (lastSegment url.toList) with heq | heq
    · exact heq ▸ hc
    · exact heq ▸ List.mem_append_left _ hc
  · rcases stripSuffix_cases gitSuffix (lastSegment url.toList) with heq | heq
    · rw [heq]
    · exact (hasDrive_append hnil (by decide)).symm.trans (congrArg (hasDrive os) heq.symm)

lemma accepted_spec (h : validateCloneUrl os url = .ok name) :
    hasAllowedScheme (trim url) = true ∧ repoNameFromUrl os (trim url).toList = some name := by
  rw [validateCloneUrl] at h
  split_ifs at h with hempty hlong hcontrol hscheme
  rw [Bool.not_eq_true, Bool.not_eq_false'] at hscheme
  split at h
  · cases h
  · rename_i found hfound
    obtain rfl := Except.ok.inj h
    exact ⟨hscheme, hfound⟩

lemma cloneDest_eq (h : validateCloneUrl os url = .ok name) (parent : List Component) :
    cloneDest os parent url = .ok (push os parent name) := by
  have htrim : validateCloneUrl os (trim url) = validateCloneUrl os url := by
    rw [validateCloneUrl, validateCloneUrl, trim_trim]
  rw [cloneDest, htrim, h]
  rfl

theorem clone_contained_iff (os : Os) (url : String) (name : List Char)
    (h : validateCloneUrl os url = .ok name) :
    Contained os url name ↔
      hasDrive os (trim url).toList = false ∧
        hasDrive os (lastSegment (trim url).toList) = false := by
  obtain ⟨hscheme, hname⟩ := accepted_spec h
  obtain ⟨host, path, hurl, hcolon, hslash, hpath⟩ := shape_of_allowed hscheme
  obtain ⟨hnil, hdot, hsep, hdrive⟩ := name_spec hurl hcolon hslash hname
  have hlocal : LocalPath os (trim url).toList ↔ hasDrive os (trim url).toList = true :=
    localPath_iff hurl hslash
  constructor
  · intro hcontained
    refine ⟨?_, hdrive.symm.trans hcontained.plain.no_drive⟩
    rw [← Bool.not_eq_true, ← hlocal]
    exact hcontained.not_local
  · rintro ⟨hlocalDrive, hlastDrive⟩
    have hplain : PlainName os name := by
      refine ⟨hsep, hnil, ?_, ?_, hdrive.trans hlastDrive⟩
      · rintro rfl
        exact hdot rfl
      · rintro rfl
        exact hdot rfl
    refine ⟨not_transportHelper hurl hcolon hpath, ?_, hplain, hdot, fun parent => ?_⟩
    · rw [hlocal, hlocalDrive]
      exact Bool.false_ne_true
    · rw [cloneDest_eq h, hplain.push]

def remoteUrl : String := "https://example.com/team/thing.git/?ref=main"

theorem remote_cloned_into_child : Contained .windows remoteUrl "thing".toList :=
  (clone_contained_iff .windows remoteUrl "thing".toList (by decide +kernel)).mpr
    ⟨by decide +kernel, by decide +kernel⟩

/-- A name with a drive replaces the parent it is joined to, and a drive passes for a host. -/
theorem drive_escapes :
    (∃ url name parent, validateCloneUrl .windows url = .ok name ∧
      cloneDest .windows parent url ≠ .ok (parent ++ [.normal name]) ∧
      ¬ Contained .windows url name) ∧
    ∃ url name, validateCloneUrl .windows url = .ok name ∧
      LocalPath .windows (trim url).toList := by
  constructor
  · refine ⟨"https://example.com/team/C:thing", "C:thing".toList,
      [.volume "D:".toList, .rootDir, .normal "work".toList], by decide +kernel,
      by decide +kernel, ?_⟩
    exact fun h => absurd h.plain.no_drive (by decide +kernel)
  · exact ⟨"C:/work/thing", "thing".toList, by decide +kernel, .inr (by decide +kernel)⟩

end Nightcrow.Git
