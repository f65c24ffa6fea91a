import Nightcrow.Library.Cut
import Nightcrow.Library.Text

namespace Nightcrow.Web

open Nightcrow.Library

structure RequestHead where
  method : String
  path : String
  query : String
  headers : List (String × String)
  contentLength : ℕ
  deriving DecidableEq

inductive RequestError where
  | headExceeds
  | headClosed
  | headNotUtf8
  | malformedLine (line : String)
  deriving DecidableEq

def splitLines : List Char → List (List Char)
  | [] => [[]]
  | '\r' :: '\n' :: cs => [] :: splitLines cs
  | c :: cs => (splitLines cs).modifyHead (fun line => c :: line)

def splitWhitespace (line : List Char) : List (List Char) :=
  (line.splitOnP isWhiteSpace).filter (fun part => part ≠ [])

def parseUsize (s : String) : Option ℕ :=
  -- `str::parse::<usize>`
  let digits : List Char := match s.toList with
    | '+' :: cs => cs
    | cs => cs
  let n := digits.foldl (fun n c => 10 * n + (c.toNat - '0'.toNat)) 0
  if digits ≠ [] ∧ digits.all Char.isDigit ∧ n < 2 ^ 64 then some n else none

def addHeader (acc : List (String × String) × ℕ) (line : List Char) :
    List (String × String) × ℕ :=
  match Cut.splitOnce [':'] line with
  | none => acc
  | some (name, value) =>
    let name := (trim (String.ofList name)).toLower
    let value := trim (String.ofList value)
    (acc.1 ++ [(name, value)],
      if name = "content-length" then (parseUsize value).getD 0 else acc.2)

def parseRequestHead (text : String) : Except RequestError RequestHead :=
  let lines := splitLines text.toList
  let requestLine := lines.headD []
  let parts := splitWhitespace requestLine
  let method := parts.headD []
  let target := parts.tail.headD []
  if method = [] ∨ target = [] then .error (.malformedLine (String.ofList requestLine))
  else
    let (path, query) := (Cut.splitOnce ['?'] target).getD (target, [])
    let (headers, contentLength) :=
      (lines.tail.takeWhile (fun line => line ≠ [])).foldl addHeader ([], 0)
    .ok {
      method := String.ofList method
      path := String.ofList path
      query := String.ofList query
      headers
      contentLength }

def maxHeadBytes : ℕ := 32 * 1024

def chunkBytes : ℕ := 4096

def headTerminator : List UInt8 := [13, 10, 13, 10]

def findSubsequence (haystack needle : List UInt8) : Option ℕ :=
  (List.range (haystack.length + 1 - needle.length)).find?
    (fun i => (haystack.drop i).take needle.length = needle)

def requestHeadEnd (buf : List UInt8) : Except RequestError (Option ℕ) :=
  match findSubsequence buf headTerminator with
  | some pos =>
    let headEnd := pos + 4
    if maxHeadBytes < headEnd then .error .headExceeds else .ok (some headEnd)
  | none => if maxHeadBytes ≤ buf.length then .error .headExceeds else .ok none

def readHead : List (List UInt8) → List UInt8 →
    Except RequestError (ℕ × List UInt8 × List (List UInt8))
  | reads, buf =>
    match requestHeadEnd buf with
    | .error e => .error e
    | .ok (some headEnd) => .ok (headEnd, buf, reads)
    | .ok none =>
      match reads with
      | [] => .error .headClosed
      | read :: reads => readHead reads (buf ++ read)

def readBody (want : ℕ) : List (List UInt8) → List UInt8 → List UInt8
  | [], body => body
  | read :: reads, body =>
    if body.length < want then readBody want reads (body ++ read) else body

inductive RequestBody where
  | complete (bytes : List UInt8)
  | tooLarge
  deriving DecidableEq

def decodeHead (bytes : List UInt8) : Except RequestError RequestHead :=
  match String.fromUTF8? bytes.toByteArray with
  | none => .error .headNotUtf8
  | some text => parseRequestHead text

def readRequest (reads : List (List UInt8)) (bodyLimit : RequestHead → ℕ) :
    Except RequestError (RequestHead × RequestBody) :=
  -- given what each read returns until the peer closes
  match readHead reads [] with
  | .error e => .error e
  | .ok (headEnd, buf, reads) =>
    match decodeHead (buf.take headEnd) with
    | .error e => .error e
    | .ok head =>
      if bodyLimit head < head.contentLength then .ok (head, .tooLarge)
      else
        let body := readBody head.contentLength reads (buf.drop headEnd)
        .ok (head, .complete (body.take head.contentLength))

def Cuts (stream : List UInt8) (reads : List (List UInt8)) : Prop :=
  reads.flatten = stream ∧ ∀ read ∈ reads, read ≠ [] ∧ read.length ≤ chunkBytes

section

variable {haystack more needle buf stream : List UInt8} {pos : ℕ} {reads : List (List UInt8)}

lemma findSubsequence_some : findSubsequence haystack needle = some pos ↔
    (haystack.drop pos).take needle.length = needle ∧
      pos < haystack.length + 1 - needle.length ∧
      ∀ i < pos, (haystack.drop i).take needle.length ≠ needle := by
  rw [findSubsequence, List.find?_range_eq_some]
  simp

lemma findSubsequence_none : findSubsequence haystack needle = none ↔
    ∀ i < haystack.length + 1 - needle.length, (haystack.drop i).take needle.length ≠ needle := by
  rw [findSubsequence, List.find?_range_eq_none]
  simp

lemma window_append {i : ℕ} (h : i + needle.length ≤ haystack.length) :
    ((haystack ++ more).drop i).take needle.length = (haystack.drop i).take needle.length := by
  rw [List.drop_append_of_le_length (by omega), List.take_append_of_le_length]
  rw [List.length_drop]
  omega

lemma findSubsequence_append (h : findSubsequence haystack needle = some pos) :
    findSubsequence (haystack ++ more) needle = some pos := by
  rw [findSubsequence_some] at h ⊢
  obtain ⟨hfound, hpos, hfirst⟩ := h
  refine ⟨?_, ?_, fun i hi => ?_⟩
  · rw [window_append (by omega)]
    exact hfound
  · rw [List.length_append]
    omega
  · rw [window_append (by omega)]
    exact hfirst i hi

lemma le_of_findSubsequence_append (h : findSubsequence haystack needle = none)
    (hmore : findSubsequence (haystack ++ more) needle = some pos) :
    haystack.length < pos + needle.length := by
  rw [findSubsequence_none] at h
  obtain ⟨hfound, -, -⟩ := findSubsequence_some.mp hmore
  by_contra hle
  have hle := not_lt.mp hle
  rw [window_append hle] at hfound
  exact h pos (by omega) hfound

def streamHeadEnd (stream : List UInt8) : Except RequestError ℕ :=
  match requestHeadEnd stream with
  | .error e => .error e
  | .ok none => .error .headClosed
  | .ok (some headEnd) => .ok headEnd

lemma streamHeadEnd_found (h : requestHeadEnd buf = .ok (some pos)) :
    streamHeadEnd (buf ++ more) = .ok pos ∧ pos ≤ buf.length := by
  rw [requestHeadEnd] at h
  split at h
  · rename_i i hi
    dsimp only at h
    split_ifs at h with hlong
    obtain rfl := Option.some.inj (Except.ok.inj h)
    refine ⟨?_, ?_⟩
    · rw [streamHeadEnd, requestHeadEnd, findSubsequence_append hi]
      dsimp only
      rw [if_neg hlong]
    · obtain ⟨-, hpos, -⟩ := findSubsequence_some.mp hi
      have hneedle : headTerminator.length = 4 := rfl
      omega
  · split_ifs at h
    cases h

lemma streamHeadEnd_refused {e : RequestError} (h : requestHeadEnd buf = .error e) :
    streamHeadEnd (buf ++ more) = .error e := by
  rw [requestHeadEnd] at h
  split at h
  · rename_i i hi
    dsimp only at h
    split_ifs at h with hlong
    obtain rfl := Except.error.inj h
    rw [streamHeadEnd, requestHeadEnd, findSubsequence_append hi]
    dsimp only
    rw [if_pos hlong]
  · rename_i hnone
    split_ifs at h with hfull
    obtain rfl := Except.error.inj h
    rw [streamHeadEnd, requestHeadEnd]
    cases hmore : findSubsequence (buf ++ more) headTerminator with
    | some i =>
      have hpast := le_of_findSubsequence_append hnone hmore
      have hneedle : headTerminator.length = 4 := rfl
      dsimp only
      rw [if_pos (by omega)]
    | none =>
      dsimp only
      rw [if_pos]
      rw [List.length_append]
      omega

lemma readHead_eq (reads : List (List UInt8)) (buf : List UInt8) :
    (∃ headEnd buf' reads', readHead reads buf = .ok (headEnd, buf', reads') ∧
      streamHeadEnd (buf ++ reads.flatten) = .ok headEnd ∧ headEnd ≤ buf'.length ∧
      buf' ++ reads'.flatten = buf ++ reads.flatten) ∨
    ∃ e, readHead reads buf = .error e ∧ streamHeadEnd (buf ++ reads.flatten) = .error e := by
  induction reads generalizing buf with
  | nil =>
    rw [readHead]
    cases hend : requestHeadEnd buf with
    | error e => exact .inr ⟨e, rfl, streamHeadEnd_refused hend⟩
    | ok found =>
      cases found with
      | some headEnd =>
        obtain ⟨hstream, hle⟩ : streamHeadEnd (buf ++ List.flatten []) = .ok headEnd ∧
            headEnd ≤ buf.length := streamHeadEnd_found hend
        exact .inl ⟨headEnd, buf, [], rfl, hstream, hle, rfl⟩
      | none =>
        refine .inr ⟨.headClosed, rfl, ?_⟩
        rw [List.flatten_nil, List.append_nil, streamHeadEnd, hend]
  | cons read reads ih =>
    rw [readHead, List.flatten_cons]
    cases hend : requestHeadEnd buf with
    | error e => exact .inr ⟨e, rfl, streamHeadEnd_refused hend⟩
    | ok found =>
      cases found with
      | some headEnd =>
        obtain ⟨hstream, hle⟩ : streamHeadEnd (buf ++ (read ++ reads.flatten)) = .ok headEnd ∧
            headEnd ≤ buf.length := streamHeadEnd_found hend
        exact .inl ⟨headEnd, buf, read :: reads, rfl, hstream, hle, rfl⟩
      | none =>
        rw [← List.append_assoc]
        exact ih (buf ++ read)

lemma readBody_take (want : ℕ) (reads : List (List UInt8)) (body : List UInt8) :
    (readBody want reads body).take want = (body ++ reads.flatten).take want := by
  induction reads generalizing body with
  | nil => rw [readBody, List.flatten_nil, List.append_nil]
  | cons read reads ih =>
    rw [readBody]
    split_ifs with hshort
    · rw [ih, List.flatten_cons, List.append_assoc]
    · rw [List.take_append_of_le_length (not_lt.mp hshort)]

def answer (stream : List UInt8) (bodyLimit : RequestHead → ℕ) :
    Except RequestError (RequestHead × RequestBody) :=
  match streamHeadEnd stream with
  | .error e => .error e
  | .ok headEnd =>
    match decodeHead (stream.take headEnd) with
    | .error e => .error e
    | .ok head =>
      if bodyLimit head < head.contentLength then .ok (head, .tooLarge)
      else .ok (head, .complete ((stream.drop headEnd).take head.contentLength))

lemma readRequest_eq (reads : List (List UInt8)) (bodyLimit : RequestHead → ℕ) :
    readRequest reads bodyLimit = answer reads.flatten bodyLimit := by
  rw [readRequest, answer]
  rcases readHead_eq reads [] with ⟨headEnd, buf, rest, hread, hend, hle, hall⟩ | ⟨e, hread, hend⟩
  · rw [List.nil_append] at hend hall
    rw [hread, hend]
    dsimp only
    have htake : buf.take headEnd = reads.flatten.take headEnd := by
      rw [← hall, List.take_append_of_le_length hle]
    have hdrop : buf.drop headEnd ++ rest.flatten = reads.flatten.drop headEnd := by
      rw [← hall, List.drop_append_of_le_length hle]
    rw [htake]
    cases decodeHead (reads.flatten.take headEnd) with
    | error e => rfl
    | ok head =>
      dsimp only
      rw [readBody_take, hdrop]
  · rw [List.nil_append] at hend
    rw [hread, hend]

structure ReadWhole (stream : List UInt8) (bodyLimit : RequestHead → ℕ) : Prop where
  cuts : ∀ reads reads', Cuts stream reads → Cuts stream reads' →
    readRequest reads bodyLimit = readRequest reads' bodyLimit
  accepted : ∀ reads pos, Cuts stream reads → findSubsequence stream headTerminator = some pos →
    pos + 4 ≤ maxHeadBytes → ∀ e, readRequest reads bodyLimit = .error e →
      decodeHead (stream.take (pos + 4)) = .error e
  refused : ∀ reads pos, Cuts stream reads → findSubsequence stream headTerminator = some pos →
    maxHeadBytes < pos + 4 → readRequest reads bodyLimit = .error .headExceeds
  tooLarge : ∀ reads head body, Cuts stream reads →
    readRequest reads bodyLimit = .ok (head, body) →
      (body = .tooLarge ↔ bodyLimit head < head.contentLength)
  complete : ∀ reads head bytes, Cuts stream reads →
    readRequest reads bodyLimit = .ok (head, .complete bytes) →
      bytes.length = head.contentLength ∧
      ∃ headEnd, streamHeadEnd stream = .ok headEnd ∧ bytes <+: stream.drop headEnd

/-- The peer sends all of a body it declares within the limit. -/
def SendsBody (stream : List UInt8) (bodyLimit : RequestHead → ℕ) : Prop :=
  ∀ headEnd head, streamHeadEnd stream = .ok headEnd →
    decodeHead (stream.take headEnd) = .ok head → head.contentLength ≤ bodyLimit head →
      headEnd + head.contentLength ≤ stream.length

lemma streamHeadEnd_le {headEnd : ℕ} (h : streamHeadEnd stream = .ok headEnd) :
    headEnd ≤ stream.length := by
  rw [streamHeadEnd] at h
  split at h
  · cases h
  · cases h
  · rename_i found hfound
    obtain rfl := Except.ok.inj h
    exact (@streamHeadEnd_found [] _ _ hfound).2

lemma cuts_bytes (stream : List UInt8) : Cuts stream (stream.map (fun b => [b])) := by
  refine ⟨?_, fun read hread => ?_⟩
  · rw [← List.flatMap_def]
    exact List.flatMap_singleton' stream
  · obtain ⟨b, -, rfl⟩ := List.mem_map.mp hread
    exact ⟨List.cons_ne_nil _ _, (by decide : 1 ≤ chunkBytes)⟩

lemma answer_complete {bodyLimit : RequestHead → ℕ} {head : RequestHead} {bytes : List UInt8}
    (h : answer stream bodyLimit = .ok (head, .complete bytes)) :
    ∃ headEnd, streamHeadEnd stream = .ok headEnd ∧
      decodeHead (stream.take headEnd) = .ok head ∧ head.contentLength ≤ bodyLimit head ∧
      bytes = (stream.drop headEnd).take head.contentLength := by
  rw [answer] at h
  split at h
  · cases h
  · rename_i headEnd hend
    split at h
    · cases h
    · rename_i found hfound
      split_ifs at h with hlimit
      · obtain ⟨-, htoo⟩ := Prod.mk.inj (Except.ok.inj h)
        cases htoo
      · obtain ⟨rfl, hbody⟩ := Prod.mk.inj (Except.ok.inj h)
        exact ⟨headEnd, hend, hfound, not_lt.mp hlimit, (RequestBody.complete.inj hbody).symm⟩

theorem read_whole_iff (stream : List UInt8) (bodyLimit : RequestHead → ℕ) :
    ReadWhole stream bodyLimit ↔ SendsBody stream bodyLimit := by
  constructor
  · intro h headEnd head hend hhead hlimit
    have hanswer : readRequest (stream.map (fun b => [b])) bodyLimit =
        .ok (head, .complete ((stream.drop headEnd).take head.contentLength)) := by
      rw [readRequest_eq, (cuts_bytes stream).1, answer, hend]
      dsimp only
      rw [hhead]
      exact if_neg (not_lt.mpr hlimit)
    obtain ⟨hlength, -⟩ := h.complete _ head _ (cuts_bytes stream) hanswer
    have hle := streamHeadEnd_le hend
    rw [List.length_take, List.length_drop] at hlength
    omega
  · intro h
    refine ⟨?_, ?_, ?_, ?_, ?_⟩
    · intro reads reads' hreads hreads'
      rw [readRequest_eq, readRequest_eq, hreads.1, hreads'.1]
    · intro reads pos hreads hpos hfits e he
      rw [readRequest_eq, hreads.1, answer, streamHeadEnd, requestHeadEnd, hpos] at he
      dsimp only at he
      rw [if_neg (not_lt.mpr hfits)] at he
      dsimp only at he
      split at he
      · rename_i hdecode
        rw [hdecode, Except.error.inj he]
      · split_ifs at he
    · intro reads pos hreads hpos hlong
      rw [readRequest_eq, hreads.1, answer, streamHeadEnd, requestHeadEnd, hpos]
      dsimp only
      rw [if_pos hlong]
    · intro reads head body hreads hok
      rw [readRequest_eq, hreads.1, answer] at hok
      split at hok
      · cases hok
      · split at hok
        · cases hok
        · split_ifs at hok with hlimit
          · obtain ⟨rfl, rfl⟩ := Prod.mk.inj (Except.ok.inj hok)
            exact ⟨fun _ => hlimit, fun _ => rfl⟩
          · obtain ⟨rfl, rfl⟩ := Prod.mk.inj (Except.ok.inj hok)
            exact ⟨fun htoo => (nomatch htoo), fun hover => absurd hover hlimit⟩
    · intro reads head bytes hreads hok
      rw [readRequest_eq, hreads.1] at hok
      obtain ⟨headEnd, hend, hhead, hlimit, rfl⟩ := answer_complete hok
      have hsent := h headEnd head hend hhead hlimit
      refine ⟨?_, headEnd, hend, List.take_prefix _ _⟩
      rw [List.length_take, List.length_drop]
      omega

def cutShort : List UInt8 :=
  "POST /api/file HTTP/1.1\r\nContent-Length: 5\r\n\r\nab".toUTF8.toList

theorem closed_early_is_complete : ¬ ReadWhole cutShort (fun _ => 64 * 1024) := by
  intro h
  have hanswer : readRequest (cutShort.map (fun b => [b])) (fun _ => 64 * 1024) =
      .ok (⟨"POST", "/api/file", "", [("content-length", "5")], 5⟩, .complete [97, 98]) := by
    decide +kernel
  exact absurd (h.complete _ _ _ (cuts_bytes _) hanswer).1 (by decide)

end

end Nightcrow.Web
