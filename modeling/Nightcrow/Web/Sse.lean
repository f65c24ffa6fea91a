import Nightcrow.Library.Cut
import Nightcrow.Library.EventStream

/-! Server-sent events over a byte sink: what is appended to a connection, and what a client reads
from it. -/

namespace Nightcrow.Web

open Nightcrow.Library EventStream

class Write (W : Type*) where
  writeAll : List UInt8 → W → Bool × W
  flush : W → Bool × W
  written : W → List UInt8
  writeAll_written (bytes : List UInt8) (w : W) :
    ∃ part, part <+: bytes ∧ written (writeAll bytes w).2 = written w ++ part ∧
      ((writeAll bytes w).1 = true → part = bytes)
  flush_written (w : W) : written (flush w).2 = written w

def head : List UInt8 :=
  utf8 "HTTP/1.1 200 OK\r\nContent-Type: text/event-stream\r\nCache-Control: no-store\r\n" ++
    utf8 "X-Content-Type-Options: nosniff\r\nConnection: keep-alive\r\nX-Accel-Buffering: no\r\n\r\n"

structure SseStream (W : Type*) where
  sink : W
  nextId : UInt64

inductive IoError where
  | invalidInput (message : String)
  | sink
deriving DecidableEq

def splitCrlf : List UInt8 → List (List UInt8)
  | [] => [[]]
  | [b] => [[b]]
  | b :: c :: text =>
    if b = cr ∧ c = lf then [] :: splitCrlf text
    else (splitCrlf (c :: text)).modifyHead (b :: ·)

def dataLines (data : List UInt8) : List (List UInt8) :=
  (splitCrlf data).flatMap (fun line => line.splitOnP (fun b => b = lf || b = cr))

def frame (id : UInt64) (event data : List UInt8) : List UInt8 :=
  utf8 "id: " ++ utf8 (Nat.repr id.toNat) ++ [lf] ++ (utf8 "event: " ++ event ++ [lf]) ++
    (dataLines data).flatMap (fun line => utf8 "data: " ++ line ++ [lf]) ++ [lf]

def keepAlive : List UInt8 := utf8 ": keep-alive\n\n"

namespace SseStream

variable {W : Type*} [Write W]

def push (bytes : List UInt8) (w : W) : Bool × W :=
  let (wrote, w) := Write.writeAll bytes w
  if wrote then Write.flush w else (false, w)

def start (w : W) : Except IoError (SseStream W) :=
  let (ok, w) := push head w
  if ok then .ok ⟨w, 0⟩ else .error .sink

def send (s : SseStream W) (event data : List UInt8) : Except IoError UInt64 × SseStream W :=
  if event = [] ∨ event.any (fun b => b = cr || b = lf) then
    (.error (.invalidInput "SSE event name must be non-empty and single-line"), s)
  else
    let id := s.nextId
    let (ok, sink) := push (frame id event data) s.sink
    (if ok then .ok id else .error .sink, ⟨sink, id + 1⟩)

def heartbeat (s : SseStream W) : Except IoError Unit × SseStream W :=
  let (ok, sink) := push keepAlive s.sink
  (if ok then .ok () else .error .sink, { s with sink })

end SseStream

inductive Call where
  | send (event data : List UInt8)
  | heartbeat

/-- What the calls come to: the sends that were accepted, with their ids, and the one during which
the sink failed. -/
structure Served (W : Type*) where
  stream : SseStream W
  accepted : List (UInt64 × List UInt8 × List UInt8) := []
  failed : Option Call := none

namespace Served

variable {W : Type*} [Write W]

def call (r : Served W) (c : Call) : Served W :=
  if r.failed.isSome then r
  else
    match c with
    | .send event data =>
      match r.stream.send event data with
      | (.ok id, stream) => { r with stream, accepted := r.accepted ++ [(id, event, data)] }
      | (.error (.invalidInput _), stream) => { r with stream }
      | (.error .sink, stream) => { r with stream, failed := some c }
    | .heartbeat =>
      match r.stream.heartbeat with
      | (.ok (), stream) => { r with stream }
      | (.error _, stream) => { r with stream, failed := some c }

def calls (s : SseStream W) (cs : List Call) : Served W := cs.foldl call ⟨s, [], none⟩

end Served

def PlainName (event : List UInt8) : Prop := event ≠ [] ∧ Plain event

instance : DecidablePred PlainName :=
  fun event => inferInstanceAs (Decidable (event ≠ [] ∧ Plain event))

namespace Call

def sent? : Call → Option (List UInt8 × List UInt8)
  | .send event data => if PlainName event then some (event, data) else none
  | .heartbeat => none

end Call

def received (id : UInt64) (event data : List UInt8) : Event :=
  ⟨utf8 (Nat.repr id.toNat), event, readLf data⟩

lemma splitCrlf_ne_nil (data : List UInt8) : splitCrlf data ≠ [] := by
  induction data using splitCrlf.induct with
  | case1 => exact List.cons_ne_nil _ _
  | case2 => exact List.cons_ne_nil _ _
  | case3 b c text h ih =>
    rw [splitCrlf, if_pos h]
    exact List.cons_ne_nil _ _
  | case4 b c text h ih =>
    rw [splitCrlf, if_neg h]
    obtain ⟨line, rest, hsplit⟩ := List.exists_cons_of_ne_nil ih
    rw [hsplit]
    exact List.cons_ne_nil _ _

lemma ended_modifyHead (b : UInt8) {ls : List (List UInt8)} (h : ls ≠ []) :
    ((ls.modifyHead (b :: ·)).flatMap (fun line => line.splitOnP (fun b => b = lf || b = cr))).flatMap
        (· ++ [lf]) =
      (if b = lf ∨ b = cr then lf else b) ::
        (ls.flatMap (fun line => line.splitOnP (fun b => b = lf || b = cr))).flatMap
          (· ++ [lf]) := by
  obtain ⟨line, rest, rfl⟩ := List.exists_cons_of_ne_nil h
  rw [List.modifyHead_cons, List.flatMap_cons, List.flatMap_cons, List.flatMap_append,
    List.flatMap_append, List.splitOnP_cons_eq_if_modifyHead]
  obtain ⟨first, more, hsplit⟩ := List.exists_cons_of_ne_nil
    (List.splitOnP_ne_nil (fun b => b = lf || b = cr) line)
  by_cases hb : b = lf ∨ b = cr
  · have hends : (decide (b = lf) || decide (b = cr)) = true := by simpa using hb
    rw [if_pos hends, if_pos hb]
    rfl
  · have hends : ¬ (decide (b = lf) || decide (b = cr)) = true := by simpa using hb
    rw [if_neg hends, if_neg hb, hsplit]
    rfl

lemma dataLines_ended (data : List UInt8) :
    (dataLines data).flatMap (· ++ [lf]) = readLf data ++ [lf] := by
  induction data using splitCrlf.induct with
  | case1 => rfl
  | case2 b =>
    rw [@readLf_cons [] b (fun _ => (Option.some_ne_none lf).symm)]
    exact ended_modifyHead b (List.cons_ne_nil [] [])
  | case3 b c text hends ih =>
    obtain ⟨rfl, rfl⟩ := hends
    rw [dataLines, splitCrlf, if_pos ⟨rfl, rfl⟩]
    exact congrArg (lf :: ·) ih
  | case4 b c text hends ih =>
    rw [dataLines, splitCrlf, if_neg hends,
      @readLf_cons (c :: text) b (fun hb hc => hends ⟨hb, Option.some.inj hc⟩)]
    refine (ended_modifyHead b (splitCrlf_ne_nil (c :: text))).trans ?_
    exact congrArg ((if b = lf ∨ b = cr then lf else b) :: ·) ih

lemma dataLines_plain (data : List UInt8) : ∀ line ∈ dataLines data, Plain line := by
  intro line hline
  obtain ⟨part, -, hpart⟩ := List.mem_flatMap.mp hline
  have hbyte : ∀ b ∈ line, (decide (b = lf) || decide (b = cr)) = false :=
    fun b hb => Cut.not_mem_splitOnP hpart hb
  exact ⟨fun h => absurd (hbyte lf h) (by decide), fun h => absurd (hbyte cr h) (by decide)⟩

lemma dataLines_ne_nil (data : List UInt8) : dataLines data ≠ [] := by
  obtain ⟨part, rest, hsplit⟩ := List.exists_cons_of_ne_nil (splitCrlf_ne_nil data)
  rw [dataLines, hsplit, List.flatMap_cons]
  exact List.append_ne_nil_of_left_ne_nil (List.splitOnP_ne_nil _ _) _

lemma digit_byte {c : Char} (h : c.isDigit) {b : UInt8} (hb : b ∈ String.utf8EncodeChar c) :
    48 ≤ b.toNat := by
  have hbounds : 48 ≤ c.toNat ∧ c.toNat ≤ 57 := by
    simpa [Char.isDigit, UInt32.le_iff_toNat_le] using h
  obtain ⟨hlow, hhigh⟩ := hbounds
  rw [← Char.ofNat_toNat c] at hb
  interval_cases c.toNat <;> (obtain rfl := List.mem_singleton.mp hb) <;> decide

lemma repr_byte (n : ℕ) {b : UInt8} (hb : b ∈ utf8 (Nat.repr n)) : 48 ≤ b.toNat := by
  obtain ⟨c, hc, hb⟩ := List.mem_flatMap.mp hb
  rw [Nat.toList_repr] at hc
  exact digit_byte (Nat.isDigit_of_mem_toDigits (by decide) (by decide) hc) hb

lemma frame_eq (id : UInt64) (event data : List UInt8) :
    frame id event data = ((utf8 "id: " ++ utf8 (Nat.repr id.toNat)) :: (utf8 "event: " ++ event) ::
      (dataLines data).map (utf8 "data: " ++ ·) ++ [[]]).flatMap (· ++ [lf]) := by
  rw [frame, List.flatMap_append, List.flatMap_cons, List.flatMap_cons, List.flatMap_map,
    List.append_assoc (utf8 "id: " ++ utf8 (Nat.repr id.toNat) ++ [lf])]
  rfl

lemma frame_block (id : UInt64) {event : List UInt8} (h : PlainName event) (data : List UInt8) :
    Block ((utf8 "id: " ++ utf8 (Nat.repr id.toNat)) :: (utf8 "event: " ++ event) ::
      (dataLines data).map (utf8 "data: " ++ ·) ++ [[]]) [received id event data] := by
  have hdigit : ∀ b : UInt8, b.toNat < 48 → b ∉ utf8 (Nat.repr id.toNat) :=
    fun b hb hmem => absurd (repr_byte _ hmem) (Nat.not_le.mpr hb)
  have hblock := Block.event ⟨hdigit lf (by decide), hdigit cr (by decide)⟩
    (hdigit 0 (by decide)) h.2 h.1 (dataLines_plain data) (dataLines_ne_nil data)
  rw [dataLines_ended, List.dropLast_concat] at hblock
  exact hblock

lemma keepAlive_block : keepAlive = ([utf8 ": keep-alive"] ++ [[]]).flatMap (· ++ [lf]) ∧
    Block ([utf8 ": keep-alive"] ++ [[]]) [] :=
  ⟨by decide, Block.comment (by decide) (by decide)⟩

namespace SseStream

variable {W : Type*} [Write W] {s : SseStream W} {event data : List UInt8}

lemma push_written (bytes : List UInt8) (w : W) :
    ∃ part, part <+: bytes ∧ Write.written (push bytes w).2 = Write.written w ++ part ∧
      ((push bytes w).1 = true → part = bytes) := by
  obtain ⟨part, hpart, hwritten, hall⟩ := Write.writeAll_written bytes w
  rw [push]
  dsimp only
  by_cases hwrote : (Write.writeAll bytes w).1 = true
  · rw [if_pos hwrote]
    exact ⟨part, hpart, (Write.flush_written _).trans hwritten, fun _ => hall hwrote⟩
  · rw [if_neg hwrote]
    exact ⟨part, hpart, hwritten, fun h => absurd h Bool.false_ne_true⟩

lemma start_written {w : W} (h : start w = .ok s) :
    Write.written s.sink = Write.written w ++ head ∧ s.nextId = 0 := by
  obtain ⟨part, -, hwritten, hall⟩ := push_written head w
  rw [start] at h
  dsimp only at h
  split at h
  · rename_i hok
    obtain rfl := Except.ok.inj h
    exact ⟨hwritten.trans (congrArg _ (hall hok)), rfl⟩
  · cases h

lemma send_refused (h : ¬ PlainName event) : s.send event data =
    (.error (.invalidInput "SSE event name must be non-empty and single-line"), s) := by
  rw [send, if_pos]
  by_contra hnot
  obtain ⟨hne, hall⟩ := not_or.mp hnot
  refine h ⟨hne, fun hm => hall ?_, fun hm => hall ?_⟩
  · exact List.any_eq_true.mpr ⟨lf, hm, rfl⟩
  · exact List.any_eq_true.mpr ⟨cr, hm, rfl⟩

lemma send_plain (h : PlainName event) : s.send event data =
    (if (push (frame s.nextId event data) s.sink).1 then .ok s.nextId else .error .sink,
      ⟨(push (frame s.nextId event data) s.sink).2, s.nextId + 1⟩) := by
  rw [send, if_neg]
  rintro (rfl | hany)
  · exact h.1 rfl
  · obtain ⟨b, hb, hends⟩ := List.any_eq_true.mp hany
    rw [Bool.or_eq_true, decide_eq_true_eq, decide_eq_true_eq] at hends
    rcases hends with rfl | rfl
    · exact h.2.2 hb
    · exact h.2.1 hb

lemma heartbeat_eq (s : SseStream W) : s.heartbeat =
    (if (push keepAlive s.sink).1 then .ok () else .error .sink,
      { s with sink := (push keepAlive s.sink).2 }) := rfl

end SseStream

namespace Served

variable {W : Type*} [Write W] {w : W} {cs : List Call} {r : Served W} {c : Call}

def events (r : Served W) : List Event :=
  r.accepted.map (fun x => received x.1 x.2.1 x.2.2)

structure Inv (w : W) (sent : List (List UInt8 × List UInt8)) (r : Served W) : Prop where
  blocks : ∃ ls late part, Block ls r.events ∧ Write.written r.stream.sink =
    Write.written w ++ head ++ (ls.flatMap (· ++ [lf]) ++ part) ∧ part <+: late.flatMap (· ++ [lf]) ∧
    Block late ((r.failed.bind Call.sent?).toList.map
      (fun x => received (UInt64.ofNat r.accepted.length) x.1 x.2)) ∧ (r.failed = none → part = [])
  ids : r.accepted.map Prod.fst = (List.range r.accepted.length).map UInt64.ofNat
  sends : r.accepted.map Prod.snd <+: sent
  all : r.failed = none →
    r.accepted.map Prod.snd = sent ∧ r.stream.nextId = UInt64.ofNat r.accepted.length

lemma inv_start {s : SseStream W} (h : SseStream.start w = .ok s) : Inv w [] ⟨s, [], none⟩ := by
  obtain ⟨hwritten, hid⟩ := SseStream.start_written h
  refine ⟨⟨[], [], [], Block.nil, ?_, List.prefix_rfl, Block.nil, fun _ => rfl⟩, rfl,
    List.prefix_rfl, fun _ => ⟨rfl, hid⟩⟩
  exact hwritten.trans (List.append_nil _).symm

lemma Inv.fail {sent : List (List UInt8 × List UInt8)} (h : Inv w sent r) (hok : r.failed = none)
    {stream : SseStream W} {late : List (List UInt8)} {part : List UInt8}
    (hwritten : Write.written stream.sink = Write.written r.stream.sink ++ part)
    (hpart : part <+: late.flatMap (· ++ [lf]))
    (hlate : Block late (c.sent?.toList.map
      (fun x => received (UInt64.ofNat r.accepted.length) x.1 x.2))) :
    Inv w (sent ++ c.sent?.toList) { r with stream, failed := some c } := by
  obtain ⟨ls, -, part', hls, hbody, -, -, hnone⟩ := h.blocks
  obtain rfl := hnone hok
  refine ⟨⟨ls, late, part, hls, ?_, hpart, hlate, fun h => (nomatch h)⟩, h.ids,
    h.sends.trans (List.prefix_append _ _), fun h => (nomatch h)⟩
  rw [hwritten, hbody, List.append_nil, List.append_assoc]

lemma Inv.push {sent : List (List UInt8 × List UInt8)} (h : Inv w sent r) (hok : r.failed = none)
    {stream : SseStream W} {ls' : List (List UInt8)} (new : List (UInt64 × List UInt8 × List UInt8))
    (hwritten : Write.written stream.sink =
      Write.written r.stream.sink ++ ls'.flatMap (· ++ [lf]))
    (hblock : Block ls' (new.map (fun x => received x.1 x.2.1 x.2.2)))
    (hnew : (r.accepted ++ new).map Prod.fst =
      (List.range (r.accepted ++ new).length).map UInt64.ofNat)
    (hid : stream.nextId = UInt64.ofNat (r.accepted ++ new).length) :
    Inv w (sent ++ new.map Prod.snd) { r with stream, accepted := r.accepted ++ new } := by
  obtain ⟨ls, -, part, hls, hbody, -, -, hnone⟩ := h.blocks
  obtain rfl := hnone hok
  have hsent : (r.accepted ++ new).map Prod.snd = sent ++ new.map Prod.snd := by
    rw [List.map_append, (h.all hok).1]
  refine ⟨⟨ls ++ ls', [], [], ?_, ?_, List.prefix_rfl, ?_, fun _ => rfl⟩, hnew, ?_,
    fun _ => ⟨hsent, hid⟩⟩
  · rw [events, List.map_append]
    exact hls.append hblock
  · rw [hwritten, hbody, List.append_nil, List.append_nil, List.flatMap_append, List.append_assoc]
  · rw [hok]
    exact Block.nil
  · exact hsent ▸ List.prefix_rfl

lemma inv_call {sent : List (List UInt8 × List UInt8)} (h : Inv w sent r) (c : Call) :
    Inv w (sent ++ c.sent?.toList) (r.call c) := by
  rw [call.eq_def]
  by_cases hfailed : r.failed.isSome
  · rw [if_pos hfailed]
    refine ⟨h.blocks, h.ids, h.sends.trans (List.prefix_append _ _), fun hnone => ?_⟩
    rw [hnone] at hfailed
    exact absurd hfailed Bool.false_ne_true
  · have hok : r.failed = none := Option.not_isSome_iff_eq_none.mp hfailed
    obtain ⟨hall, hid⟩ := h.all hok
    rw [if_neg hfailed]
    cases c with
    | send event data =>
      dsimp only
      by_cases hname : PlainName event
      · obtain ⟨part, hpart, hwritten, hdone⟩ :=
          SseStream.push_written (frame r.stream.nextId event data) r.stream.sink
        have hsent : (Call.send event data).sent? = some (event, data) := if_pos hname
        have hblock := frame_block r.stream.nextId hname data
        rw [SseStream.send_plain hname, hsent]
        by_cases hpush : (SseStream.push (frame r.stream.nextId event data) r.stream.sink).1 = true
        · rw [if_pos hpush]
          have hframe := (hdone hpush).trans (frame_eq r.stream.nextId event data)
          refine h.push hok [(r.stream.nextId, event, data)]
            (hwritten.trans (congrArg _ hframe)) hblock ?_ ?_
          · rw [List.map_append, List.length_append, List.length_singleton, List.range_succ,
              List.map_append, h.ids, hid]
            rfl
          · rw [List.length_append, List.length_singleton, UInt64.ofNat_add, ← hid]
            rfl
        · rw [if_neg hpush]
          have hfail := @Inv.fail _ _ _ _ (.send event data) _ h hok ⟨_, r.stream.nextId + 1⟩ _ part
            hwritten (frame_eq _ _ _ ▸ hpart)
          rw [hsent] at hfail
          exact hfail (hid ▸ hblock)
      · rw [SseStream.send_refused hname]
        have hsent : (Call.send event data).sent? = none := if_neg hname
        rw [hsent]
        exact (List.append_nil sent).symm ▸ h
    | heartbeat =>
      obtain ⟨part, hpart, hwritten, hdone⟩ := SseStream.push_written keepAlive r.stream.sink
      obtain ⟨hkeep, hblock⟩ := keepAlive_block
      dsimp only
      rw [SseStream.heartbeat_eq]
      by_cases hpush : (SseStream.push keepAlive r.stream.sink).1 = true
      · rw [if_pos hpush]
        have hkept := (hdone hpush).trans hkeep
        have hpushed := @Inv.push _ _ _ _ _ h hok ⟨_, r.stream.nextId⟩ _ []
          (hwritten.trans (congrArg _ hkept)) hblock
        rw [List.append_nil] at hpushed
        exact hpushed h.ids hid
      · rw [if_neg hpush]
        exact @Inv.fail _ _ _ _ .heartbeat _ h hok ⟨_, r.stream.nextId⟩ _ part hwritten
          (hkeep ▸ hpart) hblock

lemma inv_calls {s : SseStream W} (h : SseStream.start w = .ok s) (cs : List Call) :
    Inv w (cs.filterMap Call.sent?) (calls s cs) := by
  induction cs using List.reverseRecOn with
  | nil => exact inv_start h
  | append_singleton cs c ih =>
    rw [calls, List.foldl_append, List.filterMap_append]
    have hstep := inv_call ih c
    cases hc : c.sent? with
    | none =>
      rw [hc] at hstep
      rw [List.filterMap_cons_none hc]
      exact hstep
    | some x =>
      rw [hc] at hstep
      rw [List.filterMap_cons_some hc]
      exact hstep

lemma Inv.parse {sent : List (List UInt8 × List UInt8)} (h : Inv w sent r) :
    ∃ body late, Write.written r.stream.sink = Write.written w ++ head ++ body ∧
      parse body = r.events ++ late ∧ (r.failed = none → late = []) ∧
      late <+: (r.failed.bind Call.sent?).toList.map
        (fun x => received (UInt64.ofNat r.accepted.length) x.1 x.2) := by
  obtain ⟨ls, ls', part, hls, hwritten, hpart, hlate, hnone⟩ := h.blocks
  have hbefore := parse_prefix (List.prefix_append (ls.flatMap (· ++ [lf])) part)
  have hafter := parse_prefix ((List.prefix_append_right_inj (ls.flatMap (· ++ [lf]))).mpr hpart)
  rw [← List.flatMap_append, (hls.append hlate).parse] at hafter
  rw [hls.parse] at hbefore
  obtain ⟨late, hparse⟩ := hbefore
  rw [← hparse, List.prefix_append_right_inj] at hafter
  refine ⟨_, late, hwritten, hparse.symm, fun hok => ?_, hafter⟩
  rw [hok] at hafter
  exact List.prefix_nil.mp hafter

lemma calls_refused {s : SseStream W} {event : List UInt8} (h : ¬ PlainName event)
    (data : List UInt8) : calls s (cs ++ [.send event data]) = calls s cs := by
  rw [calls, List.foldl_append]
  change (calls s cs).call (.send event data) = calls s cs
  rw [call.eq_def]
  split
  · rfl
  · dsimp only
    rw [SseStream.send_refused h]

end Served

instance : Write (List UInt8) where
  writeAll bytes w := (true, w ++ bytes)
  flush w := (true, w)
  written w := w
  writeAll_written bytes _ := ⟨bytes, List.prefix_rfl, rfl, fun _ => rfl⟩
  flush_written _ := rfl

open Served in
theorem stream_decodes_to_sent {W : Type*} [Write W] {w : W} {s : SseStream W}
    (h : SseStream.start w = .ok s) (cs : List Call) :
    (∃ body late, Write.written (calls s cs).stream.sink = Write.written w ++ head ++ body ∧
      parse body = (calls s cs).accepted.map (fun x => received x.1 x.2.1 x.2.2) ++ late ∧
      ((calls s cs).failed = none → late = []) ∧
      late <+: ((calls s cs).failed.bind Call.sent?).toList.map
        (fun x => received (UInt64.ofNat (calls s cs).accepted.length) x.1 x.2)) ∧
    (calls s cs).accepted.map Prod.fst =
      (List.range (calls s cs).accepted.length).map UInt64.ofNat ∧
    (calls s cs).accepted.map Prod.snd <+: cs.filterMap Call.sent? ∧
    ((calls s cs).failed = none →
      (calls s cs).accepted.map Prod.snd = cs.filterMap Call.sent?) ∧
    ∀ event data, ¬ PlainName event → calls s (cs ++ [.send event data]) = calls s cs :=
  have hinv := inv_calls h cs
  ⟨hinv.parse, hinv.ids, hinv.sends, fun hok => (hinv.all hok).1,
    fun _ data hname => calls_refused hname data⟩

theorem stream_decodes_to_sent_mixed :
    ∃ body late, Write.written (Served.calls (⟨head, 0⟩ : SseStream (List UInt8))
        [.send (utf8 "log") (utf8 "a\n\rb\r\nc\r"), .heartbeat]).stream.sink = head ++ body ∧
      parse body = [received 0 (utf8 "log") (utf8 "a\n\rb\r\nc\r")] ++ late ∧ late = [] := by
  obtain ⟨⟨body, late, hwritten, hparse, hlate, -⟩, -⟩ := stream_decodes_to_sent
    (show SseStream.start ([] : List UInt8) = .ok ⟨head, 0⟩ from rfl)
    [.send (utf8 "log") (utf8 "a\n\rb\r\nc\r"), .heartbeat]
  exact ⟨body, late, hwritten, hparse, hlate rfl⟩

example : received 0 (utf8 "log") (utf8 "a\n\rb\r\nc\r") =
    ⟨utf8 "0", utf8 "log", utf8 "a\n\nb\nc\n"⟩ := by decide

end Nightcrow.Web
