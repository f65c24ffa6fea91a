import Nightcrow.Session.Terminal.Replay

/-! How a pane's replay record is composed: its bytes are copied once, into chunks allocated for
the length they are predicted to have. -/

namespace Nightcrow.Session.Terminal

open Nightcrow.Library Nightcrow.Runtime.Emulator

/-- A panic, a loop that would not end, a copy outside a chunk, or a read of a byte that was never
written. -/
inductive Fault
  | outOfBounds
  | endless
  | outside
  | badSlice
  | miscounted
  | uninitialised
deriving DecidableEq, Repr

structure Chunks where
  chunks : List (List (Option UInt8))
  openChunk : ℕ := 0
  filled : ℕ := 0
  written : ℕ := 0
deriving DecidableEq, Repr

lemma replayChunkBytes_pos : 0 < replayChunkBytes := by
  simp [replayChunkBytes]

def allocate (remaining : ℕ) : List (List (Option UInt8)) :=
  if 0 < remaining then
    let len := min remaining replayChunkBytes
    List.replicate len none :: allocate (remaining - len)
  else []
termination_by remaining
decreasing_by
  have hpos := replayChunkBytes_pos
  omega

namespace Chunks

def new (total : ℕ) : Chunks := { chunks := allocate total }

def copyAt (chunk : List (Option UInt8)) (at_ : ℕ) (bytes : List UInt8) :
    Except Fault (List (Option UInt8)) :=
  if at_ + bytes.length ≤ chunk.length then
    .ok (chunk.take at_ ++ bytes.map some ++ chunk.drop (at_ + bytes.length))
  else .error .outside

def write (c : Chunks) (bytes : List UInt8) : Except Fault Chunks :=
  if bytes.isEmpty then .ok c
  else
    match c.chunks[c.openChunk]? with
    | none => .error .outOfBounds
    | some chunk =>
      let take := min (chunk.length - c.filled) bytes.length
      match copyAt chunk c.filled (bytes.take take) with
      | .error fault => .error fault
      | .ok chunk' =>
        if _htake : take = 0 then .error .endless
        else
          let c :=
            { c with
              chunks := c.chunks.set c.openChunk chunk'
              filled := c.filled + take
              written := c.written + take }
          let c :=
            if c.filled = chunk.length then { c with openChunk := c.openChunk + 1, filled := 0 }
            else c
          c.write (bytes.drop take)
termination_by bytes.length
decreasing_by
  simp only [List.length_drop]
  omega

def finish (c : Chunks) : Except Fault (List (List UInt8)) :=
  if c.written ≠ (c.chunks.map List.length).sum then .error .miscounted
  else if c.chunks.any (fun chunk => chunk.any Option.isNone) then .error .uninitialised
  else .ok (c.chunks.map fun chunk => chunk.filterMap fun byte => byte)

end Chunks

structure Slices (ring : List UInt8) where
  front : List UInt8
  back : List UInt8
  whole : front ++ back = ring

def slice (bytes : List UInt8) (start stop : ℕ) : Except Fault (List UInt8) :=
  if start ≤ stop ∧ stop ≤ bytes.length then .ok ((bytes.take stop).drop start)
  else .error .badSlice

def pushRing (sink : Chunks) {ring : List UInt8} (slices : Slices ring) (start stop : ℕ) :
    Except Fault Chunks :=
  let start := min start ring.length
  let stop := max (min stop ring.length) start
  (if start < slices.front.length then do
    sink.write (← slice slices.front start (min stop slices.front.length))
  else .ok sink) >>= fun sink =>
  if slices.front.length < stop then do
    sink.write
      (← slice slices.back (start - slices.front.length) (stop - slices.front.length))
  else .ok sink

def pushNormalRecord (sink : Chunks) (p : PaneState) (scrollback : Slices p.scrollback) :
    Except Fault Chunks := do
  let sink ← pushRing sink scrollback 0 p.covered
  let sink ← sink.write p.normalScreen
  pushRing sink scrollback p.covered p.scrollback.length

namespace PaneReplay

def captureUnder (p : PaneState) (scrollback : Slices p.scrollback) :
    Except Fault (List (List UInt8)) :=
  if p.modes.altScreen && !(p.scrollback.isEmpty && p.normalScreen.isEmpty) then do
    let chunks := Chunks.new (leaveAltScreen.length + p.scrollback.length + p.normalScreen.length)
    let chunks ← chunks.write leaveAltScreen
    let chunks ← pushNormalRecord chunks p scrollback
    chunks.finish
  else .ok []

def captureRecord (p : PaneState) (scrollback : Slices p.scrollback) (since : Slices p.since) :
    Except Fault (List (List UInt8)) :=
  if p.modes.altScreen then do
    let chunks ← (Chunks.new (p.screen.length + p.since.length)).write p.screen
    let chunks ← pushRing chunks since 0 p.since.length
    chunks.finish
  else do
    let chunks := Chunks.new (p.scrollback.length + p.normalScreen.length)
    let chunks ← pushNormalRecord chunks p scrollback
    chunks.finish

-- `capture` as the hub runs it, over the slices its rings are stored in
def captureInPlace (p : PaneState) (scrollback : Slices p.scrollback) (since : Slices p.since) :
    Except Fault PaneReplay := do
  let normalUnder ← captureUnder p scrollback
  let record ← captureRecord p scrollback since
  let prelude := p.modes.prelude
  let chunks ← (Chunks.new prelude.length).write prelude
  let prelude ← chunks.finish
  .ok { pane := p.id, size := p.size, title := p.title, normalUnder, prelude, record }

end PaneReplay

structure Holds (total : ℕ) (bytes : List UInt8) (c : Chunks) : Prop where
  fits : bytes.length ≤ total
  lengths : c.chunks.map List.length = sizes replayChunkBytes total
  flat : c.chunks.flatten = bytes.map some ++ List.replicate (total - bytes.length) none
  written : c.written = bytes.length
  position : bytes.length < total →
    c.openChunk * replayChunkBytes + c.filled = bytes.length ∧ c.filled < replayChunkBytes

lemma allocate_lengths (total : ℕ) :
    (allocate total).map List.length = sizes replayChunkBytes total ∧
      (allocate total).flatten = List.replicate total none := by
  have hpos := replayChunkBytes_pos
  induction total using allocate.induct with
  | case1 total ht len ih =>
    rw [allocate, if_pos ht]
    refine ⟨?_, ?_⟩
    · rw [List.map_cons, ih.1, List.length_replicate, sizes_step hpos ht]
    · rw [List.flatten_cons, ih.2, List.replicate_append_replicate]
      congr 1
      omega
  | case2 total ht =>
    obtain rfl : total = 0 := by omega
    have hnone : (0 + replayChunkBytes - 1) / replayChunkBytes = 0 :=
      Nat.div_eq_of_lt (by omega)
    rw [allocate, if_neg ht, sizes, hnone]
    exact ⟨rfl, rfl⟩

lemma holds_new (total : ℕ) : Holds total [] (Chunks.new total) := by
  obtain ⟨hlengths, hflat⟩ := allocate_lengths total
  refine ⟨Nat.zero_le _, hlengths, ?_, rfl, fun _ => ⟨?_, replayChunkBytes_pos⟩⟩
  · simpa [Chunks.new] using hflat
  · simp [Chunks.new]

namespace Holds

variable {total : ℕ} {written bytes : List UInt8} {c : Chunks}

lemma open_chunk (h : Holds total written c) (hlt : written.length < total) :
    ∃ chunk, c.chunks[c.openChunk]? = some chunk ∧ c.filled < chunk.length ∧
      chunk.length = min replayChunkBytes (total - c.openChunk * replayChunkBytes) := by
  obtain ⟨hat, hfilled⟩ := h.position hlt
  have hget := sizes_getElem? replayChunkBytes_pos
    (show c.openChunk * replayChunkBytes < total by omega)
  rw [← h.lengths, List.getElem?_map, Option.map_eq_some_iff] at hget
  obtain ⟨chunk, hchunk, hlen⟩ := hget
  exact ⟨chunk, hchunk, by omega, hlen⟩

lemma flat_set (h : Holds total written c) (hlt : written.length < total)
    {chunk : List (Option UInt8)} (hchunk : c.chunks[c.openChunk]? = some chunk)
    (hfit : c.filled + bytes.length ≤ chunk.length) :
    (c.chunks.set c.openChunk (chunk.take c.filled ++ bytes.map some ++
      chunk.drop (c.filled + bytes.length))).flatten =
      (written ++ bytes).map some ++
        List.replicate (total - (written ++ bytes).length) none := by
  obtain ⟨hat, hfilled⟩ := h.position hlt
  obtain ⟨hopen, hget⟩ := List.getElem?_eq_some_iff.mp hchunk
  have hbefore : (c.chunks.take c.openChunk).flatten.length = c.openChunk * replayChunkBytes := by
    rw [List.length_flatten, List.map_take, h.lengths]
    exact sum_take_sizes (by omega)
  have hsplit : c.chunks = c.chunks.take c.openChunk ++ chunk :: c.chunks.drop (c.openChunk + 1) := by
    rw [← hget, List.getElem_cons_drop, List.take_append_drop]
  have hflat := h.flat
  rw [hsplit, List.flatten_append, List.flatten_cons] at hflat
  have hfirst : (c.chunks.take c.openChunk).flatten ++ chunk.take c.filled =
      written.map some := by
    have htake := congrArg (List.take written.length) hflat
    rw [← hat, ← hbefore, List.take_length_add_append,
      List.take_append_of_le_length (by omega)] at htake
    rw [htake, hbefore, hat]
    simp
  have hlast : chunk.drop (c.filled + bytes.length) ++
      (c.chunks.drop (c.openChunk + 1)).flatten =
      List.replicate (total - (written ++ bytes).length) none := by
    have hdrop := congrArg (List.drop (written.length + bytes.length)) hflat
    rw [← hat, Nat.add_assoc, ← hbefore, List.drop_length_add_append,
      List.drop_append_of_le_length hfit] at hdrop
    have hpast : (written.map (some : UInt8 → Option UInt8)).drop
        (written.length + bytes.length) = [] := List.drop_eq_nil_of_le (by simp)
    rw [hdrop, hbefore, ← Nat.add_assoc, hat, List.drop_append, hpast, List.nil_append,
      List.drop_replicate, List.length_map, List.length_append]
    congr 1
    omega
  rw [List.set_eq_take_append_cons_drop, if_pos hopen, List.flatten_append, List.flatten_cons,
    List.map_append, List.append_assoc, List.append_assoc, hlast, ← List.append_assoc, hfirst,
    List.append_assoc]

lemma fill (h : Holds total written c) (bytes : List UInt8) (hlt : written.length < total)
    {chunk : List (Option UInt8)} (hchunk : c.chunks[c.openChunk]? = some chunk)
    (hlen : chunk.length = min replayChunkBytes (total - c.openChunk * replayChunkBytes))
    (hfit : c.filled + bytes.length ≤ chunk.length) :
    Holds total (written ++ bytes)
      (if c.filled + bytes.length = chunk.length then
        { chunks := c.chunks.set c.openChunk (chunk.take c.filled ++ bytes.map some ++
            chunk.drop (c.filled + bytes.length))
          openChunk := c.openChunk + 1
          filled := 0
          written := c.written + bytes.length }
      else
        { chunks := c.chunks.set c.openChunk (chunk.take c.filled ++ bytes.map some ++
            chunk.drop (c.filled + bytes.length))
          openChunk := c.openChunk
          filled := c.filled + bytes.length
          written := c.written + bytes.length }) := by
  obtain ⟨hat, hfilled⟩ := h.position hlt
  have hflat := h.flat_set hlt hchunk hfit
  have hfits : (written ++ bytes).length ≤ total := by
    rw [List.length_append]
    omega
  have hlengths : (c.chunks.set c.openChunk (chunk.take c.filled ++ bytes.map some ++
      chunk.drop (c.filled + bytes.length))).map List.length = sizes replayChunkBytes total := by
    obtain ⟨hopen, hget⟩ := List.getElem?_eq_some_iff.mp hchunk
    have hsame : (chunk.take c.filled ++ bytes.map some ++
        chunk.drop (c.filled + bytes.length)).length = chunk.length := by
      simp only [List.length_append, List.length_take, List.length_map, List.length_drop]
      omega
    have hstays : (c.chunks.map List.length).set c.openChunk chunk.length =
        c.chunks.map List.length := by
      rw [← hget, ← List.map_set, List.set_getElem_self]
    rw [List.map_set, hsame, hstays, h.lengths]
  have hwritten : c.written + bytes.length = (written ++ bytes).length := by
    rw [h.written, List.length_append]
  split_ifs with hfull
  · refine ⟨hfits, hlengths, hflat, hwritten, fun hmore => ⟨?_, replayChunkBytes_pos⟩⟩
    rw [List.length_append] at hmore
    simp only [List.length_append, Nat.succ_mul]
    omega
  · refine ⟨hfits, hlengths, hflat, hwritten, fun hmore => ?_⟩
    simp only [List.length_append]
    omega

lemma write (h : Holds total written c) (bytes : List UInt8)
    (hfit : written.length + bytes.length ≤ total) :
    ∃ c', c.write bytes = .ok c' ∧ Holds total (written ++ bytes) c' := by
  induction hn : bytes.length using Nat.strong_induction_on generalizing written bytes c with
  | _ n ih =>
    by_cases hbytes : bytes = []
    · subst hbytes
      refine ⟨c, ?_, by simpa using h⟩
      rw [Chunks.write, if_pos List.isEmpty_nil]
    · have hpos : 0 < bytes.length := List.length_pos_iff.mpr hbytes
      obtain ⟨chunk, hchunk, hroom, hlen⟩ := h.open_chunk (by omega)
      generalize htake : min (chunk.length - c.filled) bytes.length = take
      have hlast : (bytes.take take).length = take := by
        rw [List.length_take]
        omega
      have hcopy : Chunks.copyAt chunk c.filled (bytes.take take) =
          .ok (chunk.take c.filled ++ (bytes.take take).map some ++
            chunk.drop (c.filled + (bytes.take take).length)) := by
        rw [Chunks.copyAt, if_pos (by omega)]
      have hfill := h.fill (bytes.take take) (by omega) hchunk hlen (by omega)
      obtain ⟨c', hc', hh'⟩ := ih (bytes.drop take).length (by rw [List.length_drop]; omega) hfill _
        (by rw [List.length_append, List.length_drop]; omega) rfl
      refine ⟨c', ?_, ?_⟩
      · rw [Chunks.write, if_neg (by simpa using hbytes), hchunk]
        simp only [htake, hcopy, dif_neg (show take ≠ 0 by omega), hlast]
        rw [hlast] at hc'
        exact hc'
      · rw [List.append_assoc, List.take_append_drop] at hh'
        exact hh'

lemma finish (h : Holds written.length written c) :
    c.finish = .ok (frameChunks written) := by
  have hflat := h.flat
  rw [Nat.sub_self, List.replicate_zero, List.append_nil] at hflat
  have hcount : c.written = (c.chunks.map List.length).sum := by
    rw [h.written, ← List.length_flatten, hflat, List.length_map]
  have hsome : ∀ chunk ∈ c.chunks, ∀ byte ∈ chunk, byte.isSome = true := by
    intro chunk hchunk byte hbyte
    have hmem := List.mem_flatten_of_mem hchunk hbyte
    rw [hflat] at hmem
    obtain ⟨b, -, rfl⟩ := List.mem_map.mp hmem
    rfl
  have hall : ¬ (c.chunks.any fun chunk => chunk.any Option.isNone) = true := by
    simp only [List.any_eq_true, not_exists, not_and]
    intro chunk hchunk byte hbyte
    rw [Option.isNone_iff_eq_none, ← Option.not_isSome_iff_eq_none, not_not]
    exact hsome chunk hchunk byte hbyte
  rw [Chunks.finish, if_neg (by simpa using hcount), if_neg hall, frameChunks]
  congr 1
  apply eq_chunks replayChunkBytes_pos
  · rw [List.map_map, ← h.lengths]
    apply List.map_congr_left
    intro chunk hchunk
    exact List.filterMap_length_eq_length.mpr (hsome chunk hchunk)
  · rw [← List.filterMap_flatten, hflat, List.filterMap_map]
    exact List.filterMap_some

lemma pushRing (h : Holds total written c) {ring : List UInt8} (slices : Slices ring)
    {start stop : ℕ} (hle : start ≤ stop) (hstop : stop ≤ ring.length)
    (hfit : written.length + (stop - start) ≤ total) :
    ∃ c', pushRing c slices start stop = .ok c' ∧
      Holds total (written ++ (ring.take stop).drop start) c' := by
  obtain ⟨front, back, rfl⟩ := slices
  rw [List.length_append] at hstop
  have hsplit : ((front ++ back).take stop).drop start =
      (front.take (min stop front.length)).drop start ++
        (back.take (stop - front.length)).drop (start - front.length) := by
    have hshort : front.take (min stop front.length) = front.take stop := by
      rw [← List.take_take, List.take_length]
    rw [List.take_append, List.drop_append, hshort, List.length_take]
    congr 1
    rcases Nat.lt_or_ge stop front.length with hlt | hge
    · simp [Nat.sub_eq_zero_of_le hlt.le]
    · rw [min_eq_right hge]
  have hfirst : ∃ c₁, (if start < front.length then do
        c.write (← slice front start (min stop front.length)) else .ok c) = .ok c₁ ∧
      Holds total (written ++ (front.take (min stop front.length)).drop start) c₁ := by
    split_ifs with hs
    · have hslice : slice front start (min stop front.length) =
          .ok ((front.take (min stop front.length)).drop start) := by
        rw [slice, if_pos (by omega)]
      rw [hslice]
      exact h.write _ (by rw [List.length_drop, List.length_take]; omega)
    · refine ⟨c, rfl, ?_⟩
      rw [List.drop_eq_nil_of_le (by rw [List.length_take]; omega), List.append_nil]
      exact h
  obtain ⟨c₁, hc₁, h₁⟩ := hfirst
  have hsecond : ∃ c₂, (if front.length < stop then do
        c₁.write (← slice back (start - front.length) (stop - front.length)) else .ok c₁) =
        .ok c₂ ∧
      Holds total (written ++ (front.take (min stop front.length)).drop start ++
        (back.take (stop - front.length)).drop (start - front.length)) c₂ := by
    split_ifs with hs
    · have hslice : slice back (start - front.length) (stop - front.length) =
          .ok ((back.take (stop - front.length)).drop (start - front.length)) := by
        rw [slice, if_pos (by omega)]
      rw [hslice]
      refine h₁.write _ ?_
      simp only [List.length_append, List.length_drop, List.length_take]
      omega
    · refine ⟨c₁, rfl, ?_⟩
      rw [Nat.sub_eq_zero_of_le (not_lt.mp hs), List.take_zero, List.drop_nil, List.append_nil]
      exact h₁
  obtain ⟨c₂, hc₂, h₂⟩ := hsecond
  refine ⟨c₂, ?_, ?_⟩
  · have hstart : min start (front ++ back).length = start := by
      rw [List.length_append]
      omega
    have hend : max (min stop (front ++ back).length) start = stop := by
      rw [List.length_append]
      omega
    rw [Terminal.pushRing]
    simp only [hstart, hend, hc₁]
    exact hc₂
  · rw [hsplit, ← List.append_assoc]
    exact h₂

lemma pushNormalRecord (h : Holds total written c) {p : PaneState}
    (scrollback : Slices p.scrollback) (hcovered : p.covered ≤ p.scrollback.length)
    (hfit : written.length + p.normalRecord.length ≤ total) :
    ∃ c', pushNormalRecord c p scrollback = .ok c' ∧
      Holds total (written ++ p.normalRecord) c' := by
  simp only [PaneState.normalRecord, List.length_append, List.length_take,
    List.length_drop] at hfit
  obtain ⟨c₁, hc₁, h₁⟩ := h.pushRing scrollback (Nat.zero_le p.covered) hcovered (by omega)
  obtain ⟨c₂, hc₂, h₂⟩ := h₁.write p.normalScreen (by
    simp only [List.length_append, List.length_drop, List.length_take]
    omega)
  obtain ⟨c₃, hc₃, h₃⟩ := h₂.pushRing scrollback hcovered le_rfl (by
    simp only [List.length_append, List.length_drop, List.length_take]
    omega)
  refine ⟨c₃, ?_, ?_⟩
  · simp only [Terminal.pushNormalRecord, bind, Except.bind, hc₁, hc₂]
    exact hc₃
  · rw [List.take_length, List.drop_zero, List.append_assoc, List.append_assoc,
      ← List.append_assoc (p.scrollback.take p.covered)] at h₃
    exact h₃

end Holds

namespace PaneReplay

variable {p : PaneState}

lemma length_normalRecord (hcovered : p.covered ≤ p.scrollback.length) :
    p.normalRecord.length = p.scrollback.length + p.normalScreen.length := by
  simp only [PaneState.normalRecord, List.length_append, List.length_take, List.length_drop]
  omega

lemma captureUnder_eq (hcovered : p.covered ≤ p.scrollback.length)
    (scrollback : Slices p.scrollback) :
    captureUnder p scrollback = .ok (capture p).normalUnder := by
  have hlen := length_normalRecord hcovered
  have hunder : (capture p).normalUnder =
      if p.modes.altScreen && !(p.scrollback.isEmpty && p.normalScreen.isEmpty) then
        frameChunks (leaveAltScreen ++ p.normalRecord)
      else [] := rfl
  rw [captureUnder, hunder]
  split_ifs
  · have hnew := holds_new (leaveAltScreen.length + p.scrollback.length + p.normalScreen.length)
    obtain ⟨c₁, hc₁, h₁⟩ := hnew.write leaveAltScreen (by
      rw [List.length_nil]
      omega)
    obtain ⟨c₂, hc₂, h₂⟩ := h₁.pushNormalRecord scrollback hcovered (by
      rw [List.nil_append, hlen]
      omega)
    rw [List.nil_append] at h₂
    have htotal : leaveAltScreen.length + p.scrollback.length + p.normalScreen.length =
        (leaveAltScreen ++ p.normalRecord).length := by
      rw [List.length_append, hlen, Nat.add_assoc]
    rw [htotal] at h₂
    simp only [bind, Except.bind, hc₁, hc₂]
    exact h₂.finish
  · rfl

lemma captureRecord_eq (hcovered : p.covered ≤ p.scrollback.length)
    (scrollback : Slices p.scrollback) (since : Slices p.since) :
    captureRecord p scrollback since = .ok (capture p).record := by
  have hlen := length_normalRecord hcovered
  have hrecord : (capture p).record =
      if p.modes.altScreen then frameChunks (p.screen ++ p.since)
      else frameChunks p.normalRecord := rfl
  rw [captureRecord, hrecord]
  split_ifs
  · have hnew := holds_new (p.screen.length + p.since.length)
    obtain ⟨c₁, hc₁, h₁⟩ := hnew.write p.screen (by
      rw [List.length_nil]
      omega)
    obtain ⟨c₂, hc₂, h₂⟩ := h₁.pushRing since (Nat.zero_le _) le_rfl (by
      rw [List.nil_append]
      omega)
    rw [List.nil_append, List.take_length, List.drop_zero, ← List.length_append] at h₂
    simp only [bind, Except.bind, hc₁, hc₂]
    exact h₂.finish
  · have hnew := holds_new (p.scrollback.length + p.normalScreen.length)
    obtain ⟨c₁, hc₁, h₁⟩ := hnew.pushNormalRecord scrollback hcovered (by
      rw [List.length_nil, hlen]
      omega)
    rw [List.nil_append, ← hlen] at h₁
    simp only [bind, Except.bind, hc₁]
    exact h₁.finish

lemma captureInPlace_eq (hcovered : p.covered ≤ p.scrollback.length)
    (scrollback : Slices p.scrollback) (since : Slices p.since) :
    captureInPlace p scrollback since = .ok (capture p) := by
  obtain ⟨c, hc, h⟩ := (holds_new p.modes.prelude.length).write p.modes.prelude (by
    rw [List.length_nil, Nat.zero_add])
  simp only [captureInPlace, captureUnder_eq hcovered, captureRecord_eq hcovered, bind,
    Except.bind, hc, h.finish]
  rfl

lemma frameChunks_flatten (data : List UInt8) : (frameChunks data).flatten = data :=
  chunks_flatten replayChunkBytes_pos data

def WellCut (part : List (List UInt8)) : Prop :=
  (∀ chunk ∈ part, chunk ≠ [] ∧ chunk.length ≤ replayChunkBytes) ∧
    ∀ chunk ∈ part.dropLast, chunk.length = replayChunkBytes

lemma wellCut_frameChunks (data : List UInt8) : WellCut (frameChunks data) := by
  have hlengths := length_chunks replayChunkBytes data
  refine ⟨fun chunk hchunk => ?_, fun chunk hchunk => ?_⟩
  · have hmem := List.mem_map_of_mem (f := List.length) hchunk
    rw [frameChunks, hlengths] at hmem
    obtain ⟨hpos, hle⟩ := mem_sizes replayChunkBytes_pos hmem
    exact ⟨List.ne_nil_of_length_pos hpos, hle⟩
  · have hmem := List.mem_map_of_mem (f := List.length) hchunk
    rw [List.map_dropLast, frameChunks, hlengths] at hmem
    exact mem_dropLast_sizes replayChunkBytes_pos hmem

lemma wellCut_nil : WellCut [] := ⟨by simp, by simp⟩

lemma wellCut_capture (p : PaneState) : WellCut (capture p).normalUnder ∧
    WellCut (capture p).prelude ∧ WellCut (capture p).record := by
  refine ⟨?_, wellCut_frameChunks _, ?_⟩
  · simp only [capture]
    split_ifs
    exacts [wellCut_frameChunks _, wellCut_nil]
  · simp only [capture]
    split_ifs <;> exact wellCut_frameChunks _

/-- On the alternate screen with nothing recorded of the normal one, no leave sequence is
captured. -/
theorem nothing_under_is_not_captured : ¬ ∀ (p : PaneState) (scrollback : Slices p.scrollback)
    (since : Slices p.since) (r : PaneReplay), p.covered ≤ p.scrollback.length →
    p.modes.altScreen = true → captureInPlace p scrollback since = .ok r →
    r.normalUnder.flatten = leaveAltScreen ++ (p.scrollback.take p.covered ++ p.normalScreen ++
      p.scrollback.drop p.covered) := by
  intro hclaim
  have hat := hclaim { id := 1, title := none, size := ⟨24, 80⟩, modes := { altScreen := true } }
    ⟨[], [], rfl⟩ ⟨[], [], rfl⟩ _ (Nat.zero_le _) rfl (captureInPlace_eq (Nat.zero_le _) _ _)
  exact absurd hat (by decide)

theorem capture_copies_the_record (p : PaneState) (hcovered : p.covered ≤ p.scrollback.length)
    (scrollback : Slices p.scrollback) (since : Slices p.since) :
    ∃ r, captureInPlace p scrollback since = .ok r ∧
      (WellCut r.normalUnder ∧ WellCut r.prelude ∧ WellCut r.record) ∧
      r.prelude.flatten = p.modes.prelude ∧
      (p.modes.altScreen = false → r.normalUnder = [] ∧
        r.record.flatten = p.scrollback.take p.covered ++ p.normalScreen ++
          p.scrollback.drop p.covered) ∧
      (p.modes.altScreen = true → r.record.flatten = p.screen ++ p.since ∧
        (p.scrollback = [] ∧ p.normalScreen = [] → r.normalUnder = []) ∧
        (¬ (p.scrollback = [] ∧ p.normalScreen = []) →
          r.normalUnder.flatten = leaveAltScreen ++ (p.scrollback.take p.covered ++
            p.normalScreen ++ p.scrollback.drop p.covered))) := by
  refine ⟨capture p, captureInPlace_eq hcovered scrollback since, wellCut_capture p,
    frameChunks_flatten _, fun halt => ?_, fun halt => ⟨?_, fun hnone => ?_, fun hsome => ?_⟩⟩
  · simp only [capture, halt, Bool.false_and, Bool.false_eq_true, if_false, frameChunks_flatten,
      true_and]
    rfl
  · simp only [capture, halt, if_true, frameChunks_flatten]
  · simp [capture, hnone.1, hnone.2]
  · have hunder : (p.modes.altScreen && !(p.scrollback.isEmpty && p.normalScreen.isEmpty)) =
        true := by
      rw [halt, Bool.true_and, Bool.not_eq_true', ← Bool.not_eq_true, Bool.and_eq_true,
        List.isEmpty_iff, List.isEmpty_iff]
      exact hsome
    simp only [capture, if_pos hunder, frameChunks_flatten]
    rfl

theorem capture_across_the_wrap :
    let p : PaneState :=
      { id := 1, title := none, size := ⟨24, 80⟩, scrollback := [1, 2, 3], normalScreen := [9]
        covered := 2 }
    ∃ r, captureInPlace p ⟨[1], [2, 3], rfl⟩ ⟨[], [], rfl⟩ = .ok r ∧ r.normalUnder = [] ∧
      r.record.flatten = [1, 2, 9, 3] := by
  intro p
  obtain ⟨r, hr, -, -, hnormal, -⟩ :=
    capture_copies_the_record p (by decide) ⟨[1], [2, 3], rfl⟩ ⟨[], [], rfl⟩
  exact ⟨r, hr, hnormal rfl⟩

end PaneReplay

end Nightcrow.Session.Terminal
