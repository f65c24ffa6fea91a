import Nightcrow.Daemon.Frame

namespace Nightcrow.Daemon

open Nightcrow.Library
open Nightcrow.Library.Arrival (Gives)

inductive ReadError
  | unknownKind (byte : UInt8)
  | tooLong (bytes : ℕ)
  | endedInBody (bytes : ℕ)
  | ended (filled want : ℕ)
  | io (kind : IoErrorKind)
deriving DecidableEq

namespace ReadError

def timedOut : ReadError → Bool
  | io .wouldBlock => true
  | io .timedOut => true
  | _ => false

end ReadError

abbrev Read (α : Type) := Except ReadError α × List Arrival

def fill (want : ℕ) (filled : List UInt8) (as : List Arrival) : Read (Option (List UInt8)) :=
  -- the loop of `read_exact_or_eof`; `none` is the end of the stream before the first byte
  if _hw : filled.length < want then
    match as with
    | [] => (if filled = [] then .ok none else .error (.ended filled.length want), [])
    | a :: as =>
      match _hr : Arrival.read (a :: as) (want - filled.length) with
      | (.ok [], rest) =>
        (if filled = [] then .ok none else .error (.ended filled.length want), rest)
      | (.ok (b :: bs), rest) => fill want (filled ++ b :: bs) rest
      | (.error kind, rest) =>
        if kind = .interrupted then fill want filled rest else (.error (.io kind), rest)
  else (.ok (some filled), as)
termination_by Arrival.weight as
decreasing_by
  all_goals
    have : Arrival.weight (Arrival.read (a :: as) (want - filled.length)).2 <
        Arrival.weight (a :: as) := Arrival.weight_read (Nat.sub_pos_of_lt _hw)
    rw [_hr] at this
    exact this

def readExactOrEof (want : ℕ) (as : List Arrival) : Read (Option (List UInt8)) :=
  if want = 0 then (.ok (some []), as) else fill want [] as

def readFrame (as : List Arrival) : Read (Option Frame) :=
  match readExactOrEof 5 as with
  | (.error e, as) => (.error e, as)
  | (.ok none, as) => (.ok none, as)
  | (.ok (some header), as) =>
    match FrameKind.fromByte (header.getD 0 0) with
    | none => (.error (.unknownKind (header.getD 0 0)), as)
    | some kind =>
      let len := fromBeBytes (header.getD 1 0) (header.getD 2 0) (header.getD 3 0) (header.getD 4 0)
      if maxFrameBytes < len then (.error (.tooLong len), as)
      else
        match readExactOrEof len as with
        | (.error e, as) => (.error e, as)
        | (.ok none, as) => (.error (.endedInBody len), as)
        | (.ok (some payload), as) => (.ok (some ⟨kind, payload⟩), as)

section reading

variable {want : ℕ} {filled bs : List UInt8} {as : List Arrival}

lemma fill_full (h : ¬ filled.length < want) : fill want filled as = (.ok (some filled), as) := by
  rw [fill.eq_def, dif_neg h]

lemma fill_nil (h : filled.length < want) : fill want filled [] =
    (if filled = [] then .ok none else .error (.ended filled.length want), []) := by
  rw [fill, dif_pos h]

lemma fill_bytes (h : filled.length < want) (b : UInt8) (rest : List UInt8) :
    fill want filled (.bytes b rest :: as) =
      fill want (filled ++ (b :: rest).take (want - filled.length))
        (Arrival.unread ((b :: rest).drop (want - filled.length)) as) := by
  obtain ⟨n, hn⟩ : ∃ n, want - filled.length = n + 1 :=
    ⟨want - filled.length - 1, by omega⟩
  rw [fill, dif_pos h, hn]
  rfl

lemma fill_interrupted (h : filled.length < want) :
    fill want filled (.failed .interrupted :: as) = fill want filled as := by
  rw [fill, dif_pos h]
  rfl

lemma fill_failed (h : filled.length < want) {kind : IoErrorKind} (hk : kind ≠ .interrupted) :
    fill want filled (.failed kind :: as) = (.error (.io kind), as) := by
  rw [fill, dif_pos h]
  exact if_neg hk

inductive Fills (want : ℕ) (filled : List UInt8) (as : List Arrival) :
    Read (Option (List UInt8)) → Prop
  | full {bs as'} : Gives as bs as' → filled.length + bs.length = want →
      Fills want filled as (.ok (some (filled ++ bs)), as')
  | failed {bs kind as'} : Gives as bs (.failed kind :: as') → kind ≠ .interrupted →
      filled.length + bs.length < want → Fills want filled as (.error (.io kind), as')
  | clean : Gives as [] [] → filled = [] → 0 < want → Fills want filled as (.ok none, [])
  | ended {bs n} : Gives as bs [] → filled ++ bs ≠ [] → filled.length + bs.length < want →
      Fills want filled as (.error (.ended n want), [])

lemma Fills.after {as' : List Arrival} {r : Read (Option (List UInt8))} (h : Gives as bs as')
    (hf : Fills want (filled ++ bs) as' r) : Fills want filled as r := by
  cases hf with
  | full hg hl =>
    rw [List.append_assoc]
    exact .full (h.trans hg) (by simpa [Nat.add_assoc] using hl)
  | failed hg hk hl => exact .failed (h.trans hg) hk (by simpa [Nat.add_assoc] using hl)
  | clean hg he hw =>
    obtain ⟨rfl, rfl⟩ := List.append_eq_nil_iff.mp he
    exact .clean (h.trans hg) rfl hw
  | ended hg hn hl =>
    exact .ended (h.trans hg) (by simpa using hn) (by simpa [Nat.add_assoc] using hl)

lemma fill_fills (want : ℕ) (filled : List UInt8) (as : List Arrival)
    (h : filled.length ≤ want) : Fills want filled as (fill want filled as) := by
  induction hs : Arrival.weight as using Nat.strong_induction_on generalizing filled as with
  | h size ih =>
    subst hs
    by_cases hl : filled.length < want
    · match as with
      | [] =>
        rw [fill_nil hl]
        split
        · next he => exact .clean (.nothing []) he (Nat.zero_lt_of_lt hl)
        · next he => exact .ended (.nothing []) (by simpa using he) (by simpa using hl)
      | .bytes b rest :: as =>
        rw [fill_bytes hl]
        have hg : Gives (.bytes b rest :: as) _ _ :=
          Arrival.gives_take (b :: rest) (want - filled.length)
        refine Fills.after hg (ih _ ?_ _ _ ?_ rfl)
        · have hw := hg.weight_le
          have hp : 0 < ((b :: rest).take (want - filled.length)).length := by
            simp only [List.length_take, List.length_cons]
            omega
          omega
        · simp only [List.length_append, List.length_take]
          omega
      | .failed kind :: as =>
        by_cases hk : kind = .interrupted
        · subst hk
          rw [fill_interrupted hl]
          have hg : Gives (.failed .interrupted :: as) [] as := .interrupted (.nothing as)
          have hi := ih _ (by simp [Arrival.weight]) filled as h rfl
          exact Fills.after hg (by simpa using hi)
        · rw [fill_failed hl hk]
          exact .failed (.nothing _) hk (by simpa using hl)
    · rw [fill_full hl]
      have : Fills want filled as (.ok (some (filled ++ [])), as) :=
        .full (.nothing as) (by simp only [List.length_nil]; omega)
      simpa using this

lemma readExactOrEof_fills (want : ℕ) (as : List Arrival) :
    Fills want [] as (readExactOrEof want as) := by
  unfold readExactOrEof
  split
  · next h => exact .full (.nothing as) (by simp [h])
  · exact fill_fills want [] as (Nat.zero_le _)

def Inside (lost : List UInt8) : Prop :=
  ∀ f : Frame, f.Bounded → ∀ more rest, lost ++ more = f.encode ++ rest →
    lost.length < f.encode.length

def Alien (bytes : List UInt8) : Prop :=
  ∀ f : Frame, f.Bounded → ∀ more rest, bytes ++ more ≠ f.encode ++ rest

inductive Reads (as : List Arrival) : Read (Option Frame) → Prop
  | clean : Gives as [] [] → Reads as (.ok none, [])
  | frame {f as'} : Gives as f.encode as' → f.Bounded → Reads as (.ok (some f), as')
  | failed {lost kind as'} : Gives as lost (.failed kind :: as') → kind ≠ .interrupted →
      Inside lost → Reads as (.error (.io kind), as')
  | ended {lost e} : Gives as lost [] → lost ≠ [] → Inside lost → e.timedOut = false →
      Reads as (.error e, [])
  | alien {header e as'} : Gives as header as' → Alien header → e.timedOut = false →
      Reads as (.error e, as')

lemma inside_header {lost : List UInt8} (h : lost.length < 5) : Inside lost := by
  intro f _ _ _ _
  rw [Frame.encode_length]
  omega

lemma inside_body {f : Frame} {header lost : List UInt8} (hf : f.Bounded)
    (hh : header = f.header) (hl : lost.length < f.payload.length) : Inside (header ++ lost) := by
  subst hh
  intro g hg more rest he
  simp only [Frame.encode, List.append_assoc] at he
  obtain ⟨hh, -⟩ := List.append_inj he rfl
  have := (Frame.header_injective hf hg hh).2
  rw [Frame.encode_length, List.length_append, Frame.header_length]
  omega

lemma alien_kind {k a b c d : UInt8} (h : FrameKind.fromByte k = none) : Alien [k, a, b, c, d] := by
  intro f _ more rest he
  simp only [Frame.encode, Frame.header, List.cons_append, List.cons.injEq] at he
  rw [FrameKind.fromByte_eq_some.mpr he.1] at h
  cases h

lemma alien_length {k a b c d : UInt8} (h : maxFrameBytes < fromBeBytes a b c d) :
    Alien [k, a, b, c, d] := by
  intro f hf more rest he
  simp only [Frame.encode, Frame.header, toBeBytes, List.cons_append, List.cons.injEq] at he
  obtain ⟨-, rfl, rfl, rfl, rfl, -⟩ := he
  simp only [Frame.Bounded, maxFrameBytes] at hf h
  rw [fromBeBytes_toBeBytes (by omega)] at h
  omega

lemma readFrame_reads (as : List Arrival) : Reads as (readFrame as) := by
  have h5 := readExactOrEof_fills 5 as
  unfold readFrame
  generalize readExactOrEof 5 as = r at h5
  cases h5 with
  | failed hg hk hl => exact .failed hg hk (inside_header (by simpa using hl))
  | clean hg _ => exact .clean hg
  | ended hg hn hl =>
    exact .ended hg (by simpa using hn) (inside_header (by simpa using hl)) rfl
  | @full header as' hg hl =>
    match header, hl with
    | [k, a, b, c, d], _ =>
      rcases hk : FrameKind.fromByte k with _ | kind
      · simp only [List.nil_append, List.getD_cons_zero, hk]
        exact .alien hg (alien_kind hk) rfl
      · simp only [List.nil_append, List.getD_cons_zero, List.getD_cons_succ, hk]
        split
        · next hb => exact .alien hg (alien_length hb) rfl
        · next hb =>
          have hkb := FrameKind.fromByte_eq_some.mp hk
          have hhead {payload : List UInt8} (hp : payload.length = fromBeBytes a b c d) :
              [k, a, b, c, d] = Frame.header ⟨kind, payload⟩ := by
            simp only [Frame.header, hkb, hp, toBeBytes_fromBeBytes]
          have hb' {payload : List UInt8} (hp : payload.length = fromBeBytes a b c d) :
              Frame.Bounded ⟨kind, payload⟩ := by
            simp only [Frame.Bounded, hp]
            omega
          have hrep := List.length_replicate (n := fromBeBytes a b c d) (a := (0 : UInt8))
          have hn := readExactOrEof_fills (fromBeBytes a b c d) as'
          generalize readExactOrEof (fromBeBytes a b c d) as' = r at hn
          cases hn with
          | @full payload as'' hg' hl' =>
            have hl'' : payload.length = fromBeBytes a b c d := by simpa using hl'
            refine .frame ?_ (hb' (by simpa using hl''))
            have := hg.trans hg'
            rwa [hhead hl''] at this
          | failed hg' hk' hl' =>
            exact .failed (hg.trans hg') hk'
              (inside_body (hb' hrep) (hhead hrep) (by simpa using hl'))
          | clean hg' _ hw =>
            refine .ended (hg.trans hg') (by simp) ?_ rfl
            exact inside_body (hb' hrep) (hhead hrep) (by simpa using hw)
          | ended hg' _ hl' =>
            refine .ended (hg.trans hg') (by simp) ?_ rfl
            exact inside_body (hb' hrep) (hhead hrep) (by simpa using hl')

end reading

end Nightcrow.Daemon
