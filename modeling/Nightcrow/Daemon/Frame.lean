import Nightcrow.Library.Stream

namespace Nightcrow.Daemon

open Nightcrow.Library

def maxFrameBytes : ℕ := 4 * 1024 * 1024
def coalesceFrameBytes : ℕ := 4096

inductive FrameKind
  | control
  | terminal
deriving DecidableEq, Repr

namespace FrameKind

def toByte : FrameKind → UInt8
  | control => 1
  | terminal => 2

def fromByte (byte : UInt8) : Option FrameKind :=
  if byte = 1 then some control
  else if byte = 2 then some terminal
  else none

lemma fromByte_eq_some {byte : UInt8} {kind : FrameKind} :
    fromByte byte = some kind ↔ byte = kind.toByte := by
  constructor
  · intro h
    simp only [fromByte] at h
    split at h
    · cases h
      assumption
    · split at h
      · cases h
        assumption
      · cases h
  · rintro rfl
    cases kind <;> rfl

lemma toByte_injective : Function.Injective toByte := by
  intro j k h
  cases j <;> cases k <;> first | rfl | exact absurd h (by decide)

end FrameKind

structure Frame where
  kind : FrameKind
  payload : List UInt8
deriving DecidableEq

def toBeBytes (n : ℕ) : List UInt8 :=
  [.ofNat (n / 2 ^ 24), .ofNat (n / 2 ^ 16), .ofNat (n / 2 ^ 8), .ofNat n]

def fromBeBytes (a b c d : UInt8) : ℕ :=
  a.toNat * 2 ^ 24 + b.toNat * 2 ^ 16 + c.toNat * 2 ^ 8 + d.toNat

lemma fromBeBytes_toBeBytes {n : ℕ} (h : n < 2 ^ 32) :
    fromBeBytes (.ofNat (n / 2 ^ 24)) (.ofNat (n / 2 ^ 16)) (.ofNat (n / 2 ^ 8)) (.ofNat n) = n := by
  simp only [fromBeBytes, UInt8.toNat_ofNat']
  omega

lemma toBeBytes_fromBeBytes (a b c d : UInt8) : toBeBytes (fromBeBytes a b c d) = [a, b, c, d] := by
  have ha := a.toNat_lt
  have hb := b.toNat_lt
  have hc := c.toNat_lt
  have hd := d.toNat_lt
  simp only [toBeBytes, fromBeBytes, List.cons.injEq, and_true, ← UInt8.toNat_inj,
    UInt8.toNat_ofNat']
  omega

namespace Frame

def header (f : Frame) : List UInt8 := f.kind.toByte :: toBeBytes f.payload.length

def encode (f : Frame) : List UInt8 := f.header ++ f.payload

def Bounded (f : Frame) : Prop := f.payload.length ≤ maxFrameBytes

instance (f : Frame) : Decidable f.Bounded := inferInstanceAs (Decidable (_ ≤ _))

@[simp] lemma header_length (f : Frame) : f.header.length = 5 := rfl

@[simp] lemma encode_length (f : Frame) : f.encode.length = 5 + f.payload.length := by
  simp [encode]

end Frame

lemma Frame.header_injective {f g : Frame} (hf : f.Bounded) (hg : g.Bounded)
    (h : f.header = g.header) : f.kind = g.kind ∧ f.payload.length = g.payload.length := by
  have hb {k : Frame} (hk : k.Bounded) : k.payload.length < 2 ^ 32 := by
    simp only [Frame.Bounded, maxFrameBytes] at hk
    omega
  simp only [header, toBeBytes, List.cons.injEq, and_true] at h
  obtain ⟨hk, h₁, h₂, h₃, h₄⟩ := h
  refine ⟨FrameKind.toByte_injective hk, ?_⟩
  rw [← fromBeBytes_toBeBytes (hb hf), ← fromBeBytes_toBeBytes (hb hg), h₁, h₂, h₃, h₄]

lemma Frame.encode_append_inj {f g : Frame} (hf : f.Bounded) (hg : g.Bounded)
    {xs ys : List UInt8} (h : f.encode ++ xs = g.encode ++ ys) : f = g ∧ xs = ys := by
  simp only [encode, List.append_assoc] at h
  obtain ⟨hh, ht⟩ := List.append_inj h rfl
  obtain ⟨hk, hl⟩ := header_injective hf hg hh
  obtain ⟨hp, he⟩ := List.append_inj ht hl
  obtain ⟨kind, payload⟩ := f
  obtain ⟨kind', payload'⟩ := g
  simp_all

def wire (frames : List Frame) : List UInt8 := frames.flatMap Frame.encode

@[simp] lemma wire_nil : wire [] = [] := rfl

@[simp] lemma wire_cons (f : Frame) (frames : List Frame) :
    wire (f :: frames) = f.encode ++ wire frames := rfl

inductive WriteError
  | tooLarge (bytes : ℕ)
  | io (kind : IoErrorKind)
deriving DecidableEq

def writeAll (w : Writer) (buf : List UInt8) : Except IoErrorKind Unit × Writer :=
  -- the standard library's `write_all`
  if buf = [] then (.ok (), w)
  else
    match _hw : w.write buf with
    | (.ok n, v) => if _hn : n = 0 then (.error .writeZero, v) else writeAll v (buf.drop n)
    | (.error kind, v) => if kind = .interrupted then writeAll v buf else (.error kind, v)
termination_by w.schedule.length + buf.length
decreasing_by
  all_goals
    rcases w.writeVectored_cases [buf] with ⟨m, u, hu, -, -, hs⟩ | ⟨u, hu, -, hs⟩ <;>
    rw [Writer.write, hu] at _hw <;> cases _hw
  · simpa using hs (Nat.pos_of_ne_zero _hn)
  · omega

def advanceSlices : List (List UInt8) → ℕ → List (List UInt8)
  | [], _ => []
  | buf :: bufs, n =>
    if buf.length ≤ n then advanceSlices bufs (n - buf.length) else buf.drop n :: bufs

lemma flatten_advanceSlices (bufs : List (List UInt8)) (n : ℕ) :
    (advanceSlices bufs n).flatten = bufs.flatten.drop n := by
  induction bufs generalizing n with
  | nil => simp [advanceSlices]
  | cons buf bufs ih =>
    simp only [advanceSlices]
    split
    · rename_i h
      rw [ih, List.flatten_cons, List.drop_append, List.drop_eq_nil_of_le h, List.nil_append]
    · rename_i h
      rw [List.flatten_cons, List.flatten_cons, List.drop_append_of_le_length (by omega)]

lemma advanceSlices_nonempty {bufs : List (List UInt8)} (h : ∀ buf ∈ bufs, buf ≠ []) (n : ℕ) :
    ∀ buf ∈ advanceSlices bufs n, buf ≠ [] := by
  induction bufs generalizing n with
  | nil => simp [advanceSlices]
  | cons buf bufs ih =>
    simp only [List.mem_cons, forall_eq_or_imp] at h
    simp only [advanceSlices]
    split
    · exact ih h.2 _
    · rename_i hn
      simp only [List.mem_cons, forall_eq_or_imp]
      refine ⟨fun he => hn ?_, h.2⟩
      simpa using List.drop_eq_nil_iff.mp he

def writeAllVectored (w : Writer) (bufs : List (List UInt8)) : Except IoErrorKind Unit × Writer :=
  if bufs = [] then (.ok (), w)
  else
    match _hw : w.writeVectored bufs with
    | (.ok n, v) =>
      if _hn : n = 0 then (.error .writeZero, v) else writeAllVectored v (advanceSlices bufs n)
    | (.error kind, v) =>
      if kind = .interrupted then writeAllVectored v bufs else (.error kind, v)
termination_by w.schedule.length + bufs.flatten.length
decreasing_by
  all_goals
    rcases w.writeVectored_cases bufs with ⟨m, u, hu, -, -, hs⟩ | ⟨u, hu, -, hs⟩ <;>
    rw [hu] at _hw <;> cases _hw
  · rw [flatten_advanceSlices]
    simpa using hs (Nat.pos_of_ne_zero _hn)
  · omega

def writeFrame (w : Writer) (f : Frame) : Except WriteError Unit × Writer :=
  if maxFrameBytes < f.payload.length then (.error (.tooLarge f.payload.length), w)
  else
    let r :=
      if f.payload.length ≤ coalesceFrameBytes then writeAll w (f.header ++ f.payload)
      else writeAllVectored w [f.header, f.payload]
    match r with
    | (.ok (), v) => (.ok (), v)
    | (.error kind, v) => (.error (.io kind), v)

section writing

variable (w : Writer) {v : Writer} {buf : List UInt8} {bufs : List (List UInt8)} {n : ℕ}

lemma writeAll_nil : writeAll w [] = (.ok (), w) := by rw [writeAll, if_pos rfl]

variable {w}

lemma writeAll_ok (hb : buf ≠ []) (hn : 0 < n) (hw : w.write buf = (.ok n, v)) :
    writeAll w buf = writeAll v (buf.drop n) := by
  rw [writeAll, if_neg hb]
  split
  · rename_i hw'
    cases hw.symm.trans hw'
    rw [dif_neg (Nat.pos_iff_ne_zero.mp hn)]
  · rename_i hw'
    cases hw.symm.trans hw'

lemma writeAll_interrupted (hb : buf ≠ []) (hw : w.write buf = (.error .interrupted, v)) :
    writeAll w buf = writeAll v buf := by
  rw [writeAll, if_neg hb]
  split
  · rename_i hw'
    cases hw.symm.trans hw'
  · rename_i hw'
    cases hw.symm.trans hw'
    rw [if_pos rfl]

lemma writeAll_written (w : Writer) (buf : List UInt8) :
    ∃ v, writeAll w buf = (.ok (), v) ∧ v.written = w.written ++ buf := by
  induction h : w.schedule.length + buf.length using Nat.strong_induction_on
    generalizing w buf with
  | h size ih =>
    subst h
    by_cases hb : buf = []
    · subst hb
      exact ⟨w, writeAll_nil w, by simp⟩
    · rcases w.writeVectored_cases [buf] with ⟨n, v, hw, hp, hwr, hs⟩ | ⟨v, hw, hwr, hs⟩
      · have hn : 0 < n := hp (by simpa using hb)
        obtain ⟨u, hu, hur⟩ := ih _ (by simpa using hs hn) v (buf.drop n) rfl
        exact ⟨u, (writeAll_ok hb hn hw).trans hu, by simp [hur, hwr]⟩
      · obtain ⟨u, hu, hur⟩ := ih _ (by omega) v buf rfl
        exact ⟨u, (writeAll_interrupted hb hw).trans hu, by rw [hur, hwr]⟩

lemma writeAllVectored_ok (hb : bufs ≠ []) (hn : 0 < n) (hw : w.writeVectored bufs = (.ok n, v)) :
    writeAllVectored w bufs = writeAllVectored v (advanceSlices bufs n) := by
  rw [writeAllVectored, if_neg hb]
  split
  · rename_i hw'
    cases hw.symm.trans hw'
    rw [dif_neg (Nat.pos_iff_ne_zero.mp hn)]
  · rename_i hw'
    cases hw.symm.trans hw'

lemma writeAllVectored_interrupted (hb : bufs ≠ [])
    (hw : w.writeVectored bufs = (.error .interrupted, v)) :
    writeAllVectored w bufs = writeAllVectored v bufs := by
  rw [writeAllVectored, if_neg hb]
  split
  · rename_i hw'
    cases hw.symm.trans hw'
  · rename_i hw'
    cases hw.symm.trans hw'
    rw [if_pos rfl]

lemma writeAllVectored_written (w : Writer) {bufs : List (List UInt8)}
    (hne : ∀ buf ∈ bufs, buf ≠ []) :
    ∃ v, writeAllVectored w bufs = (.ok (), v) ∧ v.written = w.written ++ bufs.flatten := by
  induction h : w.schedule.length + bufs.flatten.length using Nat.strong_induction_on
    generalizing w bufs with
  | h size ih =>
    subst h
    by_cases hb : bufs = []
    · subst hb
      exact ⟨w, by rw [writeAllVectored, if_pos rfl], by simp⟩
    · have hf : bufs.flatten ≠ [] := by
        obtain ⟨buf, rest, rfl⟩ := List.exists_cons_of_ne_nil hb
        have := hne buf List.mem_cons_self
        simp [this]
      rcases w.writeVectored_cases bufs with ⟨n, v, hw, hp, hwr, hs⟩ | ⟨v, hw, hwr, hs⟩
      · have hn : 0 < n := hp hf
        have hs' : v.schedule.length + (advanceSlices bufs n).flatten.length <
            w.schedule.length + bufs.flatten.length := by
          rw [flatten_advanceSlices, List.length_drop]
          exact hs hn
        obtain ⟨u, hu, hur⟩ := ih _ hs' v (advanceSlices_nonempty hne n) rfl
        refine ⟨u, (writeAllVectored_ok hb hn hw).trans hu, ?_⟩
        rw [hur, hwr, flatten_advanceSlices, List.append_assoc, List.take_append_drop]
      · obtain ⟨u, hu, hur⟩ := ih _ (by omega) v hne rfl
        exact ⟨u, (writeAllVectored_interrupted hb hw).trans hu, by rw [hur, hwr]⟩

lemma writeFrame_written (w : Writer) {f : Frame} (hf : f.Bounded) :
    ∃ v, writeFrame w f = (.ok (), v) ∧ v.written = w.written ++ f.encode := by
  have hl : ¬ maxFrameBytes < f.payload.length := not_lt.mpr hf
  by_cases hc : f.payload.length ≤ coalesceFrameBytes
  · obtain ⟨v, hv, hw⟩ := writeAll_written w (f.header ++ f.payload)
    exact ⟨v, by simp only [writeFrame, if_neg hl, if_pos hc, hv], hw⟩
  · have hne : ∀ buf ∈ [f.header, f.payload], buf ≠ [] := by
      simp only [List.mem_cons, List.not_mem_nil, or_false, forall_eq_or_imp, forall_eq]
      refine ⟨List.cons_ne_nil _ _, fun he => hc ?_⟩
      simp [he]
    obtain ⟨v, hv, hw⟩ := writeAllVectored_written w hne
    refine ⟨v, by simp only [writeFrame, if_neg hl, if_neg hc, hv], ?_⟩
    simpa [Frame.encode] using hw

def writeFrames : Writer → List Frame → Except WriteError Unit × Writer
  | w, [] => (.ok (), w)
  | w, f :: frames =>
    match writeFrame w f with
    | (.ok (), v) => writeFrames v frames
    | (.error e, v) => (.error e, v)

lemma writeFrames_written (w : Writer) {frames : List Frame} (hf : ∀ f ∈ frames, f.Bounded) :
    ∃ v, writeFrames w frames = (.ok (), v) ∧ v.written = w.written ++ wire frames := by
  induction frames generalizing w with
  | nil => exact ⟨w, rfl, by simp⟩
  | cons f frames ih =>
    simp only [List.mem_cons, forall_eq_or_imp] at hf
    obtain ⟨v, hv, hw⟩ := writeFrame_written w hf.1
    obtain ⟨u, hu, hur⟩ := ih v hf.2
    refine ⟨u, by simp only [writeFrames, hv, hu], ?_⟩
    rw [hur, hw, wire_cons, List.append_assoc]

end writing

end Nightcrow.Daemon
