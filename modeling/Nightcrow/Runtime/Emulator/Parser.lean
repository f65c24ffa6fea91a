import Nightcrow.Runtime.Emulator.Emulator

/-! The parser a terminal runs over a byte stream, and that the mirror of it stands at a boundary
only where the parser does. -/

namespace Nightcrow.Runtime.Emulator

inductive CsiPhase
  | entry
  | param
  | intermediate
  | ignore
deriving DecidableEq, Repr

inductive DcsPhase
  | entry
  | param
  | intermediate
  | ignore
  | passthrough
deriving DecidableEq, Repr

inductive ParserState
  | ground
  | partialChar (left : ℕ) (low high : UInt8)
  | escape
  | escapeIntermediate
  | csi (phase : CsiPhase)
  | osc
  | dcs (phase : DcsPhase)
  | sosPmApc
deriving DecidableEq, Repr

def CsiPhase.next (phase : CsiPhase) (byte : UInt8) : CsiPhase :=
  match phase with
  | .entry =>
    if 0x20 ≤ byte ∧ byte ≤ 0x2f then .intermediate
    else if 0x30 ≤ byte ∧ byte ≤ 0x3f then .param
    else .entry
  | .param =>
    if 0x20 ≤ byte ∧ byte ≤ 0x2f then .intermediate
    else if 0x3c ≤ byte ∧ byte ≤ 0x3f then .ignore
    else .param
  | .intermediate => if 0x30 ≤ byte ∧ byte ≤ 0x3f then .ignore else .intermediate
  | .ignore => .ignore

def DcsPhase.next (phase : DcsPhase) (byte : UInt8) : DcsPhase :=
  match phase with
  | .entry =>
    if 0x20 ≤ byte ∧ byte ≤ 0x2f then .intermediate
    else if 0x30 ≤ byte ∧ byte ≤ 0x3f then .param
    else if 0x40 ≤ byte ∧ byte ≤ 0x7e then .passthrough
    else .entry
  | .param =>
    if 0x20 ≤ byte ∧ byte ≤ 0x2f then .intermediate
    else if 0x3c ≤ byte ∧ byte ≤ 0x3f then .ignore
    else if 0x40 ≤ byte ∧ byte ≤ 0x7e then .passthrough
    else .param
  | .intermediate =>
    if 0x30 ≤ byte ∧ byte ≤ 0x3f then .ignore
    else if 0x40 ≤ byte ∧ byte ≤ 0x7e then .passthrough
    else .intermediate
  | .ignore => .ignore
  | .passthrough => .passthrough

namespace ParserState

def fromGround (byte : UInt8) : ParserState :=
  if byte = 0x1b then escape
  else if 0xc2 ≤ byte ∧ byte ≤ 0xdf then partialChar 1 0x80 0xbf
  else if byte = 0xe0 then partialChar 2 0xa0 0xbf
  else if byte = 0xed then partialChar 2 0x80 0x9f
  else if 0xe1 ≤ byte ∧ byte ≤ 0xef then partialChar 2 0x80 0xbf
  else if byte = 0xf0 then partialChar 3 0x90 0xbf
  else if 0xf1 ≤ byte ∧ byte ≤ 0xf3 then partialChar 3 0x80 0xbf
  else if byte = 0xf4 then partialChar 3 0x80 0x8f
  else ground

def anywhere (s : ParserState) (byte : UInt8) : ParserState :=
  if byte = 0x18 ∨ byte = 0x1a then ground else if byte = 0x1b then escape else s

def step (ends : DcsPhase → Bool) (s : ParserState) (byte : UInt8) : ParserState :=
  -- `ends` are the phases of a DCS that the byte `0x9c` ends it in
  match s with
  | ground => fromGround byte
  | partialChar left low high =>
    if low ≤ byte ∧ byte ≤ high then
      if left = 1 then ground else partialChar (left - 1) 0x80 0xbf
    else fromGround byte
  | escape =>
    if byte = 0x5b then csi .entry
    else if byte = 0x5d then osc
    else if byte = 0x50 then dcs .entry
    else if byte = 0x58 ∨ byte = 0x5e ∨ byte = 0x5f then sosPmApc
    else if 0x20 ≤ byte ∧ byte ≤ 0x2f then escapeIntermediate
    else if 0x30 ≤ byte ∧ byte ≤ 0x7e then ground
    else anywhere escape byte
  | escapeIntermediate =>
    if 0x30 ≤ byte ∧ byte ≤ 0x7e then ground else anywhere escapeIntermediate byte
  | csi phase =>
    if 0x40 ≤ byte ∧ byte ≤ 0x7e then ground else anywhere (csi (phase.next byte)) byte
  | osc => if byte = 0x07 then ground else anywhere osc byte
  | dcs phase =>
    if byte = 0x9c ∧ ends phase then ground else anywhere (dcs (phase.next byte)) byte
  | sosPmApc => anywhere sosPmApc byte

def feed (ends : DcsPhase → Bool) (s : ParserState) (bytes : List UInt8) : ParserState :=
  bytes.foldl (step ends) s

def InText : ParserState → Prop
  | ground => True
  | partialChar _ low high => 0x80 ≤ low ∧ high ≤ 0xbf
  | _ => False

end ParserState

/-- Where the parser may be for what the mirror says. A character the mirror still reads may have
been abandoned, and a string it still reads may have ended. -/
def Mirrors : StreamBoundary → ParserState → Prop
  | .ground, s => s = .ground
  | .escape, s => s = .escape
  | .escapeIntermediate, s => s = .escapeIntermediate
  | .csi, s => ∃ phase, s = .csi phase
  | .osc, s => s = .osc
  | .oscEsc, s => s = .escape
  | .str, s => s = .sosPmApc ∨ (∃ phase, s = .dcs phase) ∨ s.InText
  | .strEsc, s => s = .escape
  | .utf8 left, s => s = .ground ∨
      ∃ low high, s = .partialChar left low high ∧ 0x80 ≤ low ∧ high ≤ 0xbf

variable {m : StreamBoundary} {s : ParserState} {ends : DcsPhase → Bool} {byte : UInt8}

lemma fromGround_pairs : ∀ byte : UInt8,
    (StreamBoundary.fromGround byte, ParserState.fromGround byte) ∈
      [(.ground, .ground), (.escape, .escape), (.utf8 1, .partialChar 1 0x80 0xbf),
        (.utf8 2, .partialChar 2 0xa0 0xbf), (.utf8 2, .partialChar 2 0x80 0x9f),
        (.utf8 2, .partialChar 2 0x80 0xbf), (.utf8 3, .partialChar 3 0x90 0xbf),
        (.utf8 3, .partialChar 3 0x80 0xbf), (.utf8 3, .partialChar 3 0x80 0x8f)] := by
  decide +kernel

lemma mirrors_fromGround (byte : UInt8) :
    Mirrors (StreamBoundary.fromGround byte) (ParserState.fromGround byte) := by
  have hpair := fromGround_pairs byte
  simp only [List.mem_cons, List.not_mem_nil, or_false, Prod.mk.injEq] at hpair
  rcases hpair with ⟨hm, hs⟩ | ⟨hm, hs⟩ | ⟨hm, hs⟩ | ⟨hm, hs⟩ | ⟨hm, hs⟩ | ⟨hm, hs⟩ | ⟨hm, hs⟩ |
    ⟨hm, hs⟩ | ⟨hm, hs⟩
  · rw [hm, hs]
    rfl
  · rw [hm, hs]
    rfl
  all_goals
    rw [hm, hs]
    exact .inr ⟨_, _, rfl, by decide, by decide⟩

lemma fromGround_continuation (h : 0x80 ≤ byte ∧ byte ≤ 0xbf) :
    ParserState.fromGround byte = .ground := by
  have hall : ∀ byte : UInt8, 0x80 ≤ byte ∧ byte ≤ 0xbf → ParserState.fromGround byte = .ground := by
    decide +kernel
  exact hall byte h

lemma inText_fromGround (h : byte ≠ 0x1b) : (ParserState.fromGround byte).InText := by
  have hpair := fromGround_pairs byte
  simp only [List.mem_cons, List.not_mem_nil, or_false, Prod.mk.injEq] at hpair
  have hescape : ParserState.fromGround byte ≠ .escape := by
    have hall : ∀ byte : UInt8, byte ≠ 0x1b → ParserState.fromGround byte ≠ .escape := by
      decide +kernel
    exact hall byte h
  rcases hpair with ⟨-, hs⟩ | ⟨-, hs⟩ | ⟨-, hs⟩ | ⟨-, hs⟩ | ⟨-, hs⟩ | ⟨-, hs⟩ | ⟨-, hs⟩ |
    ⟨-, hs⟩ | ⟨-, hs⟩
  · rw [hs]
    trivial
  · exact absurd hs hescape
  all_goals
    rw [hs]
    exact ⟨by decide, by decide⟩

lemma inText_step (h : s.InText) (hbyte : byte ≠ 0x1b) : (s.step ends byte).InText := by
  cases s with
  | ground => exact inText_fromGround hbyte
  | partialChar left low high =>
    rw [ParserState.step]
    split_ifs
    · trivial
    · exact ⟨by decide, by decide⟩
    · exact inText_fromGround hbyte
  | escape | escapeIntermediate | csi | osc | dcs | sosPmApc =>
    exact absurd h (by simp [ParserState.InText])

lemma step_control (h : s.InText) (hbyte : byte = 0x18 ∨ byte = 0x1a ∨ byte = 0x1b) :
    s.step ends byte = if byte = 0x1b then .escape else .ground := by
  have hground : ParserState.fromGround byte = if byte = 0x1b then .escape else .ground := by
    rcases hbyte with rfl | rfl | rfl <;> rfl
  cases s with
  | ground => exact hground
  | partialChar left low high =>
    have hout : ¬ (low ≤ byte ∧ byte ≤ high) := by
      rintro ⟨hlow, -⟩
      have hle := UInt8.le_trans h.1 hlow
      rcases hbyte with rfl | rfl | rfl <;> exact absurd hle (by decide)
    rw [ParserState.step, if_neg hout, hground]
  | escape | escapeIntermediate | csi | osc | dcs | sosPmApc =>
    exact absurd h (by simp [ParserState.InText])

lemma mirrors_escape (byte : UInt8) :
    Mirrors (StreamBoundary.fromEscape byte) (ParserState.step ends .escape byte) := by
  rw [StreamBoundary.fromEscape, ParserState.step]
  split_ifs <;> simp_all [Mirrors, ParserState.anywhere]

lemma Mirrors.step (h : Mirrors m s) (byte : UInt8) : Mirrors (m.step byte) (s.step ends byte) := by
  cases m with
  | ground =>
    obtain rfl := h
    exact mirrors_fromGround byte
  | utf8 left =>
    have hcont : (0x80 : UInt8) ≤ 0x80 ∧ (0xbf : UInt8) ≤ 0xbf := by decide
    rw [StreamBoundary.step]
    split_ifs with hbyte hlast
    · rcases h with rfl | ⟨low, high, rfl, -⟩
      · exact fromGround_continuation hbyte
      · rw [ParserState.step]
        split_ifs
        · rfl
        · exact fromGround_continuation hbyte
    · rcases h with rfl | ⟨low, high, rfl, -⟩
      · exact .inl (fromGround_continuation hbyte)
      · rw [ParserState.step]
        split_ifs
        · exact .inr ⟨_, _, rfl, hcont⟩
        · exact .inl (fromGround_continuation hbyte)
    · rcases h with rfl | ⟨low, high, rfl, hlow, hhigh⟩
      · exact mirrors_fromGround byte
      · have hout : ¬ (low ≤ byte ∧ byte ≤ high) := fun h =>
          hbyte ⟨UInt8.le_trans hlow h.1, UInt8.le_trans h.2 hhigh⟩
        rw [ParserState.step, if_neg hout]
        exact mirrors_fromGround byte
  | escape =>
    obtain rfl := h
    exact mirrors_escape byte
  | escapeIntermediate =>
    obtain rfl := h
    rw [StreamBoundary.step, ParserState.step]
    have hapart : ∀ byte : UInt8, 0x20 ≤ byte ∧ byte ≤ 0x2f →
        ¬ (0x30 ≤ byte ∧ byte ≤ 0x7e) ∧ byte ≠ 0x18 ∧ byte ≠ 0x1a ∧ byte ≠ 0x1b := by
      decide +kernel
    by_cases hi : 0x20 ≤ byte ∧ byte ≤ 0x2f
    · obtain ⟨h1, h2, h3, h4⟩ := hapart byte hi
      rw [if_pos hi, if_neg h1, ParserState.anywhere, if_neg (not_or.mpr ⟨h2, h3⟩), if_neg h4]
      rfl
    · rw [if_neg hi, ParserState.anywhere]
      split_ifs <;> simp_all [Mirrors]
  | csi =>
    obtain ⟨phase, rfl⟩ := h
    rw [StreamBoundary.step, ParserState.step, ParserState.anywhere]
    split_ifs <;> simp_all [Mirrors]
  | osc =>
    obtain rfl := h
    rw [StreamBoundary.step, ParserState.step, ParserState.anywhere]
    split_ifs <;> simp_all [Mirrors]
  | oscEsc =>
    obtain rfl := h
    rw [StreamBoundary.step]
    split_ifs with hend
    · subst hend
      rfl
    · exact mirrors_escape byte
  | str =>
    rw [StreamBoundary.step]
    split_ifs with hcancel hescape
    · rcases h with rfl | ⟨phase, rfl⟩ | htext
      · exact if_pos hcancel
      · rw [ParserState.step]
        split_ifs
        · rfl
        · exact if_pos hcancel
      · have hne : byte ≠ 0x1b := by
          rcases hcancel with rfl | rfl <;> decide
        exact (step_control htext (hcancel.imp_right .inl)).trans (if_neg hne)
    · subst hescape
      rcases h with rfl | ⟨phase, rfl⟩ | htext
      · rfl
      · rfl
      · exact (step_control htext (.inr (.inr rfl))).trans (if_pos rfl)
    · rcases h with rfl | ⟨phase, rfl⟩ | htext
      · left
        rw [ParserState.step, ParserState.anywhere, if_neg hcancel, if_neg hescape]
      · right
        rw [ParserState.step, ParserState.anywhere, if_neg hcancel, if_neg hescape]
        split_ifs
        · exact .inr trivial
        · exact .inl ⟨_, rfl⟩
      · exact .inr (.inr (inText_step htext hescape))
  | strEsc =>
    obtain rfl := h
    rw [StreamBoundary.step]
    split_ifs with hend
    · subst hend
      rfl
    · exact mirrors_escape byte

lemma Mirrors.feed (h : Mirrors m s) (bytes : List UInt8) :
    Mirrors (m.feed bytes) (s.feed ends bytes) := by
  induction bytes generalizing m s with
  | nil => exact h
  | cons byte bytes ih => exact ih (h.step byte)

inductive EmulatorCall
  | process (clock : ℕ) (bytes : List UInt8)
  | settleSync
  | resize (rows cols : UInt16)

section

variable {T : Type*} [Terminal T]

def PaneEmulator.call (e : PaneEmulator T) : EmulatorCall → PaneEmulator T
  | .process clock bytes => (e.process clock bytes).1
  | .settleSync => e.settleSync.1
  | .resize rows cols => e.resize rows cols

def EmulatorCall.bytes : EmulatorCall → List UInt8
  | .process _ bytes => bytes
  | .settleSync | .resize _ _ => []

lemma boundary_calls (e : PaneEmulator T) (calls : List EmulatorCall) :
    (calls.foldl PaneEmulator.call e).boundary =
      e.boundary.feed (calls.flatMap EmulatorCall.bytes) := by
  induction calls generalizing e with
  | nil => rfl
  | cons call calls ih =>
    have hsplit : ∀ (m : StreamBoundary) (xs ys : List UInt8),
        m.feed (xs ++ ys) = (m.feed xs).feed ys := fun m xs ys => List.foldl_append
    rw [List.foldl_cons, ih, List.flatMap_cons, hsplit]
    cases call <;> rfl

theorem boundary_is_ground (ends : DcsPhase → Bool) :
    (∀ chunks : List (List UInt8),
      (chunks.foldl StreamBoundary.feed .ground).atBoundary = true →
        ParserState.feed ends .ground chunks.flatten = .ground) ∧
    ∀ (rows cols : UInt16) (history : ℕ) (calls : List EmulatorCall),
      (calls.foldl PaneEmulator.call (PaneEmulator.create rows cols history :
        PaneEmulator T)).atBoundary = true →
      ParserState.feed ends .ground (calls.flatMap EmulatorCall.bytes) = .ground := by
  have hmirror : ∀ bytes, (StreamBoundary.feed .ground bytes).atBoundary = true →
      ParserState.feed ends .ground bytes = .ground := by
    intro bytes hat
    have hm : Mirrors (StreamBoundary.feed .ground bytes) (ParserState.feed ends .ground bytes) :=
      Mirrors.feed (m := .ground) (s := .ground) rfl bytes
    rw [StreamBoundary.atBoundary, decide_eq_true_eq] at hat
    rw [hat] at hm
    exact hm
  refine ⟨fun chunks hat => ?_, fun rows cols history calls hat => ?_⟩
  · have hflat : chunks.foldl StreamBoundary.feed .ground =
        StreamBoundary.feed .ground chunks.flatten := List.foldl_flatten.symm
    rw [hflat] at hat
    exact hmirror _ hat
  · have hboundary := (Bool.and_eq_true_iff.mp hat).2
    rw [boundary_calls] at hboundary
    exact hmirror _ hboundary

example : ([[0x1b, 0x5b], [0x6d, 0xe2], [0x82, 0xac]].foldl StreamBoundary.feed
    .ground).atBoundary = true := by decide

end

end Nightcrow.Runtime.Emulator
