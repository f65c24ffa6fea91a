import Nightcrow.Session.Terminal.Output

namespace Nightcrow.Session.Terminal

inductive RingOp where
  | push (data : List UInt8)
  | mark (screen : List UInt8)

def PaneState.ringOp (p : PaneState) : RingOp → PaneState
  | .push data =>
    let (scrollback, covered) := pushScrollback p.scrollback p.covered data
    { p with scrollback, covered }
  | .mark screen => p.withNormalScreen screen

def PaneState.ringOps (p : PaneState) (ops : List RingOp) : PaneState := ops.foldl ringOp p

def PaneState.uncovered (p : PaneState) : ℕ := p.scrollback.length - p.covered

def pushedBytes (ops : List RingOp) : List UInt8 :=
  ops.flatMap (fun op => match op with | .push data => data | .mark _ => [])

def bytesSinceMark (ops : List RingOp) : List UInt8 :=
  ops.foldl (fun tail op => match op with | .push data => tail ++ data | .mark _ => []) []

structure KeepsTail (p : PaneState) (pushed tail : List UInt8) : Prop where
  covered_le : p.covered ≤ p.scrollback.length
  suffix : p.scrollback <:+ pushed
  uncovered : p.scrollback.drop p.covered = tail

variable {p : PaneState} {pushed tail data : List UInt8}

lemma pushScrollback_spec (buf : List UInt8) (covered : ℕ) (data : List UInt8) :
    ∃ evicted ≤ covered,
      pushScrollback buf covered data = ((buf ++ data).drop evicted, covered - evicted) ∧
        (buf ++ data).length - evicted ≤
          max maxTerminalScrollbackBytes ((buf ++ data).length - covered) := by
  rw [pushScrollback]
  split
  · exact ⟨min ((buf ++ data).length - maxTerminalScrollbackBytes) covered, min_le_right _ _, rfl,
      by omega⟩
  · exact ⟨0, Nat.zero_le _, rfl, by omega⟩

lemma KeepsTail.push (h : KeepsTail p pushed tail) (data : List UInt8) :
    KeepsTail (p.ringOp (.push data)) (pushed ++ data) (tail ++ data) ∧
      (p.ringOp (.push data)).uncovered = (tail ++ data).length ∧
      (p.ringOp (.push data)).scrollback.length ≤
        max maxTerminalScrollbackBytes (tail ++ data).length := by
  obtain ⟨evicted, hevicted, hpush, hcap⟩ := pushScrollback_spec p.scrollback p.covered data
  have hcovered := h.covered_le
  have hlength : (p.scrollback ++ data).length = p.scrollback.length + data.length :=
    List.length_append
  have htail : (p.scrollback ++ data).drop p.covered = tail ++ data := by
    rw [List.drop_append_of_le_length h.covered_le, h.uncovered]
  have htailLength : (tail ++ data).length = (p.scrollback ++ data).length - p.covered := by
    rw [← htail, List.length_drop]
  have hring : (p.ringOp (.push data)).scrollback = (p.scrollback ++ data).drop evicted := by
    rw [PaneState.ringOp, hpush]
  have hmark : (p.ringOp (.push data)).covered = p.covered - evicted := by
    rw [PaneState.ringOp, hpush]
  refine ⟨⟨?_, ?_, ?_⟩, ?_, ?_⟩
  · rw [hring, hmark, List.length_drop]
    omega
  · rw [hring]
    obtain ⟨front, rfl⟩ := h.suffix
    exact (List.drop_suffix evicted _).trans ⟨front, (List.append_assoc ..).symm⟩
  · rw [hring, hmark, List.drop_drop, Nat.add_sub_cancel' hevicted, htail]
  · rw [PaneState.uncovered, hring, hmark, List.length_drop, htailLength]
    omega
  · rw [hring, List.length_drop, htailLength]
    exact hcap

lemma KeepsTail.mark (h : KeepsTail p pushed tail) (screen : List UInt8) :
    KeepsTail (p.ringOp (.mark screen)) pushed [] :=
  ⟨le_rfl, h.suffix, List.drop_length⟩

lemma keepsTail_ringOps (h : p.scrollback = [] ∧ p.covered = 0) (ops : List RingOp) :
    KeepsTail (p.ringOps ops) (pushedBytes ops) (bytesSinceMark ops) := by
  induction ops using List.reverseRecOn with
  | nil =>
    refine ⟨h.2.le.trans (Nat.zero_le _), ?_, ?_⟩
    · exact h.1 ▸ List.nil_suffix
    · exact h.1 ▸ List.drop_nil
  | append_singleton ops op ih =>
    have hops : p.ringOps (ops ++ [op]) = (p.ringOps ops).ringOp op := List.foldl_concat ..
    rw [hops]
    cases op with
    | push data =>
      have hpushed : pushedBytes (ops ++ [.push data]) = pushedBytes ops ++ data := by
        simp [pushedBytes]
      have htail : bytesSinceMark (ops ++ [.push data]) = bytesSinceMark ops ++ data :=
        List.foldl_concat ..
      rw [hpushed, htail]
      exact (ih.push data).1
    | mark screen =>
      have hpushed : pushedBytes (ops ++ [.mark screen]) = pushedBytes ops := by
        simp [pushedBytes]
      have htail : bytesSinceMark (ops ++ [.mark screen]) = [] := List.foldl_concat ..
      rw [hpushed, htail]
      exact ih.mark screen

theorem ring_keeps_uncovered (p : PaneState) (ops : List RingOp) :
    let r := ({ p with scrollback := [], covered := 0 } : PaneState).ringOps ops
    KeepsTail r (pushedBytes ops) (bytesSinceMark ops) ∧
      ∀ data, (r.ringOp (.push data)).uncovered =
          (bytesSinceMark (ops ++ [.push data])).length ∧
        (r.ringOp (.push data)).scrollback.length ≤
          max maxTerminalScrollbackBytes (r.ringOp (.push data)).uncovered := by
  intro r
  have hkeeps : KeepsTail r (pushedBytes ops) (bytesSinceMark ops) :=
    keepsTail_ringOps ⟨rfl, rfl⟩ ops
  refine ⟨hkeeps, fun data => ?_⟩
  obtain ⟨-, huncovered, hcap⟩ := hkeeps.push data
  have htail : bytesSinceMark (ops ++ [.push data]) = bytesSinceMark ops ++ data :=
    List.foldl_concat ..
  rw [htail, huncovered]
  exact ⟨rfl, hcap⟩

end Nightcrow.Session.Terminal
