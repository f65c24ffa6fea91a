import Nightcrow.Library.Ordered
import Nightcrow.Session.Terminal.Panes

namespace Nightcrow.Session.Terminal

open Nightcrow.Library

lemma canonicalOrder_eq (current requested : List PaneId) :
    canonicalOrder current requested = arranged requested current := by
  simp only [canonicalOrder, arranged, pushNew, true_and]

lemma takeInOrder_perm {panes : List PaneState} {ids : List PaneId}
    (hn : (panes.map (·.id)).Nodup) (h : ids.Perm (panes.map (·.id))) :
    (takeInOrder panes ids).Perm panes ∧ (takeInOrder panes ids).map (·.id) = ids := by
  induction ids generalizing panes with
  | nil =>
    have hnil : panes = [] := List.map_eq_nil_iff.mp h.symm.eq_nil
    subst hnil
    exact ⟨.refl [], rfl⟩
  | cons id ids ih =>
    have hmem : id ∈ panes.map (·.id) := h.subset List.mem_cons_self
    obtain ⟨found, hfound, hid⟩ := List.mem_map.mp hmem
    obtain ⟨before, after, hsplit, hfirst⟩ :
        ∃ before after, panes = before ++ found :: after ∧ ∀ p ∈ before, p.id ≠ id := by
      obtain ⟨before, after, hsplit⟩ := List.append_of_mem hfound
      refine ⟨before, after, hsplit, fun p hp hpid => ?_⟩
      rw [hsplit, List.map_append, List.map_cons] at hn
      exact (List.nodup_append.mp hn).2.2 p.id (List.mem_map_of_mem hp) found.id
        List.mem_cons_self (hpid.trans hid.symm)
    subst hsplit
    have hnone : ∀ p ∈ before, ¬ decide (p.id = id) = true := fun p hp =>
      (hfirst p hp) ∘ of_decide_eq_true
    have hfind : (before ++ found :: after).find? (·.id = id) = some found := by
      rw [List.find?_append, List.find?_eq_none.mpr hnone, Option.none_or]
      simp [hid]
    have herase : (before ++ found :: after).eraseP (·.id = id) = before ++ after := by
      rw [List.eraseP_append_right _ hnone]
      simp [hid]
    have hperm : (before ++ found :: after).Perm (found :: (before ++ after)) := List.perm_middle
    have hrest : ids.Perm ((before ++ after).map (·.id)) := by
      have hcons := h.trans (hperm.map (·.id))
      rw [List.map_cons, hid] at hcons
      exact hcons.cons_inv
    have hnodup : ((before ++ after).map (·.id)).Nodup :=
      (List.nodup_cons.mp ((hperm.map (·.id)).nodup_iff.mp hn)).2
    obtain ⟨htaken, hids⟩ := ih hnodup hrest
    simp only [takeInOrder, hfind, herase]
    refine ⟨(htaken.cons found).trans hperm.symm, ?_⟩
    rw [List.map_cons, hids, hid]

theorem reorder_is_permutation (current requested : List PaneId) (h : current.Nodup) :
    (canonicalOrder current requested).Perm current ∧
      canonicalOrder current requested =
        (requested.filter (· ∈ current)).eraseDups ++ current.filter (· ∉ requested) ∧
      canonicalOrder current (canonicalOrder current requested) =
        canonicalOrder current requested ∧
      canonicalOrder (canonicalOrder current requested) (canonicalOrder current requested) =
        canonicalOrder current requested ∧
      ∀ s : Shared, s.paneIds = current →
        (s.reorderPanes requested).panes.Perm s.panes ∧
          (s.reorderPanes requested).paneIds = canonicalOrder current requested := by
  have hperm : (canonicalOrder current requested).Perm current := by
    rw [canonicalOrder_eq]
    exact perm_arranged h
  refine ⟨hperm, ?_, ?_, ?_, fun s hs => ?_⟩
  · rw [canonicalOrder_eq, arranged_eq h]
  · rw [canonicalOrder_eq current (canonicalOrder current requested)]
    exact arranged_arranged hperm h
  · rw [canonicalOrder_eq (canonicalOrder current requested)]
    exact arranged_arranged (.refl _) (hperm.nodup_iff.mpr h)
  · subst hs
    rw [Shared.reorderPanes]
    split
    · rename_i hsame
      exact ⟨.refl _, hsame.symm⟩
    · exact takeInOrder_perm h hperm

theorem swapped_and_one_unknown :
    canonicalOrder [1, 2, 3] [3, 9, 3, 1] = [3, 1, 2] ∧
      (canonicalOrder [1, 2, 3] [3, 9, 3, 1]).Perm [1, 2, 3] :=
  ⟨by decide, (reorder_is_permutation [1, 2, 3] [3, 9, 3, 1] (by decide)).1⟩

end Nightcrow.Session.Terminal
