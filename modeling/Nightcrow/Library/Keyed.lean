import Mathlib

namespace Nightcrow.Library.Keyed

variable {α κ : Type*} {key : α → κ} {l : List α} {a : α} {k : κ} {i j : ℕ}

lemma map_modify {f : α → α} (hf : ∀ a, key (f a) = key a) :
    (l.modify i f).map key = l.map key := by
  refine List.ext_getElem? (fun j => ?_)
  rw [List.getElem?_map, List.getElem?_modify, List.getElem?_map, Option.map_eq_map,
    Option.map_map]
  congr 1
  funext a
  rw [Function.comp_apply]
  split_ifs
  · exact hf a
  · rfl

variable [DecidableEq κ]

lemma eraseP_eq_filter (hn : (l.map key).Nodup) :
    l.eraseP (fun b => key b = k) = l.filter (fun b => key b ≠ k) := by
  induction l with
  | nil => rfl
  | cons b l ih =>
    obtain ⟨hb, hn⟩ := List.nodup_cons.mp hn
    by_cases hk : key b = k
    · rw [List.eraseP_cons_of_pos (by simpa using hk), List.filter_cons_of_neg (by simpa using hk)]
      refine (List.filter_eq_self.mpr (fun c hc => decide_eq_true ?_)).symm
      exact fun hck => hb (hk.trans hck.symm ▸ List.mem_map_of_mem hc)
    · rw [List.eraseP_cons_of_neg (by simpa using hk), List.filter_cons_of_pos (by simpa using hk),
        ih hn]

lemma eraseIdx_eq_filter (hn : (l.map key).Nodup)
    (hi : l.findIdx? (fun b => key b = k) = some i) :
    l.eraseIdx i = l.filter (fun b => key b ≠ k) := by
  rw [← eraseP_eq_filter hn, List.eraseP_eq_eraseIdx, hi]

lemma find?_eq_some (hn : (l.map key).Nodup) (ha : a ∈ l) :
    l.find? (fun b => key b = key a) = some a := by
  cases hfind : l.find? (fun b => key b = key a) with
  | none => exact absurd (decide_eq_true rfl) (List.find?_eq_none.mp hfind a ha)
  | some b =>
    have hfound := List.find?_some hfind
    rw [List.inj_on_of_nodup_map hn (List.mem_of_find?_eq_some hfind) ha
      (of_decide_eq_true hfound)]

lemma find?_filter {k' : κ} (h : k' ≠ k) : (l.filter (fun b => key b ≠ k)).find?
    (fun b => key b = k') = l.find? (fun b => key b = k') := by
  rw [List.find?_filter]
  congr 1
  funext b
  by_cases hb : key b = k'
  · simp [hb, h]
  · simp [hb]

lemma findIdx?_eq_some (hn : (l.map key).Nodup) (hi : l[i]? = some a) :
    l.findIdx? (fun b => key b = key a) = some i := by
  obtain ⟨hlt, rfl⟩ := List.getElem?_eq_some_iff.mp hi
  refine List.findIdx?_eq_some_iff_getElem.mpr ⟨hlt, decide_eq_true rfl, fun j hj => ?_⟩
  have hne := (List.nodup_iff_getElem?_ne_getElem?.mp hn) j i hj (by simpa using hlt)
  rw [List.getElem?_map, List.getElem?_map, List.getElem?_eq_getElem hlt,
    List.getElem?_eq_getElem (hj.trans hlt)] at hne
  simpa using hne

lemma modify_eq_map {f : α → α} (hn : (l.map key).Nodup)
    (hi : l.findIdx? (fun b => key b = k) = some i) :
    l.modify i f = l.map (fun b => if key b = k then f b else b) := by
  obtain ⟨hlt, hkey, -⟩ := List.findIdx?_eq_some_iff_getElem.mp hi
  refine List.ext_getElem? (fun j => ?_)
  rw [List.getElem?_map, List.getElem?_modify, Option.map_eq_map]
  cases hj : l[j]? with
  | none => rfl
  | some b =>
    have hiff : i = j ↔ key b = k := by
      constructor
      · rintro rfl
        rw [List.getElem?_eq_getElem hlt, Option.some.injEq] at hj
        exact hj ▸ of_decide_eq_true hkey
      · rintro rfl
        exact Option.some.inj (hi.symm.trans (findIdx?_eq_some hn hj))
    simp only [Option.map_some, hiff]

lemma getElem?_eraseIdx_shift (hi : l[i]? = some a) (hne : j ≠ i) :
    (l.eraseIdx j)[if j < i then i - 1 else i]? = some a := by
  rw [List.getElem?_eraseIdx]
  split_ifs with hlt hless
  · omega
  · rw [Nat.sub_add_cancel (by omega)]
    exact hi
  · exact hi
  · omega

def takeByKey (key : α → κ) : List κ → List α → List α × List α
  | [], l => ([], l)
  | k :: ks, l =>
    match l.findIdx? (fun b => key b = k) with
    | none => takeByKey key ks l
    | some i => ((l[i]?).toList ++ (takeByKey key ks (l.eraseIdx i)).1,
        (takeByKey key ks (l.eraseIdx i)).2)

lemma takeByKey_perm (ks : List κ) (l : List α) :
    ((takeByKey key ks l).1 ++ (takeByKey key ks l).2).Perm l := by
  induction ks generalizing l with
  | nil => exact List.Perm.refl _
  | cons k ks ih =>
    rw [takeByKey]
    cases hidx : l.findIdx? (fun b => key b = k) with
    | none => exact ih l
    | some i =>
      obtain ⟨hlt, -, -⟩ := List.findIdx?_eq_some_iff_getElem.mp hidx
      dsimp only
      rw [List.getElem?_eq_getElem hlt, Option.toList_some, List.append_assoc,
        List.singleton_append]
      exact ((ih (l.eraseIdx i)).cons l[i]).trans (List.getElem_cons_eraseIdx_perm hlt)

lemma takeByKey_eq {ks : List κ} (hn : (l.map key).Nodup) (hks : ks.Nodup) :
    takeByKey key ks l =
      (ks.filterMap (fun k => l.find? (fun b => key b = k)), l.filter (fun b => key b ∉ ks)) := by
  induction ks generalizing l with
  | nil => simp [takeByKey]
  | cons k ks ih =>
    obtain ⟨hk, hks⟩ := List.nodup_cons.mp hks
    rw [takeByKey, List.filterMap_cons]
    cases hidx : l.findIdx? (fun b => key b = k) with
    | none =>
      have hnone := List.findIdx?_eq_none_iff.mp hidx
      have hfind : l.find? (fun b => key b = k) = none :=
        List.find?_eq_none.mpr (fun b hb => by simpa using hnone b hb)
      rw [hfind]
      dsimp only
      rw [ih hn hks]
      congr 1
      refine List.filter_congr (fun b hb => ?_)
      have hbk := hnone b hb
      simp only [decide_eq_false_iff_not] at hbk
      simp [hbk]
    | some i =>
      obtain ⟨hlt, hi, -⟩ := List.findIdx?_eq_some_iff_getElem.mp hidx
      have hfind : l.find? (fun b => key b = k) = some l[i] := by
        rw [← of_decide_eq_true hi]
        exact find?_eq_some hn (List.getElem_mem hlt)
      have hsub : ((l.filter (fun b => key b ≠ k)).map key).Nodup :=
        hn.sublist (List.filter_sublist.map key)
      rw [hfind]
      dsimp only
      rw [eraseIdx_eq_filter hn hidx, ih hsub hks, List.getElem?_eq_getElem hlt]
      congr 1
      · rw [Option.toList_some, List.singleton_append]
        congr 1
        refine List.filterMap_congr (fun k' hk' => ?_)
        exact find?_filter (fun he => hk (he ▸ hk'))
      · rw [List.filter_filter]
        refine List.filter_congr (fun b _ => ?_)
        simp [not_or, Bool.and_comm]

end Nightcrow.Library.Keyed
