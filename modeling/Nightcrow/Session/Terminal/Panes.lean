import Nightcrow.Session.Terminal.Clients

namespace Nightcrow.Session.Terminal

open Nightcrow.Library Nightcrow.Runtime.Emulator

def recoveryCancelled : String := "cancelled"

def canonicalOrder (current requested : List PaneId) : List PaneId :=
  let out := requested.foldl
    (fun out id => if id ∈ current ∧ id ∉ out then out ++ [id] else out) []
  current.foldl (fun out id => if id ∉ out then out ++ [id] else out) out

def takeInOrder : List PaneState → List PaneId → List PaneState
  | _, [] => []
  | old, id :: ids =>
    match old.find? (·.id = id) with
    | some p => p :: takeInOrder (old.eraseP (·.id = id)) ids
    | none => takeInOrder old ids

namespace Shared

variable (s : Shared)

def hasFreeSlot : Bool := s.panes.length + s.reserved < maxPtysPerRepo

def releaseReserved (count : ℕ) : Shared :=
  if count = 0 then s else { s with reserved := s.reserved - count }

def paneSize (pane : PaneId) : Option PaneSize := (s.pane? pane).map (·.size)

def clearZoomLocked : Shared :=
  match s.zoomed with
  | none => s
  | some _ => broadcast { s with zoomed := none } (.zoomed none)

def setZoom (pane : Option PaneId) : Shared :=
  if pane.any (fun id => !s.paneIsLive id) then s
  else if s.zoomed = pane then s
  else broadcast { s with zoomed := pane } (.zoomed pane)

def registerPane (pane : PaneId) (size : PaneSize) (client : Option ℕ) (title : Option String) :
    Shared :=
  let s := s.clearZoomLocked
  broadcast { s with panes := s.panes ++ [{ id := pane, title, size }] }
    (.created pane size client title)

def removePaneAndAnnounce (pane : PaneId) : Shared :=
  if s.paneIsLive pane then
    let s := broadcast { s with panes := s.panes.filter (·.id ≠ pane) } (.exited pane)
    if s.zoomed = some pane then s.clearZoomLocked else s
  else s

def reorderPanes (order : List PaneId) : Shared :=
  let target := canonicalOrder s.paneIds order
  if target = s.paneIds then s
  else broadcast { s with panes := takeInOrder s.panes target } (.reordered target)

def restorePaneIndex (pane : PaneId) (index : ℕ) : Shared :=
  match s.panes.findIdx? (·.id = pane), s.pane? pane with
  | some source, some entry =>
    let target := min index (s.panes.length - 1)
    if source = target then s
    else
      let panes := (s.panes.eraseIdx source).insertIdx target entry
      broadcast { s with panes } (.reordered (panes.map (·.id)))
  | _, _ => s

def broadcastRecovery (pane : PaneId) (report : RecoveryReport) : Shared :=
  broadcast
    { s with
      recovery := if report.state = recoveryCancelled then s.recovery.erase pane
        else s.recovery.insert pane report }
    (.recovery pane report.state report.detail report.deadlineEpoch report.attempt)

def endRecovery (pane : PaneId) : Shared :=
  s.broadcastRecovery pane
    { state := recoveryCancelled, detail := none, deadlineEpoch := none, attempt := 0 }

def endRecoveryIfReported (pane : PaneId) : Shared :=
  if pane ∈ s.recovery then s.endRecovery pane else s

def endAllRecoveries : Shared :=
  s.recovery.keys.foldl (fun s pane => s.broadcast (.recovery pane recoveryCancelled none none 0))
    { s with recovery := ∅ }

def windDown : Shared :=
  (s.paneIds.foldl (fun (s : Shared) pane => s.broadcast (.exited pane))
    { s with panes := [], zoomed := none }).endAllRecoveries

section counting

variable {s : Shared}

@[simp] lemma clearZoomLocked_panes : s.clearZoomLocked.panes = s.panes := by
  unfold clearZoomLocked; split <;> rfl

@[simp] lemma clearZoomLocked_reserved : s.clearZoomLocked.reserved = s.reserved := by
  unfold clearZoomLocked; split <;> rfl

lemma clientIds_clearZoomLocked : s.clearZoomLocked.clientIds.Sublist s.clientIds := by
  unfold clearZoomLocked
  split
  · exact List.Sublist.refl _
  · exact clientIds_broadcastLocked _

variable (pane : PaneId) (size : PaneSize) (client : Option ℕ) (title : Option String)

@[simp] lemma registerPane_panes : (s.registerPane pane size client title).panes =
    s.panes ++ [{ id := pane, title, size }] := by
  simp [registerPane, broadcast]

@[simp] lemma registerPane_reserved :
    (s.registerPane pane size client title).reserved = s.reserved := by
  simp [registerPane, broadcast]

lemma clientIds_registerPane :
    (s.registerPane pane size client title).clientIds.Sublist s.clientIds :=
  (clientIds_broadcastLocked _).trans clientIds_clearZoomLocked

lemma removePaneAndAnnounce_panes :
    (s.removePaneAndAnnounce pane).panes = s.panes.filter (·.id ≠ pane) := by
  unfold removePaneAndAnnounce
  split
  · dsimp only
    split <;> simp [broadcast]
  · rename_i hl
    refine (List.filter_eq_self.mpr fun p hp => ?_).symm
    simp only [paneIsLive, List.any_eq_true, not_exists, not_and] at hl
    simpa using hl p hp

@[simp] lemma removePaneAndAnnounce_reserved :
    (s.removePaneAndAnnounce pane).reserved = s.reserved := by
  unfold removePaneAndAnnounce
  split
  · dsimp only
    split <;> simp [broadcast]
  · rfl

lemma clientIds_removePaneAndAnnounce :
    (s.removePaneAndAnnounce pane).clientIds.Sublist s.clientIds := by
  unfold removePaneAndAnnounce
  split
  · dsimp only
    split
    · exact clientIds_clearZoomLocked.trans (clientIds_broadcastLocked _)
    · exact clientIds_broadcastLocked _
  · exact List.Sublist.refl _

@[simp] lemma restorePaneIndex_reserved (index : ℕ) :
    (s.restorePaneIndex pane index).reserved = s.reserved := by
  unfold restorePaneIndex
  split
  · dsimp only
    split <;> rfl
  · rfl

lemma restorePaneIndex_panes_length (index : ℕ) :
    (s.restorePaneIndex pane index).panes.length = s.panes.length := by
  unfold restorePaneIndex
  split
  · rename_i source entry hs he
    dsimp only
    split
    · rfl
    · have hlt : source < s.panes.length := (List.findIdx?_eq_some_iff_findIdx_eq.mp hs).1
      simp only [broadcast, broadcastLocked_panes]
      rw [List.length_insertIdx_of_le_length, List.length_eraseIdx_of_lt hlt]
      · omega
      · rw [List.length_eraseIdx_of_lt hlt]
        omega
  · rfl

lemma clientIds_restorePaneIndex (index : ℕ) :
    (s.restorePaneIndex pane index).clientIds.Sublist s.clientIds := by
  unfold restorePaneIndex
  split
  · dsimp only
    split
    · exact List.Sublist.refl _
    · exact clientIds_broadcastLocked _
  · exact List.Sublist.refl _

@[simp] lemma releaseReserved_panes (count : ℕ) : (s.releaseReserved count).panes = s.panes := by
  unfold releaseReserved; split <;> rfl

@[simp] lemma releaseReserved_reserved (count : ℕ) :
    (s.releaseReserved count).reserved = s.reserved - count := by
  unfold releaseReserved; split <;> simp_all

@[simp] lemma releaseReserved_clientIds (count : ℕ) :
    (s.releaseReserved count).clientIds = s.clientIds := by
  unfold releaseReserved; split <;> rfl

lemma mem_takeInOrder {old : List PaneState} {ids : List PaneId} {p : PaneState}
    (h : p ∈ takeInOrder old ids) : p ∈ old := by
  induction ids generalizing old with
  | nil => exact (List.not_mem_nil h).elim
  | cons id ids ih =>
    rw [takeInOrder] at h
    split at h
    · rename_i q hq
      rcases List.mem_cons.mp h with rfl | h
      · exact List.mem_of_find?_eq_some hq
      · exact List.mem_of_mem_eraseP (ih h)
    · exact ih h

lemma reorderPanes_subset (order : List PaneId) : (s.reorderPanes order).panes ⊆ s.panes := by
  unfold reorderPanes
  dsimp only
  split
  · exact List.Subset.refl _
  · exact fun p hp => mem_takeInOrder hp

lemma restorePaneIndex_subset (index : ℕ) : (s.restorePaneIndex pane index).panes ⊆ s.panes := by
  unfold restorePaneIndex
  split
  · rename_i source entry hs he
    dsimp only
    split
    · exact List.Subset.refl _
    · intro p hp
      rcases List.eq_or_mem_of_mem_insertIdx hp with rfl | hp
      · exact List.mem_of_find?_eq_some he
      · exact List.mem_of_mem_eraseIdx hp
  · exact List.Subset.refl _

lemma setZoom_panes (zoom : Option PaneId) : (s.setZoom zoom).panes = s.panes := by
  unfold setZoom
  split
  · rfl
  · split <;> rfl

lemma endRecoveryIfReported_panes : (s.endRecoveryIfReported pane).panes = s.panes := by
  unfold endRecoveryIfReported
  split <;> rfl

lemma foldl_broadcast {α : Type*} (f : α → ServerMessage) (l : List α) (s : Shared) :
    (l.foldl (fun s a => s.broadcast (f a)) s).panes = s.panes ∧
      (l.foldl (fun s a => s.broadcast (f a)) s).reserved = s.reserved ∧
      (l.foldl (fun s a => s.broadcast (f a)) s).clientIds.Sublist s.clientIds := by
  induction l generalizing s with
  | nil => exact ⟨rfl, rfl, List.Sublist.refl _⟩
  | cons a l ih =>
    obtain ⟨hp, hr, hc⟩ := ih (s.broadcast (f a))
    exact ⟨hp, hr, hc.trans (clientIds_broadcastLocked _)⟩

@[simp] lemma windDown_panes : s.windDown.panes = [] :=
  (foldl_broadcast _ _ _).1.trans (foldl_broadcast _ _ _).1

@[simp] lemma windDown_reserved : s.windDown.reserved = s.reserved :=
  (foldl_broadcast _ _ _).2.1.trans (foldl_broadcast _ _ _).2.1

lemma clientIds_windDown : s.windDown.clientIds.Sublist s.clientIds :=
  (foldl_broadcast _ _ _).2.2.trans (foldl_broadcast _ _ _).2.2

end counting

section liveness

variable {s t : Shared} {pane i : PaneId}

lemma paneIsLive_iff : s.paneIsLive i = true ↔ i ∈ s.paneIds := by
  simp [paneIsLive, paneIds]

lemma paneIsLive_congr (h : ∀ i, i ∈ s.paneIds ↔ i ∈ t.paneIds) : s.paneIsLive = t.paneIsLive := by
  funext i
  rw [Bool.eq_iff_iff, paneIsLive_iff, paneIsLive_iff, h]

lemma paneIsLive_of_panes (h : s.panes = t.panes) : s.paneIsLive = t.paneIsLive :=
  paneIsLive_congr fun i => by rw [paneIds, paneIds, h]

@[simp] lemma paneIsLive_sendErrorTo {id : ℕ} {message : String} :
    (s.sendErrorTo id message).paneIsLive = s.paneIsLive :=
  paneIsLive_of_panes (queueTo_panes _ _)

@[simp] lemma paneIsLive_releaseReserved {count : ℕ} :
    (s.releaseReserved count).paneIsLive = s.paneIsLive :=
  paneIsLive_of_panes (releaseReserved_panes _)

@[simp] lemma paneIsLive_endRecovery : (s.endRecovery pane).paneIsLive = s.paneIsLive := rfl

@[simp] lemma paneIsLive_endRecoveryIfReported :
    (s.endRecoveryIfReported pane).paneIsLive = s.paneIsLive :=
  paneIsLive_of_panes (endRecoveryIfReported_panes _)

lemma paneIsLive_registerPane {size : PaneSize} {client : Option ℕ} {title : Option String} :
    (s.registerPane pane size client title).paneIsLive = Function.update s.paneIsLive pane true := by
  funext i
  by_cases hi : i = pane
  · simp [paneIsLive, hi]
  · simp [paneIsLive, hi, Ne.symm hi]

lemma paneIsLive_removePaneAndAnnounce :
    (s.removePaneAndAnnounce pane).paneIsLive = Function.update s.paneIsLive pane false := by
  funext i
  rw [Bool.eq_iff_iff, paneIsLive_iff, paneIds, removePaneAndAnnounce_panes]
  by_cases hi : i = pane
  · subst hi
    simp
  · rw [Function.update_of_ne hi, paneIsLive_iff]
    simp only [paneIds, List.mem_map, List.mem_filter, decide_eq_true_eq]
    constructor
    · rintro ⟨p, ⟨hp, -⟩, rfl⟩
      exact ⟨p, hp, rfl⟩
    · rintro ⟨p, hp, rfl⟩
      exact ⟨p, ⟨hp, hi⟩, rfl⟩

lemma perm_restorePaneIndex (index : ℕ) : (s.restorePaneIndex pane index).panes.Perm s.panes := by
  unfold restorePaneIndex
  split
  · rename_i source entry hs he
    dsimp only
    split
    · exact List.Perm.refl _
    · obtain ⟨hlt, rfl⟩ := List.findIdx?_eq_some_iff_findIdx_eq.mp hs
      have hentry : s.panes[s.panes.findIdx (·.id = pane)] = entry := by
        rw [pane?, List.find?_eq_getElem?_findIdx, List.getElem?_eq_getElem hlt] at he
        exact Option.some.inj he
      refine (List.perm_insertIdx _ _ ?_).trans ?_
      · rw [List.length_eraseIdx_of_lt hlt]
        omega
      · rw [← hentry]
        exact List.getElem_cons_eraseIdx_perm hlt
  · exact List.Perm.refl _

lemma paneIsLive_restorePaneIndex (index : ℕ) :
    (s.restorePaneIndex pane index).paneIsLive = s.paneIsLive :=
  paneIsLive_congr fun _ => ((perm_restorePaneIndex index).map _).mem_iff

end liveness

end Shared

end Nightcrow.Session.Terminal
