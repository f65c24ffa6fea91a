import Nightcrow.Plugin.Approval
import Nightcrow.Session.Watchers.Ledger

namespace Nightcrow.Session.Watchers

open Nightcrow.Backend Nightcrow.Library Nightcrow.Plugin
open Nightcrow.Session.Terminal (PaneId PaneSize Shared)

namespace Plugins

def row (p : Plugins) (b : PtyBackend) (live : PaneId → Bool)
    (spawned : PaneId → Option PaneToken) (pane : PaneId) : Row where
  owner := p.owners.lookup pane
  intended := p.intended.lookup pane
  pending := (p.pending.lookup pane).isSome
  slot := (b.slot pane).map (fun slot => (slot.identity, slot.launch))
  live := live pane
  spawned := spawned pane

def ledger (p : Plugins) (b : PtyBackend) (live : PaneId → Bool)
    (spawned : PaneId → Option PaneToken) (grants : List Grant) : Ledger where
  rows := p.row b live spawned
  hosted name := name ∈ p.hosts
  nextId := b.nextId
  grants

end Plugins

namespace PluginHub

def ledger (h : PluginHub) : Ledger :=
  h.plugins.ledger h.backend h.shared.paneIsLive h.spawned h.grants

end PluginHub

namespace Plugins

variable {p q : Plugins} {b c : PtyBackend} {live : PaneId → Bool}
  {spawned : PaneId → Option PaneToken} {grants : List Grant} {pane : PaneId}
  {build : PaneToken → PaneGeneration → PluginEvent} {upset : Upset → Prop}

lemma ledger_congr (ho : p.owners = q.owners) (hi : p.intended = q.intended)
    (hp : p.pending = q.pending) (hh : ∀ name, name ∈ p.hosts ↔ name ∈ q.hosts) :
    p.ledger c live spawned grants = q.ledger c live spawned grants := by
  apply Ledger.ext
  · funext i
    simp [ledger, row, ho, hi, hp]
  · funext name
    simp [ledger, hh]
  all_goals rfl

@[simp] lemma ledger_sendFor :
    (p.sendFor b pane build).ledger c live spawned grants = p.ledger c live spawned grants :=
  ledger_congr (by simp) (by simp) (by simp) (by simp)

@[simp] lemma ledger_cancel :
    (p.cancel b pane).ledger c live spawned grants = p.ledger c live spawned grants :=
  ledger_congr (by simp) (by simp) (by simp) (by simp)

@[simp] lemma ledger_paneOpened {title : Option String} :
    (p.paneOpened b pane title).ledger c live spawned grants = p.ledger c live spawned grants :=
  ledger_sendFor

@[simp] lemma ledger_paneClosed :
    (p.paneClosed b pane).ledger c live spawned grants = p.ledger c live spawned grants :=
  ledger_sendFor

@[simp] lemma ledger_paneExited :
    (p.paneExited b pane).ledger c live spawned grants = p.ledger c live spawned grants :=
  ledger_sendFor

@[simp] lemma ledger_userInput :
    (p.userInput b pane).ledger c live spawned grants = p.ledger c live spawned grants := by
  unfold userInput
  split
  · rfl
  · rw [ledger_cancel, ledger_sendFor]

@[simp] lemma ledger_paneOutput {text : String} :
    (p.paneOutput b pane text).ledger c live spawned grants = p.ledger c live spawned grants := by
  unfold paneOutput
  split
  · rfl
  · dsimp only
    split
    · rfl
    · rw [ledger_sendFor]
      rfl

@[simp] lemma ledger_notifyIdle {now : ℕ} :
    (p.notifyIdle b now).ledger c live spawned grants = p.ledger c live spawned grants := by
  unfold notifyIdle
  generalize p.idleDue b now = due
  induction due generalizing p with
  | nil => rfl
  | cons e due ih =>
    rw [List.foldl_cons, ih]
    exact ledger_sendFor

lemma ledger_forget : (p.forget b pane).ledger c live spawned grants =
    (p.ledger c live spawned grants).set pane
      { (p.ledger c live spawned grants).rows pane with
        owner := none, intended := none, pending := false } := by
  rw [forget, ledger_cancel]
  apply Ledger.ext
  · funext i
    by_cases hi : i = pane
    · subst hi
      simp [ledger, row, Ledger.set]
    · simp [ledger, row, Ledger.set, hi]
  all_goals rfl

lemma ledger_releasePane : (p.releasePane b pane).ledger c live spawned grants =
    (p.ledger c live spawned grants).set pane
      { (p.ledger c live spawned grants).rows pane with owner := none, pending := false } := by
  rw [releasePane, ledger_cancel]
  apply Ledger.ext
  · funext i
    by_cases hi : i = pane
    · subst hi
      simp [ledger, row, Ledger.set]
    · simp [ledger, row, Ledger.set, hi]
  all_goals rfl

lemma ledger_retireSlot : p.ledger (b.retireSlot pane) live spawned grants =
    (p.ledger b live spawned grants).set pane
      { (p.ledger b live spawned grants).rows pane with slot := none } := by
  apply Ledger.ext
  · funext i
    by_cases hi : i = pane
    · subst hi
      simp [ledger, row]
    · simp [ledger, row, Ledger.set, hi]
  all_goals rfl

lemma ledger_destroyPane : p.ledger (b.destroyPane pane) live spawned grants =
    (p.ledger b live spawned grants).set pane
      { (p.ledger b live spawned grants).rows pane with slot := none } :=
  ledger_retireSlot

lemma ledger_releaseProcess :
    p.ledger (b.releaseProcess pane) live spawned grants = p.ledger b live spawned grants := rfl

lemma ledger_markOutput {now : ℕ} :
    p.ledger (b.markOutput pane now) live spawned grants = p.ledger b live spawned grants := by
  apply Ledger.ext
  · funext i
    simp only [ledger, row, PtyBackend.slot_markOutput]
    split
    · rcases b.slot i with _ | slot <;> rfl
    · rfl
  all_goals rfl

lemma ledger_live {now : Bool} : p.ledger b (Function.update live pane now) spawned grants =
    (p.ledger b live spawned grants).set pane
      { (p.ledger b live spawned grants).rows pane with live := now } := by
  apply Ledger.ext
  · funext i
    by_cases hi : i = pane
    · subst hi
      simp [ledger, row]
    · simp [ledger, row, Ledger.set, hi]
  all_goals rfl

end Plugins

namespace PluginHub

variable {h t : PluginHub} {upset : Upset → Prop} {pane : PaneId}

lemma ledger_eq : h.ledger =
    h.plugins.ledger h.backend h.shared.paneIsLive h.spawned h.grants := rfl

lemma owner_row : (h.ledger.rows pane).owner = h.plugins.owners.lookup pane := rfl

lemma turns_closePane : Ledger.Turns upset h.ledger (h.closePane pane).ledger := by
  unfold closePane
  split
  · exact .refl
  by_cases ho : (h.plugins.owner pane).isSome
  · have ht : Ledger.Turn upset _ _ := .watchedGone h.ledger pane
    simp only [ho, if_true, ledger_eq, Shared.paneIsLive_removePaneAndAnnounce,
      Shared.paneIsLive_endRecovery, Plugins.ledger_live, Plugins.ledger_destroyPane,
      Plugins.ledger_retireSlot, Plugins.ledger_forget, Plugins.ledger_paneClosed,
      Ledger.set_set, Ledger.rows_set] at ht ⊢
    exact .single ht
  · have ht : Ledger.Turn upset _ _ := .unwatchedGone h.ledger pane
      (by simpa [owner_row, Plugins.owner] using ho)
    simp only [ho, Bool.false_eq_true, if_false, ledger_eq,
      Shared.paneIsLive_removePaneAndAnnounce, Shared.paneIsLive_endRecoveryIfReported,
      Plugins.ledger_live, Plugins.ledger_destroyPane, Ledger.set_set, Ledger.rows_set] at ht ⊢
    exact .single ht

lemma ledger_registered (hs : h.ledger.Sound) {panes : Std.TreeMap PaneId PtyPane}
    {slot : PaneSlot} {size : PaneSize} {client : Option ℕ} {title : Option String} :
    (h.registered h.backend.nextId
      { panes
        slots := h.backend.slots.insert h.backend.nextId slot
        nextId := h.backend.nextId + 1 } size client title).ledger =
      { h.ledger.set h.ledger.nextId
          { slot := some (slot.identity, slot.launch), live := true,
            spawned := some slot.identity.token } with
        nextId := h.ledger.nextId + 1 } := by
  have hblank := hs.fresh h.ledger.nextId le_rfl
  have ho : h.plugins.owners.lookup h.backend.nextId = none := congrArg Row.owner hblank
  have hi : h.plugins.intended.lookup h.backend.nextId = none := congrArg Row.intended hblank
  have hp : (h.plugins.pending.lookup h.backend.nextId).isSome = false :=
    congrArg Row.pending hblank
  apply Ledger.ext
  · funext i
    by_cases hn : i = h.backend.nextId
    · subst hn
      simp [ledger, Plugins.ledger, Plugins.row, registered, Ledger.set, PtyBackend.slot_insert,
        Shared.paneIsLive_registerPane, ho, hi, hp]
    · simp [ledger, Plugins.ledger, Plugins.row, registered, Ledger.set, PtyBackend.slot_insert,
        Shared.paneIsLive_registerPane, hn]
      rfl
  all_goals rfl

lemma turns_opened (upset : Upset → Prop) (hs : h.ledger.Sound) {backend : PtyBackend}
    {minted : Option PaneToken} {failed : Option SpawnStep} {size : PaneSize} {command : Option String} {now : ℕ}
    (hopen : h.backend.openPane size command minted failed now = .ok (pane, backend))
    (client : Option ℕ) (title : Option String) :
    Ledger.Turns upset h.ledger (h.registered pane backend size client title).ledger ∧
      pane = h.backend.nextId ∧ ∃ token, minted = some token ∧
        (h.registered pane backend size client title).spawned pane = some token := by
  obtain ⟨token, rfl, rfl, rfl⟩ := PtyBackend.openPane_cases hopen
  refine ⟨?_, rfl, token, rfl, ?_⟩
  · rw [ledger_registered hs]
    exact .single (.opened h.ledger { token } { command })
  · simp [registered, PtyBackend.slot_insert]

lemma turns_create (hs : h.ledger.Sound) {size : PaneSize} {client : ℕ} {command : Option String}
    {spawning : Spawning} :
    Ledger.Turns upset h.ledger (h.create size client command spawning).ledger := by
  unfold create
  split
  · simp only [ledger_eq, Shared.paneIsLive_sendErrorTo]
    exact .refl
  · split
    · rename_i pane backend hopen
      exact (turns_opened upset hs hopen _ _).1
    · simp only [ledger_eq, Shared.paneIsLive_sendErrorTo]
      exact .refl

end PluginHub

namespace Plugins

variable {p : Plugins} {b : PtyBackend} {live : PaneId → Bool}
  {spawned : PaneId → Option PaneToken} {grants more : List Grant} {pane : PaneId}
  {plugin : String}

lemma ledger_claim (b : PtyBackend) (live : PaneId → Bool) (spawned : PaneId → Option PaneToken)
    (grants : List Grant) {q : Plugins} {held : Pending} (h : p.claimPending pane = some (held, q)) :
    p.pending.lookup pane = some held ∧ q.ledger b live spawned grants =
      (p.ledger b live spawned grants).set pane
        { (p.ledger b live spawned grants).rows pane with pending := false } := by
  obtain ⟨held', hp, he⟩ := Option.map_eq_some_iff.mp h
  obtain ⟨rfl, rfl⟩ := Prod.mk.inj he
  refine ⟨hp, ?_⟩
  apply Ledger.ext
  · funext i
    by_cases hi : i = pane
    · subst hi
      simp [ledger, row]
    · simp [ledger, row, Ledger.set, hi]
  all_goals rfl

lemma ledger_restorePending {held : Pending} :
    (p.restorePending pane held).ledger b live spawned grants =
      (p.ledger b live spawned grants).set pane
        { (p.ledger b live spawned grants).rows pane with pending := true } := by
  apply Ledger.ext
  · funext i
    by_cases hi : i = pane
    · subst hi
      simp [ledger, row, restorePending]
    · simp [ledger, row, Ledger.set, restorePending, hi]
  all_goals rfl

lemma ledger_adopt (p : Plugins) (b : PtyBackend) (live : PaneId → Bool)
    (spawned : PaneId → Option PaneToken) (grants more : List Grant) (pane : PaneId)
    (plugin : String) : (p.adopt pane plugin).2.ledger b live spawned more =
    { (p.ledger b live spawned grants).set pane
        { (p.ledger b live spawned grants).rows pane with
          intended := some plugin
          owner := if (p.ledger b live spawned grants).hosted plugin then some plugin
            else ((p.ledger b live spawned grants).rows pane).owner } with
      grants := more } := by
  unfold adopt
  dsimp only
  apply Ledger.ext
  · funext i
    split <;> rename_i hh <;> by_cases hi : i = pane
    · subst hi
      simp [ledger, row, Ledger.set, hh]
    · simp [ledger, row, Ledger.set, hi]
    · subst hi
      simp [ledger, row, Ledger.set, hh]
    · simp [ledger, row, Ledger.set, hi]
  · split <;> rfl
  · split <;> rfl
  · rfl

end Plugins

namespace PluginHub

variable {h t : PluginHub} {upset : Upset → Prop} {pane : PaneId}

lemma turns_handed {token : PaneToken} (hlt : pane < h.backend.nextId)
    (hspawned : h.spawned pane = some token) (howner : h.plugins.owners.lookup pane = none)
    (title plugin : Option String) :
    Ledger.Turns upset h.ledger (h.handed pane title plugin).ledger := by
  cases plugin with
  | none => exact .refl
  | some name =>
    have ht : Ledger.Turn upset _ _ :=
      .granted h.ledger pane token name false hlt hspawned (.inr howner)
    have ha := Plugins.ledger_adopt h.plugins h.backend h.shared.paneIsLive h.spawned h.grants
      (h.grants ++ [⟨token, name, false⟩]) pane name
    rw [← ledger_eq] at ha
    simp only [handed, hspawned, Option.toList_some, List.map_cons, List.map_nil]
    rcases had : h.plugins.adopt pane name with ⟨_ | _, plugins⟩ <;> rw [had] at ha
    · simp only [ledger_eq] at ha ht ⊢
      rw [ha]
      exact .single ht
    · simp only [ledger_eq, Plugins.ledger_paneOpened] at ha ht ⊢
      rw [ha]
      exact .single ht

lemma turns_openStartupPane (hs : h.ledger.Sound) (pane : Terminal.Startup.StartupPane)
    (client : ℕ) (spawning : Spawning) :
    Ledger.Turns upset h.ledger (h.openStartupPane pane client spawning).ledger := by
  unfold openStartupPane
  split
  · rename_i id backend hopen
    obtain ⟨ht, rfl, token, -, hspawned⟩ := turns_opened upset hs hopen none pane.title
    refine ht.trans (turns_handed ?_ hspawned ?_ _ _)
    · obtain ⟨_, -, -, rfl⟩ := PtyBackend.openPane_cases hopen
      exact Nat.lt_succ_self _
    · exact congrArg Row.owner (hs.fresh h.backend.nextId le_rfl)
  · simp only [ledger_eq, Shared.paneIsLive_sendErrorTo]
    exact .refl

lemma turns_openStartupPanes (hs : h.ledger.Sound) {client held : ℕ}
    {panes : List (Terminal.Startup.StartupPane × Spawning)} :
    Ledger.Turns upset h.ledger (openStartupPanes client held panes h).ledger := by
  induction panes generalizing h held with
  | nil =>
    rw [openStartupPanes]
    simp only [ledger_eq, Shared.paneIsLive_releaseReserved]
    exact .refl
  | cons e panes ih =>
    have hfree : PluginHub.ledger
        { h with shared := h.shared.releaseReserved (min held 1) } = h.ledger := by
      simp only [ledger_eq, Shared.paneIsLive_releaseReserved]
    rw [openStartupPanes]
    split
    · simp only [ledger_eq, Shared.paneIsLive_releaseReserved, Shared.paneIsLive_sendErrorTo]
      exact .refl
    · have ht : Ledger.Turns upset _ _ := turns_openStartupPane (hfree ▸ hs) e.1 client e.2
      rw [hfree] at ht
      exact ht.trans (ih (hs.turns ht))

lemma pending_row {held : Pending} (hp : h.plugins.pending.lookup pane = some held) :
    (h.ledger.rows pane).pending = true := by
  simp [ledger, Plugins.ledger, Plugins.row, hp]

lemma turns_cancelRecovery : Ledger.Turns upset h.ledger (h.cancelRecovery pane).ledger := by
  unfold cancelRecovery
  split
  · exact .refl
  · rename_i held plugins hc
    obtain ⟨hp, hl⟩ := Plugins.ledger_claim h.backend h.shared.paneIsLive h.spawned h.grants hc
    have ht : Ledger.Turn upset _ _ := .holdRetired h.ledger pane none (pending_row hp) (.inl rfl)
    simp only [ledger_eq, Shared.paneIsLive_endRecovery, Plugins.ledger_retireSlot,
      Plugins.ledger_forget, Plugins.ledger_paneClosed, hl, Ledger.set_set, Ledger.rows_set] at ht ⊢
    exact .single ht

lemma ledger_expirePane : (h.expirePane pane).ledger = h.ledger.set pane
    { h.ledger.rows pane with owner := none, intended := none, pending := false, slot := none } := by
  simp only [ledger_eq, expirePane, Shared.paneIsLive_endRecovery, Plugins.ledger_retireSlot,
    Plugins.ledger_forget, Ledger.set_set, Ledger.rows_set]

lemma turns_expire {panes : List PaneId} (hn : panes.Nodup)
    (hp : ∀ pane ∈ panes, (h.ledger.rows pane).pending = true) :
    Ledger.Turns upset h.ledger (panes.foldl expirePane h).ledger := by
  induction panes generalizing h with
  | nil => exact .refl
  | cons pane panes ih =>
    obtain ⟨hne, hn⟩ := List.nodup_cons.mp hn
    have ht : Ledger.Turn upset _ _ := .holdRetired h.ledger pane none
      (hp pane List.mem_cons_self) (.inl rfl)
    rw [← ledger_expirePane] at ht
    refine .head ht (ih hn fun i hi => ?_)
    have hip : i ≠ pane := fun h => hne (h ▸ hi)
    rw [ledger_expirePane, Ledger.rows_set_of_ne hip]
    exact hp i (List.mem_cons_of_mem pane hi)

lemma turns_expirePending {now : ℕ} :
    Ledger.Turns upset h.ledger (h.expirePending now).ledger := by
  apply turns_expire
  · exact (h.plugins.pending.nodupKeys.sublist List.filter_sublist)
  · intro pane hp
    obtain ⟨e, he, rfl⟩ := List.mem_map.mp hp
    exact pending_row (AList.mem_lookup_iff.mpr (List.mem_of_mem_filter he))

lemma turns_paneExited {now : ℕ} :
    Ledger.Turns upset h.ledger (h.paneExited pane now).ledger := by
  unfold paneExited
  split
  · rename_i ho
    have ht : Ledger.Turn upset _ _ := .unwatchedGone h.ledger pane
      (by simpa [owner_row, Plugins.owner] using ho)
    simp only [ledger_eq, Shared.paneIsLive_removePaneAndAnnounce,
      Shared.paneIsLive_endRecoveryIfReported, Plugins.ledger_live, Plugins.ledger_destroyPane,
      Ledger.set_set, Ledger.rows_set] at ht ⊢
    exact .single ht
  rename_i ho
  split
  · rename_i spot hspot hr
    have howner : (h.ledger.rows pane).owner ≠ none := by
      simpa [owner_row, Plugins.owner] using ho
    have hslot : (h.ledger.rows pane).slot ≠ none := by
      rcases hs : h.backend.slot pane with _ | slot
      · simp [isRelaunchable, hs] at hr
      · simp [ledger, Plugins.ledger, Plugins.row, hs]
    have hmem : pane ∈ h.plugins.owners := AList.lookup_isSome.mp (Option.ne_none_iff_isSome.mp howner)
    refine .single ?_
    convert Ledger.Turn.held h.ledger pane howner hslot using 1
    simp only [ledger_eq, Shared.paneIsLive_removePaneAndAnnounce, Plugins.ledger_live,
      Plugins.ledger_paneExited, Plugins.ledger_releaseProcess, Plugins.holdForRelaunch, hmem,
      not_true_eq_false, if_false]
    apply Ledger.ext
    · funext i
      by_cases hi : i = pane
      · subst hi
        simp [Plugins.ledger, Plugins.row]
      · simp [Ledger.rows_set_of_ne hi, Plugins.ledger, Plugins.row, hi]
    all_goals rfl
  · have ht : Ledger.Turn upset _ _ := .watchedGone h.ledger pane
    simp only [ledger_eq, Shared.paneIsLive_removePaneAndAnnounce, Shared.paneIsLive_endRecovery,
      Plugins.ledger_live, Plugins.ledger_destroyPane, Plugins.ledger_forget,
      Plugins.ledger_paneClosed, Ledger.set_set, Ledger.rows_set] at ht ⊢
    exact .single ht

end PluginHub

end Nightcrow.Session.Watchers
