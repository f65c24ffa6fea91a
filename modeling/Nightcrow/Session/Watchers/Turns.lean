import Nightcrow.Session.Watchers.Refinement

/-! The turns of a reload and of what the plugins ask for, and with them of every step. -/

namespace Nightcrow.Session.Watchers

open Nightcrow.Backend Nightcrow.Library Nightcrow.Plugin
open Nightcrow.Session.Terminal (PaneId PaneSize Shared)

namespace Reloading

variable (r : Reloading) (live : PaneId → Bool) (spawned : PaneId → Option PaneToken)
  (grants : List Grant)

def ledger : Ledger := r.plugins.ledger r.backend live spawned grants

variable {r live spawned grants} {upset : Upset → Prop} {name : String} {pane : PaneId}
  {titles : List (PaneId × Option String)}

lemma turns_retireHold :
    Ledger.Turns upset (r.ledger live spawned grants) ((r.retireHold pane).ledger live spawned grants) := by
  unfold retireHold
  split
  · exact .refl
  · rename_i held plugins hc
    obtain ⟨hp, hl⟩ := Plugins.ledger_claim r.backend live spawned grants hc
    have ht : Ledger.Turn upset _ _ := .holdRetired (r.ledger live spawned grants) pane
      ((r.ledger live spawned grants).rows pane).intended
      (by simp [ledger, Plugins.ledger, Plugins.row, hp]) (.inr rfl)
    simp only [ledger, Plugins.ledger_retireSlot, Plugins.ledger_releasePane, hl, Ledger.set_set,
      Ledger.rows_set] at ht ⊢
    exact .single ht

lemma turns_release :
    Ledger.Turns upset (r.ledger live spawned grants) ((r.release pane).ledger live spawned grants) := by
  have ht : Ledger.Turn upset _ _ := .released (r.ledger live spawned grants) pane
  simp only [ledger, release, Plugins.ledger_releasePane] at ht ⊢
  exact .single ht

lemma turns_foldl {α : Type*} {f : Reloading → α → Reloading}
    (hf : ∀ r a, Ledger.Turns upset (r.ledger live spawned grants)
      ((f r a).ledger live spawned grants)) (l : List α) :
    Ledger.Turns upset (r.ledger live spawned grants) ((l.foldl f r).ledger live spawned grants) := by
  induction l generalizing r with
  | nil => exact .refl
  | cons a l ih => exact (hf r a).trans ih

lemma turns_retireHoldsOf : Ledger.Turns upset (r.ledger live spawned grants)
    ((r.retireHoldsOf name).ledger live spawned grants) :=
  turns_foldl (fun _ _ => turns_retireHold) _

lemma turns_abandon :
    Ledger.Turns upset (r.ledger live spawned grants) ((r.abandon name).ledger live spawned grants) :=
  turns_foldl (r := { r with plugins := { r.plugins.setWatchOnSignal name false with
    allowedFlags := (r.plugins.setWatchOnSignal name false).allowedFlags.erase name } })
    (fun _ _ => turns_release) _

lemma turns_stopHost (hd : upset .hostDown) {replaced : Bool} :
    Ledger.Turns upset (r.ledger live spawned grants)
      ((r.stopHost name replaced).ledger live spawned grants) := by
  have hdown : Ledger.Turn upset (r.ledger live spawned grants) (Reloading.ledger
      { r with plugins := { r.plugins with
        hosts := r.plugins.hosts.erase name, launched := r.plugins.launched.erase name } }
      live spawned grants) := by
    convert Ledger.Turn.hostDown (r.ledger live spawned grants) name hd using 1
    apply Ledger.ext
    · rfl
    · funext other
      by_cases ho : other = name
      · subst ho
        simp [ledger, Plugins.ledger]
      · simp [ledger, Plugins.ledger, ho]
    all_goals rfl
  unfold stopHost
  refine .head hdown ?_
  dsimp only
  split
  · exact turns_retireHoldsOf
  · exact turns_retireHoldsOf.trans turns_abandon

lemma ledger_handOver : (r.handOver name titles pane).ledger live spawned grants =
    (r.ledger live spawned grants).set pane
      { (r.ledger live spawned grants).rows pane with owner := some name } := by
  simp only [ledger, handOver, Plugins.ledger_paneOpened]
  apply Ledger.ext
  · funext i
    by_cases hi : i = pane
    · subst hi
      simp [Plugins.ledger, Plugins.row]
    · simp [Plugins.ledger, Plugins.row, Ledger.set, hi]
  all_goals rfl

lemma turns_handOvers {panes : List PaneId}
    (hh : (r.ledger live spawned grants).hosted name = true)
    (hp : ∀ pane ∈ panes, ((r.ledger live spawned grants).rows pane).intended = some name ∧
      live pane = true) :
    Ledger.Turns upset (r.ledger live spawned grants)
      ((panes.foldl (fun r pane => r.handOver name titles pane) r).ledger live spawned grants) := by
  induction panes generalizing r with
  | nil => exact .refl
  | cons pane panes ih =>
    obtain ⟨hi, hl⟩ := hp pane List.mem_cons_self
    have ht : Ledger.Turn upset _ _ := .handedOver (r.ledger live spawned grants) pane name hi hl hh
    rw [← @ledger_handOver _ _ _ _ _ _ titles] at ht
    refine .head ht (ih ?_ fun i him => ?_)
    · rw [ledger_handOver]
      exact hh
    · obtain ⟨hii, hli⟩ := hp i (List.mem_cons_of_mem pane him)
      refine ⟨?_, hli⟩
      rw [ledger_handOver]
      by_cases hip : i = pane
      · subst hip
        simpa using hii
      · rwa [Ledger.rows_set_of_ne hip]

lemma mem_optedIn : pane ∈ r.optedIn name titles ↔
    r.plugins.intended.lookup pane = some name ∧ (titles.lookup pane).isSome := by
  rw [← Option.mem_def, AList.mem_lookup_iff]
  simp only [optedIn, List.mem_map, List.mem_filter, Bool.and_eq_true, decide_eq_true_eq]
  constructor
  · rintro ⟨⟨i, plugin⟩, ⟨he, rfl, ht⟩, rfl⟩
    exact ⟨he, ht⟩
  · rintro ⟨he, ht⟩
    exact ⟨⟨pane, name⟩, ⟨he, rfl, ht⟩, rfl⟩

lemma turns_startHost (htitles : ∀ pane, (titles.lookup pane).isSome → live pane = true)
    {cfg : PluginConfig} {up : Bool} :
    Ledger.Turns upset (r.ledger live spawned grants)
      ((r.startHost cfg up titles).2.ledger live spawned grants) := by
  unfold startHost
  split
  · dsimp only
    set p : Plugins := { r.plugins.setWatchOnSignal cfg.name cfg.watchOnSignal with
      allowedFlags := (r.plugins.setWatchOnSignal cfg.name cfg.watchOnSignal).allowedFlags.insert
        cfg.name cfg.allowedResumeFlags
      launched := (r.plugins.setWatchOnSignal cfg.name cfg.watchOnSignal).launched.insert
        cfg.name cfg
      hosts := (r.plugins.setWatchOnSignal cfg.name cfg.watchOnSignal).hosts.insert
        cfg.name {} } with hpdef
    have hup : Ledger.Turn upset (r.ledger live spawned grants)
        (Reloading.ledger { r with plugins := p } live spawned grants) := by
      convert Ledger.Turn.hostUp (r.ledger live spawned grants) cfg.name using 1
      apply Ledger.ext
      · rfl
      · funext other
        by_cases ho : other = cfg.name
        · subst ho
          simp [ledger, Plugins.ledger, hpdef]
        · simp [ledger, Plugins.ledger, ho, hpdef, Plugins.setWatchOnSignal]
      all_goals rfl
    refine .head hup (turns_handOvers (r := { r with plugins := p }) ?_ ?_)
    · simp [ledger, Plugins.ledger, hpdef]
    · intro pane hm
      obtain ⟨hi, ht⟩ := mem_optedIn.mp hm
      exact ⟨hi, htitles pane ht⟩
  · exact .refl

lemma turns_settle (htitles : ∀ pane, (titles.lookup pane).isSome → live pane = true)
    {cfg : PluginConfig} {up : Bool} :
    Ledger.Turns upset (r.ledger live spawned grants)
      ((r.settle titles cfg up).ledger live spawned grants) := by
  have hs : Ledger.Turns upset (r.ledger live spawned grants)
      ((r.startHost cfg up titles).2.ledger live spawned grants) := turns_startHost htitles
  unfold settle
  split
  · exact .refl
  · split
    · rename_i r' he
      rw [he] at hs
      exact hs
    · rename_i r' he
      rw [he] at hs
      exact hs.trans turns_abandon

end Reloading

namespace PluginHub

variable {h t : PluginHub} {upset : Upset → Prop} {pane : PaneId}

lemma isSome_lookup_titles : (h.titles.lookup pane).isSome ↔ h.shared.paneIsLive pane = true := by
  simp only [List.lookup_isSome_iff, titles, Shared.paneIsLive, List.any_eq_true, List.mem_map,
    decide_eq_true_eq]
  constructor
  · rintro ⟨e, ⟨p, hp, rfl⟩, he⟩
    exact ⟨p, hp, (beq_iff_eq.mp he).symm⟩
  · rintro ⟨p, hp, rfl⟩
    exact ⟨_, ⟨p, hp, rfl⟩, beq_self_eq_true _⟩

lemma paneIsLive_reload {configs : List (PluginConfig × Bool)} :
    (h.reload configs).shared.paneIsLive = h.shared.paneIsLive := by
  have hfold : ∀ (f : Shared → PaneId → Shared), (∀ s pane, (f s pane).panes = s.panes) →
      ∀ (l : List PaneId) (s : Shared), (l.foldl f s).panes = s.panes := by
    intro f hf l
    induction l with
    | nil => exact fun _ => rfl
    | cons pane l ih => exact fun s => (ih (f s pane)).trans (hf s pane)
  apply Shared.paneIsLive_of_panes
  refine (hfold _ (fun s pane => Shared.endRecoveryIfReported_panes pane) _ _).trans ?_
  exact hfold Shared.endRecovery (fun s pane => rfl) _ _

lemma turns_reload (hd : upset .hostDown) {configs : List (PluginConfig × Bool)} :
    Ledger.Turns upset h.ledger (h.reload configs).ledger := by
  rw [ledger_eq, ledger_eq, paneIsLive_reload]
  refine Relation.ReflTransGen.trans ?_
    (Reloading.turns_foldl (fun _ _ => Reloading.turns_settle (fun pane => isSome_lookup_titles.mp)) _)
  exact Reloading.turns_foldl (r := { plugins := h.plugins, backend := h.backend })
    (fun _ _ => Reloading.turns_stopHost hd) _

def Replaces (h : PluginHub) (l : Label) (failed : Option SpawnStep) : Prop :=
  ∃ plugin cmd now pane resumeArgs line, l = .command plugin cmd failed now ∧
    (h.plugins.judge h.backend plugin cmd now).1 = .ok (.relaunch pane resumeArgs line) ∧
    pane ∈ h.plugins.pending ∧ h.shared.hasFreeSlot = true

def LosesSlot (h : PluginHub) (l : Label) : Prop :=
  ∃ failed, h.Replaces l failed ∧ ¬ h.backend.CanSpawn failed

def TakesOver (h : PluginHub) (l : Label) : Prop :=
  ∃ failed, h.Replaces l failed ∧ h.backend.CanSpawn failed

def Upsets (h : PluginHub) (l : Label) : Upset → Prop
  | .hostDown => ∃ configs, l = .reload configs
  | .slotLost => h.LosesSlot l
  | .takenOver => h.TakesOver l

lemma ledger_replaced (hs : h.ledger.Sound) {held : Pending} {plugins : Plugins}
    (hp : h.plugins.pending.lookup pane = some held)
    (hc : h.plugins.claimPending pane = some (held, plugins)) {owner : String}
    (howner : (h.ledger.rows pane).owner = some owner) {slot : PaneSlot}
    {panes : Std.TreeMap PaneId PtyPane} {size : PaneSize} {title : Option String} {index : ℕ}
    {backend : PtyBackend}
    (hb : backend = { panes
                      slots := (h.backend.slots.erase pane).insert h.backend.nextId slot
                      nextId := h.backend.nextId + 1 }) :
    PluginHub.ledger { h.registered h.backend.nextId backend size none title with
        shared := (((h.registered h.backend.nextId backend size none title).shared.restorePaneIndex
          h.backend.nextId index).endRecovery pane)
        plugins := (plugins.takeOver pane h.backend.nextId).paneOpened backend
          h.backend.nextId title } =
      { (h.ledger.set pane { h.ledger.rows pane with
          owner := none, pending := false, slot := none }).set h.ledger.nextId
        { owner := some owner, slot := some (slot.identity, slot.launch), live := true,
          spawned := some slot.identity.token } with
        nextId := h.ledger.nextId + 1 } := by
  have hblank := hs.fresh h.backend.nextId le_rfl
  have hi : h.plugins.intended.lookup h.backend.nextId = none := congrArg Row.intended hblank
  have hpn : (h.plugins.pending.lookup h.backend.nextId).isSome = false :=
    congrArg Row.pending hblank
  have hne : pane ≠ h.backend.nextId := by
    rintro rfl
    simp [hp] at hpn
  have ho : h.plugins.owners.lookup pane = some owner := howner
  obtain ⟨held', -, hq⟩ := Option.map_eq_some_iff.mp hc
  obtain ⟨-, rfl⟩ := Prod.mk.inj hq
  subst hb
  apply Ledger.ext
  · funext i
    simp only [ledger_eq, Plugins.ledger_paneOpened]
    by_cases hn : i = h.backend.nextId
    · subst hn
      simp [Plugins.ledger, Plugins.row, registered, Plugins.takeOver,
        PtyBackend.slot_insert, Shared.paneIsLive_registerPane, Shared.paneIsLive_restorePaneIndex,
        ho, hi, hpn, hne.symm]
    by_cases hip : i = pane
    · subst hip
      simp [Plugins.ledger, Plugins.row, registered, Plugins.takeOver, Ledger.set,
        PtyBackend.slot_insert, Shared.paneIsLive_registerPane, Shared.paneIsLive_restorePaneIndex,
        ho, hne]
    · simp [Plugins.ledger, Plugins.row, registered, Plugins.takeOver, Ledger.set,
        PtyBackend.slot_insert, Shared.paneIsLive_registerPane, Shared.paneIsLive_restorePaneIndex,
        ho, hn, hip, Std.TreeMap.getElem?_erase, Ne.symm hip]
      rfl
  · funext name
    simp only [ledger_eq, Plugins.ledger, registered, Plugins.paneOpened, Plugins.takeOver,
      Plugins.mem_hosts_sendFor]
    rfl
  all_goals rfl

lemma turns_relaunch (hs : h.ledger.Sound) {plugin : String} {resumeArgs : List String}
    {failed : Option SpawnStep} {now : ℕ}
    (hlost : pane ∈ h.plugins.pending → h.shared.hasFreeSlot = true →
      ¬ h.backend.CanSpawn failed → upset .slotLost)
    (htaken : pane ∈ h.plugins.pending → h.shared.hasFreeSlot = true →
      h.backend.CanSpawn failed → upset .takenOver) :
    Ledger.Turns upset h.ledger (h.relaunchForPlugin plugin pane resumeArgs failed now).ledger := by
  unfold relaunchForPlugin
  split
  · exact .refl
  rename_i held plugins hc
  obtain ⟨hp, hl⟩ := Plugins.ledger_claim h.backend h.shared.paneIsLive h.spawned h.grants hc
  rw [← ledger_eq] at hl
  have hpending := pending_row hp
  have hmem : pane ∈ h.plugins.pending := AList.lookup_isSome.mp (by simp [hp])
  have hkept : (h.ledger.set pane { h.ledger.rows pane with pending := true }) = h.ledger := by
    rw [← hpending]
    exact Ledger.set_rows
  have hrestored : PluginHub.ledger { h with plugins := plugins.restorePending pane held } =
      h.ledger := by
    rw [ledger_eq, Plugins.ledger_restorePending, hl, Ledger.set_set, Ledger.rows_set]
    exact hkept
  split
  · rw [hrestored]
  rename_i hfree
  have hroom : h.shared.hasFreeSlot = true := by simpa using hfree
  rcases PtyBackend.relaunchPane_cases h.backend pane held.spot.size resumeArgs
      ((plugins.allowedFlags.lookup plugin).getD []) failed now with
    ⟨error, he, -⟩ | ⟨slot, line, hslot, -, ⟨hcan, error, he⟩ | ⟨hcan, he⟩⟩
  · simp only [he]
    rw [hrestored]
  · have ht := Ledger.Turn.slotLost h.ledger pane (hlost hmem hroom hcan) hpending
    have hafter : PluginHub.ledger { h with
        backend := h.backend.destroyPane pane, plugins := plugins.restorePending pane held } =
        h.ledger.set pane { h.ledger.rows pane with slot := none } := by
      rw [ledger_eq, Plugins.ledger_restorePending, Plugins.ledger_destroyPane, hl]
      simp only [Ledger.set_set, Ledger.rows_set, ← hpending]
    simp only [he]
    rw [hafter]
    exact .single ht
  · obtain ⟨owner, howner⟩ := Option.ne_none_iff_exists'.mp ((hs.row pane).pendingOwned hpending)
    have ht := Ledger.Turn.takenOver h.ledger pane owner slot.identity slot.identity.advance
      slot.launch (htaken hmem hroom hcan) hpending howner
      (by simp [ledger, Plugins.ledger, Plugins.row, hslot]) rfl
    simp only [he]
    refine .single ?_
    convert ht using 1
    exact ledger_replaced hs hp hc howner rfl

lemma facts_cases {p : Plugins} {b : PtyBackend} {plugin : String} {cmd : PluginCommand} {now : ℕ}
    {f : PaneFacts} (hf : p.facts b plugin cmd now = some f) :
    ∃ token slot, cmd.token? = some token ∧ b.paneForToken token = some f.pane ∧
      b.slot f.pane = some slot ∧ slot.identity.token = token ∧
      f.generation = slot.identity.generation ∧
      (f.optedIn = true ↔ p.owners.lookup f.pane = some plugin) ∧
      (f.watchedByAnother = true ↔ ∃ other, p.owners.lookup f.pane = some other ∧ other ≠ plugin) ∧
      (f.mayWatchOnSignal = true ↔ plugin ∈ p.watchOnSignal) ∧
      f.alive = b.isProcessAlive f.pane ∧ f.idle = slot.idleFor now ∧
      f.launchCommand = slot.launch.command := by
  obtain ⟨pane, hpane, hs⟩ := Option.bind_eq_some_iff.mp hf
  obtain ⟨token, htoken, hfind⟩ := Option.bind_eq_some_iff.mp hpane
  obtain ⟨slot, hslot, rfl⟩ := Option.map_eq_some_iff.mp hs
  obtain ⟨slot', hslot', hcarries⟩ := PaneSlots.slot_of_findByToken hfind
  obtain rfl : slot' = slot := Option.some.inj (hslot'.symm.trans hslot)
  refine ⟨token, slot', htoken, hfind, hslot, hcarries, rfl, by simp, ?_, by simp, rfl, rfl, rfl⟩
  rcases p.owners.lookup pane with _ | other <;> simp

lemma judge_eq (p : Plugins) (b : PtyBackend) (plugin : String) (cmd : PluginCommand) (now : ℕ) :
    ∃ guard, p.judge b plugin cmd now = ((p.judge b plugin cmd now).1, { p with guard }) :=
  ⟨_, rfl⟩

lemma allowed_of_judge {p : Plugins} {b : PtyBackend} {plugin : String} {cmd : PluginCommand}
    {now : ℕ} {approved : Approved} (h : (p.judge b plugin cmd now).1 = .ok approved) :
    Allowed p.guard.minIdle ((p.allowedFlags.lookup plugin).getD []) cmd
      (p.facts b plugin cmd now) approved :=
  Guard.allowed_of_judge h

lemma turns_watch {plugin : String} {token : PaneToken} (hhost : plugin ∈ h.plugins.hosts)
    (hlt : pane < h.backend.nextId) (hspawned : h.spawned pane = some token) :
    Ledger.Turns upset h.ledger (h.watchPaneForPlugin plugin token pane).ledger := by
  have hh : h.ledger.hosted plugin = true := by simpa [ledger, Plugins.ledger] using hhost
  have ht : Ledger.Turn upset _ _ :=
    .granted h.ledger pane token plugin true hlt hspawned (.inl hh)
  have ha := Plugins.ledger_adopt h.plugins h.backend h.shared.paneIsLive h.spawned h.grants
    (h.grants ++ [⟨token, plugin, true⟩]) pane plugin
  rw [← ledger_eq] at ha
  have htrue : h.plugins.adopt pane plugin = (true, (h.plugins.adopt pane plugin).2) := by
    simp [Plugins.adopt, hhost]
  unfold watchPaneForPlugin
  rw [htrue]
  refine .single ?_
  simp only [ledger_eq, Plugins.ledger_paneOpened] at ha ht ⊢
  rw [ha]
  exact ht

lemma turns_carryOut (hs : h.ledger.Sound) {plugin : String} (hhost : plugin ∈ h.plugins.hosts)
    {cmd : PluginCommand} {failed : Option SpawnStep} {now minIdle : ℕ} {allowed : List String}
    {approved : Approved}
    (hallowed : Allowed minIdle allowed cmd (h.plugins.facts h.backend plugin cmd now) approved)
    (hlost : ∀ pane args line, approved = .relaunch pane args line → pane ∈ h.plugins.pending →
      h.shared.hasFreeSlot = true → ¬ h.backend.CanSpawn failed → upset .slotLost)
    (htaken : ∀ pane args line, approved = .relaunch pane args line → pane ∈ h.plugins.pending →
      h.shared.hasFreeSlot = true → h.backend.CanSpawn failed → upset .takenOver) :
    Ledger.Turns upset h.ledger (h.carryOut plugin cmd failed now approved).ledger := by
  cases approved with
  | sendInput pane data => exact .refl
  | log level message => exact .refl
  | relaunch pane resumeArgs line =>
    exact turns_relaunch hs (hlost pane resumeArgs line rfl) (htaken pane resumeArgs line rfl)
  | status pane state detail deadlineEpoch attempt => exact .refl
  | attention pane => exact .refl
  | watchPane pane =>
    generalize hf : h.plugins.facts h.backend plugin cmd now = facts at hallowed
    cases hallowed with
    | watchPane v token f hm hw ha =>
      obtain ⟨token', slot, htoken, -, hslot, hcarries, -⟩ := facts_cases hf
      obtain rfl : token = token' := Option.some.inj htoken
      have hrow : (h.ledger.rows f.pane).slot = some (slot.identity, slot.launch) := by
        simp [ledger, Plugins.ledger, Plugins.row, hslot]
      have hspawned : h.spawned f.pane = some token :=
        hcarries ▸ (hs.row f.pane).minted _ _ hrow
      refine turns_watch hhost ?_ hspawned
      by_contra hn
      rw [hs.fresh f.pane (not_lt.mp hn)] at hrow
      cases hrow

lemma turns_dispatch (hs : h.ledger.Sound) {plugin : String} (hhost : plugin ∈ h.plugins.hosts)
    {cmd : PluginCommand} {failed : Option SpawnStep} {now : ℕ} :
    Ledger.Turns (h.Upsets (.command plugin cmd failed now)) h.ledger
      (h.dispatch plugin cmd failed now).ledger := by
  obtain ⟨guard, hj⟩ := judge_eq h.plugins h.backend plugin cmd now
  unfold dispatch
  rw [hj]
  rcases hv : (h.plugins.judge h.backend plugin cmd now).1 with refused | approved
  · exact .refl
  have hallowed := allowed_of_judge hv
  refine turns_carryOut (h := { h with plugins := { h.plugins with guard } }) hs hhost
    hallowed ?_ ?_
  · rintro pane args line rfl hm hroom hcan
    exact ⟨failed, ⟨plugin, cmd, now, pane, args, line, rfl, hv, hm, hroom⟩, hcan⟩
  · rintro pane args line rfl hm hroom hcan
    exact ⟨failed, ⟨plugin, cmd, now, pane, args, line, rfl, hv, hm, hroom⟩, hcan⟩

lemma turns_step (hs : h.ledger.Sound) {l : Label} (hstep : h.step l = some t) :
    Ledger.Turns (h.Upsets l) h.ledger t.ledger := by
  cases l with
  | others shared =>
    rw [step] at hstep
    split at hstep
    · rename_i hperm
      obtain rfl := Option.some.inj hstep
      have hl : shared.paneIsLive = h.shared.paneIsLive :=
        Shared.paneIsLive_congr fun i => (List.isPerm_iff.mp hperm).mem_iff
      rw [ledger_eq, ledger_eq, hl]
    · cases hstep
  | close pane =>
    obtain rfl := Option.some.inj hstep
    exact turns_closePane
  | create size client command spawning =>
    obtain rfl := Option.some.inj hstep
    exact turns_create hs
  | openStartup sizes client reserved spawnings =>
    obtain rfl := Option.some.inj hstep
    exact turns_openStartupPanes hs
  | input pane =>
    obtain rfl := Option.some.inj hstep
    split
    · rw [ledger_eq, ledger_eq, Plugins.ledger_userInput]
    · exact .refl
  | cancelRecovery pane =>
    obtain rfl := Option.some.inj hstep
    exact turns_cancelRecovery
  | reload configs =>
    obtain rfl := Option.some.inj hstep
    exact turns_reload ⟨configs, rfl⟩
  | output pane text now =>
    rw [step] at hstep
    split at hstep
    · obtain rfl := Option.some.inj hstep
      rw [ledger_eq, ledger_eq, Plugins.ledger_paneOutput, Plugins.ledger_markOutput]
    · cases hstep
  | exited pane now =>
    rw [step] at hstep
    split at hstep
    · obtain rfl := Option.some.inj hstep
      exact turns_paneExited
    · cases hstep
  | notifyIdle now =>
    obtain rfl := Option.some.inj hstep
    rw [ledger_eq, ledger_eq, Plugins.ledger_notifyIdle]
  | command plugin cmd failed now =>
    rw [step] at hstep
    split at hstep
    · rename_i hhost
      obtain rfl := Option.some.inj hstep
      exact turns_dispatch hs hhost
    · cases hstep
  | expire now =>
    obtain rfl := Option.some.inj hstep
    exact turns_expirePending

lemma startHosts_owners (startup : List Terminal.Startup.StartupCommand)
    (configs : List (PluginConfig × Bool)) (p : Plugins) :
    (Plugins.startHosts startup configs p).owners = p.owners ∧
      (Plugins.startHosts startup configs p).intended = p.intended ∧
      (Plugins.startHosts startup configs p).pending = p.pending := by
  induction configs generalizing p with
  | nil => exact ⟨rfl, rfl, rfl⟩
  | cons e configs ih =>
    rw [Plugins.startHosts]
    split
    · exact ih _
    · exact ih _

variable {config : Terminal.Startup.Config} {cwd : String} {configs : List (PluginConfig × Bool)}

lemma rows_initial (pane : PaneId) : (initial config cwd configs).ledger.rows pane = {} := by
  obtain ⟨ho, hi, hp⟩ := startHosts_owners config.startup configs { cwd }
  simp [initial, ledger, Plugins.ledger, Plugins.row, Plugins.start, ho, hi, hp, PtyBackend.slot,
    Shared.paneIsLive]

lemma sound_initial : (initial config cwd configs).ledger.Sound where
  fresh pane _ := rows_initial pane
  row pane := by
    rw [rows_initial]
    exact ⟨by simp, by simp, by simp, by simp, by simp⟩

lemma sound_run {labels : List Label} (hrun : run step (initial config cwd configs) labels = some h) :
    h.ledger.Sound :=
  run_invariant (p := fun h : PluginHub => h.ledger.Sound)
    (fun _ _ _ hs hstep => hs.turns (turns_step hs hstep)) sound_initial hrun

end PluginHub

end Nightcrow.Session.Watchers
