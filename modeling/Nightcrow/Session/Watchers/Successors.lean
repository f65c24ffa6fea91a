import Nightcrow.Session.Watchers.Holds

/-! Who watches a pane across reloads: every watcher has a child, and a child that replaces
another is told of the panes its plugin watches. -/

namespace Nightcrow.Session.Watchers

open Nightcrow.Backend Nightcrow.Library Nightcrow.Plugin
open Nightcrow.Session.Terminal (PaneId PaneSize Shared)

namespace Ledger

variable {upset : Upset → Prop} {l m : Ledger} {awaited : String → Prop}

def Hosted (awaited : String → Prop) (l : Ledger) : Prop :=
  ∀ pane plugin, (l.rows pane).owner = some plugin → l.hosted plugin = true ∨ awaited plugin

lemma Hosted.turn (hh : l.Hosted awaited) (hu : ¬ upset .hostDown) (ht : Turn upset l m) :
    m.Hosted awaited := by
  have hset : ∀ (pane : PaneId) (row : Row),
      (∀ plugin, row.owner = some plugin → l.hosted plugin = true ∨ awaited plugin) →
      (l.set pane row).Hosted awaited := fun pane row hrow =>
    @forall_set l (fun row => ∀ plugin, row.owner = some plugin →
      l.hosted plugin = true ∨ awaited plugin) pane row hh hrow
  cases ht with
  | opened identity launch => exact hset _ _ (by simp)
  | granted pane token plugin quoted hlt hs ho =>
    refine hset _ _ (fun other h => ?_)
    dsimp only at h
    split at h
    · rename_i hp
      exact .inl (Option.some.inj h ▸ hp)
    · exact hh pane other h
  | unwatchedGone pane ho => exact hset _ _ (hh pane)
  | watchedGone pane => exact hset _ _ (by simp)
  | held pane ho hs => exact hset _ _ (hh pane)
  | holdRetired pane intended hp hi => exact hset _ _ (by simp)
  | released pane => exact hset _ _ (by simp)
  | hostUp plugin =>
    intro pane other h
    refine (hh pane other h).imp_left fun ho => ?_
    by_cases he : other = plugin
    · simp [he]
    · simpa [he] using ho
  | hostDown plugin hd => exact absurd hd hu
  | handedOver pane plugin hi hv hp =>
    exact hset _ _ (fun other h => .inl (Option.some.inj h ▸ hp))
  | slotLost pane hlost hp => exact hset _ _ (hh pane)
  | takenOver pane plugin identity next launch ht hp ho hs hn =>
    have hleft := hset pane { l.rows pane with owner := none, pending := false, slot := none }
      (by simp)
    exact @forall_set _ (fun row => ∀ plugin, row.owner = some plugin →
      l.hosted plugin = true ∨ awaited plugin) _ _ hleft
      (fun other h => Option.some.inj h ▸ hh pane plugin ho)

lemma Hosted.turns (hh : l.Hosted awaited) (hu : ¬ upset .hostDown) (ht : Turns upset l m) :
    m.Hosted awaited := by
  induction ht with
  | refl => exact hh
  | tail _ ht ih => exact ih.turn hu ht

end Ledger

namespace Reloading

variable {r : Reloading} {live : PaneId → Bool} {spawned : PaneId → Option PaneToken}
  {grants : List Grant} {name : String} {pane : PaneId} {titles : List (PaneId × Option String)}
  {awaited : String → Prop}

lemma owners_abandon (i : PaneId) : (r.abandon name).plugins.owners.lookup i =
    if r.plugins.owners.lookup i = some name then none else r.plugins.owners.lookup i := by
  have hfold : ∀ (panes : List PaneId) (r : Reloading),
      (panes.foldl release r).plugins.owners.lookup i =
        if i ∈ panes then none else r.plugins.owners.lookup i := by
    intro panes
    induction panes with
    | nil => simp
    | cons pane panes ih =>
      intro r
      rw [List.foldl_cons, ih]
      by_cases hi : i = pane
      · subst hi
        simp [release, Plugins.releasePane]
      · simp [release, Plugins.releasePane, hi]
  have h := hfold (r.plugins.panesOf name) { r with plugins :=
    { r.plugins.setWatchOnSignal name false with
      allowedFlags := (r.plugins.setWatchOnSignal name false).allowedFlags.erase name } }
  refine h.trans ?_
  simp only [Plugins.mem_panesOf]
  rfl

lemma hosted_abandon (h : (r.ledger live spawned grants).Hosted (fun n => awaited n ∨ n = name)) :
    ((r.abandon name).ledger live spawned grants).Hosted awaited := by
  have ht : Ledger.Turns (fun _ => False) (r.ledger live spawned grants)
      ((r.abandon name).ledger live spawned grants) := turns_abandon
  have hkept := h.turns id ht
  intro pane plugin ho
  rcases hkept pane plugin ho with hp | ha | rfl
  · exact .inl hp
  · exact .inr ha
  · have hl : (r.abandon plugin).plugins.owners.lookup pane = some plugin := ho
    rw [owners_abandon] at hl
    split at hl
    · cases hl
    · exact absurd hl ‹_›

lemma hosted_stopHost {replaced : Bool} (hr : replaced = true → awaited name)
    (h : (r.ledger live spawned grants).Hosted awaited) :
    ((r.stopHost name replaced).ledger live spawned grants).Hosted awaited := by
  have hdown : (Reloading.ledger { r with plugins := { r.plugins with
      hosts := r.plugins.hosts.erase name, launched := r.plugins.launched.erase name } }
      live spawned grants).Hosted (fun n => awaited n ∨ n = name) := by
    intro pane plugin ho
    by_cases hp : plugin = name
    · exact .inr (.inr hp)
    · refine (h pane plugin ho).imp (fun hh => ?_) .inl
      simpa [ledger, Plugins.ledger, hp] using hh
  have hholds := @Ledger.Hosted.turns (fun _ => False) _ _ _ hdown id
    (@turns_retireHoldsOf _ _ _ _ _ name)
  unfold stopHost
  dsimp only
  split
  · rename_i hrep
    intro pane plugin ho
    refine (hholds pane plugin ho).imp_right ?_
    rintro (ha | rfl)
    · exact ha
    · exact hr hrep
  · exact hosted_abandon hholds

lemma mem_hosts_handOvers {plugin : String} {panes : List PaneId} :
    plugin ∈ (panes.foldl (fun r pane => r.handOver name titles pane) r).plugins.hosts ↔
      plugin ∈ r.plugins.hosts := by
  induction panes generalizing r with
  | nil => exact Iff.rfl
  | cons pane panes ih =>
    rw [List.foldl_cons, ih]
    exact Plugins.mem_hosts_sendFor

lemma mem_hosts_startHost {plugin : String} {cfg : PluginConfig} {up : Bool} :
    plugin ∈ (r.startHost cfg up titles).2.plugins.hosts ↔
      plugin ∈ r.plugins.hosts ∨ (plugin = cfg.name ∧ up = true) := by
  unfold startHost
  split
  · rename_i hup
    refine mem_hosts_handOvers.trans ?_
    simp [Plugins.setWatchOnSignal, hup, or_comm]
  · rename_i hup
    simp [hup]

lemma hosted_settle (htitles : ∀ pane, (titles.lookup pane).isSome → live pane = true)
    {cfg : PluginConfig} {up : Bool}
    (h : (r.ledger live spawned grants).Hosted (fun n => awaited n ∨ n = cfg.name)) :
    ((r.settle titles cfg up).ledger live spawned grants).Hosted awaited := by
  unfold settle
  split
  · rename_i hm
    intro pane plugin ho
    rcases h pane plugin ho with hp | ha | rfl
    · exact .inl hp
    · exact .inr ha
    · exact .inl (by simpa [ledger, Plugins.ledger, Plugins.setWatchOnSignal] using hm)
  · have ht : Ledger.Turns (fun _ => False) (r.ledger live spawned grants)
        ((r.startHost cfg up titles).2.ledger live spawned grants) := turns_startHost htitles
    have hs := h.turns id ht
    split
    · rename_i r' he
      have hup : up = true := by
        by_contra hn
        simp [startHost, hn] at he
      have hm : cfg.name ∈ (r.startHost cfg up titles).2.plugins.hosts :=
        mem_hosts_startHost.mpr (.inr ⟨rfl, hup⟩)
      rw [he] at hs hm
      intro pane plugin ho
      rcases hs pane plugin ho with hp | ha | rfl
      · exact .inl hp
      · exact .inr ha
      · exact .inl (by simpa [ledger, Plugins.ledger] using hm)
    · rename_i r' he
      rw [he] at hs
      exact hosted_abandon hs

lemma hosted_stops {names : List String} {replaced : String → Bool}
    (hr : ∀ name, replaced name = true → awaited name)
    (h : (r.ledger live spawned grants).Hosted awaited) :
    ((names.foldl (fun r name => r.stopHost name (replaced name)) r).ledger live spawned
      grants).Hosted awaited := by
  induction names generalizing r with
  | nil => exact h
  | cons name names ih => exact ih (hosted_stopHost (hr name) h)

lemma hosted_settles (htitles : ∀ pane, (titles.lookup pane).isSome → live pane = true)
    {wanted : List (PluginConfig × Bool)}
    (h : (r.ledger live spawned grants).Hosted (fun n => ∃ cfg ∈ wanted, cfg.1.name = n)) :
    ((wanted.foldl (fun r cfg => r.settle titles cfg.1 cfg.2) r).ledger live spawned
      grants).Hosted (fun _ => False) := by
  induction wanted generalizing r with
  | nil => exact fun pane plugin ho => (h pane plugin ho).imp_right (by simp)
  | cons cfg wanted ih =>
    refine ih (hosted_settle htitles fun pane plugin ho => (h pane plugin ho).imp_right ?_)
    rintro ⟨other, hm, rfl⟩
    rcases List.mem_cons.mp hm with rfl | hm
    · exact .inr rfl
    · exact .inl ⟨other, hm, rfl⟩

end Reloading

namespace Plugins

variable {p : Plugins} {b : PtyBackend} {pane : PaneId} {name : String} {event : PluginEvent}
  {build : PaneToken → PaneGeneration → PluginEvent}

def Heard (p : Plugins) (name : String) (event : PluginEvent) : Prop :=
  ∃ host, p.hosts.lookup name = some host ∧ event ∈ host.told

lemma Heard.sendFor (hh : p.Heard name event) : (p.sendFor b pane build).Heard name event := by
  obtain ⟨host, hl, he⟩ := hh
  unfold Plugins.sendFor
  rcases ho : p.owners.lookup pane with _ | plugin
  · exact ⟨host, hl, he⟩
  rcases hp : p.hosts.lookup plugin with _ | child
  · exact ⟨host, by simpa [hp] using hl, he⟩
  rcases hs : b.slot pane with _ | slot
  · exact ⟨host, by simpa [hp] using hl, he⟩
  simp only [hp]
  by_cases hn : name = plugin
  · subst hn
    obtain rfl := Option.some.inj (hp.symm.trans hl)
    exact ⟨_, AList.lookup_insert _, List.mem_append_left _ he⟩
  · exact ⟨host, (AList.lookup_insert_ne hn).trans hl, he⟩

lemma heard_sendFor {slot : PaneSlot} (ho : p.owners.lookup pane = some name)
    (hh : name ∈ p.hosts) (hs : b.slot pane = some slot) :
    (p.sendFor b pane build).Heard name
      (build slot.identity.token slot.identity.generation) := by
  obtain ⟨host, hl⟩ := Option.isSome_iff_exists.mp (AList.lookup_isSome.mpr hh)
  refine ⟨host.send (build slot.identity.token slot.identity.generation), ?_, by simp [PluginHost.send]⟩
  simp [Plugins.sendFor, ho, hl, hs]

end Plugins

namespace Reloading

variable {r s u : Reloading} {pane i : PaneId} {name : String} {cfg : PluginConfig} {up : Bool}
  {titles : List (PaneId × Option String)} {event : PluginEvent}

structure Keeps (pane : PaneId) (r s : Reloading) : Prop where
  cwd : s.plugins.cwd = r.plugins.cwd
  intended : s.plugins.intended = r.plugins.intended
  pending : pane ∉ r.plugins.pending → pane ∉ s.plugins.pending
  slot : pane ∉ r.plugins.pending → s.backend.slot pane = r.backend.slot pane

lemma Keeps.refl : r.Keeps pane r := ⟨rfl, rfl, id, fun _ => rfl⟩

lemma Keeps.trans (hr : Keeps pane r s) (hs : Keeps pane s u) : Keeps pane r u where
  cwd := hs.cwd.trans hr.cwd
  intended := hs.intended.trans hr.intended
  pending hp := hs.pending (hr.pending hp)
  slot hp := (hs.slot (hr.pending hp)).trans (hr.slot hp)

lemma keeps_foldl {α : Type*} {f : Reloading → α → Reloading} (hf : ∀ r a, Keeps pane r (f r a))
    (l : List α) : Keeps pane r (l.foldl f r) := by
  induction l generalizing r with
  | nil => exact .refl
  | cons a l ih => exact (hf r a).trans ih

lemma keeps_release : Keeps pane r (r.release i) where
  cwd := Plugins.cwd_cancel
  intended := Plugins.intended_cancel
  pending hp := by simp [release, Plugins.releasePane, hp]
  slot _ := rfl

lemma keeps_retireHold : Keeps pane r (r.retireHold i) := by
  unfold retireHold
  split
  · exact .refl
  · rename_i held plugins hc
    obtain ⟨held', hp, he⟩ := Option.map_eq_some_iff.mp hc
    obtain ⟨rfl, rfl⟩ := Prod.mk.inj he
    refine ⟨Plugins.cwd_cancel, Plugins.intended_cancel, fun hn => ?_, fun hn => ?_⟩
    · simp [Plugins.releasePane, hn]
    · have hne : pane ≠ i := by
        rintro rfl
        exact hn (AList.lookup_isSome.mp (by simp [hp]))
      simp [hne]

lemma keeps_abandon : Keeps pane r (r.abandon name) := by
  have h : Keeps pane { r with plugins := { r.plugins.setWatchOnSignal name false with
      allowedFlags := (r.plugins.setWatchOnSignal name false).allowedFlags.erase name } }
      (r.abandon name) := by
    obtain ⟨hc, hi, hp, hs⟩ := keeps_foldl (f := release) (fun _ _ => keeps_release)
      ((r.plugins.setWatchOnSignal name false).panesOf name)
    exact ⟨hc, hi, hp, hs⟩
  exact ⟨h.cwd, h.intended, h.pending, h.slot⟩

lemma keeps_stopHost {replaced : Bool} : Keeps pane r (r.stopHost name replaced) := by
  have hholds : Keeps pane r (retireHoldsOf { r with plugins := { r.plugins with
      hosts := r.plugins.hosts.erase name, launched := r.plugins.launched.erase name } } name) := by
    obtain ⟨hc, hi, hp, hs⟩ := keeps_foldl (f := retireHold) (fun _ _ => keeps_retireHold)
      (r.plugins.panesOf name)
    exact ⟨hc, hi, hp, hs⟩
  unfold stopHost
  dsimp only
  split
  · exact ⟨hholds.cwd, hholds.intended, hholds.pending, hholds.slot⟩
  · exact hholds.trans keeps_abandon

lemma keeps_handOver : Keeps pane r (r.handOver name titles i) where
  cwd := Plugins.cwd_sendFor
  intended := Plugins.intended_sendFor
  pending hp := by simpa [handOver, Plugins.paneOpened] using hp
  slot _ := rfl

lemma keeps_startHost : Keeps pane r (r.startHost cfg up titles).2 := by
  unfold startHost
  split
  · obtain ⟨hc, hi, hp, hs⟩ := keeps_foldl (f := fun r i => r.handOver cfg.name titles i)
      (fun _ _ => keeps_handOver) (r.optedIn cfg.name titles)
    exact ⟨hc, hi, hp, hs⟩
  · exact .refl

lemma keeps_settle : Keeps pane r (r.settle titles cfg up) := by
  have hs : Keeps pane r (r.startHost cfg up titles).2 := keeps_startHost
  unfold settle
  split
  · exact ⟨rfl, rfl, id, fun _ => rfl⟩
  · split
    · rename_i r' he
      rw [he] at hs
      exact hs
    · rename_i r' he
      rw [he] at hs
      exact hs.trans keeps_abandon

lemma foldl_same {α : Type*} {f : Reloading → PaneId → Reloading} (g : Reloading → α)
    (hf : ∀ r i, g (f r i) = g r) (panes : List PaneId) : g (panes.foldl f r) = g r := by
  induction panes generalizing r with
  | nil => rfl
  | cons pane panes ih => exact ih.trans (hf r pane)

@[simp] lemma hosts_abandon : (r.abandon name).plugins.hosts = r.plugins.hosts :=
  foldl_same (fun r => r.plugins.hosts) (fun _ _ => Plugins.hosts_cancel) _

@[simp] lemma restarted_abandon :
    (r.abandon name).outcome.restarted = r.outcome.restarted.filter (· ≠ name) :=
  congrArg (List.filter (· ≠ name)) 
    (foldl_same (f := release) (fun r => r.outcome.restarted) (fun _ _ => rfl) _)

@[simp] lemma hosts_retireHoldsOf : (r.retireHoldsOf name).plugins.hosts = r.plugins.hosts := by
  refine foldl_same (fun r => r.plugins.hosts) (fun r i => ?_) _
  unfold retireHold
  split
  · rfl
  · rename_i held plugins hc
    obtain ⟨held', hp, he⟩ := Option.map_eq_some_iff.mp hc
    obtain ⟨rfl, rfl⟩ := Prod.mk.inj he
    exact Plugins.hosts_cancel

@[simp] lemma restarted_retireHoldsOf :
    (r.retireHoldsOf name).outcome.restarted = r.outcome.restarted := by
  refine foldl_same (fun r => r.outcome.restarted) (fun r i => ?_) _
  unfold retireHold
  split <;> rfl

lemma hosts_stopHost {replaced : Bool} :
    (r.stopHost name replaced).plugins.hosts = r.plugins.hosts.erase name := by
  unfold stopHost
  split <;> simp

lemma restarted_stopHost {replaced : Bool} {other : String}
    (h : other ∈ (r.stopHost name replaced).outcome.restarted) :
    other ∈ r.outcome.restarted ∨ (other = name ∧ replaced = true) := by
  cases replaced with
  | true => simpa [stopHost] using h
  | false =>
    refine .inl ?_
    simp only [stopHost, Bool.false_eq_true, if_false, restarted_abandon,
      restarted_retireHoldsOf] at h
    exact List.mem_of_mem_filter h

def opened (cwd : String) (slot : PaneSlot) (title : Option String) : PluginEvent :=
  .paneOpened protocolVersion slot.identity.token slot.identity.generation title
    slot.launch.command cwd

lemma heard_handOver {slot : PaneSlot} (hm : name ∈ r.plugins.hosts)
    (hs : r.backend.slot pane = some slot) :
    (r.handOver name titles pane).plugins.Heard name
      (opened r.plugins.cwd slot ((titles.lookup pane).getD none)) := by
  rw [opened, ← show ((r.backend.slot pane).bind (·.launch.command)) = slot.launch.command by
    rw [hs, Option.bind_some]]
  exact Plugins.heard_sendFor (AList.lookup_insert _) hm hs

lemma heard_handOvers_mono {panes : List PaneId} {other : String}
    (hh : r.plugins.Heard other event) :
    (panes.foldl (fun r pane => r.handOver name titles pane) r).plugins.Heard other event := by
  induction panes generalizing r with
  | nil => exact hh
  | cons pane panes ih => exact ih (Plugins.Heard.sendFor hh)

lemma heard_handOvers {panes : List PaneId} {slot : PaneSlot} (hp : pane ∈ panes)
    (hm : name ∈ r.plugins.hosts) (hs : r.backend.slot pane = some slot) :
    (panes.foldl (fun r pane => r.handOver name titles pane) r).plugins.Heard name
      (opened r.plugins.cwd slot ((titles.lookup pane).getD none)) := by
  induction panes generalizing r with
  | nil => cases hp
  | cons i panes ih =>
    rcases List.mem_cons.mp hp with rfl | hp
    · exact heard_handOvers_mono (r := r.handOver name titles pane) (heard_handOver hm hs)
    · have h := ih (r := r.handOver name titles i) hp (Plugins.mem_hosts_sendFor.mpr hm) hs
      rwa [(keeps_handOver : Keeps i r (r.handOver name titles i)).cwd] at h

lemma heard_startHost {slot : PaneSlot} (hi : r.plugins.intended.lookup pane = some cfg.name)
    (ht : (titles.lookup pane).isSome) (hs : r.backend.slot pane = some slot) :
    (r.startHost cfg true titles).2.plugins.Heard cfg.name
      (opened r.plugins.cwd slot ((titles.lookup pane).getD none)) := by
  have hp : pane ∈ r.optedIn cfg.name titles := mem_optedIn.mpr ⟨hi, ht⟩
  simp only [startHost, if_true]
  refine heard_handOvers (r := { r with plugins := { r.plugins.setWatchOnSignal cfg.name
    cfg.watchOnSignal with
      allowedFlags := r.plugins.allowedFlags.insert cfg.name cfg.allowedResumeFlags
      launched := r.plugins.launched.insert cfg.name cfg
      hosts := r.plugins.hosts.insert cfg.name {} } }) hp ?_ hs
  simp

lemma restarted_stops (names : List String) (replaced : String → Bool)
    (h : name ∈ r.outcome.restarted → name ∉ r.plugins.hosts ∧ replaced name = true)
    (hm : name ∈ (names.foldl (fun r name => r.stopHost name (replaced name)) r).outcome.restarted) :
    name ∉ (names.foldl (fun r name => r.stopHost name (replaced name)) r).plugins.hosts ∧
      replaced name = true := by
  induction names generalizing r with
  | nil => exact h hm
  | cons other names ih =>
    refine ih (fun hr => ?_) hm
    rw [hosts_stopHost]
    rcases restarted_stopHost hr with hr | ⟨rfl, hr⟩
    · obtain ⟨hh, hrep⟩ := h hr
      exact ⟨fun hn => hh (AList.mem_erase.mp hn).2, hrep⟩
    · exact ⟨fun hn => (AList.mem_erase.mp hn).1 rfl, hr⟩

lemma heard_startHost_mono {other : String} (hne : other ≠ cfg.name)
    (hh : r.plugins.Heard other event) :
    (r.startHost cfg up titles).2.plugins.Heard other event := by
  unfold startHost
  split
  · refine heard_handOvers_mono ?_
    obtain ⟨host, hl, he⟩ := hh
    exact ⟨host, (AList.lookup_insert_ne hne).trans hl, he⟩
  · exact hh

lemma restarted_startHost :
    (r.startHost cfg up titles).2.outcome.restarted = r.outcome.restarted := by
  unfold startHost
  split
  · exact foldl_same (f := fun r i => r.handOver cfg.name titles i)
      (fun r => r.outcome.restarted) (fun _ _ => rfl) _
  · rfl

lemma settle_cases (r : Reloading) (cfg : PluginConfig) (up : Bool)
    (titles : List (PaneId × Option String)) :
    (cfg.name ∈ r.plugins.hosts ∧ (r.settle titles cfg up).plugins.hosts = r.plugins.hosts ∧
      (r.settle titles cfg up).outcome = r.outcome) ∨
    (cfg.name ∉ r.plugins.hosts ∧ up = true ∧
      r.settle titles cfg up = (r.startHost cfg true titles).2) ∨
    (cfg.name ∉ r.plugins.hosts ∧ r.settle titles cfg up = r.abandon cfg.name) := by
  by_cases hm : cfg.name ∈ r.plugins.hosts
  · exact .inl ⟨hm, by simp [settle, hm, Plugins.setWatchOnSignal], by simp [settle, hm]⟩
  · cases up with
    | true => exact .inr (.inl ⟨hm, rfl, by simp [settle, hm, startHost]⟩)
    | false => exact .inr (.inr ⟨hm, by simp [settle, hm, startHost]⟩)

def Answered (r : Reloading) (name : String) (event : PluginEvent) : Prop :=
  name ∈ r.outcome.restarted → name ∈ r.plugins.hosts → r.plugins.Heard name event

lemma answered_settle {slot : PaneSlot} (hi : r.plugins.intended.lookup pane = some name)
    (ht : (titles.lookup pane).isSome) (hs : r.backend.slot pane = some slot)
    (ha : r.Answered name (opened r.plugins.cwd slot ((titles.lookup pane).getD none))) :
    (r.settle titles cfg up).Answered name
      (opened r.plugins.cwd slot ((titles.lookup pane).getD none)) := by
  intro hr hm
  rcases settle_cases r cfg up titles with
    ⟨-, hh, ho⟩ | ⟨hn, rfl, he⟩ | ⟨hn, he⟩
  · rw [ho] at hr
    rw [hh] at hm
    obtain ⟨host, hl, he⟩ := ha hr hm
    exact ⟨host, hh ▸ hl, he⟩
  · rw [he] at hr hm ⊢
    rw [restarted_startHost] at hr
    by_cases hc : name = cfg.name
    · subst hc
      exact heard_startHost hi ht hs
    · have hmem := (mem_hosts_startHost.mp hm).resolve_right fun h => hc h.1
      exact heard_startHost_mono hc (ha hr hmem)
  · rw [he, restarted_abandon] at hr
    rw [he, hosts_abandon] at hm
    obtain ⟨host, hl, hev⟩ := ha (List.mem_of_mem_filter hr) hm
    refine ⟨host, ?_, hev⟩
    rw [he, hosts_abandon]
    exact hl

lemma hosts_settle (h : name = cfg.name ∨ (name ∈ r.outcome.restarted → name ∈ r.plugins.hosts))
    (hr : name ∈ (r.settle titles cfg up).outcome.restarted) :
    name ∈ (r.settle titles cfg up).plugins.hosts := by
  rcases settle_cases r cfg up titles with
    ⟨hm, hh, ho⟩ | ⟨-, rfl, he⟩ | ⟨-, he⟩
  · rw [hh]
    rw [ho] at hr
    rcases h with rfl | h
    · exact hm
    · exact h hr
  · rw [he]
    rw [he, restarted_startHost] at hr
    exact mem_hosts_startHost.mpr (h.symm.imp (fun h => h hr) (fun h => ⟨h, rfl⟩))
  · rw [he, hosts_abandon]
    rw [he, restarted_abandon, List.mem_filter, decide_eq_true_eq] at hr
    exact (h.resolve_left hr.2) hr.1

lemma answered_settles {wanted : List (PluginConfig × Bool)} {slot : PaneSlot}
    (hi : r.plugins.intended.lookup pane = some name) (ht : (titles.lookup pane).isSome)
    (hp : pane ∉ r.plugins.pending) (hs : r.backend.slot pane = some slot)
    (ha : r.Answered name (opened r.plugins.cwd slot ((titles.lookup pane).getD none))) :
    (wanted.foldl (fun r cfg => r.settle titles cfg.1 cfg.2) r).Answered name
      (opened r.plugins.cwd slot ((titles.lookup pane).getD none)) := by
  induction wanted generalizing r with
  | nil => exact ha
  | cons cfg wanted ih =>
    have hk : Keeps pane r (r.settle titles cfg.1 cfg.2) := keeps_settle
    have h := ih (r := r.settle titles cfg.1 cfg.2) (by rwa [hk.intended]) (hk.pending hp)
      ((hk.slot hp).trans hs) (by rw [hk.cwd]; exact answered_settle hi ht hs ha)
    rwa [hk.cwd] at h

lemma hosts_settles {wanted : List (PluginConfig × Bool)}
    (h : (∃ cfg ∈ wanted, cfg.1.name = name) ∨
      (name ∈ r.outcome.restarted → name ∈ r.plugins.hosts))
    (hr : name ∈ (wanted.foldl (fun r cfg => r.settle titles cfg.1 cfg.2) r).outcome.restarted) :
    name ∈ (wanted.foldl (fun r cfg => r.settle titles cfg.1 cfg.2) r).plugins.hosts := by
  induction wanted generalizing r with
  | nil => exact (h.resolve_left (by simp)) hr
  | cons cfg wanted ih =>
    refine ih ?_ hr
    rcases h with ⟨other, hm, rfl⟩ | h
    · rcases List.mem_cons.mp hm with rfl | hm
      · exact .inr (hosts_settle (.inl rfl))
      · exact .inl ⟨other, hm, rfl⟩
    · exact .inr (hosts_settle (.inr h))

lemma heard_successor {names : List String} {wanted : List (PluginConfig × Bool)}
    {slot : PaneSlot} (hn : r.outcome.restarted = [])
    (hi : r.plugins.intended.lookup pane = some name) (ht : (titles.lookup pane).isSome)
    (hp : pane ∉ r.plugins.pending) (hs : r.backend.slot pane = some slot)
    (hr : name ∈ (wanted.foldl (fun r cfg => r.settle titles cfg.1 cfg.2) (names.foldl
      (fun r name => r.stopHost name (wanted.any (fun cfg => cfg.1.name = name)))
      r)).outcome.restarted) :
    (wanted.foldl (fun r cfg => r.settle titles cfg.1 cfg.2) (names.foldl
      (fun r name => r.stopHost name (wanted.any (fun cfg => cfg.1.name = name)))
      r)).plugins.Heard name (opened r.plugins.cwd slot ((titles.lookup pane).getD none)) := by
  have hk : Keeps pane r (names.foldl
      (fun r name => r.stopHost name (wanted.any (fun cfg => cfg.1.name = name))) r) :=
    keeps_foldl (fun _ _ => keeps_stopHost) names
  have hgone := restarted_stops names (fun name => wanted.any (fun cfg => cfg.1.name = name))
    (r := r) (show name ∈ r.outcome.restarted → _ by simp [hn])
  rw [← hk.cwd]
  refine answered_settles (by rwa [hk.intended]) ht (hk.pending hp) ((hk.slot hp).trans hs)
    (fun hm hh => absurd hh (hgone hm).1) hr (hosts_settles ?_ hr)
  by_cases hm : name ∈ (names.foldl
      (fun r name => r.stopHost name (wanted.any (fun cfg => cfg.1.name = name)))
      r).outcome.restarted
  · obtain ⟨cfg, hc, he⟩ := List.any_eq_true.mp (hgone hm).2
    exact .inl ⟨cfg, hc, of_decide_eq_true he⟩
  · exact .inr fun h => absurd h hm

end Reloading

namespace PluginHub

variable {h t : PluginHub}

lemma hosted_reload {configs : List (PluginConfig × Bool)}
    (hh : h.ledger.Hosted (fun _ => False)) : (h.reload configs).ledger.Hosted (fun _ => False) := by
  rw [ledger_eq, paneIsLive_reload]
  refine Reloading.hosted_settles (fun pane => isSome_lookup_titles.mp)
    (Reloading.hosted_stops ?_ (fun pane plugin ho => (hh pane plugin ho).imp_right False.elim))
  intro name hr
  obtain ⟨cfg, hm, he⟩ := List.any_eq_true.mp hr
  exact ⟨cfg, hm, of_decide_eq_true he⟩

lemma hosted_step (hs : h.ledger.Sound) (hh : h.ledger.Hosted (fun _ => False)) {l : Label}
    (hstep : h.step l = some t) : t.ledger.Hosted (fun _ => False) := by
  by_cases hl : ∃ configs, l = .reload configs
  · obtain ⟨configs, rfl⟩ := hl
    obtain rfl := Option.some.inj hstep
    exact hosted_reload hh
  · exact hh.turns hl (turns_step hs hstep)

/-- After a reload the child of a replaced plugin was told of every live pane recorded as meant
for it. -/
lemma heard_reload {configs : List (PluginConfig × Bool)} {pane : PaneId} {plugin : String}
    {title : Option String} {slot : PaneSlot}
    (hi : h.plugins.intended.lookup pane = some plugin)
    (ht : h.titles.lookup pane = some title) (hp : pane ∉ h.plugins.pending)
    (hs : h.backend.slot pane = some slot)
    (hr : plugin ∈
      (h.plugins.reload h.backend configs h.config.startup h.titles).outcome.restarted) :
    (h.reload configs).plugins.Heard plugin (Reloading.opened h.plugins.cwd slot title) := by
  have hr' := Reloading.heard_successor (r := { plugins := h.plugins, backend := h.backend })
    (by simp) hi (by simp [ht]) hp hs hr
  rwa [ht] at hr'

lemma ledger_relaunch (plugin : String) (now : ℕ) (hs : h.ledger.Sound) {pane : PaneId}
    {resumeArgs : List String} {failed : Option SpawnStep} {slot : PaneSlot} {line : String}
    (hm : pane ∈ h.plugins.pending) (hroom : h.shared.hasFreeSlot = true)
    (hcan : h.backend.CanSpawn failed) (hslot : h.backend.slot pane = some slot)
    (hline : resumeCommandLine slot.launch.command resumeArgs
      ((h.plugins.allowedFlags.lookup plugin).getD []) = .ok line) :
    ∃ owner, (h.ledger.rows pane).owner = some owner ∧
      (h.relaunchForPlugin plugin pane resumeArgs failed now).ledger =
        { (h.ledger.set pane { h.ledger.rows pane with
            owner := none, pending := false, slot := none }).set h.ledger.nextId
          { owner := some owner, slot := some (slot.identity.advance, slot.launch), live := true,
            spawned := some slot.identity.advance.token } with
          nextId := h.ledger.nextId + 1 } := by
  obtain ⟨held, hp⟩ := Option.isSome_iff_exists.mp (AList.lookup_isSome.mpr hm)
  have hc : h.plugins.claimPending pane =
      some (held, { h.plugins with pending := h.plugins.pending.erase pane }) := by
    simp [Plugins.claimPending, hp]
  obtain ⟨owner, howner⟩ :=
    Option.ne_none_iff_exists'.mp ((hs.row pane).pendingOwned (pending_row hp))
  refine ⟨owner, howner, ?_⟩
  unfold relaunchForPlugin
  simp only [hc, hroom, Bool.not_true, Bool.false_eq_true, if_false]
  rcases PtyBackend.relaunchPane_cases h.backend pane held.spot.size resumeArgs
    ((h.plugins.allowedFlags.lookup plugin).getD []) failed now with
    ⟨error, -, hr⟩ | ⟨slot', line', hslot', -, ⟨hn, -⟩ | ⟨-, he⟩⟩
  · exact absurd hline (hr slot line hslot)
  · exact absurd hcan hn
  · obtain rfl : slot' = slot := Option.some.inj (hslot'.symm.trans hslot)
    simp only [he]
    exact ledger_replaced hs hp hc howner rfl

lemma relaunch_unrecorded (hs : h.ledger.Sound) {plugin : String} {pane : PaneId}
    {resumeArgs : List String} {failed : Option SpawnStep} {now : ℕ} {slot : PaneSlot}
    {line : String} (hm : pane ∈ h.plugins.pending) (hroom : h.shared.hasFreeSlot = true)
    (hcan : h.backend.CanSpawn failed) (hslot : h.backend.slot pane = some slot)
    (hline : resumeCommandLine slot.launch.command resumeArgs
      ((h.plugins.allowedFlags.lookup plugin).getD []) = .ok line) :
    ¬ (h.relaunchForPlugin plugin pane resumeArgs failed now).ledger.Recorded := by
  obtain ⟨owner, -, hledger⟩ := ledger_relaunch plugin now hs hm hroom hcan hslot hline
  have hrow : (h.relaunchForPlugin plugin pane resumeArgs failed now).ledger.rows
      h.ledger.nextId = { owner := some owner, slot := some (slot.identity.advance, slot.launch),
                          live := true, spawned := some slot.identity.advance.token } := by
    rw [hledger]
    exact Ledger.rows_set
  intro hrec
  have hi := hrec h.ledger.nextId owner (by rw [hrow])
  rw [hrow] at hi
  cases hi

lemma unrecorded_of_takesOver (hs : h.ledger.Sound) {l : Label} (hl : h.TakesOver l)
    (hstep : h.step l = some t) : ¬ t.ledger.Recorded := by
  obtain ⟨failed, ⟨plugin, cmd, now, pane, args, line, rfl, hv, hm, hroom⟩, hcan⟩ := hl
  rw [step] at hstep
  split at hstep
  swap
  · cases hstep
  obtain rfl := Option.some.inj hstep
  have hallowed := allowed_of_judge hv
  generalize hf : h.plugins.facts h.backend plugin cmd now = facts at hallowed
  cases hallowed with
  | relaunch v token resumeArgs commandLine f ho ha hn hr =>
    obtain ⟨token', slot, -, -, hslot, -, -, -, -, -, -, -, hlaunch⟩ := facts_cases hf
    rw [hlaunch] at hr
    obtain ⟨guard, hj⟩ := judge_eq h.plugins h.backend plugin
      (.relaunch v token f.generation args) now
    rw [hv] at hj
    simp only [dispatch, hj, carryOut]
    exact relaunch_unrecorded (h := { h with plugins := { h.plugins with guard } }) hs hm hroom
      hcan hslot hr

lemma hosted_initial {config : Terminal.Startup.Config} {cwd : String}
    {configs : List (PluginConfig × Bool)} :
    (initial config cwd configs).ledger.Hosted (fun _ => False) := by
  intro pane plugin ho
  rw [rows_initial] at ho
  cases ho

/-- In every run every watched pane's plugin has a child. As long as no relaunch succeeds, every
watched pane is also recorded as meant for that plugin, and a reload that replaces the child
tells its successor of every live pane the plugin watched. Each step from such a state keeps the
record exactly when it is not a relaunch that succeeds. -/
theorem owners_survive_reload (config : Terminal.Startup.Config) (cwd : String)
    (configs : List (PluginConfig × Bool)) (labels : List Label) (h : PluginHub)
    (hrun : run step (initial config cwd configs) labels = some h) :
    (∀ pane plugin, h.plugins.owner pane = some plugin → plugin ∈ h.plugins.hosts) ∧
    (Along step (fun h l => ¬ h.TakesOver l) (initial config cwd configs) labels →
      (∀ pane plugin, h.plugins.owner pane = some plugin →
        h.plugins.intended.lookup pane = some plugin) ∧
      ∀ again plugin, plugin ∈
        (h.plugins.reload h.backend again h.config.startup h.titles).outcome.restarted →
        ∀ pane title, h.titles.lookup pane = some title → h.plugins.owner pane = some plugin →
        ∃ slot host, h.backend.slot pane = some slot ∧
          (h.reload again).plugins.hosts.lookup plugin = some host ∧
          .paneOpened protocolVersion slot.identity.token slot.identity.generation title
            slot.launch.command h.plugins.cwd ∈ host.told) ∧
    ∀ l t, h.ledger.Recorded → h.step l = some t → (t.ledger.Recorded ↔ ¬ h.TakesOver l) := by
  have hinv : h.ledger.Sound ∧ h.ledger.Hosted (fun _ => False) := by
    refine run_invariant (p := fun h : PluginHub => h.ledger.Sound ∧ h.ledger.Hosted _) ?_
      ⟨sound_initial, hosted_initial⟩ hrun
    rintro h l t ⟨hs, hh⟩ hstep
    exact ⟨hs.turns (turns_step hs hstep), hosted_step hs hh hstep⟩
  obtain ⟨hs, hh⟩ := hinv
  refine ⟨fun pane plugin ho => ?_, fun halong => ?_, fun l t hr hstep => ⟨?_, ?_⟩⟩
  · simpa [ledger, Plugins.ledger] using hh pane plugin ho
  · have hrec : h.ledger.Sound ∧ h.ledger.Recorded := by
      refine run_guarded (p := fun h : PluginHub => h.ledger.Sound ∧ h.ledger.Recorded)
        ?_ ⟨sound_initial, ?_⟩ halong hrun
      · rintro h l t ⟨hs, hr⟩ hl hstep
        have ht := turns_step hs hstep
        exact ⟨hs.turns ht, hr.turns hl ht⟩
      · intro pane plugin ho
        rw [rows_initial] at ho
        cases ho
    refine ⟨hrec.2, fun again plugin hr pane title ht ho => ?_⟩
    have hlive : (h.ledger.rows pane).live = true := isSome_lookup_titles.mp (by simp [ht])
    have hp : pane ∉ h.plugins.pending := by
      intro hm
      have hgone := (hs.row pane).pendingGone (AList.lookup_isSome.mpr hm)
      simp [hlive] at hgone
    obtain ⟨slot, hslot⟩ : ∃ slot, h.backend.slot pane = some slot := by
      have := (hs.row pane).liveSlot hlive
      rcases hb : h.backend.slot pane with _ | slot
      · simp [ledger, Plugins.ledger, Plugins.row, hb] at this
      · exact ⟨slot, rfl⟩
    obtain ⟨host, hl, he⟩ := heard_reload (hrec.2 pane plugin ho) ht hp hslot hr
    exact ⟨slot, host, hslot, hl, he⟩
  · exact fun ht hl => unrecorded_of_takesOver hs hl hstep ht
  · exact fun hl => hr.turns hl (turns_step hs hstep)

def changedPlugin : PluginConfig := { recoveryPlugin with args := ["--verbose"] }

def openedRun : List Label := [.openStartup [] 0 0 (fun _ => ⟨some paneToken, none, 0⟩)]

theorem owners_survive_reload_opened : ∃ h, run step watchedHub openedRun = some h ∧
    h.plugins.owner 1 = some "recovery" ∧ ∃ slot host, h.backend.slot 1 = some slot ∧
      (h.reload [(changedPlugin, true)]).plugins.hosts.lookup "recovery" = some host ∧
      .paneOpened protocolVersion slot.identity.token slot.identity.generation (some "cli")
        slot.launch.command h.plugins.cwd ∈ host.told := by
  have hr : run step watchedHub openedRun = some _ := rfl
  refine ⟨_, hr, by decide, ?_⟩
  have h := owners_survive_reload watchedConfig "/repo" [(recoveryPlugin, true)] openedRun _ hr
  have halong : Along step (fun h l => ¬ h.TakesOver l) watchedHub openedRun := by
    refine ⟨?_, fun _ _ => trivial⟩
    rintro ⟨failed, ⟨plugin, cmd, now, pane, args, line, hl, -⟩, -⟩
    cases hl
  exact (h.2.1 halong).2 [(changedPlugin, true)] "recovery" (by decide) 1 (some "cli") (by decide)
    (by decide)

theorem relaunched_owner_is_not_recorded : ∃ h, run step watchedHub (relaunchRun none) = some h ∧
    h.titles = [(2, some "cli")] ∧ h.plugins.owner 2 = some "recovery" ∧
    h.plugins.intended.lookup 2 = none ∧
    (h.plugins.reload h.backend [(changedPlugin, true)] h.config.startup
      h.titles).outcome.restarted = ["recovery"] ∧
    (h.reload [(changedPlugin, true)]).plugins.hosts.lookup "recovery" = some { told := [] } := by
  have hr : run step watchedHub (relaunchRun none) = some _ := rfl
  exact ⟨_, hr, by decide, by decide, by decide, by decide, by decide⟩

end PluginHub

end Nightcrow.Session.Watchers
