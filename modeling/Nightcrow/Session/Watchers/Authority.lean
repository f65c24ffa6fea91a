import Nightcrow.Session.Watchers.Successors

/-! What a plugin may make a hub do: only to panes it owns, and it owns a pane only because the
pane's configuration named it or because it quoted the pane's token. -/

namespace Nightcrow.Session.Watchers

open Nightcrow.Backend Nightcrow.Library Nightcrow.Plugin
open Nightcrow.Session.Terminal (PaneId PaneSize Shared)
open Nightcrow.Session.Terminal.Startup (StartupPane)

namespace PluginHub

variable {h t u : PluginHub} {pane : PaneId} {plugin : String} {token : PaneToken}
  {slot : PaneSlot}

structure Resolves (h : PluginHub) (token : PaneToken) (pane : PaneId) (slot : PaneSlot) :
    Prop where
  named : h.backend.paneForToken token = some pane
  held : h.backend.slot pane = some slot
  carried : slot.identity.token = token

inductive Authorised (h : PluginHub) (plugin : String) (now : ℕ) : PluginCommand → Approved → Prop
  | sendInput (v : UInt32) (token : PaneToken) (data : String) (pane : PaneId) (slot : PaneSlot) :
    h.Resolves token pane slot → h.plugins.owner pane = some plugin →
    h.backend.isProcessAlive pane = true → paneIdleThreshold ≤ slot.idleFor now →
    (∀ c ∈ data.toList, isControl c = true → c = '\r' ∨ c = '\n' ∨ c = '\t') →
    Authorised h plugin now (.sendInput v token slot.identity.generation data)
      (.sendInput pane data.toUTF8.toList)
  | relaunch (v : UInt32) (token : PaneToken) (resumeArgs : List String) (commandLine : String)
      (pane : PaneId) (slot : PaneSlot) :
    h.Resolves token pane slot → h.plugins.owner pane = some plugin →
    h.backend.isProcessAlive pane = false → slot.launch.command ≠ none →
    resumeCommandLine slot.launch.command resumeArgs
      ((h.plugins.allowedFlags.lookup plugin).getD []) = .ok commandLine →
    Authorised h plugin now (.relaunch v token slot.identity.generation resumeArgs)
      (.relaunch pane resumeArgs commandLine)
  | status (v : UInt32) (token : PaneToken) (state : String) (detail : Option String)
      (deadlineEpoch : Option ℤ) (attempt : UInt32) (pane : PaneId) (slot : PaneSlot) :
    h.Resolves token pane slot → h.plugins.owner pane = some plugin →
    Authorised h plugin now
      (.status v token slot.identity.generation state detail deadlineEpoch attempt)
      (.status pane state detail deadlineEpoch attempt)
  | attention (v : UInt32) (token : PaneToken) (pane : PaneId) (slot : PaneSlot) :
    h.Resolves token pane slot → h.plugins.owner pane = some plugin →
    Authorised h plugin now (.attention v token slot.identity.generation) (.attention pane)
  | watchPane (v : UInt32) (token : PaneToken) (pane : PaneId) (slot : PaneSlot) :
    h.Resolves token pane slot → plugin ∈ h.plugins.watchOnSignal →
    (∀ other, h.plugins.owner pane = some other → other = plugin) →
    h.backend.isProcessAlive pane = true →
    Authorised h plugin now (.watchPane v token) (.watchPane pane)
  | log (v : UInt32) (level : LogLevel) (message : String) :
    Authorised h plugin now (.log v level message) (.log level (truncateMessage message))

lemma authorised_of_judge (hmin : h.plugins.guard.minIdle = paneIdleThreshold)
    {cmd : PluginCommand} {now : ℕ} {approved : Approved}
    (hv : (h.plugins.judge h.backend plugin cmd now).1 = .ok approved) :
    h.Authorised plugin now cmd approved := by
  have hallowed := allowed_of_judge hv
  rw [hmin] at hallowed
  generalize hf : h.plugins.facts h.backend plugin cmd now = facts at hallowed
  cases hallowed with
  | log v level message => exact .log v level message
  | sendInput v token data f ho ha hi hsize hc =>
    obtain ⟨token', slot, htoken, hnamed, hslot, hcarried, hg, hown, -, -, halive, hidle, -⟩ :=
      facts_cases hf
    obtain rfl : token = token' := Option.some.inj htoken
    rw [hg]
    refine .sendInput v token data f.pane slot ⟨hnamed, hslot, hcarried⟩ (hown.mp ho)
      (halive ▸ ha) (hidle ▸ hi) fun c hm hcontrol => ?_
    have hplain := hc c hm
    simp only [isForbiddenControl, hcontrol, Bool.true_and, Bool.not_eq_false', decide_eq_true_eq,
      List.mem_cons, List.not_mem_nil, or_false] at hplain
    exact hplain
  | relaunch v token resumeArgs commandLine f ho ha hl hr =>
    obtain ⟨token', slot, htoken, hnamed, hslot, hcarried, hg, hown, -, -, halive, -, hlaunch⟩ :=
      facts_cases hf
    obtain rfl : token = token' := Option.some.inj htoken
    rw [hg]
    exact .relaunch v token resumeArgs commandLine f.pane slot ⟨hnamed, hslot, hcarried⟩
      (hown.mp ho) (halive ▸ ha) (hlaunch ▸ hl) (hlaunch ▸ hr)
  | status v token state detail deadlineEpoch attempt f ho =>
    obtain ⟨token', slot, htoken, hnamed, hslot, hcarried, hg, hown, -⟩ := facts_cases hf
    obtain rfl : token = token' := Option.some.inj htoken
    rw [hg]
    exact .status v token state detail deadlineEpoch attempt f.pane slot
      ⟨hnamed, hslot, hcarried⟩ (hown.mp ho)
  | attention v token f ho =>
    obtain ⟨token', slot, htoken, hnamed, hslot, hcarried, hg, hown, -⟩ := facts_cases hf
    obtain rfl : token = token' := Option.some.inj htoken
    rw [hg]
    exact .attention v token f.pane slot ⟨hnamed, hslot, hcarried⟩ (hown.mp ho)
  | watchPane v token f hm hw ha =>
    obtain ⟨token', slot, htoken, hnamed, hslot, hcarried, -, -, hother, hmay, halive, -⟩ :=
      facts_cases hf
    obtain rfl : token = token' := Option.some.inj htoken
    refine .watchPane v token f.pane slot ⟨hnamed, hslot, hcarried⟩ (hmay.mp hm) ?_ (halive ▸ ha)
    intro other ho
    by_contra hne
    simp [hother.mpr ⟨other, ho, hne⟩] at hw

end PluginHub

namespace Plugins

variable {p : Plugins} {b : PtyBackend} {pane : PaneId} {name : String}
  {build : PaneToken → PaneGeneration → PluginEvent} {cmd : PluginCommand} {now : ℕ}

def minimum (p : Plugins) : ℕ := p.guard.minIdle

@[simp] lemma minimum_sendFor : (p.sendFor b pane build).minimum = p.minimum := by
  obtain ⟨hosts, h, -⟩ := sendFor_eq p b pane build
  rw [h]
  rfl

@[simp] lemma minimum_cancel : (p.cancel b pane).minimum = p.minimum := by
  unfold cancel
  split <;> rfl

@[simp] lemma minimum_forget : (p.forget b pane).minimum = p.minimum := minimum_cancel

@[simp] lemma minimum_releasePane : (p.releasePane b pane).minimum = p.minimum := minimum_cancel

@[simp] lemma minimum_adopt : (p.adopt pane name).2.minimum = p.minimum := by
  unfold adopt
  dsimp only
  split <;> rfl

lemma minimum_claimPending {q : Plugins} {held : Pending}
    (h : p.claimPending pane = some (held, q)) : q.minimum = p.minimum := by
  obtain ⟨held', -, he⟩ := Option.map_eq_some_iff.mp h
  obtain ⟨-, rfl⟩ := Prod.mk.inj he
  rfl

lemma minimum_notifyIdle : (p.notifyIdle b now).minimum = p.minimum := by
  unfold notifyIdle
  generalize p.idleDue b now = due
  induction due generalizing p with
  | nil => rfl
  | cons e due ih =>
    rw [List.foldl_cons, ih]
    exact minimum_sendFor

lemma minimum_judge : (p.judge b name cmd now).2.minimum = p.minimum := by
  simp only [judge, minimum]
  generalize p.facts b name cmd now = facts
  cases cmd with
  | log => rfl
  | watchPane => rfl
  | sendInput v token generation data =>
    simp only [Guard.judge]
    split
    · rfl
    · unfold Guard.judgeSendInput
      dsimp only
      split_ifs
      · rfl
      · rfl
      · rfl
      · split <;> rfl
  | relaunch v token generation resumeArgs =>
    simp only [Guard.judge]
    split
    · rfl
    · unfold Guard.judgeRelaunch
      dsimp only
      split_ifs
      · rfl
      · rfl
      · split <;> rfl
  | attention v token generation =>
    simp only [Guard.judge]
    split <;> rfl
  | status v token generation state detail deadlineEpoch attempt =>
    simp only [Guard.judge]
    split <;> rfl

end Plugins

namespace Reloading

variable {r : Reloading} {name : String} {pane : PaneId} {titles : List (PaneId × Option String)}
  {cfg : PluginConfig} {up replaced : Bool}

lemma minimum_abandon : (r.abandon name).plugins.minimum = r.plugins.minimum :=
  foldl_same (f := release) (fun r => r.plugins.minimum) (fun _ _ => Plugins.minimum_cancel) _

lemma minimum_retireHoldsOf : (r.retireHoldsOf name).plugins.minimum = r.plugins.minimum := by
  refine foldl_same (fun r => r.plugins.minimum) (fun r i => ?_) _
  unfold retireHold
  split
  · rfl
  · rename_i hc
    exact Plugins.minimum_releasePane.trans (Plugins.minimum_claimPending hc)

lemma minimum_stopHost : (r.stopHost name replaced).plugins.minimum = r.plugins.minimum := by
  unfold stopHost
  dsimp only
  split
  · exact minimum_retireHoldsOf
  · exact minimum_abandon.trans minimum_retireHoldsOf

lemma minimum_startHost : (r.startHost cfg up titles).2.plugins.minimum = r.plugins.minimum := by
  unfold startHost
  split
  · exact foldl_same (f := fun r i => r.handOver cfg.name titles i)
      (fun r => r.plugins.minimum) (fun _ _ => Plugins.minimum_sendFor) _
  · rfl

lemma minimum_settle : (r.settle titles cfg up).plugins.minimum = r.plugins.minimum := by
  have hs : (r.startHost cfg up titles).2.plugins.minimum = r.plugins.minimum :=
    minimum_startHost
  unfold settle
  split
  · rfl
  · split
    · rename_i r' he
      rwa [he] at hs
    · rename_i r' he
      rw [he] at hs
      exact minimum_abandon.trans hs

end Reloading

namespace PluginHub

variable {h t : PluginHub} {pane : PaneId} {plugin : String} {now : ℕ}

lemma minimum_handed {title name : Option String} :
    (h.handed pane title name).plugins.minimum = h.plugins.minimum := by
  cases name with
  | none => rfl
  | some name =>
    have ha : (h.plugins.adopt pane name).2.minimum = h.plugins.minimum := Plugins.minimum_adopt
    unfold handed
    dsimp only
    split
    · rename_i plugins hadopt
      rw [hadopt] at ha
      exact Plugins.minimum_sendFor.trans ha
    · rename_i plugins hadopt
      rwa [hadopt] at ha

lemma minimum_openStartupPanes {client held : ℕ}
    {panes : List (Terminal.Startup.StartupPane × Spawning)} :
    (openStartupPanes client held panes h).plugins.minimum = h.plugins.minimum := by
  induction panes generalizing h held with
  | nil => rfl
  | cons e panes ih =>
    rw [openStartupPanes]
    split
    · rfl
    · refine ih.trans ?_
      unfold openStartupPane
      split
      · exact minimum_handed
      · rfl

lemma minimum_reload {configs : List (PluginConfig × Bool)} :
    (h.reload configs).plugins.minimum = h.plugins.minimum := by
  have hsettles : ∀ (wanted : List (PluginConfig × Bool)) (r : Reloading),
      (wanted.foldl (fun r cfg => r.settle h.titles cfg.1 cfg.2) r).plugins.minimum =
        r.plugins.minimum := by
    intro wanted
    induction wanted with
    | nil => exact fun _ => rfl
    | cons cfg wanted ih => exact fun r => (ih _).trans Reloading.minimum_settle
  have hstops : ∀ (replaced : String → Bool) (names : List String) (r : Reloading),
      (names.foldl (fun r name => r.stopHost name (replaced name)) r).plugins.minimum =
        r.plugins.minimum := by
    intro replaced names
    induction names with
    | nil => exact fun _ => rfl
    | cons name names ih => exact fun r => (ih _).trans Reloading.minimum_stopHost
  exact (hsettles _ _).trans (hstops _ _ _)

lemma minimum_relaunch {resumeArgs : List String} {failed : Option SpawnStep} :
    (h.relaunchForPlugin plugin pane resumeArgs failed now).plugins.minimum =
      h.plugins.minimum := by
  unfold relaunchForPlugin
  split
  · rfl
  rename_i held plugins hc
  have hclaimed := Plugins.minimum_claimPending hc
  split
  · exact hclaimed
  split
  · exact Plugins.minimum_sendFor.trans hclaimed
  · exact hclaimed

lemma minimum_watch {token : PaneToken} :
    (h.watchPaneForPlugin plugin token pane).plugins.minimum = h.plugins.minimum := by
  have ha : (h.plugins.adopt pane plugin).2.minimum = h.plugins.minimum := Plugins.minimum_adopt
  unfold watchPaneForPlugin
  split
  · rename_i plugins hadopt
    rw [hadopt] at ha
    exact Plugins.minimum_sendFor.trans ha
  · rename_i plugins hadopt
    rwa [hadopt] at ha

lemma minimum_carryOut {cmd : PluginCommand} {failed : Option SpawnStep} {approved : Approved} :
    (h.carryOut plugin cmd failed now approved).plugins.minimum = h.plugins.minimum := by
  cases approved with
  | relaunch => exact minimum_relaunch
  | watchPane =>
    unfold carryOut
    dsimp only
    split
    · exact minimum_watch
    · rfl
  | _ => rfl

lemma minimum_dispatch {cmd : PluginCommand} {failed : Option SpawnStep} :
    (h.dispatch plugin cmd failed now).plugins.minimum = h.plugins.minimum := by
  have hj : (h.plugins.judge h.backend plugin cmd now).2.minimum = h.plugins.minimum :=
    Plugins.minimum_judge
  unfold dispatch
  split
  · rename_i approved plugins he
    rw [he] at hj
    exact minimum_carryOut.trans hj
  · rename_i refused plugins he
    rwa [he] at hj

lemma minimum_expirePending : (h.expirePending now).plugins.minimum = h.plugins.minimum := by
  unfold expirePending
  generalize h.plugins.expired now = panes
  induction panes generalizing h with
  | nil => rfl
  | cons pane panes ih => exact ih.trans Plugins.minimum_forget

lemma minimum_step {l : Label} (hstep : h.step l = some t) :
    t.plugins.minimum = h.plugins.minimum := by
  cases l with
  | others shared =>
    rw [step] at hstep
    split at hstep
    · obtain rfl := Option.some.inj hstep
      rfl
    · cases hstep
  | close pane =>
    obtain rfl := Option.some.inj hstep
    unfold closePane
    split
    · rfl
    · dsimp only
      split
      · exact Plugins.minimum_forget.trans Plugins.minimum_sendFor
      · rfl
  | create size client command spawning =>
    obtain rfl := Option.some.inj hstep
    unfold create
    split
    · rfl
    · split <;> rfl
  | openStartup sizes client reserved spawnings =>
    obtain rfl := Option.some.inj hstep
    exact minimum_openStartupPanes
  | input pane =>
    obtain rfl := Option.some.inj hstep
    split
    · unfold Plugins.userInput
      split
      · rfl
      · exact Plugins.minimum_cancel.trans Plugins.minimum_sendFor
    · rfl
  | cancelRecovery pane =>
    obtain rfl := Option.some.inj hstep
    unfold cancelRecovery
    split
    · rfl
    · rename_i hc
      exact Plugins.minimum_forget.trans
        (Plugins.minimum_sendFor.trans (Plugins.minimum_claimPending hc))
  | reload configs =>
    obtain rfl := Option.some.inj hstep
    exact minimum_reload
  | output pane text now =>
    rw [step] at hstep
    split at hstep
    · obtain rfl := Option.some.inj hstep
      unfold Plugins.paneOutput
      split
      · rfl
      · dsimp only
        split
        · rfl
        · exact Plugins.minimum_sendFor
    · cases hstep
  | exited pane now =>
    rw [step] at hstep
    split at hstep
    · obtain rfl := Option.some.inj hstep
      unfold paneExited
      split
      · rfl
      · split
        · refine Plugins.minimum_sendFor.trans ?_
          unfold Plugins.holdForRelaunch
          split <;> rfl
        · exact Plugins.minimum_forget.trans Plugins.minimum_sendFor
    · cases hstep
  | notifyIdle now =>
    obtain rfl := Option.some.inj hstep
    exact Plugins.minimum_notifyIdle
  | command plugin cmd failed now =>
    rw [step] at hstep
    split at hstep
    · obtain rfl := Option.some.inj hstep
      exact minimum_dispatch
    · cases hstep
  | expire now =>
    obtain rfl := Option.some.inj hstep
    exact minimum_expirePending

lemma minimum_initial {config : Terminal.Startup.Config} {cwd : String}
    {configs : List (PluginConfig × Bool)} :
    (initial config cwd configs).plugins.minimum = paneIdleThreshold := by
  have hstart : ∀ (configs : List (PluginConfig × Bool)) (p : Plugins),
      (Plugins.startHosts config.startup configs p).minimum = p.minimum := by
    intro configs
    induction configs with
    | nil => exact fun _ => rfl
    | cons e configs ih =>
      intro p
      rw [Plugins.startHosts]
      split
      · exact ih p
      · exact ih _
  have hblank : ({ cwd } : Plugins).minimum = paneIdleThreshold := by
    rw [Plugins.minimum]
  rw [← hblank]
  exact hstart configs { cwd }

inductive OpenedAs : List (StartupPane × Spawning) → PtyBackend → PaneId → StartupPane → Prop
  | here {pane : StartupPane} {spawning : Spawning} {rest : List (StartupPane × Spawning)}
      {b c : PtyBackend} {i : PaneId} :
    b.openPane pane.size pane.command spawning.minted spawning.failed spawning.now = .ok (i, c) →
    OpenedAs ((pane, spawning) :: rest) b i pane
  | later {pane other : StartupPane} {spawning : Spawning} {rest : List (StartupPane × Spawning)}
      {b c : PtyBackend} {i j : PaneId} :
    b.openPane pane.size pane.command spawning.minted spawning.failed spawning.now = .ok (j, c) →
    OpenedAs rest c i other → OpenedAs ((pane, spawning) :: rest) b i other
  | refused {pane other : StartupPane} {spawning : Spawning} {rest : List (StartupPane × Spawning)}
      {b : PtyBackend} {i : PaneId} {error : PaneError} :
    b.openPane pane.size pane.command spawning.minted spawning.failed spawning.now = .error error →
    OpenedAs rest b i other → OpenedAs ((pane, spawning) :: rest) b i other

/-- A step that lets a plugin have a pane: the pane is opened from a configuration that names the
plugin, or the plugin quotes the pane's token and may. -/
inductive Gives (h : PluginHub) : Label → PaneId → String → Prop
  | configured (sizes : List PaneSize) (client reserved : ℕ) (spawnings : ℕ → Spawning)
      (pane : PaneId) (plugin : String) (startup : StartupPane) :
    OpenedAs ((h.config.startupPanes sizes).mapIdx (fun index pane => (pane, spawnings index)))
      h.backend pane startup →
    startup.plugin = some plugin →
    Gives h (.openStartup sizes client reserved spawnings) pane plugin
  | quoted (v : UInt32) (token : PaneToken) (plugin : String) (failed : Option SpawnStep) (now : ℕ)
      (pane : PaneId) :
    (h.plugins.judge h.backend plugin (.watchPane v token) now).1 = .ok (.watchPane pane) →
    h.Authorised plugin now (.watchPane v token) (.watchPane pane) →
    Gives h (.command plugin (.watchPane v token) failed now) pane plugin

def Relaunches (h : PluginHub) (l : Label) (t : PluginHub) (old : PaneId) (plugin : String) :
    Prop :=
  ∃ cmd failed now args line slot next, l = .command plugin cmd failed now ∧
    (h.plugins.judge h.backend plugin cmd now).1 = .ok (.relaunch old args line) ∧
    h.plugins.owner old = some plugin ∧ h.backend.slot old = some slot ∧
    t.backend.slot h.backend.nextId = some next ∧ next.identity.token = slot.identity.token

/-- A run in which a plugin was given a pane, or a pane whose slot the pane took over. -/
inductive Given (s : PluginHub) : List Label → PaneId → String → Prop
  | gives {before : List Label} {u : PluginHub} {l : Label} {pane : PaneId} {plugin : String} :
    run step s before = some u → u.Gives l pane plugin → Given s (before ++ [l]) pane plugin
  | kept {before : List Label} {l : Label} {pane : PaneId} {plugin : String} :
    Given s before pane plugin → Given s (before ++ [l]) pane plugin
  | relaunched {before : List Label} {u t : PluginHub} {l : Label} {old : PaneId}
      {plugin : String} :
    Given s before old plugin → run step s before = some u → u.step l = some t →
    u.Relaunches l t old plugin → Given s (before ++ [l]) u.backend.nextId plugin

variable {i : PaneId}

lemma stands_iff : (h.ledger.rows i).Stands plugin ↔
    h.plugins.owners.lookup i = some plugin ∨ h.plugins.intended.lookup i = some plugin := Iff.rfl

lemma stands_adopt {p : Plugins} {name : String} {q : Bool × Plugins} (hq : p.adopt pane name = q)
    (hi : q.2.owners.lookup i = some plugin ∨ q.2.intended.lookup i = some plugin) :
    (p.owners.lookup i = some plugin ∨ p.intended.lookup i = some plugin) ∨
      (i = pane ∧ name = plugin) := by
  subst hq
  by_cases hip : i = pane
  · subst hip
    unfold Plugins.adopt at hi
    dsimp only at hi
    split at hi
    · exact .inr ⟨rfl, by simpa using hi⟩
    · rcases hi with hi | hi
      · exact .inl (.inl hi)
      · exact .inr ⟨rfl, by simpa using hi⟩
  · refine .inl ?_
    unfold Plugins.adopt at hi
    dsimp only at hi
    split at hi
    · simpa [hip] using hi
    · simpa [hip] using hi

lemma stands_handed {title name : Option String}
    (hi : ((h.handed pane title name).ledger.rows i).Stands plugin) :
    (h.ledger.rows i).Stands plugin ∨ (i = pane ∧ name = some plugin) := by
  cases name with
  | none => exact .inl hi
  | some name =>
    have hadopted : (h.ledger.rows i).Stands plugin ∨ (i = pane ∧ name = plugin) := by
      unfold handed at hi
      dsimp only at hi
      split at hi
      · rename_i plugins hadopt
        refine stands_adopt hadopt ?_
        rw [stands_iff] at hi
        simpa [Plugins.paneOpened] using hi
      · rename_i plugins hadopt
        exact stands_adopt hadopt hi
    exact hadopted.imp id (fun h => ⟨h.1, congrArg some h.2⟩)

lemma backend_handed {title name : Option String} :
    (h.handed pane title name).backend = h.backend := by
  cases name with
  | none => rfl
  | some name =>
    unfold handed
    dsimp only
    split <;> rfl

lemma stands_openStartupPane {startup : StartupPane} {client : ℕ}
    {spawning : Spawning}
    (hi : ((h.openStartupPane startup client spawning).ledger.rows i).Stands plugin) :
    (h.ledger.rows i).Stands plugin ∨ (startup.plugin = some plugin ∧
      ∃ backend, h.backend.openPane startup.size startup.command spawning.minted spawning.failed
        spawning.now = .ok (i, backend)) := by
  unfold openStartupPane at hi
  split at hi
  · rename_i id backend hopen
    rcases stands_handed hi with hi | ⟨rfl, hp⟩
    · obtain ⟨token, -, rfl, rfl⟩ := PtyBackend.openPane_cases hopen
      exact .inl hi
    · exact .inr ⟨hp, backend, hopen⟩
  · exact .inl hi

lemma backend_openStartupPane {startup : StartupPane} {client : ℕ} {spawning : Spawning} :
    (h.openStartupPane startup client spawning).backend =
      match h.backend.openPane startup.size startup.command spawning.minted spawning.failed
        spawning.now with
      | .ok (_, backend) => backend
      | .error _ => h.backend := by
  simp only [openStartupPane]
  rcases h.backend.openPane startup.size startup.command spawning.minted spawning.failed
    spawning.now with error | ⟨id, backend⟩
  · rfl
  · exact backend_handed

lemma stands_openStartupPanes {client held : ℕ} {panes : List (StartupPane × Spawning)}
    (hi : ((openStartupPanes client held panes h).ledger.rows i).Stands plugin) :
    (h.ledger.rows i).Stands plugin ∨
      ∃ startup, OpenedAs panes h.backend i startup ∧ startup.plugin = some plugin := by
  induction panes generalizing h held with
  | nil => exact .inl hi
  | cons e panes ih =>
    rw [openStartupPanes] at hi
    split at hi
    · exact .inl hi
    · rcases ih hi with hi | ⟨startup, hopened, hp⟩
      · rcases stands_openStartupPane hi with hi | ⟨hp, backend, hopen⟩
        · exact .inl hi
        · exact .inr ⟨e.1, .here hopen, hp⟩
      · refine .inr ⟨startup, ?_, hp⟩
        rw [backend_openStartupPane] at hopened
        rcases ho : h.backend.openPane e.1.size e.1.command e.2.minted e.2.failed e.2.now with
          error | ⟨id, backend⟩
        · rw [ho] at hopened
          exact .refused ho hopened
        · rw [ho] at hopened
          exact .later ho hopened

lemma grants_relaunch {resumeArgs : List String} {failed : Option SpawnStep} :
    (h.relaunchForPlugin plugin pane resumeArgs failed now).grants = h.grants := by
  unfold relaunchForPlugin
  split
  · rfl
  split
  · rfl
  split <;> rfl

lemma grants_expirePending : (h.expirePending now).grants = h.grants := by
  unfold expirePending
  generalize h.plugins.expired now = panes
  induction panes generalizing h with
  | nil => rfl
  | cons pane panes ih => exact ih

lemma grants_step {l : Label} (hstep : h.step l = some t)
    (ho : ∀ sizes client reserved spawnings, l ≠ .openStartup sizes client reserved spawnings)
    (hc : ∀ plugin cmd failed now, l ≠ .command plugin cmd failed now) : t.grants = h.grants := by
  cases l with
  | openStartup sizes client reserved spawnings => exact absurd rfl (ho _ _ _ _)
  | command plugin cmd failed now => exact absurd rfl (hc _ _ _ _)
  | others shared =>
    rw [step] at hstep
    split at hstep
    · obtain rfl := Option.some.inj hstep
      rfl
    · cases hstep
  | close pane =>
    obtain rfl := Option.some.inj hstep
    unfold closePane
    split
    · rfl
    · dsimp only
      split <;> rfl
  | create size client command spawning =>
    obtain rfl := Option.some.inj hstep
    unfold create
    split
    · rfl
    · split <;> rfl
  | input pane =>
    obtain rfl := Option.some.inj hstep
    split <;> rfl
  | cancelRecovery pane =>
    obtain rfl := Option.some.inj hstep
    unfold cancelRecovery
    split <;> rfl
  | reload configs =>
    obtain rfl := Option.some.inj hstep
    rfl
  | output pane text now =>
    rw [step] at hstep
    split at hstep
    · obtain rfl := Option.some.inj hstep
      rfl
    · cases hstep
  | exited pane now =>
    rw [step] at hstep
    split at hstep
    · obtain rfl := Option.some.inj hstep
      unfold paneExited
      split
      · rfl
      · split <;> rfl
    · cases hstep
  | notifyIdle now =>
    obtain rfl := Option.some.inj hstep
    rfl
  | expire now =>
    obtain rfl := Option.some.inj hstep
    exact grants_expirePending

lemma stands_relaunch (hs : h.ledger.Sound) {other : String} {resumeArgs : List String}
    {failed : Option SpawnStep} {slot : PaneSlot} {line : String}
    (hslot : h.backend.slot pane = some slot) (hown : h.plugins.owner pane = some plugin)
    (hline : resumeCommandLine slot.launch.command resumeArgs
      ((h.plugins.allowedFlags.lookup plugin).getD []) = .ok line)
    (hi : ((h.relaunchForPlugin plugin pane resumeArgs failed now).ledger.rows i).Stands other) :
    (h.ledger.rows i).Stands other ∨ (i = h.backend.nextId ∧ other = plugin ∧
      ∃ next, (h.relaunchForPlugin plugin pane resumeArgs failed now).backend.slot
        h.backend.nextId = some next ∧ next.identity.token = slot.identity.token) := by
  by_cases hall : pane ∈ h.plugins.pending ∧ h.shared.hasFreeSlot = true ∧
      h.backend.CanSpawn failed
  · obtain ⟨hm, hroom, hcan⟩ := hall
    obtain ⟨owner, ho, hledger⟩ := ledger_relaunch plugin now hs hm hroom hcan hslot hline
    obtain rfl : plugin = owner := Option.some.inj (hown.symm.trans ho)
    have hrow : (h.relaunchForPlugin plugin pane resumeArgs failed now).ledger.rows
        h.backend.nextId = { owner := some plugin, slot := some (slot.identity.advance, slot.launch),
                             live := true, spawned := some slot.identity.advance.token } := by
      rw [hledger]
      exact Ledger.rows_set
    by_cases hin : i = h.backend.nextId
    · subst hin
      refine .inr ⟨rfl, ?_, ?_⟩
      · rw [hrow] at hi
        simpa [Row.Stands, eq_comm] using hi
      · obtain ⟨next, hnext, he⟩ := Option.map_eq_some_iff.mp (congrArg Row.slot hrow)
        exact ⟨next, hnext, by rw [(Prod.mk.inj he).1]; rfl⟩
    · refine .inl ?_
      rw [hledger] at hi
      have hset : ((h.ledger.set pane { h.ledger.rows pane with
          owner := none, pending := false, slot := none }).rows i).Stands other := by
        rwa [← Ledger.rows_set_of_ne hin]
      by_cases hip : i = pane
      · subst hip
        rw [Ledger.rows_set] at hset
        exact .inr (by simpa [Row.Stands] using hset)
      · rwa [Ledger.rows_set_of_ne hip] at hset
  · have ht : Ledger.Turns (fun u => u = .slotLost) h.ledger
        (h.relaunchForPlugin plugin pane resumeArgs failed now).ledger :=
      turns_relaunch hs (fun _ _ _ => rfl)
        (fun hm hroom hcan => absurd ⟨hm, hroom, hcan⟩ hall)
    exact .inl (Ledger.stands_turns (by simp) grants_relaunch ht hi)

lemma stands_dispatch (hs : h.ledger.Sound) (hmin : h.plugins.minimum = paneIdleThreshold)
    {cmd : PluginCommand} {failed : Option SpawnStep} {other : String}
    (hi : ((h.dispatch plugin cmd failed now).ledger.rows i).Stands other) :
    (h.ledger.rows i).Stands other ∨ h.Gives (.command plugin cmd failed now) i other ∨
      ∃ old, i = h.backend.nextId ∧ h.Relaunches (.command plugin cmd failed now)
        (h.dispatch plugin cmd failed now) old other := by
  obtain ⟨guard, hj⟩ := judge_eq h.plugins h.backend plugin cmd now
  rcases hv : (h.plugins.judge h.backend plugin cmd now).1 with refused | approved
  · rw [hv] at hj
    simp only [dispatch, hj] at hi
    exact .inl hi
  rw [hv] at hj
  have hd : h.dispatch plugin cmd failed now = carryOut
      { h with plugins := { h.plugins with guard } } plugin cmd failed now approved := by
    simp only [dispatch, hj]
  rw [hd] at hi ⊢
  have hauth := authorised_of_judge hmin hv
  cases hauth with
  | relaunch v token resumeArgs commandLine pane slot hr ho ha hl hline =>
    rcases stands_relaunch (h := { h with plugins := { h.plugins with guard } }) hs hr.held ho
      hline hi with hi | ⟨hin, rfl, next, hnext, he⟩
    · exact .inl hi
    · exact .inr (.inr ⟨pane, hin, _, failed, now, resumeArgs, commandLine, slot, next, rfl, hv,
        ho, hr.held, hnext, he⟩)
  | watchPane v token pane slot hr hm hn ha =>
    have hadopted : (h.ledger.rows i).Stands other ∨ (i = pane ∧ plugin = other) := by
      simp only [carryOut, PluginCommand.token?, watchPaneForPlugin] at hi
      split at hi
      · rename_i plugins hadopt
        refine stands_adopt (p := { h.plugins with guard }) hadopt ?_
        rw [stands_iff] at hi
        simpa [Plugins.paneOpened] using hi
      · rename_i plugins hadopt
        exact stands_adopt (p := { h.plugins with guard }) hadopt hi
    rcases hadopted with hi | ⟨rfl, rfl⟩
    · exact .inl hi
    · exact .inr (.inl (.quoted v token plugin failed now i hv
        (.watchPane v token i slot hr hm hn ha)))
  | _ => exact .inl hi

lemma stands_step (hs : h.ledger.Sound) (hmin : h.plugins.minimum = paneIdleThreshold) {l : Label}
    (hstep : h.step l = some t) (hi : (t.ledger.rows i).Stands plugin) :
    (h.ledger.rows i).Stands plugin ∨ h.Gives l i plugin ∨
      ∃ old, i = h.backend.nextId ∧ h.Relaunches l t old plugin := by
  by_cases ho : ∃ sizes client reserved spawnings, l = .openStartup sizes client reserved spawnings
  · obtain ⟨sizes, client, reserved, spawnings, rfl⟩ := ho
    obtain rfl := Option.some.inj hstep
    rcases stands_openStartupPanes hi with hi | ⟨startup, hopened, hp⟩
    · exact .inl hi
    · exact .inr (.inl (.configured sizes client reserved spawnings i plugin startup hopened hp))
  by_cases hc : ∃ plugin cmd failed now, l = .command plugin cmd failed now
  · obtain ⟨other, cmd, failed, now, rfl⟩ := hc
    rw [step] at hstep
    split at hstep
    · obtain rfl := Option.some.inj hstep
      exact stands_dispatch hs hmin hi
    · cases hstep
  · have hg := grants_step hstep
      (fun sizes client reserved spawnings he => ho ⟨sizes, client, reserved, spawnings, he⟩)
      (fun plugin cmd failed now he => hc ⟨plugin, cmd, failed, now, he⟩)
    have hu : ¬ h.Upsets l .takenOver := by
      rintro ⟨failed, ⟨plugin, cmd, now, pane, args, line, rfl, -⟩, -⟩
      exact hc ⟨plugin, cmd, failed, now, rfl⟩
    exact .inl (Ledger.stands_turns hu hg (turns_step hs hstep) hi)

variable {config : Terminal.Startup.Config} {cwd : String} {configs : List (PluginConfig × Bool)}
  {labels : List Label}

lemma minimum_run (hrun : run step (initial config cwd configs) labels = some h) :
    h.plugins.minimum = paneIdleThreshold :=
  run_invariant (p := fun h : PluginHub => h.plugins.minimum = paneIdleThreshold)
    (fun _ _ _ hm hstep => (minimum_step hstep).trans hm) minimum_initial hrun

lemma agreed_run (hrun : run step (initial config cwd configs) labels = some h) :
    h.ledger.Agreed := by
  have hinv : h.ledger.Sound ∧ h.ledger.Agreed := by
    refine run_invariant (p := fun h : PluginHub => h.ledger.Sound ∧ h.ledger.Agreed) ?_
      ⟨sound_initial, ?_⟩ hrun
    · rintro h l t ⟨hs, ha⟩ hstep
      have ht := turns_step hs hstep
      exact ⟨hs.turns ht, ha.turns ht⟩
    · intro pane plugin other ho
      rw [rows_initial] at ho
      cases ho
  exact hinv.2

lemma given_of_stands (hrun : run step (initial config cwd configs) labels = some h)
    (hi : (h.ledger.rows i).Stands plugin) :
    Given (initial config cwd configs) labels i plugin := by
  induction labels using List.reverseRecOn generalizing h i plugin with
  | nil =>
    obtain rfl := Option.some.inj hrun
    rw [rows_initial] at hi
    simp [Row.Stands] at hi
  | append_singleton before l ih =>
    obtain ⟨u, hu, hstep⟩ := run_concat.mp hrun
    rcases stands_step (sound_run hu) (minimum_run hu) hstep hi with
      hi | hgives | ⟨old, rfl, hre⟩
    · exact .kept (ih hu hi)
    · exact .gives hu hgives
    · obtain ⟨cmd, failed, now, args, line, slot, next, hl, hv, hown, hrest⟩ := hre
      exact .relaunched (ih hu (.inl hown)) hu hstep
        ⟨cmd, failed, now, args, line, slot, next, hl, hv, hown, hrest⟩

/-- In every run, what is approved for a plugin names the pane its command's token resolves to,
under the conditions of that action; and a plugin owns a pane only because some step of the run
gave it the pane, or one whose slot the pane took over. No pane is ever meant for a plugin while
another owns it. -/
theorem authority_holds (config : Terminal.Startup.Config) (cwd : String)
    (configs : List (PluginConfig × Bool)) (labels : List Label) (h : PluginHub)
    (hrun : run step (initial config cwd configs) labels = some h) :
    (∀ plugin cmd now approved,
      (h.plugins.judge h.backend plugin cmd now).1 = .ok approved →
      h.Authorised plugin now cmd approved) ∧
    (∀ pane plugin, h.plugins.owner pane = some plugin →
      Given (initial config cwd configs) labels pane plugin) ∧
    ∀ pane plugin other, h.plugins.owner pane = some plugin →
      h.plugins.intended.lookup pane = some other → other = plugin :=
  ⟨fun _ _ _ _ hv => authorised_of_judge (minimum_run hrun) hv,
    fun _ _ ho => given_of_stands hrun (.inl ho), agreed_run hrun⟩

theorem authority_holds_relaunched :
    (∃ h, run step watchedHub exitRun = some h ∧
      h.Authorised "recovery" 1 (.relaunch protocolVersion paneToken firstGeneration [])
        (.relaunch 1 [] "cli")) ∧
    ∃ h, run step watchedHub (relaunchRun none) = some h ∧ h.plugins.owner 2 = some "recovery" ∧
      Given watchedHub (relaunchRun none) 2 "recovery" := by
  have he : run step watchedHub exitRun = some _ := rfl
  have hr : run step watchedHub (relaunchRun none) = some _ := rfl
  refine ⟨⟨_, he, ?_⟩, _, hr, by decide, ?_⟩
  · exact (authority_holds watchedConfig "/repo" [(recoveryPlugin, true)] exitRun _ he).1
      "recovery" _ 1 _ (by rfl)
  · exact (authority_holds watchedConfig "/repo" [(recoveryPlugin, true)] (relaunchRun none) _ hr).2.1
      2 "recovery" (by decide)

end PluginHub

end Nightcrow.Session.Watchers
