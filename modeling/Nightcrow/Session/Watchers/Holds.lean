import Nightcrow.Session.Watchers.Turns

/-! When a relaunch that failed leaves the slot it was for, and with it the hold, usable. -/

namespace Nightcrow.Session.Watchers

open Nightcrow.Backend Nightcrow.Library Nightcrow.Plugin
open Nightcrow.Session.Terminal (PaneId PaneSize)

def Accepts (b : PtyBackend) (pane : PaneId) (resumeArgs allowed : List String) : Prop :=
  ∃ slot line, b.slot pane = some slot ∧
    resumeCommandLine slot.launch.command resumeArgs allowed = .ok line

lemma relaunchPane_keeps_slots {b : PtyBackend} {pane : PaneId} {size : PaneSize}
    {resumeArgs allowed : List String} {failed : Option SpawnStep} {now : ℕ} :
    (∀ error, (b.relaunchPane pane size resumeArgs allowed failed now).1 = .error error →
      (b.relaunchPane pane size resumeArgs allowed failed now).2.slots = b.slots) ↔
    (Accepts b pane resumeArgs allowed → b.CanSpawn failed) := by
  rcases PtyBackend.relaunchPane_cases b pane size resumeArgs allowed failed now with
    ⟨error, he, hr⟩ | ⟨slot, line, hslot, hline, ⟨hcan, error, he⟩ | ⟨hcan, he⟩⟩
  · rw [he]
    refine iff_of_true (fun _ _ => rfl) ?_
    rintro ⟨slot, line, hslot, hline⟩
    exact absurd hline (hr slot line hslot)
  · rw [he]
    refine iff_of_false (fun h => ?_) (fun h => hcan (h ⟨slot, line, hslot, hline⟩))
    have hgone : (b.destroyPane pane).slot pane = b.slot pane :=
      congrArg (fun slots : PaneSlots => slots[pane]?) (h error rfl)
    simp [hslot] at hgone
  · rw [he]
    exact iff_of_true (fun error h => by cases h) (fun _ => hcan)

namespace PluginHub

variable {config : Terminal.Startup.Config} {cwd : String} {configs : List (PluginConfig × Bool)}
  {labels : List Label} {h : PluginHub}

lemma held_run (hspawn : Along step (fun h l => ¬ h.LosesSlot l) (initial config cwd configs) labels)
    (hrun : run step (initial config cwd configs) labels = some h) : h.ledger.Held := by
  have hinv : h.ledger.Sound ∧ h.ledger.Held := by
    refine run_guarded (p := fun h : PluginHub => h.ledger.Sound ∧ h.ledger.Held)
      ?_ ⟨sound_initial, ?_⟩ hspawn hrun
    · rintro h l t ⟨hs, hh⟩ hl hstep
      have ht := turns_step hs hstep
      exact ⟨hs.turns ht, hh.turns hs hl ht⟩
    · intro pane hp
      rw [rows_initial] at hp
      cases hp
  exact hinv.2

/-- A relaunch that fails leaves the slot table as it was unless its arguments were accepted and
the system then refuses the spawn. In every run in which it refuses no replacement, every held
pane keeps its slot. -/
theorem failed_relaunch_keeps_slots (config : Terminal.Startup.Config) (cwd : String)
    (configs : List (PluginConfig × Bool)) (labels : List Label) (h : PluginHub) :
    (∀ (b : PtyBackend) (pane : PaneId) (size : PaneSize) (resumeArgs allowed : List String)
      (failed : Option SpawnStep) (now : ℕ),
      (∀ error, (b.relaunchPane pane size resumeArgs allowed failed now).1 = .error error →
        (b.relaunchPane pane size resumeArgs allowed failed now).2.slots = b.slots) ↔
      (Accepts b pane resumeArgs allowed → b.CanSpawn failed)) ∧
    (Along step (fun h l => ¬ h.LosesSlot l) (initial config cwd configs) labels →
      run step (initial config cwd configs) labels = some h →
      ∀ pane ∈ h.plugins.pending, ∃ slot, h.backend.slot pane = some slot) := by
  refine ⟨fun _ _ _ _ _ _ _ => relaunchPane_keeps_slots, ?_⟩
  intro hspawn hrun pane hp
  have hpending : (h.ledger.rows pane).pending = true := AList.lookup_isSome.mpr hp
  have hslot := held_run hspawn hrun pane hpending
  rcases hs : h.backend.slot pane with _ | slot
  · simp [ledger, Plugins.ledger, Plugins.row, hs] at hslot
  · exact ⟨slot, rfl⟩

def watchedConfig : Terminal.Startup.Config where
  startup := [{ command := "cli", name := none, plugin := some "recovery" }]
  autoOpen := false

def recoveryPlugin : PluginConfig :=
  { name := "recovery", command := "nightcrow-recovery", enabled := true }

def watchedHub : PluginHub := initial watchedConfig "/repo" [(recoveryPlugin, true)]

def paneToken : PaneToken := ⟨"a"⟩

def relaunchCommand (failed : Option SpawnStep) : Label :=
  .command "recovery" (.relaunch protocolVersion paneToken firstGeneration []) failed 1

def relaunchRun (failed : Option SpawnStep) : List Label :=
  [.openStartup [] 0 0 (fun _ => ⟨some paneToken, none, 0⟩), .exited 1 0, relaunchCommand failed]

lemma keepsSlot_of_not_command {h : PluginHub} {l : Label}
    (hl : ∀ plugin cmd failed now, l ≠ .command plugin cmd failed now) : ¬ h.LosesSlot l := by
  rintro ⟨failed, ⟨plugin, cmd, now, -, -, -, rfl, -⟩, -⟩
  exact hl plugin cmd failed now rfl

def exitRun : List Label :=
  [.openStartup [] 0 0 (fun _ => ⟨some paneToken, none, 0⟩), .exited 1 0]

theorem failed_relaunch_keeps_slots_held : ∃ h, run step watchedHub exitRun = some h ∧
    1 ∈ h.plugins.pending ∧ ∃ slot, h.backend.slot 1 = some slot := by
  have hr : run step watchedHub exitRun = some _ := rfl
  refine ⟨_, hr, by decide, ?_⟩
  refine (failed_relaunch_keeps_slots watchedConfig "/repo" [(recoveryPlugin, true)] exitRun
    _).2 ?_ hr 1 (by decide)
  exact ⟨keepsSlot_of_not_command (by simp), fun _ _ =>
    ⟨keepsSlot_of_not_command (by simp), fun _ _ => trivial⟩⟩

theorem failed_relaunch_loses_slot : ∃ h, run step watchedHub (relaunchRun (some .openPty)) = some h ∧
    1 ∈ h.plugins.pending ∧ h.backend.slot 1 = none := by
  have hr : run step watchedHub (relaunchRun (some .openPty)) = some _ := rfl
  exact ⟨_, hr, by decide, by rfl⟩

end PluginHub

end Nightcrow.Session.Watchers
