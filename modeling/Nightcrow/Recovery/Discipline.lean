import Nightcrow.Recovery.Record

namespace Nightcrow.Recovery

open Nightcrow.Backend Nightcrow.Plugin Nightcrow.Library

def opens (generation : PaneGeneration) : PluginEvent → Bool
  | .paneOpened _ _ g _ _ _ => g = generation
  | _ => false

def exits (generation : PaneGeneration) : PluginEvent → Bool
  | .paneExited _ _ g => g = generation
  | _ => false

structure Highest (first : PaneGeneration) (marks : List Mark) (generation : PaneGeneration) :
    Prop where
  known : generation = first ∨ ∃ event, .heard event ∈ marks ∧
    eventGeneration event = some generation
  above : first ≤ generation
  bound : ∀ event g, .heard event ∈ marks → eventGeneration event = some g → g ≤ generation

def LastExited (generation : PaneGeneration) (marks : List Mark) : Prop :=
  ∃ a event b, marks = a ++ .heard event :: b ∧ exits generation event = true ∧
    ∀ e, .heard e ∈ b → opens generation e = false

def Mark.continues : Mark → Bool
  | voided | reported .. => false
  | _ => true

def Reported (marks : List Mark) : Prop :=
  ∃ a limit nowEpoch b, marks = a ++ .reported limit nowEpoch :: b ∧ ∀ m ∈ b, m.continues = true

def Waited (marks : List Mark) : Prop :=
  ∃ a b, marks = a ++ .over :: b ∧ Reported a ∧
    ∀ m ∈ b, m.continues = true ∧ m.isRelaunch = false

variable {marks notes : List Mark} {generation first : PaneGeneration}

lemma LastExited.append (h : LastExited generation marks)
    (hn : ∀ e, .heard e ∈ notes → opens generation e = false) :
    LastExited generation (marks ++ notes) := by
  obtain ⟨a, event, b, rfl, hexit, hb⟩ := h
  refine ⟨a, event, b ++ notes, by simp, hexit, fun e he => ?_⟩
  rcases List.mem_append.mp he with he | he
  · exact hb e he
  · exact hn e he

lemma Reported.append (h : Reported marks) (hn : ∀ m ∈ notes, m.continues = true) :
    Reported (marks ++ notes) := by
  obtain ⟨a, limit, nowEpoch, b, rfl, hb⟩ := h
  refine ⟨a, limit, nowEpoch, b ++ notes, by simp, fun m hm => ?_⟩
  rcases List.mem_append.mp hm with hm | hm
  · exact hb m hm
  · exact hn m hm

lemma Waited.append (h : Waited marks)
    (hn : ∀ m ∈ notes, m.continues = true ∧ m.isRelaunch = false) : Waited (marks ++ notes) := by
  obtain ⟨a, b, rfl, ha, hb⟩ := h
  refine ⟨a, b ++ notes, by simp, ha, fun m hm => ?_⟩
  rcases List.mem_append.mp hm with hm | hm
  · exact hb m hm
  · exact hn m hm

lemma Highest.append (h : Highest first marks generation)
    (hn : ∀ e g, .heard e ∈ notes → eventGeneration e = some g → g ≤ generation) :
    Highest first (marks ++ notes) generation := by
  refine ⟨?_, h.above, fun e g he hg => ?_⟩
  · rcases h.known with hk | ⟨e, he, hg⟩
    · exact .inl hk
    · exact .inr ⟨e, List.mem_append_left _ he, hg⟩
  · rcases List.mem_append.mp he with he | he
    · exact h.bound e g he hg
    · exact hn e g he hg

structure Backed (first : PaneGeneration) (marks : List Mark) (generation : PaneGeneration)
    (args : List String) : Prop where
  highest : Highest first marks generation
  exited : LastExited generation marks
  waited : Waited marks
  safe : argsAreSafe args = true

def Lawful (first : PaneGeneration) (marks : List Mark) : Prop :=
  ∀ before v token generation args after,
    marks = before ++ .said (.relaunch v token generation args) :: after →
    Backed first before generation args

lemma Lawful.concat (h : Lawful first marks) {m : Mark}
    (hm : ∀ v token generation args, m = .said (.relaunch v token generation args) →
      Backed first marks generation args) : Lawful first (marks ++ [m]) := by
  intro before v token generation args after he
  rcases List.eq_nil_or_concat after with rfl | ⟨rest, last, rfl⟩
  · obtain ⟨hbefore, hlast⟩ := List.append_inj' he rfl
    rw [← hbefore]
    exact hm v token generation args (List.singleton_inj.mp hlast)
  · rw [List.concat_eq_append, ← List.cons_append, ← List.append_assoc] at he
    exact h before v token generation args rest (List.append_inj' he rfl).1

lemma Lawful.append (h : Lawful first marks) (hn : ∀ m ∈ notes, m.isRelaunch = false) :
    Lawful first (marks ++ notes) := by
  induction notes generalizing marks with
  | nil => rwa [List.append_nil]
  | cons m notes ih =>
    rw [List.append_cons]
    apply ih
    · apply h.concat
      rintro v token generation args rfl
      exact absurd (hn _ List.mem_cons_self) (by simp [Mark.isRelaunch, isRelaunch])
    · exact fun n hn' => hn n (List.mem_cons_of_mem _ hn')

namespace World

variable {w t : World} {input : Input} {inputs : List Input} {token : PaneToken}

structure Disciplined (first : PaneGeneration) (w : World) : Prop where
  sound : w.recovery.Sound
  highest : Highest first w.marks w.recovery.generation
  dead : w.recovery.alive = false → LastExited w.recovery.generation w.marks
  reported : w.recovery.limit ≠ none → Reported w.marks
  waited : w.recovery.state = .readyToResume → Waited w.marks
  lawful : Lawful first w.marks

lemma continues_said {out : List PluginCommand} : ∀ m ∈ out.map Mark.said, m.continues = true := by
  intro m hm
  obtain ⟨c, -, rfl⟩ := List.mem_map.mp hm
  rfl

lemma silent_said {out : List PluginCommand} (h : ∀ c ∈ out, isRelaunch c = false) :
    ∀ m ∈ out.map Mark.said, m.isRelaunch = false := by
  intro m hm
  obtain ⟨c, hc, rfl⟩ := List.mem_map.mp hm
  exact h c hc

lemma unheard_said {out : List PluginCommand} {event : PluginEvent} :
    .heard event ∉ out.map Mark.said := by
  intro hm
  obtain ⟨c, -, hc⟩ := List.mem_map.mp hm
  cases hc

lemma waited_tick {r : PaneRecovery} {provider : Provider} {ctx : PaneContext} {nowEpoch : ℤ}
    {now : ℕ} (hready : r.state = .readyToResume ∨ r.WaitOver nowEpoch now)
    (hw : r.state = .readyToResume → Waited marks) (hr : Reported marks) :
    Waited (marks ++ r.notes (.tick provider ctx nowEpoch now)) := by
  rw [PaneRecovery.notes]
  split
  · exact ⟨marks, [], rfl, hr, fun _ hm => absurd hm List.not_mem_nil⟩
  · rename_i hnot
    rw [List.append_nil]
    exact hw (hready.resolve_right hnot)

lemma carry_tick (hd : w.Disciplined first) (provider : Provider) (ctx : PaneContext)
    (nowEpoch : ℤ) (now : ℕ) (out : List PluginCommand) :
    Highest first (w.marks ++ (w.recovery.notes (.tick provider ctx nowEpoch now) ++
      out.map .said)) w.recovery.generation ∧
    (w.recovery.alive = false → LastExited w.recovery.generation (w.marks ++
      (w.recovery.notes (.tick provider ctx nowEpoch now) ++ out.map .said))) ∧
    (w.recovery.limit ≠ none → Reported (w.marks ++
      (w.recovery.notes (.tick provider ctx nowEpoch now) ++ out.map .said))) ∧
    ((∀ c ∈ out, isRelaunch c = false) →
      (w.recovery.state = .readyToResume ∨ w.recovery.WaitOver nowEpoch now →
        Waited (w.marks ++ (w.recovery.notes (.tick provider ctx nowEpoch now) ++
          out.map .said))) ∧
      Lawful first (w.marks ++ (w.recovery.notes (.tick provider ctx nowEpoch now) ++
        out.map .said))) := by
  have hnotes : ∀ m ∈ w.recovery.notes (.tick provider ctx nowEpoch now), m = .over :=
    PaneRecovery.notes_tick _ _ _ _ _
  have hunheard : ∀ e, .heard e ∉ w.recovery.notes (.tick provider ctx nowEpoch now) ++
      out.map .said := by
    intro e he
    rcases List.mem_append.mp he with he | he
    · cases hnotes _ he
    · exact unheard_said he
  have hcontinues : ∀ m ∈ w.recovery.notes (.tick provider ctx nowEpoch now) ++ out.map .said,
      m.continues = true := by
    intro m hm
    rcases List.mem_append.mp hm with hm | hm
    · rw [hnotes m hm]
      rfl
    · exact continues_said m hm
  refine ⟨hd.highest.append (fun e g he => absurd he (hunheard e)),
    fun ha => (hd.dead ha).append (fun e he => absurd he (hunheard e)),
    fun hl => (hd.reported hl).append hcontinues, fun hsilent => ⟨fun hready => ?_, ?_⟩⟩
  · have hlimit : w.recovery.limit ≠ none := by
      rcases hready with hs | ⟨hs | hs, -⟩
      · exact hd.sound.limited (by simp [hs])
      · exact hd.sound.limited (by simp [hs])
      · exact hd.sound.limited (by simp [hs])
    rw [← List.append_assoc]
    refine (waited_tick hready hd.waited (hd.reported hlimit)).append (fun m hm => ?_)
    exact ⟨continues_said m hm, silent_said hsilent m hm⟩
  · apply hd.lawful.append
    intro m hm
    rcases List.mem_append.mp hm with hm | hm
    · rw [hnotes m hm]
      rfl
    · exact silent_said hsilent m hm

lemma disciplined_tick (hd : w.Disciplined first) {provider : Provider} {ctx : PaneContext}
    {nowEpoch : ℤ} {now : ℕ} (h : w.step (.tick provider ctx nowEpoch now) = some t) :
    t.Disciplined first := by
  have hrecovery := step_recovery h
  have hmarks := step_marks h
  have hsound : t.recovery.Sound := by
    rw [hrecovery]
    exact PaneRecovery.sound_handle hd.sound
  obtain ⟨hhighest, hexited, hreported, hrest⟩ := carry_tick hd provider ctx nowEpoch now
    (w.recovery.handle (.tick provider ctx nowEpoch now)).2
  rw [← hmarks] at hhighest hexited hreported hrest
  rw [PaneRecovery.handle] at hrecovery hrest
  rcases PaneRecovery.tick_cases w.recovery nowEpoch now provider ctx with
    hq | ⟨args, hready, hlimit, halive, hsafe, -, htick⟩
  · obtain ⟨hwaited, hlawful⟩ := hrest hq.silent
    refine ⟨hsound, by rw [hrecovery, hq.generation]; exact hhighest, ?_, ?_, ?_, hlawful⟩
    · rw [hrecovery, hq.generation, hq.alive]
      exact hexited
    · rw [hrecovery, hq.limit]
      exact hreported
    · intro hstate
      rw [hrecovery] at hstate
      exact hwaited (PaneRecovery.tick_state_ready hstate)
  · have hq : w.recovery.Quiet (w.recovery.elapse nowEpoch now) := PaneRecovery.quiet_elapse
    obtain ⟨before, htold, hbefore⟩ :=
      PaneRecovery.asked_says (w.recovery.elapse nowEpoch now).1 now args
    rw [htick] at hrecovery
    refine ⟨hsound, ?_, ?_, ?_, ?_, ?_⟩
    · rw [hrecovery, PaneRecovery.asked_generation, hq.generation]
      exact hhighest
    · rw [hrecovery, PaneRecovery.asked_generation, PaneRecovery.asked_alive, hq.generation,
        hq.alive]
      exact hexited
    · rw [hrecovery, PaneRecovery.asked_limit, hq.limit]
      exact hreported
    · rw [hrecovery, PaneRecovery.asked_state]
      exact fun hs => absurd hs (by simp)
    · obtain ⟨hhighest, hexited, -, hrest⟩ := carry_tick hd provider ctx nowEpoch now
        ((w.recovery.elapse nowEpoch now).2 ++ before)
      have hsilent : ∀ c ∈ (w.recovery.elapse nowEpoch now).2 ++ before, isRelaunch c = false := by
        intro c hc
        rcases List.mem_append.mp hc with hc | hc
        · exact hq.silent c hc
        · exact hbefore c hc
      obtain ⟨hwaited, hlawful⟩ := hrest hsilent
      have hlast : t.marks = (w.marks ++ (w.recovery.notes (.tick provider ctx nowEpoch now) ++
          ((w.recovery.elapse nowEpoch now).2 ++ before).map .said)) ++
          [.said (.relaunch protocolVersion (w.recovery.elapse nowEpoch now).1.token
            w.recovery.generation args)] := by
        rw [hmarks, PaneRecovery.handle, htick, htold, hq.generation]
        simp
      rw [hlast]
      apply hlawful.concat
      intro v token generation args' hm
      injection hm with hm
      injection hm with _ _ hgeneration hargs
      rw [← hgeneration, ← hargs]
      exact ⟨hhighest, hexited halive, hwaited hready, hsafe⟩

lemma disciplined_limit (hd : w.Disciplined first) {limit : LimitEvent} {nowEpoch : ℤ} {now : ℕ}
    (h : w.step (.limit limit nowEpoch now) = some t) : t.Disciplined first := by
  have hrecovery := step_recovery h
  have hmarks := step_marks h
  have hsound : t.recovery.Sound := by
    rw [hrecovery]
    exact PaneRecovery.sound_handle hd.sound
  rw [PaneRecovery.handle] at hrecovery hmarks
  by_cases ha : w.recovery.Accepts limit
  · have hq := PaneRecovery.noteLimit_quiet nowEpoch now ha
    rw [PaneRecovery.notes, if_pos ha] at hmarks
    have hunheard : ∀ e, .heard e ∉ [Mark.reported limit nowEpoch] ++
        (w.recovery.noteLimit nowEpoch now limit).2.map .said := by
      intro e he
      rcases List.mem_cons.mp he with he | he
      · cases he
      · exact unheard_said he
    refine ⟨hsound, ?_, ?_, fun _ => ?_, fun hstate => ?_, ?_⟩
    · rw [hmarks, hrecovery, hq.generation]
      exact hd.highest.append (fun e g he => absurd he (hunheard e))
    · rw [hmarks, hrecovery, hq.generation, hq.alive]
      exact fun hdead => (hd.dead hdead).append (fun e he => absurd he (hunheard e))
    · rw [hmarks]
      exact ⟨w.marks, limit, nowEpoch, _, rfl, continues_said⟩
    · rw [hrecovery] at hstate
      exact absurd hstate (PaneRecovery.noteLimit_unready ha)
    · rw [hmarks]
      apply hd.lawful.append
      intro m hm
      rcases List.mem_cons.mp hm with rfl | hm
      · rfl
      · exact silent_said hq.silent m hm
  · rw [PaneRecovery.notes, if_neg ha, PaneRecovery.noteLimit_ignored ha, List.map_nil,
      List.append_nil, List.append_nil] at hmarks
    rw [PaneRecovery.noteLimit_ignored ha] at hrecovery
    obtain rfl : t = w := by
      cases t
      cases w
      exact congrArg₂ World.mk hrecovery hmarks
    exact hd

lemma opens_generation {event : PluginEvent} (h : opens generation event = true) :
    eventGeneration event = some generation := by
  cases event with
  | paneOpened v token g title command cwd => exact congrArg some (of_decide_eq_true h)
  | _ => cases h

lemma opens_of_exits {event : PluginEvent} (h : exits generation event = true) :
    opens generation event = false := by
  cases event with
  | paneOpened => cases h
  | _ => rfl

lemma dead_event {event : PluginEvent} (he : eventGeneration event = some generation)
    {alive : Bool} (h : PaneRecovery.heardAlive alive event = false) :
    exits generation event = true ∨ (alive = false ∧ opens generation event = false) := by
  cases event with
  | paneOpened => cases h
  | paneExited v token g => exact .inl (decide_eq_true (Option.some.inj he))
  | paneOutput | paneIdle | paneClosed | userInput => exact .inr ⟨h, rfl⟩
  | shutdown => cases he

lemma marks_event (r : PaneRecovery) (event : PluginEvent) {out : List PluginCommand}
    (hsilent : ∀ c ∈ out, isRelaunch c = false) :
    (∀ e, .heard e ∈ r.notes (.event event) ++ out.map Mark.said → e = event) ∧
    (∀ m ∈ r.notes (.event event) ++ out.map Mark.said, m.isRelaunch = false) ∧
    (r.voids event = false → ∀ m ∈ r.notes (.event event) ++ out.map Mark.said,
      m.continues = true) := by
  refine ⟨fun e he => ?_, fun m hm => ?_, fun hv m hm => ?_⟩
  · rcases List.mem_append.mp he with he | he
    · rcases List.mem_cons.mp he with he | he
      · exact Mark.heard.inj he
      · split at he
        · cases List.mem_singleton.mp he
        · cases he
    · exact absurd he unheard_said
  · rcases List.mem_append.mp hm with hm | hm
    · rcases List.mem_cons.mp hm with rfl | hm
      · rfl
      · split at hm
        · rw [List.mem_singleton.mp hm]
          rfl
        · cases hm
    · exact silent_said hsilent m hm
  · rcases List.mem_append.mp hm with hm | hm
    · rw [PaneRecovery.notes, if_neg (Bool.eq_false_iff.mp hv)] at hm
      rw [List.mem_singleton.mp hm]
      rfl
    · exact continues_said m hm

lemma disciplined_event (hd : w.Disciplined first) {event : PluginEvent}
    (h : w.step (.event event) = some t) : t.Disciplined first := by
  have hrecovery := step_recovery h
  have hmarks := step_marks h
  have hsound : t.recovery.Sound := by
    rw [hrecovery]
    exact PaneRecovery.sound_handle hd.sound
  rw [PaneRecovery.handle] at hrecovery hmarks
  rcases PaneRecovery.onEvent_spec w.recovery event with
    ⟨hc, hv, hold⟩ | ⟨g, p, he, hge, hc, hgeneration, hsilent, halive, hrest⟩
  · rw [hc] at hrecovery hmarks
    have hnone : ∀ c ∈ ([] : List PluginCommand), isRelaunch c = false := by simp
    obtain ⟨hheard, hrelaunch, hcontinues⟩ := marks_event w.recovery event hnone
    have hrecovery : t.recovery = w.recovery := hrecovery
    refine ⟨hsound, ?_, ?_, ?_, ?_, ?_⟩
    · rw [hrecovery, hmarks]
      refine hd.highest.append (fun e g he hg => ?_)
      rw [hheard e he] at hg
      exact UInt32.le_of_lt (hold g hg)
    · rw [hrecovery, hmarks]
      refine fun ha => (hd.dead ha).append (fun e he => ?_)
      rw [hheard e he, Bool.eq_false_iff]
      intro ho
      exact UInt32.lt_irrefl _ (hold _ (opens_generation ho))
    · rw [hrecovery, hmarks]
      exact fun hl => (hd.reported hl).append (hcontinues hv)
    · rw [hrecovery, hmarks]
      exact fun hs => (hd.waited hs).append (fun m hm => ⟨hcontinues hv m hm, hrelaunch m hm⟩)
    · rw [hmarks]
      exact hd.lawful.append hrelaunch
  · rw [hc] at hrecovery hmarks
    have hrecovery : t.recovery = p.1 := hrecovery
    obtain ⟨hheard, hrelaunch, hcontinues⟩ := marks_event w.recovery event hsilent
    refine ⟨hsound, ?_, ?_, ?_, ?_, ?_⟩
    · rw [hrecovery, hmarks, hgeneration]
      refine ⟨.inr ⟨event, ?_, he⟩, UInt32.le_trans hd.highest.above hge, fun e g' he' hg => ?_⟩
      · exact List.mem_append_right _ (List.mem_append_left _ List.mem_cons_self)
      · rcases List.mem_append.mp he' with he' | he'
        · exact UInt32.le_trans (hd.highest.bound e g' he' hg) hge
        · rw [hheard e he', he] at hg
          exact (Option.some.inj hg).symm ▸ UInt32.le_refl _
    · rw [hrecovery, hmarks, hgeneration, halive]
      intro hdead
      rcases dead_event he hdead with hexit | ⟨hbase, hopens⟩
      · refine ⟨w.marks, event, _, rfl, hexit, fun e hin => ?_⟩
        rw [hheard e (List.mem_cons_of_mem _ hin)]
        exact opens_of_exits hexit
      · rw [Bool.or_eq_false_iff, decide_eq_false_iff_not] at hbase
        have hsame : g = w.recovery.generation :=
          UInt32.le_antisymm (UInt32.not_lt.mp hbase.1) hge
        rw [hsame] at hopens ⊢
        refine (hd.dead hbase.2).append (fun e hin => ?_)
        rw [hheard e hin]
        exact hopens
    · rw [hrecovery, hmarks]
      intro hl
      rcases hrest with ⟨-, -, hlimit⟩ | ⟨hv, -, -, hlimit⟩
      · exact absurd hlimit hl
      · exact (hd.reported (hlimit ▸ hl)).append (hcontinues hv)
    · rw [hrecovery, hmarks]
      intro hs
      rcases hrest with ⟨-, hstate, -⟩ | ⟨hv, -, hstate, -⟩
      · cases hstate.symm.trans hs
      · exact (hd.waited (hstate.symm.trans hs)).append
          (fun m hm => ⟨hcontinues hv m hm, hrelaunch m hm⟩)
    · rw [hmarks]
      exact hd.lawful.append hrelaunch

lemma disciplined_run (hrun : run step (opened token first) inputs = some w) :
    w.Disciplined first := by
  have hopened : (opened token first).Disciplined first := by
    refine ⟨PaneRecovery.sound_idle rfl (Nat.zero_le _), ⟨.inl rfl, UInt32.le_refl _, ?_⟩, ?_, ?_, ?_,
      ?_⟩
    · exact fun _ _ h => absurd h List.not_mem_nil
    · exact fun h => by cases h
    · exact fun h => absurd rfl h
    · exact fun h => by cases h
    · intro before v slot generation args after h
      exact absurd h.symm (List.append_ne_nil_of_right_ne_nil _ (List.cons_ne_nil _ _))
  refine run_invariant (p := fun w => w.Disciplined first) ?_ hopened hrun
  intro s i t hs ht
  cases i with
  | event event => exact disciplined_event hs ht
  | limit limit nowEpoch now => exact disciplined_limit hs ht
  | tick provider ctx nowEpoch now => exact disciplined_tick hs ht

/-- Every relaunch of a run names the highest generation heard of, whose process last exited, and
follows a report that nothing voided and a wait of it that was polled as over, with no relaunch
since; its arguments are safe. Events of older generations change nothing, and the statuses
reported are the states the machine went through. -/
theorem acts_on_the_hosts_word (token : PaneToken) (first : PaneGeneration)
    (inputs : List Input) (w : World) (hrun : run step (opened token first) inputs = some w) :
    (∀ before v slot generation args after,
      w.marks = before ++ .said (.relaunch v slot generation args) :: after →
      Highest first before generation ∧ LastExited generation before ∧ Waited before ∧
        args ≠ [] ∧ ∀ a ∈ args, a ≠ "" ∧ ∀ c ∈ a.toList, isSafeArgChar c = true) ∧
    (∀ event generation, eventGeneration event = some generation →
      generation < w.recovery.generation →
      w.recovery.onEvent event = none ∧ w.recovery.handle (.event event) = (w.recovery, [])) ∧
    reports w.marks = w.recovery.took.map RecoveryState.asStr ∧
    w.recovery.took.getLast?.getD .idle = w.recovery.state ∧
    (RecoveryState.idle :: w.recovery.took).IsChain (· ≠ ·) := by
  obtain ⟨hreports, hlast, hchain⟩ := record_run hrun
  refine ⟨fun before v slot generation args after h => ?_, fun event generation he hlt => ?_,
    hreports, hlast, hchain⟩
  · have hbacked := (disciplined_run hrun).lawful before v slot generation args after h
    have hsafe := hbacked.safe
    rw [argsAreSafe, Bool.and_eq_true, Bool.and_eq_true] at hsafe
    refine ⟨hbacked.highest, hbacked.exited, hbacked.waited, ?_, fun a ha => ?_⟩
    · simpa using hsafe.1.1
    · have harg := List.all_eq_true.mp hsafe.2 a ha
      rw [Bool.and_eq_true, Bool.and_eq_true] at harg
      refine ⟨?_, List.all_eq_true.mp harg.2⟩
      simpa using harg.1.1
  · have hignored := PaneRecovery.onEvent_stale (r := w.recovery) he hlt
    exact ⟨hignored, by rw [PaneRecovery.handle, hignored]; rfl⟩

theorem acts_on_the_hosts_word_once : ∃ w before v slot' generation args after,
    run step (opened slot 1) (resumedOnce 1800000020 1800000000 0) = some w ∧
      w.marks = before ++ .said (.relaunch v slot' generation args) :: after ∧
      LastExited generation before ∧ Waited before := by
  have hseen : (run step (opened slot 1) (resumedOnce 1800000020 1800000000 0)).map
      (fun w => w.marks.any Mark.isRelaunch) = some true := by decide +kernel
  obtain ⟨w, hw, hany⟩ := Option.map_eq_some_iff.mp hseen
  obtain ⟨m, hm, hrelaunch⟩ := List.any_eq_true.mp hany
  obtain ⟨before, after, hsplit⟩ := List.append_of_mem hm
  match m, hrelaunch with
  | .said (.relaunch v slot' generation args), _ =>
    obtain ⟨-, hexited, hwaited, -⟩ := (acts_on_the_hosts_word slot 1 _ w hw).1 before v slot'
      generation args after hsplit
    exact ⟨w, before, v, slot', generation, args, after, hw, hsplit, hexited, hwaited⟩

end World

end Nightcrow.Recovery
