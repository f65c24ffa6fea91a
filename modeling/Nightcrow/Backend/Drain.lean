import Nightcrow.Backend.Pty

/-! One pass over every pane's queued events, paced by a window of time for a woken owner, and the
moment the next pass is due. -/

namespace Nightcrow.Backend

open Nightcrow.Session.Terminal (PaneId PaneSize)

def perPaneDrainBudget : ℕ := 64

def drainWindow : ℕ := 8000000

def exitDrainGrace : ℕ := 50000000

namespace DrainWindow

def stop (window : DrainWindow) : ℕ := window.start + drainWindow

end DrainWindow

inductive PaneReport
  | output (data : List UInt8)
  | exited
deriving DecidableEq, Repr

inductive BackendEvent
  | created (pane : PaneId) (size : PaneSize) (requested : Bool) (title : Option String)
  | output (pane : PaneId) (data : List UInt8)
  | exited (pane : PaneId)
deriving DecidableEq, Repr

def PaneReport.ofPane (pane : PaneId) : PaneReport → BackendEvent
  | .output data => .output pane data
  | .exited => .exited pane

structure Pass where
  reports : List PaneReport
  queue : List PtyEvent
  exit : ExitPhase
  budget : ℕ
deriving DecidableEq, Repr

def Pass.report (report : PaneReport) (p : Pass) : Pass := { p with reports := report :: p.reports }

/-- Takes events while the budget lasts. The end of the master ends the pass, as does a channel
run dry, which is when a child dead for long enough is reported. -/
def drainLoop (now : ℕ) : ℕ → List PtyEvent → ExitPhase → Pass
  | 0, queue, exit => ⟨[], queue, exit, 0⟩
  | budget + 1, [], exit =>
    match exit with
    | .draining since =>
      if exitDrainGrace ≤ now - since then ⟨[.exited], [], .reported, budget + 1⟩
      else ⟨[], [], exit, budget + 1⟩
    | .running | .reported => ⟨[], [], exit, budget + 1⟩
  | budget + 1, .output data :: queue, exit =>
    (drainLoop now budget queue exit).report (.output data)
  | budget + 1, .childExited :: queue, exit =>
    drainLoop now budget queue (if exit = .running then .draining now else exit)
  | budget + 1, .exited :: queue, exit =>
    if exit = .reported then ⟨[], queue, exit, budget + 1⟩
    else ⟨[.exited], queue, .reported, budget + 1⟩

def PtyPane.windowAt (pane : PtyPane) (now : ℕ) : DrainWindow :=
  match pane.window with
  | some window => if now < window.stop then window else { start := now, used := 0 }
  | none => { start := now, used := 0 }

def drainPane (paced : Bool) (now : ℕ) (pane : PtyPane) : List PaneReport × PtyPane :=
  if paced then
    let window := pane.windowAt now
    let budget := perPaneDrainBudget - window.used
    if budget = 0 then ([], { pane with window := some window })
    else
      let pass := drainLoop now budget pane.queue pane.exit
      (pass.reports, { pane with
        queue := pass.queue
        exit := pass.exit
        window := some { window with used := window.used + (budget - pass.budget) } })
  else
    let pass := drainLoop now perPaneDrainBudget pane.queue pane.exit
    (pass.reports, { pane with
      queue := pass.queue
      exit := pass.exit
      window := pane.window.map fun window =>
        { window with used := window.used + (perPaneDrainBudget - pass.budget) } })

namespace PtyBackend

variable (b : PtyBackend)

def drainQueued (created : List BackendEvent) (paced : Bool) (now : ℕ) :
    List BackendEvent × PtyBackend :=
  -- `created` are the panes opened since the last pass; `paced`: the owner is woken, not polling
  let drained := b.panes.map fun _ pane => drainPane paced now pane
  let events := drained.toList.flatMap fun e => e.2.1.map (PaneReport.ofPane e.1)
  (created ++ events,
    { b with
      panes := drained.map fun _ d => d.2
      slots := events.foldl (fun slots event =>
        match event with
        | .output pane _ => slots.markOutput pane now
        | .created _ _ _ _ | .exited _ => slots) b.slots })

end PtyBackend

def PtyPane.deadlines (pane : PtyPane) : List ℕ :=
  (match pane.exit with
    | .draining since => [since + exitDrainGrace]
    | .running | .reported => []) ++
  (pane.window.filter fun window => perPaneDrainBudget ≤ window.used).toList.map DrainWindow.stop

def PtyBackend.nextDeadline (b : PtyBackend) : Option ℕ :=
  (b.panes.toList.flatMap fun e => e.2.deadlines).min?

def reportsOf (pane : PaneId) (events : List BackendEvent) : List PaneReport :=
  events.filterMap fun event =>
    match event with
    | .output p data => if p = pane then some (.output data) else none
    | .exited p => if p = pane then some .exited else none
    | .created _ _ _ _ => none

/-- What the threads and passes did with one pane: all events queued, those taken, those taken in
the current window, what was reported, and how many wakes its threads still owe. -/
structure PaneHistory where
  queued : List PtyEvent := []
  taken : List PtyEvent := []
  windowTaken : List PtyEvent := []
  reports : List PaneReport := []
  owed : ℕ := 0

inductive DrainCall
  | openPane (size : PaneSize) (command : Option String) (minted : Option PaneToken)
      (failed : Option SpawnStep) (now : ℕ)
  | destroyPane (pane : PaneId)
  | queue (pane : PaneId) (event : PtyEvent)
  | wake (pane : PaneId)
  | drain (now : ℕ)

structure DrainRun where
  backend : PtyBackend := {}
  woken : Bool := false
  history : PaneId → PaneHistory := fun _ => {}

namespace DrainRun

def queueEvent (s : DrainRun) (pane : PaneId) (event : PtyEvent) : DrainRun :=
  let h := s.history pane
  { s with
    backend := { s.backend with
      panes := s.backend.panes.modify pane fun p => { p with queue := p.queue ++ [event] } }
    history := Function.update s.history pane
      { h with queued := h.queued ++ [event], owed := h.owed + 1 } }

def wake (s : DrainRun) (pane : PaneId) : DrainRun :=
  let h := s.history pane
  if 0 < h.owed then
    { s with woken := true, history := Function.update s.history pane { h with owed := h.owed - 1 } }
  else s

def drainedHistory (s : DrainRun) (now : ℕ) (pane : PaneId) : PaneHistory :=
  let h := s.history pane
  let (events, after) := s.backend.drainQueued [] true now
  match s.backend.panes[pane]?, after.panes[pane]? with
  | some p, some p' =>
    let batch := p.queue.take (p.queue.length - p'.queue.length)
    { h with
      taken := h.taken ++ batch
      windowTaken := (if p.window = some (p.windowAt now) then h.windowTaken else []) ++ batch
      reports := h.reports ++ reportsOf pane events }
  | _, _ => h

def step (s : DrainRun) : DrainCall → DrainRun
  | .openPane size command minted failed now =>
    match s.backend.openPane size command minted failed now with
    | .error _ => s
    | .ok (pane, backend) => { s with backend, history := Function.update s.history pane {} }
  | .destroyPane pane => { s with backend := s.backend.destroyPane pane }
  | .queue pane event => if pane ∈ s.backend.panes then s.queueEvent pane event else s
  | .wake pane => s.wake pane
  | .drain now =>
    { backend := (s.backend.drainQueued [] true now).2
      woken := false
      history := s.drainedHistory now }

def run (calls : List DrainCall) : DrainRun := calls.foldl step {}

end DrainRun

def outputsOf (events : List PtyEvent) : List (List UInt8) :=
  events.filterMap fun event =>
    match event with
    | .output data => some data
    | .childExited | .exited => none

def reportedOutputs (reports : List PaneReport) : List (List UInt8) :=
  reports.filterMap fun report =>
    match report with
    | .output data => some data
    | .exited => none

/-- The events that count against a budget: all but the end of the master. -/
def counted (events : List PtyEvent) : ℕ := events.countP fun event => event ≠ .exited

def ExitReported (exit exit' : ExitPhase) (reports : List PaneReport) (batch queue : List PtyEvent) :
    Prop :=
  .exited ∉ reports ∧ (exit' = .reported ↔ exit = .reported) ∨
    exit ≠ .reported ∧ exit' = .reported ∧
      (∃ outputs, reports = outputs ++ [.exited] ∧ .exited ∉ outputs) ∧
      (queue = [] ∨ batch.getLast? = some .exited)

lemma drainLoop_spec (now budget : ℕ) (queue : List PtyEvent) (exit : ExitPhase) :
    ∃ batch, queue = batch ++ (drainLoop now budget queue exit).queue ∧
      reportedOutputs (drainLoop now budget queue exit).reports = outputsOf batch ∧
      (drainLoop now budget queue exit).budget + counted batch = budget ∧
      ExitReported exit (drainLoop now budget queue exit).exit
        (drainLoop now budget queue exit).reports batch
        (drainLoop now budget queue exit).queue ∧
      ((drainLoop now budget queue exit).exit ≠ .reported →
        (drainLoop now budget queue exit).queue ≠ [] →
        (drainLoop now budget queue exit).budget = 0) := by
  induction budget generalizing queue exit with
  | zero =>
    rw [drainLoop]
    exact ⟨[], rfl, rfl, rfl, .inl ⟨by simp, Iff.rfl⟩, fun _ _ => rfl⟩
  | succ budget ih =>
    cases queue with
    | nil =>
      cases exit with
      | running => exact ⟨[], rfl, rfl, rfl, .inl ⟨by simp [drainLoop], by simp [drainLoop]⟩,
          by simp [drainLoop]⟩
      | reported => exact ⟨[], rfl, rfl, rfl, .inl ⟨by simp [drainLoop], by simp [drainLoop]⟩,
          by simp [drainLoop]⟩
      | draining since =>
        rw [drainLoop]
        split_ifs
        · exact ⟨[], rfl, rfl, rfl, .inr ⟨by simp, rfl, ⟨[], rfl, by simp⟩, .inl rfl⟩, by simp⟩
        · exact ⟨[], rfl, rfl, rfl, .inl ⟨by simp, Iff.rfl⟩, by simp⟩
    | cons event queue =>
      cases event with
      | output data =>
        obtain ⟨batch, hqueue, houtputs, hbudget, hexit, hleft⟩ := ih queue exit
        rw [drainLoop]
        refine ⟨.output data :: batch, ?_, ?_, ?_, ?_, hleft⟩
        · exact congrArg (List.cons _) hqueue
        · exact congrArg (List.cons data) houtputs
        · rw [counted, List.countP_cons_of_pos (by simp)]
          exact congrArg Nat.succ hbudget
        · refine hexit.imp ?_ ?_
          · rintro ⟨hnone, hsame⟩
            exact ⟨by simpa [Pass.report] using hnone, hsame⟩
          · rintro ⟨hlive, hreported, ⟨outputs, hreports, hnone⟩, hlast⟩
            refine ⟨hlive, hreported, ⟨.output data :: outputs, ?_, by simpa using hnone⟩,
              hlast.imp (fun h => h) fun h => ?_⟩
            · exact congrArg (List.cons _) hreports
            · rw [List.getLast?_cons, h]
              rfl
      | childExited =>
        obtain ⟨batch, hqueue, houtputs, hbudget, hexit, hleft⟩ :=
          ih queue (if exit = .running then .draining now else exit)
        rw [drainLoop]
        have hphase : (if exit = .running then ExitPhase.draining now else exit) = .reported ↔
            exit = .reported := by
          split_ifs with hr
          · simp [hr]
          · rfl
        refine ⟨.childExited :: batch, ?_, houtputs, ?_, ?_, hleft⟩
        · exact congrArg (List.cons _) hqueue
        · rw [counted, List.countP_cons_of_pos (by simp)]
          exact congrArg Nat.succ hbudget
        · refine hexit.imp (fun h => ⟨h.1, h.2.trans hphase⟩) ?_
          rintro ⟨hlive, hreported, hreports, hlast⟩
          refine ⟨fun h => hlive (hphase.mpr h), hreported, hreports,
            hlast.imp (fun h => h) fun h => ?_⟩
          rw [List.getLast?_cons, h]
          rfl
      | exited =>
        rw [drainLoop]
        split_ifs with hr
        · exact ⟨[.exited], rfl, rfl, rfl, .inl ⟨by simp, Iff.rfl⟩, fun h => absurd hr h⟩
        · exact ⟨[.exited], rfl, rfl, rfl, .inr ⟨hr, rfl, ⟨[], rfl, by simp⟩, .inr rfl⟩,
            fun h => absurd rfl h⟩

structure PassOver (now : ℕ) (p p' : PtyPane) (reports : List PaneReport)
    (batch : List PtyEvent) : Prop where
  queue : p.queue = batch ++ p'.queue
  outputs : reportedOutputs reports = outputsOf batch
  window : ∃ w, p'.window = some w ∧ w.start = (p.windowAt now).start ∧
    w.used = (p.windowAt now).used + counted batch ∧ w.used ≤ perPaneDrainBudget
  exit : ExitReported p.exit p'.exit reports batch p'.queue
  left : p'.exit ≠ .reported → p'.queue ≠ [] →
    ∃ w, p'.window = some w ∧ perPaneDrainBudget ≤ w.used

lemma drainPane_spec {now : ℕ} {p : PtyPane} (hused : (p.windowAt now).used ≤ perPaneDrainBudget) :
    ∃ batch, PassOver now p (drainPane true now p).2 (drainPane true now p).1 batch := by
  rw [drainPane, if_pos rfl]
  by_cases hspent : perPaneDrainBudget - (p.windowAt now).used = 0
  · simp only [hspent, if_true]
    refine ⟨[], rfl, rfl, ⟨_, rfl, rfl, rfl, hused⟩, .inl ⟨by simp, Iff.rfl⟩, fun _ _ => ?_⟩
    exact ⟨_, rfl, Nat.sub_eq_zero_iff_le.mp hspent⟩
  · simp only [hspent, if_false]
    obtain ⟨batch, hqueue, houtputs, hbudget, hexit, hleft⟩ :=
      drainLoop_spec now (perPaneDrainBudget - (p.windowAt now).used) p.queue p.exit
    refine ⟨batch, hqueue, houtputs, ⟨_, rfl, rfl, ?_, ?_⟩, hexit, fun hlive hmore => ?_⟩
    · simp only
      omega
    · simp only
      omega
    · refine ⟨_, rfl, ?_⟩
      have hzero := hleft hlive hmore
      simp only
      omega

lemma reportsOf_ofPane (id pane : PaneId) (reports : List PaneReport) :
    reportsOf id (reports.map (PaneReport.ofPane pane)) = if pane = id then reports else [] := by
  induction reports with
  | nil => simp [reportsOf]
  | cons report reports ih =>
    rw [List.map_cons, reportsOf, List.filterMap_cons]
    rw [reportsOf] at ih
    rw [ih]
    cases report <;> split_ifs with h <;> simp [PaneReport.ofPane, h]

lemma flatMap_of_key {α β : Type*} {l : List (ℕ × α)} {f : α → List β} {id : ℕ} {a : α}
    (hd : l.Pairwise fun x y => x.1 ≠ y.1) (hm : (id, a) ∈ l) :
    l.flatMap (fun e => if e.1 = id then f e.2 else []) = f a := by
  induction l with
  | nil => cases hm
  | cons e l ih =>
    rw [List.pairwise_cons] at hd
    rw [List.flatMap_cons]
    rcases List.mem_cons.mp hm with rfl | hm
    · have hrest : l.flatMap (fun e => if e.1 = id then f e.2 else []) = [] := by
        rw [List.flatMap_eq_nil_iff]
        intro e he
        exact if_neg fun h => hd.1 e he h.symm
      rw [if_pos rfl, hrest, List.append_nil]
    · rw [if_neg fun h => hd.1 (id, a) hm h, List.nil_append, ih hd.2 hm]

namespace PtyBackend

variable {b : PtyBackend} {id : PaneId} {pane : PtyPane} {now : ℕ}

lemma panes_drainQueued (b : PtyBackend) (created : List BackendEvent) (paced : Bool) (now : ℕ)
    (id : PaneId) : (b.drainQueued created paced now).2.panes[id]? =
      b.panes[id]?.map fun pane => (drainPane paced now pane).2 := by
  rw [drainQueued, Std.TreeMap.getElem?_map, Std.TreeMap.getElem?_map, Option.map_map]
  rfl

lemma reportsOf_drainQueued {paced : Bool} (h : b.panes[id]? = some pane) :
    reportsOf id (b.drainQueued [] paced now).1 = (drainPane paced now pane).1 := by
  have hmem : (id, drainPane paced now pane) ∈
      (b.panes.map fun _ pane => drainPane paced now pane).toList := by
    rw [Std.TreeMap.mem_toList_iff_getElem?_eq_some, Std.TreeMap.getElem?_map, h]
    rfl
  have hdistinct : (b.panes.map fun _ pane => drainPane paced now pane).toList.Pairwise
      fun x y => x.1 ≠ y.1 :=
    (Std.TreeMap.distinct_keys_toList).imp fun h he => h (compare_eq_iff_eq.mpr he)
  rw [drainQueued, List.nil_append, reportsOf, List.filterMap_flatMap]
  have heach : ∀ e : PaneId × List PaneReport × PtyPane,
      (e.2.1.map (PaneReport.ofPane e.1)).filterMap (fun event =>
        match event with
        | .output p data => if p = id then some (.output data) else none
        | .exited p => if p = id then some .exited else none
        | .created _ _ _ _ => none) = if e.1 = id then e.2.1 else [] :=
    fun e => reportsOf_ofPane id e.1 e.2.1
  simp only [heach]
  exact flatMap_of_key (f := fun d : List PaneReport × PtyPane => d.1) hdistinct hmem

end PtyBackend

structure PaneFacts (woken : Bool) (p : PtyPane) (h : PaneHistory) : Prop where
  queued : h.queued = h.taken ++ p.queue
  outputs : reportedOutputs h.reports = outputsOf h.taken
  once : h.reports.count .exited ≤ 1
  live : p.exit ≠ .reported → .exited ∉ h.reports
  noWindow : p.window = none → h.windowTaken = []
  window : ∀ w, p.window = some w → w.used = counted h.windowTaken ∧ w.used ≤ perPaneDrainBudget
  due : p.exit ≠ .reported → p.queue ≠ [] →
    (∃ w, p.window = some w ∧ perPaneDrainBudget ≤ w.used) ∨ 0 < h.owed ∨ woken = true

namespace PaneFacts

variable {woken : Bool} {p p' : PtyPane} {h : PaneHistory} {now : ℕ} {reports : List PaneReport}
  {batch : List PtyEvent}

lemma fresh (size : PaneSize) (line : Option String) (woken : Bool) :
    PaneFacts woken { size, line } {} :=
  ⟨rfl, rfl, Nat.zero_le _, by simp, fun _ => rfl, by simp, by simp⟩

lemma wake (hf : PaneFacts woken p h) (owed : ℕ) : PaneFacts true p { h with owed } :=
  { hf with due := fun _ _ => .inr (.inr rfl) }

lemma queue (hf : PaneFacts woken p h) (event : PtyEvent) :
    PaneFacts woken { p with queue := p.queue ++ [event] }
      { h with queued := h.queued ++ [event], owed := h.owed + 1 } :=
  { hf with
    queued := by
      simp only [hf.queued, List.append_assoc]
    due := fun _ _ => .inr (.inl (Nat.succ_pos _)) }

lemma windowAt_used (hf : PaneFacts woken p h) (now : ℕ) :
    (p.windowAt now).used =
        counted (if p.window = some (p.windowAt now) then h.windowTaken else []) ∧
      (p.windowAt now).used ≤ perPaneDrainBudget := by
  cases hw : p.window with
  | none => simp [PtyPane.windowAt, hw, counted]
  | some w =>
    have hused := hf.window w hw
    by_cases hnow : now < w.stop
    · have hat : p.windowAt now = w := by simp [PtyPane.windowAt, hw, hnow]
      rw [hat, if_pos rfl]
      exact hused
    · have hat : p.windowAt now = { start := now, used := 0 } := by
        simp [PtyPane.windowAt, hw, hnow]
      have hne : ¬ some w = some ({ start := now, used := 0 } : DrainWindow) := by
        intro he
        rw [Option.some.inj he] at hnow
        exact hnow (Nat.lt_add_of_pos_right (by decide))
      rw [hat, if_neg hne]
      exact ⟨rfl, Nat.zero_le _⟩

lemma drain (hf : PaneFacts woken p h) (hp : PassOver now p p' reports batch) :
    PaneFacts false p'
      { h with
        taken := h.taken ++ batch
        windowTaken := (if p.window = some (p.windowAt now) then h.windowTaken else []) ++ batch
        reports := h.reports ++ reports } := by
  obtain ⟨w, hw, -, hused, hle⟩ := hp.window
  refine ⟨?_, ?_, ?_, ?_, ?_, ?_, fun hlive hmore => .inl (hp.left hlive hmore)⟩
  · simp only [hf.queued, hp.queue, List.append_assoc]
  · simp only [reportedOutputs, outputsOf, List.filterMap_append]
    exact congrArg₂ (· ++ ·) hf.outputs hp.outputs
  · simp only [List.count_append]
    rcases hp.exit with ⟨hnone, -⟩ | ⟨hlive, -, ⟨outputs, hreports, hnone⟩, -⟩
    · rw [List.count_eq_zero_of_not_mem hnone]
      exact hf.once
    · rw [List.count_eq_zero_of_not_mem (hf.live hlive), hreports, List.count_append,
        List.count_eq_zero_of_not_mem hnone]
      simp
  · intro hlive hmem
    rcases hp.exit with ⟨hnone, hsame⟩ | ⟨-, hreported, -⟩
    · rcases List.mem_append.mp hmem with hmem | hmem
      · exact hf.live (fun he => hlive (hsame.mpr he)) hmem
      · exact hnone hmem
    · exact hlive hreported
  · intro hnone
    rw [hw] at hnone
    cases hnone
  · intro w' hw'
    obtain rfl := Option.some.inj (hw.symm.trans hw')
    simp only [counted, List.countP_append]
    rw [hused, (hf.windowAt_used now).1]
    exact ⟨rfl, (hused.trans (congrArg (· + _) (hf.windowAt_used now).1)) ▸ hle⟩

end PaneFacts

lemma PtyBackend.nextDeadline_le {b : PtyBackend} {id : PaneId} {pane : PtyPane} {d : ℕ}
    (h : b.panes[id]? = some pane) (hd : d ∈ pane.deadlines) :
    ∃ next, b.nextDeadline = some next ∧ ∃ deadline ∈ pane.deadlines, next ≤ deadline := by
  have hmem : d ∈ b.panes.toList.flatMap fun e => e.2.deadlines :=
    List.mem_flatMap.mpr ⟨(id, pane), Std.TreeMap.mem_toList_iff_getElem?_eq_some.mpr h, hd⟩
  obtain ⟨next, hnext⟩ := Option.isSome_iff_exists.mp (List.isSome_min?_of_mem hmem)
  exact ⟨next, hnext, d, hd, (List.min?_eq_some_iff.mp hnext).2 d hmem⟩

namespace DrainRun

def Facts (s : DrainRun) : Prop :=
  ∀ (id : PaneId) (pane : PtyPane), s.backend.panes[id]? = some pane →
    PaneFacts s.woken pane (s.history id)

variable {s : DrainRun} {id : PaneId} {pane : PtyPane}

lemma drainedHistory_eq (s : DrainRun) (now : ℕ) (h : s.backend.panes[id]? = some pane)
    {batch : List PtyEvent}
    (hp : PassOver now pane (drainPane true now pane).2 (drainPane true now pane).1 batch) :
    s.drainedHistory now id =
      { s.history id with
        taken := (s.history id).taken ++ batch
        windowTaken := (if pane.window = some (pane.windowAt now) then
          (s.history id).windowTaken else []) ++ batch
        reports := (s.history id).reports ++ (drainPane true now pane).1 } := by
  have hafter : (s.backend.drainQueued [] true now).2.panes[id]? =
      some (drainPane true now pane).2 := by
    rw [PtyBackend.panes_drainQueued, h]
    rfl
  have hbatch : pane.queue.take (pane.queue.length - (drainPane true now pane).2.queue.length) =
      batch := by
    rw [hp.queue, List.length_append, Nat.add_sub_cancel, List.take_left]
  simp only [drainedHistory, h, hafter, hbatch, PtyBackend.reportsOf_drainQueued h]

lemma Facts.openPane (hf : s.Facts) (size : PaneSize) (command : Option String)
    (minted : Option PaneToken) (failed : Option SpawnStep) (now : ℕ) :
    (s.step (.openPane size command minted failed now)).Facts := by
  simp only [step]
  cases ho : s.backend.openPane size command minted failed now with
  | error error => exact hf
  | ok after =>
    obtain ⟨token, -, hid, hafter⟩ := PtyBackend.openPane_cases ho
    intro id pane hpane
    simp only [hafter, hid] at hpane ⊢
    by_cases hi : id = s.backend.nextId
    · subst hi
      rw [Std.TreeMap.getElem?_insert_self] at hpane
      obtain rfl := Option.some.inj hpane
      rw [Function.update_self]
      exact PaneFacts.fresh size command s.woken
    · rw [Std.TreeMap.getElem?_insert, if_neg fun h => hi (compare_eq_iff_eq.mp h).symm] at hpane
      rw [Function.update_of_ne hi]
      exact hf id pane hpane

lemma Facts.queueEvent (hf : s.Facts) (pane : PaneId) (event : PtyEvent) :
    (s.queueEvent pane event).Facts := by
  intro id p hp
  simp only [DrainRun.queueEvent, Std.TreeMap.getElem?_modify] at hp ⊢
  by_cases hi : id = pane
  · subst hi
    rw [if_pos (compare_eq_iff_eq.mpr rfl), Option.map_eq_some_iff] at hp
    obtain ⟨old, hold, rfl⟩ := hp
    rw [Function.update_self]
    exact (hf id old hold).queue event
  · rw [if_neg fun h => hi (compare_eq_iff_eq.mp h).symm] at hp
    rw [Function.update_of_ne hi]
    exact hf id p hp

lemma Facts.wake (hf : s.Facts) (pane : PaneId) : (s.wake pane).Facts := by
  intro id p hp
  rw [DrainRun.wake] at hp ⊢
  split_ifs at hp ⊢
  · have hfacts := hf id p hp
    simp only
    by_cases hi : id = pane
    · subst hi
      rw [Function.update_self]
      exact hfacts.wake _
    · rw [Function.update_of_ne hi]
      exact hfacts.wake _
  · exact hf id p hp

lemma Facts.drain (hf : s.Facts) (now : ℕ) : (s.step (.drain now)).Facts := by
  intro id p hp
  simp only [step] at hp ⊢
  rw [PtyBackend.panes_drainQueued, Option.map_eq_some_iff] at hp
  obtain ⟨old, hold, rfl⟩ := hp
  have hfacts := hf id old hold
  obtain ⟨batch, hpass⟩ := drainPane_spec (hfacts.windowAt_used now).2
  rw [s.drainedHistory_eq now hold hpass]
  exact hfacts.drain hpass

lemma Facts.step (hf : s.Facts) (call : DrainCall) : (s.step call).Facts := by
  cases call with
  | openPane size command minted failed now => exact hf.openPane size command minted failed now
  | destroyPane pane =>
    intro id p hp
    simp only [DrainRun.step, PtyBackend.destroyPane, Std.TreeMap.getElem?_erase] at hp ⊢
    split_ifs at hp
    exact hf id p hp
  | queue pane event =>
    rw [DrainRun.step]
    split_ifs
    · exact hf.queueEvent pane event
    · exact hf
  | wake pane => exact hf.wake pane
  | drain now => exact hf.drain now

lemma facts_run (calls : List DrainCall) : (run calls).Facts := by
  induction calls using List.reverseRecOn with
  | nil =>
    intro id pane hpane
    simp [run] at hpane
  | append_singleton calls call ih =>
    rw [run, List.foldl_append]
    exact ih.step call

def lateChild : List DrainCall :=
  .openPane ⟨24, 80⟩ none (some ⟨"t"⟩) none 0 :: (List.replicate 63 (.queue 1 (.output [])) ++
    [.queue 1 .exited, .queue 1 .childExited, .drain 1, .drain 2])

/-- The end of the master does not count against the budget, and ends its pass with the child's
death still queued. -/
theorem end_of_master_is_not_counted :
    (¬ ∀ calls id, ((run calls).history id).windowTaken.length ≤ perPaneDrainBudget) ∧
    ¬ ∀ calls id (pane : PtyPane), (run calls).backend.panes[id]? = some pane →
      pane.queue ≠ [] → ((run calls).backend.nextDeadline).isSome ∨
        0 < ((run calls).history id).owed ∨ (run calls).woken = true := by
  refine ⟨fun hclaim => ?_, fun hclaim => ?_⟩
  · exact absurd (hclaim lateChild 1) (by decide +kernel)
  · have hleft := hclaim [.openPane ⟨24, 80⟩ none (some ⟨"t"⟩) none 0, .queue 1 .exited,
      .queue 1 .childExited, .wake 1, .wake 1, .drain 1] 1
      { size := ⟨24, 80⟩, line := none, queue := [.childExited], exit := .reported
        window := some ⟨1, 0⟩ } (by decide) (by decide)
    exact absurd hleft (by decide)

/-- A pass stays within a pane's budget, reports its outputs in order and its exit once, after all
there was to report; and while the exit is unreported the pane comes back. -/
theorem draining_is_paced (calls : List DrainCall) (id : PaneId) (pane : PtyPane)
    (hpane : (run calls).backend.panes[id]? = some pane) :
    (∀ w, pane.window = some w → w.used ≤ perPaneDrainBudget) ∧
    counted ((run calls).history id).windowTaken ≤ perPaneDrainBudget ∧
    ((run calls).history id).queued = ((run calls).history id).taken ++ pane.queue ∧
    reportedOutputs ((run calls).history id).reports =
      outputsOf ((run calls).history id).taken ∧
    ((run calls).history id).reports.count .exited ≤ 1 ∧
    (∀ now, .exited ∈ reportsOf id ((run calls).backend.drainQueued [] true now).1 →
      (((run calls).step (.drain now)).history id).reports.getLast? = some .exited ∧
      ∃ pane', ((run calls).step (.drain now)).backend.panes[id]? = some pane' ∧
        (pane'.queue = [] ∨
          (((run calls).step (.drain now)).history id).taken.getLast? = some .exited)) ∧
    (pane.exit ≠ .reported → (pane.queue ≠ [] ∨ ∃ since, pane.exit = .draining since) →
      (∃ next, (run calls).backend.nextDeadline = some next ∧
          ∃ deadline ∈ pane.deadlines, next ≤ deadline) ∨
        (∀ w, pane.window = some w → w.used < perPaneDrainBudget) ∧
          (0 < ((run calls).history id).owed ∨ (run calls).woken = true)) := by
  have hf := facts_run calls id pane hpane
  refine ⟨fun w hw => (hf.window w hw).2, ?_, hf.queued, hf.outputs, hf.once, fun now hexit => ?_,
    fun hlive hleft => ?_⟩
  · cases hw : pane.window with
    | none =>
      rw [hf.noWindow hw]
      exact Nat.zero_le _
    | some w => exact (hf.window w hw).1 ▸ (hf.window w hw).2
  · obtain ⟨batch, hpass⟩ := drainPane_spec (hf.windowAt_used now).2
    rw [PtyBackend.reportsOf_drainQueued hpane] at hexit
    have hhistory := (run calls).drainedHistory_eq now hpane hpass
    have hafter := (PtyBackend.panes_drainQueued (run calls).backend [] true now id).trans
      (congrArg (Option.map _) hpane)
    obtain ⟨-, -, ⟨outputs, hreports, -⟩, hlast⟩ := hpass.exit.resolve_left fun h => h.1 hexit
    refine ⟨?_, _, hafter, hlast.imp (fun h => h) fun h => ?_⟩
    · simp only [step, hhistory]
      rw [hreports, ← List.append_assoc, List.getLast?_concat]
    · simp only [step, hhistory]
      rw [List.getLast?_append, h]
      rfl
  · by_cases hspent : ∃ w, pane.window = some w ∧ perPaneDrainBudget ≤ w.used
    · obtain ⟨w, hw, hfull⟩ := hspent
      have hd : w.stop ∈ pane.deadlines := by
        simp [PtyPane.deadlines, hw, hfull]
      exact .inl (PtyBackend.nextDeadline_le hpane hd)
    · rcases hleft with hqueue | ⟨since, hsince⟩
      · refine .inr ⟨fun w hw => ?_, (hf.due hlive hqueue).resolve_left hspent⟩
        by_contra hfull
        exact hspent ⟨w, hw, not_lt.mp hfull⟩
      · have hd : since + exitDrainGrace ∈ pane.deadlines := by
          simp [PtyPane.deadlines, hsince]
        exact .inl (PtyBackend.nextDeadline_le hpane hd)

theorem one_output_then_exit :
    let calls : List DrainCall := [.openPane ⟨24, 80⟩ none (some ⟨"t"⟩) none 0,
      .queue 1 (.output [7]), .queue 1 .exited, .wake 1, .drain 1]
    ((run calls).history 1).reports.count .exited ≤ 1 ∧
      reportedOutputs ((run calls).history 1).reports = [[7]] := by
  intro calls
  obtain ⟨-, -, -, houtputs, honce, -⟩ := draining_is_paced calls 1
    { size := ⟨24, 80⟩, line := none, queue := [], exit := .reported, window := some ⟨1, 1⟩ }
    (by decide)
  exact ⟨honce, houtputs.trans (by decide)⟩

end DrainRun

end Nightcrow.Backend
