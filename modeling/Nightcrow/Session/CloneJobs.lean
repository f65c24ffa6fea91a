import Mathlib.Data.List.Sort
import Mathlib.Data.List.Nodup
import Mathlib.Logic.Function.Basic
import Mathlib.Tactic.Linarith

namespace Nightcrow.Session

def maxRetainedJobs : ℕ := 32

inductive CloneJobState
  | running
  | done (path : String)
  | failed (message : String)
deriving DecidableEq, Repr

inductive CloneLookup
  | idle
  | found (job : ℕ) (state : CloneJobState)
  | unknown (job : ℕ)
deriving DecidableEq, Repr

structure CloneJobs where
  -- a `u64` of the source: clones one after another do not come to its end, so it never wraps here
  nextId : ℕ := 0
  jobs : List (ℕ × CloneJobState) := []
deriving DecidableEq, Repr

namespace CloneJobs

def isFinished (e : ℕ × CloneJobState) : Bool := e.2 ≠ .running

def finished (jobs : List (ℕ × CloneJobState)) : List ℕ :=
  ((jobs.filter isFinished).map Prod.fst).mergeSort

def evict (jobs : List (ℕ × CloneJobState)) : List (ℕ × CloneJobState) :=
  if maxRetainedJobs ≤ jobs.length then
    let gone := (finished jobs).take (jobs.length - maxRetainedJobs / 2)
    jobs.filter fun e => e.1 ∉ gone
  else jobs

def tryStart (j : CloneJobs) : Option ℕ × CloneJobs :=
  if j.jobs.any fun e => e.2 = .running then (none, j)
  else
    let id := j.nextId + 1
    (some id, { nextId := id, jobs := evict j.jobs ++ [(id, .running)] })

def finish (j : CloneJobs) (id : ℕ) (state : CloneJobState) : CloneJobs :=
  { j with jobs := j.jobs.map fun e => if e.1 = id then (id, state) else e }

def lookup (j : CloneJobs) : Option ℕ → CloneLookup
  | some id =>
    match j.jobs.find? fun e => e.1 = id with
    | some e => .found id e.2
    | none => .unknown id
  | none =>
    match j.jobs.find? fun e => e.2 = .running with
    | some e => .found e.1 e.2
    | none => .idle

def ids (j : CloneJobs) : List ℕ := j.jobs.map Prod.fst

variable {jobs older : List (ℕ × CloneJobState)} {j : CloneJobs} {id : ℕ} {state : CloneJobState}

lemma finished_of_sorted (h : (jobs.map Prod.fst).Pairwise (· < ·)) :
    finished jobs = (jobs.filter isFinished).map Prod.fst := by
  have hsub : ((jobs.filter isFinished).map Prod.fst).Sublist (jobs.map Prod.fst) :=
    List.filter_sublist.map Prod.fst
  have hle : ((jobs.filter isFinished).map Prod.fst).Pairwise (· ≤ ·) :=
    (h.sublist hsub).imp Nat.le_of_lt
  exact List.mergeSort_of_pairwise (hle.imp fun h => by simpa using h)

lemma filter_not_mem_take (h : (jobs.map Prod.fst).Nodup) (k : ℕ) :
    jobs.filter (fun e => e.1 ∉ (jobs.map Prod.fst).take k) = jobs.drop k := by
  have hgone : (jobs.take k).filter (fun e => e.1 ∉ (jobs.map Prod.fst).take k) = [] := by
    rw [List.filter_eq_nil_iff]
    intro e he
    have hk := List.mem_map_of_mem (f := Prod.fst) he
    rw [List.map_take] at hk
    simpa using hk
  have hkept : (jobs.drop k).filter (fun e => e.1 ∉ (jobs.map Prod.fst).take k) =
      jobs.drop k := by
    rw [List.filter_eq_self]
    intro e he
    have hk := List.mem_map_of_mem (f := Prod.fst) he
    rw [List.map_drop] at hk
    have hd := List.disjoint_take_drop h (le_refl k)
    simpa using fun ht => hd ht hk
  conv_lhs => rw [← List.take_append_drop k jobs, List.filter_append]
  simp only [List.take_append_drop]
  rw [hgone, hkept, List.nil_append]

lemma evict_of_finished (hall : ∀ e ∈ jobs, isFinished e)
    (h : (jobs.map Prod.fst).Pairwise (· < ·)) :
    evict jobs = jobs.drop
      (if maxRetainedJobs ≤ jobs.length then jobs.length - maxRetainedJobs / 2 else 0) := by
  have hf : finished jobs = jobs.map Prod.fst := by
    rw [finished_of_sorted h, List.filter_eq_self.mpr hall]
  rw [evict, hf]
  split_ifs with hlen
  · exact filter_not_mem_take (h.imp Nat.ne_of_lt) _
  · rfl

lemma length_finished : (finished jobs).length = jobs.countP isFinished := by
  rw [finished, List.length_mergeSort, List.length_map, List.countP_eq_length_filter]

lemma any_running : (jobs.any fun e => e.2 = .running) = true ↔ ∃ e ∈ jobs, ¬ isFinished e := by
  simp [isFinished]

end CloneJobs

def createDestinationMessage : String := "could not create the destination"

def startWorkerMessage : String := "could not start the clone"

def recorded : Except String String → CloneJobState
  | .ok path => .done path
  | .error message => .failed message

/-- A step of the callers of the registry. A `start` that passed its checks takes an id, and then
fails to create the destination, or to spawn a worker, or spawns the one that runs the clone. -/
inductive CloneCall
  | tryStart
  | createFails (id : ℕ)
  | spawnFails (id : ℕ)
  | spawns (id : ℕ)
  | runAndRecord (id : ℕ) (result : Except String String)
  | lookup (job : Option ℕ)

/-- The registry beside the ids that a `start` or a worker holds, the ids handed out so far, and
the first state recorded for each. -/
structure CloneService where
  registry : CloneJobs := {}
  starting : List ℕ := []
  workers : List ℕ := []
  issued : List ℕ := []
  outcome : ℕ → Option CloneJobState := fun _ => none

namespace CloneService

open CloneJobs

def held (s : CloneService) : List ℕ := s.starting ++ s.workers

def record (s : CloneService) (id : ℕ) (state : CloneJobState) : CloneService :=
  { s with
    registry := s.registry.finish id state
    starting := s.starting.erase id
    workers := s.workers.erase id
    outcome := Function.update s.outcome id (some ((s.outcome id).getD state)) }

def step (s : CloneService) : CloneCall → CloneService
  | .tryStart =>
    match s.registry.tryStart with
    | (none, _) => s
    | (some id, registry) =>
      { s with registry, starting := s.starting ++ [id], issued := s.issued ++ [id] }
  | .createFails id =>
    if id ∈ s.starting then s.record id (.failed createDestinationMessage) else s
  | .spawnFails id => if id ∈ s.starting then s.record id (.failed startWorkerMessage) else s
  | .spawns id =>
    if id ∈ s.starting then
      { s with starting := s.starting.erase id, workers := s.workers ++ [id] }
    else s
  | .runAndRecord id result => if id ∈ s.workers then s.record id (recorded result) else s
  | .lookup _ => s

def run (calls : List CloneCall) : CloneService := calls.foldl step {}

def evicted (s : CloneService) : ℕ := s.issued.length - s.registry.jobs.length

structure Ordered (s : CloneService) : Prop where
  issued : s.issued = List.range' 1 s.registry.nextId
  ids : s.registry.ids = s.issued.drop s.evicted
  bound : s.registry.jobs.length ≤ maxRetainedJobs
  kept : s.evicted = 0 ∨ maxRetainedJobs / 2 ≤ (finished s.registry.jobs).length
  state : ∀ e ∈ s.registry.jobs, e.2 = (s.outcome e.1).getD .running
  final : ∀ id state, s.outcome id = some state → id ∈ s.issued ∧ state ≠ .running
  pending : ∀ id ∈ s.issued, s.outcome id = none → id ∈ s.held
  slot : (s.held = [] ∧ ∀ e ∈ s.registry.jobs, isFinished e) ∨
    ∃ older id, s.registry.jobs = older ++ [(id, .running)] ∧ s.held = [id] ∧
      ∀ e ∈ older, isFinished e

lemma recorded_ne_running (result : Except String String) : recorded result ≠ .running := by
  cases result <;> simp [recorded]

namespace Ordered

variable {s : CloneService}

lemma sorted (h : s.Ordered) : (s.registry.jobs.map Prod.fst).Pairwise (· < ·) := by
  have hids := h.ids
  rw [h.issued] at hids
  change s.registry.ids.Pairwise (· < ·)
  rw [hids]
  exact (@List.pairwise_lt_range' 1 s.registry.nextId 1 Nat.one_pos).sublist (List.drop_sublist _ _)

lemma evicted_add (h : s.Ordered) : s.evicted + s.registry.jobs.length = s.issued.length := by
  have hl := congrArg List.length h.ids
  simp only [CloneJobs.ids, List.length_map, List.length_drop, evicted] at hl ⊢
  omega

lemma outcome_next (h : s.Ordered) : s.outcome (s.registry.nextId + 1) = none := by
  cases ho : s.outcome (s.registry.nextId + 1) with
  | none => rfl
  | some state =>
    have hmem := (h.final _ _ ho).1
    rw [h.issued, List.mem_range'_1] at hmem
    omega

lemma tryStart_free (h : s.Ordered) (hfree : ∀ e ∈ s.registry.jobs, isFinished e) :
    s.registry.tryStart = (some (s.registry.nextId + 1),
      { nextId := s.registry.nextId + 1
        jobs := s.registry.jobs.drop
          (if maxRetainedJobs ≤ s.registry.jobs.length then
            s.registry.jobs.length - maxRetainedJobs / 2 else 0) ++
            [(s.registry.nextId + 1, .running)] }) := by
  have hany : ¬ (s.registry.jobs.any fun e => e.2 = .running) = true := by
    rw [any_running]
    rintro ⟨e, he, hnot⟩
    exact hnot (hfree e he)
  rw [tryStart, if_neg hany, evict_of_finished hfree h.sorted]

lemma tryStart_busy {older : List (ℕ × CloneJobState)} {id : ℕ}
    (hjobs : s.registry.jobs = older ++ [(id, .running)]) :
    s.registry.tryStart = (none, s.registry) := by
  rw [tryStart, if_pos]
  rw [any_running, hjobs]
  exact ⟨(id, .running), by simp, by simp [isFinished]⟩

lemma started_free (h : s.Ordered) (hfree : ∀ e ∈ s.registry.jobs, isFinished e) :
    ∃ m, s.step .tryStart =
      { s with
        registry :=
          { nextId := s.registry.nextId + 1
            jobs := s.registry.jobs.drop m ++ [(s.registry.nextId + 1, .running)] }
        starting := s.starting ++ [s.registry.nextId + 1]
        issued := s.issued ++ [s.registry.nextId + 1] } ∧
      (s.step .tryStart).evicted = s.evicted + m ∧
      (m = 0 ∧ s.registry.jobs.length < maxRetainedJobs ∨
        m = maxRetainedJobs / 2 ∧ s.registry.jobs.length = maxRetainedJobs) := by
  have hadd := h.evicted_add
  have hbound := h.bound
  rw [CloneService.step, h.tryStart_free hfree]
  generalize hm : (if maxRetainedJobs ≤ s.registry.jobs.length then
    s.registry.jobs.length - maxRetainedJobs / 2 else 0) = m
  have hm' : m = 0 ∧ s.registry.jobs.length < maxRetainedJobs ∨
      m = maxRetainedJobs / 2 ∧ s.registry.jobs.length = maxRetainedJobs := by
    rcases Nat.lt_or_ge s.registry.jobs.length maxRetainedJobs with hlt | hge
    · rw [if_neg (not_le.mpr hlt)] at hm
      exact .inl ⟨hm.symm, hlt⟩
    · rw [if_pos hge, le_antisymm hbound hge] at hm
      exact .inr ⟨hm.symm, le_antisymm hbound hge⟩
  refine ⟨m, rfl, ?_, hm'⟩
  simp only [evicted, List.length_append, List.length_drop, List.length_singleton,
    maxRetainedJobs] at hadd hm' ⊢
  omega

lemma started (h : s.Ordered) : (s.step .tryStart).Ordered := by
  rcases h.slot with ⟨hheld, hfree⟩ | ⟨older, id, hjobs, -, -⟩
  swap
  · rw [CloneService.step, tryStart_busy hjobs]
    exact h
  obtain ⟨m, hstep, hevicted, hm'⟩ := h.started_free hfree
  have hadd := h.evicted_add
  have hle : m ≤ s.registry.jobs.length := by
    simp only [maxRetainedJobs] at hm'
    omega
  rw [hstep] at hevicted ⊢
  refine ⟨?_, ?_, ?_, ?_, ?_, ?_, ?_, ?_⟩
  · simp only
    rw [h.issued, List.range'_concat]
    simp [Nat.add_comm]
  · rw [hevicted]
    have hids := h.ids
    simp only [CloneJobs.ids, List.map_append, List.map_drop] at hids ⊢
    rw [hids, List.drop_drop, List.drop_append_of_le_length (by omega)]
    rfl
  · simp only [List.length_append, List.length_drop, List.length_singleton]
    simp only [maxRetainedJobs] at hm' ⊢
    omega
  · rw [hevicted, length_finished, List.countP_append]
    rcases hm' with ⟨rfl, -⟩ | ⟨rfl, hfull⟩
    · rw [List.drop_zero, Nat.add_zero]
      have hkept := h.kept
      rw [length_finished] at hkept
      exact hkept.imp (fun h0 => h0) (le_trans · (Nat.le_add_right _ _))
    · refine .inr (le_trans ?_ (Nat.le_add_right _ _))
      have hall : ∀ e ∈ s.registry.jobs.drop (maxRetainedJobs / 2), isFinished e :=
        fun e he => hfree e (List.mem_of_mem_drop he)
      rw [List.countP_eq_length.mpr hall, List.length_drop, hfull]
      decide
  · intro e he
    rcases List.mem_append.mp he with he | he
    · exact h.state e (List.mem_of_mem_drop he)
    · obtain rfl := List.mem_singleton.mp he
      simp only
      rw [h.outcome_next]
      rfl
  · intro id state ho
    obtain ⟨hid, hstate⟩ := h.final id state ho
    exact ⟨List.mem_append_left _ hid, hstate⟩
  · intro i hi ho
    rcases List.mem_append.mp hi with hi | hi
    · have hmem := h.pending i hi ho
      rw [hheld] at hmem
      cases hmem
    · exact List.mem_append_left _ (List.mem_append_right _ hi)
  · refine .inr ⟨s.registry.jobs.drop m, s.registry.nextId + 1, rfl, ?_,
      fun e he => hfree e (List.mem_of_mem_drop he)⟩
    obtain ⟨hs, hw⟩ := List.append_eq_nil_iff.mp hheld
    rw [held]
    simp only [hs, hw, List.nil_append, List.append_nil]

lemma finish_last (h : s.Ordered) {older : List (ℕ × CloneJobState)} {id : ℕ}
    (hjobs : s.registry.jobs = older ++ [(id, .running)]) (state : CloneJobState) :
    s.registry.finish id state = { s.registry with jobs := older ++ [(id, state)] } := by
  have hsorted := h.sorted
  rw [hjobs, List.map_append, List.pairwise_append] at hsorted
  have hother : ∀ e ∈ older, e.1 ≠ id := fun e he =>
    Nat.ne_of_lt (hsorted.2.2 e.1 (List.mem_map_of_mem he) id (by simp))
  have holder : older.map (fun e => if e.1 = id then (id, state) else e) = older := by
    rw [List.map_congr_left (g := fun e => e) fun e he => if_neg (hother e he)]
    exact List.map_id' older
  rw [finish, hjobs, List.map_append, holder]
  simp

lemma recordedNext (h : s.Ordered) {id : ℕ} {state : CloneJobState} (hid : id ∈ s.held)
    (hstate : state ≠ .running) : (s.record id state).Ordered := by
  rcases h.slot with ⟨hheld, -⟩ | ⟨older, id', hjobs, hheld, hfinished⟩
  · rw [hheld] at hid
    cases hid
  obtain rfl : id = id' := by
    rw [hheld] at hid
    exact List.mem_singleton.mp hid
  have hfree : s.outcome id = none := by
    have hrunning := h.state (id, .running) (by simp [hjobs])
    cases ho : s.outcome id with
    | none => rfl
    | some state =>
      rw [ho] at hrunning
      exact absurd hrunning.symm (h.final id state ho).2
  have hsorted := h.sorted
  rw [hjobs, List.map_append, List.pairwise_append] at hsorted
  have hother : ∀ e ∈ older, e.1 ≠ id := fun e he =>
    Nat.ne_of_lt (hsorted.2.2 e.1 (List.mem_map_of_mem he) id (by simp))
  have hlen : (older ++ [(id, state)]).length = s.registry.jobs.length := by simp [hjobs]
  have hreg : (s.record id state).registry =
      { s.registry with jobs := older ++ [(id, state)] } := h.finish_last hjobs state
  have hevicted : (s.record id state).evicted = s.evicted := by
    rw [evicted, hreg, evicted, ← hlen]
    rfl
  have hout : ∀ i, (s.record id state).outcome i =
      if i = id then some state else s.outcome i := by
    intro i
    simp only [record, hfree, Function.update_apply, Option.getD_none]
  have hissued : (s.record id state).issued = s.issued := rfl
  refine ⟨?_, ?_, ?_, ?_, ?_, ?_, ?_, ?_⟩
  · rw [hreg, hissued]
    exact h.issued
  · rw [hevicted, hissued, ← h.ids, hreg]
    simp [CloneJobs.ids, hjobs]
  · rw [hreg]
    exact hlen ▸ h.bound
  · rw [hevicted, hreg, length_finished, List.countP_append]
    have hkept := h.kept
    rw [length_finished, hjobs, List.countP_append] at hkept
    refine hkept.imp (fun h0 => h0) fun hk => le_trans hk (Nat.add_le_add_left ?_ _)
    simp [isFinished]
  · intro e he
    rw [hreg] at he
    rw [hout]
    rcases List.mem_append.mp he with he | he
    · rw [if_neg (hother e he)]
      exact h.state e (by simp [hjobs, he])
    · obtain rfl := List.mem_singleton.mp he
      simp
  · intro i st ho
    rw [hout] at ho
    split_ifs at ho with hi
    · subst hi
      refine ⟨?_, Option.some.inj ho ▸ hstate⟩
      have hmem : i ∈ s.registry.ids := by simp [CloneJobs.ids, hjobs]
      rw [h.ids] at hmem
      exact List.mem_of_mem_drop hmem
    · exact h.final i st ho
  · intro i hi ho
    rw [hout] at ho
    split_ifs at ho with hne
    have hmem := h.pending i hi ho
    rw [hheld, List.mem_singleton] at hmem
    exact absurd hmem hne
  · refine .inl ⟨?_, ?_⟩
    · rcases List.append_eq_singleton_iff.mp hheld with ⟨hs, hw⟩ | ⟨hs, hw⟩ <;>
        simp [held, record, hs, hw]
    · intro e he
      rw [hreg] at he
      rcases List.mem_append.mp he with he | he
      · exact hfinished e he
      · obtain rfl := List.mem_singleton.mp he
        simpa [isFinished] using hstate

lemma spawned (h : s.Ordered) {id : ℕ} (hid : id ∈ s.starting) : CloneService.Ordered
    { s with starting := s.starting.erase id, workers := s.workers ++ [id] } := by
  have hheld : ∀ i ∈ s.held, i ∈ s.starting.erase id ++ (s.workers ++ [id]) := by
    intro i hi
    rcases List.mem_append.mp hi with hi | hi
    · by_cases hii : i = id
      · exact List.mem_append_right _ (List.mem_append_right _ (by simp [hii]))
      · exact List.mem_append_left _ ((List.mem_erase_of_ne hii).mpr hi)
    · exact List.mem_append_right _ (List.mem_append_left _ hi)
  refine ⟨h.issued, h.ids, h.bound, h.kept, h.state, h.final,
    fun i hi ho => hheld i (h.pending i hi ho), ?_⟩
  refine h.slot.imp ?_ ?_
  · rintro ⟨hheld, -⟩
    rw [(List.append_eq_nil_iff.mp hheld).1] at hid
    cases hid
  · rintro ⟨older, id', hjobs, hheld, hfinished⟩
    refine ⟨older, id', hjobs, ?_, hfinished⟩
    rcases List.append_eq_singleton_iff.mp hheld with ⟨hs, hw⟩ | ⟨hs, hw⟩
    · rw [hs] at hid
      cases hid
    · rw [hs, List.mem_singleton] at hid
      simp [held, hs, hw, hid]

lemma step (h : s.Ordered) (call : CloneCall) : (s.step call).Ordered := by
  cases call with
  | tryStart => exact h.started
  | createFails id =>
    rw [CloneService.step]
    split_ifs with hid
    · exact h.recordedNext (List.mem_append_left _ hid) (by simp)
    · exact h
  | spawnFails id =>
    rw [CloneService.step]
    split_ifs with hid
    · exact h.recordedNext (List.mem_append_left _ hid) (by simp)
    · exact h
  | spawns id =>
    rw [CloneService.step]
    split_ifs with hid
    · exact h.spawned hid
    · exact h
  | runAndRecord id result =>
    rw [CloneService.step]
    split_ifs with hid
    · exact h.recordedNext (List.mem_append_right _ hid) (recorded_ne_running result)
    · exact h
  | lookup job => exact h

lemma run (calls : List CloneCall) : (CloneService.run calls).Ordered := by
  have hempty : CloneService.Ordered {} :=
    ⟨rfl, rfl, by decide, .inl rfl, by simp, by simp, by simp, .inl ⟨rfl, by simp⟩⟩
  have hfold : ∀ s : CloneService, s.Ordered → (calls.foldl CloneService.step s).Ordered := by
    induction calls with
    | nil => exact fun s hs => hs
    | cons call calls ih => exact fun s hs => ih (s.step call) (hs.step call)
  exact hfold {} hempty

end Ordered

lemma Ordered.lookup_some {s : CloneService} (h : s.Ordered) (id : ℕ) :
    (id ∈ s.registry.ids ∧
      s.registry.lookup (some id) = .found id ((s.outcome id).getD .running)) ∨
    id ∉ s.registry.ids ∧ s.registry.lookup (some id) = .unknown id := by
  cases hf : s.registry.jobs.find? fun e => e.1 = id with
  | some e =>
    have hid : e.1 = id := by simpa using List.find?_some hf
    have hmem := List.mem_of_find?_eq_some hf
    refine .inl ⟨List.mem_map.mpr ⟨e, hmem, hid⟩, ?_⟩
    simp only [lookup, hf]
    rw [h.state e hmem, hid]
  | none =>
    refine .inr ⟨?_, by simp only [lookup, hf]⟩
    intro hmem
    obtain ⟨e, he, hid⟩ := List.mem_map.mp hmem
    exact (List.find?_eq_none.mp hf) e he (by simpa using hid)

lemma Ordered.lookup_none {s : CloneService} (h : s.Ordered) :
    (s.registry.lookup none = .idle ∧ ∀ e ∈ s.registry.jobs, e.2 ≠ .running) ∨
    ∃ id, s.registry.lookup none = .found id .running ∧
      ∀ e ∈ s.registry.jobs, e.2 = .running ↔ e = (id, .running) := by
  rcases h.slot with ⟨-, hfree⟩ | ⟨older, id, hjobs, -, hfinished⟩
  · have hnone : (s.registry.jobs.find? fun e => e.2 = .running) = none := by
      rw [List.find?_eq_none]
      intro e he
      simpa [isFinished] using hfree e he
    refine .inl ⟨by simp only [lookup, hnone], ?_⟩
    intro e he
    simpa [isFinished] using hfree e he
  · have hskip : (older.find? fun e => e.2 = .running) = none := by
      rw [List.find?_eq_none]
      intro e he
      simpa [isFinished] using hfinished e he
    have hfound : (s.registry.jobs.find? fun e => e.2 = .running) = some (id, .running) := by
      rw [hjobs, List.find?_append, hskip]
      rfl
    refine .inr ⟨id, by simp only [lookup, hfound], ?_⟩
    intro e he
    rw [hjobs] at he
    rcases List.mem_append.mp he with he | he
    · have hne : e.2 ≠ .running := by simpa [isFinished] using hfinished e he
      exact ⟨fun hr => absurd hr hne, fun hr => absurd (congrArg Prod.snd hr) hne⟩
    · obtain rfl := List.mem_singleton.mp he
      simp

lemma Ordered.evicted_step {s : CloneService} (h : s.Ordered) (call : CloneCall) :
    (s.step call).evicted = s.evicted ∨
    (s.step call).evicted = s.evicted + maxRetainedJobs / 2 ∧
      (∀ e ∈ s.registry.jobs, isFinished e) ∧ s.registry.jobs.length = maxRetainedJobs := by
  have hrecord : ∀ id state, (s.record id state).evicted = s.evicted := by
    intro id state
    simp [evicted, record, finish]
  cases call with
  | tryStart =>
    rcases h.slot with ⟨-, hfree⟩ | ⟨older, id, hjobs, -, -⟩
    · obtain ⟨m, -, hevicted, ⟨rfl, -⟩ | ⟨rfl, hfull⟩⟩ := h.started_free hfree
      · exact .inl hevicted
      · exact .inr ⟨hevicted, hfree, hfull⟩
    · left
      rw [CloneService.step, tryStart_busy hjobs]
  | createFails id =>
    left
    rw [CloneService.step]
    split_ifs
    · exact hrecord id _
    · rfl
  | spawnFails id =>
    left
    rw [CloneService.step]
    split_ifs
    · exact hrecord id _
    · rfl
  | spawns id =>
    left
    rw [CloneService.step]
    split_ifs <;> rfl
  | runAndRecord id result =>
    left
    rw [CloneService.step]
    split_ifs
    · exact hrecord id _
    · rfl
  | lookup job => exact .inl rfl

lemma outcome_step {s : CloneService} {id : ℕ} {state : CloneJobState}
    (h : s.outcome id = some state) (call : CloneCall) : (s.step call).outcome id = some state := by
  have hrecord : ∀ i st, (s.record i st).outcome id = some state := by
    intro i st
    rw [record]
    by_cases hi : id = i
    · subst hi
      simp [h]
    · simpa [Function.update_of_ne hi] using h
  cases call with
  | tryStart =>
    rw [CloneService.step]
    rcases s.registry.tryStart with ⟨_ | i, registry⟩ <;> exact h
  | createFails i =>
    rw [CloneService.step]
    split_ifs
    exacts [hrecord i _, h]
  | spawnFails i =>
    rw [CloneService.step]
    split_ifs
    exacts [hrecord i _, h]
  | spawns i =>
    rw [CloneService.step]
    split_ifs <;> exact h
  | runAndRecord i result =>
    rw [CloneService.step]
    split_ifs
    exacts [hrecord i _, h]
  | lookup job => exact h

/-- One clone at a time; ids go up; what is running is found; what finished is found with its
first outcome, unless it is among the oldest, which go when the registry is full. -/
theorem one_clone_at_a_time (calls : List CloneCall) :
    (run calls).registry.jobs.countP (fun e => e.2 = .running) ≤ 1 ∧
    (run calls).issued.Pairwise (· < ·) ∧
    (run calls).registry.jobs.length ≤ maxRetainedJobs ∧
    (∀ id ∈ (run calls).issued, (run calls).outcome id = none →
      (run calls).registry.lookup (some id) = .found id .running) ∧
    (∀ id state, (run calls).outcome id = some state →
      state ≠ .running ∧
      (∀ call, ((run calls).step call).outcome id = some state) ∧
      ((run calls).registry.lookup (some id) = .found id state ∨
        (run calls).registry.lookup (some id) = .unknown id ∧
          id ∈ (run calls).issued.take (run calls).evicted)) ∧
    (run calls).registry.ids = (run calls).issued.drop (run calls).evicted ∧
    (∀ call, ((run calls).step call).evicted = (run calls).evicted ∨
      ((run calls).step call).evicted = (run calls).evicted + maxRetainedJobs / 2 ∧
        (∀ e ∈ (run calls).registry.jobs, isFinished e) ∧
        (run calls).registry.jobs.length = maxRetainedJobs) ∧
    ((run calls).evicted = 0 ∨
      maxRetainedJobs / 2 ≤ (finished (run calls).registry.jobs).length) ∧
    ((run calls).registry.lookup none = .idle ∧
        (∀ e ∈ (run calls).registry.jobs, e.2 ≠ .running) ∨
      ∃ id, (run calls).registry.lookup none = .found id .running ∧
        ∀ e ∈ (run calls).registry.jobs, e.2 = .running ↔ e = (id, .running)) := by
  have h := Ordered.run calls
  have hissued := h.issued
  refine ⟨?_, ?_, h.bound, ?_, ?_, h.ids, h.evicted_step, h.kept, h.lookup_none⟩
  · rcases h.slot with ⟨-, hfree⟩ | ⟨older, id, hjobs, -, hfinished⟩
    · rw [List.countP_eq_zero.mpr fun e he => by simpa [isFinished] using hfree e he]
      exact Nat.zero_le 1
    · rw [hjobs, List.countP_append, List.countP_eq_zero.mpr fun e he => by
        simpa [isFinished] using hfinished e he]
      simp
  · rw [hissued]
    exact @List.pairwise_lt_range' 1 _ 1 Nat.one_pos
  · intro id hid hnone
    have hheld := h.pending id hid hnone
    rcases h.slot with ⟨hempty, -⟩ | ⟨older, id', hjobs, hone, -⟩
    · rw [hempty] at hheld
      cases hheld
    · rw [hone, List.mem_singleton] at hheld
      subst hheld
      have hmem : id ∈ (run calls).registry.ids := by simp [CloneJobs.ids, hjobs]
      obtain ⟨-, hl⟩ := (h.lookup_some id).resolve_right fun hgone => hgone.1 hmem
      rw [hl, hnone]
      rfl
  · intro id state ho
    obtain ⟨hid, hstate⟩ := h.final id state ho
    refine ⟨hstate, fun call => outcome_step ho call, ?_⟩
    rcases h.lookup_some id with ⟨-, hl⟩ | ⟨hgone, hl⟩
    · left
      rw [hl, ho]
      rfl
    · refine .inr ⟨hl, ?_⟩
      rw [← List.take_append_drop (run calls).evicted (run calls).issued] at hid
      rw [h.ids] at hgone
      exact (List.mem_append.mp hid).resolve_right hgone

end CloneService

end Nightcrow.Session
