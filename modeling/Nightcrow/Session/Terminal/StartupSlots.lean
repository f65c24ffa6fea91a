import Nightcrow.Session.Terminal.Startup

/-! Where the startup batch is at any time, and the cap slots reserved for it. -/

namespace Nightcrow.Session.Terminal.Startup

open Nightcrow.Library

def Command.batch? : Command → Option ℕ
  | .createStartup _ _ reserved => some reserved
  | _ => none

namespace Claim

def Holds : Claim → Bool
  | .reopened => false
  | _ => true

def slots : Claim → ℕ
  | .reserved _ _ slots => slots
  | .refused slots => slots
  | _ => 0

end Claim

namespace Work

def Opens : Work → Bool
  | .starting .. | .freed .. | .opening .. | .finishing _ => true
  | _ => false

def slots : Work → ℕ
  | .starting _ _ held => held
  | .freed _ _ _ held _ => held
  | .opening _ _ _ held => held
  | .finishing held => held
  | _ => 0

end Work

namespace Hub

def batches (h : Hub) : List ℕ := h.commands.filterMap Command.batch?

def Unheld (h : Hub) : Prop := ∀ t c, h.claims t = some c → c.Holds = false

/-- Where the startup batch is: nowhere, with the one thread that claimed it, in the command
queue, with the worker, opened, or dropped by a worker that was stopped; but for the last, the
reserved slots are the ones held for it there. -/
inductive Batch (h : Hub) : Prop
  | unclaimed (started : h.started = false) (claims : h.Unheld) (batches : h.batches = [])
      (worker : h.worker.Opens = false) (reserved : h.shared.reserved = 0) (handed : h.handed = 0)
  | claimed (thread : ℕ) (claim : Claim) (started : h.started = true)
      (holder : h.claims thread = some claim) (holds : claim.Holds = true)
      (others : ∀ t c, t ≠ thread → h.claims t = some c → c.Holds = false)
      (batches : h.batches = []) (worker : h.worker.Opens = false)
      (reserved : h.shared.reserved = claim.slots) (handed : h.handed = 0)
  | queued (slots : ℕ) (started : h.started = true) (claims : h.Unheld)
      (batches : h.batches = [slots]) (worker : h.worker.Opens = false)
      (reserved : h.shared.reserved = slots) (handed : h.handed = 1)
  | worked (started : h.started = true) (claims : h.Unheld) (batches : h.batches = [])
      (worker : h.worker.Opens = true) (reserved : h.shared.reserved = h.worker.slots)
      (handed : h.handed = 1)
  | spent (started : h.started = true) (claims : h.Unheld) (batches : h.batches = [])
      (worker : h.worker.Opens = false) (reserved : h.shared.reserved = 0) (handed : h.handed = 1)
  | dropped (started : h.started = true) (claims : h.Unheld) (batches : h.batches = [])
      (worker : h.worker.Opens = false) (handed : h.handed = 1)

structure Capped (h : Hub) : Prop where
  total : h.shared.panes.length + h.shared.reserved ≤ maxPtysPerRepo
  spent : ∀ pane rest client held, h.worker = .freed pane rest client held true →
    h.shared.panes.length + h.shared.reserved < maxPtysPerRepo
  unspent : ∀ pane rest client held, h.worker = .freed pane rest client held false → held = 0
  opening : ∀ pane rest client held, h.worker = .opening pane rest client held →
    h.shared.panes.length + h.shared.reserved < maxPtysPerRepo
  refused : h.refused = 0

variable {config : Config} {h t : Hub}

lemma Batch.frame (hb : h.Batch) (h1 : t.started = h.started) (h2 : t.claims = h.claims)
    (h3 : t.batches = h.batches) (h4 : t.worker.Opens = h.worker.Opens)
    (h5 : t.worker.slots = h.worker.slots) (h6 : t.shared.reserved = h.shared.reserved)
    (h7 : t.handed = h.handed) : t.Batch := by
  have hu : t.Unheld ↔ h.Unheld := by rw [Unheld, h2, Unheld]
  cases hb with
  | unclaimed a b c d e f =>
    exact .unclaimed (h1 ▸ a) (hu.mpr b) (h3 ▸ c) (h4 ▸ d) (h6 ▸ e) (h7 ▸ f)
  | claimed u claim a b c d e f g i =>
    exact .claimed u claim (h1 ▸ a) (h2 ▸ b) c (h2 ▸ d) (h3 ▸ e) (h4 ▸ f) (h6 ▸ g) (h7 ▸ i)
  | queued k a b c d e f =>
    exact .queued k (h1 ▸ a) (hu.mpr b) (h3 ▸ c) (h4 ▸ d) (h6 ▸ e) (h7 ▸ f)
  | worked a b c d e f =>
    exact .worked (h1 ▸ a) (hu.mpr b) (h3 ▸ c) (h4 ▸ d) (by rw [h6, h5, e]) (h7 ▸ f)
  | spent a b c d e f =>
    exact .spent (h1 ▸ a) (hu.mpr b) (h3 ▸ c) (h4 ▸ d) (h6 ▸ e) (h7 ▸ f)
  | dropped a b c d f => exact .dropped (h1 ▸ a) (hu.mpr b) (h3 ▸ c) (h4 ▸ d) (h7 ▸ f)

lemma Capped.frame (hc : h.Capped) (h1 : t.worker = h.worker)
    (h2 : t.shared.panes.length + t.shared.reserved ≤ h.shared.panes.length + h.shared.reserved)
    (h3 : t.refused = h.refused) : t.Capped :=
  ⟨h2.trans hc.total, fun p r c k hw => h2.trans_lt (hc.spent p r c k (h1 ▸ hw)),
    fun p r c k hw => hc.unspent p r c k (h1 ▸ hw),
    fun p r c k hw => h2.trans_lt (hc.opening p r c k (h1 ▸ hw)), h3.trans hc.refused⟩

lemma Capped.outside (ht : t.shared.panes.length + t.shared.reserved ≤ maxPtysPerRepo)
    (hw : ∀ pane rest client held spent, t.worker ≠ .freed pane rest client held spent)
    (ho : ∀ pane rest client held, t.worker ≠ .opening pane rest client held)
    (hr : t.refused = 0) : t.Capped :=
  ⟨ht, fun p r c k h => absurd h (hw p r c k true), fun p r c k h => absurd h (hw p r c k false),
    fun p r c k h => absurd h (ho p r c k), hr⟩

structure Undisturbed (h t : Hub) : Prop where
  started : t.started = h.started
  claims : t.claims = h.claims
  batches : t.batches = h.batches
  worker : t.worker = h.worker
  reserved : t.shared.reserved = h.shared.reserved
  handed : t.handed = h.handed
  panes : t.shared.panes.length ≤ h.shared.panes.length
  refused : t.refused = h.refused

lemma Undisturbed.batch (hu : h.Undisturbed t) (hb : h.Batch) : t.Batch :=
  hb.frame hu.started hu.claims hu.batches (by rw [hu.worker]) (by rw [hu.worker]) hu.reserved
    hu.handed

lemma Undisturbed.capped (hu : h.Undisturbed t) (hc : h.Capped) : t.Capped := by
  refine hc.frame hu.worker ?_ hu.refused
  have := hu.panes
  rw [hu.reserved]
  omega

lemma connection_undisturbed {l : Label} (ht : h.connection config l = some t) :
    h.Undisturbed t := by
  cases l with
  | connect c =>
    simp only [Hub.connection] at ht
    split at ht
    · exact Option.some.inj ht ▸ ⟨rfl, rfl, rfl, rfl, rfl, rfl, le_rfl, rfl⟩
    · cases ht
  | frame c =>
    simp only [Hub.connection] at ht
    split at ht
    · rename_i g _
      obtain ⟨hp, hr, -, -⟩ := Shared.SameHub.frameReplay h.shared g
      exact Option.some.inj ht ▸ 
        ⟨rfl, rfl, rfl, rfl, hr, rfl, (congrArg List.length hp).le, rfl⟩
    · cases ht
  | attach c k =>
    simp only [Hub.connection] at ht
    split at ht
    · obtain ⟨hp, hr, -, -⟩ := Shared.SameHub.releaseHeld h.shared c k
      exact Option.some.inj ht ▸ 
        ⟨rfl, rfl, rfl, rfl, hr, rfl, (congrArg List.length hp).le, rfl⟩
    · cases ht
  | check c =>
    simp only [Hub.connection] at ht
    split at ht
    · exact Option.some.inj ht ▸ ⟨rfl, rfl, rfl, rfl, rfl, rfl, le_rfl, rfl⟩
    · cases ht
  | offer c =>
    simp only [Hub.connection] at ht
    split at ht
    · exact Option.some.inj ht ▸ ⟨rfl, rfl, rfl, rfl, Shared.queueTo_reserved _ c, rfl,
        (congrArg List.length (Shared.queueTo_panes _ c)).le, rfl⟩
    · cases ht
  | disconnect c =>
    simp only [Hub.connection] at ht
    split at ht
    · exact Option.some.inj ht ▸ ⟨rfl, rfl, rfl, rfl, rfl, rfl, le_rfl, rfl⟩
    · cases ht
  | _ => cases ht

lemma traffic_undisturbed {l : Label} (ht : h.traffic l = some t) : h.Undisturbed t := by
  cases l with
  | submitCreate size client =>
    simp only [Hub.traffic] at ht
    split at ht
    · refine Option.some.inj ht ▸ ⟨rfl, rfl, ?_, rfl, rfl, rfl, le_rfl, rfl⟩
      simp [batches, Command.batch?]
    · cases ht
  | submitOther =>
    simp only [Hub.traffic] at ht
    split at ht
    · refine Option.some.inj ht ▸ ⟨rfl, rfl, ?_, rfl, rfl, rfl, le_rfl, rfl⟩
      simp [batches, Command.batch?]
    · cases ht
  | broadcast f => exact Option.some.inj ht ▸ ⟨rfl, rfl, rfl, rfl, rfl, rfl, le_rfl, rfl⟩
  | stop => exact Option.some.inj ht ▸ ⟨rfl, rfl, rfl, rfl, rfl, rfl, le_rfl, rfl⟩
  | send c f =>
    exact Option.some.inj ht ▸ ⟨rfl, rfl, rfl, rfl, Shared.queueTo_reserved f c, rfl,
      (congrArg List.length (Shared.queueTo_panes f c)).le, rfl⟩
  | offerFrame c f => exact Option.some.inj ht ▸ ⟨rfl, rfl, rfl, rfl, rfl, rfl, le_rfl, rfl⟩
  | recv c =>
    obtain ⟨r, -, rfl⟩ := Option.map_eq_some_iff.mp ht
    exact ⟨rfl, rfl, rfl, rfl, rfl, rfl, le_rfl, rfl⟩
  | _ => cases ht

lemma Batch.of_holds (hb : h.Batch) {thread : ℕ} {claim : Claim}
    (hc : h.claims thread = some claim) (hh : claim.Holds = true) :
    h.started = true ∧ (∀ u c, u ≠ thread → h.claims u = some c → c.Holds = false) ∧
      h.batches = [] ∧ h.worker.Opens = false ∧ h.shared.reserved = claim.slots ∧
      h.handed = 0 := by
  have hu : ¬ h.Unheld := fun hu => by simp [hu thread claim hc] at hh
  cases hb with
  | unclaimed _ b => exact absurd b hu
  | claimed u c a b _ d e f g i =>
    by_cases he : thread = u
    · subst he
      obtain rfl : c = claim := Option.some.inj (b.symm.trans hc)
      exact ⟨a, d, e, f, g, i⟩
    · simp [d thread claim he hc] at hh
  | queued _ _ b => exact absurd b hu
  | worked _ b => exact absurd b hu
  | spent _ b => exact absurd b hu
  | dropped _ b => exact absurd b hu

lemma Batch.of_opens (hb : h.Batch) (hw : h.worker.Opens = true) :
    h.started = true ∧ h.Unheld ∧ h.batches = [] ∧ h.shared.reserved = h.worker.slots ∧
      h.handed = 1 := by
  cases hb with
  | worked a b c _ e f => exact ⟨a, b, c, e, f⟩
  | unclaimed _ _ _ d => simp [d] at hw
  | claimed _ _ _ _ _ _ _ f => simp [f] at hw
  | queued _ _ _ _ d => simp [d] at hw
  | spent _ _ _ d => simp [d] at hw
  | dropped _ _ _ d => simp [d] at hw

lemma unheld_setClaim {thread : ℕ} {claim : Option Claim}
    (hn : ∀ u c, u ≠ thread → h.claims u = some c → c.Holds = false)
    (hc : ∀ c, claim = some c → c.Holds = false) : (h.setClaim thread claim).Unheld := by
  intro u c hu
  by_cases he : u = thread
  · subst he
    exact hc c (by simpa [setClaim] using hu)
  · exact hn u c he (by simpa [setClaim, he] using hu)

lemma others_setClaim {thread : ℕ} {claim : Option Claim}
    (hn : ∀ u c, u ≠ thread → h.claims u = some c → c.Holds = false) (u : ℕ) (c : Claim)
    (hu : u ≠ thread) (hc : (h.setClaim thread claim).claims u = some c) : c.Holds = false :=
  hn u c hu (by simpa [setClaim, hu] using hc)

lemma Capped.unopened (hc : h.Capped) (hw : h.worker.Opens = false) (hw' : t.worker = h.worker)
    (ht : t.shared.panes.length + t.shared.reserved ≤ maxPtysPerRepo)
    (hr : t.refused = h.refused) : t.Capped := by
  refine .outside ht ?_ ?_ (hr.trans hc.refused) <;> intros <;> intro he <;>
    simp [← hw', he, Work.Opens] at hw

lemma Batch.dropClaim (hb : h.Batch) {thread : ℕ} {claim : Claim}
    (hc : h.claims thread = some claim) (hh : claim.Holds = false) :
    (h.setClaim thread none).Batch := by
  have hu : h.Unheld → (h.setClaim thread none).Unheld := fun hu =>
    unheld_setClaim (fun u c _ hc => hu u c hc) (fun _ h => by cases h)
  cases hb with
  | unclaimed a b c d e f => exact .unclaimed a (hu b) c d e f
  | claimed u c a b hc' d e f g i =>
    have hne : u ≠ thread := by
      rintro rfl
      obtain rfl : claim = c := Option.some.inj (hc.symm.trans b)
      simp [hh] at hc'
    refine .claimed u c a ((Function.update_of_ne hne ..).trans b) hc' (fun v c' hv hcv => ?_) e f g i
    by_cases he : v = thread
    · subst he
      simp [setClaim] at hcv
    · exact d v c' hv (by simpa [setClaim, he] using hcv)
  | queued k a b c d e f => exact .queued k a (hu b) c d e f
  | worked a b c d e f => exact .worked a (hu b) c d e f
  | spent a b c d e f => exact .spent a (hu b) c d e f
  | dropped a b c d f => exact .dropped a (hu b) c d f

lemma Batch.claiming (hb : h.Batch) {l : Label} (ht : h.claiming config l = some t) :
    t.Batch := by
  cases l with
  | claim thread client sizes =>
    simp only [Hub.claiming] at ht
    split at ht
    · split at ht
      · exact Option.some.inj ht ▸ hb
      · rename_i hn hst
        obtain rfl := Option.some.inj ht
        cases hb with
        | unclaimed a b c d e f =>
          exact .claimed thread (.won client sizes) rfl (Function.update_self ..) rfl
            (others_setClaim (fun u c _ hc => b u c hc)) c d e f
        | claimed _ _ a => exact absurd a hst
        | queued _ a => exact absurd a hst
        | worked a => exact absurd a hst
        | spent a => exact absurd a hst
        | dropped a => exact absurd a hst
    · cases ht
  | reserve thread =>
    simp only [Hub.claiming] at ht
    split at ht
    · rename_i client sizes hc
      obtain rfl := Option.some.inj ht
      obtain ⟨a, d, e, f, g, i⟩ := hb.of_holds hc rfl
      have hr : h.shared.reserved = 0 := g
      refine .claimed thread _ a (Function.update_self ..) rfl (others_setClaim d) e f ?_ i
      simp [Hub.setClaim, Claim.slots, hr]
    · cases ht
  | submit thread =>
    simp only [Hub.claiming] at ht
    split at ht
    · rename_i panes client slots hc
      obtain ⟨a, d, e, f, g, i⟩ := hb.of_holds hc rfl
      split at ht
      · obtain rfl := Option.some.inj ht
        refine .queued slots a (unheld_setClaim d (fun _ h => by cases h)) ?_ f g ?_
        · simp only [batches, Hub.setClaim, List.filterMap_append] at e ⊢
          simp [e, Command.batch?]
        · simp [Hub.setClaim, i]
      · obtain rfl := Option.some.inj ht
        exact .claimed thread _ a (Function.update_self ..) rfl (others_setClaim d) e f g i
    · cases ht
  | giveBack thread =>
    simp only [Hub.claiming] at ht
    split at ht
    · rename_i slots hc
      obtain rfl := Option.some.inj ht
      obtain ⟨a, d, e, f, g, i⟩ := hb.of_holds hc rfl
      have hr : h.shared.reserved = slots := g
      refine .claimed thread _ a (Function.update_self ..) rfl (others_setClaim d) e f ?_ i
      simp [Hub.setClaim, Claim.slots, hr]
    · cases ht
  | reopen thread =>
    simp only [Hub.claiming] at ht
    split at ht
    · rename_i hc
      obtain rfl := Option.some.inj ht
      obtain ⟨a, d, e, f, g, i⟩ := hb.of_holds hc rfl
      refine .unclaimed rfl (unheld_setClaim d (fun c h => ?_)) e f g i
      obtain rfl : Claim.reopened = c := Option.some.inj h
      rfl
    · cases ht
  | reoffer thread =>
    simp only [Hub.claiming] at ht
    split at ht
    · rename_i hc
      have hd := hb.dropClaim hc rfl
      split at ht
      · exact Option.some.inj ht ▸ hd
      · exact Option.some.inj ht ▸ hd.frame rfl rfl rfl rfl rfl rfl rfl
    · cases ht
  | _ => cases ht

lemma Capped.claiming (hb : h.Batch) (hcap : h.Capped) {l : Label}
    (ht : h.claiming config l = some t) : t.Capped := by
  have hlt := hcap.total
  cases l with
  | claim thread client sizes =>
    simp only [Hub.claiming] at ht
    split at ht
    · split at ht
      · exact Option.some.inj ht ▸ hcap
      · exact Option.some.inj ht ▸ hcap.frame rfl le_rfl rfl
    · cases ht
  | reserve thread =>
    simp only [Hub.claiming] at ht
    split at ht
    · rename_i client sizes hc
      obtain rfl := Option.some.inj ht
      obtain ⟨-, -, -, hw, -, -⟩ := hb.of_holds hc rfl
      refine hcap.unopened hw rfl ?_ rfl
      simp only [Hub.setClaim]
      omega
    · cases ht
  | submit thread =>
    simp only [Hub.claiming] at ht
    split at ht
    · split at ht
      · exact Option.some.inj ht ▸ hcap.frame rfl le_rfl rfl
      · exact Option.some.inj ht ▸ hcap.frame rfl le_rfl rfl
    · cases ht
  | giveBack thread =>
    simp only [Hub.claiming] at ht
    split at ht
    · refine Option.some.inj ht ▸ hcap.frame rfl ?_ rfl
      simp only [Hub.setClaim, Shared.releaseReserved_panes, Shared.releaseReserved_reserved]
      omega
    · cases ht
  | reopen thread =>
    simp only [Hub.claiming] at ht
    split at ht
    · exact Option.some.inj ht ▸ hcap.frame rfl le_rfl rfl
    · cases ht
  | reoffer thread =>
    simp only [Hub.claiming] at ht
    split at ht
    · split at ht
      · exact Option.some.inj ht ▸ hcap.frame rfl le_rfl rfl
      · exact Option.some.inj ht ▸ hcap.frame rfl le_rfl rfl
    · cases ht
  | _ => cases ht

/-- When the worker registers a pane of a create or of a relaunch, the slot it found free is
free still. -/
def SlotStillFree (h : Hub) : Label → Prop
  | .opened (some _) =>
    match h.worker with
    | .granted _ => h.shared.hasFreeSlot = true
    | _ => True
  | _ => True

lemma free_iff : h.shared.hasFreeSlot = true ↔
    h.shared.panes.length + h.shared.reserved < maxPtysPerRepo := by
  simp [Shared.hasFreeSlot]

lemma sendErrorTo_counts (s : Shared) (client : ℕ) (message : String) :
    (s.sendErrorTo client message).panes = s.panes ∧
      (s.sendErrorTo client message).reserved = s.reserved :=
  ⟨Shared.queueTo_panes _ client, Shared.queueTo_reserved _ client⟩

lemma Batch.take (hb : h.Batch) (ht : h.working .take = some t) : t.Batch := by
  simp only [Hub.working] at ht
  split at ht
  · rename_i size client rest hw hc
    obtain rfl := Option.some.inj ht
    refine hb.frame rfl rfl ?_ (by rw [hw]; rfl) (by rw [hw]; rfl) rfl rfl
    simp [batches, hc, List.filterMap_cons, Command.batch?]
  · rename_i panes client reserved rest hw hc
    obtain rfl := Option.some.inj ht
    have hq : h.batches = reserved :: rest.filterMap Command.batch? := by
      simp [batches, hc, Command.batch?]
    cases hb with
    | queued slots a b c d e f =>
      obtain ⟨rfl, hrest⟩ := List.cons.inj (hq.symm.trans c)
      exact .worked a b hrest rfl e f
    | unclaimed _ _ c => simp [hq] at c
    | claimed _ _ _ _ _ _ c => simp [hq] at c
    | worked _ _ c => simp [hq] at c
    | spent _ _ c => simp [hq] at c
    | dropped _ _ c => simp [hq] at c
  · rename_i rest hw hc
    obtain rfl := Option.some.inj ht
    refine hb.frame rfl rfl ?_ rfl rfl rfl rfl
    simp [batches, hc, List.filterMap_cons, Command.batch?]
  · cases ht

lemma Batch.finish (hb : h.Batch) (hw : h.worker.Opens = true) :
    ({ h with
      worker := .idle
      shared := h.shared.releaseReserved h.worker.slots } : Hub).Batch := by
  obtain ⟨a, b, c, e, f⟩ := hb.of_opens hw
  refine .spent a b c rfl ?_ f
  simp [e]

lemma Batch.spend (hb : h.Batch) (ht : h.working .spend = some t) : t.Batch := by
  simp only [Hub.working] at ht
  split at ht
  · rename_i pane rest client held hw
    obtain rfl := Option.some.inj ht
    obtain ⟨a, b, c, e, f⟩ := hb.of_opens (by rw [hw]; rfl)
    rw [hw] at e
    have e : h.shared.reserved = held + 1 := e
    refine .worked a b c rfl ?_ f
    simp [e, Work.slots]
  · rename_i pane rest client hw
    exact Option.some.inj ht ▸
      hb.frame rfl rfl rfl (by rw [hw]; rfl) (by rw [hw]; rfl) rfl rfl
  · rename_i client held hw
    have hd := hb.finish (by rw [hw]; rfl)
    rw [hw] at hd
    exact Option.some.inj ht ▸ hd
  · rename_i held hw
    have hd := hb.finish (by rw [hw]; rfl)
    rw [hw] at hd
    exact Option.some.inj ht ▸ hd
  · cases ht

lemma Batch.shutDown (hb : h.Batch) (hw : h.worker.Opens = false) :
    ({ h with worker := .returned, commands := [], shared := h.shared.windDown } : Hub).Batch := by
  have hr : h.shared.windDown.reserved = h.shared.reserved := Shared.windDown_reserved
  cases hb with
  | unclaimed a b c d e f => exact .unclaimed a b rfl rfl (hr.trans e) f
  | claimed u claim a b c d e f g i => exact .claimed u claim a b c d rfl rfl (hr.trans g) i
  | queued k a b c d e f => exact .dropped a b rfl rfl f
  | worked a b c d => simp [hw] at d
  | spent a b c d e f => exact .spent a b rfl rfl (hr.trans e) f
  | dropped a b c d f => exact .dropped a b rfl rfl f

lemma Batch.working (hb : h.Batch) {l : Label} (ht : h.working l = some t) : t.Batch := by
  cases l with
  | take => exact hb.take ht
  | relaunch size title index =>
    simp only [Hub.working] at ht
    split at ht
    · rename_i hw
      exact Option.some.inj ht ▸
        hb.frame rfl rfl rfl (by rw [hw]; rfl) (by rw [hw]; rfl) rfl rfl
    · cases ht
  | checkSlot =>
    simp only [Hub.working] at ht
    split at ht
    · rename_i request hw
      split at ht
      · exact Option.some.inj ht ▸
          hb.frame rfl rfl rfl (by rw [hw]; rfl) (by rw [hw]; rfl) rfl rfl
      · split at ht
        · exact Option.some.inj ht ▸ hb.frame rfl rfl rfl (by rw [hw]; rfl) (by rw [hw]; rfl)
            (sendErrorTo_counts ..).2 rfl
        · exact Option.some.inj ht ▸
            hb.frame rfl rfl rfl (by rw [hw]; rfl) (by rw [hw]; rfl) rfl rfl
    · rename_i pane rest client held spent hw
      split at ht
      · exact Option.some.inj ht ▸
          hb.frame rfl rfl rfl (by rw [hw]; rfl) (by rw [hw]; rfl) rfl rfl
      · exact Option.some.inj ht ▸ hb.frame rfl rfl rfl (by rw [hw]; rfl) (by rw [hw]; rfl)
          (sendErrorTo_counts ..).2 rfl
    · cases ht
  | opened pane? =>
    simp only [Hub.working] at ht
    split at ht
    · rename_i size client pane hw
      exact Option.some.inj ht ▸
        hb.frame rfl rfl rfl (by rw [hw]; rfl) (by rw [hw]; rfl) (by simp) rfl
    · rename_i size client hw
      exact Option.some.inj ht ▸ hb.frame rfl rfl rfl (by rw [hw]; rfl) (by rw [hw]; rfl)
        (sendErrorTo_counts ..).2 rfl
    · rename_i size title index pane hw
      exact Option.some.inj ht ▸
        hb.frame rfl rfl rfl (by rw [hw]; rfl) (by rw [hw]; rfl) (by simp) rfl
    · rename_i size title index hw
      exact Option.some.inj ht ▸
        hb.frame rfl rfl rfl (by rw [hw]; rfl) (by rw [hw]; rfl) rfl rfl
    · rename_i startup rest client held pane hw
      exact Option.some.inj ht ▸
        hb.frame rfl rfl rfl (by rw [hw]; rfl) (by rw [hw]; rfl) (by simp) rfl
    · rename_i startup rest client held hw
      exact Option.some.inj ht ▸ hb.frame rfl rfl rfl (by rw [hw]; rfl) (by rw [hw]; rfl)
        (sendErrorTo_counts ..).2 rfl
    · cases ht
  | restore =>
    simp only [Hub.working] at ht
    split at ht
    · rename_i pane index hw
      exact Option.some.inj ht ▸
        hb.frame rfl rfl rfl (by rw [hw]; rfl) (by rw [hw]; rfl) (by simp) rfl
    · cases ht
  | spend => exact hb.spend ht
  | closePane pane =>
    simp only [Hub.working] at ht
    split at ht
    · exact Option.some.inj ht ▸ hb.frame rfl rfl rfl rfl rfl (by simp) rfl
    · cases ht
  | shutDown =>
    simp only [Hub.working] at ht
    split at ht
    · rename_i hw _
      exact Option.some.inj ht ▸ hb.shutDown (by rw [hw]; rfl)
    · cases ht
  | _ => cases ht

lemma Capped.checkSlot (hcap : h.Capped) (ht : h.working .checkSlot = some t) : t.Capped := by
  simp only [Hub.working] at ht
  split at ht
  · split at ht
    · exact Option.some.inj ht ▸ .outside hcap.total (by simp) (by simp) hcap.refused
    · split at ht
      · obtain rfl := Option.some.inj ht
        refine .outside ?_ (by simp) (by simp) hcap.refused
        rw [(sendErrorTo_counts ..).1, (sendErrorTo_counts ..).2]
        exact hcap.total
      · exact Option.some.inj ht ▸ .outside hcap.total (by simp) (by simp) hcap.refused
  · rename_i pane rest client held spent hw
    split at ht
    · rename_i hfree
      obtain rfl := Option.some.inj ht
      exact ⟨hcap.total, by simp, by simp, fun _ _ _ _ _ => free_iff.mp hfree, hcap.refused⟩
    · rename_i hfree
      obtain rfl := Option.some.inj ht
      -- a pane that spent a reservation of its own has its slot, so this one never did
      obtain rfl : spent = false := by
        cases spent with
        | false => rfl
        | true => exact absurd (free_iff.mpr (hcap.spent _ _ _ _ hw)) hfree
      obtain rfl := hcap.unspent _ _ _ _ hw
      refine .outside ?_ (by simp) (by simp) ?_
      · rw [(sendErrorTo_counts ..).1, (sendErrorTo_counts ..).2]
        exact hcap.total
      · simpa using hcap.refused
  · cases ht

lemma Capped.opened (hcap : h.Capped) {pane? : Option PaneId}
    (hf : h.SlotStillFree (.opened pane?)) (ht : h.working (.opened pane?) = some t) :
    t.Capped := by
  have herr : ∀ (c : ℕ) (m : String), (h.shared.sendErrorTo c m).panes.length +
      (h.shared.sendErrorTo c m).reserved ≤ maxPtysPerRepo := by
    intro c m
    rw [(sendErrorTo_counts ..).1, (sendErrorTo_counts ..).2]
    exact hcap.total
  have hreg : ∀ (pane : PaneId) (size : PaneSize) (client : Option ℕ) (title : Option String),
      h.shared.panes.length + h.shared.reserved < maxPtysPerRepo →
      (h.shared.registerPane pane size client title).panes.length +
        (h.shared.registerPane pane size client title).reserved ≤ maxPtysPerRepo := by
    intro pane size client title hlt
    simp
    omega
  simp only [Hub.working] at ht
  split at ht
  · rename_i size client pane hw
    simp only [SlotStillFree, hw] at hf
    exact Option.some.inj ht ▸
      .outside (hreg _ _ _ _ (free_iff.mp hf)) (by simp) (by simp) hcap.refused
  · exact Option.some.inj ht ▸ .outside (herr _ _) (by simp) (by simp) hcap.refused
  · rename_i size title index pane hw
    simp only [SlotStillFree, hw] at hf
    exact Option.some.inj ht ▸
      .outside (hreg _ _ _ _ (free_iff.mp hf)) (by simp) (by simp) hcap.refused
  · exact Option.some.inj ht ▸ .outside hcap.total (by simp) (by simp) hcap.refused
  · rename_i startup rest client held pane hw
    exact Option.some.inj ht ▸
      .outside (hreg _ _ _ _ (hcap.opening _ _ _ _ hw)) (by simp) (by simp) hcap.refused
  · exact Option.some.inj ht ▸ .outside (herr _ _) (by simp) (by simp) hcap.refused
  · cases ht

lemma Capped.release (hcap : h.Capped) (count : ℕ) :
    ({ h with
      worker := .idle
      shared := h.shared.releaseReserved count } : Hub).Capped := by
  have := hcap.total
  refine .outside ?_ (by simp) (by simp) hcap.refused
  simp
  omega

lemma Capped.spend (hb : h.Batch) (hcap : h.Capped) (ht : h.working .spend = some t) :
    t.Capped := by
  simp only [Hub.working] at ht
  split at ht
  · rename_i pane rest client held hw
    obtain rfl := Option.some.inj ht
    obtain ⟨-, -, -, e, -⟩ := hb.of_opens (by rw [hw]; rfl)
    rw [hw] at e
    have e : h.shared.reserved = held + 1 := e
    have ht := hcap.total
    refine ⟨?_, fun _ _ _ _ _ => ?_, by simp, by simp, hcap.refused⟩
    · simp
      omega
    · simp
      omega
  · obtain rfl := Option.some.inj ht
    refine ⟨hcap.total, by simp, fun _ _ _ _ he => ?_, by simp, hcap.refused⟩
    cases he
    rfl
  · exact Option.some.inj ht ▸ hcap.release _
  · exact Option.some.inj ht ▸ hcap.release _
  · cases ht

lemma Capped.working (hb : h.Batch) (hcap : h.Capped) {l : Label} (hf : h.SlotStillFree l)
    (ht : h.working l = some t) : t.Capped := by
  cases l with
  | take =>
    simp only [Hub.working] at ht
    split at ht
    · exact Option.some.inj ht ▸ .outside hcap.total (by simp) (by simp) hcap.refused
    · exact Option.some.inj ht ▸ .outside hcap.total (by simp) (by simp) hcap.refused
    · exact Option.some.inj ht ▸ hcap.frame rfl le_rfl rfl
    · cases ht
  | relaunch size title index =>
    simp only [Hub.working] at ht
    split at ht
    · exact Option.some.inj ht ▸ .outside hcap.total (by simp) (by simp) hcap.refused
    · cases ht
  | checkSlot => exact hcap.checkSlot ht
  | opened pane? => exact hcap.opened hf ht
  | restore =>
    simp only [Hub.working] at ht
    split at ht
    · obtain rfl := Option.some.inj ht
      refine .outside ?_ (by simp) (by simp) hcap.refused
      simpa [Shared.restorePaneIndex_panes_length] using hcap.total
    · cases ht
  | spend => exact hcap.spend hb ht
  | closePane pane =>
    simp only [Hub.working] at ht
    split at ht
    · obtain rfl := Option.some.inj ht
      refine hcap.frame rfl ?_ rfl
      rw [Shared.removePaneAndAnnounce_panes, Shared.removePaneAndAnnounce_reserved]
      exact Nat.add_le_add_right (List.length_filter_le _ _) _
    · cases ht
  | shutDown =>
    simp only [Hub.working] at ht
    split at ht
    · obtain rfl := Option.some.inj ht
      refine .outside ?_ (by simp) (by simp) hcap.refused
      rw [Shared.windDown_panes, Shared.windDown_reserved, List.length_nil, Nat.zero_add]
      exact (Nat.le_add_left _ _).trans hcap.total
    · cases ht
  | _ => cases ht

lemma step_cases {l : Label} (ht : h.step config l = some t) :
    h.connection config l = some t ∨ h.claiming config l = some t ∨ h.traffic l = some t ∨
      h.working l = some t := by
  unfold step at ht
  cases h1 : h.connection config l with
  | some u => exact .inl (by simpa [h1] using ht)
  | none =>
    cases h2 : h.claiming config l with
    | some u => exact .inr (.inl (by simpa [h1, h2] using ht))
    | none =>
      cases h3 : h.traffic l with
      | some u => exact .inr (.inr (.inl (by simpa [h1, h2, h3] using ht)))
      | none => exact .inr (.inr (.inr (by simpa [h1, h2, h3] using ht)))

lemma Batch.step (hb : h.Batch) {l : Label} (ht : h.step config l = some t) : t.Batch := by
  rcases step_cases ht with ht | ht | ht | ht
  · exact (connection_undisturbed ht).batch hb
  · exact hb.claiming ht
  · exact (traffic_undisturbed ht).batch hb
  · exact hb.working ht

lemma Capped.step (hb : h.Batch) (hcap : h.Capped) {l : Label} (hf : h.SlotStillFree l)
    (ht : h.step config l = some t) : t.Capped := by
  rcases step_cases ht with ht | ht | ht | ht
  · exact (connection_undisturbed ht).capped hcap
  · exact hcap.claiming hb ht
  · exact (traffic_undisturbed ht).capped hcap
  · exact hcap.working hb hf ht

lemma batch_empty : ({} : Hub).Batch := .unclaimed rfl (fun _ _ h => by cases h) rfl rfl rfl rfl

lemma capped_empty : ({} : Hub).Capped := .outside (Nat.zero_le _) (by simp) (by simp) rfl

theorem reserved_slots_honoured {config : Config} {labels : List Label} {h : Hub}
    (hr : run (Hub.step config) {} labels = some h)
    (hf : Along (Hub.step config) SlotStillFree {} labels) :
    h.shared.panes.length + h.shared.reserved ≤ maxPtysPerRepo ∧ h.refused = 0 := by
  have hstep : ∀ (s : Hub) l t, s.Batch ∧ s.Capped → s.SlotStillFree l → s.step config l = some t →
      t.Batch ∧ t.Capped := fun _ _ _ hs hf ht => ⟨hs.1.step ht, hs.2.step hs.1 hf ht⟩
  have hs := run_guarded hstep ⟨batch_empty, capped_empty⟩ hf hr
  exact ⟨hs.2.total, hs.2.refused⟩

theorem reserved_slots_honoured_opened : ∃ h : Hub,
    run (Hub.step ⟨[], true⟩) {} [.submitCreate ⟨24, 80⟩ 0, .take, .checkSlot, .opened (some 0),
      .claim 1 1 [], .reserve 1, .submit 1, .take, .spend, .checkSlot, .opened (some 1)] = some h ∧
      h.shared.panes.length + h.shared.reserved ≤ maxPtysPerRepo ∧ h.refused = 0 := by
  have hr : run (Hub.step ⟨[], true⟩) {} [.submitCreate ⟨24, 80⟩ 0, .take, .checkSlot,
    .opened (some 0), .claim 1 1 [], .reserve 1, .submit 1, .take, .spend, .checkSlot,
    .opened (some 1)] = some _ := rfl
  refine ⟨_, hr, reserved_slots_honoured hr ?_⟩
  refine along_cons rfl trivial (along_cons rfl trivial (along_cons rfl trivial ?_))
  refine along_cons rfl rfl (along_cons rfl trivial (along_cons rfl trivial ?_))
  refine along_cons rfl trivial (along_cons rfl trivial (along_cons rfl trivial ?_))
  exact along_cons rfl trivial (along_cons rfl trivial trivial)

/-- A claim that lands between the check for a create and its registration: nine slots are
spoken for, and the whole batch is refused the slots reserved for it. -/
theorem reserved_panes_refused :
    let config : Config := ⟨List.replicate 8 ⟨"sh", none, none⟩, false⟩
    let race : List Label := [.submitCreate ⟨24, 80⟩ 0, .take, .checkSlot, .claim 1 1 [],
      .reserve 1, .submit 1, .opened (some 0)]
    (run (Hub.step config) {} race).map
      (fun h => h.shared.panes.length + h.shared.reserved) = some 9 ∧
    (run (Hub.step config) {} (race ++ [.take, .spend, .checkSlot])).map (·.refused) = some 8 := by
  decide +kernel

end Hub

end Nightcrow.Session.Terminal.Startup
