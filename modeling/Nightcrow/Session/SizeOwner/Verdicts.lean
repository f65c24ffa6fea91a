import Nightcrow.Library.Channel
import Nightcrow.Library.Runs
import Nightcrow.Session.SizeOwner.WellFormed
import Nightcrow.Session.Terminal.Frame

namespace Nightcrow.Session.SizeOwner

open Nightcrow.Library Nightcrow.Session.Terminal

def Verdict.frame (v : Verdict) : TerminalFrame := .control (.sizeOwner v.owned v.generation)

abbrev Queues := ℕ → Chan TerminalFrame

namespace Queues

def send (q : Queues) (v : Verdict) : Queues :=
  Function.update q v.tx ((q v.tx).offer v.frame)

def sendAll (q : Queues) (vs : List Verdict) : Queues := vs.foldl send q

def Fits : Queues → List Verdict → Prop
  | _, [] => True
  | q, v :: vs => (q v.tx).Room ∧ Fits (q.send v) vs

def lastVerdict (q : Queues) (tx : ℕ) : Option (Bool × UInt64) :=
  ((q tx).sent.filterMap TerminalFrame.verdict?).getLast?

lemma sendAll_append (q : Queues) (vs ws : List Verdict) :
    q.sendAll (vs ++ ws) = (q.sendAll vs).sendAll ws := List.foldl_append

lemma fits_append {q : Queues} {vs ws : List Verdict} :
    q.Fits (vs ++ ws) ↔ q.Fits vs ∧ (q.sendAll vs).Fits ws := by
  induction vs generalizing q with
  | nil => simp [Fits, sendAll]
  | cons v vs ih => simp [Fits, sendAll, ih, and_assoc]

lemma send_alive (q : Queues) (v : Verdict) (tx : ℕ) : (q.send v tx).alive = (q tx).alive := by
  by_cases h : tx = v.tx
  · subst h
    rcases (q v.tx).offer_cases v.frame with ho | ho <;> simp [send, ho]
  · simp [send, h]

lemma sendAll_alive (q : Queues) (vs : List Verdict) (tx : ℕ) :
    (q.sendAll vs tx).alive = (q tx).alive := by
  induction vs generalizing q with
  | nil => rfl
  | cons v vs ih => exact (ih (q.send v)).trans (q.send_alive v tx)

lemma sendAll_sent {q : Queues} (ha : ∀ tx, (q tx).alive = true) {vs : List Verdict}
    (hf : q.Fits vs) (tx : ℕ) :
    (q.sendAll vs tx).sent = (q tx).sent ++ (vs.filter (·.tx = tx)).map Verdict.frame := by
  induction vs generalizing q with
  | nil => simp [sendAll]
  | cons v vs ih =>
    obtain ⟨hr, hf⟩ := hf
    have h := ih (fun tx => (q.send_alive v tx).trans (ha tx)) hf
    rw [show q.sendAll (v :: vs) = (q.send v).sendAll vs from rfl, h]
    by_cases hv : v.tx = tx
    · subst hv
      simp [send, Chan.offer_of_room _ (ha v.tx) hr]
    · simp [send, hv, Ne.symm hv]

lemma lastVerdict_sendAll {q : Queues} (ha : ∀ tx, (q tx).alive = true) {vs : List Verdict}
    (hf : q.Fits vs) (tx : ℕ) :
    (q.sendAll vs).lastVerdict tx =
      (((vs.filter (·.tx = tx)).getLast?).map (fun v => (v.owned, v.generation))).or
        (q.lastVerdict tx) := by
  have hm : ∀ us : List Verdict, (us.map Verdict.frame).filterMap TerminalFrame.verdict? =
      us.map (fun v => (v.owned, v.generation)) := by
    intro us
    rw [List.filterMap_map]
    exact List.filterMap_eq_map' .. ▸ rfl
  rw [lastVerdict, sendAll_sent ha hf, List.filterMap_append, hm, List.getLast?_append,
    List.getLast?_map, lastVerdict]

end Queues

def Current (s : Inner) (a : Announce) (told : Bool × UInt64) : Prop :=
  (told.1 = true ↔ s.owner = some a.viewer) ∧ (told.1 = true → told.2 = s.generation)

def Informed (s : Inner) (q : Queues) : Prop :=
  ∀ c a, s.announce.lookup c = some a → ∃ told, q.lastVerdict a.tx = some told ∧ Current s a told

def DistinctTx (s : Inner) : Prop :=
  ∀ c d a b, s.announce.lookup c = some a → s.announce.lookup d = some b → a.tx = b.tx → c = d

structure Told (s t : Inner) (vs : List Verdict) : Prop where
  correct : ∀ v ∈ vs, ∃ a, t.announce.lookup v.connection = some a ∧ v.tx = a.tx ∧
    Current t a (v.owned, v.generation)
  silent : ∀ c a, t.announce.lookup c = some a → (∀ v ∈ vs, v.connection ≠ c) →
    s.announce.lookup c = some a ∧ (t.owner = some a.viewer ↔ s.owner = some a.viewer) ∧
      (t.owner = some a.viewer → t.generation = s.generation)

lemma Told.informed {s t : Inner} {vs : List Verdict} {q : Queues} (h : Told s t vs)
    (hi : Informed s q) (hd : DistinctTx t) (ha : ∀ tx, (q tx).alive = true) (hf : q.Fits vs) :
    Informed t (q.sendAll vs) := by
  intro c a hc
  rw [Queues.lastVerdict_sendAll ha hf]
  have hto : ∀ v ∈ vs.filter (·.tx = a.tx), v ∈ vs ∧ v.connection = c ∧
      Current t a (v.owned, v.generation) := by
    intro v hv
    obtain ⟨hvs, htx⟩ := List.mem_filter.mp hv
    obtain ⟨b, hb, hbt, hcur⟩ := h.correct v hvs
    have hvc : v.connection = c := hd _ _ b a hb hc (hbt.symm.trans (of_decide_eq_true htx))
    obtain rfl : b = a := Option.some.inj (hb.symm.trans (hvc ▸ hc))
    exact ⟨hvs, hvc, hcur⟩
  cases hl : (vs.filter (·.tx = a.tx)).getLast? with
  | some v => exact ⟨_, rfl, (hto v (List.mem_of_getLast? hl)).2.2⟩
  | none =>
    have hn : ∀ v ∈ vs, v.connection ≠ c := by
      intro v hv hvc
      obtain ⟨b, hb, hbt, -⟩ := h.correct v hv
      obtain rfl : b = a := Option.some.inj (hb.symm.trans (hvc ▸ hc))
      have hm : v ∈ vs.filter (·.tx = b.tx) := List.mem_filter.mpr ⟨hv, decide_eq_true hbt⟩
      rw [List.getLast?_eq_none_iff.mp hl] at hm
      cases hm
    obtain ⟨hs, ho, hg⟩ := h.silent c a hc hn
    obtain ⟨told, ht, h1, h2⟩ := hi c a hs
    refine ⟨told, ht, h1.trans ho.symm, fun hw => (h2 hw).trans ?_⟩
    exact (hg (ho.mpr (h1.mp hw))).symm

namespace Inner

variable {s : Inner}

lemma mem_tellOne {c : ℕ} {owned : Bool} {v : Verdict} :
    v ∈ s.tellOne c owned ↔
      ∃ a, s.announce.lookup c = some a ∧ v = ⟨c, a.tx, owned, s.generation⟩ := by
  unfold tellOne
  cases s.announce.lookup c <;> simp

lemma mem_tell {w : ViewerId} {owned : Bool} {v : Verdict} :
    v ∈ s.tell w owned ↔ ∃ a, s.announce.lookup v.connection = some a ∧ a.viewer = w ∧
      v = ⟨v.connection, a.tx, owned, s.generation⟩ := by
  simp only [tell, List.mem_flatMap]
  constructor
  · rintro ⟨⟨c, a⟩, he, hv⟩
    have ha : s.announce.lookup c = some a := AList.mem_lookup_iff.mpr he
    split at hv
    · obtain ⟨b, hb, rfl⟩ := mem_tellOne.mp hv
      obtain rfl : a = b := Option.some.inj (ha.symm.trans hb)
      exact ⟨a, ha, ‹_›, rfl⟩
    · cases hv
  · rintro ⟨a, ha, hw, hv⟩
    refine ⟨⟨v.connection, a⟩, AList.mem_lookup_iff.mp ha, ?_⟩
    rw [if_pos hw]
    exact mem_tellOne.mpr ⟨a, ha, hv⟩

lemma told_refl (s : Inner) : Told s s [] :=
  ⟨fun _ h => (List.not_mem_nil h).elim, fun _ _ ha _ => ⟨ha, Iff.rfl, fun _ => rfl⟩⟩

lemma told_expire (h : s.WellFormed) (now : ℕ) :
    Told s (s.expireAbsentOwner now).1 (s.expireAbsentOwner now).2 := by
  rcases s.expire_cases now with he | ⟨since, hs, -, he⟩ <;> rw [he]
  · exact told_refl s
  · refine ⟨fun v hv => ?_, fun c a ha hn => ?_⟩
    · cases ho : s.release.owner with
      | none =>
        simp only [tellOwner, ho] at hv
        exact (List.not_mem_nil hv).elim
      | some w =>
        simp only [tellOwner, ho] at hv
        obtain ⟨a, ha, rfl, hve⟩ := mem_tell.mp hv
        refine ⟨a, ha, by rw [hve], ?_⟩
        rw [hve]
        exact ⟨by simp only [ho], fun _ => rfl⟩
    · have ha' : s.announce.lookup c = some a := by simpa using ha
      have hold : s.owner ≠ some a.viewer := by
        intro ho
        exact (h.owner_absent _ ho).mpr (by simp [hs]) (h.viewer_present ha')
      have hnew : s.release.owner ≠ some a.viewer := by
        intro ho
        refine hn ⟨c, a.tx, true, s.release.generation⟩ ?_ rfl
        rw [tellOwner, ho]
        exact mem_tell.mpr ⟨a, ha, rfl, rfl⟩
      exact ⟨ha', iff_of_false hnew hold, fun ho => absurd ho hnew⟩

lemma told_replaceOwner {e : Inner} {w : ViewerId} (ho : s.owner = e.owner)
    (hw : s.owner ≠ some w)
    (hc : ∀ c a, s.announce.lookup c = some a → a.viewer ≠ w → e.announce.lookup c = some a) :
    Told e (s.replaceOwner w).1 (s.replaceOwner w).2 := by
  have hmem : ∀ v, v ∈ (s.replaceOwner w).2 ↔
      v ∈ (s.replaceOwner w).1.tell w true ∨ v ∈ (s.replaceOwner w).1.tellDisplaced s.owner :=
    fun v => List.mem_append
  refine ⟨fun v hv => ?_, fun c a ha hn => ?_⟩
  · rcases (hmem v).mp hv with hv | hv
    · obtain ⟨a, ha, rfl, hve⟩ := mem_tell.mp hv
      refine ⟨a, ha, by rw [hve], ?_⟩
      rw [hve]
      exact ⟨by simp [replaceOwner, advanceGeneration], fun _ => rfl⟩
    · cases hd : s.owner with
      | none => simp [hd, tellDisplaced] at hv
      | some d =>
        rw [hd] at hv
        obtain ⟨a, ha, rfl, hve⟩ := mem_tell.mp hv
        have hne : w ≠ a.viewer := fun he => hw (hd.trans (congrArg some he.symm))
        refine ⟨a, ha, by rw [hve], ?_⟩
        rw [hve]
        exact ⟨by simp [replaceOwner, advanceGeneration, hne], by simp⟩
  · have hv : a.viewer ≠ w := by
      intro he
      refine hn ⟨c, a.tx, true, (s.replaceOwner w).1.generation⟩ ((hmem _).mpr (.inl ?_)) rfl
      exact mem_tell.mpr ⟨a, ha, he, rfl⟩
    have hd : s.owner ≠ some a.viewer := by
      intro hd
      refine hn ⟨c, a.tx, false, (s.replaceOwner w).1.generation⟩ ((hmem _).mpr (.inr ?_)) rfl
      rw [hd]
      exact mem_tell.mpr ⟨a, ha, rfl, rfl⟩
    have hnew : (s.replaceOwner w).1.owner ≠ some a.viewer := by
      intro he
      exact hv (Option.some.inj he).symm
    exact ⟨hc c a ha hv, by simp [hnew, ← ho, hd], fun he => absurd he hnew⟩

lemma told_leave (h : s.WellFormed) (c now : ℕ) : Told s (s.leave c now).1 [] := by
  refine ⟨fun _ hv => (List.not_mem_nil hv).elim, fun d a ha _ => ?_⟩
  rcases h.leave_cases c now with ⟨-, he⟩ | ⟨gone, -, ⟨n, -, he⟩ | ⟨-, he⟩⟩ <;> rw [he] at ha ⊢
  · exact ⟨ha, Iff.rfl, fun _ => rfl⟩
  all_goals
    refine ⟨?_, Iff.rfl, fun _ => rfl⟩
    have ha : (s.announce.erase c).lookup d = some a := ha
    have hd : d ≠ c := by
      rintro rfl
      simp at ha
    rwa [AList.lookup_erase_ne hd] at ha

lemma told_join (h : s.WellFormed) (v : ViewerId) (tx now : ℕ) :
    ∃ vs, (s.join v tx now).2.2 = (s.expireAbsentOwner now).2 ++ vs ∧
      Told (s.expireAbsentOwner now).1 (s.join v tx now).1 vs := by
  have hn := (h.expire now).next_notMem
  generalize hes : (s.expireAbsentOwner now).1 = e at hn
  have hl : ∀ c a, (e.register v tx).announce.lookup c = some a → c ≠ e.nextConnection →
      e.announce.lookup c = some a := by
    intro c a ha hc
    rwa [show (e.register v tx).announce = e.announce.insert e.nextConnection ⟨v, tx⟩ from rfl,
      AList.lookup_insert_ne hc] at ha
  have hself : (e.register v tx).announce.lookup e.nextConnection = some ⟨v, tx⟩ :=
    AList.lookup_insert _
  by_cases ho : e.owner = none
  · have hj : s.join v tx now = ((((e.register v tx).markActive v).replaceOwner v).1,
        e.nextConnection, (s.expireAbsentOwner now).2 ++
          (((e.register v tx).markActive v).replaceOwner v).2) := by
      simp [join, hes, ho, register]
    refine ⟨_, by rw [hj], ?_⟩
    rw [hj]
    refine told_replaceOwner rfl ?_ fun c a ha hne => hl c a ha ?_
    · simp [markActive, register, ho]
    · rintro rfl
      obtain rfl : (⟨v, tx⟩ : Announce) = a := Option.some.inj (hself.symm.trans ha)
      exact hne rfl
  · have hj : s.join v tx now = (e.register v tx, e.nextConnection, (s.expireAbsentOwner now).2 ++
        (e.register v tx).tellOne e.nextConnection (e.owner = some v)) := by
      simp [join, hes, ho, register]
    refine ⟨_, by rw [hj], ?_⟩
    rw [hj]
    refine ⟨fun w hw => ?_, fun c a ha hc => ⟨hl c a ha ?_, Iff.rfl, fun _ => rfl⟩⟩
    · obtain ⟨a, ha, rfl⟩ := mem_tellOne.mp hw
      obtain rfl : (⟨v, tx⟩ : Announce) = a := Option.some.inj (hself.symm.trans ha)
      exact ⟨_, ha, rfl, by simp [Current, register]⟩
    · rintro rfl
      exact hc _ (mem_tellOne.mpr ⟨_, hself, rfl⟩) rfl

lemma told_claim (s : Inner) (c now : ℕ) :
    ∃ vs, (s.claim c now).2 = (s.expireAbsentOwner now).2 ++ vs ∧
      Told (s.expireAbsentOwner now).1 (s.claim c now).1 vs := by
  generalize hes : (s.expireAbsentOwner now).1 = e
  cases ha : e.announce.lookup c with
  | none =>
    have hc : s.claim c now = (e, (s.expireAbsentOwner now).2 ++ []) := by
      simp [claim, hes, ha]
    refine ⟨_, by rw [hc], ?_⟩
    rw [hc]
    exact told_refl e
  | some a =>
    by_cases ho : e.owner = some a.viewer
    · have hc : s.claim c now = (e.markActive a.viewer, (s.expireAbsentOwner now).2 ++
          (e.markActive a.viewer).tellOne c true) := by
        simp [claim, hes, ha, markActive, ho]
      refine ⟨_, by rw [hc], ?_⟩
      rw [hc]
      refine ⟨fun w hw => ?_, fun d b hb _ => ⟨hb, Iff.rfl, fun _ => rfl⟩⟩
      obtain ⟨b, hb, rfl⟩ := mem_tellOne.mp hw
      obtain rfl : a = b := Option.some.inj (ha.symm.trans hb)
      exact ⟨a, hb, rfl, by simpa [Current, markActive] using ho⟩
    · have hc : s.claim c now = (((e.markActive a.viewer).replaceOwner a.viewer).1,
          (s.expireAbsentOwner now).2 ++ ((e.markActive a.viewer).replaceOwner a.viewer).2) := by
        simp [claim, hes, ha, markActive, ho]
      refine ⟨_, by rw [hc], ?_⟩
      rw [hc]
      exact told_replaceOwner rfl ho fun _ _ hb _ => hb

end Inner

structure Registry where
  inner : Inner := {}
  queues : Queues := fun _ => { depth := 0 }
  opened : ℕ := 0

inductive Event
  | connect (viewer : ViewerId) (depth : ℕ) (replay : List TerminalFrame) (now : ℕ)
  | leave (connection : ℕ) (now : ℕ)
  | claim (connection : ℕ) (now : ℕ)
  | settle (now : ℕ)
  | queue (tx : ℕ) (frame : TerminalFrame)
  | recv (tx : ℕ)

namespace Registry

variable {s t : Registry}

def openQueue (s : Registry) (depth : ℕ) (replay : List TerminalFrame) : Queues :=
  Function.update s.queues s.opened { depth, sent := replay }

def step (s : Registry) : Event → Option Registry
  | .connect viewer depth replay now =>
    if replay.all (fun frame => frame.verdict?.isNone) && replay.length ≤ depth then
      let (inner, _, told) := s.inner.join viewer s.opened now
      some { inner, queues := (s.openQueue depth replay).sendAll told, opened := s.opened + 1 }
    else none
  | .leave connection now => some { s with inner := (s.inner.leave connection now).1 }
  | .claim connection now =>
    let (inner, told) := s.inner.claim connection now
    some { s with inner, queues := s.queues.sendAll told }
  | .settle now =>
    let (inner, told) := s.inner.expireAbsentOwner now
    some { s with inner, queues := s.queues.sendAll told }
  | .queue tx frame =>
    if frame.verdict?.isNone then
      some { s with queues := Function.update s.queues tx ((s.queues tx).offer frame) }
    else none
  | .recv tx =>
    (s.queues tx).recv.map (fun r => { s with queues := Function.update s.queues tx r.2 })

/-- No client queue is full when a verdict is sent to it. -/
def NoneFull (s : Registry) : Event → Prop
  | .connect viewer depth replay now =>
    (s.openQueue depth replay).Fits (s.inner.join viewer s.opened now).2.2
  | .claim connection now => s.queues.Fits (s.inner.claim connection now).2
  | .settle now => s.queues.Fits (s.inner.expireAbsentOwner now).2
  | _ => True

structure Sound (s : Registry) : Prop where
  wellFormed : s.inner.WellFormed
  alive : ∀ tx, (s.queues tx).alive = true
  tx_lt : ∀ c a, s.inner.announce.lookup c = some a → a.tx < s.opened
  distinctTx : DistinctTx s.inner
  informed : Informed s.inner s.queues

lemma sound_empty : ({} : Registry).Sound where
  wellFormed := Inner.wellFormed_empty
  alive _ := rfl
  tx_lt _ _ h := by simp at h
  distinctTx _ _ _ _ h := by simp at h
  informed _ _ h := by simp at h

namespace Sound

lemma informed_expire (h : s.Sound) {q : Queues} {u : Inner} {vs : List Verdict} {now : ℕ}
    (ha : ∀ tx, (q tx).alive = true) (hi : Informed s.inner q) (hd : DistinctTx u)
    (ht : Told (s.inner.expireAbsentOwner now).1 u vs)
    (hf : q.Fits ((s.inner.expireAbsentOwner now).2 ++ vs)) :
    Informed u (q.sendAll ((s.inner.expireAbsentOwner now).2 ++ vs)) := by
  obtain ⟨hf1, hf2⟩ := Queues.fits_append.mp hf
  have hde : DistinctTx (s.inner.expireAbsentOwner now).1 := by
    simpa [DistinctTx, Inner.expire_announce] using h.distinctTx
  have h1 := (Inner.told_expire h.wellFormed now).informed hi hde ha hf1
  rw [Queues.sendAll_append]
  exact ht.informed h1 hd (fun tx => (q.sendAll_alive _ tx).trans (ha tx)) hf2

lemma join_announce (s : Inner) (v : ViewerId) (tx now : ℕ) :
    (s.join v tx now).1.announce =
      s.announce.insert (s.expireAbsentOwner now).1.nextConnection ⟨v, tx⟩ := by
  have hr : ((s.expireAbsentOwner now).1.register v tx).announce =
      s.announce.insert (s.expireAbsentOwner now).1.nextConnection ⟨v, tx⟩ := by
    rw [← Inner.expire_announce s now]
    rfl
  rw [Inner.join_eq]
  dsimp only
  split <;> exact hr

lemma claim_announce (s : Inner) (c now : ℕ) : (s.claim c now).1.announce = s.announce := by
  rw [Inner.claim_eq]
  dsimp only
  split
  · exact s.expire_announce now
  · split <;> exact s.expire_announce now

lemma openQueue_informed (h : s.Sound) (depth : ℕ) (replay : List TerminalFrame) :
    Informed s.inner (s.openQueue depth replay) := by
  intro c a ha
  have hne : a.tx ≠ s.opened := (h.tx_lt c a ha).ne
  simpa [openQueue, Queues.lastVerdict, hne] using h.informed c a ha

lemma connect (h : s.Sound) {v : ViewerId} {depth now : ℕ} {replay : List TerminalFrame}
    (hf : s.NoneFull (.connect v depth replay now)) :
    (Registry.mk (s.inner.join v s.opened now).1
      ((s.openQueue depth replay).sendAll (s.inner.join v s.opened now).2.2)
      (s.opened + 1)).Sound := by
  obtain ⟨vs, hvs, ht⟩ := Inner.told_join h.wellFormed v s.opened now
  have ha : ∀ tx, (s.openQueue depth replay tx).alive = true := by
    intro tx
    by_cases htx : tx = s.opened
    · simp [openQueue, htx]
    · simpa [openQueue, htx] using h.alive tx
  have hlt : ∀ c a, (s.inner.join v s.opened now).1.announce.lookup c = some a →
      (c = (s.inner.expireAbsentOwner now).1.nextConnection ∧ a.tx = s.opened) ∨
        (s.inner.announce.lookup c = some a ∧ a.tx < s.opened) := by
    intro c a hc
    rw [join_announce] at hc
    by_cases hn : c = (s.inner.expireAbsentOwner now).1.nextConnection
    · subst hn
      rw [AList.lookup_insert] at hc
      exact .inl ⟨rfl, by rw [← Option.some.inj hc]⟩
    · rw [AList.lookup_insert_ne hn] at hc
      exact .inr ⟨hc, h.tx_lt c a hc⟩
  have hd : DistinctTx (s.inner.join v s.opened now).1 := by
    intro c d a b hc hd htx
    rcases hlt c a hc with ⟨rfl, hca⟩ | ⟨hc, hca⟩ <;> rcases hlt d b hd with ⟨rfl, hdb⟩ | ⟨hd, hdb⟩
    · rfl
    · omega
    · omega
    · exact h.distinctTx c d a b hc hd htx
  refine ⟨h.wellFormed.join v s.opened now, ?_, ?_, hd, ?_⟩
  · exact fun tx => ((s.openQueue depth replay).sendAll_alive _ tx).trans (ha tx)
  · intro c a hc
    rcases hlt c a hc with ⟨-, hca⟩ | ⟨-, hca⟩
    · exact hca ▸ Nat.lt_succ_self _
    · exact hca.trans (Nat.lt_succ_self _)
  · simp only [NoneFull, hvs] at hf ⊢
    exact h.informed_expire ha (h.openQueue_informed depth replay) hd ht hf

lemma claim (h : s.Sound) {c now : ℕ} (hf : s.NoneFull (.claim c now)) :
    (Registry.mk (s.inner.claim c now).1 (s.queues.sendAll (s.inner.claim c now).2)
      s.opened).Sound := by
  obtain ⟨vs, hvs, ht⟩ := Inner.told_claim s.inner c now
  have hd : DistinctTx (s.inner.claim c now).1 := by
    simpa [DistinctTx, claim_announce] using h.distinctTx
  refine ⟨h.wellFormed.claim c now, fun tx => (s.queues.sendAll_alive _ tx).trans (h.alive tx),
    ?_, hd, ?_⟩
  · simpa [claim_announce] using h.tx_lt
  · simp only [NoneFull, hvs] at hf ⊢
    exact h.informed_expire h.alive h.informed hd ht hf

lemma settle (h : s.Sound) {now : ℕ} (hf : s.NoneFull (.settle now)) :
    (Registry.mk (s.inner.expireAbsentOwner now).1
      (s.queues.sendAll (s.inner.expireAbsentOwner now).2) s.opened).Sound := by
  have hd : DistinctTx (s.inner.expireAbsentOwner now).1 := by
    simpa [DistinctTx, Inner.expire_announce] using h.distinctTx
  refine ⟨h.wellFormed.expire now, fun tx => (s.queues.sendAll_alive _ tx).trans (h.alive tx),
    ?_, hd, ?_⟩
  · simpa [Inner.expire_announce] using h.tx_lt
  · exact (Inner.told_expire h.wellFormed now).informed h.informed hd h.alive hf

lemma leave (h : s.Sound) (c now : ℕ) :
    ({ s with inner := (s.inner.leave c now).1 } : Registry).Sound := by
  have hl : ∀ d a, (s.inner.leave c now).1.announce.lookup d = some a →
      s.inner.announce.lookup d = some a :=
    fun d a hd => ((Inner.told_leave h.wellFormed c now).silent d a hd (by simp)).1
  have hd : DistinctTx (s.inner.leave c now).1 :=
    fun _ _ _ _ h1 h2 => h.distinctTx _ _ _ _ (hl _ _ h1) (hl _ _ h2)
  refine ⟨h.wellFormed.leave c now, h.alive, fun d a hd => h.tx_lt d a (hl d a hd), hd, ?_⟩
  exact (Inner.told_leave h.wellFormed c now).informed h.informed hd h.alive trivial

lemma traffic (h : s.Sound) {tx : ℕ} {c : Chan TerminalFrame} (ha : c.alive = true)
    (hv : c.sent.filterMap TerminalFrame.verdict? =
      (s.queues tx).sent.filterMap TerminalFrame.verdict?) :
    ({ s with queues := Function.update s.queues tx c } : Registry).Sound := by
  refine ⟨h.wellFormed, fun t => ?_, h.tx_lt, h.distinctTx, fun d a hd => ?_⟩
  · by_cases ht : t = tx
    · simpa [ht] using ha
    · simpa [ht] using h.alive t
  · have hq : Queues.lastVerdict (Function.update s.queues tx c) a.tx =
        s.queues.lastVerdict a.tx := by
      by_cases ht : a.tx = tx
      · simp [Queues.lastVerdict, ht, hv]
      · simp [Queues.lastVerdict, ht]
    simpa only [hq] using h.informed d a hd

lemma step (h : s.Sound) {e : Event} (hf : s.NoneFull e) (hs : s.step e = some t) : t.Sound := by
  cases e with
  | connect v depth replay now =>
    simp only [Registry.step] at hs
    split at hs
    · exact Option.some.inj hs ▸ h.connect hf
    · cases hs
  | leave c now => exact Option.some.inj hs ▸ h.leave c now
  | claim c now => exact Option.some.inj hs ▸ h.claim hf
  | settle now => exact Option.some.inj hs ▸ h.settle hf
  | queue tx frame =>
    simp only [Registry.step] at hs
    split at hs
    · rename_i hv
      refine Option.some.inj hs ▸ h.traffic ?_ ?_ <;>
        rcases (s.queues tx).offer_cases frame with ho | ho <;> rw [ho]
      · exact h.alive tx
      · exact h.alive tx
      · simp [Option.isNone_iff_eq_none.mp hv]
    · cases hs
  | recv tx =>
    obtain ⟨⟨frame, c⟩, hr, rfl⟩ := Option.map_eq_some_iff.mp hs
    refine h.traffic ?_ (by rw [Chan.recv_sent hr])
    exact (Chan.recv_alive hr).trans (h.alive tx)

end Sound

structure VerdictsAgree (s : Registry) : Prop where
  told : ∀ c a, s.inner.announce.lookup c = some a → ∃ owned generation,
    s.queues.lastVerdict a.tx = some (owned, generation) ∧
      (owned = true ↔ s.inner.owner = some a.viewer) ∧
      (owned = true → generation = s.inner.generation)
  exclusive : ∀ c d a b, s.inner.announce.lookup c = some a → s.inner.announce.lookup d = some b →
    (∃ g, s.queues.lastVerdict a.tx = some (true, g)) →
    (∃ g, s.queues.lastVerdict b.tx = some (true, g)) → a.viewer = b.viewer

theorem verdicts_agree {events : List Event} (hr : run step {} events = some t)
    (hf : Along step NoneFull {} events) : t.VerdictsAgree := by
  have hs : t.Sound := run_guarded (fun _ _ _ h hf hs => h.step hf hs)
    sound_empty hf hr
  refine ⟨fun c a ha => ?_, fun c d a b ha hb => ?_⟩
  · obtain ⟨told, ht, h1, h2⟩ := hs.informed c a ha
    exact ⟨told.1, told.2, ht, h1, h2⟩
  · rintro ⟨g, hg⟩ ⟨g', hg'⟩
    obtain ⟨told, ht, h1, -⟩ := hs.informed c a ha
    obtain ⟨told', ht', h1', -⟩ := hs.informed d b hb
    obtain rfl : told = (true, g) := Option.some.inj (ht.symm.trans hg)
    obtain rfl : told' = (true, g') := Option.some.inj (ht'.symm.trans hg')
    exact Option.some.inj ((h1.mp rfl).symm.trans (h1'.mp rfl))

theorem verdicts_agree_claimed : ∃ t : Registry,
    run step {} [.connect (.browser "a") 2 [] 0, .connect (.browser "b") 2 [] 0, .claim 1 1] =
      some t ∧ t.VerdictsAgree := by
  have hr : run step {} [.connect (.browser "a") 2 [] 0, .connect (.browser "b") 2 [] 0,
    .claim 1 1] = some _ := rfl
  refine ⟨_, hr, verdicts_agree hr ?_⟩
  refine along_cons rfl ⟨by decide, trivial⟩ (along_cons rfl ⟨by decide, trivial⟩ ?_)
  exact along_cons rfl ⟨by decide, by decide, trivial⟩ trivial

end Registry

end Nightcrow.Session.SizeOwner
