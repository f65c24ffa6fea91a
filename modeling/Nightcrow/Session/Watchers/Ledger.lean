import Nightcrow.Session.Watchers.Hub

/-! A hub seen as a ledger with a row for every pane, and the few ways in which one turns into
the next. -/

namespace Nightcrow.Session.Watchers

open Nightcrow.Backend
open Nightcrow.Session.Terminal (PaneId)

@[ext]
structure Row where
  owner : Option String := none
  intended : Option String := none
  pending : Bool := false
  slot : Option (PaneIdentity × PaneLaunch) := none
  live : Bool := false
  spawned : Option PaneToken := none

@[ext]
structure Ledger where
  rows : PaneId → Row
  hosted : String → Bool
  nextId : PaneId
  grants : List Grant

inductive Upset
  | hostDown
  | slotLost
  | takenOver
deriving DecidableEq, Repr

namespace Ledger

def set (l : Ledger) (pane : PaneId) (row : Row) : Ledger :=
  { l with rows := Function.update l.rows pane row }

inductive Turn (upset : Upset → Prop) : Ledger → Ledger → Prop
  | opened (l : Ledger) (identity : PaneIdentity) (launch : PaneLaunch) :
    Turn upset l { l.set l.nextId
      { slot := some (identity, launch), live := true, spawned := some identity.token } with
      nextId := l.nextId + 1 }
  | granted (l : Ledger) (pane : PaneId) (token : PaneToken) (plugin : String) (quoted : Bool) :
    pane < l.nextId → (l.rows pane).spawned = some token →
    (l.hosted plugin ∨ (l.rows pane).owner = none) →
    Turn upset l { l.set pane { l.rows pane with
        intended := some plugin
        owner := if l.hosted plugin then some plugin else (l.rows pane).owner } with
      grants := l.grants ++ [⟨token, plugin, quoted⟩] }
  | unwatchedGone (l : Ledger) (pane : PaneId) : (l.rows pane).owner = none →
    Turn upset l (l.set pane { l.rows pane with slot := none, live := false })
  | watchedGone (l : Ledger) (pane : PaneId) :
    Turn upset l (l.set pane { spawned := (l.rows pane).spawned })
  | held (l : Ledger) (pane : PaneId) : (l.rows pane).owner ≠ none → (l.rows pane).slot ≠ none →
    Turn upset l (l.set pane { l.rows pane with pending := true, live := false })
  | holdRetired (l : Ledger) (pane : PaneId) (intended : Option String) :
    (l.rows pane).pending = true → intended = none ∨ intended = (l.rows pane).intended →
    Turn upset l (l.set pane { l.rows pane with
      owner := none, intended, pending := false, slot := none })
  | released (l : Ledger) (pane : PaneId) :
    Turn upset l (l.set pane { l.rows pane with owner := none, pending := false })
  | hostUp (l : Ledger) (plugin : String) :
    Turn upset l { l with hosted := Function.update l.hosted plugin true }
  | hostDown (l : Ledger) (plugin : String) : upset .hostDown →
    Turn upset l { l with hosted := Function.update l.hosted plugin false }
  | handedOver (l : Ledger) (pane : PaneId) (plugin : String) :
    (l.rows pane).intended = some plugin → (l.rows pane).live = true → l.hosted plugin = true →
    Turn upset l (l.set pane { l.rows pane with owner := some plugin })
  | slotLost (l : Ledger) (pane : PaneId) : upset .slotLost → (l.rows pane).pending = true →
    Turn upset l (l.set pane { l.rows pane with slot := none })
  | takenOver (l : Ledger) (pane : PaneId) (plugin : String) (identity next : PaneIdentity)
      (launch : PaneLaunch) : upset .takenOver → (l.rows pane).pending = true →
    (l.rows pane).owner = some plugin → (l.rows pane).slot = some (identity, launch) →
    next.token = identity.token →
    Turn upset l { (l.set pane { l.rows pane with
        owner := none, pending := false, slot := none }).set l.nextId
      { owner := some plugin, slot := some (next, launch), live := true,
        spawned := some next.token } with
      nextId := l.nextId + 1 }

abbrev Turns (upset : Upset → Prop) : Ledger → Ledger → Prop := Relation.ReflTransGen (Turn upset)

end Ledger

def Row.Entitled (grants : List Grant) (row : Row) (plugin : String) : Prop :=
  ∃ token, row.spawned = some token ∧ ∃ g ∈ grants, g.token = token ∧ g.plugin = plugin

def Row.Stands (row : Row) (plugin : String) : Prop :=
  row.owner = some plugin ∨ row.intended = some plugin

structure Row.Sound (grants : List Grant) (row : Row) : Prop where
  minted : ∀ identity launch, row.slot = some (identity, launch) →
    row.spawned = some identity.token
  liveSlot : row.live = true → row.slot ≠ none
  pendingOwned : row.pending = true → row.owner ≠ none
  pendingGone : row.pending = true → row.live = false
  entitled : ∀ plugin, row.owner = some plugin ∨ row.intended = some plugin →
    row.Entitled grants plugin

namespace Ledger

structure Sound (l : Ledger) : Prop where
  fresh : ∀ pane, l.nextId ≤ pane → l.rows pane = {}
  row : ∀ pane, (l.rows pane).Sound l.grants

variable {upset : Upset → Prop} {l m : Ledger}

@[simp] lemma rows_set {pane : PaneId} {row : Row} : (l.set pane row).rows pane = row := by
  simp [set]

lemma rows_set_of_ne {pane i : PaneId} {row : Row} (h : i ≠ pane) :
    (l.set pane row).rows i = l.rows i := by
  simp [set, h]

@[simp] lemma set_set {pane : PaneId} {row other : Row} :
    (l.set pane row).set pane other = l.set pane other := by
  simp [set]

@[simp] lemma set_rows {pane : PaneId} : l.set pane (l.rows pane) = l := by
  simp [set]

lemma forall_set {p : Row → Prop} {pane : PaneId} {row : Row} (hl : ∀ i, p (l.rows i))
    (hrow : p row) (i : PaneId) : p ((l.set pane row).rows i) := by
  by_cases hi : i = pane
  · subst hi
    simpa [set] using hrow
  · simpa [set, hi] using hl i

lemma Sound.set (hl : l.Sound) {pane : PaneId} {row : Row} (hblank : l.rows pane = {} → row = {})
    (hrow : row.Sound l.grants) : (l.set pane row).Sound where
  fresh i hi := by
    have hf := hl.fresh i hi
    by_cases hip : i = pane
    · subst hip
      simpa [Ledger.set] using hblank hf
    · simpa [Ledger.set, hip] using hf
  row := forall_set hl.row hrow

lemma Sound.append (hl : l.Sound) {row : Row} (hrow : row.Sound l.grants) :
    Ledger.Sound { l.set l.nextId row with nextId := l.nextId + 1 } where
  fresh i hi := by
    have hlt : l.nextId < i := hi
    simpa [Ledger.set, hlt.ne'] using hl.fresh i hlt.le
  row := forall_set hl.row hrow

end Ledger

namespace Row

variable {row : Row} {grants : List Grant}

lemma Entitled.grant {plugin : String} (h : row.Entitled grants plugin) (g : Grant) :
    row.Entitled (grants ++ [g]) plugin := by
  obtain ⟨token, hs, e, he, h⟩ := h
  exact ⟨token, hs, e, List.mem_append_left _ he, h⟩

lemma Sound.grant (h : row.Sound grants) (g : Grant) : row.Sound (grants ++ [g]) :=
  { h with entitled := fun plugin hp => (h.entitled plugin hp).grant g }

end Row

namespace Ledger

variable {upset : Upset → Prop} {l m : Ledger}

lemma Sound.turn (hl : l.Sound) (ht : Turn upset l m) : m.Sound := by
  cases ht with
  | opened identity launch =>
    refine hl.append ⟨?_, by simp, by simp, by simp, by simp⟩
    rintro identity' launch' h
    obtain ⟨rfl, -⟩ := Prod.mk.inj (Option.some.inj h)
    rfl
  | granted pane token plugin quoted hlt hs ho =>
    obtain ⟨hm, hv, hp, hg, he⟩ := (hl.row pane).grant ⟨token, plugin, quoted⟩
    have hr : Row.Sound (l.grants ++ [⟨token, plugin, quoted⟩]) { l.rows pane with
        intended := some plugin
        owner := if l.hosted plugin then some plugin else (l.rows pane).owner } := by
      refine ⟨hm, hv, fun h => ?_, hg, ?_⟩
      · dsimp only
        split
        · simp
        · exact hp h
      · intro other hother
        by_cases ho : other = plugin
        · subst ho
          exact ⟨token, hs, ⟨token, other, quoted⟩, by simp, rfl, rfl⟩
        · have howner : (l.rows pane).owner = some other := by
            rcases hother with h | h
            · dsimp only at h
              split at h
              · exact absurd (Option.some.inj h).symm ho
              · exact h
            · exact absurd (Option.some.inj h).symm ho
          exact he other (.inl howner)
    refine ⟨fun i hi => ?_, forall_set (fun i => (hl.row i).grant _) hr⟩
    have hne : i ≠ pane := fun h => absurd hlt (not_lt.mpr (h ▸ hi))
    simpa [Ledger.set, hne] using hl.fresh i hi
  | unwatchedGone pane ho =>
    obtain ⟨hm, hv, hp, hg, he⟩ := hl.row pane
    refine hl.set (fun h => by simp [h]) ⟨by simp, by simp, hp, by simp, he⟩
  | watchedGone pane =>
    exact hl.set (fun h => by simp [h]) ⟨by simp, by simp, by simp, by simp, by simp⟩
  | held pane ho hs =>
    obtain ⟨hm, hv, hp, hg, he⟩ := hl.row pane
    exact hl.set (fun h => absurd (by simp [h]) ho) ⟨hm, by simp, fun _ => ho, by simp, he⟩
  | holdRetired pane intended hp hi =>
    obtain ⟨hm, hv, -, hg, he⟩ := hl.row pane
    have hlive := hg hp
    refine hl.set (fun h => by simp [h] at hp) ⟨by simp, by simp [hlive], by simp, by simp, ?_⟩
    intro plugin h
    rcases hi with rfl | rfl
    · simp at h
    · exact he plugin (.inr (by simpa using h))
  | released pane =>
    obtain ⟨hm, hv, hp, hg, he⟩ := hl.row pane
    refine hl.set (fun h => by simp [h]) ⟨hm, hv, by simp, by simp, ?_⟩
    exact fun plugin h => he plugin (.inr (by simpa using h))
  | hostUp plugin => exact ⟨hl.fresh, hl.row⟩
  | hostDown plugin hu => exact ⟨hl.fresh, hl.row⟩
  | handedOver pane plugin hi hv hh =>
    obtain ⟨hm, hs, hp, hg, he⟩ := hl.row pane
    refine hl.set (fun h => by simp [h] at hv) ⟨hm, hs, by simp, hg, ?_⟩
    intro other h
    have : other = plugin := by
      rcases h with h | h
      · exact (Option.some.inj h).symm
      · exact Option.some.inj (h.symm.trans hi)
    exact this ▸ he plugin (.inr hi)
  | slotLost pane hu hp =>
    obtain ⟨hm, hs, ho, hg, he⟩ := hl.row pane
    have hlive := hg hp
    exact hl.set (fun h => by simp [h] at hp) ⟨by simp, by simp [hlive], ho, hg, he⟩
  | takenOver pane plugin identity next launch hu hp ho hs hn =>
    obtain ⟨hm, hv, hpo, hg, he⟩ := hl.row pane
    have hlive := hg hp
    have hl' : (l.set pane { l.rows pane with
        owner := none, pending := false, slot := none }).Sound := by
      refine hl.set (fun h => by simp [h] at hp) ⟨by simp, by simp [hlive], by simp, by simp, ?_⟩
      exact fun plugin h => he plugin (.inr (by simpa using h))
    obtain ⟨token, ht, g, hgm, hgt, hgp⟩ := he plugin (.inl ho)
    have htok : token = identity.token := Option.some.inj (ht.symm.trans (hm identity launch hs))
    refine hl'.append ⟨?_, by simp, by simp, by simp, ?_⟩
    · rintro identity' launch' h
      obtain ⟨rfl, -⟩ := Prod.mk.inj (Option.some.inj h)
      rfl
    · intro other h
      obtain rfl : plugin = other := by simpa using h
      exact ⟨next.token, rfl, g, hgm, by rw [hgt, htok, hn], hgp⟩

lemma Sound.turns (hl : l.Sound) (ht : Turns upset l m) : m.Sound := by
  induction ht with
  | refl => exact hl
  | tail _ ht ih => exact ih.turn ht

def Held (l : Ledger) : Prop := ∀ pane, (l.rows pane).pending = true → (l.rows pane).slot ≠ none

def Recorded (l : Ledger) : Prop :=
  ∀ pane plugin, (l.rows pane).owner = some plugin → (l.rows pane).intended = some plugin

lemma Held.turn (hl : l.Sound) (hh : l.Held) (hu : ¬ upset .slotLost) (ht : Turn upset l m) :
    m.Held := by
  have hset : ∀ (pane : PaneId) (row : Row), (row.pending = true → row.slot ≠ none) →
      (l.set pane row).Held := fun pane row hrow =>
    @forall_set l (fun row => row.pending = true → row.slot ≠ none) pane row hh hrow
  cases ht with
  | opened identity launch => exact hset _ _ (by simp)
  | granted pane token plugin quoted hlt hs ho => exact hset _ _ (hh pane)
  | unwatchedGone pane ho =>
    exact hset _ _ (fun hp => absurd ho ((hl.row pane).pendingOwned hp))
  | watchedGone pane => exact hset _ _ (by simp)
  | held pane ho hs => exact hset _ _ (fun _ => hs)
  | holdRetired pane intended hp hi => exact hset _ _ (by simp)
  | released pane => exact hset _ _ (by simp)
  | hostUp plugin => exact hh
  | hostDown plugin hu => exact hh
  | handedOver pane plugin hi hv hh' => exact hset _ _ (hh pane)
  | slotLost pane hlost hp => exact absurd hlost hu
  | takenOver pane plugin identity next launch ht hp ho hs hn =>
    have hleft := hset pane { l.rows pane with owner := none, pending := false, slot := none }
      (by simp)
    exact @forall_set _ (fun row => row.pending = true → row.slot ≠ none) _ _ hleft (by simp)

lemma Recorded.turn (hr : l.Recorded) (hu : ¬ upset .takenOver) (ht : Turn upset l m) :
    m.Recorded := by
  have hset : ∀ (pane : PaneId) (row : Row),
      (∀ plugin, row.owner = some plugin → row.intended = some plugin) →
      (l.set pane row).Recorded := fun pane row hrow =>
    @forall_set l (fun row => ∀ plugin, row.owner = some plugin → row.intended = some plugin)
      pane row hr hrow
  cases ht with
  | opened identity launch => exact hset _ _ (by simp)
  | granted pane token plugin quoted hlt hs ho =>
    refine hset _ _ (fun other h => ?_)
    dsimp only at h ⊢
    split at h
    · exact h
    · rename_i hh
      have := ho.resolve_left hh
      simp [this] at h
  | unwatchedGone pane ho => exact hset _ _ (hr pane)
  | watchedGone pane => exact hset _ _ (by simp)
  | held pane ho hs => exact hset _ _ (hr pane)
  | holdRetired pane intended hp hi => exact hset _ _ (by simp)
  | released pane => exact hset _ _ (by simp)
  | hostUp plugin => exact hr
  | hostDown plugin hu => exact hr
  | handedOver pane plugin hi hv hh =>
    exact hset _ _ (fun other h => Option.some.inj h ▸ hi)
  | slotLost pane hlost hp => exact hset _ _ (hr pane)
  | takenOver pane plugin identity next launch ht hp ho hs hn => exact absurd ht hu

def Agreed (l : Ledger) : Prop :=
  ∀ pane plugin other, (l.rows pane).owner = some plugin → (l.rows pane).intended = some other →
    other = plugin

lemma Agreed.turn (ha : l.Agreed) (ht : Turn upset l m) : m.Agreed := by
  have hset : ∀ (pane : PaneId) (row : Row),
      (∀ plugin other, row.owner = some plugin → row.intended = some other → other = plugin) →
      (l.set pane row).Agreed := fun pane row hrow =>
    @forall_set l (fun row => ∀ plugin other, row.owner = some plugin →
      row.intended = some other → other = plugin) pane row ha hrow
  cases ht with
  | opened identity launch => exact hset _ _ (by simp)
  | granted pane token plugin quoted hlt hs ho =>
    refine hset _ _ (fun owner other h hi => ?_)
    dsimp only at h hi
    split at h
    · exact Option.some.inj (hi.symm.trans h)
    · rename_i hh
      simp [ho.resolve_left hh] at h
  | unwatchedGone pane ho => exact hset _ _ (ha pane)
  | watchedGone pane => exact hset _ _ (by simp)
  | held pane ho hs => exact hset _ _ (ha pane)
  | holdRetired pane intended hp hi => exact hset _ _ (by simp)
  | released pane => exact hset _ _ (by simp)
  | hostUp plugin => exact ha
  | hostDown plugin hu => exact ha
  | handedOver pane plugin hi hv hh =>
    exact hset _ _ (fun owner other h hi' =>
      (Option.some.inj (hi'.symm.trans hi)).trans (Option.some.inj h))
  | slotLost pane hlost hp => exact hset _ _ (ha pane)
  | takenOver pane plugin identity next launch ht hp ho hs hn =>
    have hleft := hset pane { l.rows pane with owner := none, pending := false, slot := none }
      (by simp)
    exact @forall_set _ (fun row => ∀ plugin other, row.owner = some plugin →
      row.intended = some other → other = plugin) _ _ hleft (by simp)

lemma Turn.grants (ht : Turn upset l m) : l.grants <+: m.grants := by
  cases ht with
  | granted => exact List.prefix_append _ _
  | _ => exact List.prefix_rfl

lemma Turns.grants (ht : Turns upset l m) : l.grants <+: m.grants := by
  induction ht with
  | refl => exact List.prefix_rfl
  | tail _ ht ih => exact ih.trans ht.grants

lemma stands_turn {i : PaneId} {plugin : String} (hu : ¬ upset .takenOver)
    (hg : m.grants = l.grants) (ht : Turn upset l m) (hm : (m.rows i).Stands plugin) :
    (l.rows i).Stands plugin := by
  have hset : ∀ (pane : PaneId) (row : Row),
      (row.Stands plugin → (l.rows pane).Stands plugin) →
      ((l.set pane row).rows i).Stands plugin → (l.rows i).Stands plugin := by
    intro pane row hrow hi
    by_cases hip : i = pane
    · subst hip
      rw [rows_set] at hi
      exact hrow hi
    · rwa [rows_set_of_ne hip] at hi
  cases ht with
  | opened identity launch => exact hset _ _ (by simp [Row.Stands]) hm
  | granted pane token other quoted hlt hs ho => simp at hg
  | unwatchedGone pane ho => exact hset _ _ (by exact id) hm
  | watchedGone pane => exact hset _ _ (by simp [Row.Stands]) hm
  | held pane ho hs => exact hset _ _ (by exact id) hm
  | holdRetired pane intended hp hi =>
    refine hset _ _ (fun h => .inr ?_) hm
    rcases hi with rfl | rfl
    · simp [Row.Stands] at h
    · simpa [Row.Stands] using h
  | released pane => exact hset _ _ (fun h => .inr (by simpa [Row.Stands] using h)) hm
  | hostUp other => exact hm
  | hostDown other hd => exact hm
  | handedOver pane other hi hv hh =>
    refine hset _ _ (fun h => .inr ?_) hm
    rcases h with h | h
    · exact Option.some.inj h ▸ hi
    · exact h
  | slotLost pane hlost hp => exact hset _ _ (by exact id) hm
  | takenOver pane other identity next launch ht hp ho hs hn => exact absurd ht hu

lemma stands_turns {i : PaneId} {plugin : String} (hu : ¬ upset .takenOver)
    (hg : m.grants = l.grants) (ht : Turns upset l m) (hm : (m.rows i).Stands plugin) :
    (l.rows i).Stands plugin := by
  induction ht with
  | refl => exact hm
  | tail hts ht ih =>
    rename_i k m
    have hk : k.grants = l.grants :=
      ((Turns.grants hts).eq_of_length_le (hg ▸ ht.grants.length_le)).symm
    exact ih hk (stands_turn hu (hg.trans hk.symm) ht hm)

lemma Agreed.turns (ha : l.Agreed) (ht : Turns upset l m) : m.Agreed := by
  induction ht with
  | refl => exact ha
  | tail _ ht ih => exact ih.turn ht

lemma Held.turns (hl : l.Sound) (hh : l.Held) (hu : ¬ upset .slotLost) (ht : Turns upset l m) :
    m.Held := by
  induction ht with
  | refl => exact hh
  | tail hts ht ih => exact ih.turn (hl.turns hts) hu ht

lemma Recorded.turns (hr : l.Recorded) (hu : ¬ upset .takenOver) (ht : Turns upset l m) :
    m.Recorded := by
  induction ht with
  | refl => exact hr
  | tail _ ht ih => exact ih.turn hu ht

end Ledger

end Nightcrow.Session.Watchers
