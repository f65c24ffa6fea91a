import Nightcrow.Library.Runs

namespace Nightcrow.Page.StatusDiff

open Nightcrow.Library

structure ChangedFile where
  path : String
  oldPath : Option String
  index : String
  worktree : String
  mtime : Option ℕ
  deriving DecidableEq

def rowKey (row : ChangedFile) (head : Option String) : String :=
  String.intercalate "\u0000" [head.getD "", row.index, row.worktree,
    (row.mtime.map toString).getD "", row.oldPath.getD ""]

structure Status where
  head : Option String
  files : List ChangedFile
  distinct : (files.map ChangedFile.path).Nodup

namespace Status

def row (s : Status) (path : String) : Option ChangedFile :=
  s.files.find? (fun f => f.path = path)

def key (s : Status) (path : String) : Option String :=
  (s.row path).map (fun row => rowKey row s.head)

def keys (s : Status) (path : String) : Option String :=
  (s.files.reverse.find? (fun f => f.path = path)).map (fun row => rowKey row s.head)

lemma keys_eq (s : Status) : s.keys = s.key := by
  have hfind : ∀ (files : List ChangedFile) (path : String),
      (files.map ChangedFile.path).Nodup →
      files.reverse.find? (fun f => f.path = path) = files.find? (fun f => f.path = path) := by
    intro files path hd
    induction files with
    | nil => rfl
    | cons f files ih =>
      obtain ⟨hf, hd⟩ := List.nodup_cons.mp hd
      rw [List.reverse_cons, List.find?_append, ih hd, List.find?_cons]
      by_cases hp : f.path = path
      · have hnone : files.find? (fun f => f.path = path) = none := by
          refine List.find?_eq_none.mpr (fun g hg he => hf ?_)
          rw [hp, ← of_decide_eq_true he]
          exact List.mem_map_of_mem hg
        rw [hnone]
        simp [hp]
      · simp [hp]
  funext path
  rw [keys, key, row, hfind s.files path s.distinct]

end Status

inductive Tab where
  | status | log | tree
  deriving DecidableEq

/-- A diff, with how it came to be fetched and how many events had arrived by the time it was
asked for and read. -/
structure Diff where
  path : String
  opened : Bool
  asked : ℕ
  read : ℕ
  deriving DecidableEq

inductive Pane where
  | empty
  | diff (value : Diff)
  deriving DecidableEq

structure Ask where
  path : String
  asked : ℕ
  read : Option ℕ

structure Refresh where
  path : String
  key : String
  request : ℕ
  asked : ℕ
  read : Option ℕ

structure World where
  events : List Status := []
  tab : Tab := .status
  pane : Pane := .empty
  diffRow : Option (String × String) := none
  prevKeys : Option (String → Option String) := none
  paneRequest : ℕ := 0
  asks : ℕ → Option Ask := fun _ => none
  refresh : Option Refresh := none
  failed : Bool := false

inductive Label where
  | event (status : Status)
  | chooseTab (tab : Tab)
  | open (path : String)
  | read (request : ℕ)
  | readRefresh
  | answer (request : ℕ)
  | fail (request : ℕ)
  | land
  | failRefresh

def since : List Status → String → ℕ
  | [], _ => 0
  | s :: events, path =>
    if s.key path = events.head?.bind (fun e => e.key path) then since events path
    else events.length + 1

lemma since_le (events : List Status) (path : String) : since events path ≤ events.length := by
  induction events with
  | nil => exact le_rfl
  | cons s events ih =>
    rw [since, List.length_cons]
    split
    · exact ih.trans (Nat.le_succ _)
    · exact le_rfl

namespace World

def keyNow (w : World) (path : String) : Option String :=
  w.events.head?.bind (fun e => e.key path)

def keyAt (w : World) (n : ℕ) (path : String) : Option String :=
  (w.events.drop (w.events.length - n)).head?.bind (fun e => e.key path)

def heard (w : World) (status : Status) : World :=
  { w with
    events := status :: w.events
    prevKeys := some status.keys
    refresh := none }

def onStatus (w : World) (status : Status) : World :=
  -- the effect of `useStatus` that runs for each event
  match w.tab, w.pane with
  | .status, .diff current =>
    match status.row current.path with
    | none => { w.heard status with diffRow := none, pane := .empty }
    | some row =>
      let key := rowKey row status.head
      if w.diffRow = some (current.path, key) then w.heard status
      else if w.diffRow.map Prod.fst ≠ some current.path ∧
          w.prevKeys.bind (fun keys => keys current.path) = some key then
        { w.heard status with diffRow := some (current.path, key) }
      else
        { w.heard status with
          refresh := some ⟨current.path, key, w.paneRequest, w.events.length + 1, none⟩ }
  | _, _ => { w.heard status with diffRow := none }

def openDiff (w : World) (path : String) : World :=
  { w with
    paneRequest := w.paneRequest + 1
    asks := Function.update w.asks (w.paneRequest + 1) (some ⟨path, w.events.length, none⟩) }

def stillOurs (w : World) (f : Refresh) : Bool :=
  f.request = w.paneRequest &&
    match w.pane with
    | .diff shown => shown.path = f.path
    | .empty => false

def step (w : World) : Label → Option World
  | .event status => some (w.onStatus status)
  | .chooseTab tab => some { w with tab }
  | .open path => some (w.openDiff path)
  | .read r =>
    (w.asks r).map (fun a => { w with
      asks := Function.update w.asks r (some { a with read := some w.events.length }) })
  | .readRefresh =>
    w.refresh.map (fun f => { w with refresh := some { f with read := some w.events.length } })
  | .answer r =>
    match w.asks r with
    | some ⟨path, asked, some read⟩ =>
      let w' := { w with asks := Function.update w.asks r none }
      some (if r = w.paneRequest then
        { w' with pane := .diff ⟨path, true, asked, read⟩, failed := false } else w')
    | _ => none
  | .fail r =>
    (w.asks r).map (fun _ => { w with
      asks := Function.update w.asks r none
      failed := w.failed || r = w.paneRequest })
  | .land =>
    match w.refresh with
    | some ⟨path, key, request, asked, some read⟩ =>
      let w' := { w with refresh := none }
      some (if w.stillOurs ⟨path, key, request, asked, some read⟩ then
        { w' with
          pane := .diff ⟨path, false, asked, read⟩
          diffRow := some (path, key)
          failed := false } else w')
    | _ => none
  | .failRefresh =>
    w.refresh.map (fun f => { w with refresh := none, failed := w.failed || w.stillOurs f })

/-- The diff was read since its row took its present key, or opened while its row carried it. -/
def Current (w : World) (d : Diff) : Prop :=
  since w.events d.path ≤ d.read ∨
    d.opened = true ∧ w.keyAt d.asked d.path = w.keyNow d.path

def Refreshing (w : World) (path : String) : Prop :=
  ∃ f, w.refresh = some f ∧ f.path = path ∧ f.request = w.paneRequest

/-- An event keeps the key of the row on screen while a refresh of it is in flight only if the
remembered row is of that path, changes it only in front of the status list and not to the
remembered one, and finds no refresh in flight behind another list; and an opened diff lands
with its row as it was when it was read. -/
def Steady (w : World) : Label → Prop
  | .event status =>
    match w.pane with
    | .empty => True
    | .diff d => status.key d.path ≠ none →
      if w.tab = .status then
        if status.key d.path = w.keyNow d.path then
          w.Refreshing d.path → w.diffRow.map Prod.fst = some d.path
        else w.diffRow ≠ (status.key d.path).map (Prod.mk d.path)
      else status.key d.path = w.keyNow d.path ∧ ¬ w.Refreshing d.path
  | .answer r =>
    match w.asks r with
    | some ⟨path, _, some read⟩ =>
      r = w.paneRequest → w.keyNow path ≠ none → since w.events path ≤ read
    | _ => True
  | _ => True

instance decidableRefreshing (w : World) (path : String) : Decidable (w.Refreshing path) :=
  inferInstanceAs (Decidable (∃ f ∈ w.refresh, f.path = path ∧ f.request = w.paneRequest))

instance decidableSteady (w : World) : ∀ l, Decidable (w.Steady l)
  | .event status =>
    match h : w.pane with
    | .empty => isTrue (by simp only [Steady, h])
    | .diff d =>
      decidable_of_iff (status.key d.path ≠ none →
        if w.tab = .status then
          if status.key d.path = w.keyNow d.path then
            w.Refreshing d.path → w.diffRow.map Prod.fst = some d.path
          else w.diffRow ≠ (status.key d.path).map (Prod.mk d.path)
        else status.key d.path = w.keyNow d.path ∧ ¬ w.Refreshing d.path) (by simp only [Steady, h])
  | .answer r =>
    match h : w.asks r with
    | none | some ⟨_, _, none⟩ => isTrue (by simp only [Steady, h])
    | some ⟨path, _, some read⟩ =>
      decidable_of_iff (r = w.paneRequest → w.keyNow path ≠ none → since w.events path ≤ read)
        (by simp only [Steady, h])
  | .chooseTab _ | .open _ | .read _ | .readRefresh | .fail _ | .land | .failRefresh =>
    isTrue trivial

structure Tended (w : World) : Prop where
  previous : ∀ path, w.prevKeys.bind (fun keys => keys path) = w.keyNow path
  refresh : ∀ f, w.refresh = some f → w.keyNow f.path = some f.key ∧
    since w.events f.path ≤ f.asked ∧ f.asked ≤ w.events.length ∧
    (∀ read, f.read = some read → f.asked ≤ read) ∧ w.diffRow ≠ some (f.path, f.key)
  shown : ∀ d, w.pane = .diff d → w.keyNow d.path ≠ none →
    since w.events d.path ≤ d.read ∨ w.Refreshing d.path ∨ w.asks w.paneRequest ≠ none ∨
      w.failed = true

variable {w t : World} {status : Status} {d : Diff}

inductive Taken (w : World) (status : Status) (d : Diff) : World → Prop
  | gone : status.key d.path = none →
      Taken w status d { w.heard status with diffRow := none, pane := .empty }
  | seen {key : String} : status.key d.path = some key → w.diffRow = some (d.path, key) →
      Taken w status d (w.heard status)
  | adopted {key : String} : status.key d.path = some key → w.diffRow.map Prod.fst ≠ some d.path →
      w.prevKeys.bind (fun keys => keys d.path) = some key →
      Taken w status d { w.heard status with diffRow := some (d.path, key) }
  | refetch {key : String} : status.key d.path = some key → w.diffRow ≠ some (d.path, key) →
      Taken w status d { w.heard status with
        refresh := some ⟨d.path, key, w.paneRequest, w.events.length + 1, none⟩ }

lemma onStatus_taken (htab : w.tab = .status) (hpane : w.pane = .diff d) :
    Taken w status d (w.onStatus status) := by
  simp only [onStatus, htab, hpane]
  cases hrow : status.row d.path with
  | none =>
    apply Taken.gone
    rw [Status.key, hrow]
    rfl
  | some row =>
    have hkey : status.key d.path = some (rowKey row status.head) := by
      rw [Status.key, hrow]
      rfl
    dsimp only
    split
    · rename_i hseen
      exact .seen hkey hseen
    · rename_i hseen
      split
      · rename_i hadopt
        exact .adopted hkey hadopt.1 hadopt.2
      · exact .refetch hkey hseen

lemma onStatus_elsewhere (h : w.tab ≠ .status ∨ w.pane = .empty) :
    w.onStatus status = { w.heard status with diffRow := none } := by
  rw [onStatus]
  split
  · rename_i htab hpane
    rcases h with h | h
    · exact absurd htab h
    · rw [hpane] at h
      cases h
  · rfl

@[simp] lemma heard_keyNow (path : String) : (w.heard status).keyNow path = status.key path := rfl

lemma since_heard {path : String} (h : status.key path = w.keyNow path) :
    since (w.heard status).events path = since w.events path := if_pos h

lemma keys_heard (path : String) :
    (w.heard status).prevKeys.bind (fun keys => keys path) = (w.heard status).keyNow path := by
  rw [heard_keyNow, heard, Option.bind_some, status.keys_eq]

lemma Tended.kept (ht : w.Tended) (hpane : w.pane = .diff d)
    (hkey : status.key d.path = w.keyNow d.path) (hnow : w.keyNow d.path ≠ none)
    (hquiet : ¬ w.Refreshing d.path) :
    since (w.heard status).events d.path ≤ d.read ∨ w.asks w.paneRequest ≠ none ∨
      w.failed = true := by
  rw [since_heard hkey]
  rcases ht.shown d hpane hnow with h | h | h
  · exact .inl h
  · exact absurd h hquiet
  · exact .inr h

lemma tended_heard {row : Option (String × String)}
    (h : ∀ d, w.pane = .diff d → status.key d.path ≠ none →
      since (w.heard status).events d.path ≤ d.read ∨ w.asks w.paneRequest ≠ none ∨
        w.failed = true) : ({ w.heard status with diffRow := row } : World).Tended := by
  refine ⟨keys_heard, fun f h => (by cases h), fun d hd hk => ?_⟩
  rcases h d hd hk with hfresh | hrest
  · exact .inl hfresh
  · exact .inr (.inr hrest)

lemma Tended.event (ht : w.Tended) (hs : w.Steady (.event status)) :
    (w.onStatus status).Tended := by
  by_cases hfront : w.tab = .status ∧ ∃ d, w.pane = .diff d
  · obtain ⟨htab, d, hpane⟩ := hfront
    simp only [Steady, hpane, if_pos htab] at hs
    have htaken := @onStatus_taken w status d htab hpane
    generalize w.onStatus status = t at htaken ⊢
    have honly : ∀ d', w.pane = .diff d' → d' = d := by
      intro d' hd'
      exact Pane.diff.inj (hd'.symm.trans hpane)
    cases htaken with
    | gone hgone => exact ⟨keys_heard, fun f h => (by cases h), fun d h => (by cases h)⟩
    | @seen key hkey hseen =>
      refine tended_heard (fun d' hd' hk => ?_)
      obtain rfl := honly d' hd'
      have hsame : status.key d'.path = w.keyNow d'.path := by
        by_contra hne
        have hother := hs hk
        rw [if_neg hne, hkey] at hother
        exact hother hseen
      refine ht.kept hpane hsame (hsame ▸ hk) ?_
      rintro ⟨f, hf, hpath, -⟩
      obtain ⟨hnow, -, -, -, hunseen⟩ := ht.refresh f hf
      rw [hpath, ← hsame, hkey] at hnow
      obtain rfl := Option.some.inj hnow
      rw [hpath] at hunseen
      exact hunseen hseen
    | @adopted key hkey hother hprevious =>
      refine tended_heard (fun d' hd' hk => ?_)
      obtain rfl := honly d' hd'
      have hsame : status.key d'.path = w.keyNow d'.path := by
        rw [hkey, ← hprevious, ht.previous]
      have hquiet := hs hk
      rw [if_pos hsame] at hquiet
      exact ht.kept hpane hsame (hsame ▸ hk) (fun hr => hother (hquiet hr))
    | @refetch key hkey hseen =>
      refine ⟨keys_heard, fun f hf => ?_, fun d' hd' _ => ?_⟩
      · obtain rfl := Option.some.inj hf
        exact ⟨hkey, since_le _ _, le_rfl, fun _ h => (by cases h), hseen⟩
      · obtain rfl := honly d' hd'
        exact .inr (.inl ⟨_, rfl, rfl, rfl⟩)
  · have helse : w.tab ≠ .status ∨ w.pane = .empty := by
      rcases Decidable.em (w.tab = .status) with htab | htab
      · cases hpane : w.pane with
        | empty => exact .inr rfl
        | diff d => exact absurd ⟨htab, d, hpane⟩ hfront
      · exact .inl htab
    rw [onStatus_elsewhere helse]
    refine tended_heard (fun d hd hk => ?_)
    have htab : w.tab ≠ .status := fun htab => hfront ⟨htab, d, hd⟩
    simp only [Steady, hd, if_neg htab] at hs
    obtain ⟨hsame, hquiet⟩ := hs hk
    exact ht.kept hd hsame (hsame ▸ hk) hquiet

lemma Tended.still (ht : w.Tended) (hevents : t.events = w.events) (hkeys : t.prevKeys = w.prevKeys)
    (hrow : t.diffRow = w.diffRow) (hpane : t.pane = w.pane)
    (hrefresh : ∀ f, t.refresh = some f → ∃ g, w.refresh = some g ∧ f.path = g.path ∧
      f.key = g.key ∧ f.asked = g.asked ∧ (f.read = g.read ∨ f.read = some w.events.length))
    (hshown : ∀ d, w.pane = .diff d → w.Refreshing d.path ∨ w.asks w.paneRequest ≠ none ∨
        w.failed = true → t.Refreshing d.path ∨ t.asks t.paneRequest ≠ none ∨ t.failed = true) :
    t.Tended := by
  have hnow : t.keyNow = w.keyNow := by
    funext path
    rw [keyNow, keyNow, hevents]
  refine ⟨fun path => ?_, fun f hf => ?_, fun d hd hk => ?_⟩
  · rw [hkeys, hnow, ht.previous]
  · obtain ⟨g, hg, hpath, hkey, hasked, hread⟩ := hrefresh f hf
    obtain ⟨hgnow, hgsince, hgasked, hgread, hgrow⟩ := ht.refresh g hg
    rw [hnow, hevents, hrow, hpath, hkey, hasked]
    refine ⟨hgnow, hgsince, hgasked, fun read hr => ?_, hgrow⟩
    rcases hread with hread | hread
    · exact hgread read (hread ▸ hr)
    · rw [hread] at hr
      exact Option.some.inj hr ▸ hgasked
  · rw [hpane] at hd
    rw [hnow] at hk
    rw [hevents]
    exact (ht.shown d hd hk).imp_right (hshown d hd)

lemma Tended.landed (ht : w.Tended) (hevents : t.events = w.events)
    (hkeys : t.prevKeys = w.prevKeys) (hpane : t.pane = .diff d)
    (hrefresh : ∀ f, t.refresh = some f → w.refresh = some f ∧ t.diffRow = w.diffRow)
    (hread : w.keyNow d.path ≠ none → since w.events d.path ≤ d.read) : t.Tended := by
  have hnow : t.keyNow = w.keyNow := by
    funext path
    rw [keyNow, keyNow, hevents]
  refine ⟨fun path => ?_, fun f hf => ?_, fun d' hd hk => .inl ?_⟩
  · rw [hkeys, hnow, ht.previous]
  · obtain ⟨hf, hrow⟩ := hrefresh f hf
    rw [hnow, hevents, hrow]
    exact ht.refresh f hf
  · obtain rfl := Pane.diff.inj (hpane.symm.trans hd)
    rw [hnow] at hk
    rw [hevents]
    exact hread hk

lemma refreshing_ours {f : Refresh} (hf : w.refresh = some f) (hpane : w.pane = .diff d)
    (h : w.Refreshing d.path) : w.stillOurs f = true := by
  obtain ⟨g, hg, hpath, hrequest⟩ := h
  obtain rfl := Option.some.inj (hf.symm.trans hg)
  rw [stillOurs, hpane]
  simp [hpath, hrequest]

lemma update_asks {asks : ℕ → Option Ask} {r n : ℕ} {a : Ask} (h : asks n ≠ none) :
    Function.update asks r (some a) n ≠ none := by
  by_cases hn : n = r
  · rw [hn, Function.update_self]
    exact Option.some_ne_none a
  · rwa [Function.update_of_ne hn]

lemma drop_asks {asks : ℕ → Option Ask} {r n : ℕ} (h : asks n ≠ none) :
    Function.update asks r none n ≠ none ∨ r = n := by
  by_cases hn : r = n
  · exact .inr hn
  · rw [Function.update_of_ne (Ne.symm hn)]
    exact .inl h

lemma step_tended {l : Label} (ht : w.Tended) (hl : w.Steady l) (h : w.step l = some t) :
    t.Tended := by
  have hsame : ∀ f, w.refresh = some f → ∃ g, w.refresh = some g ∧ f.path = g.path ∧
      f.key = g.key ∧ f.asked = g.asked ∧ (f.read = g.read ∨ f.read = some w.events.length) :=
    fun f hf => ⟨f, hf, rfl, rfl, rfl, .inl rfl⟩
  cases l with
  | event status =>
    obtain rfl := Option.some.inj h
    exact ht.event hl
  | chooseTab tab =>
    obtain rfl := Option.some.inj h
    exact ht.still rfl rfl rfl rfl hsame (fun _ _ h => h)
  | «open» path =>
    obtain rfl := Option.some.inj h
    refine ht.still rfl rfl rfl rfl hsame (fun _ _ _ => .inr (.inl ?_))
    simp only [openDiff, Function.update_self]
    exact Option.some_ne_none _
  | read r =>
    obtain ⟨a, ha, rfl⟩ := Option.map_eq_some_iff.mp h
    refine ht.still rfl rfl rfl rfl hsame (fun d hd h => ?_)
    exact h.imp_right (Or.imp_left update_asks)
  | readRefresh =>
    obtain ⟨f, hf, rfl⟩ := Option.map_eq_some_iff.mp h
    refine ht.still rfl rfl rfl rfl (fun g hg => ?_) (fun d hd h => h.imp_left ?_)
    · obtain rfl := Option.some.inj hg
      exact ⟨f, hf, rfl, rfl, rfl, .inr rfl⟩
    · rintro ⟨g, hg, hpath, hrequest⟩
      obtain rfl := Option.some.inj (hf.symm.trans hg)
      exact ⟨_, rfl, hpath, hrequest⟩
  | answer r =>
    simp only [step] at h
    split at h
    · rename_i path asked read hask
      obtain rfl := Option.some.inj h
      split
      · rename_i hr
        simp only [Steady, hask] at hl
        exact ht.landed rfl rfl rfl (fun f hf => ⟨hf, rfl⟩) (hl hr)
      · rename_i hr
        refine ht.still rfl rfl rfl rfl hsame (fun d hd h => ?_)
        exact h.imp_right (Or.imp_left (fun ha => (drop_asks ha).resolve_right hr))
    · cases h
  | fail r =>
    obtain ⟨a, ha, rfl⟩ := Option.map_eq_some_iff.mp h
    refine ht.still rfl rfl rfl rfl hsame (fun d hd h => ?_)
    rcases h with h | h | h
    · exact .inl h
    · rcases drop_asks (r := r) h with h | h
      · exact .inr (.inl h)
      · exact .inr (.inr (by simp [h]))
    · exact .inr (.inr (by simp [h]))
  | land =>
    simp only [step] at h
    split at h
    · rename_i path key request asked read hf
      obtain ⟨-, hsince, -, hread, -⟩ := ht.refresh _ hf
      obtain rfl := Option.some.inj h
      split
      · exact ht.landed rfl rfl rfl (fun f hf => by cases hf)
          (fun _ => hsince.trans (hread read rfl))
      · rename_i hours
        refine ht.still rfl rfl rfl rfl (fun f hf => by cases hf) (fun d hd h => ?_)
        rcases h with h | h
        · exact absurd (refreshing_ours hf hd h) hours
        · exact .inr h
    · cases h
  | failRefresh =>
    obtain ⟨f, hf, rfl⟩ := Option.map_eq_some_iff.mp h
    refine ht.still rfl rfl rfl rfl (fun f hf => by cases hf) (fun d hd h => .inr ?_)
    rcases h with h | h | h
    · exact .inr (by simp [refreshing_ours hf hd h])
    · exact .inl h
    · exact .inr (by simp [h])

lemma tended_initial : ({} : World).Tended :=
  ⟨fun _ => rfl, fun _ h => (by cases h), fun _ h => (by cases h)⟩

theorem open_diff_is_current (ls : List Label) (w : World) (d : Diff)
    (hsteady : Along step Steady {} ls) (hrun : run step {} ls = some w)
    (hpane : w.pane = .diff d) (hlisted : w.keyNow d.path ≠ none) (hrefresh : w.refresh = none)
    (hasks : w.asks w.paneRequest = none) (hfailed : w.failed = false) : w.Current d := by
  have ht : w.Tended :=
    run_guarded (fun _ _ _ ht hl h => step_tended ht hl h) tended_initial hsteady hrun
  rcases ht.shown d hpane hlisted with h | ⟨f, hf, -⟩ | h | h
  · exact .inl h
  · rw [hrefresh] at hf
    cases hf
  · exact absurd hasks h
  · rw [hfailed] at h
    cases h

def touched (path : String) (mtime : ℕ) : ChangedFile := ⟨path, none, " ", "M", some mtime⟩

def twoRows (a b : ℕ) : Status where
  head := some "4b825dc"
  files := [touched "a.ts" a, touched "b.ts" b]
  distinct := by simp [touched]

def openedThenMoved : List Label :=
  [.event (twoRows 100 100), .open "b.ts", .read 1, .answer 1, .event (twoRows 100 200),
    .readRefresh, .land, .event (twoRows 300 200)]

theorem open_diff_is_current_moved :
    ∃ w, run step {} openedThenMoved = some w ∧
      w.pane = .diff ⟨"b.ts", false, 2, 2⟩ ∧ w.Current ⟨"b.ts", false, 2, 2⟩ := by
  have hseen : (run step {} openedThenMoved).map (fun w => (w.pane, (w.keyNow "b.ts").isSome,
      w.refresh.isNone, (w.asks w.paneRequest).isNone, w.failed)) =
      some (.diff ⟨"b.ts", false, 2, 2⟩, true, true, true, false) := by
    decide +kernel
  have hsteady : Along step Steady {} openedThenMoved := by
    decide +kernel
  obtain ⟨w, hrun, hw⟩ := Option.map_eq_some_iff.mp hseen
  obtain ⟨hpane, hlisted, hrefresh, hasks, hfailed⟩ :
      w.pane = _ ∧ (w.keyNow "b.ts").isSome = true ∧ w.refresh.isNone = true ∧
        (w.asks w.paneRequest).isNone = true ∧ w.failed = false := by
    simpa only [Prod.mk.injEq] using hw
  exact ⟨w, hrun, hpane, open_diff_is_current openedThenMoved w _ hsteady hrun hpane
    (Option.isSome_iff_ne_none.mp hlisted) (Option.isNone_iff_eq_none.mp hrefresh)
    (Option.isNone_iff_eq_none.mp hasks) hfailed⟩

/-- The second event repeats the row while its refresh is in flight. -/
theorem repeated_event_adopts_stale :
    ∃ w, run step {} [.event (twoRows 100 100), .open "b.ts", .read 1, .answer 1,
        .event (twoRows 100 200), .event (twoRows 300 200)] = some w ∧
      w.tab = .status ∧ w.pane = .diff ⟨"b.ts", true, 1, 1⟩ ∧ w.keyNow "b.ts" ≠ none ∧
      w.refresh = none ∧ (∀ r, w.asks r = none) ∧ w.failed = false ∧
      ¬ w.Current ⟨"b.ts", true, 1, 1⟩ := by
  refine ⟨_, rfl, rfl, rfl, ?_, rfl, ?_, rfl, ?_⟩
  · decide +kernel
  · intro r
    by_cases hr : r = 1
    · subst hr
      rfl
    · exact (Function.update_of_ne hr _ _).trans
        ((Function.update_of_ne hr _ _).trans (Function.update_of_ne hr _ _))
  · rw [Current]
    decide +kernel

end World

end Nightcrow.Page.StatusDiff
