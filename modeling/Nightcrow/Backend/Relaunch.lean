import Nightcrow.Backend.Pty
import Nightcrow.Library.Text

namespace Nightcrow.Backend

open Nightcrow.Library
open Nightcrow.Session.Terminal (PaneId PaneSize)

def shellMetachars : String := "|&;<>()$`\\\"'*?[]#~%!^\x7b\x7d"

def appendedText (args : List String) : List Char := args.flatMap fun arg => ' ' :: arg.toList

def composedLine (command : String) (args : List String) : String :=
  String.ofList (command.toList ++ appendedText args)

structure ApprovedArg (allowed : List String) (first : Bool) (arg : String) : Prop where
  nonempty : arg ≠ ""
  visible : ∀ c ∈ arg.toList, isWhiteSpace c = false
  plain : ∀ c ∈ arg.toList, c ∉ shellMetachars.toList
  listed : first = true ∨ arg.toList.head? = some '-' ∨ arg.toList.head? = some '/' →
    arg ∈ allowed

variable {c : Char} {base : Option String} {line command arg : String}
  {args allowed : List String} {index : ℕ}

lemma not_white_of_safe (h : isSafeArgChar c = true) : isWhiteSpace c = false := by
  have halnum : c.isAlphanum = true → isWhiteSpace c = false := by
    intro h
    simp only [Char.isAlphanum, Char.isAlpha, Char.isUpper, Char.isLower, Char.isDigit,
      Bool.or_eq_true, Bool.and_eq_true, decide_eq_true_eq, UInt32.le_iff_toNat_le, ge_iff_le] at h
    simp only [isWhiteSpace, Bool.or_eq_false_iff, Bool.and_eq_false_iff, beq_eq_false_iff_ne,
      decide_eq_false_iff_not, UInt32.le_iff_toNat_le, ne_eq, ← UInt32.toNat_inj,
      UInt32.toNat_ofNat]
    change ((65 ≤ c.val.toNat ∧ c.val.toNat ≤ 90) ∨ (97 ≤ c.val.toNat ∧ c.val.toNat ≤ 122)) ∨
      (48 ≤ c.val.toNat ∧ c.val.toNat ≤ 57) at h
    omega
  rw [isSafeArgChar, Bool.or_eq_true] at h
  rcases h with h | h
  · exact halnum h
  · have hs := of_decide_eq_true h
    simp only [List.mem_cons, List.not_mem_nil, or_false] at hs
    rcases hs with rfl | rfl | rfl | rfl | rfl | rfl | rfl | rfl <;> decide

lemma not_meta_of_safe (h : isSafeArgChar c = true) : c ∉ shellMetachars.toList := by
  intro hm
  have hmeta : ∀ c ∈ shellMetachars.toList, isSafeArgChar c = false := by
    simp [shellMetachars, isSafeArgChar]
  rw [hmeta c hm] at h
  cases h

lemma space_not_mem_of_safe (h : ∀ c ∈ arg.toList, isSafeArgChar c = true) : ' ' ∉ arg.toList := by
  intro hs
  have hw := not_white_of_safe (h ' ' hs)
  revert hw
  decide

lemma isPrefixOf_singleton (s : String) (c : Char) :
    (String.singleton c).isPrefixOf s = true ↔ s.toList.head? = some c := by
  rw [String.isPrefixOf, String.startsWith_string_iff, String.toList_singleton]
  cases s.toList <;> simp [List.cons_prefix_cons, eq_comm]

lemma appendResumeArgs_ok (h : appendResumeArgs allowed line index args = .ok command) :
    command = composedLine line args ∧
      (∀ arg ∈ args, ' ' ∉ arg.toList) ∧
      ∀ i arg, args[i]? = some arg → ApprovedArg allowed (index + i = 0) arg := by
  induction args generalizing line index with
  | nil =>
    cases h
    refine ⟨?_, by simp, by simp⟩
    simp [composedLine, appendedText]
  | cons first rest ih =>
    rw [appendResumeArgs] at h
    split_ifs at h with hempty hlong hsafe hlisted
    obtain ⟨hline, hspace, happroved⟩ := ih h
    have hchars : ∀ c ∈ first.toList, isSafeArgChar c = true := by simpa using hsafe
    refine ⟨?_, ?_, ?_⟩
    · rw [hline]
      simp [composedLine, appendedText]
    · intro arg harg
      rcases List.mem_cons.mp harg with rfl | harg
      · exact space_not_mem_of_safe hchars
      · exact hspace arg harg
    · intro i arg hi
      cases i with
      | zero =>
        obtain rfl : first = arg := by simpa using hi
        refine ⟨by simpa using hempty, fun c hc => not_white_of_safe (hchars c hc),
          fun c hc => not_meta_of_safe (hchars c hc), fun hl => ?_⟩
        by_contra hnot
        refine hlisted (Bool.and_eq_true_iff.mpr ⟨?_, by simpa using hnot⟩)
        rw [Bool.or_eq_true, Bool.or_eq_true]
        rcases hl with hl | hl | hl
        · exact .inl (.inl (by simpa using hl))
        · exact .inl (.inr ((isPrefixOf_singleton first '-').mpr hl))
        · exact .inr ((isPrefixOf_singleton first '/').mpr hl)
      | succ i =>
        have hrest := happroved i arg (by simpa using hi)
        simpa using hrest

lemma appendedText_splitOn (h : ∀ arg ∈ args, ' ' ∉ arg.toList) :
    (appendedText args).splitOn ' ' = [] :: args.map String.toList := by
  induction args with
  | nil => rfl
  | cons first rest ih =>
    have hrest := ih fun arg harg => h arg (List.mem_cons_of_mem _ harg)
    have hnone : ' ' ∉ ([] : List Char) := List.not_mem_nil
    have hfirst : ' ' ∉ first.toList := h first List.mem_cons_self
    have hcut : (first.toList ++ appendedText rest).splitOn ' ' =
        first.toList :: rest.map String.toList := by
      cases rest with
      | nil => simpa [appendedText] using List.splitOn_eq_singleton hfirst
      | cons second rest =>
        have hsecond := List.splitOn_append_cons_self_of_not_mem hnone
          (second.toList ++ appendedText rest)
        have htext : appendedText (second :: rest) =
            ' ' :: (second.toList ++ appendedText rest) := rfl
        rw [htext] at hrest ⊢
        rw [List.splitOn_append_cons_self_of_not_mem hfirst]
        rw [List.nil_append] at hsecond
        rw [hsecond] at hrest
        rw [(List.cons.inj hrest).2]
    have hsplit := List.splitOn_append_cons_self_of_not_mem hnone
      (first.toList ++ appendedText rest)
    rw [List.nil_append, hcut] at hsplit
    exact hsplit

structure Approved (args allowed : List String) : Prop where
  apart : (appendedText args).splitOn ' ' = [] :: args.map String.toList
  each : ∀ i arg, args[i]? = some arg → ApprovedArg allowed (i = 0) arg

lemma resumeCommandLine_ok (h : resumeCommandLine base args allowed = .ok line) :
    ∃ command, base = some command ∧ line = composedLine command args ∧ Approved args allowed := by
  cases base with
  | none => cases h
  | some command =>
    refine ⟨command, rfl, ?_⟩
    rw [resumeCommandLine] at h
    split_ifs at h with hnil hmany
    · obtain rfl : args = [] := by simpa using hnil
      cases h
      exact ⟨by simp [composedLine, appendedText], rfl, by simp⟩
    · obtain ⟨hline, hspace, happroved⟩ := appendResumeArgs_ok h
      exact ⟨hline, appendedText_splitOn hspace, by simpa using happroved⟩

inductive Call
  | openPane (size : PaneSize) (command : Option String) (minted : Option PaneToken)
      (failed : Option SpawnStep) (now : ℕ)
  | relaunchPane (id : PaneId) (size : PaneSize) (resumeArgs allowed : List String)
      (failed : Option SpawnStep) (now : ℕ)
  | releaseProcess (id : PaneId)
  | retireSlot (id : PaneId)
  | destroyPane (id : PaneId)
  | markOutput (id : PaneId) (now : ℕ)

structure Traced where
  backend : PtyBackend := {}
  original : PaneId → Option String := fun _ => none
  appended : PaneId → List String := fun _ => []

def Traced.step (t : Traced) : Call → Traced
  | .openPane size command minted failed now =>
    match t.backend.openPane size command minted failed now with
    | .error _ => t
    | .ok (pane, backend) =>
      { backend
        original := Function.update t.original pane command
        appended := Function.update t.appended pane [] }
  | .relaunchPane id size resumeArgs allowed failed now =>
    match t.backend.relaunchPane id size resumeArgs allowed failed now with
    | (.error _, backend) => { t with backend }
    | (.ok pane, backend) =>
      { backend
        original := Function.update t.original pane (t.original id)
        appended := Function.update t.appended pane resumeArgs }
  | .releaseProcess id => { t with backend := t.backend.releaseProcess id }
  | .retireSlot id => { t with backend := t.backend.retireSlot id }
  | .destroyPane id => { t with backend := t.backend.destroyPane id }
  | .markOutput id now => { t with backend := t.backend.markOutput id now }

def Traced.run (calls : List Call) : Traced := calls.foldl Traced.step {}

structure Traced.Faithful (t : Traced) : Prop where
  slots : ∀ id slot, t.backend.slot id = some slot → slot.launch.command = t.original id
  panes : ∀ id pane, t.backend.panes[id]? = some pane →
    pane.line = (t.original id).map (composedLine · (t.appended id)) ∧
      ∃ allowed, Approved (t.appended id) allowed
  slotIds : ∀ id slot, t.backend.slot id = some slot → id < t.backend.nextId
  paneIds : ∀ id pane, t.backend.panes[id]? = some pane → id < t.backend.nextId

namespace Traced.Faithful

variable {t : Traced} {torn : PtyBackend} {pane : PtyPane} {slot : PaneSlot}

lemma of_fewer (h : t.Faithful)
    (hslots : ∀ id slot, torn.slot id = some slot →
      ∃ old, t.backend.slot id = some old ∧ slot.launch = old.launch)
    (hpanes : ∀ (id : PaneId) (pane : PtyPane),
      torn.panes[id]? = some pane → t.backend.panes[id]? = some pane)
    (hnext : torn.nextId = t.backend.nextId) : { t with backend := torn }.Faithful := by
  refine ⟨?_, fun id pane hp => h.panes id pane (hpanes id pane hp), ?_, ?_⟩
  · intro id slot hs
    obtain ⟨old, hold, hlaunch⟩ := hslots id slot hs
    rw [hlaunch]
    exact h.slots id old hold
  · intro id slot hs
    obtain ⟨old, hold, -⟩ := hslots id slot hs
    exact hnext.symm ▸ h.slotIds id old hold
  · intro id pane hp
    exact hnext.symm ▸ h.paneIds id pane (hpanes id pane hp)

lemma destroyed (h : t.Faithful) (id : PaneId) :
    { t with backend := t.backend.destroyPane id }.Faithful := by
  refine h.of_fewer ?_ ?_ rfl
  · intro i slot hs
    rw [PtyBackend.slot_destroyPane] at hs
    split_ifs at hs
    exact ⟨slot, hs, rfl⟩
  · intro i pane hp
    simp only [PtyBackend.destroyPane, Std.TreeMap.getElem?_erase] at hp
    split_ifs at hp
    exact hp

lemma spawned (h : t.Faithful) (hslot : slot.launch.command = base)
    (hline : pane.line = base.map (composedLine · args)) (hargs : ∃ allowed, Approved args allowed) :
    Traced.Faithful
      { backend :=
          { panes := t.backend.panes.insert t.backend.nextId pane
            slots := t.backend.slots.insert t.backend.nextId slot
            nextId := t.backend.nextId + 1 }
        original := Function.update t.original t.backend.nextId base
        appended := Function.update t.appended t.backend.nextId args } := by
  have hpane : ∀ id p, (t.backend.panes.insert t.backend.nextId pane)[id]? = some p →
      id = t.backend.nextId ∧ p = pane ∨ id ≠ t.backend.nextId ∧ t.backend.panes[id]? = some p := by
    intro id p hp
    by_cases hid : id = t.backend.nextId
    · subst hid
      exact .inl ⟨rfl, by simpa using hp.symm⟩
    · refine .inr ⟨hid, ?_⟩
      simpa [Std.TreeMap.getElem?_insert, Ne.symm hid] using hp
  have hkept : ∀ id s, PtyBackend.slot
      { panes := t.backend.panes.insert t.backend.nextId pane
        slots := t.backend.slots.insert t.backend.nextId slot
        nextId := t.backend.nextId + 1 } id = some s →
      id = t.backend.nextId ∧ s = slot ∨ id ≠ t.backend.nextId ∧ t.backend.slot id = some s := by
    intro id s hs
    rw [PtyBackend.slot_insert] at hs
    split_ifs at hs with hid
    · exact .inl ⟨hid, (Option.some.inj hs).symm⟩
    · exact .inr ⟨hid, hs⟩
  refine ⟨?_, ?_, ?_, ?_⟩
  · intro id s hs
    rcases hkept id s hs with ⟨rfl, rfl⟩ | ⟨hid, hs⟩
    · simpa using hslot
    · simpa [hid] using h.slots id s hs
  · intro id p hp
    rcases hpane id p hp with ⟨rfl, rfl⟩ | ⟨hid, hp⟩
    · simpa using ⟨hline, hargs⟩
    · simpa [hid] using h.panes id p hp
  · intro id s hs
    rcases hkept id s hs with ⟨rfl, -⟩ | ⟨-, hs⟩
    · exact Nat.lt_succ_self _
    · exact Nat.lt_succ_of_lt (h.slotIds id s hs)
  · intro id p hp
    rcases hpane id p hp with ⟨rfl, -⟩ | ⟨-, hp⟩
    · exact Nat.lt_succ_self _
    · exact Nat.lt_succ_of_lt (h.paneIds id p hp)

lemma opened (h : t.Faithful) (size : PaneSize) (command : Option String)
    (minted : Option PaneToken) (failed : Option SpawnStep) (now : ℕ) :
    (t.step (.openPane size command minted failed now)).Faithful := by
  simp only [Traced.step]
  cases ho : t.backend.openPane size command minted failed now with
  | error error => exact h
  | ok after =>
    obtain ⟨token, -, hid, hafter⟩ := PtyBackend.openPane_cases ho
    simp only [hid, hafter]
    refine h.spawned rfl ?_ ⟨[], rfl, by simp⟩
    cases command <;> simp [composedLine, appendedText]

lemma relaunched (h : t.Faithful) (id : PaneId) (size : PaneSize) (resumeArgs allowed : List String)
    (failed : Option SpawnStep) (now : ℕ) :
    (t.step (.relaunchPane id size resumeArgs allowed failed now)).Faithful := by
  simp only [Traced.step]
  rcases t.backend.relaunchPane_cases id size resumeArgs allowed failed now with
    ⟨error, hr, -⟩ | ⟨slot, line, hs, hl, ⟨-, error, hr⟩ | ⟨-, hr⟩⟩
  · simpa only [hr] using h
  · simpa only [hr] using h.destroyed id
  · simp only [hr]
    obtain ⟨command, hcommand, hline, happroved⟩ := resumeCommandLine_ok hl
    have horiginal : t.original id = some command := (h.slots id slot hs).symm.trans hcommand
    have hbase : slot.launch.command = t.original id := h.slots id slot hs
    refine (h.destroyed id).spawned hbase ?_ ⟨allowed, happroved⟩
    rw [horiginal, hline]
    rfl

lemma step (h : t.Faithful) (c : Call) : (t.step c).Faithful := by
  cases c with
  | openPane size command minted failed now => exact h.opened size command minted failed now
  | relaunchPane id size resumeArgs allowed failed now =>
    exact h.relaunched id size resumeArgs allowed failed now
  | releaseProcess id =>
    refine h.of_fewer (fun i slot hs => ⟨slot, hs, rfl⟩) ?_ rfl
    intro i pane hp
    simp only [PtyBackend.releaseProcess, Std.TreeMap.getElem?_erase] at hp
    split_ifs at hp
    exact hp
  | retireSlot id =>
    refine h.of_fewer ?_ (fun i pane hp => hp) rfl
    intro i slot hs
    rw [PtyBackend.slot_retireSlot] at hs
    split_ifs at hs
    exact ⟨slot, hs, rfl⟩
  | destroyPane id => exact h.destroyed id
  | markOutput id now =>
    refine h.of_fewer ?_ (fun i pane hp => hp) rfl
    intro i slot hs
    rw [PtyBackend.slot_markOutput] at hs
    split_ifs at hs
    · obtain ⟨old, hold, rfl⟩ := Option.map_eq_some_iff.mp hs
      exact ⟨old, hold, rfl⟩
    · exact ⟨slot, hs, rfl⟩

lemma run (calls : List Call) : (Traced.run calls).Faithful := by
  have hempty : Traced.Faithful {} := by
    constructor <;> intro id _ hid <;> simp [PtyBackend.slot] at hid
  have hfold : ∀ t : Traced, t.Faithful → (calls.foldl Traced.step t).Faithful := by
    induction calls with
    | nil => exact fun t ht => ht
    | cons call calls ih => exact fun t ht => ih (t.step call) (ht.step call)
  exact hfold {} hempty

end Traced.Faithful

/-- A relaunch's line is its base followed by the approved arguments, and over any run of the
backend the base is what the slot was opened with. -/
theorem relaunch_line_is_original_and_approved :
    (∀ base args allowed line, resumeCommandLine base args allowed = .ok line →
      ∃ command, base = some command ∧
        line.toList = command.toList ++ args.flatMap (fun arg => ' ' :: arg.toList) ∧
        (line.toList.drop command.length).splitOn ' ' = [] :: args.map String.toList ∧
        ∀ i arg, args[i]? = some arg → ApprovedArg allowed (i = 0) arg) ∧
    ∀ calls,
      (∀ id slot, (Traced.run calls).backend.slot id = some slot →
        slot.launch.command = (Traced.run calls).original id) ∧
      ∀ id pane, (Traced.run calls).backend.panes[id]? = some pane →
        pane.line = ((Traced.run calls).original id).map
          (composedLine · ((Traced.run calls).appended id)) ∧
        ∃ allowed, Approved ((Traced.run calls).appended id) allowed := by
  refine ⟨?_, fun calls => ⟨(Traced.Faithful.run calls).slots, (Traced.Faithful.run calls).panes⟩⟩
  intro base args allowed line h
  obtain ⟨command, hbase, hline, happroved⟩ := resumeCommandLine_ok h
  have htext : line.toList = command.toList ++ appendedText args := by
    rw [hline]
    exact String.toList_ofList
  refine ⟨command, hbase, htext, ?_, happroved.each⟩
  rw [htext, ← String.length_toList, List.drop_left]
  exact happroved.apart

theorem resumed_line_is_approved : resumeCommandLine (some "claude --verbose")
    ["--resume", "a1"] ["--resume"] = .ok "claude --verbose --resume a1" ∧
    ∃ command, some "claude --verbose" = some command ∧
      "claude --verbose --resume a1".toList = command.toList ++
        ["--resume", "a1"].flatMap (fun arg => ' ' :: arg.toList) ∧
      ("claude --verbose --resume a1".toList.drop command.length).splitOn ' ' =
        [] :: ["--resume", "a1"].map String.toList ∧
      ∀ i arg, ["--resume", "a1"][i]? = some arg → ApprovedArg ["--resume"] (i = 0) arg := by
  have hok : resumeCommandLine (some "claude --verbose") ["--resume", "a1"] ["--resume"] =
      .ok "claude --verbose --resume a1" := by
    decide +kernel
  exact ⟨hok, relaunch_line_is_original_and_approved.1 _ _ _ _ hok⟩

end Nightcrow.Backend
