import Nightcrow.Library.Runs
import Nightcrow.Page.Edit.Blocks

namespace Nightcrow.Page.Edit

open Nightcrow.Library

structure Host where
  source : Text
  baseHash : String
  blocks : List Block
  patches : List Patch := []
  conflict : Bool := false
  error : Option PatchErrorCode := none

def setPatch (patches : List Patch) (patch : Patch) : List Patch :=
  -- `Map.set`: an entry that is there keeps its place
  if patches.any (fun p => p.id = patch.id) then
    patches.map (fun p => if p.id = patch.id then patch else p)
  else patches ++ [patch]

def patchOf (patches : List Patch) (id : ℕ) : Option Text :=
  (patches.find? (fun p => p.id = id)).map Patch.newInnerHtml

namespace Host

def block (h : Host) (id : ℕ) : Option Block := h.blocks.find? (fun b => b.id = id)

def takes (h : Host) (id : ℕ) : Bool := (h.block id).any (fun b => b.locked = none)

def record (h : Host) (id : ℕ) (html : Text) (pristine : Bool) : Host :=
  if h.takes id then
    { h with
      patches := if pristine then h.patches.filter (fun p => p.id ≠ id)
        else setPatch h.patches ⟨id, html⟩ }
  else h

def reparsed (parse : Text → Node) (h : Host) (content : Text) : List Block :=
  (parseBlocks parse content).map (fun b =>
    { b with locked := (h.block b.id).bind Block.locked <|> b.locked })

def accepted (parse : Text → Node) (h : Host) (content : Text) (hash : String) : Host :=
  { h with
    source := content
    baseHash := hash
    blocks := h.reparsed parse content
    patches := []
    conflict := false }

end Host

structure EditMsg where
  id : ℕ
  html : Text
  before : Text
  deriving DecidableEq

def EditMsg.pristine (e : EditMsg) : Bool := e.html = e.before

inductive Msg where
  | edit (e : EditMsg)
  | save
  deriving DecidableEq

structure Agent where
  content : ℕ → Text
  editing : Option (ℕ × Text) := none
  composing : Bool := false
  pendingCommit : Bool := false
  locked : ℕ → Bool
  verified : Bool := true

namespace Agent

def commit (a : Agent) : Agent × List Msg :=
  match a.editing with
  | none => (a, [])
  | some (id, before) =>
    if a.composing then ({ a with pendingCommit := true }, [])
    else ({ a with editing := none, pendingCommit := false }, [.edit ⟨id, a.content id, before⟩])

def cancel (a : Agent) : Agent :=
  match a.editing with
  | none => a
  | some (id, before) =>
    { a with
      editing := none
      pendingCommit := false
      content := Function.update a.content id before }

def startEdit (a : Agent) (id : ℕ) : Agent × List Msg :=
  if a.verified = false ∨ a.locked id = true ∨ a.editing.map Prod.fst = some id then (a, [])
  else
    let (a, posted) := a.commit
    if a.editing = none then ({ a with editing := some (id, a.content id) }, posted)
    else (a, posted)

def type (a : Agent) (html : Text) : Agent :=
  match a.editing with
  | none => a
  | some (id, _) => { a with content := Function.update a.content id html }

def compositionEnd (a : Agent) : Agent × List Msg :=
  let a := { a with composing := false }
  if a.pendingCommit then a.commit else (a, [])

def saveKey (a : Agent) : Agent × List Msg :=
  if a.composing then (a, [])
  else
    let (a, posted) := a.commit
    (a, posted ++ [.save])

end Agent

structure Save where
  content : Text
  baseHash : String
  force : Bool
  wrote : ℕ → Text

structure World where
  agent : Agent
  channel : List Msg := []
  host : Host
  saves : List Save := []
  written : ℕ → Text

inductive Label where
  | startEdit (id : ℕ)
  | type (html : Text)
  | commit
  | cancel
  | compositionStart
  | compositionEnd
  | saveKey
  | deliver
  | save (force : Bool)
  | accept (i : ℕ) (hash : String)
  | refuse (i : ℕ)

namespace World

def post (w : World) (p : Agent × List Msg) : World :=
  { w with agent := p.1, channel := w.channel ++ p.2 }

def recorded (w : World) (id : ℕ) : Text := (patchOf w.host.patches id).getD (w.written id)

section

variable (parse : Text → Node) (encode : Text → Text)

def save (w : World) (force : Bool) : World :=
  if w.host.patches = [] then w
  else
    match applyPatches encode w.host.source w.host.blocks w.host.patches with
    | .error e => { w with host := { w.host with error := some e } }
    | .ok content => { w with saves := w.saves ++ [⟨content, w.host.baseHash, force, w.recorded⟩] }

def deliver (w : World) : Option World :=
  match w.channel with
  | [] => none
  | .edit e :: rest =>
    some { w with channel := rest, host := w.host.record e.id e.html e.pristine }
  | .save :: rest => some ({ w with channel := rest }.save encode false)

def step (w : World) : Label → Option World
  | .startEdit id => some (w.post (w.agent.startEdit id))
  | .type html => some { w with agent := w.agent.type html }
  | .commit => some (w.post w.agent.commit)
  | .cancel => some { w with agent := w.agent.cancel }
  | .compositionStart => some { w with agent := { w.agent with composing := true } }
  | .compositionEnd => some (w.post w.agent.compositionEnd)
  | .saveKey => some (w.post w.agent.saveKey)
  | .deliver => w.deliver encode
  | .save force => some (w.save encode force)
  | .accept i hash =>
    (w.saves[i]?).map (fun s => { w with
      host := w.host.accepted parse s.content hash
      saves := w.saves.eraseIdx i
      written := s.wrote })
  | .refuse i =>
    (w.saves[i]?).map (fun _ => { w with
      host := { w.host with conflict := true }
      saves := w.saves.eraseIdx i })

end

/-- An edit is handled only for a block the page holds unlocked, and is pristine exactly when it
is what was last written for the block; a save is accepted only while it wrote what the page
last heard of every block. -/
def Faithful (w : World) : Label → Prop
  | .deliver =>
    match w.channel with
    | .edit e :: _ =>
      w.host.takes e.id = true ∧ (e.html = e.before ↔ e.html = w.written e.id)
    | _ => True
  | .accept i _ => ∀ s ∈ w.saves[i]?, ∀ id, w.recorded id = s.wrote id
  | _ => True

structure Opened (w : World) : Prop where
  editing : w.agent.editing = none
  channel : w.channel = []
  patches : w.host.patches = []
  saves : w.saves = []
  content : w.agent.content = w.written

def lastEdit : List Msg → ℕ → Option Text
  | [], _ => none
  | .edit e :: ms, id => lastEdit ms id <|> if e.id = id then some e.html else none
  | .save :: ms, id => lastEdit ms id

def committed (w : World) (id : ℕ) : Text := (lastEdit w.channel id).getD (w.recorded id)

structure Kept (w : World) : Prop where
  nodup : (w.host.patches.map Patch.id).Nodup
  differs : ∀ p ∈ w.host.patches, p.newInnerHtml ≠ w.written p.id
  closed : ∀ id, w.agent.editing.map Prod.fst ≠ some id → w.agent.content id = w.committed id
  snapshot : ∀ id before, w.agent.editing = some (id, before) → before = w.committed id

variable {w t : World} {parse : Text → Node} {encode : Text → Text} {id : ℕ} {patches : List Patch}

lemma patchOf_mem (hn : (patches.map Patch.id).Nodup) {p : Patch} (hp : p ∈ patches) :
    patchOf patches p.id = some p.newInnerHtml := by
  induction patches with
  | nil => cases hp
  | cons q patches ih =>
    obtain ⟨hq, hn⟩ := List.nodup_cons.mp hn
    rw [patchOf, List.find?_cons]
    rcases List.mem_cons.mp hp with rfl | hp
    · simp
    · have hne : q.id ≠ p.id := fun he => hq (he ▸ List.mem_map_of_mem hp)
      simpa [hne, patchOf] using ih hn hp

lemma patchOf_filter_self : patchOf (patches.filter (fun p => p.id ≠ id)) id = none := by
  rw [patchOf, List.find?_eq_none.mpr]
  · rfl
  · intro p hp
    simpa using (List.mem_filter.mp hp).2

lemma patchOf_filter {i : ℕ} (h : i ≠ id) :
    patchOf (patches.filter (fun p => p.id ≠ id)) i = patchOf patches i := by
  induction patches with
  | nil => rfl
  | cons q patches ih =>
    simp only [patchOf, List.filter_cons, List.find?_cons] at ih ⊢
    by_cases hq : q.id = id
    · have hi : q.id ≠ i := fun he => h (he.symm.trans hq)
      simpa [hq, hi, Ne.symm h] using ih
    · by_cases hi : q.id = i
      · simp [hi, h]
      · simpa [hq, hi] using ih

lemma setPatch_nodup (hn : (patches.map Patch.id).Nodup) (p : Patch) :
    ((setPatch patches p).map Patch.id).Nodup := by
  rw [setPatch]
  split
  · have hsame : (patches.map (fun q => if q.id = p.id then p else q)).map Patch.id =
        patches.map Patch.id := by
      rw [List.map_map]
      apply List.map_congr_left
      intro q _
      rw [Function.comp_apply]
      split
      · rename_i hq
        exact hq.symm
      · rfl
    rwa [hsame]
  · rename_i hnew
    rw [List.map_append, List.nodup_append]
    refine ⟨hn, List.nodup_singleton _, ?_⟩
    rintro i hi j hj rfl
    obtain ⟨q, hq, hqi⟩ := List.mem_map.mp hi
    rw [List.map_singleton, List.mem_singleton] at hj
    exact hnew (List.any_eq_true.mpr ⟨q, hq, decide_eq_true (hqi.trans hj)⟩)

lemma mem_setPatch {p q : Patch} (hq : q ∈ setPatch patches p) :
    q = p ∨ q ∈ patches ∧ q.id ≠ p.id := by
  rw [setPatch] at hq
  split at hq
  · obtain ⟨r, hr, rfl⟩ := List.mem_map.mp hq
    split
    · exact .inl rfl
    · rename_i hne
      exact .inr ⟨hr, hne⟩
  · rename_i hnew
    rcases List.mem_append.mp hq with hq | hq
    · refine .inr ⟨hq, fun he => hnew ?_⟩
      exact List.any_eq_true.mpr ⟨q, hq, decide_eq_true he⟩
    · exact .inl (List.mem_singleton.mp hq)

lemma patchOf_map {p : Patch} (i : ℕ) :
    patchOf (patches.map (fun q => if q.id = p.id then p else q)) i =
      if i = p.id then (patchOf patches i).map (fun _ => p.newInnerHtml) else patchOf patches i := by
  induction patches with
  | nil => simp [patchOf]
  | cons q patches ih =>
    simp only [patchOf, List.map_cons, List.find?_cons] at ih ⊢
    by_cases hq : q.id = p.id
    · by_cases hi : i = p.id
      · simp [hq, hi]
      · simpa [hq, hi, Ne.symm hi] using ih
    · by_cases hi : q.id = i
      · have hne : i ≠ p.id := fun he => hq (hi.trans he)
        simp [hi, hne]
      · simpa [hq, hi] using ih

lemma patchOf_setPatch {p : Patch} (i : ℕ) :
    patchOf (setPatch patches p) i =
      if i = p.id then some p.newInnerHtml else patchOf patches i := by
  rw [setPatch]
  split
  · rename_i hthere
    rw [patchOf_map]
    split
    · rename_i hi
      obtain ⟨q, hq, hqp⟩ := List.any_eq_true.mp hthere
      have hfound : (patches.find? (fun q => q.id = i)).isSome :=
        List.find?_isSome.mpr ⟨q, hq, decide_eq_true ((of_decide_eq_true hqp).trans hi.symm)⟩
      obtain ⟨r, hr⟩ := Option.isSome_iff_exists.mp hfound
      rw [patchOf, hr]
      rfl
    · rfl
  · rename_i hnew
    rw [patchOf, List.find?_append]
    split
    · rename_i hi
      have hnone : patches.find? (fun q => q.id = i) = none := by
        refine List.find?_eq_none.mpr (fun q hq he => hnew ?_)
        exact List.any_eq_true.mpr ⟨q, hq, decide_eq_true ((of_decide_eq_true he).trans hi)⟩
      subst hi
      simp [hnone]
    · rename_i hi
      simp [Ne.symm hi, patchOf]

lemma patchOf_record {h : Host} {html : Text} {pristine : Bool} (ht : h.takes id = true) (i : ℕ) :
    patchOf (h.record id html pristine).patches i =
      if i = id then (if pristine then none else some html) else patchOf h.patches i := by
  rw [Host.record, if_pos ht]
  cases pristine with
  | true =>
    simp only [if_true]
    split
    · rename_i hi
      rw [hi, patchOf_filter_self]
    · rename_i hi
      exact patchOf_filter hi
  | false => simp only [Bool.false_eq_true, if_false, patchOf_setPatch]

lemma lastEdit_append (ms : List Msg) (m : Msg) (i : ℕ) :
    lastEdit (ms ++ [m]) i = (match m with
      | .edit e => if e.id = i then some e.html else lastEdit ms i
      | .save => lastEdit ms i) := by
  induction ms with
  | nil =>
    cases m with
    | edit e => simp [lastEdit]
    | save => rfl
  | cons n ms ih =>
    cases n with
    | save => simpa only [List.cons_append, lastEdit] using ih
    | edit f =>
      rw [List.cons_append, lastEdit, ih]
      cases m with
      | save => rfl
      | edit e =>
        dsimp only
        split
        · rfl
        · rfl

structure Follows (w : World) (a : Agent) (posted : List Msg) : Prop where
  closed : ∀ id, a.editing.map Prod.fst ≠ some id →
    a.content id = (lastEdit (w.channel ++ posted) id).getD (w.recorded id)
  snapshot : ∀ id before, a.editing = some (id, before) →
    before = (lastEdit (w.channel ++ posted) id).getD (w.recorded id)

lemma Kept.follows (hk : w.Kept) : w.Follows w.agent [] := by
  refine ⟨fun id h => ?_, fun id before h => ?_⟩
  · rw [List.append_nil]
    exact hk.closed id h
  · rw [List.append_nil]
    exact hk.snapshot id before h

lemma Follows.kept (hk : w.Kept) {p : Agent × List Msg} (hf : w.Follows p.1 p.2) :
    (w.post p).Kept :=
  ⟨hk.nodup, hk.differs, hf.closed, hf.snapshot⟩

lemma Follows.quiet (hk : w.Kept) {a : Agent} (hf : w.Follows a []) :
    ({ w with agent := a } : World).Kept := by
  obtain ⟨hclosed, hsnapshot⟩ := hf
  rw [List.append_nil] at hclosed hsnapshot
  exact ⟨hk.nodup, hk.differs, hclosed, hsnapshot⟩

lemma follows_commit {a : Agent} (hf : w.Follows a []) : w.Follows a.commit.1 a.commit.2 := by
  rw [Agent.commit]
  split
  · exact hf
  · rename_i id before he
    split
    · exact ⟨hf.closed, hf.snapshot⟩
    · refine ⟨fun i _ => ?_, fun i b h => by cases h⟩
      rw [lastEdit_append]
      dsimp only
      split
      · rename_i hi
        rw [hi]
        rfl
      · rename_i hi
        have hne : a.editing.map Prod.fst ≠ some i := by
          rw [he]
          exact fun h => hi (Option.some.inj h)
        simpa only [List.append_nil] using hf.closed i hne

lemma follows_startEdit {a : Agent} (hf : w.Follows a []) :
    w.Follows (a.startEdit id).1 (a.startEdit id).2 := by
  rw [Agent.startEdit]
  split
  · exact hf
  · have hc := follows_commit hf
    dsimp only
    split
    · rename_i hnone
      have hall : ∀ i, a.commit.1.content i =
          (lastEdit (w.channel ++ a.commit.2) i).getD (w.recorded i) := by
        intro i
        apply hc.closed
        rw [hnone]
        exact fun h => by cases h
      refine ⟨fun i _ => hall i, fun i before h => ?_⟩
      obtain ⟨rfl, rfl⟩ := Prod.mk.inj (Option.some.inj h)
      exact hall id
    · exact hc

lemma follows_cancel {a : Agent} (hf : w.Follows a []) : w.Follows a.cancel [] := by
  rw [Agent.cancel]
  split
  · exact hf
  · rename_i id before he
    refine ⟨fun i _ => ?_, fun i b h => by cases h⟩
    dsimp only
    by_cases hi : i = id
    · rw [hi, Function.update_self]
      exact hf.snapshot id before he
    · rw [Function.update_of_ne hi]
      apply hf.closed
      rw [he]
      exact fun h => hi (Option.some.inj h).symm

lemma follows_type {a : Agent} {html : Text} (hf : w.Follows a []) :
    w.Follows (a.type html) [] := by
  rw [Agent.type]
  split
  · exact hf
  · rename_i id before he
    refine ⟨fun i hi => ?_, hf.snapshot⟩
    have hne : i ≠ id := by
      rintro rfl
      exact hi (by rw [he]; rfl)
    dsimp only
    rw [Function.update_of_ne hne]
    exact hf.closed i hi

lemma follows_compositionEnd {a : Agent} (hf : w.Follows a []) :
    w.Follows a.compositionEnd.1 a.compositionEnd.2 := by
  have hdone : w.Follows { a with composing := false } [] := ⟨hf.closed, hf.snapshot⟩
  rw [Agent.compositionEnd]
  dsimp only
  split
  · exact follows_commit hdone
  · exact hdone

lemma follows_saveKey {a : Agent} (hf : w.Follows a []) :
    w.Follows a.saveKey.1 a.saveKey.2 := by
  rw [Agent.saveKey]
  split
  · exact hf
  · have hc := follows_commit hf
    refine ⟨fun i h => ?_, fun i before h => ?_⟩
    · rw [← List.append_assoc, lastEdit_append]
      exact hc.closed i h
    · rw [← List.append_assoc, lastEdit_append]
      exact hc.snapshot i before h

lemma Kept.still (hk : w.Kept) (hagent : t.agent = w.agent) (hpatches : t.host.patches = w.host.patches)
    (hwritten : t.written = w.written) (hchannel : ∀ id, lastEdit t.channel id = lastEdit w.channel id) :
    t.Kept := by
  have hcommitted : t.committed = w.committed := by
    funext i
    rw [committed, committed, recorded, recorded, hchannel, hpatches, hwritten]
  refine ⟨hpatches ▸ hk.nodup, ?_, ?_, ?_⟩
  · rw [hpatches, hwritten]
    exact hk.differs
  · rw [hagent, hcommitted]
    exact hk.closed
  · rw [hagent, hcommitted]
    exact hk.snapshot

lemma save_still (w : World) (force : Bool) : (w.save encode force).agent = w.agent ∧
    (w.save encode force).host.patches = w.host.patches ∧
    (w.save encode force).written = w.written ∧ (w.save encode force).channel = w.channel := by
  rw [save]
  split
  · exact ⟨rfl, rfl, rfl, rfl⟩
  · split <;> exact ⟨rfl, rfl, rfl, rfl⟩

lemma Kept.handle (hk : w.Kept) {e : EditMsg} {rest : List Msg} (hc : w.channel = .edit e :: rest)
    (htakes : w.host.takes e.id = true) (hpristine : e.html = e.before ↔ e.html = w.written e.id) :
    ({ w with channel := rest, host := w.host.record e.id e.html e.pristine } : World).Kept := by
  have hrecorded : ∀ i, ({ w with channel := rest, host := w.host.record e.id e.html e.pristine } :
      World).recorded i = if i = e.id then e.html else w.recorded i := by
    intro i
    rw [recorded, patchOf_record htakes]
    by_cases hi : i = e.id
    · rw [if_pos hi, if_pos hi]
      by_cases hp : e.html = e.before
      · rw [EditMsg.pristine, if_pos (decide_eq_true hp), hi]
        exact (hpristine.mp hp).symm
      · rw [EditMsg.pristine, if_neg (by simp [hp])]
        rfl
    · rw [if_neg hi, if_neg hi]
      rfl
  have hcommitted : ∀ i, ({ w with channel := rest, host := w.host.record e.id e.html e.pristine } :
      World).committed i = w.committed i := by
    intro i
    rw [committed, committed, hrecorded, hc, lastEdit]
    cases lastEdit rest i with
    | some html => rfl
    | none =>
      by_cases hi : e.id = i
      · rw [if_pos hi, if_pos hi.symm]
        rfl
      · rw [if_neg hi, if_neg (Ne.symm hi)]
        rfl
  refine ⟨?_, ?_, ?_, ?_⟩
  · simp only [Host.record, if_pos htakes]
    split
    · exact (List.filter_sublist.map Patch.id).nodup hk.nodup
    · exact setPatch_nodup hk.nodup _
  · simp only [Host.record, if_pos htakes]
    intro p hp
    split at hp
    · exact hk.differs p (List.mem_of_mem_filter hp)
    · rename_i hdirty
      rcases mem_setPatch hp with rfl | ⟨hp, -⟩
      · exact fun he => hdirty (decide_eq_true (hpristine.mpr he))
      · exact hk.differs p hp
  · intro i hi
    rw [hcommitted]
    exact hk.closed i hi
  · intro i before h
    rw [hcommitted]
    exact hk.snapshot i before h

lemma step_kept {l : Label} (hk : w.Kept) (hl : w.Faithful l)
    (h : w.step parse encode l = some t) : t.Kept := by
  have hf := hk.follows
  cases l with
  | startEdit id =>
    obtain rfl := Option.some.inj h
    exact (follows_startEdit hf).kept hk
  | type html =>
    obtain rfl := Option.some.inj h
    exact (follows_type hf).quiet hk
  | commit =>
    obtain rfl := Option.some.inj h
    exact (follows_commit hf).kept hk
  | cancel =>
    obtain rfl := Option.some.inj h
    exact (follows_cancel hf).quiet hk
  | compositionStart =>
    obtain rfl := Option.some.inj h
    exact ⟨hk.nodup, hk.differs, hk.closed, hk.snapshot⟩
  | compositionEnd =>
    obtain rfl := Option.some.inj h
    exact (follows_compositionEnd hf).kept hk
  | saveKey =>
    obtain rfl := Option.some.inj h
    exact (follows_saveKey hf).kept hk
  | deliver =>
    simp only [step, deliver] at h
    split at h
    · cases h
    · rename_i e rest hc
      obtain rfl := Option.some.inj h
      simp only [Faithful, hc] at hl
      exact hk.handle hc hl.1 hl.2
    · rename_i rest hc
      obtain rfl := Option.some.inj h
      obtain ⟨ha, hp, hw, hch⟩ := @save_still encode { w with channel := rest } false
      refine hk.still ha hp hw (fun i => ?_)
      rw [hch, hc]
      rfl
  | save force =>
    obtain rfl := Option.some.inj h
    obtain ⟨ha, hp, hw, hch⟩ := @save_still encode w force
    exact hk.still ha hp hw (fun i => by rw [hch])
  | accept i hash =>
    obtain ⟨s, hs, rfl⟩ := Option.map_eq_some_iff.mp h
    have hwrote : w.recorded = s.wrote := funext (hl s hs)
    have hcommitted : ∀ i, (lastEdit w.channel i).getD (s.wrote i) = w.committed i := by
      intro i
      rw [committed, hwrote]
    refine ⟨List.nodup_nil, fun p hp => (by cases hp), fun i hi => ?_, fun i before h => ?_⟩
    · exact (hk.closed i hi).trans (hcommitted i).symm
    · exact (hk.snapshot i before h).trans (hcommitted i).symm
  | refuse i =>
    obtain ⟨s, hs, rfl⟩ := Option.map_eq_some_iff.mp h
    exact hk.still rfl rfl rfl (fun _ => rfl)

lemma Opened.kept (ho : w.Opened) : w.Kept := by
  have hcommitted : w.committed = w.written := by
    funext i
    rw [committed, recorded, ho.channel, ho.patches]
    rfl
  refine ⟨?_, fun p hp => ?_, fun i _ => ?_, fun i before h => ?_⟩
  · rw [ho.patches]
    exact List.nodup_nil
  · rw [ho.patches] at hp
    cases hp
  · rw [ho.content, hcommitted]
  · rw [ho.editing] at h
    cases h

/-- With no edit open or on its way, a block differs from what was last written for it exactly
when the page holds a patch for it, and the patch carries what the frame shows. -/
theorem edits_are_never_dropped (parse : Text → Node) (encode : Text → Text) (w t : World)
    (ls : List Label) (hopened : w.Opened) (hfaithful : Along (step parse encode) Faithful w ls)
    (hrun : run (step parse encode) w ls = some t) (hediting : t.agent.editing = none)
    (hchannel : t.channel = []) (id : ℕ) :
    (t.agent.content id ≠ t.written id ↔ ∃ p ∈ t.host.patches, p.id = id) ∧
      ∀ p ∈ t.host.patches, p.id = id → p.newInnerHtml = t.agent.content id := by
  have hk : t.Kept :=
    run_guarded (fun _ _ _ hk hl hs => step_kept hk hl hs) hopened.kept hfaithful hrun
  have hshown : t.agent.content id = t.recorded id := by
    have hclosed := hk.closed id (by rw [hediting]; exact fun h => by cases h)
    rw [hclosed, committed, hchannel]
    rfl
  have hcarried : ∀ p ∈ t.host.patches, p.id = id → p.newInnerHtml = t.agent.content id := by
    rintro p hp rfl
    rw [hshown, recorded, patchOf_mem hk.nodup hp]
    rfl
  refine ⟨⟨fun hne => ?_, ?_⟩, hcarried⟩
  · by_contra hnone
    apply hne
    rw [hshown, recorded, patchOf, List.find?_eq_none.mpr]
    · rfl
    · exact fun p hp he => hnone ⟨p, hp, of_decide_eq_true he⟩
  · rintro ⟨p, hp, rfl⟩
    rw [← hcarried p hp rfl]
    exact hk.differs p hp

def paragraph (source : Text) : Node :=
  .root [.element { tagName := "html" } [.element { tagName := "head" } [],
    .element { tagName := "body" } [.element
      { tagName := "p", startTag := some 3, endTag := some (source.length - 4),
        endOffset := source.length }
      [.text (slice source 3 (source.length - 4))]]]]

def escapeText (t : Text) : Text :=
  t.flatMap (fun c => match c with
    | '&' => "&amp;".toList
    | '<' => "&lt;".toList
    | '>' => "&gt;".toList
    | '\u00a0' => "&nbsp;".toList
    | _ => [c])

def onePage : World where
  agent := { content := fun _ => "a".toList, locked := fun _ => false }
  host := {
    source := "<p>a</p>".toList
    baseHash := "aaa"
    blocks := parseBlocks paragraph "<p>a</p>".toList }
  written := fun _ => "a".toList

def editOf (html : String) : List Label :=
  [.startEdit 0, .type html.toList, .commit, .deliver]

def savedThenEdited : List Label :=
  editOf "b" ++ [.save false, .accept 0 "bbb"] ++ editOf "c"

lemma onePage_opened : onePage.Opened := ⟨rfl, rfl, rfl, rfl, rfl⟩

lemma savedThenEdited_faithful : Along (step paragraph escapeText) Faithful onePage savedThenEdited := by
  refine along_cons rfl trivial (along_cons rfl trivial (along_cons rfl trivial
    (along_cons rfl ⟨by decide, by decide⟩ (along_cons rfl trivial (along_cons rfl ?_
      (along_cons rfl trivial (along_cons rfl trivial (along_cons rfl trivial
        (along_cons rfl ⟨by decide, by decide⟩ trivial)))))))))
  intro s hs i
  obtain rfl := Option.some.inj hs
  rfl

theorem edits_are_never_dropped_twice :
    ∃ t, run (step paragraph escapeText) onePage savedThenEdited = some t ∧
      (t.agent.content 0 ≠ t.written 0 ↔ ∃ p ∈ t.host.patches, p.id = 0) ∧
      ∀ p ∈ t.host.patches, p.id = 0 → p.newInnerHtml = t.agent.content 0 :=
  ⟨_, rfl, edits_are_never_dropped paragraph escapeText onePage _ savedThenEdited onePage_opened
    savedThenEdited_faithful rfl rfl rfl 0⟩

/-- A block opened again and left as it was, and one edited while a save is on its way. -/
theorem reopened_or_overtaken_edit_is_dropped :
    (∃ t, run (step paragraph escapeText) onePage (editOf "b" ++ [.startEdit 0, .commit, .deliver]) =
        some t ∧ t.agent.editing = none ∧ t.channel = [] ∧ t.saves = [] ∧
      t.agent.content 0 ≠ t.written 0 ∧ t.host.patches = []) ∧
    ∃ t, run (step paragraph escapeText) onePage
        (editOf "b" ++ [.save false] ++ editOf "c" ++ [.accept 0 "bbb"]) = some t ∧
      t.agent.editing = none ∧ t.channel = [] ∧ t.saves = [] ∧
      t.agent.content 0 ≠ t.written 0 ∧ t.host.patches = [] :=
  ⟨⟨_, rfl, rfl, rfl, rfl, by decide, rfl⟩, ⟨_, rfl, rfl, rfl, rfl, by decide, rfl⟩⟩

end World

end Nightcrow.Page.Edit
