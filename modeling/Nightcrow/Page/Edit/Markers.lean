import Nightcrow.Page.Edit.Host
import Nightcrow.Page.Edit.Nesting

namespace Nightcrow.Page.Edit

open Nightcrow.Library

variable {parse : Text → Node} {encode : Text → Text} {source content : Text} {b c : Block}

def Nests (parse : Text → Node) : Prop := ∀ source, (parse source).Within 0 source.length

lemma mem_parseBlocks (h : b ∈ parseBlocks parse source) :
    ∃ v, (visit source none (parse source))[b.id]? = some v ∧ b = { v with id := b.id } := by
  obtain ⟨i, hi, rfl⟩ := List.mem_mapIdx.mp h
  exact ⟨_, List.getElem?_eq_getElem hi, rfl⟩

lemma getElem?_parseBlocks (i : ℕ) : (parseBlocks parse source)[i]? =
    ((visit source none (parse source))[i]?).map (fun v => { v with id := i }) := by
  rw [parseBlocks, List.getElem?_mapIdx]

lemma parseBlocks_of_mem (h : b ∈ parseBlocks parse source) :
    (parseBlocks parse source)[b.id]? = some b := by
  obtain ⟨v, hv, hb⟩ := mem_parseBlocks h
  rw [getElem?_parseBlocks, hv, Option.map_some, ← hb]

lemma parseBlocks_unique (hb : b ∈ parseBlocks parse source) (hc : c ∈ parseBlocks parse source)
    (h : b.id = c.id) : b = c := by
  have hsame := parseBlocks_of_mem hb
  rw [h, parseBlocks_of_mem hc] at hsame
  exact (Option.some.inj hsame).symm

lemma parseBlocks_inside (hn : Nests parse) (h : b ∈ parseBlocks parse source) :
    b.Inside 0 source.length := by
  obtain ⟨v, hv, hb⟩ := mem_parseBlocks h
  have hv := visit_inside _ (hn source) v (List.mem_of_getElem? hv)
  rw [hb]
  exact ⟨hv.lower, hv.ordered, hv.upper, hv.closed⟩

lemma parseBlocks_apart (hn : Nests parse) (hb : b ∈ parseBlocks parse source)
    (hc : c ∈ parseBlocks parse source) (hlt : b.id < c.id) : b.innerEnd < c.innerStart := by
  obtain ⟨v, hv, hb⟩ := mem_parseBlocks hb
  obtain ⟨u, hu, hc⟩ := mem_parseBlocks hc
  obtain ⟨hi, rfl⟩ := List.getElem?_eq_some_iff.mp hv
  obtain ⟨hj, rfl⟩ := List.getElem?_eq_some_iff.mp hu
  have h := List.pairwise_iff_getElem.mp (visit_ordered _ (hn source)) b.id c.id hi hj hlt
  rw [hb, hc]
  exact h

lemma Host.block_id {h : Host} {id : ℕ} (hc : h.block id = some c) : c.id = id := by
  have hfound := List.find?_some hc
  exact of_decide_eq_true hfound

lemma block_of_mem {h : Host} {lock : ℕ → Option LockReason}
    (hblocks : h.blocks = (parseBlocks parse source).map (fun b => { b with locked := lock b.id }))
    (hb : b ∈ parseBlocks parse source) : h.block b.id = some { b with locked := lock b.id } := by
  cases hfound : h.block b.id with
  | none =>
    rw [Host.block, hblocks, List.find?_eq_none] at hfound
    exact absurd (decide_eq_true rfl)
      (hfound { b with locked := lock b.id } (List.mem_map.mpr ⟨b, hb, rfl⟩))
  | some c =>
    have hid := Host.block_id hfound
    rw [Host.block, hblocks] at hfound
    obtain ⟨c', hc', rfl⟩ := List.mem_map.mp (List.mem_of_find?_eq_some hfound)
    rw [parseBlocks_unique hc' hb hid]

lemma block_mem {h : Host} {lock : ℕ → Option LockReason} {id : ℕ}
    (hblocks : h.blocks = (parseBlocks parse source).map (fun b => { b with locked := lock b.id }))
    (hc : h.block id = some c) : ∃ b ∈ parseBlocks parse source, b.id = id ∧
      c = { b with locked := lock b.id } := by
  have hid := Host.block_id hc
  rw [Host.block, hblocks] at hc
  obtain ⟨b, hb, rfl⟩ := List.mem_map.mp (List.mem_of_find?_eq_some hc)
  exact ⟨b, hb, hid, rfl⟩

namespace Host

def written (encode : Text → Text) (h : Host) (id : ℕ) (html : Text) : Text :=
  if (h.block id).any Block.rcdata then encode html else html

def splices (encode : Text → Text) (h : Host) : List (Splice Char) :=
  match targets encode h.source h.blocks h.patches with
  | .ok ps => ordered ps
  | .error _ => []

variable {h : Host} {patch : Patch} {patches : List Patch} {p : Splice Char}
  {ps : List (Splice Char)}

lemma target_ok (ht : target encode h.source h.blocks patch = .ok p) :
    ∃ b, h.block patch.id = some b ∧ b.locked = none ∧
      p = ⟨b.innerStart, b.innerEnd, h.written encode patch.id patch.newInnerHtml⟩ := by
  rw [target] at ht
  split at ht
  · cases ht
  · rename_i b hb
    split at ht
    · cases ht
    · rename_i hopen
      split at ht
      · cases ht
      · obtain rfl := Except.ok.inj ht
        refine ⟨b, hb, not_not.mp hopen, ?_⟩
        rw [written, block, hb]
        rfl

lemma targets_cons (ht : targets encode h.source h.blocks (patch :: patches) = .ok ps) :
    ∃ p qs, ps = p :: qs ∧ target encode h.source h.blocks patch = .ok p ∧
      targets encode h.source h.blocks patches = .ok qs := by
  rw [targets] at ht
  split at ht
  · cases ht
  · rename_i p hp
    split at ht
    · cases ht
    · rename_i qs hqs
      exact ⟨p, qs, (Except.ok.inj ht).symm, hp, hqs⟩

lemma mem_targets (ht : targets encode h.source h.blocks patches = .ok ps) (hp : p ∈ ps) :
    ∃ patch ∈ patches, target encode h.source h.blocks patch = .ok p := by
  induction patches generalizing ps with
  | nil =>
    obtain rfl := Except.ok.inj ht
    cases hp
  | cons patch patches ih =>
    obtain ⟨q, qs, rfl, hq, hqs⟩ := targets_cons ht
    rcases List.mem_cons.mp hp with rfl | hp
    · exact ⟨patch, List.mem_cons_self, hq⟩
    · obtain ⟨patch', hm, hp⟩ := ih hqs hp
      exact ⟨patch', List.mem_cons_of_mem _ hm, hp⟩

lemma targets_mem (ht : targets encode h.source h.blocks patches = .ok ps)
    (hm : patch ∈ patches) : ∃ p ∈ ps, target encode h.source h.blocks patch = .ok p := by
  induction patches generalizing ps with
  | nil => cases hm
  | cons first patches ih =>
    obtain ⟨q, qs, rfl, hq, hqs⟩ := targets_cons ht
    rcases List.mem_cons.mp hm with rfl | hm
    · exact ⟨q, List.mem_cons_self, hq⟩
    · obtain ⟨p, hp, hpt⟩ := ih hqs hm
      exact ⟨p, List.mem_cons_of_mem _ hp, hpt⟩

lemma applyPatches_ok {patches : List Patch}
    (ha : applyPatches encode h.source h.blocks patches = .ok content) :
    ∃ ps, targets encode h.source h.blocks patches = .ok ps ∧ (patches.map Patch.id).Nodup ∧
      content = Splice.applyAll (ordered ps) h.source := by
  rw [applyPatches] at ha
  split at ha
  · cases ha
  · rename_i ps hps
    split at ha
    · rename_i hn
      exact ⟨ps, hps, hn, (Except.ok.inj ha).symm⟩
    · cases ha

end Host

structure Marked where
  host : Host
  count : ℕ
  place : ℕ → ℕ × ℕ
  body : ℕ → Text
  lock : ℕ → Option LockReason

inductive Action where
  | record (id : ℕ) (html : Text) (pristine : Bool)
  | save (hash : String)

namespace Marked

def opened (parse : Text → Node) (source : Text) (hash : String)
    (live : ℕ → Option LockReason) : Marked :=
  let parsed := parseBlocks parse source
  let lock := fun id => (parsed[id]?).bind Block.locked <|> live id
  { host := {
      source
      baseHash := hash
      blocks := parsed.map (fun b => { b with locked := lock b.id }) }
    count := parsed.length
    place := fun id => (parsed[id]?).elim (0, 0) (fun b => (b.innerStart, b.innerEnd))
    body := fun id => (parsed[id]?).elim [] (fun b => slice source b.innerStart b.innerEnd)
    lock }

def step (parse : Text → Node) (encode : Text → Text) (m : Marked) : Action → Option Marked
  | .record id html pristine => some { m with host := m.host.record id html pristine }
  | .save hash =>
    if m.host.patches = [] then none
    else
      match applyPatches encode m.host.source m.host.blocks m.host.patches with
      | .error _ => none
      | .ok content =>
        let ps := m.host.splices encode
        some { m with
          host := m.host.accepted parse content hash
          place := fun id => (Splice.moveStart ps (m.place id).1, Splice.moveEnd ps (m.place id).2)
          body := fun id =>
            ((patchOf m.host.patches id).map (m.host.written encode id)).getD (m.body id) }

/-- The block held under the id is the marked element: it lies where the edits put its contents,
holds them, and has its lock. -/
def Names (m : Marked) (id : ℕ) : Prop :=
  ∃ b, m.host.block id = some b ∧ (b.innerStart, b.innerEnd) = m.place id ∧
    b.locked = m.lock id ∧ slice m.host.source b.innerStart b.innerEnd = m.body id

/-- The saved source is parsed as the old tree with the edited blocks' contents replaced, each of
them still a block. -/
def Reparses (parse : Text → Node) (encode : Text → Text) (m : Marked) : Action → Prop
  | .save _ => ∀ content,
      applyPatches encode m.host.source m.host.blocks m.host.patches = .ok content →
      (parse m.host.source).Respliced content (m.host.splices encode) (parse content)
  | .record _ _ _ => True

structure Loaded (parse : Text → Node) (m : Marked) : Prop where
  blocks : m.host.blocks =
    (parseBlocks parse m.host.source).map (fun b => { b with locked := m.lock b.id })
  locks : ∀ b ∈ parseBlocks parse m.host.source, m.lock b.id = none → b.locked = none
  count : (parseBlocks parse m.host.source).length = m.count
  place : ∀ b ∈ parseBlocks parse m.host.source, m.place b.id = (b.innerStart, b.innerEnd)
  body : ∀ b ∈ parseBlocks parse m.host.source,
    m.body b.id = slice m.host.source b.innerStart b.innerEnd

variable {m t : Marked}

lemma opened_loaded (source : Text) (hash : String) (live : ℕ → Option LockReason) :
    (opened parse source hash live).Loaded parse := by
  have hget : ∀ b ∈ parseBlocks parse source, (parseBlocks parse source)[b.id]? = some b :=
    fun b hb => parseBlocks_of_mem hb
  refine ⟨rfl, fun b hb hl => ?_, rfl, fun b hb => ?_, fun b hb => ?_⟩
  · simp only [opened, hget b hb, Option.bind_some] at hl
    cases hlocked : b.locked with
    | none => rfl
    | some reason =>
      simp only [hlocked] at hl
      cases hl
  · simp only [opened, hget b hb, Option.elim_some]
  · simp only [opened, hget b hb, Option.elim_some]

lemma Loaded.names (hl : m.Loaded parse) {id : ℕ} (hid : id < m.count) : m.Names id := by
  rw [← hl.count] at hid
  obtain ⟨b, hget⟩ : ∃ b, (parseBlocks parse m.host.source)[id]? = some b :=
    ⟨_, List.getElem?_eq_getElem hid⟩
  have hmem := List.mem_of_getElem? hget
  obtain rfl : b.id = id := by
    rw [getElem?_parseBlocks] at hget
    obtain ⟨v, -, rfl⟩ := Option.map_eq_some_iff.mp hget
    rfl
  exact ⟨_, block_of_mem hl.blocks hmem, (hl.place b hmem).symm, rfl, (hl.body b hmem).symm⟩

lemma step_save {hash : String} (h : m.step parse encode (.save hash) = some t) :
    ∃ content ps, applyPatches encode m.host.source m.host.blocks m.host.patches = .ok content ∧
      targets encode m.host.source m.host.blocks m.host.patches = .ok ps ∧
      m.host.splices encode = ordered ps ∧ (m.host.patches.map Patch.id).Nodup ∧
      content = Splice.applyAll (ordered ps) m.host.source ∧
      t = { m with
        host := m.host.accepted parse content hash
        place := fun id => (Splice.moveStart (ordered ps) (m.place id).1,
          Splice.moveEnd (ordered ps) (m.place id).2)
        body := fun id =>
          ((patchOf m.host.patches id).map (m.host.written encode id)).getD (m.body id) } := by
  simp only [step] at h
  split at h
  · cases h
  · split at h
    · cases h
    · rename_i content hcontent
      obtain ⟨ps, hps, hn, happlied⟩ := Host.applyPatches_ok hcontent
      have hsplices : m.host.splices encode = ordered ps := by
        rw [Host.splices, hps]
      rw [hsplices] at h
      exact ⟨content, ps, hcontent, hps, hsplices, hn, happlied, (Option.some.inj h).symm⟩

variable {ps : List (Splice Char)} {p q : Splice Char}

lemma Loaded.source_of_target (hl : m.Loaded parse) {patch : Patch}
    (ht : target encode m.host.source m.host.blocks patch = .ok p) :
    ∃ b ∈ parseBlocks parse m.host.source, b.id = patch.id ∧ b.locked = none ∧
      p = ⟨b.innerStart, b.innerEnd, m.host.written encode patch.id patch.newInnerHtml⟩ := by
  obtain ⟨held, hheld, hopen, rfl⟩ := Host.target_ok ht
  obtain ⟨b, hb, hid, rfl⟩ := block_mem hl.blocks hheld
  exact ⟨b, hb, hid, hl.locks b hb hopen, rfl⟩

lemma targets_apart {h : Host} (hn : Nests parse)
    (hsource : ∀ {patch : Patch} {p : Splice Char}, target encode h.source h.blocks patch = .ok p →
      ∃ b ∈ parseBlocks parse h.source, b.id = patch.id ∧ p.start = b.innerStart ∧
        p.stop = b.innerEnd)
    {patches : List Patch} (hnodup : (patches.map Patch.id).Nodup)
    (ht : targets encode h.source h.blocks patches = .ok ps) :
    ps.Pairwise (fun p q => p.stop < q.start ∨ q.stop < p.start) := by
  induction patches generalizing ps with
  | nil =>
    obtain rfl := Except.ok.inj ht
    exact List.Pairwise.nil
  | cons patch patches ih =>
    obtain ⟨p, qs, rfl, hp, hqs⟩ := Host.targets_cons ht
    obtain ⟨hfresh, hnodup⟩ := List.nodup_cons.mp hnodup
    refine List.pairwise_cons.mpr ⟨fun q hq => ?_, ih hnodup hqs⟩
    obtain ⟨patch', hm, hq⟩ := Host.mem_targets hqs hq
    obtain ⟨b, hb, hbid, hbstart, hbstop⟩ := hsource hp
    obtain ⟨c, hc, hcid, hcstart, hcstop⟩ := hsource hq
    have hne : b.id ≠ c.id := by
      rw [hbid, hcid]
      exact fun he => hfresh (he ▸ List.mem_map_of_mem hm)
    rw [hbstart, hbstop, hcstart, hcstop]
    rcases Nat.lt_or_gt_of_ne hne with hlt | hlt
    · exact .inl (parseBlocks_apart hn hb hc hlt)
    · exact .inr (parseBlocks_apart hn hc hb hlt)

lemma Loaded.targets_apart (hn : Nests parse) (hl : m.Loaded parse) {patches : List Patch}
    (hnodup : (patches.map Patch.id).Nodup)
    (ht : targets encode m.host.source m.host.blocks patches = .ok ps) :
    ps.Pairwise (fun p q => p.stop < q.start ∨ q.stop < p.start) := by
  refine Marked.targets_apart hn (fun hp => ?_) hnodup ht
  obtain ⟨b, hb, hid, -, rfl⟩ := hl.source_of_target hp
  exact ⟨b, hb, hid, rfl, rfl⟩

lemma ordered_descending (hordered : ∀ p ∈ ps, p.start ≤ p.stop)
    (hapart : ps.Pairwise (fun p q => p.stop < q.start ∨ q.stop < p.start)) :
    Splice.Descending (ordered ps) := by
  have hperm : (ordered ps).Perm ps := List.perm_insertionSort _ ps
  have hsorted : (ordered ps).Pairwise (fun p q => q.start ≤ p.start) := by
    have : Std.Total (fun p q : Splice Char => q.start ≤ p.start) := ⟨fun p q => le_total _ _⟩
    have : IsTrans (Splice Char) (fun p q => q.start ≤ p.start) := ⟨fun _ _ _ h g => g.trans h⟩
    exact List.pairwise_insertionSort _ ps
  have hap : (ordered ps).Pairwise (fun p q => p.stop < q.start ∨ q.stop < p.start) :=
    (hperm.pairwise_iff (fun h => h.symm)).mpr hapart
  refine (hsorted.and hap).imp_of_mem (fun {p q} hp hq h => ?_)
  have := hordered p (hperm.mem_iff.mp hp)
  omega

lemma parseBlocks_respliced (hn : Nests parse) (hr : Replaces source content ps)
    (hfound : ∀ p ∈ ps, ∃ b ∈ parseBlocks parse source, b.locked = none ∧
      b.innerStart = p.start ∧ b.innerEnd = p.stop)
    (hrespliced : (parse source).Respliced content ps (parse content)) :
    parseBlocks parse content = (parseBlocks parse source).map (Block.moved content ps) := by
  have hall : Accounted ps (visit source none (parse source)) 0 source.length := by
    intro p hp
    obtain ⟨b, hb, hopen, hstart, hstop⟩ := hfound p hp
    obtain ⟨v, hv, hbv⟩ := mem_parseBlocks hb
    rw [hbv] at hopen hstart hstop
    exact .inl ⟨v, List.mem_of_getElem? hv, hopen, hstart, hstop⟩
  rw [parseBlocks, visit_respliced hr _ _ (hn source) hrespliced hall, parseBlocks]
  apply List.ext_getElem?
  intro i
  simp only [List.getElem?_mapIdx, List.getElem?_map, Option.map_map]
  rfl

lemma Loaded.body_moved (hn : Nests parse) (hl : m.Loaded parse)
    (hr : Replaces m.host.source content (ordered ps))
    (hps : targets encode m.host.source m.host.blocks m.host.patches = .ok ps)
    (hb : b ∈ parseBlocks parse m.host.source) :
    ((patchOf m.host.patches b.id).map (m.host.written encode b.id)).getD (m.body b.id) =
      slice content (Splice.moveStart (ordered ps) b.innerStart)
        (Splice.moveEnd (ordered ps) b.innerEnd) := by
  have hperm : (ordered ps).Perm ps := List.perm_insertionSort _ ps
  cases hpatch : m.host.patches.find? (fun p => p.id = b.id) with
  | some patch =>
    have hid : patch.id = b.id := by
      have hfound := List.find?_some hpatch
      exact of_decide_eq_true hfound
    obtain ⟨p, hp, ht⟩ := Host.targets_mem hps (List.mem_of_find?_eq_some hpatch)
    obtain ⟨c, hc, hcid, -, rfl⟩ := hl.source_of_target ht
    obtain rfl := parseBlocks_unique hc hb (hcid.trans hid)
    have htext := hr.slice_text (hperm.mem_iff.mpr hp)
    rw [hid] at htext
    rw [patchOf, hpatch]
    exact htext.symm
  | none =>
    have hinside := parseBlocks_inside hn hb
    obtain ⟨n, hstop⟩ := Nat.exists_eq_add_of_le hinside.ordered
    rw [patchOf, hpatch, Option.map_none, Option.map_none, Option.getD_none, hl.body b hb, hstop]
    refine (hr.slice_clear (fun p hp => ?_)).symm
    obtain ⟨patch, hm, ht⟩ := Host.mem_targets hps (hperm.mem_iff.mp hp)
    obtain ⟨c, hc, hcid, -, rfl⟩ := hl.source_of_target ht
    have hne : c.id ≠ b.id := by
      rw [hcid]
      exact fun he => List.find?_eq_none.mp hpatch patch hm (decide_eq_true he)
    have hordered := (parseBlocks_inside hn hc).ordered
    rw [Splice.Clear, ← hstop]
    dsimp only
    rcases Nat.lt_or_gt_of_ne hne with hlt | hlt
    · have := parseBlocks_apart hn hc hb hlt
      omega
    · have := parseBlocks_apart hn hb hc hlt
      omega

lemma step_loaded {action : Action} (hn : Nests parse) (hl : m.Loaded parse)
    (hr : m.Reparses parse encode action) (h : m.step parse encode action = some t) :
    t.Loaded parse := by
  cases action with
  | record id html pristine =>
    obtain rfl := Option.some.inj h
    have hrecord : (m.host.record id html pristine).source = m.host.source ∧
        (m.host.record id html pristine).blocks = m.host.blocks := by
      rw [Host.record]
      split <;> exact ⟨rfl, rfl⟩
    obtain ⟨hsource, hblocks⟩ := hrecord
    refine ⟨?_, ?_, ?_, ?_, ?_⟩
    · rw [hsource, hblocks]
      exact hl.blocks
    · rw [hsource]
      exact hl.locks
    · rw [hsource]
      exact hl.count
    · rw [hsource]
      exact hl.place
    · rw [hsource]
      exact hl.body
  | save hash =>
    obtain ⟨content, ps, hcontent, hps, hsplices, hnodup, happlied, rfl⟩ := step_save h
    have hrespliced := hr content hcontent
    rw [hsplices] at hrespliced
    have hperm : (ordered ps).Perm ps := List.perm_insertionSort _ ps
    have hsource : ∀ p ∈ ordered ps, ∃ b ∈ parseBlocks parse m.host.source, b.locked = none ∧
        b.innerStart = p.start ∧ b.innerEnd = p.stop := by
      intro p hp
      obtain ⟨patch, -, ht⟩ := Host.mem_targets hps (hperm.mem_iff.mp hp)
      obtain ⟨b, hb, -, hopen, rfl⟩ := hl.source_of_target ht
      exact ⟨b, hb, hopen, rfl, rfl⟩
    have hfits : ∀ p ∈ ordered ps, p.Fits m.host.source := by
      intro p hp
      obtain ⟨b, hb, -, hstart, hstop⟩ := hsource p hp
      have hinside := parseBlocks_inside hn hb
      exact ⟨hstart ▸ hstop ▸ hinside.ordered, hstop ▸ hinside.upper⟩
    have hreplaces : Replaces m.host.source content (ordered ps) :=
      ⟨ordered_descending (fun p hp => (hfits p (hperm.mem_iff.mpr hp)).1)
        (hl.targets_apart hn hnodup hps), hfits, happlied⟩
    have hreparsed := parseBlocks_respliced hn hreplaces hsource hrespliced
    have hmoved : ∀ b' ∈ parseBlocks parse content, ∃ b ∈ parseBlocks parse m.host.source,
        b' = b.moved content (ordered ps) := by
      intro b' hb'
      rw [hreparsed] at hb'
      obtain ⟨b, hb, rfl⟩ := List.mem_map.mp hb'
      exact ⟨b, hb, rfl⟩
    refine ⟨?_, ?_, ?_, ?_, ?_⟩
    · apply List.map_congr_left
      intro b' hb'
      obtain ⟨b, hb, rfl⟩ := hmoved b' hb'
      have hheld := block_of_mem hl.blocks hb
      have hlock : ((m.host.block b.id).bind Block.locked <|> b.locked) = m.lock b.id := by
        rw [hheld]
        cases hlocked : m.lock b.id with
        | none => exact hl.locks b hb hlocked
        | some reason => rfl
      simp only [Block.moved, hlock]
    · intro b' hb' hlock
      obtain ⟨b, hb, rfl⟩ := hmoved b' hb'
      exact hl.locks b hb hlock
    · rw [← hl.count]
      exact (congrArg List.length hreparsed).trans (List.length_map _)
    · intro b' hb'
      obtain ⟨b, hb, rfl⟩ := hmoved b' hb'
      have hplace := hl.place b hb
      simp only [Block.moved, hplace]
    · intro b' hb'
      obtain ⟨b, hb, rfl⟩ := hmoved b' hb'
      exact hl.body_moved hn hreplaces hps hb

/-- While every saved source is parsed as the tree before it with the edited contents replaced,
each held id keeps naming the element its marker was put on. -/
theorem markers_keep_naming (parse : Text → Node) (encode : Text → Text) (hn : Nests parse)
    (source : Text) (hash : String) (live : ℕ → Option LockReason) (actions : List Action)
    (m : Marked) (hreparses : Along (step parse encode) (Reparses parse encode)
      (opened parse source hash live) actions)
    (hrun : run (step parse encode) (opened parse source hash live) actions = some m) (id : ℕ)
    (hid : id < m.count) : m.Names id :=
  (run_guarded (fun _ _ _ hl hr hs => step_loaded hn hl hr hs) (opened_loaded source hash live)
    hreparses hrun).names hid

def paragraphAt (start length : ℕ) : Element where
  tagName := "p"
  startOffset := start
  startTag := some (start + 3)
  endTag := some (start + 3 + length)
  endOffset := start + 7 + length

def lineBreakAt (start : ℕ) : Element where
  tagName := "br"
  startOffset := start
  startTag := some (start + 4)
  endOffset := start + 4

def paragraphs (length : ℕ) (children : List Node) : Node :=
  .root [.element { tagName := "html" } [.element { tagName := "head" } [],
    .element { tagName := "body" } [.element (paragraphAt 0 length) children,
      .element (paragraphAt (7 + length) 1) [.text "b".toList]]]]

def parseParagraphs (source : Text) : Node :=
  if source = "<p>a</p><p>b</p>".toList then paragraphs 1 [.text "a".toList]
  else if source = "<p>cd</p><p>b</p>".toList then paragraphs 2 [.text "cd".toList]
  else if source = "<p><br></p><p>b</p>".toList then paragraphs 4 [.element (lineBreakAt 3) []]
  else .root []

lemma paragraphAt_within {start length : ℕ} {children : List Node}
    (hc : Arranged children (start + 3) (start + 3 + length)) :
    (Node.element (paragraphAt start length) children).Within start (start + 7 + length) := by
  refine ⟨le_rfl, Nat.lt_add_of_pos_right (by decide), Nat.le_add_right _ _, fun _ => ?_, le_rfl,
    hc⟩
  change start + 3 + length < start + 7 + length
  omega

lemma paragraphs_within {length hi : ℕ} {children : List Node}
    (hc : Arranged children 3 (3 + length)) (hhi : 15 + length ≤ hi) :
    (paragraphs length children).Within 0 hi := by
  have hbody : Arranged [.element (paragraphAt 0 length) children,
      .element (paragraphAt (7 + length) 1) [.text "b".toList]] 0 hi := by
    refine ⟨0 + 7 + length, Nat.zero_le _, paragraphAt_within ?_, 7 + length + 7 + 1, by omega,
      ?_, by rw [Arranged]; omega⟩
    · rw [Nat.zero_add]
      exact hc
    · exact paragraphAt_within ⟨_, le_rfl, trivial, Nat.le_add_right _ _⟩
  exact ⟨hi, Nat.zero_le _, ⟨0, le_rfl, le_rfl, hi, Nat.zero_le _, hbody, le_rfl⟩, le_rfl⟩

lemma parseParagraphs_nests : Nests parseParagraphs := by
  intro source
  rw [parseParagraphs]
  split
  · rename_i h
    subst h
    exact paragraphs_within ⟨3, le_rfl, trivial, Nat.le_add_right 3 1⟩ (by decide)
  · split
    · rename_i h
      subst h
      exact paragraphs_within ⟨3, le_rfl, trivial, Nat.le_add_right 3 2⟩ (by decide)
    · split
      · rename_i h
        subst h
        refine paragraphs_within ⟨7, by omega, ?_, le_refl 7⟩ (by decide)
        exact ⟨le_rfl, Nat.lt_add_of_pos_right (by decide), le_rfl, fun h => absurd rfl h, le_rfl,
          le_refl 7⟩
      · exact Nat.zero_le _

def firstEditedTo (html : String) : List Action := [.record 0 html.toList false, .save "bbb"]

def twoParagraphs : Marked :=
  opened parseParagraphs "<p>a</p><p>b</p>".toList "aaa" (fun _ => none)

lemma firstEdited_splices :
    (twoParagraphs.host.record 0 "cd".toList false).splices World.escapeText =
      [⟨3, 4, "cd".toList⟩] := by decide

lemma respliced_clear {el : Element} {children children' : List Node}
    (hclear : ∀ p ∈ ps, el.startTag ≠ some p.start)
    (hnodes : NodesRespliced content ps children children')
    (hblank : children.any Node.isBlockChild = false →
      blank (textOfAll children') = blank (textOfAll children)) :
    (Node.element el children).Respliced content ps (.element (el.moved ps) children') := by
  rw [Node.Respliced]
  refine ⟨children', rfl, ?_, fun _ => ⟨hnodes, hblank⟩⟩
  rintro ⟨p, hp, hstart⟩
  exact absurd hstart (hclear p hp)

lemma paragraphs_respliced :
    (paragraphs 1 [.text "a".toList]).Respliced "<p>cd</p><p>b</p>".toList [⟨3, 4, "cd".toList⟩]
      (paragraphs 2 [.text "cd".toList]) := by
  have hhead : (Node.element { tagName := "head" } []).Respliced "<p>cd</p><p>b</p>".toList
      [⟨3, 4, "cd".toList⟩] (.element { tagName := "head" } []) :=
    respliced_clear (by decide) rfl (fun _ => rfl)
  have hsecond : (Node.element (paragraphAt (7 + 1) 1) [.text "b".toList]).Respliced
      "<p>cd</p><p>b</p>".toList [⟨3, 4, "cd".toList⟩]
      (.element (paragraphAt (7 + 2) 1) [.text "b".toList]) :=
    respliced_clear (by decide) ⟨_, _, rfl, rfl, rfl⟩ (fun _ => rfl)
  have hfirst : (Node.element (paragraphAt 0 1) [.text "a".toList]).Respliced
      "<p>cd</p><p>b</p>".toList [⟨3, 4, "cd".toList⟩]
      (.element (paragraphAt 0 2) [.text "cd".toList]) :=
    ⟨_, rfl, fun _ => .inl rfl, fun h => absurd ⟨_, List.mem_singleton_self _, rfl⟩ h⟩
  have hbody : (Node.element { tagName := "body" } [.element (paragraphAt 0 1) [.text "a".toList],
      .element (paragraphAt (7 + 1) 1) [.text "b".toList]]).Respliced
      "<p>cd</p><p>b</p>".toList [⟨3, 4, "cd".toList⟩]
      (.element { tagName := "body" } [.element (paragraphAt 0 2) [.text "cd".toList],
        .element (paragraphAt (7 + 2) 1) [.text "b".toList]]) :=
    respliced_clear (by decide) ⟨_, _, rfl, hfirst, _, _, rfl, hsecond, rfl⟩ (fun _ => rfl)
  exact ⟨_, rfl, _, _, rfl, respliced_clear (by decide)
    ⟨_, _, rfl, hhead, _, _, rfl, hbody, rfl⟩ (fun _ => rfl), rfl⟩

lemma firstEditedTo_reparses :
    Along (step parseParagraphs World.escapeText) (Reparses parseParagraphs World.escapeText) twoParagraphs
      (firstEditedTo "cd") := by
  refine along_cons rfl trivial (along_cons rfl ?_ trivial)
  intro content hcontent
  obtain rfl := Except.ok.inj hcontent
  change (paragraphs 1 [.text "a".toList]).Respliced _
    ((twoParagraphs.host.record 0 "cd".toList false).splices World.escapeText) _
  rw [firstEdited_splices]
  exact paragraphs_respliced

theorem markers_keep_naming_after_save :
    ∃ m, run (step parseParagraphs World.escapeText) twoParagraphs (firstEditedTo "cd") = some m ∧
      m.Names 1 :=
  ⟨_, rfl, markers_keep_naming parseParagraphs World.escapeText parseParagraphs_nests _ _ _ _ _
    firstEditedTo_reparses rfl 1 (Nat.lt_add_one 1)⟩

/-- An edit that leaves a block only a line break gives its id to the next one, which then takes
the edits of the first. -/
theorem emptied_block_renames_the_next :
    Nests parseParagraphs ∧
    (∃ m, run (step parseParagraphs World.escapeText) twoParagraphs (firstEditedTo "<br>") = some m ∧
      0 < m.count ∧ ¬ m.Names 0) ∧
    ∃ t, run (step parseParagraphs World.escapeText) twoParagraphs
        (firstEditedTo "<br>" ++ firstEditedTo "c") = some t ∧
      t.host.source = "<p><br></p><p>c</p>".toList := by
  have hlater : (run (step parseParagraphs World.escapeText) twoParagraphs
      (firstEditedTo "<br>" ++ firstEditedTo "c")).map (fun t => t.host.source) =
        some "<p><br></p><p>c</p>".toList := by decide +kernel
  refine ⟨parseParagraphs_nests, ⟨_, rfl, Nat.zero_lt_succ 1, ?_⟩,
    Option.map_eq_some_iff.mp hlater⟩
  rintro ⟨b, hb, hplace, -⟩
  obtain rfl := Option.some.inj hb
  have hstart := congrArg Prod.fst hplace
  exact absurd hstart (by decide)

end Marked

end Nightcrow.Page.Edit
