import Nightcrow.Library.Runs

/-! `POST /api/file`: the requests that overwrite one working-tree file, and the writers
beside them. -/

namespace Nightcrow.Viewer

open Nightcrow.Library

abbrev Bytes := List UInt8

def asBytes (s : String) : Bytes := s.toUTF8.data.toList

structure WriteFileRequest where
  content : String
  baseHash : String
  force : Bool
  deriving DecidableEq

/-- One request as it comes in: its query, its body as serde reads it, and how the repository
and the worktree gate take it. -/
structure Arrival where
  repo : Option String
  served : Bool
  path : Option String
  body : Option WriteFileRequest
  opens : Bool
  hasWorkdir : Bool
  resolves : Bool

inductive Reply where
  | saved (hash : String)
  | stale (currentHash : String)
  | refused (status message : String)
  deriving DecidableEq

def Reply.isSaved : Reply → Bool
  | .saved _ => true
  | _ => false

def jsonError (status message : String) : Reply := .refused status message

def redact : Reply := jsonError "400 Bad Request" "request could not be served"

def lookupRepo (a : Arrival) : Option Reply :=
  match a.repo with
  | none => some (jsonError "400 Bad Request" "missing repo parameter")
  | some _ => if a.served then none else some (jsonError "404 Not Found" "unknown repository")

def accept (a : Arrival) : Except Reply WriteFileRequest :=
  -- `handle_write_file` up to the moment it touches the file
  match lookupRepo a with
  | some reply => .error reply
  | none =>
    if a.path.filter (fun p => p ≠ "") = none then
      .error (jsonError "400 Bad Request" "missing path parameter")
    else
      match a.body with
      | none =>
        .error (jsonError "400 Bad Request" "expected a JSON body with content and baseHash")
      | some request =>
        if a.opens = false then .error redact
        else if a.hasWorkdir = false then .error (jsonError "400 Bad Request" "bare repository")
        else if a.resolves = false then .error redact
        else .ok request

section

variable (hashObject : Bytes → Option String)

def compareBase (read : Option Bytes) (request : WriteFileRequest) : Except Reply Bytes :=
  -- the read and the comparison: what the request goes on with, or the reply it ends in
  match read with
  | none => .error redact
  | some current =>
    match hashObject current with
    | none => .error redact
    | some currentOid =>
      if currentOid ≠ request.baseHash ∧ request.force = false then .error (.stale currentOid)
      else .ok current

def saved (request : WriteFileRequest) : Reply :=
  match hashObject (asBytes request.content) with
  | none => redact
  | some newOid => .saved newOid

end

inductive Call where
  | admitted (request : WriteFileRequest)
  | checked (request : WriteFileRequest) (current : Bytes)

structure Answer where
  request : Option WriteFileRequest
  replaced : Option Bytes
  left : Option Bytes
  reply : Reply
  deriving DecidableEq

-- what the history keeps of a step that may change the file
inductive Entry where
  | answered (a : Answer)
  | outside (disk : Option Bytes)

def Entry.left : Entry → Option Bytes
  | .answered a => a.left
  | .outside disk => disk

def Entry.answer? : Entry → Option Answer
  | .answered a => some a
  | .outside _ => none

structure World where
  disk : Option Bytes
  calls : ℕ → Option Call := fun _ => none
  log : List Entry := []

def answers (log : List Entry) : List Answer := log.filterMap Entry.answer?

-- how `std::fs::write` ends: a write that fails leaves the file in any state
inductive Written where
  | whole
  | cut (left : Option Bytes)

inductive Label where
  | arrive (i : ℕ) (a : Arrival)
  | read (i : ℕ) (readable : Bool)
  | write (i : ℕ) (written : Written)
  | outside (disk : Option Bytes)

namespace World

def answer (w : World) (i : ℕ) (request : Option WriteFileRequest) (left : Option Bytes)
    (reply : Reply) : World where
  disk := left
  calls := Function.update w.calls i none
  log := .answered ⟨request, w.disk, left, reply⟩ :: w.log

def await (w : World) (i : ℕ) (call : Call) : World :=
  { w with calls := Function.update w.calls i (some call) }

def step (hashObject : Bytes → Option String) (w : World) : Label → Option World
  | .arrive i a =>
    match w.calls i with
    | some _ => none
    | none =>
      match accept a with
      | .error reply => some (w.answer i a.body w.disk reply)
      | .ok request => some (w.await i (.admitted request))
  | .read i readable =>
    match w.calls i with
    | some (.admitted request) =>
      match compareBase hashObject (if readable then w.disk else none) request with
      | .error reply => some (w.answer i (some request) w.disk reply)
      | .ok current => some (w.await i (.checked request current))
    | _ => none
  | .write i written =>
    match w.calls i with
    | some (.checked request _) =>
      match written with
      | .whole =>
        some (w.answer i (some request) (some (asBytes request.content)) (saved hashObject request))
      | .cut left => some (w.answer i (some request) left redact)
    | _ => none
  | .outside disk => some { w with disk, log := .outside disk :: w.log }

end World

-- the base of an answer that saved without force
def Answer.savedBase (a : Answer) : Option String :=
  match a.reply, a.request with
  | .saved _, some r => if r.force then none else some r.baseHash
  | _, _ => none

-- what the base of a save has to be, and what any other answer has to leave
def Answer.Clean (hashObject : Bytes → Option String) (a : Answer) : Prop :=
  (∀ base ∈ a.savedBase, ∃ old, a.replaced = some old ∧ hashObject old = some base) ∧
    (a.reply.isSaved = false → a.left = a.replaced)

def Answer.Rival (a b : Answer) : Prop :=
  (a.savedBase ≠ none ∧ a.savedBase = b.savedBase) ∧
    a.request.map (·.content) ≠ b.request.map (·.content)

instance decidableRival (a b : Answer) : Decidable (a.Rival b) :=
  inferInstanceAs (Decidable ((_ ∧ _) ∧ _))

def Answer.SavedOver (base content : String) (a : Answer) : Prop :=
  a.savedBase = some base ∧ a.request.map (·.content) ≠ some content

instance decidableSavedOver (base content : String) (a : Answer) :
    Decidable (a.SavedOver base content) :=
  inferInstanceAs (Decidable (_ ∧ _))

/-- After a save over the base with other contents the file held the base again. -/
def PutBack (hashObject : Bytes → Option String) (base content : String) : List Entry → Prop
  | [] => False
  | e :: log =>
    (e.left.bind hashObject = some base ∧
      ∃ a ∈ answers (e :: log), a.SavedOver base content) ∨ PutBack hashObject base content log

instance decidablePutBack (hashObject : Bytes → Option String) (base content : String) :
    ∀ log, Decidable (PutBack hashObject base content log)
  | [] => isFalse id
  | e :: log =>
    have := decidablePutBack hashObject base content log
    inferInstanceAs (Decidable ((e.left.bind hashObject = some base ∧
      ∃ a ∈ answers (e :: log), a.SavedOver base content) ∨ PutBack hashObject base content log))

namespace World

/-- A write without force finds the file with the blob id it read, and a write that is not
answered 200 finds in the file what it leaves there. -/
def Untouched (hashObject : Bytes → Option String) (w : World) : Label → Prop
  | .write i written =>
    match w.calls i, written with
    | some (.checked request current), .whole =>
      if hashObject (asBytes request.content) = none then w.disk = some (asBytes request.content)
      else request.force = false → w.disk.bind hashObject = hashObject current
    | some (.checked _ _), .cut left => left = w.disk
    | _, _ => True
  | _ => True

/-- A write without force is not over a base that was saved over and put back. -/
def Unrestored (hashObject : Bytes → Option String) (w : World) : Label → Prop
  | .write i .whole =>
    match w.calls i with
    | some (.checked request _) =>
      hashObject (asBytes request.content) ≠ none → request.force = false →
        ¬ PutBack hashObject request.baseHash request.content w.log
    | _ => True
  | _ => True

instance decidableUntouched (hashObject : Bytes → Option String) (w : World) :
    ∀ l, Decidable (w.Untouched hashObject l)
  | .write i .whole =>
    match h : w.calls i with
    | some (.checked request current) =>
      decidable_of_iff (if hashObject (asBytes request.content) = none then
          w.disk = some (asBytes request.content)
        else request.force = false → w.disk.bind hashObject = hashObject current)
        (by simp only [Untouched, h])
    | some (.admitted _) => isTrue (by simp only [Untouched, h])
    | none => isTrue (by simp only [Untouched, h])
  | .write i (.cut left) =>
    match h : w.calls i with
    | some (.checked _ _) => decidable_of_iff (left = w.disk) (by simp only [Untouched, h])
    | some (.admitted _) => isTrue (by simp only [Untouched, h])
    | none => isTrue (by simp only [Untouched, h])
  | .outside _ => isTrue trivial
  | .arrive _ _ => isTrue trivial
  | .read _ _ => isTrue trivial

instance decidableUnrestored (hashObject : Bytes → Option String) (w : World) :
    ∀ l, Decidable (w.Unrestored hashObject l)
  | .write i .whole =>
    match h : w.calls i with
    | some (.checked request _) =>
      decidable_of_iff (hashObject (asBytes request.content) ≠ none → request.force = false →
        ¬ PutBack hashObject request.baseHash request.content w.log)
        (by simp only [Unrestored, h])
    | some (.admitted _) => isTrue (by simp only [Unrestored, h])
    | none => isTrue (by simp only [Unrestored, h])
  | .write _ (.cut _) => isTrue trivial
  | .outside _ => isTrue trivial
  | .arrive _ _ => isTrue trivial
  | .read _ _ => isTrue trivial

def AllClean (hashObject : Bytes → Option String) (w : World) : Prop :=
  ∀ a ∈ answers w.log, a.Clean hashObject

def Unrivalled (w : World) : Prop := (answers w.log).Pairwise (fun a b => ¬ a.Rival b)

-- what holds of every run, races or not
structure Checked (hashObject : Bytes → Option String) (w : World) : Prop where
  based : ∀ i request current, w.calls i = some (.checked request current) →
    request.force = false → hashObject current = some request.baseHash
  newest : ∀ e ∈ w.log.head?, e.left = w.disk

variable {hashObject : Bytes → Option String} {w t : World} {i : ℕ}
  {request : Option WriteFileRequest} {r : WriteFileRequest} {reply : Reply}

lemma compareBase_ok {read : Option Bytes} {current : Bytes}
    (h : compareBase hashObject read r = .ok current) :
    read = some current ∧ (r.force = false → hashObject current = some r.baseHash) := by
  rw [compareBase.eq_def] at h
  split at h
  · cases h
  · split at h
    · cases h
    · rename_i oid hoid
      split at h
      · cases h
      · rename_i hgo
        obtain rfl := Except.ok.inj h
        refine ⟨rfl, fun hforce => ?_⟩
        rw [hoid]
        by_contra hne
        exact hgo ⟨fun he => hne (congrArg some he), hforce⟩

lemma compareBase_error {read : Option Bytes}
    (h : compareBase hashObject read r = .error reply) : reply.isSaved = false := by
  rw [compareBase.eq_def] at h
  split at h
  · exact Except.error.inj h ▸ rfl
  · split at h
    · exact Except.error.inj h ▸ rfl
    · split at h
      · exact Except.error.inj h ▸ rfl
      · cases h

lemma accept_error {a : Arrival} (h : accept a = .error reply) : reply.isSaved = false := by
  have hlookup : ∀ reply, lookupRepo a = some reply → reply.isSaved = false := by
    intro reply h
    rw [lookupRepo] at h
    split at h
    · exact Option.some.inj h ▸ rfl
    · split at h
      · cases h
      · exact Option.some.inj h ▸ rfl
  rw [accept] at h
  split at h
  · rename_i reply' hl
    exact Except.error.inj h ▸ hlookup reply' hl
  · split at h
    · exact Except.error.inj h ▸ rfl
    · split at h
      · exact Except.error.inj h ▸ rfl
      · repeat' split at h
        all_goals first | exact Except.error.inj h ▸ rfl | cases h

inductive Moves (hashObject : Bytes → Option String) (w : World) : Label → World → Prop
  | refuse (l : Label) (i : ℕ) (request : Option WriteFileRequest) {reply : Reply} :
      (∀ j written, l ≠ .write j written) → reply.isSaved = false →
      Moves hashObject w l (w.answer i request w.disk reply)
  | accept (i : ℕ) (a : Arrival) (r : WriteFileRequest) :
      Moves hashObject w (.arrive i a) (w.await i (.admitted r))
  | check (i : ℕ) (readable : Bool) (r : WriteFileRequest) (current : Bytes) :
      (r.force = false → hashObject current = some r.baseHash) →
      Moves hashObject w (.read i readable) (w.await i (.checked r current))
  | save (i : ℕ) (r : WriteFileRequest) (current : Bytes) :
      w.calls i = some (.checked r current) → Moves hashObject w (.write i .whole)
        (w.answer i (some r) (some (asBytes r.content)) (saved hashObject r))
  | fail (i : ℕ) (r : WriteFileRequest) (current : Bytes) (left : Option Bytes) :
      w.calls i = some (.checked r current) →
      Moves hashObject w (.write i (.cut left)) (w.answer i (some r) left redact)
  | outside (disk : Option Bytes) :
      Moves hashObject w (.outside disk) { w with disk, log := .outside disk :: w.log }

lemma step_moves {l : Label} (h : w.step hashObject l = some t) : Moves hashObject w l t := by
  cases l with
  | arrive i a =>
    simp only [step] at h
    split at h
    · cases h
    · split at h
      · rename_i reply he
        obtain rfl := Option.some.inj h
        exact .refuse _ i a.body (fun _ _ => nofun) (accept_error he)
      · obtain rfl := Option.some.inj h
        exact .accept i a _
  | read i readable =>
    simp only [step] at h
    split at h
    · rename_i r hcall
      split at h
      · rename_i reply he
        obtain rfl := Option.some.inj h
        exact .refuse _ i (some r) (fun _ _ => nofun) (compareBase_error he)
      · rename_i current he
        obtain rfl := Option.some.inj h
        exact .check i readable r current (compareBase_ok he).2
    · cases h
  | write i written =>
    simp only [step] at h
    split at h
    · rename_i r current hcall
      cases written with
      | whole =>
        obtain rfl := Option.some.inj h
        exact .save i r current hcall
      | cut left =>
        obtain rfl := Option.some.inj h
        exact .fail i r current left hcall
    · cases h
  | outside disk =>
    obtain rfl := Option.some.inj h
    exact .outside disk

lemma await_checked {calls : ℕ → Option Call} {call : Option Call}
    (h : ∀ i r current, calls i = some (.checked r current) → r.force = false →
      hashObject current = some r.baseHash)
    (hcall : ∀ r current, call = some (.checked r current) → r.force = false →
      hashObject current = some r.baseHash) (j : ℕ) (r : WriteFileRequest) (current : Bytes)
    (hj : Function.update calls i call j = some (.checked r current)) :
    r.force = false → hashObject current = some r.baseHash := by
  by_cases he : j = i
  · rw [he, Function.update_self] at hj
    exact hcall r current hj
  · rw [Function.update_of_ne he] at hj
    exact h j r current hj

lemma step_checked {l : Label} (hg : w.Checked hashObject) (h : w.step hashObject l = some t) :
    t.Checked hashObject := by
  have hanswer : ∀ i request left reply, (w.answer i request left reply).Checked hashObject := by
    intro i request left reply
    refine ⟨await_checked hg.based nofun, ?_⟩
    intro e he
    obtain rfl := Option.some.inj he
    rfl
  cases step_moves h with
  | refuse l i request hne hr => exact hanswer i request _ _
  | accept i a r =>
    exact ⟨await_checked hg.based nofun, hg.newest⟩
  | check i readable r current hr =>
    refine ⟨await_checked hg.based ?_, hg.newest⟩
    intro r' current' hj
    obtain ⟨rfl, rfl⟩ := Call.checked.inj (Option.some.inj hj)
    exact hr
  | save i r current hcall => exact hanswer i _ _ _
  | fail i r current left hcall => exact hanswer i _ _ _
  | outside disk =>
    refine ⟨hg.based, fun e he => ?_⟩
    obtain rfl := Option.some.inj he
    rfl

lemma savedBase_refused {a : Answer} (h : a.reply.isSaved = false) : a.savedBase = none := by
  rw [Answer.savedBase]
  split
  · rename_i hreply _
    rw [hreply] at h
    cases h
  · rfl

lemma clean_refused {a : Answer} (h : a.reply.isSaved = false) :
    a.Clean hashObject ↔ a.left = a.replaced := by
  refine ⟨fun hc => hc.2 h, fun hl => ⟨fun base hbase => ?_, fun _ => hl⟩⟩
  rw [savedBase_refused h] at hbase
  cases hbase

lemma not_rival_refused {a b : Answer} (h : a.reply.isSaved = false) : ¬ a.Rival b :=
  fun hrival => hrival.1.1 (savedBase_refused h)

lemma savedBase_saved {replaced left : Option Bytes} {oid : String} :
    (⟨some r, replaced, left, .saved oid⟩ : Answer).savedBase =
      if r.force then none else some r.baseHash := rfl

lemma clean_saved {replaced left : Option Bytes} {oid : String} :
    (⟨some r, replaced, left, .saved oid⟩ : Answer).Clean hashObject ↔
      (r.force = false → replaced.bind hashObject = some r.baseHash) := by
  rw [Answer.Clean, savedBase_saved]
  cases r.force with
  | true => exact ⟨fun _ => nofun, fun _ => ⟨nofun, nofun⟩⟩
  | false =>
    constructor
    · rintro ⟨h, -⟩ -
      obtain ⟨old, rfl, hold⟩ := h r.baseHash rfl
      exact hold
    · intro h
      refine ⟨fun base hbase => ?_, nofun⟩
      obtain rfl := Option.some.inj hbase
      exact Option.bind_eq_some_iff.mp (h rfl)

lemma rival_saved {replaced left : Option Bytes} {oid : String} {b : Answer} :
    (⟨some r, replaced, left, .saved oid⟩ : Answer).Rival b ↔
      r.force = false ∧ b.SavedOver r.baseHash r.content := by
  rw [Answer.Rival, Answer.SavedOver, savedBase_saved]
  cases r.force with
  | true => exact ⟨fun h => absurd rfl h.1.1, fun h => nomatch h.1⟩
  | false =>
    constructor
    · rintro ⟨⟨-, hbase⟩, hne⟩
      exact ⟨rfl, hbase.symm, fun he => hne he.symm⟩
    · rintro ⟨-, hbase, hne⟩
      exact ⟨⟨nofun, hbase.symm⟩, fun he => hne he.symm⟩

lemma savedOver_of_putBack {base content : String} {log : List Entry}
    (h : PutBack hashObject base content log) : ∃ a ∈ answers log, a.SavedOver base content := by
  induction log with
  | nil => exact h.elim
  | cons e log ih =>
    rcases h with ⟨_, h⟩ | h
    · exact h
    · obtain ⟨a, ha, hover⟩ := ih h
      refine ⟨a, ?_, hover⟩
      cases e with
      | answered b => exact List.mem_cons_of_mem _ ha
      | outside disk => exact ha

lemma putBack_iff {base content : String} (hg : w.Checked hashObject)
    (hdisk : w.disk.bind hashObject = some base) :
    PutBack hashObject base content w.log ↔ ∃ a ∈ answers w.log, a.SavedOver base content := by
  refine ⟨savedOver_of_putBack, fun h => ?_⟩
  cases hlog : w.log with
  | nil =>
    rw [hlog] at h
    obtain ⟨a, ha, -⟩ := h
    cases ha
  | cons e log =>
    have hleft : e.left = w.disk := hg.newest e (by rw [hlog]; rfl)
    rw [hlog] at h
    exact .inl ⟨by rw [hleft, hdisk], h⟩

lemma allClean_answer {left : Option Bytes} :
    (w.answer i request left reply).AllClean hashObject ↔
      w.AllClean hashObject ∧ (⟨request, w.disk, left, reply⟩ : Answer).Clean hashObject := by
  rw [AllClean, AllClean, and_comm]
  exact List.forall_mem_cons

lemma unrivalled_answer {left : Option Bytes} :
    (w.answer i request left reply).Unrivalled ↔ w.Unrivalled ∧
      ∀ b ∈ answers w.log, ¬ (⟨request, w.disk, left, reply⟩ : Answer).Rival b := by
  rw [Unrivalled, Unrivalled, and_comm]
  exact List.pairwise_cons

lemma step_clean {l : Label} (hg : w.Checked hashObject) (h : w.step hashObject l = some t) :
    t.AllClean hashObject ↔ w.AllClean hashObject ∧ w.Untouched hashObject l := by
  cases step_moves h with
  | refuse l i request hne hr =>
    rw [allClean_answer, clean_refused hr]
    refine and_congr_right fun _ => ⟨fun _ => ?_, fun _ => rfl⟩
    cases l with
    | write j written => exact absurd rfl (hne j written)
    | arrive j a => trivial
    | read j readable => trivial
    | outside disk => trivial
  | accept i a r => exact ⟨fun h => ⟨h, trivial⟩, And.left⟩
  | check i readable r current hr => exact ⟨fun h => ⟨h, trivial⟩, And.left⟩
  | save i r current hcall =>
    rw [allClean_answer]
    simp only [Untouched, hcall]
    refine and_congr_right fun _ => ?_
    cases hoid : hashObject (asBytes r.content) with
    | none =>
      have hsaved : saved hashObject r = redact := by rw [saved, hoid]
      rw [if_pos rfl, hsaved, clean_refused rfl]
      exact eq_comm
    | some oid =>
      have hsaved : saved hashObject r = .saved oid := by rw [saved, hoid]
      rw [if_neg nofun, hsaved, clean_saved]
      refine forall_congr' fun hforce => ?_
      rw [hg.based i r current hcall hforce]
  | fail i r current left hcall =>
    rw [allClean_answer, clean_refused rfl]
    simp only [Untouched, hcall]
  | outside disk => exact ⟨fun h => ⟨h, trivial⟩, And.left⟩

lemma step_unrivalled {l : Label} (hg : w.Checked hashObject)
    (h : w.step hashObject l = some t) (hl : w.Untouched hashObject l) :
    t.Unrivalled ↔ w.Unrivalled ∧ w.Unrestored hashObject l := by
  cases step_moves h with
  | refuse l i request hne hr =>
    rw [unrivalled_answer]
    refine and_congr_right fun _ => ⟨fun _ => ?_, fun _ _ _ => not_rival_refused hr⟩
    cases l with
    | write j written => exact absurd rfl (hne j written)
    | arrive j a => trivial
    | read j readable => trivial
    | outside disk => trivial
  | accept i a r => exact ⟨fun h => ⟨h, trivial⟩, And.left⟩
  | check i readable r current hr => exact ⟨fun h => ⟨h, trivial⟩, And.left⟩
  | save i r current hcall =>
    rw [unrivalled_answer]
    simp only [Unrestored, hcall]
    refine and_congr_right fun _ => ?_
    simp only [Untouched, hcall] at hl
    cases hoid : hashObject (asBytes r.content) with
    | none =>
      have hsaved : saved hashObject r = redact := by rw [saved, hoid]
      rw [hsaved]
      exact ⟨fun _ hne => absurd rfl hne, fun _ _ _ => not_rival_refused rfl⟩
    | some oid =>
      have hsaved : saved hashObject r = .saved oid := by rw [saved, hoid]
      rw [hsaved]
      simp only [rival_saved]
      rw [hoid, if_neg nofun] at hl
      constructor
      · intro h _ hforce hback
        obtain ⟨b, hb, hover⟩ := savedOver_of_putBack hback
        exact h b hb ⟨hforce, hover⟩
      · rintro h b hb ⟨hforce, hover⟩
        -- the file holds the base at the write, so the earlier save was undone
        have hdisk : w.disk.bind hashObject = some r.baseHash :=
          (hl hforce).trans (hg.based i r current hcall hforce)
        exact h nofun hforce ((putBack_iff hg hdisk).mpr ⟨b, hb, hover⟩)
  | fail i r current left hcall =>
    rw [unrivalled_answer]
    exact ⟨fun h => ⟨h.1, trivial⟩, fun h => ⟨h.1, fun _ _ => not_rival_refused rfl⟩⟩
  | outside disk => exact ⟨fun h => ⟨h, trivial⟩, And.left⟩

lemma checked_initial (disk : Option Bytes) : ({ disk } : World).Checked hashObject :=
  ⟨nofun, nofun⟩

theorem saves_never_clobber_iff (hashObject : Bytes → Option String) (disk : Option Bytes)
    (ls : List Label) (w : World) (hrun : run (step hashObject) { disk } ls = some w) :
    (w.AllClean hashObject ↔ Along (step hashObject) (Untouched hashObject) { disk } ls) ∧
    (w.AllClean hashObject ∧ w.Unrivalled ↔
      Along (step hashObject) (fun w l => w.Untouched hashObject l ∧ w.Unrestored hashObject l)
        { disk } ls) := by
  constructor
  · have hstep : ∀ s l t, s.Checked hashObject → step hashObject s l = some t →
        t.Checked hashObject ∧ (t.AllClean hashObject ↔
          s.AllClean hashObject ∧ s.Untouched hashObject l) :=
      fun s l t hs h => ⟨step_checked hs h, step_clean hs h⟩
    refine (run_iff hstep (checked_initial disk) hrun).trans ?_
    exact and_iff_right nofun
  · have hstep : ∀ s l t, s.Checked hashObject → step hashObject s l = some t →
        t.Checked hashObject ∧ ((t.AllClean hashObject ∧ t.Unrivalled) ↔
          (s.AllClean hashObject ∧ s.Unrivalled) ∧
            s.Untouched hashObject l ∧ s.Unrestored hashObject l) := by
      refine fun s l t hs h => ⟨step_checked hs h, ?_⟩
      rw [step_clean hs h]
      constructor
      · rintro ⟨⟨hc, hl⟩, hu⟩
        obtain ⟨hu, hr⟩ := (step_unrivalled hs h hl).mp hu
        exact ⟨⟨hc, hu⟩, hl, hr⟩
      · rintro ⟨⟨hc, hu⟩, hl, hr⟩
        exact ⟨⟨hc, hl⟩, (step_unrivalled hs h hl).mpr ⟨hu, hr⟩⟩
    refine (run_iff hstep (checked_initial disk) hrun).trans ?_
    exact and_iff_right ⟨nofun, List.Pairwise.nil⟩

-- the ids git gives the contents of the runs below
def gitBlob (b : Bytes) : Option String :=
  if b = asBytes "old" then some "489ce0f857e7634a0eb9f328265a3e91fad49f61"
  else if b = asBytes "a" then some "2e65efe2a145dda7ee51d1741299f848e5bf752e"
  else if b = asBytes "b" then some "63d8dbd40c23542e740659a7168a0ce3138ea748"
  else none

def saveOver (base content : String) : WriteFileRequest := ⟨content, base, false⟩

def arrival (request : WriteFileRequest) : Arrival where
  repo := some "r1"
  served := true
  path := some "deck.html"
  body := some request
  opens := true
  hasWorkdir := true
  resolves := true

def ofOld : WriteFileRequest × WriteFileRequest :=
  (saveOver "489ce0f857e7634a0eb9f328265a3e91fad49f61" "a",
    saveOver "489ce0f857e7634a0eb9f328265a3e91fad49f61" "b")

def ofA : WriteFileRequest := saveOver "2e65efe2a145dda7ee51d1741299f848e5bf752e" "a"

def fourSaves : List Label :=
  [.arrive 0 (arrival ofOld.1), .arrive 1 (arrival ofOld.2), .read 0 true, .write 0 .whole,
    .read 1 true, .outside (some (asBytes "old")), .arrive 0 (arrival ofOld.1), .read 0 true,
    .write 0 .whole, .arrive 1 (arrival ofA), .read 1 true, .write 1 .whole]

theorem saves_never_clobber_iff_four :
    ∃ w, run (step gitBlob) { disk := some (asBytes "old") } fourSaves = some w ∧
      ((answers w.log).map (·.reply) = [.saved "2e65efe2a145dda7ee51d1741299f848e5bf752e",
        .saved "2e65efe2a145dda7ee51d1741299f848e5bf752e",
        .stale "2e65efe2a145dda7ee51d1741299f848e5bf752e",
        .saved "2e65efe2a145dda7ee51d1741299f848e5bf752e"] ∧ w.disk = some (asBytes "a")) ∧
      w.AllClean gitBlob ∧ w.Unrivalled := by
  have hseen : (run (step gitBlob) { disk := some (asBytes "old") } fourSaves).map
      (fun w => ((answers w.log).map (·.reply), w.disk)) =
      some ([.saved "2e65efe2a145dda7ee51d1741299f848e5bf752e",
        .saved "2e65efe2a145dda7ee51d1741299f848e5bf752e",
        .stale "2e65efe2a145dda7ee51d1741299f848e5bf752e",
        .saved "2e65efe2a145dda7ee51d1741299f848e5bf752e"], some (asBytes "a")) := by
    decide +kernel
  obtain ⟨w, hrun, hw⟩ := Option.map_eq_some_iff.mp hseen
  have hallowed : Along (step gitBlob) (fun w l => w.Untouched gitBlob l ∧ w.Unrestored gitBlob l)
      { disk := some (asBytes "old") } fourSaves := by
    decide +kernel
  exact ⟨w, hrun, ⟨congrArg Prod.fst hw, congrArg Prod.snd hw⟩,
    (saves_never_clobber_iff gitBlob _ fourSaves w hrun).2.mpr hallowed⟩

theorem concurrent_save_clobbers :
    -- both read before either writes
    (∃ w, run (step gitBlob) { disk := some (asBytes "old") }
        [.arrive 0 (arrival ofOld.1), .arrive 1 (arrival ofOld.2), .read 0 true, .read 1 true,
          .write 0 .whole, .write 1 .whole] = some w ∧
      ¬ w.AllClean gitBlob ∧ ¬ w.Unrivalled) ∧
    -- a write that fails with the file cut short
    ∃ w, run (step gitBlob) { disk := some (asBytes "old") }
        [.arrive 0 (arrival ofOld.1), .read 0 true, .write 0 (.cut (some []))] = some w ∧
      ∃ a ∈ answers w.log, a.reply = redact ∧ a.left ≠ a.replaced := by
  constructor
  · refine ⟨_, rfl, fun h => ?_, fun h => ?_⟩
    · obtain ⟨old, hold, hbase⟩ := (h _ List.mem_cons_self).1
        "489ce0f857e7634a0eb9f328265a3e91fad49f61" (by decide +kernel)
      obtain rfl := Option.some.inj hold
      exact absurd hbase (by decide +kernel)
    · exact (List.pairwise_cons.mp h).1 _ List.mem_cons_self (by decide +kernel)
  · exact ⟨_, rfl, _, List.mem_cons_self, rfl, by decide +kernel⟩

end World

end Nightcrow.Viewer
