import Mathlib

/-! A pane's writes to its emulator: bounded, in order, and held back by barriers. -/

namespace Nightcrow.Page.Terminal

structure Chunk where
  ticket : ℕ
  data : List UInt8
  deriving DecidableEq

inductive WriteItem
  | bytes (chunk : Chunk)
  | barrier (ticket : ℕ) (cancelled : Bool)

inductive Callback
  | bytes (chunk : Chunk)
  | barrier (ticket : ℕ)

/-- A call out of the queue's code that has not returned: `term.write` inside the loop of
`pump`, with the barrier it was given, or a barrier's `run`. -/
inductive Frame
  | writing (barrier : Option ℕ)
  | running
  deriving DecidableEq

structure Backlog where
  items : List WriteItem := []
  outstanding : ℕ := 0
  barrierInFlight : Option ℕ := none
  cancelled : List ℕ := []
  owed : List Callback := []
  tickets : ℕ := 0

structure Writes extends Backlog where
  pumping : Bool := false
  stack : List Frame := []

structure Marks where
  highWater : ℕ
  lowWater : ℕ
  highWater_pos : 0 < highWater

def Marks.default : Marks := ⟨1024 * 1024, 256 * 1024, by decide⟩

inductive Seen
  | wrote (chunk : Chunk)
  | asked (barrier : ℕ)
  | cleared
  | handed (chunk : Chunk)
  | parsed (chunk : Chunk)
  | ran (barrier : ℕ)
  deriving DecidableEq

inductive Event
  | write (data : List UInt8)
  | barrier
  | clear
  | callback
  | ret

namespace Writes

def drain (marks : Marks) (w : Writes) : Writes × List Seen :=
  -- the loop of `pump`, up to the next call of `term.write` or the end of the loop
  match w.items with
  | [] => ({ w with pumping := false }, [])
  | item :: items =>
    if w.barrierInFlight.isSome then ({ w with pumping := false }, [])
    else
      match item with
      | .barrier ticket cancelled =>
        ({ w with
          items
          barrierInFlight := some ticket
          cancelled := if cancelled then ticket :: w.cancelled else w.cancelled
          owed := w.owed ++ [.barrier ticket]
          stack := .writing (some ticket) :: w.stack }, [])
      | .bytes chunk =>
        if marks.highWater ≤ w.outstanding then ({ w with pumping := false }, [])
        else
          ({ w with
            items
            outstanding := w.outstanding + chunk.data.length
            owed := w.owed ++ [.bytes chunk]
            stack := .writing none :: w.stack }, [.handed chunk])

def pump (marks : Marks) (w : Writes) : Writes × List Seen :=
  if w.pumping then (w, []) else drain marks { w with pumping := true }

def write (marks : Marks) (w : Writes) (data : List UInt8) : Writes × List Seen :=
  pump marks { w with items := w.items ++ [.bytes ⟨w.tickets, data⟩], tickets := w.tickets + 1 }

def barrier (marks : Marks) (w : Writes) : Writes × List Seen :=
  pump marks { w with items := w.items ++ [.barrier w.tickets false], tickets := w.tickets + 1 }

-- the marks on the items that are dropped are read by nobody
def clear (w : Writes) : Writes :=
  { w with items := [], cancelled := w.barrierInFlight.toList ++ w.cancelled }

def callback (marks : Marks) (w : Writes) : Option (Writes × List Seen) :=
  match w.owed with
  | [] => none
  | .bytes chunk :: owed =>
    let w := { w with owed, outstanding := w.outstanding - chunk.data.length }
    some (if w.outstanding ≤ marks.lowWater then pump marks w else (w, []))
  | .barrier ticket :: owed =>
    let w := { w with owed, barrierInFlight := none }
    if ticket ∈ w.cancelled then some (pump marks w)
    else some ({ w with stack := .running :: w.stack }, [.ran ticket])

def ret (marks : Marks) (w : Writes) : Option (Writes × List Seen) :=
  match w.stack with
  | [] => none
  | .running :: stack => some (pump marks { w with stack })
  | .writing barrier :: stack =>
    if barrier.isSome ∧ w.barrierInFlight = barrier then
      some ({ w with stack, pumping := false }, [])
    else some (drain marks { w with stack })

def step (marks : Marks) (w : Writes) : Event → Option (Writes × List Seen)
  | .write data => some (w.write marks data)
  | .barrier => some (w.barrier marks)
  | .clear => some (w.clear, [])
  | .callback => w.callback marks
  | .ret => w.ret marks

end Writes

namespace Seen

def handed? : Seen → Option Chunk
  | .handed chunk => some chunk
  | _ => none

def parsed? : Seen → Option Chunk
  | .parsed chunk => some chunk
  | _ => none

def ran? : Seen → Option ℕ
  | .ran ticket => some ticket
  | _ => none

def issued? : Seen → Option ℕ
  | .wrote chunk => some chunk.ticket
  | .asked ticket => some ticket
  | _ => none

end Seen

def handed (log : List Seen) : List Chunk := (log.filterMap Seen.handed?).reverse

def parsed (log : List Seen) : List Chunk := (log.filterMap Seen.parsed?).reverse

def ran (log : List Seen) : List ℕ := (log.filterMap Seen.ran?).reverse

def issued (log : List Seen) : List ℕ := log.filterMap Seen.issued?

-- what the callers and the emulator do, told apart from what the queue makes of it
def Event.given (w : Writes) (log : List Seen) : Event → List Seen
  | .write data => [.wrote ⟨(issued log).length, data⟩]
  | .barrier => [.asked (issued log).length]
  | .clear => [.cleared]
  | .callback =>
    match w.owed with
    | .bytes chunk :: _ => [.parsed chunk]
    | _ => []
  | .ret => []

/-- The states a queue reaches, with what was seen on the way, the newest first. -/
inductive Writes.Reaches (marks : Marks) : Writes → List Seen → Prop
  | start : Reaches marks {} []
  | step {w w' : Writes} {log seen : List Seen} {e : Event} : Reaches marks w log →
      w.step marks e = some (w', seen) → Reaches marks w' (seen ++ (e.given w log ++ log))

/-- The chunks written, less those that still waited at a clear. -/
def survived : List Seen → List Chunk
  | [] => []
  | .wrote chunk :: log => survived log ++ [chunk]
  | .cleared :: log => (survived log).filter (fun chunk => chunk ∈ handed log)
  | _ :: log => survived log

def bytesOf (chunks : List Chunk) : ℕ := (chunks.map (fun chunk => chunk.data.length)).sum

def unparsed (log : List Seen) : List Chunk :=
  (handed log).filter (fun chunk => chunk ∉ parsed log)

def Since (log : List Seen) (ticket : ℕ) : Prop :=
  ∃ recent earlier, log = recent ++ .asked ticket :: earlier ∧ .cleared ∉ recent

/-- What a barrier's action finds: what was written before it is parsed, what was written after
it is not handed over, and it was not cleared. -/
def InPlace (log : List Seen) (ticket : ℕ) : Prop :=
  ∃ recent earlier, log = recent ++ .asked ticket :: earlier ∧ .cleared ∉ recent ∧
    (∀ chunk ∈ survived log, .wrote chunk ∈ earlier → chunk ∈ parsed log) ∧
    ∀ chunk, .wrote chunk ∈ recent → chunk ∉ handed log

lemma Since.cons {log : List Seen} {ticket : ℕ} {seen : Seen} (h : Since log ticket)
    (hseen : seen ≠ .cleared) : Since (seen :: log) ticket := by
  obtain ⟨recent, earlier, rfl, hrecent⟩ := h
  refine ⟨seen :: recent, earlier, rfl, fun hmem => ?_⟩
  rcases List.mem_cons.mp hmem with heq | hmem
  · exact hseen heq.symm
  · exact hrecent hmem

namespace Backlog

def waiting (b : Backlog) : List Chunk :=
  b.items.filterMap fun
    | .bytes chunk => some chunk
    | .barrier _ _ => none

def owedChunks (b : Backlog) : List Chunk :=
  b.owed.filterMap fun
    | .bytes chunk => some chunk
    | .barrier _ => none

end Backlog

def WriteItem.ticket : WriteItem → ℕ
  | .bytes chunk => chunk.ticket
  | .barrier ticket _ => ticket

def Backlog.pending (b : Backlog) : List ℕ :=
  b.barrierInFlight.toList ++ b.items.map WriteItem.ticket

structure Inv (marks : Marks) (b : Backlog) (log : List Seen) : Prop where
  kept : survived log = handed log ++ b.waiting
  parsed : handed log = parsed log ++ b.owedChunks
  owed : b.owed = b.owedChunks.map .bytes ++ b.barrierInFlight.toList.map .barrier
  outstanding : b.outstanding = bytesOf b.owedChunks
  bound : bytesOf b.owedChunks.dropLast < marks.highWater
  inOrder : ((handed log).map Chunk.ticket ++ b.pending).Pairwise (· < ·)
  ranOnce : (ran log ++ b.pending).Pairwise (· < ·)
  asIssued : (issued log).Pairwise (· > ·)
  numbered : b.tickets = (issued log).length
  below : ∀ ticket ∈ issued log ++ ((handed log).map Chunk.ticket ++ (ran log ++ b.pending)),
    ticket < b.tickets
  flight : ∀ ticket ∈ b.barrierInFlight, ticket ∉ b.cancelled → Since log ticket
  barriers : ∀ ticket cancelled, .barrier ticket cancelled ∈ b.items →
    cancelled = false ∧ Since log ticket
  dropped : ∀ ticket ∈ b.cancelled, ticket < b.tickets ∧ ¬ Since log ticket
  due : ∀ ticket, Since log ticket →
    ticket ∈ ran log ∨ ticket ∈ b.barrierInFlight ∨ .barrier ticket false ∈ b.items
  inPlace : ∀ ticket older, .ran ticket :: older <:+ log → InPlace older ticket

lemma Since.of_cons {log : List Seen} {ticket : ℕ} {seen : Seen} (h : Since (seen :: log) ticket) :
    seen ≠ .cleared ∧ (seen = .asked ticket ∨ Since log ticket) := by
  obtain ⟨recent, earlier, heq, hrecent⟩ := h
  cases recent with
  | nil =>
    obtain ⟨rfl, -⟩ := List.cons.inj heq
    exact ⟨nofun, .inl rfl⟩
  | cons last recent =>
    obtain ⟨rfl, rfl⟩ := List.cons.inj heq
    obtain ⟨hlast, hrest⟩ := not_or.mp (mt List.mem_cons.mpr hrecent)
    exact ⟨Ne.symm hlast, .inr ⟨recent, earlier, rfl, hrest⟩⟩

lemma inPlace_cons {log : List Seen} {seen : Seen} (hseen : ∀ ticket, seen ≠ .ran ticket)
    (h : ∀ ticket older, .ran ticket :: older <:+ log → InPlace older ticket) (ticket : ℕ)
    (older : List Seen) (hsuffix : .ran ticket :: older <:+ seen :: log) :
    InPlace older ticket := by
  rcases List.suffix_cons_iff.mp hsuffix with heq | hsuffix
  · exact absurd (List.cons.inj heq).1.symm (hseen ticket)
  · exact h ticket older hsuffix

namespace Inv

variable {marks : Marks} {b : Backlog} {log : List Seen}

lemma start : Inv marks {} [] where
  kept := rfl
  parsed := rfl
  owed := rfl
  outstanding := rfl
  bound := marks.highWater_pos
  inOrder := List.Pairwise.nil
  ranOnce := List.Pairwise.nil
  asIssued := List.Pairwise.nil
  numbered := rfl
  below := fun _ h => (nomatch h)
  flight := fun _ h => (nomatch h)
  barriers := fun _ _ h => (nomatch h)
  dropped := fun _ h => (nomatch h)
  due := by
    rintro ticket ⟨recent, earlier, heq, -⟩
    exact absurd heq (List.append_ne_nil_of_right_ne_nil _ (List.cons_ne_nil _ _)).symm
  inPlace := fun _ _ h => absurd (List.suffix_nil.mp h) (List.cons_ne_nil _ _)

lemma pairwise_concat {tickets : List ℕ} {ticket : ℕ} (h : tickets.Pairwise (· < ·))
    (hlt : ∀ t ∈ tickets, t < ticket) : (tickets ++ [ticket]).Pairwise (· < ·) := by
  refine List.pairwise_append.mpr ⟨h, List.pairwise_singleton _ _, fun t ht t' ht' => ?_⟩
  exact List.mem_singleton.mp ht' ▸ hlt t ht

lemma pending_concat (item : WriteItem) (tickets : ℕ) :
    ({ b with items := b.items ++ [item], tickets } : Backlog).pending =
      b.pending ++ [item.ticket] := by
  simp [Backlog.pending]

lemma enqueue (h : Inv marks b log) {item : WriteItem} {seen : Seen}
    (hticket : item.ticket = b.tickets) (hissued : seen.issued? = some b.tickets)
    (hkept : survived (seen :: log) = handed log ++
      ({ b with items := b.items ++ [item], tickets := b.tickets + 1 } : Backlog).waiting)
    (hbarrier : ∀ ticket cancelled, item = .barrier ticket cancelled →
      cancelled = false ∧ seen = .asked ticket)
    (hasked : ∀ ticket, seen = .asked ticket → item = .barrier ticket false) :
    Inv marks { b with items := b.items ++ [item], tickets := b.tickets + 1 } (seen :: log) := by
  have hhanded : handed (seen :: log) = handed log := by
    cases seen <;> first | rfl | exact (nomatch hissued)
  have hparsed : Terminal.parsed (seen :: log) = Terminal.parsed log := by
    cases seen <;> first | rfl | exact (nomatch hissued)
  have hran : ran (seen :: log) = ran log := by
    cases seen <;> first | rfl | exact (nomatch hissued)
  have hnew : issued (seen :: log) = b.tickets :: issued log := by
    rw [issued, List.filterMap_cons, hissued]
    rfl
  have hcleared : seen ≠ .cleared := fun he => by rw [he] at hissued; exact (nomatch hissued)
  have hnotran : ∀ ticket, seen ≠ .ran ticket :=
    fun ticket he => by rw [he] at hissued; exact (nomatch hissued)
  have hpending := pending_concat (b := b) item (b.tickets + 1)
  have hbelow := h.below
  simp only [List.mem_append] at hbelow
  refine ⟨?_, ?_, h.owed, h.outstanding, h.bound, ?_, ?_, ?_, ?_, ?_, ?_, ?_, ?_, ?_, ?_⟩
  · rw [hhanded, hkept]
  · rw [hhanded, hparsed]
    exact h.parsed
  · rw [hhanded, hpending, ← List.append_assoc, hticket]
    refine pairwise_concat h.inOrder (fun t ht => ?_)
    rcases List.mem_append.mp ht with ht | ht
    · exact hbelow t (Or.inr (Or.inl ht))
    · exact hbelow t (Or.inr (Or.inr (Or.inr ht)))
  · rw [hran, hpending, ← List.append_assoc, hticket]
    exact pairwise_concat h.ranOnce
      (fun t ht => hbelow t (Or.inr (Or.inr (List.mem_append.mp ht))))
  · rw [hnew]
    exact List.pairwise_cons.mpr ⟨fun t ht => hbelow t (Or.inl ht), h.asIssued⟩
  · rw [hnew, List.length_cons, ← h.numbered]
  · intro t ht
    rw [hhanded, hran, hnew, hpending, hticket] at ht
    simp only [List.mem_append, List.mem_cons, List.not_mem_nil, or_false] at ht
    dsimp only
    rcases ht with (rfl | ht) | ht | ht | ht | rfl
    · exact Nat.lt_succ_self _
    · exact Nat.lt_succ_of_lt (hbelow t (Or.inl ht))
    · exact Nat.lt_succ_of_lt (hbelow t (Or.inr (Or.inl ht)))
    · exact Nat.lt_succ_of_lt (hbelow t (Or.inr (Or.inr (Or.inl ht))))
    · exact Nat.lt_succ_of_lt (hbelow t (Or.inr (Or.inr (Or.inr ht))))
    · exact Nat.lt_succ_self _
  · exact fun t ht hnot => (h.flight t ht hnot).cons hcleared
  · intro t cancelled ht
    rcases List.mem_append.mp ht with ht | ht
    · exact (h.barriers t cancelled ht).imp_right (fun hsince => hsince.cons hcleared)
    · obtain ⟨hfalse, rfl⟩ := hbarrier t cancelled (List.mem_singleton.mp ht).symm
      exact ⟨hfalse, [], log, rfl, List.not_mem_nil⟩
  · intro t ht
    obtain ⟨hlt, hnot⟩ := h.dropped t ht
    refine ⟨Nat.lt_succ_of_lt hlt, fun hsince => ?_⟩
    rcases hsince.of_cons.2 with rfl | hsince
    · exact absurd hlt (Option.some.inj hissued ▸ lt_irrefl _)
    · exact hnot hsince
  · intro t hsince
    rw [hran]
    rcases hsince.of_cons.2 with hseen | hsince
    · exact .inr (.inr (List.mem_append_right _ (hasked t hseen ▸ List.mem_singleton_self _)))
    · exact (h.due t hsince).imp_right (.imp_right (List.mem_append_left _))
  · exact inPlace_cons hnotran h.inPlace

lemma wrote (h : Inv marks b log) (data : List UInt8) :
    Inv marks { b with items := b.items ++ [.bytes ⟨b.tickets, data⟩], tickets := b.tickets + 1 }
      (.wrote ⟨b.tickets, data⟩ :: log) := by
  refine h.enqueue rfl rfl ?_ (fun _ _ he => (nomatch he)) (fun _ he => (nomatch he))
  rw [survived, h.kept, List.append_assoc]
  simp [Backlog.waiting]

lemma asked (h : Inv marks b log) :
    Inv marks { b with items := b.items ++ [.barrier b.tickets false], tickets := b.tickets + 1 }
      (.asked b.tickets :: log) := by
  refine h.enqueue rfl rfl ?_ (fun ticket cancelled he => ?_) (fun ticket he => ?_)
  · refine h.kept.trans ?_
    simp [Backlog.waiting]
  · injection he with hticket hcancelled
    exact ⟨hcancelled.symm, congrArg _ hticket⟩
  · injection he with hticket
    rw [hticket]

lemma log_eqs (log : List Seen) {seen : Seen} (hseen : seen.handed? = none ∧ seen.ran? = none ∧
    seen.issued? = none) : handed (seen :: log) = handed log ∧ ran (seen :: log) = ran log ∧
      issued (seen :: log) = issued log := by
  obtain ⟨hhanded, hran, hissued⟩ := hseen
  rw [handed, ran, issued, List.filterMap_cons, hhanded, List.filterMap_cons, hran,
    List.filterMap_cons, hissued]
  exact ⟨rfl, rfl, rfl⟩

lemma nodup (h : Inv marks b log) : (handed log).Nodup := by
  have hsorted := (List.pairwise_append.mp h.inOrder).1
  exact List.Nodup.of_map _ (hsorted.imp (fun hlt => hlt.ne))

lemma pending_of_clear (b : Backlog) (cancelled : List ℕ) :
    ({ b with items := [], cancelled } : Backlog).pending = b.barrierInFlight.toList :=
  List.append_nil _

lemma cleared (h : Inv marks b log) :
    Inv marks { b with items := [], cancelled := b.barrierInFlight.toList ++ b.cancelled }
      (.cleared :: log) := by
  obtain ⟨hhanded, hran, hissued⟩ := @log_eqs log .cleared ⟨rfl, rfl, rfl⟩
  have hpending := pending_of_clear b (b.barrierInFlight.toList ++ b.cancelled)
  have hsub : b.barrierInFlight.toList.Sublist b.pending := List.sublist_append_left _ _
  refine ⟨?_, h.parsed, h.owed, h.outstanding, h.bound, ?_, ?_, ?_, h.numbered, ?_, ?_, ?_, ?_, ?_,
    ?_⟩
  · rw [survived, h.kept, hhanded, List.filter_append]
    have hnone : b.waiting.filter (fun chunk => chunk ∈ handed log) = [] := by
      refine List.filter_eq_nil_iff.mpr (fun chunk hchunk hmem => ?_)
      obtain ⟨item, hitem, heq⟩ := List.mem_filterMap.mp hchunk
      have hticket : chunk.ticket ∈ b.pending := by
        cases item with
        | barrier => exact (nomatch heq)
        | bytes c =>
          obtain rfl := Option.some.inj heq
          exact List.mem_append_right _ (List.mem_map_of_mem (f := WriteItem.ticket) hitem)
      have hlt := (List.pairwise_append.mp h.inOrder).2.2 chunk.ticket
        (List.mem_map_of_mem (of_decide_eq_true hmem)) chunk.ticket hticket
      exact absurd hlt (lt_irrefl _)
    rw [hnone, List.filter_eq_self.mpr (fun chunk hchunk => decide_eq_true hchunk)]
    rfl
  · rw [hhanded, hpending]
    exact h.inOrder.sublist ((List.Sublist.refl _).append hsub)
  · rw [hran, hpending]
    exact h.ranOnce.sublist ((List.Sublist.refl _).append hsub)
  · exact hissued ▸ h.asIssued
  · intro t ht
    rw [hhanded, hran, hissued, hpending] at ht
    exact h.below t (((List.Sublist.refl _).append ((List.Sublist.refl _).append
      ((List.Sublist.refl _).append hsub))).subset ht)
  · intro t ht hnot
    exact absurd (List.mem_append_left _ (Option.mem_toList.mpr ht)) hnot
  · exact fun _ _ h => (nomatch h)
  · intro t ht
    refine ⟨?_, fun hsince => hsince.of_cons.1 rfl⟩
    rcases List.mem_append.mp ht with ht | ht
    · exact h.below t (List.mem_append_right _ (List.mem_append_right _
        (List.mem_append_right _ (hsub.subset ht))))
    · exact (h.dropped t ht).1
  · exact fun t hsince => absurd rfl hsince.of_cons.1
  · exact inPlace_cons (fun _ he => (nomatch he)) h.inPlace

lemma dropped_cons (h : Inv marks b log) {seen : Seen} (hseen : ∀ ticket, seen ≠ .asked ticket) :
    ∀ ticket ∈ b.cancelled, ticket < b.tickets ∧ ¬ Since (seen :: log) ticket :=
  fun ticket hticket => (h.dropped ticket hticket).imp_right
    (fun hnot hsince => hnot (hsince.of_cons.2.resolve_left (hseen ticket)))

lemma bytesOf_append (chunks chunks' : List Chunk) :
    bytesOf (chunks ++ chunks') = bytesOf chunks + bytesOf chunks' := by
  rw [bytesOf, List.map_append, List.sum_append]
  rfl

lemma handOver (h : Inv marks b log) {chunk : Chunk} {items : List WriteItem}
    (hitems : b.items = .bytes chunk :: items) (hflight : b.barrierInFlight = none)
    (hlow : b.outstanding < marks.highWater) :
    Inv marks { b with
      items
      outstanding := b.outstanding + chunk.data.length
      owed := b.owed ++ [.bytes chunk] } (.handed chunk :: log) := by
  have hhanded : handed (.handed chunk :: log) = handed log ++ [chunk] := by simp [handed, Seen.handed?]
  have hchunks : ({ b with
      items
      outstanding := b.outstanding + chunk.data.length
      owed := b.owed ++ [.bytes chunk] } : Backlog).owedChunks = b.owedChunks ++ [chunk] := by
    simp [Backlog.owedChunks]
  have hpending : b.pending = chunk.ticket :: items.map WriteItem.ticket := by
    rw [Backlog.pending, hflight, hitems]
    rfl
  have hrest : ({ b with
      items
      outstanding := b.outstanding + chunk.data.length
      owed := b.owed ++ [.bytes chunk] } : Backlog).pending = items.map WriteItem.ticket := by
    rw [Backlog.pending, hflight]
    rfl
  have horder := h.inOrder
  have hranOnce := h.ranOnce
  have hbelow := h.below
  rw [hpending] at horder hranOnce hbelow
  refine ⟨?_, ?_, ?_, ?_, ?_, ?_, ?_, h.asIssued, h.numbered, ?_, ?_, ?_, ?_, ?_, ?_⟩
  · refine h.kept.trans ?_
    rw [hhanded, Backlog.waiting, hitems, List.append_assoc]
    rfl
  · rw [hhanded, hchunks, h.parsed, List.append_assoc]
    rfl
  · have howed := h.owed
    rw [hflight, Option.toList_none, List.map_nil, List.append_nil] at howed
    rw [hchunks, List.map_append]
    dsimp only
    rw [hflight, howed, Option.toList_none, List.map_nil, List.append_nil]
    congr 1
  · rw [hchunks, bytesOf_append, ← h.outstanding]
    rfl
  · rw [hchunks, List.dropLast_concat, ← h.outstanding]
    exact hlow
  · rw [hhanded, hrest, List.map_append, List.append_assoc]
    exact horder
  · rw [hrest]
    exact hranOnce.sublist ((List.Sublist.refl _).append (List.sublist_cons_self _ _))
  · intro t ht
    refine hbelow t ?_
    rw [hhanded, hrest, List.map_append] at ht
    simp only [List.mem_append, List.mem_cons, List.map_singleton, List.not_mem_nil,
      or_false] at ht ⊢
    tauto
  · exact fun t ht => absurd (hflight ▸ ht) (Option.not_mem_none t)
  · exact fun t cancelled ht => (h.barriers t cancelled
      (hitems ▸ List.mem_cons_of_mem _ ht)).imp_right (fun hsince => hsince.cons nofun)
  · exact h.dropped_cons nofun
  · intro t hsince
    refine (h.due t (hsince.of_cons.2.resolve_left nofun)).imp_right (.imp_right fun hmem => ?_)
    rw [hitems] at hmem
    exact (List.mem_cons.mp hmem).resolve_left nofun
  · exact inPlace_cons (fun _ he => (nomatch he)) h.inPlace

lemma submit (h : Inv marks b log) {ticket : ℕ} {cancelled : Bool} {items : List WriteItem}
    (hitems : b.items = .barrier ticket cancelled :: items) (hflight : b.barrierInFlight = none) :
    Inv marks { b with
      items
      barrierInFlight := some ticket
      owed := b.owed ++ [.barrier ticket] } log := by
  have hpending : b.pending = ticket :: items.map WriteItem.ticket := by
    rw [Backlog.pending, hflight, hitems]
    rfl
  have hrest : ({ b with
      items
      barrierInFlight := some ticket
      owed := b.owed ++ [.barrier ticket] } : Backlog).pending = b.pending := hpending.symm
  have hchunks : ({ b with
      items
      barrierInFlight := some ticket
      owed := b.owed ++ [.barrier ticket] } : Backlog).owedChunks = b.owedChunks := by
    simp [Backlog.owedChunks]
  refine ⟨?_, ?_, ?_, ?_, ?_, ?_, ?_, h.asIssued, h.numbered, ?_, ?_, ?_, h.dropped, ?_,
    h.inPlace⟩
  · refine h.kept.trans ?_
    rw [Backlog.waiting, hitems]
    rfl
  · rw [hchunks]
    exact h.parsed
  · have howed := h.owed
    rw [hflight, Option.toList_none, List.map_nil, List.append_nil] at howed
    rw [hchunks]
    dsimp only
    rw [howed, ← howed]
    rfl
  · rw [hchunks]
    exact h.outstanding
  · rw [hchunks]
    exact h.bound
  · rw [hrest]
    exact h.inOrder
  · rw [hrest]
    exact h.ranOnce
  · rw [hrest]
    exact h.below
  · intro t ht _
    obtain rfl := Option.some.inj ht
    exact (h.barriers _ cancelled (hitems ▸ List.mem_cons_self ..)).2
  · exact fun t c ht => h.barriers t c (hitems ▸ List.mem_cons_of_mem _ ht)
  · intro t hsince
    rcases h.due t hsince with hran | hin | hmem
    · exact .inl hran
    · exact absurd (hflight ▸ hin) (Option.not_mem_none t)
    · rw [hitems] at hmem
      rcases List.mem_cons.mp hmem with heq | hmem
      · injection heq with hticket
        exact .inr (.inl (congrArg some hticket.symm))
      · exact .inr (.inr hmem)

lemma bytesOf_dropLast_tail (chunks : List Chunk) :
    bytesOf chunks.tail.dropLast ≤ bytesOf chunks.dropLast := by
  have hsub : chunks.tail.dropLast.Sublist chunks.dropLast := by
    cases chunks with
    | nil => exact List.Sublist.refl _
    | cons chunk chunks =>
      cases chunks with
      | nil => exact List.nil_sublist _
      | cons next chunks => exact List.sublist_cons_self _ _
  exact (hsub.map _).sum_le_sum (fun _ _ => Nat.zero_le _)

lemma parse (h : Inv marks b log) {chunk : Chunk} {owed : List Callback}
    (howed : b.owed = .bytes chunk :: owed) :
    Inv marks { b with owed, outstanding := b.outstanding - chunk.data.length }
      (.parsed chunk :: log) := by
  obtain ⟨hhanded, hran, hissued⟩ := @log_eqs log (.parsed chunk) ⟨rfl, rfl, rfl⟩
  have hchunks : b.owedChunks = chunk :: ({ b with
      owed
      outstanding := b.outstanding - chunk.data.length } : Backlog).owedChunks := by
    rw [Backlog.owedChunks, howed]
    rfl
  have hparsed : Terminal.parsed (.parsed chunk :: log) = Terminal.parsed log ++ [chunk] := by
    simp [Terminal.parsed, Seen.parsed?]
  refine ⟨?_, ?_, ?_, ?_, ?_, ?_, ?_, ?_, ?_, ?_, ?_, ?_, ?_, ?_, ?_⟩
  · exact h.kept
  · rw [hhanded, hparsed, List.append_assoc, h.parsed, hchunks]
    rfl
  · have hall := h.owed
    rw [hchunks, howed] at hall
    exact (List.cons.inj hall).2
  · dsimp only
    rw [h.outstanding, hchunks]
    exact Nat.add_sub_cancel_left _ _
  · have htail := bytesOf_dropLast_tail b.owedChunks
    rw [hchunks, List.tail_cons] at htail
    exact htail.trans_lt (hchunks ▸ h.bound)
  · exact h.inOrder
  · exact h.ranOnce
  · exact h.asIssued
  · exact h.numbered
  · exact h.below
  · exact fun t ht hnot => (h.flight t ht hnot).cons (fun he => (nomatch he))
  · exact fun t c ht => (h.barriers t c ht).imp_right (fun hsince => hsince.cons nofun)
  · exact h.dropped_cons nofun
  · exact fun t hsince => hran ▸ h.due t (hsince.of_cons.2.resolve_left nofun)
  · exact inPlace_cons (fun _ he => (nomatch he)) h.inPlace

lemma flight_of_owed (h : Inv marks b log) {ticket : ℕ} {owed : List Callback}
    (howed : b.owed = .barrier ticket :: owed) :
    (handed log = Terminal.parsed log ∧ b.outstanding = 0) ∧
      b.barrierInFlight = some ticket ∧ owed = [] := by
  have hall := h.owed
  rw [howed] at hall
  cases hchunks : b.owedChunks with
  | cons chunk chunks =>
    rw [hchunks] at hall
    exact (nomatch (List.cons.inj hall).1)
  | nil =>
    rw [hchunks] at hall
    cases hflight : b.barrierInFlight with
    | none =>
      rw [hflight] at hall
      exact (nomatch hall)
    | some t =>
      rw [hflight] at hall
      obtain ⟨hticket, hrest⟩ := List.cons.inj hall
      injection hticket with hticket
      refine ⟨⟨?_, ?_⟩, congrArg some hticket.symm, hrest⟩
      · rw [h.parsed, hchunks, List.append_nil]
      · rw [h.outstanding, hchunks]
        rfl

lemma pending_of_flight {ticket : ℕ} (hflight : b.barrierInFlight = some ticket)
    (owed : List Callback) : b.pending =
      ticket :: ({ b with owed, barrierInFlight := none } : Backlog).pending := by
  rw [Backlog.pending, hflight]
  rfl

lemma pass (h : Inv marks b log) {ticket : ℕ} {owed : List Callback}
    (howed : b.owed = .barrier ticket :: owed) (hcancelled : ticket ∈ b.cancelled) :
    Inv marks { b with owed, barrierInFlight := none } log := by
  obtain ⟨⟨hparsed, hzero⟩, hflight, rfl⟩ := h.flight_of_owed howed
  have hpending := pending_of_flight hflight []
  have hsub : ({ b with owed := [], barrierInFlight := none } : Backlog).pending.Sublist
      b.pending := hpending ▸ List.sublist_cons_self _ _
  refine ⟨h.kept, ?_, rfl, hzero, marks.highWater_pos, ?_, ?_, h.asIssued, h.numbered, ?_, ?_,
    h.barriers, h.dropped, ?_, h.inPlace⟩
  · exact hparsed.trans (List.append_nil _).symm
  · exact h.inOrder.sublist ((List.Sublist.refl _).append hsub)
  · exact h.ranOnce.sublist ((List.Sublist.refl _).append hsub)
  · exact fun t ht => h.below t (((List.Sublist.refl _).append ((List.Sublist.refl _).append
      ((List.Sublist.refl _).append hsub))).subset ht)
  · exact fun _ ht => (nomatch ht)
  · intro t hsince
    refine (h.due t hsince).imp_right (fun hdue => .inr (hdue.resolve_left fun hin => ?_))
    rw [hflight] at hin
    exact (h.dropped ticket hcancelled).2 (Option.some.inj hin ▸ hsince)

lemma issued_append (log log' : List Seen) : issued (log ++ log') = issued log ++ issued log' :=
  List.filterMap_append

lemma mem_issued_of_wrote {chunk : Chunk} (h : .wrote chunk ∈ log) :
    chunk.ticket ∈ issued log := List.mem_filterMap.mpr ⟨_, h, rfl⟩

lemma inPlace_of_owed (h : Inv marks b log) {ticket : ℕ} {owed : List Callback}
    (howed : b.owed = .barrier ticket :: owed) (hnot : ticket ∉ b.cancelled) :
    InPlace log ticket := by
  obtain ⟨⟨hparsed, -⟩, hflight, -⟩ := h.flight_of_owed howed
  obtain ⟨recent, earlier, rfl, hclear⟩ := h.flight ticket hflight hnot
  have hsorted := h.asIssued
  rw [issued_append] at hsorted
  obtain ⟨-, hearlier, hrecent⟩ := List.pairwise_append.mp hsorted
  have horder := h.inOrder
  rw [pending_of_flight hflight owed] at horder
  obtain ⟨-, hpending, hbefore⟩ := List.pairwise_append.mp horder
  refine ⟨recent, earlier, rfl, hclear, fun chunk hchunk hwrote => ?_, fun chunk hwrote hmem => ?_⟩
  · have hlt : chunk.ticket < ticket :=
      (List.pairwise_cons.mp hearlier).1 _ (mem_issued_of_wrote hwrote)
    rw [h.kept, List.mem_append] at hchunk
    rcases hchunk with hmem | hwaiting
    · exact hparsed ▸ hmem
    · obtain ⟨item, hitem, heq⟩ := List.mem_filterMap.mp hwaiting
      cases item with
      | barrier => exact (nomatch heq)
      | bytes c =>
        obtain rfl := Option.some.inj heq
        have hgt := (List.pairwise_cons.mp hpending).1 c.ticket
          (List.mem_map_of_mem (f := WriteItem.ticket) hitem)
        exact absurd hlt hgt.not_gt
  · have hgt : ticket < chunk.ticket :=
      hrecent _ (mem_issued_of_wrote hwrote) ticket (List.mem_cons_self ..)
    have hlt := hbefore _ (List.mem_map_of_mem hmem) ticket (List.mem_cons_self ..)
    exact absurd hlt hgt.not_gt

lemma runs (h : Inv marks b log) {ticket : ℕ} {owed : List Callback}
    (howed : b.owed = .barrier ticket :: owed) (hnot : ticket ∉ b.cancelled) :
    Inv marks { b with owed, barrierInFlight := none } (.ran ticket :: log) := by
  have hplace := h.inPlace_of_owed howed hnot
  obtain ⟨⟨hparsed, hzero⟩, hflight, rfl⟩ := h.flight_of_owed howed
  have hran : ran (.ran ticket :: log) = ran log ++ [ticket] := by simp [ran, Seen.ran?]
  have hpending := pending_of_flight hflight []
  have hsub : ({ b with owed := [], barrierInFlight := none } : Backlog).pending.Sublist
      b.pending := hpending ▸ List.sublist_cons_self _ _
  refine ⟨h.kept, ?_, rfl, hzero, marks.highWater_pos, ?_, ?_, h.asIssued, h.numbered, ?_, ?_, ?_,
    ?_, ?_, ?_⟩
  · exact hparsed.trans (List.append_nil _).symm
  · exact h.inOrder.sublist ((List.Sublist.refl _).append hsub)
  · rw [hran, List.append_assoc, List.singleton_append, ← hpending]
    exact h.ranOnce
  · intro t ht
    refine h.below t ?_
    rw [hran, List.append_assoc _ [ticket], List.singleton_append, ← hpending] at ht
    exact ht
  · exact fun _ ht => (nomatch ht)
  · exact fun t c ht => (h.barriers t c ht).imp_right (fun hsince => hsince.cons nofun)
  · exact h.dropped_cons nofun
  · intro t hsince
    rw [hran]
    rcases h.due t (hsince.of_cons.2.resolve_left nofun) with hmem | hin | hmem
    · exact .inl (List.mem_append_left _ hmem)
    · rw [hflight] at hin
      exact .inl (List.mem_append_right _ (List.mem_singleton.mpr (Option.some.inj hin).symm))
    · exact .inr (.inr hmem)
  · intro t older hsuffix
    rcases List.suffix_cons_iff.mp hsuffix with heq | hsuffix
    · obtain ⟨hticket, rfl⟩ := List.cons.inj heq
      injection hticket with hticket
      exact hticket ▸ hplace
    · exact h.inPlace t older hsuffix

end Inv

namespace Writes

variable {marks : Marks} {w w' : Writes} {log seen : List Seen} {e : Event}

def Frame.isWriting : Frame → Bool
  | .writing _ => true
  | .running => false

def Settled (marks : Marks) (w : Writes) : Prop :=
  w.items = [] ∨ w.barrierInFlight.isSome ∨ marks.lowWater < w.outstanding ∨
    marks.highWater ≤ w.outstanding

structure Control (marks : Marks) (w : Writes) : Prop where
  pumping : w.stack.countP Frame.isWriting = if w.pumping then 1 else 0
  settled : w.stack = [] → w.Settled marks

lemma drain_inv (h : Inv marks w.toBacklog log) :
    Inv marks (drain marks w).1.toBacklog ((drain marks w).2 ++ log) := by
  rw [drain]
  cases hitems : w.items with
  | nil => exact h
  | cons item items =>
    by_cases hflight : w.barrierInFlight.isSome
    · dsimp only
      rw [if_pos hflight]
      exact h
    · have hnone : w.barrierInFlight = none := Option.not_isSome_iff_eq_none.mp hflight
      dsimp only
      rw [if_neg hflight]
      cases item with
      | barrier ticket cancelled =>
        obtain ⟨rfl, -⟩ := h.barriers ticket cancelled (hitems ▸ List.mem_cons_self ..)
        exact h.submit hitems hnone
      | bytes chunk =>
        dsimp only
        split_ifs with hhigh
        · exact h
        · exact h.handOver hitems hnone (not_le.mp hhigh)

lemma pump_inv (h : Inv marks w.toBacklog log) :
    Inv marks (pump marks w).1.toBacklog ((pump marks w).2 ++ log) := by
  rw [pump]
  split_ifs
  · exact h
  · exact drain_inv (w := { w with pumping := true }) h

lemma drain_control (hpumping : w.pumping = true)
    (hstack : w.stack.countP Frame.isWriting = 0) : Control marks (drain marks w).1 := by
  have hexit : w.items = [] ∨ w.barrierInFlight.isSome ∨ marks.lowWater < w.outstanding ∨
      marks.highWater ≤ w.outstanding → Control marks { w with pumping := false } :=
    fun h => ⟨hstack, fun _ => h⟩
  have hcall : ∀ (b : Backlog) (barrier : Option ℕ), Control marks
      { b with pumping := w.pumping, stack := .writing barrier :: w.stack } := by
    intro b barrier
    refine ⟨?_, fun he => absurd he (List.cons_ne_nil _ _)⟩
    rw [List.countP_cons_of_pos rfl, hstack, hpumping]
    rfl
  rw [drain]
  cases hitems : w.items with
  | nil => exact hexit (Or.inl hitems)
  | cons item items =>
    dsimp only
    by_cases hflight : w.barrierInFlight.isSome
    · rw [if_pos hflight]
      exact hexit (Or.inr (Or.inl hflight))
    · rw [if_neg hflight]
      cases item with
      | barrier ticket cancelled => exact hcall _ _
      | bytes chunk =>
        dsimp only
        split_ifs with hhigh
        · exact hexit (Or.inr (Or.inr (Or.inr hhigh)))
        · exact hcall _ _

lemma pump_control (hstack : w.stack.countP Frame.isWriting = if w.pumping then 1 else 0) :
    Control marks (pump marks w).1 := by
  rw [pump]
  split_ifs with hpumping
  · refine ⟨hstack, fun he => ?_⟩
    rw [he, hpumping] at hstack
    exact absurd hstack Nat.zero_ne_one
  · refine drain_control (w := { w with pumping := true }) rfl ?_
    rw [if_neg hpumping] at hstack
    exact hstack

lemma callback_keeps (h : Inv marks w.toBacklog log) (hc : Control marks w)
    (hstep : w.callback marks = some (w', seen)) :
    Inv marks w'.toBacklog (seen ++ (Event.callback.given w log ++ log)) ∧ Control marks w' := by
  rw [callback] at hstep
  rw [Event.given]
  cases howed : w.owed with
  | nil =>
    rw [howed] at hstep
    exact (nomatch hstep)
  | cons callback owed =>
    rw [howed] at hstep
    cases callback with
    | bytes chunk =>
      have hparse := h.parse howed
      dsimp only at hstep
      split_ifs at hstep with hlow
      · have heq := Option.some.inj hstep
        have hpump := pump_inv (w := { w with owed, outstanding := _ }) hparse
        have hcontrol : Control marks (pump marks
            { w with owed, outstanding := w.outstanding - chunk.data.length }).1 :=
          pump_control hc.pumping
        rw [heq] at hpump hcontrol
        exact ⟨hpump, hcontrol⟩
      · obtain ⟨rfl, rfl⟩ := Prod.mk.inj (Option.some.inj hstep)
        exact ⟨hparse, hc.pumping, fun _ => Or.inr (Or.inr (Or.inl (not_le.mp hlow)))⟩
    | barrier ticket =>
      dsimp only at hstep
      split_ifs at hstep with hcancelled
      · have heq := Option.some.inj hstep
        have hpump := pump_inv (w := { w with owed, barrierInFlight := none }) (h.pass howed hcancelled)
        have hcontrol : Control marks (pump marks { w with owed, barrierInFlight := none }).1 :=
          pump_control hc.pumping
        rw [heq] at hpump hcontrol
        exact ⟨hpump, hcontrol⟩
      · obtain ⟨rfl, rfl⟩ := Prod.mk.inj (Option.some.inj hstep)
        exact ⟨h.runs howed hcancelled, hc.pumping, fun he => absurd he (List.cons_ne_nil _ _)⟩

lemma ret_keeps (h : Inv marks w.toBacklog log) (hc : Control marks w)
    (hstep : w.ret marks = some (w', seen)) :
    Inv marks w'.toBacklog (seen ++ log) ∧ Control marks w' := by
  have hcount := hc.pumping
  rw [ret] at hstep
  cases hstack : w.stack with
  | nil =>
    rw [hstack] at hstep
    exact (nomatch hstep)
  | cons frame stack =>
    rw [hstack] at hstep hcount
    cases frame with
    | running =>
      have heq := Option.some.inj hstep
      have hpump := pump_inv (w := { w with stack }) h
      have hcontrol : Control marks (pump marks { w with stack }).1 := pump_control hcount
      rw [heq] at hpump hcontrol
      exact ⟨hpump, hcontrol⟩
    | writing barrier =>
      rw [List.countP_cons_of_pos rfl] at hcount
      have hpumping : w.pumping = true := by
        by_contra hnot
        rw [if_neg hnot] at hcount
        exact absurd hcount (Nat.succ_ne_zero _)
      have hrest : stack.countP Frame.isWriting = 0 := by
        rw [hpumping] at hcount
        exact Nat.succ.inj hcount
      dsimp only at hstep
      split_ifs at hstep with hflight
      · obtain ⟨rfl, rfl⟩ := Prod.mk.inj (Option.some.inj hstep)
        obtain ⟨hsome, hflight⟩ := hflight
        exact ⟨h, hrest, fun _ => Or.inr (Or.inl (hflight ▸ hsome))⟩
      · have heq := Option.some.inj hstep
        have hdrain := drain_inv (w := { w with stack }) h
        have hcontrol : Control marks (drain marks { w with stack }).1 :=
          drain_control hpumping hrest
        rw [heq] at hdrain hcontrol
        exact ⟨hdrain, hcontrol⟩

lemma step_keeps (h : Inv marks w.toBacklog log) (hc : Control marks w)
    (hstep : w.step marks e = some (w', seen)) :
    Inv marks w'.toBacklog (seen ++ (e.given w log ++ log)) ∧ Control marks w' := by
  cases e with
  | write data =>
    have hpump := pump_inv (w := { w with items := _, tickets := _ }) (h.wrote data)
    rw [h.numbered] at hpump
    have heq : w.write marks data = (w', seen) := Option.some.inj hstep
    have hcontrol : Control marks (w.write marks data).1 := pump_control hc.pumping
    rw [write, h.numbered] at heq hcontrol
    rw [heq] at hpump hcontrol
    exact ⟨hpump, hcontrol⟩
  | barrier =>
    have hpump := pump_inv (w := { w with items := _, tickets := _ }) h.asked
    rw [h.numbered] at hpump
    have heq : w.barrier marks = (w', seen) := Option.some.inj hstep
    have hcontrol : Control marks (w.barrier marks).1 := pump_control hc.pumping
    rw [barrier, h.numbered] at heq hcontrol
    rw [heq] at hpump hcontrol
    exact ⟨hpump, hcontrol⟩
  | clear =>
    obtain ⟨rfl, rfl⟩ := Prod.mk.inj (Option.some.inj hstep)
    exact ⟨h.cleared, hc.pumping, fun _ => Or.inl rfl⟩
  | callback => exact callback_keeps h hc hstep
  | ret => exact ret_keeps h hc hstep

lemma Reaches.keeps (h : Reaches marks w log) :
    Inv marks w.toBacklog log ∧ Control marks w := by
  induction h with
  | start => exact ⟨Inv.start, rfl, fun _ => Or.inl rfl⟩
  | step _ hstep ih => exact step_keeps ih.1 ih.2 hstep

end Writes

lemma Inv.unparsed_eq {marks : Marks} {b : Backlog} {log : List Seen} (h : Inv marks b log) :
    unparsed log = b.owedChunks := by
  have hnodup := h.nodup
  rw [h.parsed] at hnodup
  rw [unparsed, h.parsed, List.filter_append]
  have hparsed : (Terminal.parsed log).filter (fun chunk => chunk ∉ Terminal.parsed log) = [] :=
    List.filter_eq_nil_iff.mpr (fun chunk hchunk => by simpa using hchunk)
  have howed : b.owedChunks.filter (fun chunk => chunk ∉ Terminal.parsed log) =
      b.owedChunks := by
    refine List.filter_eq_self.mpr (fun chunk hchunk => decide_eq_true (fun hmem => ?_))
    exact (List.nodup_append.mp hnodup).2.2 chunk hmem chunk hchunk rfl
  rw [hparsed, howed, List.nil_append]

lemma Inv.bytesOf_unparsed {marks : Marks} {b : Backlog} {log : List Seen}
    (h : Inv marks b log) : unparsed log = [] ∨ ∃ chunk ∈ handed log,
      bytesOf (unparsed log) < marks.highWater + chunk.data.length := by
  rw [h.unparsed_eq]
  rcases List.eq_nil_or_concat b.owedChunks with hnil | ⟨chunks, chunk, hconcat⟩
  · exact Or.inl hnil
  · have hbound := h.bound
    rw [hconcat, List.concat_eq_append] at hbound ⊢
    rw [List.dropLast_concat] at hbound
    refine Or.inr ⟨chunk, ?_, ?_⟩
    · rw [h.parsed, hconcat, List.concat_eq_append, ← List.append_assoc]
      exact List.mem_append_right _ (List.mem_singleton_self chunk)
    · rw [Inv.bytesOf_append]
      exact Nat.add_lt_add_right hbound _

namespace Writes

/-- The queue keeps its order, holds back what the emulator is behind with, and never stalls:
control is back with the event loop when no call out of the queue's code is under way. -/
theorem write_queue_keeps_order (marks : Marks) (w : Writes) (log : List Seen)
    (h : Reaches marks w log) :
    handed log ++ w.waiting = survived log ∧
    (unparsed log = [] ∨ ∃ chunk ∈ handed log,
      bytesOf (unparsed log) < marks.highWater + chunk.data.length) ∧
    (ran log).Nodup ∧
    (∀ ticket newer older, log = newer ++ .ran ticket :: older → InPlace older ticket) ∧
    (w.owed = [] → w.stack = [] → w.items = [] ∧ w.barrierInFlight = none ∧
      ∀ ticket, Since log ticket → ticket ∈ ran log) := by
  obtain ⟨hinv, hcontrol⟩ := h.keeps
  refine ⟨hinv.kept.symm, hinv.bytesOf_unparsed, ?_, fun ticket newer older heq => ?_,
    fun howed hstack => ?_⟩
  · exact (List.pairwise_append.mp hinv.ranOnce).1.imp (fun hlt => hlt.ne)
  · exact hinv.inPlace ticket older (heq ▸ List.suffix_append _ _)
  · have hall := hinv.owed
    rw [howed] at hall
    obtain ⟨hchunks, hbarrier⟩ := List.append_eq_nil_iff.mp hall.symm
    have hflight : w.barrierInFlight = none :=
      Option.toList_eq_nil_iff.mp (List.map_eq_nil_iff.mp hbarrier)
    have hzero : w.outstanding = 0 := by
      rw [hinv.outstanding, List.map_eq_nil_iff.mp hchunks]
      rfl
    have hitems : w.items = [] := by
      rcases hcontrol.settled hstack with hitems | hsome | hlow | hhigh
      · exact hitems
      · exact absurd hsome (by rw [hflight]; exact Bool.false_ne_true)
      · exact absurd hlow (by rw [hzero]; exact Nat.not_lt_zero _)
      · exact absurd hhigh (by rw [hzero]; exact marks.highWater_pos.not_ge)
    refine ⟨hitems, hflight, fun ticket hsince => ?_⟩
    have hdue := hinv.due ticket hsince
    rw [hflight, hitems] at hdue
    simpa using hdue

theorem write_queue_keeps_order_parsed_late :
    let log : List Seen := [.ran 1, .parsed ⟨0, [104, 105]⟩, .asked 1, .handed ⟨0, [104, 105]⟩,
      .wrote ⟨0, [104, 105]⟩]
    ∃ w, Reaches Marks.default w log ∧ handed log ++ w.waiting = survived log ∧ (ran log).Nodup := by
  intro log
  have hwrite : Reaches Marks.default _ _ := .step (e := .write [104, 105]) .start rfl
  have hreturn : Reaches Marks.default _ _ := .step (e := .ret) hwrite rfl
  have hbarrier : Reaches Marks.default _ _ := .step (e := .barrier) hreturn rfl
  have hparsed : Reaches Marks.default _ _ := .step (e := .callback) hbarrier rfl
  have hran : Reaches Marks.default _ log := .step (e := .callback) hparsed rfl
  obtain ⟨hkept, -, honce, -, -⟩ := write_queue_keeps_order _ _ _ hran
  exact ⟨_, hran, hkept, honce⟩

end Writes

end Nightcrow.Page.Terminal
