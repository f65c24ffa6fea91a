import Mathlib

/-! Byte streams that are handed over in pieces: what a reader may be given by one call, and
what a writer may accept of one offer. -/

namespace Nightcrow.Library

inductive IoErrorKind
  | interrupted
  | wouldBlock
  | timedOut
  | writeZero
  | other
deriving DecidableEq, Repr

/-- What the next reads of a stream meet: a piece of at least one byte, or a failed call. -/
inductive Arrival
  | bytes (first : UInt8) (rest : List UInt8)
  | failed (kind : IoErrorKind)
deriving DecidableEq

namespace Arrival

def unread : List UInt8 → List Arrival → List Arrival
  | [], as => as
  | b :: bs, as => .bytes b bs :: as

def data : List Arrival → List UInt8
  | [] => []
  | .bytes first rest :: as => first :: rest ++ data as
  | .failed _ :: as => data as

def read (as : List Arrival) (room : ℕ) : Except IoErrorKind (List UInt8) × List Arrival :=
  match as with
  | [] => (.ok [], [])
  | .bytes first rest :: as =>
    (.ok ((first :: rest).take room), unread ((first :: rest).drop room) as)
  | .failed kind :: as => (.error kind, as)

def weight : List Arrival → ℕ
  | [] => 0
  | .bytes _ rest :: as => rest.length + 2 + weight as
  | .failed _ :: as => 1 + weight as

@[simp] lemma unread_nil (as : List Arrival) : unread [] as = as := rfl

@[simp] lemma data_nil : data [] = [] := rfl

@[simp] lemma data_bytes (b : UInt8) (bs : List UInt8) (as : List Arrival) :
    data (.bytes b bs :: as) = b :: bs ++ data as := rfl

@[simp] lemma data_failed (kind : IoErrorKind) (as : List Arrival) :
    data (.failed kind :: as) = data as := rfl

@[simp] lemma data_append (as bs : List Arrival) : data (as ++ bs) = data as ++ data bs := by
  induction as with
  | nil => rfl
  | cons a as ih => cases a <;> simp [ih]

@[simp] lemma data_unread (bs : List UInt8) (as : List Arrival) :
    data (unread bs as) = bs ++ data as := by
  cases bs <;> rfl

lemma weight_unread (bs : List UInt8) (as : List Arrival) :
    weight (unread bs as) ≤ bs.length + 1 + weight as := by
  cases bs <;> simp [unread, weight]

lemma weight_read {a : Arrival} {as : List Arrival} {room : ℕ} (h : 0 < room) :
    weight (read (a :: as) room).2 < weight (a :: as) := by
  cases a with
  | bytes first rest =>
    have hw := weight_unread ((first :: rest).drop room) as
    simp only [List.length_drop, List.length_cons] at hw
    simp only [read, weight]
    omega
  | failed kind => simp [read, weight]

inductive Gives : List Arrival → List UInt8 → List Arrival → Prop
  | nothing (as : List Arrival) : Gives as [] as
  | interrupted {as bs as'} : Gives as bs as' → Gives (.failed .interrupted :: as) bs as'
  | byte {b rest as bs as'} : Gives (unread rest as) bs as' →
      Gives (.bytes b rest :: as) (b :: bs) as'

lemma Gives.trans {as as' as'' : List Arrival} {bs bs' : List UInt8} (h : Gives as bs as')
    (h' : Gives as' bs' as'') : Gives as (bs ++ bs') as'' := by
  induction h with
  | nothing => exact h'
  | interrupted _ ih => exact .interrupted (ih h')
  | byte _ ih => exact .byte (ih h')

lemma Gives.data_eq {as as' : List Arrival} {bs : List UInt8} (h : Gives as bs as') :
    data as = bs ++ data as' := by
  induction h with
  | nothing => rfl
  | interrupted _ ih => exact ih
  | byte _ ih => simpa using ih

lemma Gives.weight_le {as as' : List Arrival} {bs : List UInt8} (h : Gives as bs as') :
    weight as' + bs.length ≤ weight as := by
  induction h with
  | nothing => exact le_refl _
  | interrupted _ ih => simp only [weight]; omega
  | @byte _ rest as _ _ _ ih =>
    have := weight_unread rest as
    simp only [weight, List.length_cons]
    omega

lemma gives_take (bs : List UInt8) {as : List Arrival} (n : ℕ) :
    Gives (unread bs as) (bs.take n) (unread (bs.drop n) as) := by
  induction bs generalizing n with
  | nil => simpa using Gives.nothing as
  | cons b bs ih =>
    cases n with
    | zero => exact .nothing _
    | succ n => exact .byte (ih n)

lemma Gives.split {as as' : List Arrival} {bs : List UInt8} (h : Gives as bs as')
    {before after : List Arrival} {kind : IoErrorKind} (hk : kind ≠ .interrupted)
    (he : as = before ++ .failed kind :: after) :
    ∃ before', as' = before' ++ .failed kind :: after ∧ data before = bs ++ data before' := by
  induction h generalizing before with
  | nothing => exact ⟨before, he, rfl⟩
  | interrupted _ ih =>
    cases before with
    | nil =>
      rw [List.nil_append, List.cons.injEq, Arrival.failed.injEq] at he
      exact absurd he.1.symm hk
    | cons a before =>
      rw [List.cons_append, List.cons.injEq] at he
      obtain ⟨rfl, he⟩ := he
      obtain ⟨before', h, hd⟩ := ih he
      exact ⟨before', h, hd⟩
  | @byte b rest as bs as' _ ih =>
    cases before with
    | nil => cases he
    | cons a before =>
      rw [List.cons_append, List.cons.injEq] at he
      obtain ⟨rfl, rfl⟩ := he
      cases rest with
      | nil =>
        obtain ⟨before', h, hd⟩ := ih rfl
        exact ⟨before', h, by simp [hd]⟩
      | cons c rest =>
        obtain ⟨before', h, hd⟩ := ih
          (show _ = (.bytes c rest :: before) ++ .failed kind :: after from rfl)
        exact ⟨before', h, by simpa using hd⟩

lemma Gives.unsplit {as as' : List Arrival} {bs : List UInt8} (h : Gives as bs as')
    {before' after : List Arrival} {kind : IoErrorKind}
    (he : as' = before' ++ .failed kind :: after) :
    ∃ before, as = before ++ .failed kind :: after ∧ data before = bs ++ data before' := by
  induction h generalizing before' with
  | nothing => exact ⟨before', he, rfl⟩
  | interrupted _ ih =>
    obtain ⟨before, rfl, hd⟩ := ih he
    exact ⟨.failed .interrupted :: before, rfl, hd⟩
  | @byte b rest as bs as' _ ih =>
    obtain ⟨before, hb, hd⟩ := ih he
    cases rest with
    | nil => exact ⟨.bytes b [] :: before, congrArg _ hb, by simp [hd]⟩
    | cons c rest =>
      cases before with
      | nil => cases hb
      | cons a before =>
        rw [unread, List.cons_append, List.cons.injEq] at hb
        obtain ⟨rfl, rfl⟩ := hb
        exact ⟨.bytes b (c :: rest) :: before, rfl, by simpa using hd⟩

end Arrival

inductive Response
  | accept (beyondFirst : ℕ)
  | interrupted
deriving DecidableEq

structure Writer where
  schedule : List Response := []
  written : List UInt8 := []
deriving DecidableEq

namespace Writer

def writeVectored (w : Writer) (bufs : List (List UInt8)) : Except IoErrorKind ℕ × Writer :=
  match w.schedule with
  | [] => (.ok bufs.flatten.length, { w with written := w.written ++ bufs.flatten })
  | .accept beyondFirst :: schedule =>
    (.ok (min (beyondFirst + 1) bufs.flatten.length),
      { schedule, written := w.written ++ bufs.flatten.take (beyondFirst + 1) })
  | .interrupted :: schedule => (.error .interrupted, { w with schedule })

def write (w : Writer) (buf : List UInt8) : Except IoErrorKind ℕ × Writer :=
  w.writeVectored [buf]

lemma writeVectored_cases (w : Writer) (bufs : List (List UInt8)) :
    (∃ n v, w.writeVectored bufs = (.ok n, v) ∧ (bufs.flatten ≠ [] → 0 < n) ∧
      v.written = w.written ++ bufs.flatten.take n ∧
      (0 < n → v.schedule.length + (bufs.flatten.length - n) <
        w.schedule.length + bufs.flatten.length)) ∨
    ∃ v, w.writeVectored bufs = (.error .interrupted, v) ∧ v.written = w.written ∧
      v.schedule.length < w.schedule.length := by
  rcases w with ⟨_ | ⟨_ | _, schedule⟩, written⟩
  · refine Or.inl ⟨_, _, rfl, List.length_pos_iff.mpr, by simp, ?_⟩
    intro h
    simp only [List.length_nil]
    omega
  · next n =>
    refine Or.inl ⟨_, _, rfl, ?_, ?_, ?_⟩
    · intro hb
      have := List.length_pos_iff.mpr hb
      omega
    · simp [List.take_eq_take_iff]
    · intro h
      simp only [List.length_cons]
      omega
  · exact Or.inr ⟨_, rfl, rfl, by simp⟩

end Writer

end Nightcrow.Library
