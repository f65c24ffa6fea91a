import Nightcrow.Library.Table

namespace Nightcrow.Session.SizeOwner

open Nightcrow.Library

def releaseGrace : ℕ := 2_000_000_000

inductive ViewerId
  | browser (id : String)
  | attached (id : ℕ)
deriving DecidableEq, Repr

structure Announce where
  viewer : ViewerId
  tx : ℕ
deriving DecidableEq, Repr

structure Verdict where
  connection : ℕ
  tx : ℕ
  owned : Bool
  generation : UInt64
deriving DecidableEq, Repr

structure Inner where
  present : Table ViewerId ℕ := ∅
  arrival : List ViewerId := []
  activity : List ViewerId := []
  owner : Option ViewerId := none
  generation : UInt64 := 0
  ownerAbsentSince : Option ℕ := none
  announce : Table ℕ Announce := ∅
  nextConnection : ℕ := 0

namespace Inner

variable (s : Inner)

def markActive (viewer : ViewerId) : Inner :=
  { s with activity := s.activity.filter (· ≠ viewer) ++ [viewer] }

def advanceGeneration : Inner :=
  { s with generation := s.generation + 1 }

def tellOne (connection : ℕ) (owned : Bool) : List Verdict :=
  match s.announce.lookup connection with
  | some a => [⟨connection, a.tx, owned, s.generation⟩]
  | none => []

def tell (viewer : ViewerId) (owned : Bool) : List Verdict :=
  s.announce.entries.flatMap (fun e => if e.2.viewer = viewer then s.tellOne e.1 owned else [])

def tellDisplaced : Option ViewerId → List Verdict
  | some viewer => s.tell viewer false
  | none => []

def heir : Option ViewerId :=
  s.activity.getLast? <|> s.arrival.getLast?

def release : Inner :=
  -- the second half of `expire_absent_owner`, once the grace is over
  let t := { s with ownerAbsentSince := none, owner := s.heir }
  if s.owner ≠ t.owner then t.advanceGeneration else t

def tellOwner : List Verdict :=
  match s.owner with
  | some viewer => s.tell viewer true
  | none => []

def expireAbsentOwner (now : ℕ) : Inner × List Verdict :=
  match s.ownerAbsentSince with
  | none => (s, [])
  | some since =>
    if now - since < releaseGrace then (s, [])
    else (s.release, s.release.tellOwner)

def replaceOwner (viewer : ViewerId) : Inner × List Verdict :=
  -- the displacing half of `join` and `claim`
  let t := { s with ownerAbsentSince := none, owner := some viewer }.advanceGeneration
  (t, t.tell viewer true ++ t.tellDisplaced s.owner)

def register (viewer : ViewerId) (tx : ℕ) : Inner :=
  -- the bookkeeping half of `join`, before anyone is told anything
  let count := (s.present.lookup viewer).getD 0 + 1
  { s with
    present := s.present.insert viewer count
    arrival := if count = 1 then s.arrival ++ [viewer] else s.arrival
    ownerAbsentSince := if s.owner = some viewer then none else s.ownerAbsentSince
    announce := s.announce.insert s.nextConnection ⟨viewer, tx⟩
    nextConnection := s.nextConnection + 1 }

def join (viewer : ViewerId) (tx : ℕ) (now : ℕ) : Inner × ℕ × List Verdict :=
  let (s, expired) := s.expireAbsentOwner now
  let connection := s.nextConnection
  let s := s.register viewer tx
  if s.owner = none then
    let (s, told) := (s.markActive viewer).replaceOwner viewer
    (s, connection, expired ++ told)
  else
    (s, connection, expired ++ s.tellOne connection (s.owner = some viewer))

def leave (connection : ℕ) (now : ℕ) : Inner × Bool :=
  match s.announce.lookup connection with
  | none => (s, false)
  | some gone =>
    let s := { s with announce := s.announce.erase connection }
    let left := (s.present.lookup gone.viewer).map (· - 1)
    match left with
    | some (count + 1) => ({ s with present := s.present.insert gone.viewer (count + 1) }, false)
    | _ =>
      let s := { s with
        present := s.present.erase gone.viewer
        arrival := s.arrival.filter (· ≠ gone.viewer)
        activity := s.activity.filter (· ≠ gone.viewer) }
      if s.owner = some gone.viewer then ({ s with ownerAbsentSince := some now }, true)
      else (s, false)

def claim (connection : ℕ) (now : ℕ) : Inner × List Verdict :=
  let (s, expired) := s.expireAbsentOwner now
  match s.announce.lookup connection with
  | none => (s, expired)
  | some a =>
    let s := s.markActive a.viewer
    if s.owner = some a.viewer then (s, expired ++ s.tellOne connection true)
    else
      let (s, told) := s.replaceOwner a.viewer
      (s, expired ++ told)

def owns (connection : ℕ) : Bool :=
  match s.announce.lookup connection with
  | some a => s.owner = some a.viewer
  | none => false

def ownerGeneration (connection : ℕ) : Option UInt64 :=
  if s.owns connection then some s.generation else none

def withOwnerGeneration (connection : ℕ) (generation : UInt64) : Bool :=
  s.ownerGeneration connection = some generation

end Inner

end Nightcrow.Session.SizeOwner
