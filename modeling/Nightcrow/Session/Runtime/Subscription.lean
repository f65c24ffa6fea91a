import Nightcrow.Library.Runs

/-! One repository's status stream: the cached status, the subscribers it is fanned out to, and
the calls that share them, one lock hold at a time. -/

namespace Nightcrow.Session.Runtime

inductive UpdateKind
  | status
  | unavailable
deriving DecidableEq, Repr

structure StatusUpdate where
  kind : UpdateKind
  payload : String
deriving DecidableEq, Repr

/-- A subscriber is known by its id. Its slot, and whether its one-deep wakeup channel holds a
token, are shared with the subscription that has the same id. -/
structure RepoRuntime where
  awake : Bool := false
  latest : Option StatusUpdate := none
  subscribers : List ℕ := []
  nextSubscriberId : ℕ := 0
  slot : ℕ → Option StatusUpdate := fun _ => none
  wake : ℕ → Bool := fun _ => false

namespace RepoRuntime

variable (r : RepoRuntime)

def publishUpdate (update : StatusUpdate) : RepoRuntime :=
  if r.latest = some update then r
  else
    { r with
      latest := some update
      slot := fun id => if id ∈ r.subscribers then some update else r.slot id
      wake := fun id => if id ∈ r.subscribers then true else r.wake id }

def register (id : ℕ) : Bool × RepoRuntime :=
  -- the first lock hold of `subscribe`, and whether it found the list empty
  let first := r.subscribers.isEmpty
  (first, { r with
    subscribers := r.subscribers ++ [id]
    awake := if first then true else r.awake })

def unsubscribe (id : ℕ) : RepoRuntime :=
  let subscribers := r.subscribers.filter (· ≠ id)
  { r with subscribers, awake := if subscribers.isEmpty then false else r.awake }

def fill (id : ℕ) (seed : Option StatusUpdate) : RepoRuntime :=
  -- the last lock hold of `subscribe`
  if r.slot id = none then { r with slot := Function.update r.slot id seed } else r

def take (id : ℕ) : Option StatusUpdate × RepoRuntime :=
  (r.slot id, { r with slot := Function.update r.slot id none })

end RepoRuntime

inductive Phase
  | unused
  | joining
  | waking
  | seeding
  | seeded (seed : Option StatusUpdate)
  | ready
  | waiting
  | woken
  | dropped
deriving DecidableEq, Repr

/-- A runtime with the calls in progress. An observer keeps every value `latest` was given, what
each subscription took, whether what is in a slot was published there, and what was offered to
`publishUpdate` since the subscriber list was last empty. -/
structure World where
  runtime : RepoRuntime := {}
  phase : ℕ → Phase := fun _ => .unused
  history : List StatusUpdate := []
  taken : ℕ → List StatusUpdate := fun _ => []
  published : ℕ → Bool := fun _ => false
  fresh : List StatusUpdate := []

inductive Label
  | publish (update : StatusUpdate)
  | allocate
  | register (id : ℕ)
  | read (id : ℕ) (update : Option StatusUpdate)
  | seed (id : ℕ)
  | fill (id : ℕ)
  | take (id : ℕ)
  | receive (id : ℕ)
  | timeout (id : ℕ)
  | drop (id : ℕ)

namespace World

variable (w : World)

def publish (update : StatusUpdate) : World :=
  { w with
    runtime := w.runtime.publishUpdate update
    history := if w.runtime.latest = some update then w.history else w.history ++ [update]
    published := fun id => if w.runtime.latest = some update then w.published id
      else decide (id ∈ w.runtime.subscribers) || w.published id
    fresh := if w.runtime.subscribers.isEmpty then [] else w.fresh ++ [update] }

def enter (id : ℕ) (phase : Phase) : World :=
  { w with phase := Function.update w.phase id phase }

def takeFor (id : ℕ) (empty : Phase) : World :=
  let (update, runtime) := w.runtime.take id
  { w with
    runtime
    phase := Function.update w.phase id (if update.isSome then .ready else empty)
    taken := Function.update w.taken id (w.taken id ++ update.toList)
    published := Function.update w.published id false }

def step : Label → Option World
  | .publish update => some (w.publish update)
  | .allocate =>
    let id := w.runtime.nextSubscriberId
    some ({ w with runtime := { w.runtime with nextSubscriberId := id + 1 } }.enter id .joining)
  | .register id =>
    if w.phase id = .joining then
      let (first, runtime) := w.runtime.register id
      some ({ w with runtime, fresh := if first then [] else w.fresh }.enter id
        (if first then .waking else .seeding))
    else none
  | .read id update =>
    if w.phase id = .waking then
      some ((update.elim w w.publish).enter id .seeding)
    else none
  | .seed id =>
    if w.phase id = .seeding then some (w.enter id (.seeded w.runtime.latest)) else none
  | .fill id =>
    match w.phase id with
    | .seeded seed => some ({ w with runtime := w.runtime.fill id seed }.enter id .ready)
    | _ => none
  | .take id =>
    if w.phase id = .ready then some (w.takeFor id .waiting)
    else if w.phase id = .woken then some (w.takeFor id .ready)
    else none
  | .receive id =>
    if w.phase id = .waiting ∧ w.runtime.wake id = true then
      some ({ w with runtime :=
        { w.runtime with wake := Function.update w.runtime.wake id false } }.enter id .woken)
    else none
  | .timeout id => if w.phase id = .waiting then some (w.enter id .ready) else none
  | .drop id =>
    if w.phase id = .ready then
      let runtime := w.runtime.unsubscribe id
      some ({ w with runtime, fresh := if runtime.subscribers.isEmpty then [] else w.fresh }.enter
        id .dropped)
    else none

end World

end Nightcrow.Session.Runtime
