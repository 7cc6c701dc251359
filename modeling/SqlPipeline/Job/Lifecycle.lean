import SqlPipeline.Task.Run

/-!
# The life of a job

A job is compiled into a root, which is set up, run and closed in this order and at most once
each. A step out of order is refused and changes nothing. The root is of any type: a job only
needs to know how the steps are taken, in a world of type `σ`, and where the rows come out.
-/

namespace SqlPipeline

/-- Who takes the rows that a running job gives. -/
inductive Reader where
  /-- They are all taken, now or later. -/
  | patient
  /-- A reader goes away when it has so many rows. -/
  | leaving (rows : Nat)
  /-- A reader signals a shutdown when it has so many rows. -/
  | stopping (rows : Nat)
  /-- The job itself takes all rows, and stops at once on a shutdown. -/
  | collecting
deriving DecidableEq, Repr, Inhabited

/-- What a reader receives of the messages that are sent. -/
def Reader.received (messages : List Message) : Reader → List Message
  | leaving rows | stopping rows => messages.take rows
  | patient | collecting => messages

/-- Whether a reader gives up its end when it has what it wants. -/
def Reader.leaves : Reader → Bool
  | leaving _ => true
  | patient | stopping _ | collecting => false

/-- How it ends to run a root and to receive its rows at the same time. The first of the two that
fails ends the other. -/
inductive Joined where
  /-- The root ran to its end, and then its rows were received, or were not. -/
  | ran (result : Except Failure Unit) (received : Result Unit)
  /-- Receiving failed first, and the run was dropped half-way. -/
  | dropped (error : Error)
deriving Repr, Inhabited

def Joined.result : Joined → Except Failure Unit
  | ran (.ok ()) received => received.mapError .error
  | ran (.error failure) _ => .error failure
  | dropped error => .error (.error error)

/-- How a root of type `ρ` is made and driven in a world of type `σ`. -/
structure Driving (σ ρ : Type) where
  compile : StateM σ (Result ρ)
  setup : ρ → StateM σ (Result Unit × ρ)
  run : Reader → ρ → StateM σ (Except Failure Unit × ρ)
  /-- Runs the root while all its rows are received. -/
  runJoined : ρ → StateM σ (Joined × ρ)
  close : ρ → Result Unit × ρ
  /-- The handoff from which the rows are taken, if the root has one. -/
  drain? : ρ → Option Handoff
  mapDrain : (Handoff → Handoff) → ρ → ρ

/-- A job with its root, once it is compiled. -/
structure Job (ρ : Type) where
  state : JobState
  root : Option ρ
deriving Repr, Inhabited

namespace Job

variable {σ ρ : Type} (driving : Driving σ ρ) (job : Job ρ)

def new : Job ρ := ⟨.created, none⟩

/-- The error about a job that is not in the state a step needs. -/
def outOfOrder (expected : JobState) : Error :=
  .invalidLifecycle expected job.state

/-- Compiles the statement of the job. It can be tried again after a failure. -/
def compile : StateM σ (Result Unit × Job ρ) := do
  if job.state ≠ .created then return (.error (job.outOfOrder .created), job)
  match ← driving.compile with
  | .error error => return (.error error, job)
  | .ok root => return (.ok (), ⟨.compiled, some root⟩)

def setup : StateM σ (Result Unit × Job ρ) := do
  match job.root with
  | none => return (.error .noRootTask, job)
  | some root =>
    if job.state ≠ .compiled then return (.error (job.outOfOrder .compiled), job)
    match ← driving.setup root with
    | (.ok (), root) => return (.ok (), ⟨.setUp, some root⟩)
    | (.error error, root) => return (.error error, ⟨.failed, some root⟩)

/-- The state of a job after a run. A panic that is passed on leaves it running. -/
def stateAfter : Except Failure Unit → JobState
  | .ok () => .finished
  | .error (.error _) => .failed
  | .error (.panic _) => .running

def run (reader : Reader) : StateM σ (Except Failure Unit × Job ρ) := do
  match job.root with
  | none => return (.error (.error .noRootTask), job)
  | some root =>
    if job.state ≠ .setUp then return (.error (.error (job.outOfOrder .setUp)), job)
    let (result, root) ← driving.run reader root
    return (result, ⟨stateAfter result, some root⟩)

/-- The state of a job after its root was run while its rows were received. A run that is dropped
leaves it running. -/
def stateJoined : Joined → JobState
  | .ran result _ => stateAfter result
  | .dropped _ => .running

def runJoined : StateM σ (Except Failure Unit × Job ρ) := do
  match job.root with
  | none => return (.error (.error .noRootTask), job)
  | some root =>
    if job.state ≠ .setUp then return (.error (.error (job.outOfOrder .setUp)), job)
    let (joined, root) ← driving.runJoined root
    return (joined.result, ⟨stateJoined joined, some root⟩)

/-- A job that still runs after an error has failed. -/
def settled : Except Failure Unit → Job ρ
  | .error (.error _) => if job.state = .running then { job with state := .failed } else job
  | _ => job

/-- Closes the root. Only the first time has an effect. -/
def close : Result Unit × Job ρ :=
  if job.state = .closed then (.ok (), job)
  else match job.root with
    | none => (.ok (), ⟨.closed, none⟩)
    | some root =>
      let (result, root) := driving.close root
      (result, ⟨.closed, some root⟩)

/-- The handoff from which the rows of the job are taken. -/
def drain : Result Handoff :=
  match job.root with
  | none => .error .noRootTask
  | some root =>
    match driving.drain? root with
    | none => .error .emptyRoot
    | some handoff => .ok handoff

def mapDrain (f : Handoff → Handoff) : Job ρ :=
  { job with root := job.root.map (driving.mapDrain f) }

/-- Everything that is in the handoff of the job, and the job without it. -/
def receive : List Message × Job ρ :=
  match job.drain driving with
  | .ok handoff => (handoff.messages, job.mapDrain driving Handoff.drain)
  | .error _ => ([], job)

def collect : StateM σ (Except Failure (List Row) × Job ρ) := do
  if job.state ≠ .setUp then return (.error (.error (job.outOfOrder .setUp)), job)
  match job.drain driving with
  | .error error => return (.error (.error error), job)
  | .ok handoff =>
    if handoff.isTaken then
      return (.error (.error (.internal "Drain of job already taken")), job)
    let (result, job) ← (job.mapDrain driving (.moveTo .held)).runJoined driving
    let (messages, job) := (job.settled result).receive driving
    return (result.map fun _ => messages.map Message.row, job.mapDrain driving Handoff.drop)

/-- Whether a reader has the receiving end of the handoff of the job. -/
def isHeld : Bool :=
  match job.drain driving with
  | .ok handoff => handoff.isHeld
  | .error _ => false

/-- Runs the root while a reader receives from the handoff of the job, if it has the receiving
end. Gives what it received, too. -/
def runReading (reader : Reader) :
    StateM σ (Except Failure Unit × List Message × Job ρ) := do
  let (result, ran) ← job.run driving reader
  if !job.isHeld driving then return (result, [], ran)
  let (messages, read) := ran.receive driving
  let left := if reader.leaves then read.mapDrain driving Handoff.drop else read
  return (result, reader.received messages, left)

def runThrough : StateM σ (Except Failure Unit × Job ρ) := do
  match ← job.setup driving with
  | (.error error, job) => return (.error (.error error), job)
  | (.ok (), job) =>
    match ← job.run driving .patient with
    | (.error failure, job) => return (.error failure, job)
    | (.ok (), job) =>
      let (result, job) := job.close driving
      return (result.mapError .error, job)

end Job
end SqlPipeline
