import SqlPipeline.Value.Basic

/-!
# Handoffs

A task hands the rows it makes to one consumer. The handoff has a sending end, which is given up
when the task has sent everything, and a receiving end, which can be taken once.
-/

namespace SqlPipeline

/-- A row with its place in the output of the task that sent it. -/
structure Message where
  id : Nat
  row : Row
deriving DecidableEq, Repr, Inhabited

/-- Where the receiving end of a handoff is. -/
inductive Receiver where
  /-- Not taken yet. -/
  | available
  /-- The input of another task, which receives all that is sent while both run. -/
  | wired
  /-- With a reader outside of the tasks. -/
  | held
  /-- Gone, so that nothing can be sent. -/
  | dropped
deriving DecidableEq, Repr, Inhabited

structure Handoff where
  /-- What was sent and not received. -/
  messages : List Message
  /-- Whether the sending end is there. -/
  isOpen : Bool
  receiver : Receiver
deriving DecidableEq, Repr, Inhabited

namespace Handoff

def new : Handoff := ⟨[], true, .available⟩

def isTaken (handoff : Handoff) : Bool :=
  handoff.receiver ≠ .available

def close (handoff : Handoff) : Handoff :=
  { handoff with isOpen := false }

def moveTo (receiver : Receiver) (handoff : Handoff) : Handoff :=
  { handoff with receiver }

/-- Whether a reader outside of the tasks has the receiving end. -/
def isHeld (handoff : Handoff) : Bool :=
  handoff.receiver = .held

def number (rows : List Row) : List Message :=
  rows.zipIdx.map fun (row, id) => ⟨id, row⟩

/-- The handoff after a task sent rows. They stay in it if no task receives them. -/
def deliver (handoff : Handoff) (rows : List Row) : Handoff :=
  match handoff.receiver with
  | .available | .held => { handoff with messages := handoff.messages ++ number rows }
  | .wired | .dropped => handoff

/-- The handoff after everything in it was received. -/
def drain (handoff : Handoff) : Handoff :=
  { handoff with messages := [] }

/-- The handoff after its receiving end was given up, with everything in it. -/
def drop (handoff : Handoff) : Handoff :=
  handoff.drain.moveTo .dropped

end Handoff
end SqlPipeline
