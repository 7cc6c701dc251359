import SqlPipeline.Config
import SqlPipeline.Task.Run

/-!
# Tasks as processes

When a tree of tasks runs, all its tasks work at the same time. Each of them is a process: it
receives rows, has none, one or many rows to send for a row that it received, sends them one by one,
and gives up its sending end when it is done. A handoff between two tasks is a channel that keeps the
order of what is sent and has room for so many messages. A task that has something to send waits
while there is no room, and a task that wants to receive waits while there is nothing to receive,
unless the sending end is gone.

`Task.network` reads the processes off a tree that was set up. `Net.Moves` is what one of them can do
next, and `Net.Advances` what can happen next if the rows of the job are taken as well.
-/

namespace SqlPipeline

/-! ## Channels -/

/-- A handoff between two processes, with a journal of what went through it. -/
structure Channel where
  /-- What was sent and not received, in order. -/
  queue : List Message
  /-- Whether the sending end is there. -/
  isOpen : Bool
  /-- All that was sent. -/
  sent : List Message
  /-- All that was received. -/
  received : List Message
deriving DecidableEq, Repr, Inhabited

namespace Channel

/-- A handoff through which nothing went yet. -/
def ofHandoff (handoff : Handoff) : Channel :=
  ⟨handoff.messages, handoff.isOpen, handoff.messages, []⟩

def capacity (config : Config) : Nat :=
  max config.channelBuffer 1

def rows (channel : Channel) : List Row :=
  channel.queue.map Message.row

def push (message : Message) (channel : Channel) : Channel :=
  { channel with queue := channel.queue ++ [message], sent := channel.sent ++ [message] }

/-- The first message that was not received, and the channel after it is. -/
def pull? (channel : Channel) : Option (Message × Channel) :=
  match channel.queue with
  | [] => none
  | message :: rest =>
    some (message, { channel with queue := rest, received := channel.received ++ [message] })

def close (channel : Channel) : Channel :=
  { channel with isOpen := false }

/-- There is nothing to receive, and never will be. -/
def IsOver (channel : Channel) : Prop :=
  channel.isOpen = false ∧ channel.queue = []

end Channel

structure Sender where
  /-- The rows that the process is to send before it does anything else. -/
  pending : List Row
  /-- The number of the next message. -/
  nextId : Nat
  channel : Channel
deriving DecidableEq, Repr, Inhabited

namespace Sender

def ofHandoff (pending : List Row) (handoff : Handoff) : Sender :=
  ⟨pending, 0, .ofHandoff handoff⟩

def load (rows : List Row) (out : Sender) : Sender :=
  { out with pending := rows }

/-- Sends the next row, if there is one and room for it. -/
def send? (capacity : Nat) (out : Sender) : Option Sender :=
  match out.pending with
  | [] => none
  | row :: rest =>
    if out.channel.isOpen ∧ out.channel.queue.length < capacity then
      some ⟨rest, out.nextId + 1, out.channel.push ⟨out.nextId, row⟩⟩
    else none

def close (out : Sender) : Sender :=
  { out with channel := out.channel.close }

end Sender

/-! ## Processes -/

/-- How far a join is: it receives its whole right side before its left side. -/
inductive Merge where
  | buffering (rights : List Row)
  | streaming (rights : List Row)
  | ended
deriving DecidableEq, Repr, Inhabited

/-- A process and those that send to it, each with its state. A stage whose input has ended has no
state any more. -/
inductive Net : Type 1 where
  /-- Sends rows that are there already. -/
  | source (out : Sender)
  /-- Sends what a stage makes of the rows it receives. -/
  | turning {σ : Type} (stage : Stage σ) (state : Option σ) (out : Sender) (input : Net)
  /-- Sends the rows of two sides joined. -/
  | joining (kind : Sql.JoinKind) (on : Bound) (rightWidth : Nat) (phase : Merge) (out : Sender)
    (left right : Net)

namespace Net

def out : Net → Sender
  | source out | turning _ _ out _ | joining _ _ _ _ out _ _ => out

def withOut (out : Sender) : Net → Net
  | source _ => source out
  | turning stage state _ input => turning stage state out input
  | joining kind on rightWidth phase _ left right => joining kind on rightWidth phase out left right

def channel (net : Net) : Channel :=
  net.out.channel

def withChannel (channel : Channel) (net : Net) : Net :=
  net.withOut { net.out with channel }

def isDone : Net → Bool
  | source _ => true
  | turning _ state _ _ => state.isNone
  | joining _ _ _ phase _ _ _ => phase = .ended

/-- A stage that is fed by a process, before it has received anything. -/
def fed {σ : Type} (stage : Stage σ) (handoff : Handoff) (input : Net) : Net :=
  .turning stage (some stage.start) (.ofHandoff [] handoff) input

def channels : Net → List Channel
  | source out => [out.channel]
  | turning _ _ out input => out.channel :: input.channels
  | joining _ _ _ _ out left right => out.channel :: (left.channels ++ right.channels)

/-- All processes are done and have given up their sending ends. -/
def Finished (net : Net) : Prop :=
  ∀ channel ∈ net.channels, channel.isOpen = false

/-- One of the processes does one thing: it sends a row, receives one, finds that its input has
ended, or gives up its sending end. A process that is to send rows does nothing else before. -/
inductive Moves (capacity : Nat) : Net → Net → Prop
  | send {net : Net} {out : Sender} (hsend : net.out.send? capacity = some out) :
    Moves capacity net (net.withOut out)
  | close {net : Net} (hdone : net.isDone = true) (hsent : net.out.pending = [])
    (hopen : net.channel.isOpen = true) : Moves capacity net (net.withOut net.out.close)
  | receive {σ : Type} {stage : Stage σ} {state next : σ} {out : Sender} {input : Net}
    {message : Message} {rest : Channel} {rows : List Row} (hsent : out.pending = [])
    (hpull : input.channel.pull? = some (message, rest))
    (hstep : stage.step state message.row = (rows, .ok next)) :
    Moves capacity (.turning stage (some state) out input)
      (.turning stage (some next) (out.load rows) (input.withChannel rest))
  | finish {σ : Type} {stage : Stage σ} {state : σ} {out : Sender} {input : Net}
    (hsent : out.pending = []) (hover : input.channel.IsOver) :
    Moves capacity (.turning stage (some state) out input)
      (.turning stage none (out.load (stage.finish state)) input)
  | receiveRight {kind : Sql.JoinKind} {on : Bound} {rightWidth : Nat} {rights : List Row}
    {out : Sender} {left right : Net} {message : Message} {rest : Channel}
    (hpull : right.channel.pull? = some (message, rest)) :
    Moves capacity (.joining kind on rightWidth (.buffering rights) out left right)
      (.joining kind on rightWidth (.buffering (rights ++ [message.row])) out left
        (right.withChannel rest))
  | endRight {kind : Sql.JoinKind} {on : Bound} {rightWidth : Nat} {rights : List Row}
    {out : Sender} {left right : Net} (hover : right.channel.IsOver) :
    Moves capacity (.joining kind on rightWidth (.buffering rights) out left right)
      (.joining kind on rightWidth (.streaming rights) out left right)
  | receiveLeft {kind : Sql.JoinKind} {on : Bound} {rightWidth : Nat} {rights : List Row}
    {out : Sender} {left right : Net} {message : Message} {rest : Channel} {rows : List Row}
    (hsent : out.pending = []) (hpull : left.channel.pull? = some (message, rest))
    (hstep : (Stage.join kind on rightWidth rights).step () message.row = (rows, .ok ())) :
    Moves capacity (.joining kind on rightWidth (.streaming rights) out left right)
      (.joining kind on rightWidth (.streaming rights) (out.load rows) (left.withChannel rest) right)
  | endLeft {kind : Sql.JoinKind} {on : Bound} {rightWidth : Nat} {rights : List Row}
    {out : Sender} {left right : Net} (hsent : out.pending = []) (hover : left.channel.IsOver) :
    Moves capacity (.joining kind on rightWidth (.streaming rights) out left right)
      (.joining kind on rightWidth .ended out left right)
  | input {σ : Type} {stage : Stage σ} {state : Option σ} {out : Sender} {input after : Net}
    (hinput : Moves capacity input after) :
    Moves capacity (.turning stage state out input) (.turning stage state out after)
  | left {kind : Sql.JoinKind} {on : Bound} {rightWidth : Nat} {phase : Merge} {out : Sender}
    {left right after : Net} (hleft : Moves capacity left after) :
    Moves capacity (.joining kind on rightWidth phase out left right)
      (.joining kind on rightWidth phase out after right)
  | right {kind : Sql.JoinKind} {on : Bound} {rightWidth : Nat} {phase : Merge} {out : Sender}
    {left right after : Net} (hright : Moves capacity right after) :
    Moves capacity (.joining kind on rightWidth phase out left right)
      (.joining kind on rightWidth phase out left after)

/-- One of the processes does one thing, or a row of the job is taken. -/
inductive Advances (capacity : Nat) : Net → Net → Prop
  | moves {net after : Net} (hmoves : Moves capacity net after) : Advances capacity net after
  | drain {net : Net} {message : Message} {rest : Channel}
    (hpull : net.channel.pull? = some (message, rest)) :
    Advances capacity net (net.withChannel rest)

end Net

/-! ## The processes of a tree of tasks -/

/-- The process of a task without children, fed by the process of the task before it. There is none
for tasks that change tables or belong to a back end, nor for tasks that are not wired. -/
def Leaf.network (input : Option Net) (leaf : Leaf) : Option Net :=
  match leaf.work, leaf.ends.input, input with
  | .source _ (some rows), none, none => some (.source (.ofHandoff rows leaf.ends.out))
  | .values rows, none, none => some (.source (.ofHandoff rows leaf.ends.out))
  | .filter predicate, some .previous, some input =>
    some (.fed (.filter predicate) leaf.ends.out input)
  | .projection exprs, some .previous, some input =>
    some (.fed (.projection exprs) leaf.ends.out input)
  | .groupBy keys aggregates, some .previous, some input =>
    some (.fed (.groupBy keys aggregates) leaf.ends.out input)
  | .distinct, some .previous, some input => some (.fed .distinct leaf.ends.out input)
  | _, _, _ => none

namespace Task

mutual

/-- The processes of a tree that was set up, fed by the process of the task before it. -/
def network (input : Option Net) : Task → Option Net
  | leaf own => own.network input
  | join kind on rightWidth ends wired left right =>
    if wired then do
      let leftNet ← left.network none
      let rightNet ← right.network none
      return .joining kind on rightWidth (.buffering []) (.ofHandoff [] ends.out) leftNet rightNet
    else none
  | sequence _ _ [] => none
  | sequence _ _ (first :: rest) => networkAll input (first :: rest)
termination_by structural task => task

def networkAll (input : Option Net) : List Task → Option Net
  | [] => input
  | task :: rest =>
    match task.network input with
    | none => none
    | some net => networkAll (some net) rest
termination_by structural tasks => tasks

end

end Task
end SqlPipeline
