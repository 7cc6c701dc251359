import SqlPipeline.Proofs.Job.Wiring
import SqlPipeline.Proofs.Network.Progress
import SqlPipeline.Proofs.Query.Rows
import SqlPipeline.Proofs.Query.Width

/-!
# Streaming

The execution of a select lets rows flow through its tasks as whole lists, one task after the other.
The tasks of a job all work at the same time, and hand over single rows through channels with little
room. This makes no difference: **whatever the order in which the processes of a select move, they
are never stuck, no row is lost, received twice or out of order, and what is read from the job in the
end are the rows of its execution** (`Execution.streaming`).

The processes of a query are known from the query (`Query.network`), and so are the rows they are to
deliver: a process that has not moved yet will give the rows that its stage makes of all rows of its
input (`Net.Begins`).
-/

namespace SqlPipeline

open Sql (Select)

/-! ## Processes that have not moved yet -/

/-- Through a new handoff nothing was sent. -/
theorem Sender.sound_new (pending : List Row) (done : Bool) :
    (Sender.ofHandoff pending .new).Sound done :=
  ⟨⟨rfl, rfl⟩, rfl, fun hclosed => by cases hclosed⟩

namespace Net

variable {net input left right : Net} {rows lefts rights : List Row}

/-- Nothing was received from the tree yet, and it will give the rows `rows`. -/
structure Begins (net : Net) (rows : List Row) : Prop where
  gives : net.Gives rows
  received_eq : net.channel.received = []

theorem Begins.delivers (h : net.Begins rows) : net.Delivers rows := by
  refine ⟨h.gives.sound, h.gives.safe, ?_⟩
  rw [h.received_eq, h.gives.coming_eq]
  rfl

theorem begins_source (rows : List Row) : (source (.ofHandoff rows .new)).Begins rows := by
  have hcoming : (source (.ofHandoff rows .new)).coming = rows := List.append_nil rows
  exact ⟨⟨Sender.sound_new rows true, trivial, hcoming⟩, rfl⟩

/-- A stage that does not fail on the rows of its input gives what it makes of them. -/
theorem begins_fed {σ : Type} {stage : Stage σ} (hinput : input.Begins rows)
    (hrun : (stage.run rows).2 = .ok ()) : (fed stage .new input).Begins (stage.run rows).1 := by
  obtain ⟨⟨hsound, hsafe, hcoming⟩, -⟩ := hinput
  have hstage : stage.runOn (some stage.start) input.coming = stage.run rows := by
    rw [hcoming]
    exact stage.runFrom_start rows
  refine ⟨⟨⟨Sender.sound_new [] false, (fun hnone => by cases hnone), hsound⟩, ⟨?_, hsafe⟩, ?_⟩, rfl⟩
  · rw [hstage]
    exact hrun
  · exact congrArg Prod.fst hstage

/-- A join whose condition does not fail gives the rows of both sides joined. -/
theorem begins_joining {kind : Sql.JoinKind} {on : Bound} {rightWidth : Nat}
    (hleft : left.Begins lefts) (hright : right.Begins rights)
    (hrun : ((Stage.join kind on rightWidth rights).run lefts).2 = .ok ()) :
    (joining kind on rightWidth (.buffering []) (.ofHandoff [] .new) left right).Begins
      ((Stage.join kind on rightWidth rights).run lefts).1 := by
  obtain ⟨⟨hleftSound, hleftSafe, hlefts⟩, -⟩ := hleft
  obtain ⟨⟨hrightSound, hrightSafe, hrights⟩, -⟩ := hright
  have hmerge : (Merge.buffering []).runOn kind on rightWidth left.coming right.coming =
      (Stage.join kind on rightWidth rights).run lefts := by
    rw [hlefts, hrights]
    rfl
  refine ⟨⟨⟨Sender.sound_new [] false, (fun hphase => absurd rfl (hphase [])),
    (fun hphase => by cases hphase), hleftSound, hrightSound⟩, ⟨?_, hleftSafe, hrightSafe⟩, ?_⟩, rfl⟩
  · rw [hmerge]
    exact hrun
  · exact congrArg Prod.fst hmerge

end Net

/-! ## The processes of a query -/

namespace Step

/-- The process of a step that is fed by a process. -/
def attach (net : Net) : Step → Net
  | filter predicate => .fed (.filter predicate) .new net
  | projection exprs => .fed (.projection exprs) .new net
  | groupBy keys aggregates => .fed (.groupBy keys aggregates) .new net
  | distinct => .fed .distinct .new net

variable {net : Net} {input : Flow}

/-- The process of a step is to give the rows of the flow out of it. -/
theorem begins_attach {step : Step} (hcomplete : (step.flow input).Complete)
    (hnet : net.Begins input.rows) : (step.attach net).Begins (step.flow input).rows := by
  cases step <;> exact Net.begins_fed hnet (Stage.complete_flow_iff.mp hcomplete).2

theorem begins_foldl {steps : List Step} (hcomplete : (steps.foldl flow input).Complete)
    (hnet : net.Begins input.rows) :
    (steps.foldl attach net).Begins (steps.foldl flow input).rows := by
  induction steps generalizing net input with
  | nil => exact hnet
  | cons step rest ih => exact ih hcomplete (begins_attach (complete_of_foldl hcomplete) hnet)

end Step

namespace Query

/-- The processes of a query that reads the given tables. -/
def network (schema : Schema) : Query → Net
  | values rows => .source (.ofHandoff rows .new)
  | source _ key => .source (.ofHandoff (schema.rowsOf key) .new)
  | join kind on rightWidth left right =>
    .joining kind on rightWidth (.buffering []) (.ofHandoff [] .new) (left.network schema)
      (right.network schema)
  | sequence _ first steps => steps.foldl Step.attach (first.network schema)

/-- **The processes of a query are to give the rows of its flow.** -/
theorem begins {schema : Schema} :
    ∀ {query : Query}, (query.flow schema).Complete →
      (query.network schema).Begins (query.flow schema).rows
  | values rows, _ => Net.begins_source rows
  | source _ key, _ => Net.begins_source (schema.rowsOf key)
  | join .., hcomplete => by
    obtain ⟨hleft, hright, hrun⟩ := Flow.complete_join_iff.mp hcomplete
    exact Net.begins_joining (begins hleft) (begins hright) hrun
  | sequence .., hcomplete =>
    Step.begins_foldl hcomplete (begins (Step.complete_of_foldl hcomplete))

end Query

/-! ## The processes of the tasks of a query -/

namespace Task

variable {schema : Schema}

mutual

/-- Where the receiving end of its handoff is does not matter to a process. -/
theorem network_mapOutlet (receiver : Receiver) :
    ∀ (task : Task) (input : Option Net),
      (task.mapOutlet (.moveTo receiver)).network input = task.network input
  | leaf ⟨_, _, _⟩, _ => rfl
  | join .., _ => rfl
  | sequence _ _ [], _ => rfl
  | sequence _ _ [task], input => networkAll_mapLastOutlet receiver [task] input
  | sequence _ _ (task :: next :: rest), input =>
    networkAll_mapLastOutlet receiver (task :: next :: rest) input

theorem networkAll_mapLastOutlet (receiver : Receiver) :
    ∀ (tasks : List Task) (input : Option Net),
      networkAll input (mapLastOutlet (.moveTo receiver) tasks) = networkAll input tasks
  | [], _ => rfl
  | [task], input => by
    rw [mapLastOutlet, networkAll, networkAll, network_mapOutlet receiver task input]
  | task :: next :: rest, input => by
    rw [mapLastOutlet_cons _ _ (List.cons_ne_nil next rest), networkAll, networkAll]
    cases task.network input with
    | none => rfl
    | some net => exact networkAll_mapLastOutlet receiver (next :: rest) (some net)

end

/-- Tasks that are wired to each other are processes that feed each other. -/
theorem networkAll_chain {steps : List Step} {task : Task} {input : Option Net} {net : Net}
    (h : task.network input = some net) :
    networkAll input (chain task (steps.map Step.own)) = some (steps.foldl Step.attach net) := by
  induction steps generalizing task input net with
  | nil =>
    rw [List.map_nil, chain, networkAll, h]
    rfl
  | cons step rest ih =>
    have hstep : (ready step.own.1 step.own.2).network (some net) = some (step.attach net) := by
      cases step <;> rfl
    rw [List.map_cons, chain, networkAll, network_mapOutlet, h]
    exact ih hstep

/-- Set up on the given tables, the task is the processes `net`, and nobody has taken its output. -/
def Opens (schema : Schema) (task : Task) (net : Net) : Prop :=
  task.outlet = .new ∧ ∃ prepared, task.setupFed schema false = (.ok (), prepared) ∧
    prepared.outlet = .new ∧ prepared.isChain = task.isChain ∧ prepared.network none = some net

/-- A task that has rows to send is a process that sends them. -/
theorem opens_work {name : String} {work prepared : Work} {net : Net}
    (hreads : work.readsInput = false) (hprepared : work.prepared schema = .ok prepared)
    (hnet : (ofWork name prepared).network none = some net) :
    (ofWork name work).Opens schema net :=
  ⟨rfl, ofWork name prepared, setupFed_ofWork (.inr hreads) hprepared, rfl, rfl, hnet⟩

theorem opens_join {kind : Sql.JoinKind} {on : Bound} {rightWidth : Nat} {left right : Task}
    {leftNet rightNet : Net} (hleft : left.Opens schema leftNet)
    (hright : right.Opens schema rightNet) :
    (joining kind on rightWidth left right).Opens schema
      (.joining kind on rightWidth (.buffering []) (.ofHandoff [] .new) leftNet rightNet) := by
  obtain ⟨hleftOut, leftReady, hleftSetup, -, -, hleftNet⟩ := hleft
  obtain ⟨hrightOut, rightReady, hrightSetup, -, -, hrightNet⟩ := hright
  refine ⟨rfl, join kind on rightWidth .new true (leftReady.mapOutlet (.moveTo .wired))
    (rightReady.mapOutlet (.moveTo .wired)), ?_, rfl, rfl, ?_⟩
  · rw [joining, setupFed, hleftOut, hrightOut]
    simp only [hleftSetup, hrightSetup]
    rfl
  · rw [network, network_mapOutlet, network_mapOutlet, hleftNet, hrightNet]
    rfl

theorem opens_sequence {name : String} {steps : List Step} {task : Task} {net : Net}
    (htask : task.Opens schema net) :
    (inSequence name (task :: steps.map Step.task)).Opens schema
      (steps.foldl Step.attach net) := by
  obtain ⟨houtlet, first, hsetup, hfirst, -, hnet⟩ := htask
  have hreads : ∀ own ∈ steps.map Step.own, own.2.readsInput = true :=
    fun _ hown => Step.readsInput_of_mem hown
  have hrest : setupAll schema true ((steps.map Step.own).map fun own => ofWork own.1 own.2) = _ :=
    setupAll_map_ofWork fun _ hown => Step.prepared_of_mem schema hown
  have hchain : networkAll none (chain first (steps.map Step.own)) =
      some (steps.foldl Step.attach net) := networkAll_chain hnet
  rw [Step.map_task]
  refine ⟨outletAfter_map_ofWork _ _ houtlet, sequence name .new (chain first (steps.map Step.own)),
    setupFed_sequence houtlet hfirst hreads hsetup hrest, outletAfter_chain _ _ _ hfirst,
    isChain_sequence (chain_ne_nil _ _), ?_⟩
  cases hfound : chain first (steps.map Step.own) with
  | nil => exact absurd hfound (chain_ne_nil _ _)
  | cons child rest =>
    rw [hfound] at hchain
    exact hchain

end Task

/-- **Set up, the tasks of a query are the processes of the query.** -/
theorem Query.opens {schema : Schema} :
    ∀ {query : Query}, query.Reads schema → query.task.Opens schema (query.network schema)
  | values _, _ => Task.opens_work rfl rfl rfl
  | source .., ⟨_, htable, hscan⟩ => Task.opens_work rfl (prepared_source htable hscan) rfl
  | join .., ⟨hleft, hright⟩ => Task.opens_join (opens hleft) (opens hright)
  | sequence .., hfirst => Task.opens_sequence (opens hfirst)

/-! ## Runs of processes -/

namespace Net

variable {capacity : Nat} {net after : Net} {rows : List Row}

/-- After some moves of its processes and its reader, in any order, the tree is as `after`. -/
abbrev Reaches (capacity : Nat) : Net → Net → Prop :=
  Relation.ReflTransGen (Advances capacity)

/-- The processes work as one list of rows would be passed from one to the next, in whatever order
they move. -/
structure Streams (capacity : Nat) (net : Net) (rows : List Row) : Prop where
  /-- As long as one of them is not done, something can happen. -/
  advances : ∀ after, Reaches capacity net after → ¬after.Finished →
    ∃ next, Advances capacity after next
  /-- Every run ends. -/
  ends : ∀ run : Nat → Net, run 0 = net → ∃ n, ¬Advances capacity (run n) (run (n + 1))
  /-- At any time, the messages that were sent through a channel are numbered from zero, and those
  that were received are the first of them, each once. -/
  ordered : ∀ after, Reaches capacity net after → ∀ channel ∈ after.channels, channel.Ordered
  /-- At any time, the reader has the first of the rows. -/
  isPrefix : ∀ after, Reaches capacity net after →
    (after.channel.received.map Message.row).IsPrefix rows
  /-- When nothing can happen any more, all processes are done, everything that was sent was
  received, and the reader has the rows. -/
  complete : ∀ after, Reaches capacity net after → (∀ next, ¬Advances capacity after next) →
    after.Finished ∧ (∀ channel ∈ after.channels, channel.received = channel.sent) ∧
      after.channel.received.map Message.row = rows

/-- **Processes that are to deliver rows stream them.** -/
theorem Delivers.streams (hcapacity : 0 < capacity) (hnet : net.Delivers rows) :
    net.Streams capacity rows where
  advances := fun _ hreaches hunfinished =>
    (keeps_reachable hreaches hnet).advances hcapacity (.inl hunfinished)
  ends := fun _ hrun => hnet.ends hrun
  ordered := fun _ hreaches => (keeps_reachable hreaches hnet).sound.ordered
  isPrefix := fun _ hreaches => ⟨_, (keeps_reachable hreaches hnet).total_eq⟩
  complete := fun _ hreaches hstuck => (keeps_reachable hreaches hnet).ended hcapacity hstuck

end Net

/-! ## The execution of a select -/

namespace Execution

variable {spec : JobSpec} {schema : Schema} {select : Select}

/-- A select on tables in memory that is executed without an error was compiled from a query with a
complete flow, and comes to the rows of that flow. -/
theorem query_of_run (hschema : schema.InMemory) (hplanner : spec.planner = Planner.inMemory)
    (hvisitor : spec.visitor = none) (hparse : Compiling.parse spec.raw = .ok (.select select))
    (hsuccess : (Execution.run spec (.start (some schema) spec.config)).1.failure = none) :
    ∃ query layout, Query.ofSelect schema select = .ok (query, layout) ∧
      (query.flow schema).Complete ∧
      (Execution.run spec (.start (some schema) spec.config)).1.rows =
        some (query.flow schema).rows := by
  obtain ⟨hfails, hruns⟩ := run_select hschema hplanner hvisitor hparse
  cases hquery : Query.ofSelect schema select with
  | error error =>
    obtain ⟨last, -, hrun⟩ := hfails error hquery
    rw [hrun] at hsuccess
    cases hsuccess
  | ok found =>
    obtain ⟨query, layout⟩ := found
    obtain ⟨last, -, -, hrun⟩ := hruns query layout hquery
    refine ⟨query, layout, rfl, ?_⟩
    rw [hrun] at hsuccess ⊢
    unfold ofFlow at hsuccess ⊢
    cases hend : (query.flow schema).failureAtEnd with
    | none => exact ⟨hend, rfl⟩
    | some failure =>
      rw [hend] at hsuccess
      cases hsuccess

/-- **Streaming loses, duplicates and reorders nothing, and is never stuck.** Execute any select on
tables in memory, and let it come to rows without an error. Its job is compiled and set up, and its
tasks are then processes that stream exactly these rows to whoever reads them, through channels with
as much room as the configuration says, and in whatever order they move. -/
theorem streaming (hschema : schema.InMemory) (hplanner : spec.planner = Planner.inMemory)
    (hvisitor : spec.visitor = none) (hparse : Compiling.parse spec.raw = .ok (.select select))
    (hsuccess : (Execution.run spec (.start (some schema) spec.config)).1.failure = none) :
    ∃ rows, (Execution.run spec (.start (some schema) spec.config)).1.rows = some rows ∧
      ∃ job ready world root net,
        Job.new.compile spec.driving (.start (some schema) spec.config) = ((.ok (), job), world) ∧
        Job.setup spec.driving job world = ((.ok (), ready), world) ∧
        (Job.mapDrain spec.driving ready (.moveTo .held)).root = some root ∧
        root.network none = some net ∧
        net.Streams (Channel.capacity spec.config) rows := by
  obtain ⟨query, layout, hquery, hcomplete, hrows⟩ :=
    query_of_run hschema hplanner hvisitor hparse hsuccess
  have hleaves : ∀ call, Compiling.Leaves (startContext spec schema) spec.visitor call := by
    rw [hvisitor]
    exact Compiling.leaves_none
  have hdoes : Compiling.Does (startContext spec schema) .empty (Compiling.compile spec.visitor)
      ((Query.ofSelect schema select).map fun query => (query.1.task, query.2)) :=
    does_select hplanner hparse (hleaves _) fun call _ => hleaves call
  rw [hquery] at hdoes
  obtain ⟨hcompiled, -, -⟩ := compiled_of_does hdoes
  have hreads : query.Reads schema := (Query.binds_ofSelect hquery).reads hschema
  obtain ⟨-, prepared, hsetup, -, hsame, hnet⟩ := Query.opens hreads
  have hchain : prepared.isChain = true := hsame.trans (Query.isRoot_ofSelect hquery).isChain
  have hcapacity : 0 < Channel.capacity spec.config := Nat.le_max_right _ _
  refine ⟨_, hrows, _, _, _, prepared.mapOutlet (.moveTo .held), query.network schema,
    compile_new hcompiled, setup_compiled hsetup, ?_, ?_,
    ((Query.begins hcomplete).delivers.streams hcapacity)⟩
  · exact congrArg Job.root (mapDrain_of_isChain hchain)
  · rw [Task.network_mapOutlet]
    exact hnet

/-- A left join and groups are streamed through channels with room for a single row, however little
room the configuration asks for. -/
theorem streaming_family :
    let spec : JobSpec :=
      ⟨"SELECT name, COUNT(*) FROM people LEFT JOIN pets ON id = owner GROUP BY name", ⟨0, false⟩,
        .inMemory, none⟩
    ∃ rows, (Execution.run spec (.start (some .family) spec.config)).1.rows = some rows ∧
      ∃ job ready world root net,
        Job.new.compile spec.driving (.start (some .family) spec.config) = ((.ok (), job), world) ∧
        Job.setup spec.driving job world = ((.ok (), ready), world) ∧
        (Job.mapDrain spec.driving ready (.moveTo .held)).root = some root ∧
        root.network none = some net ∧ net.Streams 1 rows := by
  intro spec
  have hparse : Compiling.parse spec.raw = .ok (.select petCounts) := by cbv
  obtain ⟨-, hruns⟩ := run_select Schema.inMemory_family rfl rfl hparse
  obtain ⟨last, -, -, hrun⟩ := hruns _ _ rfl
  have hsuccess : (Execution.run spec (.start (some .family) spec.config)).1.failure = none :=
    (congrArg (fun found => found.1.failure) hrun).trans rfl
  exact streaming Schema.inMemory_family rfl rfl hparse hsuccess

end Execution
end SqlPipeline
