import SqlPipeline.Job.Execution
import SqlPipeline.Proofs.Job.Calls
import SqlPipeline.Proofs.Plan.Does
import SqlPipeline.Proofs.Task.Gives

/-!
# What an execution comes to

A statement is executed by compiling it, setting up the root, running it and closing it. When the
root is known to give a flow (`Task.Gives`), nothing is left to find out: the execution is done with
the rows of the flow or stopped in its run by the failure of the flow
(`Execution.run_of_gives`). When compiling fails, that is all that happens
(`Execution.run_of_compile_error`).
-/

namespace SqlPipeline

namespace Task

variable {f : Handoff → Handoff} {task : Task}

theorem drain?_of_isChain (h : task.isChain = true) : task.drain? = some task.outlet := by
  -- the rows of a sequence are held by the last of its tasks
  have hlast : ∀ (own : Handoff) (first : Task) (rest : List Task),
      (first :: rest).getLast?.map outlet = some (outletAfter own (first :: rest)) := by
    intro own first rest
    induction rest generalizing own first with
    | nil => rfl
    | cons next rest ih => rw [List.getLast?_cons_cons]; exact ih first.outlet next
  cases task with
  | leaf own => cases h
  | join kind on rightWidth ends wired left right => cases h
  | sequence name out children =>
    cases children with
    | nil => cases h
    | cons first rest => exact hlast out first rest

theorem mapDrain_of_isChain (h : task.isChain = true) : task.mapDrain f = task.mapOutlet f := by
  cases task with
  | leaf own => cases h
  | join kind on rightWidth ends wired left right => cases h
  | sequence name out children =>
    cases children with
    | nil => cases h
    | cons first rest => rfl

mutual

/-- Closing a task gives the same errors wherever its rows went. -/
theorem close_mapOutlet (f : Handoff → Handoff) :
    ∀ task : Task, (task.mapOutlet f).close.1 = task.close.1
  | leaf ⟨name, ends, work⟩ => by cases work <;> rfl
  | join kind on rightWidth ends wired left right => rfl
  | sequence name out [] => rfl
  | sequence name out (first :: rest) => by
    -- only the last task is another one, and it closes as before
    have hall := closeAll_mapLastOutlet f (first :: rest) .empty
    exact congrArg ErrorList.toResult hall

theorem closeAll_mapLastOutlet (f : Handoff → Handoff) :
    ∀ (tasks : List Task) (errors : ErrorList),
      (closeAll errors (mapLastOutlet f tasks)).1 = (closeAll errors tasks).1
  | [], _ => rfl
  | [task], errors => by
    simp only [mapLastOutlet, closeAll, close_mapOutlet f task]
  | task :: next :: rest, errors => by
    simp only [mapLastOutlet, closeAll]
    exact closeAll_mapLastOutlet f (next :: rest) _

end

mutual

/-- A change that leaves the outlet of a task as it is leaves the task as it is. -/
theorem mapOutlet_eq_self {f : Handoff → Handoff} :
    ∀ {task : Task}, f task.outlet = task.outlet → task.mapOutlet f = task
  | leaf ⟨name, ends, work⟩, h => by
    have hout : f ends.out = ends.out := h
    rw [mapOutlet, hout]
  | join kind on rightWidth ends wired left right, h => by
    have hout : f ends.out = ends.out := h
    rw [mapOutlet, hout]
  | sequence name out [], h => by
    have hout : f out = out := h
    rw [mapOutlet, hout]
  | sequence name out (first :: rest), h =>
    congrArg (sequence name out) (mapLastOutlet_eq_self out h)

theorem mapLastOutlet_eq_self {f : Handoff → Handoff} :
    ∀ {tasks : List Task} (own : Handoff),
      f (outletAfter own tasks) = outletAfter own tasks → mapLastOutlet f tasks = tasks
  | [], own, h => rfl
  | [task], own, h => by
    have houtlet : f task.outlet = task.outlet := h
    rw [mapLastOutlet, mapOutlet_eq_self houtlet]
  | task :: next :: rest, own, h =>
    congrArg (task :: ·) (mapLastOutlet_eq_self task.outlet h)

end

theorem isChain_mapOutlet (f : Handoff → Handoff) (task : Task) :
    (task.mapOutlet f).isChain = task.isChain := by
  cases task with
  | leaf own => rfl
  | join kind on rightWidth ends wired left right => rfl
  | sequence name out children =>
    match children with
    | [] => rfl
    | [first] => rfl
    | first :: next :: rest => rfl

end Task

/-- Numbering rows leaves the rows. -/
theorem Handoff.rows_number (rows : List Row) : (Handoff.number rows).map Message.row = rows := by
  unfold number
  rw [List.map_map]
  exact List.zipIdx_map_fst 0 rows

/-! ## The steps of a job -/

namespace Execution

variable {spec : JobSpec} {world : World} {root prepared : Task} {before after : Schema}
  {flow : Flow}

def context (spec : JobSpec) (world : World) : Context :=
  ⟨spec.raw, world.schema, spec.config, spec.planner⟩

def compiled (spec : JobSpec) (world : World) : Result Task × Compilation :=
  ((Compiling.compile spec.visitor (context spec world)).run).run world.compilation

def ofFlow (root : Task) (flow : Flow) : Execution :=
  match flow.failureAtEnd with
  | none => ⟨.done, some root, some .finished, some flow.rows, none⟩
  | some failure => ⟨.run, some root, some (Job.stateAfter (.error failure)), none, some failure⟩

def afterCompiling (spec : JobSpec) (world : World) : World :=
  { world with compilation := (compiled spec world).2 }

theorem compile_new (h : (compiled spec world).1 = .ok root) :
    Job.new.compile spec.driving world =
      ((.ok (), ⟨.compiled, some root⟩), afterCompiling spec world) := by
  have hcompile : spec.driving.compile world = (.ok root, afterCompiling spec world) := by
    rw [← h]
    rfl
  unfold Job.compile
  rw [if_neg (by decide), bind_apply, hcompile]
  rfl

/-- A job that was compiled has the root that was compiled. -/
theorem compile_eq_ok {job : StatementJob} {last : World}
    (h : Job.new.compile spec.driving world = ((.ok (), job), last)) :
    ∃ root, (compiled spec world).1 = .ok root ∧ job = ⟨.compiled, some root⟩ ∧
      last = afterCompiling spec world := by
  have hcompile : spec.driving.compile world =
      ((compiled spec world).1, afterCompiling spec world) := rfl
  rw [Job.compile_of_created rfl, hcompile] at h
  cases hresult : (compiled spec world).1 with
  | error error => rw [hresult] at h; cases h
  | ok root => rw [hresult] at h; cases h; exact ⟨root, rfl, rfl, rfl⟩

theorem setup_compiled (h : root.setup world.tables = (.ok (), prepared)) :
    Job.setup spec.driving ⟨.compiled, some root⟩ world =
      ((.ok (), ⟨.setUp, some prepared⟩), world) := by
  have hsetup : spec.driving.setup root world = ((.ok (), prepared), world) := by
    rw [← h]
    rfl
  unfold Job.setup
  dsimp only
  rw [if_neg (by decide), bind_apply, hsetup]
  rfl

/-- A job is set up by setting up its root, which leaves everything else alone. -/
theorem setup_eq {ready : StatementJob} {last : World} {result : Result Unit}
    (h : Job.setup spec.driving ⟨.compiled, some root⟩ world = ((result, ready), last)) :
    ∃ prepared, root.setup world.tables = (result, prepared) ∧ last = world ∧
      (result = .ok () → ready = ⟨.setUp, some prepared⟩) := by
  have hsetup : spec.driving.setup root world = (root.setup world.tables, world) := rfl
  rw [Job.setup_of_compiled rfl rfl, hsetup] at h
  rcases hfound : root.setup world.tables with ⟨error | done, prepared⟩
  · rw [hfound] at h
    cases h
    exact ⟨prepared, rfl, rfl, fun hok => by cases hok⟩
  · rw [hfound] at h
    cases h
    exact ⟨prepared, rfl, rfl, fun _ => rfl⟩

/-- A root that starts is run for any reader as its flow comes out. Only a reader that stops the job
tells it anything. -/
theorem run_of_launch {task ran : Task} (reader : Reader) (hschema : world.schema = some before)
    (h : task.launch world.signals .empty before = (.ok flow, ran, after)) :
    ∃ shutdown, (reader = .collecting → shutdown = world.signals.shutdown) ∧
      Task.run reader task world = ((Task.outcomeFor world.signals flow reader, ran),
        World.setSignals { world with schema := some after } { world.signals with shutdown }) := by
  have htables : world.tables = before := by
    unfold World.tables
    rw [hschema]
    rfl
  have hset : world.setTables after = { world with schema := some after } := by
    unfold World.setTables
    rw [hschema]
    rfl
  have hget : (get : StateM World World) world = (world, world) := rfl
  unfold Task.run
  rw [bind_apply, hget, htables, h]
  dsimp only
  rw [bind_apply, hset]
  exact ⟨_, (fun hreader => by rw [hreader]), rfl⟩

/-- Running a prepared root for the job itself lets its flow go where its rows are held. -/
theorem run_collecting {ran : Task} (hschema : world.schema = some before)
    (h : (prepared.mapOutlet (.moveTo .held)).launch world.signals .empty before =
      (.ok flow, ran, after)) :
    Task.run .collecting (prepared.mapOutlet (.moveTo .held)) world =
      ((Task.outcomeFor world.signals flow .collecting, ran),
        { world with schema := some after }) := by
  obtain ⟨shutdown, hshutdown, hrun⟩ := run_of_launch .collecting hschema h
  -- nothing was told to the job, so its signals are those from before
  rw [hrun, hshutdown rfl]
  rfl

/-- What a task gives by itself is collected like the rows of a root. -/
theorem collect_of_gives {task : Task} (hschema : world.schema = some before)
    (hshutdown : world.signals.shutdown = false)
    (h : task.Gives world.signals before flow after) :
    (task.collect world).1.1 = flow.outcome.map fun _ => some flow.rows := by
  obtain ⟨-, prepared, hsetup, hout, -, hsends⟩ := h
  obtain ⟨ran, hlaunch, hranOut, -, -⟩ := hsends .held (by decide)
  have htables : world.tables = before := by
    unfold World.tables
    rw [hschema]
    rfl
  have hsetup : task.setup world.tables = (.ok (), prepared) := htables ▸ hsetup
  have houtcome : Task.outcomeFor world.signals flow .collecting = flow.outcome := by
    unfold Task.outcomeFor
    rw [hshutdown]
    rfl
  have hrows : ran.outlet.messages.map Message.row = flow.rows := by
    rw [hranOut]
    exact Handoff.rows_number flow.rows
  have hget : (get : StateM World World) world = (world, world) := rfl
  unfold Task.collect
  rw [bind_apply, hget]
  dsimp only
  rw [hsetup]
  dsimp only
  rw [if_neg (by rw [hout]; decide), bind_apply, run_collecting hschema hlaunch]
  dsimp only
  rw [hrows, houtcome]
  rfl

/-- A job whose prepared root sends a flow is run as that flow comes out, and leaves its tables. -/
theorem run_setUp (reader : Reader) (hschema : world.schema = some before)
    (hout : prepared.outlet = .new)
    (hsends : prepared.Sends world.signals .empty before flow after) :
    (Job.run spec.driving ⟨.setUp, some prepared⟩ reader world).1.1 =
        Task.outcomeFor world.signals flow reader ∧
      (Job.run spec.driving ⟨.setUp, some prepared⟩ reader world).2.schema = some after := by
  -- nobody has asked for the rows, so they stay where they are sent
  obtain ⟨ran, hlaunch, -⟩ := hsends .available (by decide)
  rw [Task.mapOutlet_eq_self (by rw [hout]; rfl)] at hlaunch
  obtain ⟨shutdown, -, hrun⟩ := run_of_launch reader hschema hlaunch
  unfold Job.run
  dsimp only
  rw [if_neg (not_not_intro rfl), bind_apply, show spec.driving.run = Task.run from rfl, hrun]
  exact ⟨rfl, rfl⟩

/-- A job that runs its root while it receives the rows ends up as if it had only run the root. -/
theorem settled_runJoined (spec : JobSpec) {outcome : Except Failure Unit} {ran : Task} {last : World}
    (hrun : Task.run .collecting prepared world = ((outcome, ran), last)) :
    ∃ job, Job.runJoined spec.driving ⟨.setUp, some prepared⟩ world = ((outcome, job), last) ∧
      job.settled outcome = ⟨Job.stateAfter outcome, some ran⟩ := by
  have hjoined {joined : Joined} (h : Task.runJoined prepared world = ((joined, ran), last)) :
      Job.runJoined spec.driving ⟨.setUp, some prepared⟩ world =
        ((joined.result, ⟨Job.stateJoined joined, some ran⟩), last) := by
    unfold Job.runJoined
    dsimp only
    rw [if_neg (by decide), bind_apply, show spec.driving.runJoined = Task.runJoined from rfl, h]
    rfl
  unfold Task.runJoined at hjoined
  rw [bind_apply, hrun] at hjoined
  match outcome with
  | .ok () => exact ⟨_, hjoined rfl, rfl⟩
  | .error (.panic _) => exact ⟨_, hjoined rfl, rfl⟩
  | .error (.error error) =>
    cases error with
    | shuttingDown => exact ⟨_, hjoined rfl, rfl⟩
    | _ => exact ⟨_, hjoined rfl, rfl⟩

/-- The rows of a job are those of its root. -/
theorem drain_of_isChain {state : JobState} (h : root.isChain = true) :
    Job.drain spec.driving ⟨state, some root⟩ = .ok root.outlet := by
  have hroot : spec.driving.drain? root = some root.outlet := Task.drain?_of_isChain h
  unfold Job.drain
  simp only [hroot]

theorem mapDrain_of_isChain {state : JobState} {f : Handoff → Handoff} (h : root.isChain = true) :
    Job.mapDrain spec.driving ⟨state, some root⟩ f = ⟨state, some (root.mapOutlet f)⟩ := by
  rw [← Task.mapDrain_of_isChain h]
  rfl

/-- Collecting the rows of a prepared root runs it once and takes everything that it sent. -/
theorem collect_setUp {ran : Task} (hschema : world.schema = some before)
    (hchain : prepared.isChain = true) (hout : prepared.outlet = .new)
    (hlaunch : (prepared.mapOutlet (.moveTo .held)).launch world.signals .empty before =
      (.ok flow, ran, after))
    (hranChain : ran.isChain = true)
    (hranOut : ran.outlet = Handoff.deliver ⟨[], false, .held⟩ flow.rows) :
    let outcome := Task.outcomeFor world.signals flow .collecting
    Job.collect spec.driving ⟨.setUp, some prepared⟩ world =
      ((outcome.map fun _ => flow.rows,
        ⟨Job.stateAfter outcome, some ((ran.mapOutlet .drain).mapOutlet .drop)⟩),
        { world with schema := some after }) := by
  intro outcome
  -- what collecting does, in order: look at the outlet, hold it, run, take what was sent, drop it
  have hdrain : Job.drain spec.driving ⟨.setUp, some prepared⟩ = .ok .new :=
    hout ▸ drain_of_isChain hchain
  have hmap : Job.mapDrain spec.driving ⟨.setUp, some prepared⟩ (.moveTo .held) =
      ⟨.setUp, some (prepared.mapOutlet (.moveTo .held))⟩ := mapDrain_of_isChain hchain
  obtain ⟨joined, hrun, hsettled⟩ :=
    settled_runJoined spec (run_collecting hschema hlaunch)
  have hreceive : Job.receive spec.driving ⟨Job.stateAfter outcome, some ran⟩ =
      (Handoff.number flow.rows, ⟨Job.stateAfter outcome, some (ran.mapOutlet .drain)⟩) := by
    have h : Job.drain spec.driving ⟨Job.stateAfter outcome, some ran⟩ =
        .ok (Handoff.deliver ⟨[], false, .held⟩ flow.rows) := hranOut ▸ drain_of_isChain hranChain
    unfold Job.receive
    rw [h, mapDrain_of_isChain hranChain]
    rfl
  have hdrop : Job.mapDrain spec.driving
      ⟨Job.stateAfter outcome, some (ran.mapOutlet .drain)⟩ Handoff.drop =
        ⟨Job.stateAfter outcome, some ((ran.mapOutlet .drain).mapOutlet .drop)⟩ :=
    mapDrain_of_isChain ((Task.isChain_mapOutlet _ _).trans hranChain)
  unfold Job.collect
  dsimp only
  rw [if_neg (by decide), hdrain]
  dsimp only
  rw [if_neg (by decide), bind_apply, hmap, hrun]
  dsimp only
  rw [hsettled, hreceive]
  dsimp only
  rw [hdrop, Handoff.rows_number]
  rfl

/-- Closing a root that closes without an error reports only what went wrong before. -/
theorem closing_of_close {phase : Phase} {rows : Option (List Row)} {failure : Option Failure}
    {state : JobState} {ran : Task} (hclose : ran.close.1 = .ok ()) (hstate : state ≠ .closed) :
    closing spec phase (some root) rows failure ⟨state, some ran⟩ =
      ⟨if failure.isSome then phase else .done, some root, some state, rows, failure⟩ := by
  have hclosed : (Job.close spec.driving ⟨state, some ran⟩).1 = .ok () := by
    unfold Job.close
    rw [if_neg hstate]
    exact hclose
  unfold closing
  rw [show Job.close spec.driving ⟨state, some ran⟩ =
    (.ok (), (Job.close spec.driving ⟨state, some ran⟩).2) from Prod.ext hclosed rfl]
  cases failure <;> rfl

/-! ## The execution as a whole -/

/-- **A statement whose root gives a flow is done with the rows of the flow, or stopped in its run
by the failure of the flow.** -/
theorem run_of_gives (hcompiled : (compiled spec world).1 = .ok root)
    (hschema : world.schema = some before)
    (hshutdown : (compiled spec world).2.effects.signals.shutdown = false)
    (hchain : root.isChain = true)
    (hgives : root.Gives (compiled spec world).2.effects.signals before flow after) :
    Execution.run spec world =
      (ofFlow root flow, { afterCompiling spec world with schema := some after }) := by
  obtain ⟨-, prepared, hsetup, hout, hpreparedChain, hsends⟩ := hgives
  obtain ⟨ran, hlaunch, hranOut, hclose, hranChain⟩ := hsends .held (by decide)
  have htables : (afterCompiling spec world).tables = before := by
    unfold World.tables
    rw [show (afterCompiling spec world).schema = some before from hschema]
    rfl
  -- closing asks nothing about the rows, which were taken out in the meantime
  have hcloseRan : ((ran.mapOutlet Handoff.drain).mapOutlet .drop).close.1 = .ok () := by
    rw [Task.close_mapOutlet, Task.close_mapOutlet, hclose]
  have hcollect :
      Job.collect spec.driving ⟨.setUp, some prepared⟩ (afterCompiling spec world) = _ :=
    collect_setUp hschema (hpreparedChain.trans hchain) hout hlaunch
      (hranChain.trans (hpreparedChain.trans hchain)) hranOut
  have houtcome : Task.outcomeFor (afterCompiling spec world).signals flow .collecting =
      flow.outcome := by
    unfold Task.outcomeFor
    rw [show (afterCompiling spec world).signals.shutdown = false from hshutdown]
    rfl
  rw [houtcome] at hcollect
  unfold Execution.run
  rw [bind_apply, compile_new hcompiled]
  dsimp only
  rw [bind_apply, setup_compiled (htables ▸ hsetup)]
  dsimp only
  rw [bind_apply, hcollect]
  dsimp only
  rw [closing_of_close hcloseRan (by unfold Job.stateAfter; split <;> decide)]
  unfold ofFlow Flow.outcome
  cases flow.failureAtEnd <;> rfl

/-- A statement that does not compile changes no table. -/
theorem run_of_compile_error {error : Error} (h : (compiled spec world).1 = .error error) :
    Execution.run spec world =
      (⟨.compile, none, none, none, some (.error error)⟩, afterCompiling spec world) := by
  have hcompile : spec.driving.compile world = (.error error, afterCompiling spec world) := by
    rw [← h]
    rfl
  have hnew : Job.new.compile spec.driving world =
      ((.error error, Job.new), afterCompiling spec world) := by
    unfold Job.compile
    rw [if_neg (by decide), bind_apply, hcompile]
    rfl
  unfold Execution.run
  rw [bind_apply, hnew]
  rfl

/-! ## Statements whose compilation is known -/

/-- A text is compiled into the task of its one statement, if that can be run and the visitor leaves
the statement to the job. -/
theorem does_compile {context : Context} {visitor : Option Visitor} {statement : Sql.Statement}
    {result : Result (Task × Layout)} (hparse : Compiling.parse context.raw = .ok statement)
    (hleaves : Compiling.Leaves context visitor (.statement statement))
    (hstatement : Compiling.Does context .empty (Compiling.statement visitor statement) result)
    (hrunnable : ∀ found, result = .ok found → found.1.runnable = .ok found.1) :
    Compiling.Does context .empty (Compiling.compile visitor) result := by
  have hvisit : Compiling.Does context .empty (Compiling.visit visitor statement)
      (result.map fun found => (Visit.done (some found.1), found.2)) :=
    Compiling.does_then (Compiling.does_consult_leaves hleaves)
      (Compiling.does_map (fun task => Visit.done (some task)) hstatement)
  -- the task that is made is checked once more by the job itself
  have hrun : ∀ found : Task × Layout, result = .ok found →
      Compiling.Does context found.2 (Compiling.ofResult found.1.runnable) (.ok found) := by
    intro found hfound
    rw [hrunnable found hfound]
    exact Compiling.does_pure found.1
  refine Compiling.does_then Compiling.does_read ?_
  dsimp only
  rw [hparse]
  refine Compiling.does_then (Compiling.does_pure statement) ?_
  refine Compiling.does_then (Compiling.does_modify (fun _ => rfl) (fun _ => rfl)) ?_
  have hbind : (result >>= fun found => .ok found) = result := by cases result <;> rfl
  rw [← hbind]
  exact Compiling.does_bind_map hvisit hrun

section

variable {schema : Schema} {layout : Layout}

/-- The context in which a statement is compiled at the start of a job. -/
abbrev startContext (spec : JobSpec) (schema : Schema) : Context :=
  ⟨spec.raw, some schema, spec.config, spec.planner⟩

/-- What compiling comes to at the start of a job on a schema. -/
theorem compiled_of_does {result : Result (Task × Layout)}
    (h : Compiling.Does (startContext spec schema) .empty
      (Compiling.compile spec.visitor) result) :
    let found := compiled spec (.start (some schema) spec.config)
    found.1 = result.map Prod.fst ∧ found.2.effects.signals.shutdown = false ∧
      ∀ task after, result = .ok (task, after) → found.2.layout = after := by
  obtain ⟨left, hrun, hsignals, hlayout⟩ := h (.start spec.config) rfl
  have hcompiled : compiled spec (.start (some schema) spec.config) =
      (result.map Prod.fst, left) := hrun
  intro found
  rw [show found = (result.map Prod.fst, left) from hcompiled]
  exact ⟨rfl, congrArg Signals.shutdown hsignals, hlayout⟩

/-- A statement that cannot be compiled leaves the schema as it was. -/
theorem run_of_does_error {error : Error}
    (h : Compiling.Does (startContext spec schema) .empty
      (Compiling.compile spec.visitor) (.error error)) :
    ∃ last : World, last.schema = some schema ∧
      Execution.run spec (.start (some schema) spec.config) =
        (⟨.compile, none, none, none, some (.error error)⟩, last) := by
  obtain ⟨hfailed, -, -⟩ := compiled_of_does h
  exact ⟨_, rfl, run_of_compile_error hfailed⟩

/-- **A statement that is compiled into a root that gives a flow comes to that flow**, to the tables
that it leaves, and to the layout of the root. -/
theorem run_of_does (hchain : root.isChain = true)
    (h : Compiling.Does (startContext spec schema) .empty
      (Compiling.compile spec.visitor) (.ok (root, layout)))
    (hgives : ∀ signals : Signals, signals.shutdown = false →
      root.Gives signals schema flow after) :
    ∃ last : World, last.schema = some after ∧ last.compilation.layout = layout ∧
      Execution.run spec (.start (some schema) spec.config) = (ofFlow root flow, last) := by
  obtain ⟨hok, hshutdown, hlayout⟩ := compiled_of_does h
  exact ⟨_, rfl, hlayout root layout rfl,
    run_of_gives hok rfl hshutdown hchain (hgives _ hshutdown)⟩

end

end Execution
end SqlPipeline
