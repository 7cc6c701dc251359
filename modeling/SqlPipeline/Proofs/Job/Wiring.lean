import Mathlib
import SqlPipeline.Proofs.Change.Exact
import SqlPipeline.Proofs.Job.Calls
import SqlPipeline.Proofs.Plan.Deferring
import SqlPipeline.Proofs.Query.Run
import SqlPipeline.Proofs.Task.Wiring

/-!
# Compiled jobs are wired

Whatever a statement is compiled into is a tree of the shape in which wiring cannot go wrong
(`Task.Fresh`): the tree of a query, the tasks of a change, or the rows that answer a question about
tables and settings. What is compiled is followed only as far as it succeeds
(`Planning.Yields`, `Compiling.Yields`), since a visitor may look at settings and change them.

From that, **a compiled job is set up unless one of its tables refuses, and a job that is set up
starts all its tasks and gives its rows to the first who asks** (`Execution.setup_wired`).
-/

namespace SqlPipeline

open Sql (Statement Select)

variable {α β : Type} {context : Context} {schema : Schema}

/-! ## What steps yield if they succeed -/

namespace Planning

/-- If the step succeeds, wherever it is taken, its value is of the given kind. -/
def Yields (context : Context) (step : Planning α) (P : α → Prop) : Prop :=
  ∀ effects a left, ((step context).run).run effects = (.ok a, left) → P a

variable {P : α → Prop}

theorem yields_throw (error : Error) : Yields context (throw error : Planning α) P := by
  intro effects a left h
  cases h

/-- A step yields what the last part of it yields. -/
theorem yields_bind {step : Planning β} {next : β → Planning α}
    (hnext : ∀ b, Yields context (next b) P) : Yields context (step >>= next) P := by
  intro effects a left h
  rw [run_bind] at h
  rcases hrun : ((step context).run).run effects with ⟨error | b, between⟩
  · rw [hrun] at h
    cases h
  · rw [hrun] at h
    exact hnext b between a left h

theorem yields_of_does {step : Planning α} {a : α} (h : Does context step (.ok a)) (ha : P a) :
    Yields context step P := by
  intro effects b left hrun
  obtain ⟨requests, hdoes⟩ := h effects
  rw [hdoes] at hrun
  cases hrun
  exact ha

end Planning

namespace Compiling

/-- If the step succeeds, wherever it is taken, its value is of the given kind. -/
def Yields (context : Context) (step : Compiling α) (P : α → Prop) : Prop :=
  ∀ compilation a left, ((step context).run).run compilation = (.ok a, left) → P a

variable {P : α → Prop} {Q : β → Prop}

theorem yields_pure {a : α} (h : P a) : Yields context (pure a) P := by
  intro compilation b left hrun
  cases hrun
  exact h

theorem yields_throw (error : Error) : Yields context (throw error : Compiling α) P := by
  intro compilation a left h
  cases h

theorem yields_any (step : Compiling α) : Yields context step fun _ => True := by
  intro compilation a left h
  trivial

theorem yields_bind {step : Compiling β} {next : β → Compiling α} (hstep : Yields context step Q)
    (hnext : ∀ b, Q b → Yields context (next b) P) : Yields context (step >>= next) P := by
  intro compilation a left h
  rw [run_bind] at h
  rcases hrun : ((step context).run).run compilation with ⟨error | b, between⟩
  · rw [hrun] at h
    cases h
  · rw [hrun] at h
    exact hnext b (hstep compilation b between hrun) between a left h

theorem yields_plan {step : Planning α} (h : Planning.Yields context step P) :
    Yields context (plan step) P := by
  intro compilation a left hrun
  rw [run_plan] at hrun
  rcases hstep : ((step context).run).run compilation.effects with ⟨result, effects⟩
  rw [hstep] at hrun
  cases hrun
  exact h compilation.effects a effects hstep

theorem yields_ofResult {result : Result α} (h : ∀ a, result = .ok a → P a) :
    Yields context (ofResult result) P := by
  refine yields_plan ?_
  cases result with
  | error error => exact Planning.yields_throw error
  | ok a => exact Planning.yields_of_does (Planning.does_pure a) (h a rfl)

theorem yields_of_does {step : Compiling α} {result : Result (α × Layout)}
    (h : ∀ before, Does context before step result)
    (hresult : ∀ a after, result = .ok (a, after) → P a) : Yields context step P := by
  intro compilation a left hrun
  obtain ⟨last, hdoes, -⟩ := h compilation.layout compilation rfl
  rw [hdoes] at hrun
  cases result with
  | error error => cases hrun
  | ok found => cases hrun; exact hresult found.1 found.2 rfl

end Compiling

/-! ## Trees of statements -/

namespace Task

/-- A tree was just compiled for a statement: nothing in it is connected, and it is a sequence, from
which rows are taken as from the last of its tasks. -/
structure IsRoot (schema : Schema) (task : Task) : Prop where
  fresh : task.Fresh schema
  isChain : task.isChain = true

/-- A task that is run is the task that was checked. -/
theorem runnable_eq_ok {task found : Task} (h : task.runnable = .ok found) : found = task := by
  unfold runnable at h
  split at h
  · split at h
    · cases h
      rfl
    · cases h
  · cases h
    rfl

end Task

/-- The tree of a query that fits a layout reads tables that are there. -/
theorem Query.Binds.fresh {query : Query} {layout : Layout} (h : query.Binds schema layout) :
    query.task.Fresh schema := by
  induction h with
  | values hrows => exact .work rfl trivial
  | source htable => exact .work rfl ⟨_, htable⟩
  | join hleft hright hon ihleft ihright => exact .join ihleft ihright
  | @sequence name first steps before after hfirst hsteps ih =>
    have hworks : ∀ own ∈ steps.map Step.own,
        own.2.readsInput = true ∧ own.2.Stands schema := by
      intro own hown
      obtain ⟨step, -, rfl⟩ := List.mem_map.mp hown
      refine ⟨step.readsInput, ?_⟩
      cases step <;> trivial
    rw [Query.task, Step.map_task]
    exact .sequence ih hworks

theorem Query.isRoot_ofSelect {select : Select} {query : Query} {layout : Layout}
    (h : Query.ofSelect schema select = .ok (query, layout)) : query.task.IsRoot schema := by
  refine ⟨(Query.binds_ofSelect h).fresh, ?_⟩
  obtain ⟨rows, -, h⟩ := Result.bind_eq_ok.mp h
  obtain ⟨steps, -, h⟩ := Result.bind_eq_ok.mp h
  cases h
  rfl

/-- The tree of a change is about a table that is there and has the columns it writes. -/
theorem ChangePlan.isRoot_ofStatement {statement : Statement} {name : Sql.ObjectName}
    {plan : ChangePlan} (htarget : statement.target? = some name)
    (h : ChangePlan.ofStatement schema statement = .ok plan) : plan.task.IsRoot schema := by
  obtain ⟨-, table, htable, -, hstands⟩ := ChangePlan.exists_stands htarget h
  have hwork : plan.own.2.Stands schema := ⟨table, htable, hstands.beyond?_eq_none⟩
  unfold ChangePlan.task
  by_cases hreads : plan.change.readsRows = true
  · rw [if_pos hreads]
    have hvalues : (Task.values plan.rows).Fresh schema := .work rfl trivial
    have hworks : ∀ own ∈ [plan.own], own.2.readsInput = true ∧ own.2.Stands schema := by
      intro own hown
      rw [List.mem_singleton.mp hown]
      exact ⟨hreads, hwork⟩
    exact ⟨.sequence hvalues hworks, rfl⟩
  · rw [if_neg hreads]
    rw [Bool.not_eq_true] at hreads
    have hmutation : plan.mutation.Fresh schema := .work hreads hwork
    exact ⟨hmutation.single, rfl⟩

/-! ## Statements are compiled into such trees -/

namespace Metadata

/-- The visit left the statement to the job or answered it with a tree. -/
def Answers (schema : Schema) (visit : Visit) : Prop :=
  ∀ task, visit.task = some task → task.IsRoot schema

theorem yields_answer (hplanner : context.planner = Planner.inMemory) (name : String)
    (rows : List Row) : Planning.Yields context (answer name rows) (Answers schema) := by
  have hdoes : Planning.Does context (answer name rows)
      (.ok (.done (some (Task.inSequence name [Task.values rows])))) :=
    Planning.does_then (Planning.does_inMemory hplanner (.values rows))
      (Planning.does_then (Planning.does_inMemory hplanner (.sequence name [Task.values rows]))
        (Planning.does_pure _))
  refine Planning.yields_of_does hdoes ?_
  intro task htask
  cases htask
  have hvalues : (Task.values rows).Fresh schema := .work rfl trivial
  exact ⟨hvalues.single, rfl⟩

theorem yields_set (hplanner : context.planner = Planner.inMemory) (change : Sql.SetVariable) :
    Planning.Yields context (set change) (Answers schema) := by
  unfold set
  refine Planning.yields_bind ?_
  intro bound
  refine Planning.yields_bind ?_
  intro value
  refine Planning.yields_bind ?_
  intro own
  refine Planning.yields_bind ?_
  intro config
  split
  · refine Planning.yields_bind ?_
    intro done
    exact yields_answer hplanner _ _
  · exact Planning.yields_throw _

/-- What the visitor of metadata does not leave to the job, it answers. -/
theorem yields_visitor (hplanner : context.planner = Planner.inMemory) (history : List Call)
    (statement : Statement) :
    Planning.Yields context (visitor history (.statement statement)) (Answers schema) := by
  have hdeferred : Planning.Yields context (pure .deferred) (Answers schema) :=
    Planning.yields_of_does (Planning.does_pure _) (fun task htask => by cases htask)
  cases statement with
  | showing what =>
    cases what with
    | tables =>
      show Planning.Yields context (read >>= _) _
      refine Planning.yields_bind ?_
      intro own
      cases own.schema with
      | none => exact Planning.yields_throw _
      | some found => exact yields_answer hplanner _ _
    | columns table => exact Planning.yields_bind fun rows => yields_answer hplanner _ _
    | «variable» name => exact Planning.yields_bind fun text => yields_answer hplanner _ _
  | describe table => exact Planning.yields_bind fun rows => yields_answer hplanner _ _
  | set change => exact yields_set hplanner change
  | _ => exact hdeferred

end Metadata

namespace Compiling

variable {visitor : Option Visitor}

/-- There is no visitor, or that of metadata. -/
def Ordinary (visitor : Option Visitor) : Prop :=
  visitor = none ∨ visitor = some Metadata.visitor

/-- Such a visitor leaves all clauses to the job. -/
theorem Ordinary.leaves_clause (h : Ordinary visitor) {call : Call}
    (hcall : ∀ statement, call ≠ .statement statement) : Leaves context visitor call := by
  rcases h with rfl | rfl
  · exact leaves_none call
  · intro asked hasked history
    cases hasked
    cases call with
    | statement statement => exact absurd rfl (hcall statement)
    | _ => exact Planning.does_pure _

/-- Such a visitor leaves to the job all statements but those about metadata. -/
theorem Ordinary.leaves_statement (h : Ordinary visitor) {statement : Statement}
    (hstatement : statement.isMetadata = false) :
    Leaves context visitor (.statement statement) := by
  rcases h with rfl | rfl
  · exact leaves_none _
  · intro asked hasked history
    cases hasked
    cases statement with
    | showing what => cases hstatement
    | describe table => cases hstatement
    | set change => cases hstatement
    | _ => exact Planning.does_pure _

/-- What such a visitor is asked about a statement, it leaves to the job or answers. -/
theorem Ordinary.yields_consult (h : Ordinary visitor)
    (hplanner : context.planner = Planner.inMemory) (statement : Statement) :
    Yields context (consult visitor (.statement statement))
      fun found => ∀ visit, found = some visit → Metadata.Answers schema visit := by
  rcases h with rfl | rfl
  · exact yields_pure fun visit hvisit => by cases hvisit
  · show Yields context (get >>= _) _
    refine yields_bind (yields_any get) ?_
    intro compilation _
    refine yields_bind (yields_any _) ?_
    intro done _
    have hvisit : Yields context (plan (Metadata.visitor compilation.calls (.statement statement)))
        (Metadata.Answers schema) :=
      yields_plan (Metadata.yields_visitor hplanner compilation.calls statement)
    refine yields_bind hvisit ?_
    intro visit hanswers
    refine yields_pure ?_
    intro found hfound
    split at hfound
    · cases hfound
    · cases hfound
      exact hanswers

/-- A statement that is left to the job is compiled into a tree that can be wired. -/
theorem Ordinary.yields_statement (h : Ordinary visitor) (hschema : context.schema = some schema)
    (hplanner : context.planner = Planner.inMemory) (statement : Statement) :
    Yields context (Compiling.statement visitor statement) (Task.IsRoot schema) := by
  have hchange : ∀ name, statement.target? = some name →
      Yields context (Compiling.statement visitor statement) (Task.IsRoot schema) := by
    intro name htarget
    refine yields_of_does (fun before => ChangePlan.does_statement hschema hplanner htarget) ?_
    intro task after hresult
    cases hplan : ChangePlan.ofStatement schema statement with
    | error error => rw [hplan] at hresult; cases hresult
    | ok plan =>
      rw [hplan] at hresult
      cases hresult
      exact ChangePlan.isRoot_ofStatement htarget hplan
  cases statement with
  | select query =>
    have hselect : ∀ before, Does context before (Compiling.select visitor query)
        ((Query.ofSelect schema query).map fun found => (found.1.task, found.2)) :=
      fun before => Query.does_withOutputs hplanner
        (Query.does_rows hschema hplanner (h.leaves_clause (by simp)))
        (h.leaves_clause (by simp)) (h.leaves_clause (by simp)) (h.leaves_clause (by simp))
    refine yields_of_does hselect ?_
    intro task after hresult
    cases hquery : Query.ofSelect schema query with
    | error error => rw [hquery] at hresult; cases hresult
    | ok found =>
      rw [hquery] at hresult
      cases hresult
      exact Query.isRoot_ofSelect hquery
  | insert rows => exact hchange _ rfl
  | upsert rows => exact hchange _ rfl
  | update change => exact hchange _ rfl
  | delete change => exact hchange _ rfl
  | _ => exact yields_throw _

/-- **A text is compiled into a tree that can be wired.** -/
theorem Ordinary.yields_compile (h : Ordinary visitor) (hschema : context.schema = some schema)
    (hplanner : context.planner = Planner.inMemory) :
    Yields context (compile visitor) (Task.IsRoot schema) := by
  have hvisit : ∀ statement,
      Yields context (visit visitor statement) (Metadata.Answers schema) := by
    intro statement
    have hconsult : Yields context (consult visitor (.statement statement))
        fun found => ∀ visit, found = some visit → Metadata.Answers schema visit :=
      h.yields_consult hplanner statement
    refine yields_bind hconsult ?_
    intro found hfound
    cases found with
    | some visit =>
      refine yields_ofResult ?_
      intro checked hchecked
      -- a check gives back the visit that it is about
      have hsame : checked = visit := by
        unfold Visit.check at hchecked
        split at hchecked <;> cases hchecked <;> rfl
      rw [hsame]
      exact hfound visit rfl
    | none =>
      refine yields_bind (h.yields_statement hschema hplanner statement) ?_
      intro task htask
      exact yields_pure fun other hother => by cases hother; exact htask
  show Yields context (ofResult (parse context.raw) >>= _) _
  refine yields_bind (yields_any _) ?_
  intro statement _
  refine yields_bind (yields_any _) ?_
  intro done _
  refine yields_bind (hvisit statement) ?_
  intro visit hvisited
  cases hfound : visit.task with
  | none => exact yields_throw _
  | some task =>
    refine yields_ofResult ?_
    intro found hrunnable
    rw [Task.runnable_eq_ok hrunnable]
    exact hvisited task hfound

end Compiling

/-! ## Jobs -/

namespace Execution

variable {spec : JobSpec} {job ready : StatementJob} {world : World}

/-- A job that was set up can be run, and its rows are there for the first who asks: nobody has
taken its output, all its tasks start whatever they are told and whoever receives the rows, and
collecting the rows comes to nothing but the flow that its root sends. -/
structure Wired (spec : JobSpec) (ready : StatementJob) (world : World) : Prop where
  drain : ready.drain spec.driving = .ok .new
  accepts : ready.refusal? spec.driving .collect = none
  starts : ∀ receiver, receiver ≠ .dropped → ∀ signals tables,
    ∃ root flow ran after, (ready.mapDrain spec.driving (.moveTo receiver)).root = some root ∧
      root.launch signals .empty tables = (.ok flow, ran, after)
  collects : ∀ signals, ∃ root flow ran after,
    (ready.mapDrain spec.driving (.moveTo .held)).root = some root ∧
      root.launch signals .empty world.tables = (.ok flow, ran, after) ∧
      (ready.collect spec.driving (world.setSignals signals)).1.1 =
        (Task.outcomeFor signals flow .collecting).map fun _ => flow.rows

/-- A job whose prepared root starts is wired. -/
theorem wired_of_starts {prepared : Task} (hschema : world.schema = some schema)
    (houtlet : prepared.outlet = .new) (hchain : prepared.isChain = true)
    (hstarts : prepared.Starts) : Wired spec ⟨.setUp, some prepared⟩ world := by
  have hdrain : Job.drain spec.driving ⟨.setUp, some prepared⟩ = .ok .new :=
    houtlet ▸ drain_of_isChain hchain
  have hroot : ∀ f : Handoff → Handoff,
      (Job.mapDrain spec.driving ⟨.setUp, some prepared⟩ f).root = some (prepared.mapOutlet f) :=
    fun f => congrArg Job.root (mapDrain_of_isChain hchain)
  have htables : world.tables = schema := by
    unfold World.tables
    rw [hschema]
    rfl
  constructor
  · exact hdrain
  · rw [Job.refusal?, if_neg (not_not_intro rfl), hdrain]
  · intro receiver hreceiver signals tables
    obtain ⟨flow, after, hsends⟩ := hstarts signals .empty tables
    obtain ⟨ran, hlaunch, -⟩ := hsends receiver hreceiver
    exact ⟨_, flow, ran, after, hroot _, hlaunch⟩
  · intro signals
    obtain ⟨flow, after, hsends⟩ := hstarts signals .empty schema
    obtain ⟨ran, hlaunch, hranOut, -, hranChain⟩ := hsends .held (by decide)
    refine ⟨_, flow, ran, after, hroot _, by rw [htables]; exact hlaunch, ?_⟩
    have hcollect : Job.collect spec.driving ⟨.setUp, some prepared⟩ (world.setSignals signals) = _ :=
      collect_setUp hschema hchain houtlet hlaunch (hranChain.trans hchain) hranOut
    rw [hcollect]
    rfl

/-- **Compiled jobs are wired correctly.** Whatever the schema and the text, without a visitor or
with that of metadata: a job that was compiled is set up unless the scan of one of its tables fails
or the target of a change is read only, and fails with the error that says so. If it is set up, it is
wired, and what it works on is as it was. -/
theorem setup_wired (hplanner : spec.planner = Planner.inMemory)
    (hvisitor : spec.visitor = none ∨ spec.visitor = some Metadata.visitor)
    (hcompile : Job.new.compile spec.driving (.start (some schema) spec.config) =
      ((.ok (), job), world)) :
    ∃ root, job = ⟨.compiled, some root⟩ ∧
      (∀ error failed last, job.setup spec.driving world = ((.error error, failed), last) →
        ∃ work ∈ root.works, work.Refuses schema error) ∧
      ∀ ready last, job.setup spec.driving world = ((.ok (), ready), last) →
        last = world ∧ Wired spec ready last := by
  obtain ⟨root, hcompiled, rfl, rfl⟩ := compile_eq_ok hcompile
  have hyields : Compiling.Yields (startContext spec schema) (Compiling.compile spec.visitor)
      (Task.IsRoot schema) :=
    Compiling.Ordinary.yields_compile hvisitor rfl hplanner
  have hroot : root.IsRoot schema := hyields _ _ _ (Prod.ext hcompiled rfl)
  have hsetUp : (∃ prepared, root.setup schema = (.ok (), prepared) ∧ prepared.outlet = .new ∧
        prepared.isChain = root.isChain ∧ prepared.Starts) ∨
      ∃ error failed, root.setup schema = (.error error, failed) ∧
        ∃ work ∈ root.works, work.Refuses schema error :=
    Task.setupFed_fresh hroot.fresh
  refine ⟨root, rfl, ?failed, ?ready⟩
  case failed =>
    intro error failed last hfailed
    obtain ⟨left, hleft, -, -⟩ := setup_eq hfailed
    have hleftSchema : root.setup schema = (.error error, left) := hleft
    rw [hleftSchema] at hsetUp
    rcases hsetUp with ⟨prepared, hok, -⟩ | ⟨reason, other, herror, hrefuses⟩
    · cases hok
    · cases herror
      exact hrefuses
  case ready =>
    intro ready last hready
    obtain ⟨left, hleft, rfl, hstate⟩ := setup_eq hready
    have hleftSchema : root.setup schema = (.ok (), left) := hleft
    rw [hleftSchema] at hsetUp
    rcases hsetUp with ⟨prepared, hok, houtlet, hchain, hstarts⟩ | ⟨reason, other, herror, -⟩
    · cases hok
      rw [hstate rfl]
      exact ⟨rfl, wired_of_starts rfl houtlet (hchain.trans hroot.isChain) hstarts⟩
    · cases herror

def ownedPetsQuery : Query :=
  .sequence "select" (.sequence "source_select(pets)" (.source "pets" "pets")
    [.filter (.binary (.column 0) .eq (.literal (.int 2)))]) [.projection [.column 1]]

/-- A select on a table in memory is compiled, set up and wired. -/
theorem setup_wired_family :
    let spec : JobSpec :=
      ⟨"SELECT kind FROM pets WHERE owner = 2", .default, .inMemory, some Metadata.visitor⟩
    ∃ job ready world,
      Job.new.compile spec.driving (.start (some .family) spec.config) = ((.ok (), job), world) ∧
        job.setup spec.driving world = ((.ok (), ready), world) ∧ Wired spec ready world := by
  intro spec
  have hparse : Compiling.parse spec.raw = .ok (.select ownedPets) := by cbv
  have hquery : Query.ofSelect .family ownedPets =
      .ok (ownedPetsQuery, ⟨[⟨some "pets", "kind"⟩]⟩) := rfl
  have hordinary : Compiling.Ordinary spec.visitor := .inr rfl
  have hdoes : Compiling.Does (startContext spec .family) .empty (Compiling.compile spec.visitor)
      ((Query.ofSelect .family ownedPets).map fun query => (query.1.task, query.2)) :=
    does_select rfl hparse (hordinary.leaves_statement rfl)
      fun call hcall => hordinary.leaves_clause hcall
  rw [hquery] at hdoes
  obtain ⟨hcompiled, hshutdown, -⟩ := compiled_of_does hdoes
  have hcompile : Job.new.compile spec.driving (.start (some .family) spec.config) =
      ((.ok (), ⟨.compiled, some ownedPetsQuery.task⟩), _) := compile_new hcompiled
  obtain ⟨-, prepared, hsetup, -⟩ := Query.gives hshutdown
    ((Query.binds_ofSelect hquery).reads Schema.inMemory_family)
  have hready : Job.setup spec.driving ⟨.compiled, some ownedPetsQuery.task⟩
      (afterCompiling spec (.start (some .family) spec.config)) =
        ((.ok (), ⟨.setUp, some prepared⟩), _) := setup_compiled hsetup
  obtain ⟨root, hjob, -, hwired⟩ := setup_wired rfl (.inr rfl) hcompile
  cases hjob
  exact ⟨_, _, _, hcompile, hready, (hwired _ _ hready).2⟩

end Execution
end SqlPipeline
