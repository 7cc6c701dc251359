import SqlPipeline.Proofs.Bound.Shift
import SqlPipeline.Proofs.Change.Exact
import SqlPipeline.Proofs.Query.Rows
import SqlPipeline.Proofs.Query.Run
import SqlPipeline.Proofs.Query.Width
import SqlPipeline.Proofs.Sql.Scripts

/-!
# The rows a WHERE selects

A SELECT reads a table through a tree of tasks, in which a filter passes rows on one by one. A
DELETE or an UPDATE binds its condition by another routine and asks it of the stored rows in a call
on the table. Nothing in the tasks says that all of them mean the same rows.

What a condition on the rows of a table comes to is written down here once: it cannot be bound to
the columns of the table, it cannot be evaluated on some row, or it is true of some rows and not of
the others. `Execution.Selects` says of an execution that it ends accordingly. Each of the three
statements does (`Execution.selects_read`, `Execution.selects_delete`, `Execution.selects_update`),
so **they agree on the rows and on the failures** (`Execution.where_agrees`).
-/

namespace SqlPipeline

open Sql (Expr Ident ObjectName Select Statement)

/-! ## The reference -/

namespace Schema

variable {schema : Schema} {name : ObjectName} {condition : Option Expr}

/-- The table that a name stands for, and the condition bound to its columns. -/
def bindWhere (schema : Schema) (name : ObjectName) (condition : Option Expr) :
    Result (ResolvedTable × Option Bound) := do
  let found ← schema.resolve name
  let filter ← condition.mapM (Bound.bind (name.layout found.definition))
  return (found, filter)

/-- The phase in which a condition on the rows of a table fails, and how: when it is bound, or on
the first of the stored rows on which it cannot be evaluated. -/
inductive WhereFails (schema : Schema) (name : ObjectName) (condition : Option Expr) :
    Phase → Error → Prop
  | compile {error : Error} (h : schema.bindWhere name condition = .error error) :
    WhereFails schema name condition .compile error
  | run {found : ResolvedTable} {filter : Option Bound} {table : Table} {error : Error}
    (hbind : schema.bindWhere name condition = .ok (found, filter))
    (htable : schema.get? found.key = some table)
    (h : table.rows.mapM (Change.selects filter) = .error error) :
    WhereFails schema name condition .run error

/-- A condition can be told of all rows of a table. -/
structure WhereHolds (schema : Schema) (name : ObjectName) (condition : Option Expr)
    (found : ResolvedTable) (table : Table) : Prop where
  stored : schema.get? found.key = some table
  answers : ∃ filter answers, schema.bindWhere name condition = .ok (found, filter) ∧
    table.rows.mapM (Change.selects filter) = .ok answers

end Schema

def Table.selected (table : Table) (name : ObjectName) (condition : Option Expr) : List Row :=
  table.rows.filter (Sql.isSelected (name.layout table.definition) condition)

def Table.others (table : Table) (name : ObjectName) (condition : Option Expr) : List Row :=
  table.rows.filter fun row => !Sql.isSelected (name.layout table.definition) condition row

/-! ## A condition fails or holds -/

namespace Schema

variable {schema : Schema} {name : ObjectName} {condition : Option Expr}

/-- The condition is bound to the columns of the table that the name stands for. -/
theorem bound_of_bindWhere {found : ResolvedTable} {filter : Option Bound}
    (h : schema.bindWhere name condition = .ok (found, filter)) :
    schema.resolve name = .ok found ∧ ∃ table, schema.get? found.key = some table ∧
      found.definition = table.definition ∧
        condition.mapM (Bound.bind (name.layout table.definition)) = .ok filter := by
  obtain ⟨found, hfound, h⟩ := Result.bind_eq_ok.mp h
  obtain ⟨filter, hfilter, h⟩ := Result.bind_eq_ok.mp h
  cases h
  obtain ⟨table, htable, hdefinition⟩ := exists_of_resolve hfound
  exact ⟨hfound, table, htable, hdefinition, hdefinition ▸ hfilter⟩

theorem WhereHolds.resolves {found : ResolvedTable} {table : Table}
    (h : schema.WhereHolds name condition found table) : schema.resolve name = .ok found := by
  obtain ⟨filter, answers, hbind, -⟩ := h.answers
  exact (bound_of_bindWhere hbind).1

/-- A condition on the rows of a table fails, or can be told of all of them. -/
theorem where_cases (schema : Schema) (name : ObjectName) (condition : Option Expr) :
    (∃ phase error, schema.WhereFails name condition phase error) ∨
      ∃ found table, schema.WhereHolds name condition found table := by
  cases hbind : schema.bindWhere name condition with
  | error error => exact Or.inl ⟨.compile, error, .compile hbind⟩
  | ok pair =>
    obtain ⟨found, filter⟩ := pair
    obtain ⟨-, table, htable, -, -⟩ := bound_of_bindWhere hbind
    cases hanswers : table.rows.mapM (Change.selects filter) with
    | error error => exact Or.inl ⟨.run, error, .run hbind htable hanswers⟩
    | ok answers => exact Or.inr ⟨found, table, htable, filter, answers, hbind, hanswers⟩

end Schema

namespace Execution

variable {config : Config} {schema : Schema} {name : ObjectName} {condition : Option Expr}
  {raw : String}

/-- The execution of a text by the job alone, on the tables of a schema. It is irreducible so that no
text is executed when two executions are compared. -/
@[irreducible] def ofText (config : Config) (schema : Schema) (raw : String) : Execution × World :=
  Execution.run ⟨raw, config, .inMemory, none⟩ (.start (some schema) config)

/-- The execution of a statement about the rows that a condition selects. It fails if the condition
does, and otherwise gives `rows` and leaves `left` in the place of the table. -/
structure Selects (schema : Schema) (name : ObjectName) (condition : Option Expr)
    (rows : Table → List Row) (left : Table → Table) (outcome : Execution × World) : Prop where
  fails : ∀ {phase : Phase} {error : Error}, schema.WhereFails name condition phase error →
    outcome.1.phase = phase ∧ outcome.1.failure = some (.error error) ∧ outcome.1.rows = none ∧
      outcome.2.schema = some schema
  succeeds : ∀ {found : ResolvedTable} {table : Table},
    schema.WhereHolds name condition found table →
    outcome.1.phase = .done ∧ outcome.1.failure = none ∧ outcome.1.rows = some (rows table) ∧
      outcome.2.schema = some (schema.put found.key (left table))

namespace Selects

variable {rows rows' : Table → List Row} {left left' : Table → Table}
  {outcome outcome' : Execution × World}

/-- Two executions on the rows that one condition selects end in one way. -/
theorem same_end (h : Selects schema name condition rows left outcome)
    (h' : Selects schema name condition rows' left' outcome') :
    outcome'.1.phase = outcome.1.phase ∧ outcome'.1.failure = outcome.1.failure := by
  rcases schema.where_cases name condition with ⟨phase, error, hfails⟩ | ⟨found, table, hholds⟩
  · obtain ⟨hphase, hfailure, -, -⟩ := h.fails hfails
    obtain ⟨hphase', hfailure', -, -⟩ := h'.fails hfails
    exact ⟨hphase'.trans hphase.symm, hfailure'.trans hfailure.symm⟩
  · obtain ⟨hphase, hfailure, -, -⟩ := h.succeeds hholds
    obtain ⟨hphase', hfailure', -, -⟩ := h'.succeeds hholds
    exact ⟨hphase'.trans hphase.symm, hfailure'.trans hfailure.symm⟩

theorem same_rows (h : Selects schema name condition rows left outcome)
    (h' : Selects schema name condition rows left' outcome') : outcome'.1.rows = outcome.1.rows := by
  rcases schema.where_cases name condition with ⟨phase, error, hfails⟩ | ⟨found, table, hholds⟩
  · obtain ⟨-, -, hrows, -⟩ := h.fails hfails
    obtain ⟨-, -, hrows', -⟩ := h'.fails hfails
    exact hrows'.trans hrows.symm
  · obtain ⟨-, -, hrows, -⟩ := h.succeeds hholds
    obtain ⟨-, -, hrows', -⟩ := h'.succeeds hholds
    exact hrows'.trans hrows.symm

/-- If a table is left as it was, so are all tables. -/
theorem unchanged (h : Selects schema name condition rows id outcome) :
    outcome.2.schema = some schema := by
  rcases schema.where_cases name condition with ⟨phase, error, hfails⟩ | ⟨found, table, hholds⟩
  · exact (h.fails hfails).2.2.2
  · have hafter := (h.succeeds hholds).2.2.2
    rwa [id, Schema.put_get? hholds.stored] at hafter

theorem of_failure (h : Selects schema name condition rows left outcome) {failure : Failure}
    (hfailure : outcome.1.failure = some failure) :
    outcome.2.schema = some schema ∧
      ∃ error, failure = .error error ∧ schema.WhereFails name condition outcome.1.phase error := by
  rcases schema.where_cases name condition with ⟨phase, error, hfails⟩ | ⟨found, table, hholds⟩
  · obtain ⟨hphase, hfailed, -, hafter⟩ := h.fails hfails
    exact ⟨hafter, error, Option.some.inj (hfailure.symm.trans hfailed), hphase ▸ hfails⟩
  · cases hfailure.symm.trans (h.succeeds hholds).2.1

theorem of_success (h : Selects schema name condition rows left outcome)
    (hfailure : outcome.1.failure = none) :
    ∃ found table, schema.WhereHolds name condition found table := by
  rcases schema.where_cases name condition with ⟨phase, error, hfails⟩ | hholds
  · cases hfailure.symm.trans (h.fails hfails).2.1
  · exact hholds

end Selects

/-! ## Reading -/

/-- The select `SELECT * FROM name WHERE condition`. -/
def readWhere (name : ObjectName) (condition : Option Expr) : Select :=
  ⟨false, [.all], none, some ⟨⟨name, none⟩, []⟩, condition, [], none⟩

/-- The query of such a select: the rows of the table, filtered, in all their columns. -/
def readQuery (name : ObjectName) (found : ResolvedTable) (filter : Option Bound) : Query :=
  .sequence "select"
    (.sequence ("source_select(" ++ name.baseKey ++ ")") (.source name.baseKey found.key)
      (filter.map Step.filter).toList)
    [.projection ((List.range found.definition.columns.length).map Bound.column)]

theorem columnsAt_range (layout : Layout) :
    (Compiling.columnsAt layout (List.range layout.width)).map (·.1) =
      (List.range layout.width).map Bound.column := by
  unfold Compiling.columnsAt
  rw [List.map_filterMap, ← List.filterMap_eq_map]
  refine List.filterMap_congr fun i hi => ?_
  have hcolumn : i < layout.columns.length := List.mem_range.mp hi
  rw [List.getElem?_eq_getElem hcolumn]
  rfl

/-- The rows of the select before its columns are chosen. -/
theorem rows_readWhere (schema : Schema) (name : ObjectName) (condition : Option Expr) :
    Query.rows schema (readWhere name condition) =
      schema.bindWhere name condition >>= fun found =>
        .ok (.sequence ("source_select(" ++ name.baseKey ++ ")")
          (.source name.baseKey found.1.key) (found.2.map Step.filter).toList, none,
            name.layout found.1.definition) := by
  have hsource : SourcePlan.ofRef schema ⟨name, none⟩ = schema.resolve name >>= fun found =>
      .ok ⟨name.baseKey, found, name.layout found.definition, none⟩ := rfl
  have htables : Query.ofTables schema ⟨⟨name, none⟩, []⟩ condition =
      SourcePlan.ofRef schema ⟨name, none⟩ >>= fun source =>
        SourcePlan.query "source_select" { source with filter := condition } >>= fun query =>
          .ok (query, source.layout, none) := rfl
  show Query.ofTables schema ⟨⟨name, none⟩, []⟩ condition >>= _ = _
  rw [htables, hsource]
  unfold Schema.bindWhere
  cases schema.resolve name with
  | error error => rfl
  | ok found =>
    simp only [Result.ok_bind]
    unfold SourcePlan.query
    cases condition.mapM (Bound.bind (name.layout found.definition)) <;> rfl

/-- The select is compiled into its query as soon as its condition can be bound. -/
theorem ofSelect_readWhere (schema : Schema) (name : ObjectName) (condition : Option Expr) :
    ∃ layout : ResolvedTable → Layout, Query.ofSelect schema (readWhere name condition) =
      schema.bindWhere name condition >>= fun found =>
        .ok (readQuery name found.1 found.2, layout found.1) := by
  let columns (found : ResolvedTable) : List (Bound × Layout.Column) :=
    [Compiling.columnsAt (name.layout found.definition)
      (List.range (name.layout found.definition).width)].flatten
  refine ⟨fun found => ⟨(columns found).map (·.2)⟩, ?_⟩
  have houtputs : ∀ found : ResolvedTable,
      Query.outputs (name.layout found.definition) (readWhere name condition) =
        .ok ([.projection ((List.range found.definition.columns.length).map Bound.column)],
          ⟨(columns found).map (·.2)⟩) := by
    intro found
    have hwidth : (name.layout found.definition).width = found.definition.columns.length :=
      List.length_map _
    have hexprs : (columns found).map (·.1) =
        (List.range found.definition.columns.length).map Bound.column := by
      rw [show columns found = Compiling.columnsAt _ _ from List.append_nil _, columnsAt_range,
        hwidth]
    rw [← hexprs]
    rfl
  rw [Query.ofSelect, rows_readWhere]
  cases schema.bindWhere name condition with
  | error error => rfl
  | ok found =>
    rw [Result.ok_bind, Result.ok_bind, Result.ok_bind]
    unfold Query.withOutputs
    rw [houtputs]
    rfl

/-- Of the rows of a table, a condition that can be told of all of them passes on those that it
selects. If it cannot, the flow ends with its failure on the first such row. -/
theorem flow_filtered {filter : Option Bound} {table : Table}
    (hfilter : condition.mapM (Bound.bind (name.layout table.definition)) = .ok filter) :
    let filtered := (filter.map Step.filter).toList.foldl Step.flow (.ofRows table.rows)
    (∀ error, table.rows.mapM (Change.selects filter) = .error error →
      filtered.failureAtEnd = some (.error error)) ∧
    ∀ answers, table.rows.mapM (Change.selects filter) = .ok answers →
      filtered.failureAtEnd = none ∧ filtered.rows = table.selected name condition := by
  intro filtered
  cases filter with
  | none =>
    -- without a condition every row is selected
    obtain ⟨answers, hanswers⟩ : ∃ answers, List.Forall₂
        (fun row answer => Change.selects none row = .ok answer) table.rows answers :=
      exists_forall₂_iff.mpr fun row _ => ⟨true, rfl⟩
    have hok := Result.mapM_eq_ok_iff.mpr hanswers
    refine ⟨fun error herror => (by cases hok.symm.trans herror), fun _ _ => ⟨rfl, ?_⟩⟩
    exact (List.filter_eq_self.mpr fun row _ =>
      (@Change.isSelected_of_selects _ _ _ hfilter row _ rfl).symm).symm
  | some predicate =>
    have hresult := Stage.run_filter_result predicate table.rows
    refine ⟨fun error herror => ?_, fun answers hanswers => ?_⟩
    · rw [show table.rows.mapM predicate.accepts = .error error from herror] at hresult
      exact Stage.failureAtEnd_of_error hresult
    · rw [show table.rows.mapM predicate.accepts = .ok answers from hanswers] at hresult
      refine ⟨Stage.failureAtEnd_of_ok hresult, (Stage.run_filter hresult).trans ?_⟩
      refine List.filter_congr fun row hrow => ?_
      obtain ⟨accepted, haccepted⟩ := Stage.run_filter_ok_iff.mp hresult row hrow
      rw [← @Change.isSelected_of_selects _ _ _ hfilter row _ haccepted, Bound.holds, haccepted]

/-- What comes out of the query of the select. -/
theorem flow_readQuery (hschema : schema.InMemory) {found : ResolvedTable} {filter : Option Bound}
    {table : Table} (htable : schema.get? found.key = some table)
    (hdefinition : found.definition = table.definition)
    (hfilter : condition.mapM (Bound.bind (name.layout table.definition)) = .ok filter) :
    let flow := (readQuery name found filter).flow schema
    (∀ error, table.rows.mapM (Change.selects filter) = .error error →
      flow.failureAtEnd = some (.error error)) ∧
    ∀ answers, table.rows.mapM (Change.selects filter) = .ok answers →
      flow.failureAtEnd = none ∧ flow.rows = table.selected name condition := by
  intro flow
  let filtered := (filter.map Step.filter).toList.foldl Step.flow (.ofRows table.rows)
  let source : Query := .sequence ("source_select(" ++ name.baseKey ++ ")")
    (.source name.baseKey found.key) (filter.map Step.filter).toList
  have hsource : source.flow schema = filtered := by
    have hrows : schema.rowsOf found.key = table.rows := by
      unfold Schema.rowsOf
      rw [htable]
      rfl
    show List.foldl Step.flow (.ofRows (schema.rowsOf found.key)) _ = _
    rw [hrows]
  have hflow : flow = (Stage.projection ((List.range table.definition.columns.length).map
      Bound.column)).flow filtered := by
    show Step.flow (source.flow schema) (.projection _) = _
    rw [hsource, hdefinition]
    rfl
  -- all rows up to a failure are full, so that the choice of all columns does not fail
  have hbinds : source.Binds schema (name.layout table.definition) :=
    .sequence (.source htable) (Query.bindAll_filter hfilter)
  have hwide : ∀ row ∈ filtered.rows, row.length = table.definition.columns.length := by
    intro row hrow
    rw [← hsource] at hrow
    exact ((hbinds.agrees hschema).2.wide row hrow).trans (List.length_map _)
  have hall := Stage.run_projection_all hwide
  have hend : flow.failureAtEnd = filtered.failureAtEnd := by
    rw [hflow]
    exact Stage.failureAtEnd_of_ok (congrArg Prod.snd hall)
  have hsame : flow.rows = filtered.rows := by
    rw [hflow]
    exact congrArg Prod.fst hall
  rw [hend, hsame]
  exact flow_filtered hfilter

/-- **A select of the rows of one table that a condition selects gives these rows**, and changes no
table. -/
theorem selects_read (hschema : schema.InMemory)
    (hparse : Compiling.parse raw = .ok (.select (readWhere name condition))) :
    Selects schema name condition (fun table => table.selected name condition) id
      (ofText config schema raw) := by
  have hrun : RunsAs ⟨raw, config, .inMemory, none⟩ schema
      (Query.ofSelect schema (readWhere name condition)) := run_select hschema rfl rfl hparse
  obtain ⟨hfails, hruns⟩ := hrun
  obtain ⟨layout, hselect⟩ := ofSelect_readWhere schema name condition
  constructor
  · intro phase error h
    cases h with
    | compile hbind =>
      rw [hbind] at hselect
      obtain ⟨last, hlast, hrun⟩ := hfails error hselect
      rw [ofText, hrun]
      exact ⟨rfl, rfl, rfl, hlast⟩
    | run hbind htable hanswers =>
      obtain ⟨-, stored, hstored, hdefinition, hfilter⟩ := Schema.bound_of_bindWhere hbind
      cases htable.symm.trans hstored
      rw [hbind, Result.ok_bind] at hselect
      obtain ⟨last, hlast, -, hrun⟩ := hruns _ _ hselect
      have hend := (flow_readQuery hschema htable hdefinition hfilter).1 _ hanswers
      rw [ofText, hrun, ofFlow, hend]
      exact ⟨rfl, rfl, rfl, hlast⟩
  · intro found table h
    obtain ⟨htable, filter, answers, hbind, hanswers⟩ := h
    obtain ⟨-, stored, hstored, hdefinition, hfilter⟩ := Schema.bound_of_bindWhere hbind
    cases htable.symm.trans hstored
    rw [hbind, Result.ok_bind] at hselect
    obtain ⟨last, hlast, -, hrun⟩ := hruns _ _ hselect
    obtain ⟨hend, hrows⟩ := (flow_readQuery hschema htable hdefinition hfilter).2 _ hanswers
    rw [ofText, hrun, ofFlow, hend]
    exact ⟨rfl, rfl, congrArg some hrows, by rw [id, Schema.put_get? htable]; exact hlast⟩

/-! ## Changing -/

/-- A change asks the bound condition of the rows of a table: it fails as that does, and otherwise
it is about the selected rows and leaves `left`. -/
structure Follows (name : ObjectName) (condition : Option Expr) (filter : Option Bound)
    (table left : Table) (made : Result Nat × Table) : Prop where
  fails : ∀ error, table.rows.mapM (Change.selects filter) = .error error →
    made.1 = .error error
  succeeds : ∀ answers, table.rows.mapM (Change.selects filter) = .ok answers →
    made = (.ok (table.selected name condition).length, left)

/-- A statement whose change asks a condition comes to the number of the selected rows. -/
theorem selects_change (hschema : schema.InMemory) {statement : Statement}
    (hparse : Compiling.parse raw = .ok statement) (htarget : statement.target? = some name)
    {left : Table → Table}
    (hfails : ∀ error, schema.bindWhere name condition = .error error →
      ChangePlan.ofStatement schema statement = .error error)
    (hplans : ∀ found filter table, schema.bindWhere name condition = .ok (found, filter) →
      schema.get? found.key = some table → found.definition = table.definition →
      condition.mapM (Bound.bind (name.layout table.definition)) = .ok filter →
      ∃ plan, ChangePlan.ofStatement schema statement = .ok plan ∧ plan.table = found ∧
        Follows name condition filter table (left table) (plan.change.apply plan.rows table)) :
    Selects schema name condition
      (fun table => [[Value.count (table.selected name condition).length]]) left
      (ofText config schema raw) := by
  obtain ⟨hrunFails, hruns⟩ :=
    @run_change ⟨raw, config, .inMemory, none⟩ _ _ _ hschema rfl rfl hparse htarget
  have hrun : ∀ found filter table, schema.bindWhere name condition = .ok (found, filter) →
      schema.get? found.key = some table → ∃ root made, ∃ last : World,
        Follows name condition filter table (left table) made ∧
          last.schema = some (schema.put found.key made.2) ∧ (∀ error, made.1 = .error error →
            made.2 = table) ∧
          ofText config schema raw =
            (ofFlow root (ChangePlan.outcome made.1), last) := by
    intro found filter table hbind htable
    obtain ⟨-, stored, hstored, hdefinition, hfilter⟩ := Schema.bound_of_bindWhere hbind
    cases htable.symm.trans hstored
    obtain ⟨plan, hplan, rfl, hfollows⟩ := hplans found filter table hbind htable hdefinition hfilter
    obtain ⟨-, stored, hstored, -, hstands⟩ := ChangePlan.exists_stands htarget hplan
    cases htable.symm.trans hstored
    obtain ⟨last, hlast, hrun⟩ := hruns plan table hplan htable hstands
    exact ⟨_, _, last, hfollows, hlast, fun error herror =>
      Change.apply_of_error (Prod.ext herror rfl), by rw [ofText, hrun]⟩
  constructor
  · intro phase error h
    cases h with
    | compile hbind =>
      obtain ⟨last, hlast, hrun⟩ := hrunFails error (hfails error hbind)
      rw [ofText, hrun]
      exact ⟨rfl, rfl, rfl, hlast⟩
    | run hbind htable hanswers =>
      obtain ⟨root, made, last, hfollows, hlast, hkept, hrun⟩ := hrun _ _ _ hbind htable
      have herror := hfollows.fails _ hanswers
      rw [hkept _ herror, Schema.put_get? htable] at hlast
      rw [hrun, herror]
      exact ⟨rfl, rfl, rfl, hlast⟩
  · intro found table h
    obtain ⟨htable, filter, answers, hbind, hanswers⟩ := h
    obtain ⟨root, made, last, hfollows, hlast, -, hrun⟩ := hrun _ _ _ hbind htable
    rw [hfollows.succeeds _ hanswers] at hlast hrun
    rw [hrun]
    exact ⟨rfl, rfl, rfl, hlast⟩

/-- A DELETE removes the rows that its condition selects. -/
theorem follows_delete {filter : Option Bound} {table : Table} (rows : List Row)
    (hfilter : condition.mapM (Bound.bind (name.layout table.definition)) = .ok filter) :
    Follows name condition filter table { table with rows := table.others name condition }
      ((Change.delete filter).apply rows table) := by
  have hkept : (Table.remaining (fun row => StateT.lift (Change.selects filter row))
        table.rows).run' () =
      (table.rows.mapM (Change.selects filter)).map fun _ => table.others name condition := by
    have hrun := Table.run_remaining
      (fun row _ => @Change.isSelected_of_selects _ _ _ hfilter row _) table.rows
    exact (congrArg (Except.map Prod.fst) hrun).trans (Result.map_map _ _ _)
  have hcount : table.rows.length - (table.others name condition).length =
      (table.selected name condition).length := by
    have hlength := List.length_eq_length_filter_add (l := table.rows)
      (Sql.isSelected (name.layout table.definition) condition)
    unfold Table.others Table.selected
    omega
  show Follows name condition filter table _ (table.delete (.each (Change.selects filter)))
  unfold Table.delete
  rw [show (Table.remaining (Asking.each (Change.selects filter)).ask table.rows).run'
    (Asking.each (Change.selects filter)).start = _ from hkept]
  constructor
  · intro error herror
    rw [herror]
    rfl
  · intro answers hanswers
    rw [hanswers, ← hcount]
    rfl

/-- **A delete of the rows of a table that a condition selects gives their number**, and leaves the
others as they were. -/
theorem selects_delete (hschema : schema.InMemory)
    (hparse : Compiling.parse raw = .ok (.delete ⟨name, condition⟩)) :
    Selects schema name condition
      (fun table => [[Value.count (table.selected name condition).length]])
      (fun table => { table with rows := table.others name condition })
      (ofText config schema raw) := by
  have hplan : ChangePlan.ofStatement schema (.delete ⟨name, condition⟩) =
      schema.bindWhere name condition >>= fun found => .ok ⟨found.1, .delete found.2, []⟩ := by
    show ChangePlan.ofDelete schema ⟨name, condition⟩ = _
    unfold ChangePlan.ofDelete Schema.bindWhere
    simp only [bind_assoc]
    rfl
  refine selects_change hschema hparse rfl (fun error herror => ?_)
    fun found filter table hbind _ _ hfilter => ?_
  · rw [hplan, herror]
    rfl
  · exact ⟨_, by rw [hplan, hbind]; rfl, rfl, follows_delete [] hfilter⟩

end Execution

/-! ## Changing nothing -/

/-- A name is that of exactly one column, in any case. -/
def TableDef.NamesOne (definition : TableDef) (name : Ident) : Prop :=
  definition.columns.countP (fun column =>
    Text.sameAsciiCase (Text.lower column.name) name.key) = 1

instance (definition : TableDef) (name : Ident) : Decidable (definition.NamesOne name) :=
  inferInstanceAs (Decidable (_ = 1))

theorem Layout.length_positions (layout : Layout) (p : Layout.Column → Bool) :
    (layout.positions p).length = layout.columns.countP p := by
  have hfrom : ∀ (columns : List Layout.Column) (first : Nat),
      ((columns.zipIdx first).filterMap fun entry =>
        if p entry.1 then some entry.2 else none).length = columns.countP p := by
    intro columns
    induction columns with
    | nil => intro _; rfl
    | cons column rest ih =>
      intro first
      rw [List.zipIdx_cons, List.countP_cons, List.filterMap_cons, ← ih (first + 1)]
      by_cases hcolumn : p column = true <;> simp [hcolumn]
  exact hfrom layout.columns 0

namespace Change

variable {definition : TableDef} {column : Ident}

/-- A column that is set to itself is found, on both sides, at one position. -/
theorem assignment_same (name : ObjectName) (h : definition.NamesOne column) :
    ∃ i < definition.columns.length,
      Compiling.assignment (name.layout definition) ⟨column, .ident column⟩ =
        .ok (i, .column i) := by
  have hlength : ((name.layout definition).positions (·.answers none column.key)).length = 1 := by
    rw [Layout.length_positions, ← h]
    unfold ObjectName.layout Layout.ofTable
    rw [List.countP_map]
    refine List.countP_congr fun own _ => ?_
    simp only [Function.comp_apply, Layout.Column.answers, Bool.and_true]
  obtain ⟨i, hi⟩ := List.length_eq_one_iff.mp hlength
  have hresolve := Layout.resolve_eq_ok_iff.mpr hi
  have hbind : Bound.bind (name.layout definition) (.ident column) = .ok (.column i) := by
    rw [Bound.bind, hresolve]
    rfl
  refine ⟨i, (Layout.resolve_lt hresolve).trans_eq (List.length_map _), ?_⟩
  unfold Compiling.assignment
  rw [hresolve, Result.ok_bind, hbind]
  rfl

/-- A row that is selected is made of itself. -/
theorem rewrite_same {i : Nat} {filter : Option Bound} {row : Row} (h : i < row.length) :
    rewrite [(i, .column i)] filter row =
      (selects filter row).map fun answer => if answer then some row else none := by
  have hassign : assign row [(i, .column i)] row = .ok row := by
    have hvalue : (Bound.column i).eval row = .ok row[i] := by
      rw [Bound.eval, List.getElem?_eq_getElem h]
    have hset : setColumn row i row[i] = .ok row := by
      rw [setColumn, if_pos h, List.set_getElem_self]
    rw [assign, hvalue, Result.ok_bind, hset]
    rfl
  unfold rewrite
  cases selects filter row with
  | error error => rfl
  | ok answer =>
    cases answer with
    | false => rfl
    | true =>
      rw [Result.ok_bind, if_pos rfl, hassign]
      rfl

end Change

namespace Execution

variable {config : Config} {schema : Schema} {name : ObjectName} {condition : Option Expr}
  {raw : String} {column : Ident}

/-- An UPDATE that sets a column to itself counts the rows that its condition selects. -/
theorem follows_update {filter : Option Bound} {table : Table} {i : Nat} (rows : List Row)
    (hsound : table.Sound) (hi : i < table.definition.columns.length)
    (hfilter : condition.mapM (Bound.bind (name.layout table.definition)) = .ok filter) :
    Follows name condition filter table table
      ((Change.update [(i, .column i)] filter).apply rows table) := by
  have hsame : ∀ row ∈ table.rows, table.definition.coerce row = .ok row ∧
      Change.rewrite [(i, .column i)] filter row =
        (Change.selects filter row).map fun answer => if answer then some row else none :=
    fun row hrow => ⟨TableDef.coerce_of_fits (hsound row hrow),
      Change.rewrite_same (by rw [(hsound row hrow).length_eq]; exact hi)⟩
  have hupdated : (Table.updateRows table.definition
        (fun row => StateT.lift (Change.rewrite [(i, .column i)] filter row)) table.rows).run' () =
      (table.rows.mapM (Change.selects filter)).map fun _ =>
        ((table.selected name condition).length, table.rows) := by
    have hrun := Table.run_updateRows
      (fun row _ => @Change.isSelected_of_selects _ _ _ hfilter row _) hsame
    rw [List.countP_eq_length_filter] at hrun
    exact (congrArg (Except.map Prod.fst) hrun).trans (Result.map_map _ _ _)
  show Follows name condition filter table _
    (table.update (.each (Change.rewrite [(i, .column i)] filter)))
  unfold Table.update
  rw [show (Table.updateRows table.definition
    (Asking.each (Change.rewrite [(i, .column i)] filter)).ask table.rows).run'
      (Asking.each (Change.rewrite [(i, .column i)] filter)).start = _ from hupdated]
  constructor
  · intro error herror
    rw [herror]
    rfl
  · intro answers hanswers
    rw [hanswers]
    rfl

/-- **An update that sets a column to itself where a condition selects rows gives their number**,
and leaves all rows as they were. -/
theorem selects_update (hschema : schema.InMemory)
    (hparse : Compiling.parse raw = .ok (.update ⟨name, [⟨column, .ident column⟩], condition⟩))
    (hcolumn : ∀ found, schema.resolve name = .ok found → found.definition.NamesOne column) :
    Selects schema name condition
      (fun table => [[Value.count (table.selected name condition).length]]) id
      (ofText config schema raw) := by
  have hplan : ChangePlan.ofStatement schema (.update ⟨name, [⟨column, .ident column⟩], condition⟩) =
      schema.bindWhere name condition >>= fun found =>
        Compiling.assignment (name.layout found.1.definition) ⟨column, .ident column⟩ >>=
          fun assignment => .ok ⟨found.1, .update [assignment] found.2, []⟩ := by
    show ChangePlan.ofUpdate schema _ = _
    unfold ChangePlan.ofUpdate Schema.bindWhere
    cases schema.resolve name with
    | error error => rfl
    | ok found =>
      simp only [Result.ok_bind]
      cases condition.mapM (Bound.bind (name.layout found.definition)) with
      | error error => rfl
      | ok filter =>
        simp only [Result.ok_bind, List.mapM_cons, List.mapM_nil, bind_assoc, pure_bind]
        rfl
  refine selects_change hschema hparse rfl (fun error herror => ?_)
    fun found filter table hbind htable hdefinition hfilter => ?_
  · rw [hplan, herror]
    rfl
  · have hresolve := (Schema.bound_of_bindWhere hbind).1
    obtain ⟨i, hi, hassignment⟩ := Change.assignment_same name (hcolumn found hresolve)
    rw [hdefinition] at hi
    refine ⟨_, by rw [hplan, hbind, Result.ok_bind, hassignment]; rfl, rfl, ?_⟩
    exact follows_update [] (hschema.sound htable) hi hfilter

/-! ## The main statement -/

/-- **SELECT, DELETE and UPDATE agree on the rows that a WHERE selects.** Execute
`SELECT * FROM name WHERE condition` and `DELETE FROM name WHERE condition` on the same tables in
memory. They fail in the same phase with the same error: in compiling if the condition cannot be
bound, and in the run if it cannot be evaluated on a row. If they succeed, the delete gives the
number of the rows that the select returns, these are the rows that it removes, and the others are
left in their order.

An `UPDATE name SET column = column WHERE condition` fails as they do, gives the number that the
delete gives, and leaves all tables as they were, if exactly one column has that name. -/
theorem where_agrees {readText deleteText : String} (hschema : schema.InMemory)
    (hread : Compiling.parse readText = .ok (.select (readWhere name condition)))
    (hdelete : Compiling.parse deleteText = .ok (.delete ⟨name, condition⟩)) :
    let (read, afterRead) := ofText config schema readText
    let (deleted, afterDelete) := ofText config schema deleteText
    (deleted.phase = read.phase ∧ deleted.failure = read.failure ∧
      afterRead.schema = some schema) ∧
    (∀ failure, read.failure = some failure → afterDelete.schema = some schema ∧
      ∃ error, failure = .error error ∧ schema.WhereFails name condition read.phase error) ∧
    (read.failure = none → ∃ found table,
      schema.resolve name = .ok found ∧ schema.get? found.key = some table ∧
        read.rows = some (table.selected name condition) ∧
        deleted.rows = some [[Value.count (table.selected name condition).length]] ∧
        afterDelete.schema =
          some (schema.put found.key { table with rows := table.others name condition })) ∧
    ∀ updateText column,
      Compiling.parse updateText = .ok (.update ⟨name, [⟨column, .ident column⟩], condition⟩) →
      (∀ found, schema.resolve name = .ok found → found.definition.NamesOne column) →
      let (updated, afterUpdate) := ofText config schema updateText
      updated.phase = read.phase ∧ updated.failure = read.failure ∧ updated.rows = deleted.rows ∧
        afterUpdate.schema = some schema := by
  have hreads : Selects schema name condition _ _ (ofText config schema readText) :=
    selects_read hschema hread
  have hdeletes : Selects schema name condition _ _ (ofText config schema deleteText) :=
    selects_delete hschema hdelete
  have hupdates : ∀ updateText column,
      Compiling.parse updateText = .ok (.update ⟨name, [⟨column, .ident column⟩], condition⟩) →
      (∀ found, schema.resolve name = .ok found → found.definition.NamesOne column) →
      Selects schema name condition _ _ (ofText config schema updateText) :=
    fun _ _ hupdate hcolumn => selects_update hschema hupdate hcolumn
  generalize ofText config schema readText = readOutcome at hreads
  generalize ofText config schema deleteText = deleteOutcome at hdeletes
  obtain ⟨hphase, hfailure⟩ := hreads.same_end hdeletes
  refine ⟨⟨hphase, hfailure, hreads.unchanged⟩, fun failure hfails => ?_, fun hnone => ?_,
    fun updateText column hupdate hcolumn => ?_⟩
  · obtain ⟨-, error, herror, hwhere⟩ := hreads.of_failure hfails
    exact ⟨(hdeletes.of_failure (hfailure.trans hfails)).1, error, herror, hwhere⟩
  · obtain ⟨found, table, hholds⟩ := hreads.of_success hnone
    obtain ⟨-, -, hrows, -⟩ := hreads.succeeds hholds
    obtain ⟨-, -, hcount, hafter⟩ := hdeletes.succeeds hholds
    exact ⟨found, table, hholds.resolves, hholds.stored, hrows, hcount, hafter⟩
  · have hupdated := hupdates updateText column hupdate hcolumn
    generalize ofText config schema updateText = updateOutcome at hupdated
    obtain ⟨hphase', hfailure'⟩ := hreads.same_end hupdated
    exact ⟨hphase', hfailure', hdeletes.same_rows hupdated, hupdated.unchanged⟩

/-- The condition `owner = 2`. -/
def ownedByTwo : Expr :=
  .binary (.ident ⟨"owner", false⟩) .eq (.literal (.number "2"))

def petsWith (rows : List Row) : Table :=
  ⟨⟨"pets", [⟨"owner", .int64⟩, ⟨"kind", .utf8⟩]⟩, .readWrite, rows⟩

/-- Two of the three pets are selected, and so read, removed or left as they are. -/
theorem where_agrees_family :
    let (read, afterRead) := ofText .default .family "SELECT * FROM pets WHERE owner = 2"
    let (deleted, afterDelete) := ofText .default .family "DELETE FROM pets WHERE owner = 2"
    let (updated, afterUpdate) :=
      ofText .default .family "UPDATE pets SET kind = kind WHERE owner = 2"
    read.failure = none ∧ deleted.failure = none ∧ updated.failure = none ∧
      read.rows = some [[.int 2, .utf8 "cat"], [.int 2, .null]] ∧
      deleted.rows = some [[.int 2]] ∧ updated.rows = some [[.int 2]] ∧
      afterRead.schema = some .family ∧ afterUpdate.schema = some .family ∧
      afterDelete.schema =
        some (Schema.family.put "pets" (petsWith [[.int 1, .utf8 "dog"]])) := by
  have hread : Compiling.parse "SELECT * FROM pets WHERE owner = 2" =
      .ok (.select (readWhere ⟨[⟨"pets", false⟩]⟩ (some ownedByTwo))) :=
    Sql.Script.eq_ok_of_toOption (by decide +kernel)
  have hdelete : Compiling.parse "DELETE FROM pets WHERE owner = 2" =
      .ok (.delete ⟨⟨[⟨"pets", false⟩]⟩, some ownedByTwo⟩) :=
    Sql.Script.eq_ok_of_toOption (by decide +kernel)
  have hupdate : Compiling.parse "UPDATE pets SET kind = kind WHERE owner = 2" =
      .ok (.update ⟨⟨[⟨"pets", false⟩]⟩, [⟨⟨"kind", false⟩, .ident ⟨"kind", false⟩⟩],
        some ownedByTwo⟩) :=
    Sql.Script.eq_ok_of_toOption (by decide +kernel)
  let pets : Table := petsWith [[.int 2, .utf8 "cat"], [.int 1, .utf8 "dog"], [.int 2, .null]]
  have hbind : Schema.family.bindWhere ⟨[⟨"pets", false⟩]⟩ (some ownedByTwo) =
      .ok (⟨"pets", pets.definition⟩,
        some (.binary (.column 0) .eq (.literal (.int 2)))) := rfl
  have hholds : Schema.family.WhereHolds ⟨[⟨"pets", false⟩]⟩ (some ownedByTwo)
      ⟨"pets", pets.definition⟩ pets :=
    ⟨rfl, _, [true, false, true], hbind, rfl⟩
  have hselected : pets.selected ⟨[⟨"pets", false⟩]⟩ (some ownedByTwo) =
      [[.int 2, .utf8 "cat"], [.int 2, .null]] := by decide
  have hothers : pets.others ⟨[⟨"pets", false⟩]⟩ (some ownedByTwo) =
      [[.int 1, .utf8 "dog"]] := by decide
  have hfails : (ofText .default .family "SELECT * FROM pets WHERE owner = 2").1.failure = none :=
    ((selects_read Schema.inMemory_family hread).succeeds hholds).2.1
  obtain ⟨⟨-, hdeleted, hafterRead⟩, -, hsucceeds, hupdates⟩ :=
    @where_agrees .default _ _ _ _ _ Schema.inMemory_family hread hdelete
  have hcolumn : ∀ found, Schema.family.resolve ⟨[⟨"pets", false⟩]⟩ = .ok found →
      found.definition.NamesOne ⟨"kind", false⟩ := by
    intro found hfound
    cases hfound
    decide
  obtain ⟨-, hupdated, hrows, hafterUpdate⟩ := hupdates _ _ hupdate hcolumn
  obtain ⟨found, table, hfound, htable, hreturned, hcount, hafterDelete⟩ := hsucceeds hfails
  obtain rfl := Except.ok.inj (hfound.symm.trans hholds.resolves)
  obtain rfl := Option.some.inj (htable.symm.trans hholds.stored)
  rw [hselected] at hreturned hcount
  rw [hothers] at hafterDelete
  exact ⟨hfails, hdeleted.trans hfails, hupdated.trans hfails, hreturned, hcount,
    hrows.trans hcount, hafterRead, hafterUpdate, hafterDelete⟩

end Execution

end SqlPipeline
