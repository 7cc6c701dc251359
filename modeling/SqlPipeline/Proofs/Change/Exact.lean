import Mathlib
import SqlPipeline.Proofs.Change.Plan

/-!
# Changing statements are exact or have no effect

A statement that changes a table in memory goes one of two ways. Either something fails, while it is
compiled or in the middle of its rows, and all tables are as they were. Or it gives the number that
the reference says and leaves the table that the reference says, and no other table is touched
(`Execution.change_exact`).

Which way it goes is decided when the change is applied: setting the statement up never fails, since
its columns were looked up in the very table that it changes (`ChangePlan.Stands`), and nothing can
fail after the table was written.
-/

namespace SqlPipeline

open Sql (Expr Statement)

/-! ## Plans that stand on a table -/

namespace ChangePlan

variable {schema : Schema} {plan : ChangePlan} {table : Table}

/-- A plan was made for a statement and the table it changes: it hands over rows only to a change
that takes them, it writes no column that the table does not have, and if it succeeds it does what
the statement is to do. -/
structure Stands (statement : Statement) (table : Table) (plan : ChangePlan) : Prop where
  rows_eq : plan.change.readsRows = false → plan.rows = []
  columns : ∀ i ∈ plan.change.columns, i < table.definition.columns.length
  makes : table.Sound → ∀ n left, plan.change.apply plan.rows table = (.ok n, left) →
    statement.Makes table n left

theorem Stands.beyond?_eq_none {statement : Statement} (h : plan.Stands statement table) :
    plan.change.beyond? table.definition.columns.length = none := by
  refine List.find?_eq_none.mpr fun i hi => ?_
  have hcolumn := h.columns i hi
  simp
  omega

/-- The columns that an INSERT names are looked up one after the other. -/
theorem forall₂_insertColumns {definition : TableDef} :
    ∀ {names : List Sql.Ident} {found columns : List Nat}, found.Nodup →
      Compiling.insertColumns definition found names = .ok columns →
      columns.Nodup ∧ ∃ more, columns = found ++ more ∧
        List.Forall₂ (fun name i => definition.position? name.key = some i) names more
  | [], found, columns, hfound, h => by
    cases h
    exact ⟨hfound, [], (List.append_nil _).symm, .nil⟩
  | name :: rest, found, columns, hfound, h => by
    rw [Compiling.insertColumns] at h
    split at h
    · cases h
    · next i hi =>
      split at h
      · cases h
      · next hnew =>
        -- a column that is named twice was refused, so the columns so far stay distinct
        have hnext : (found ++ [i]).Nodup := by
          rw [List.nodup_append]
          refine ⟨hfound, by simp, fun a ha b hb heq => hnew ?_⟩
          rw [List.mem_singleton.mp hb] at heq
          simpa [heq] using ha
        obtain ⟨hnodup, more, hmore, hall⟩ := forall₂_insertColumns hnext h
        exact ⟨hnodup, i :: more, by simp [hmore], .cons hi hall⟩

/-- The columns of an INSERT are columns of the table. -/
theorem names_of_columnsOf {definition : TableDef} {insert : Sql.Insert} {columns : List Nat}
    (h : columnsOf definition insert = .ok columns) :
    insert.Names definition columns ∧ ∀ i ∈ columns, i < definition.columns.length := by
  unfold columnsOf at h
  unfold Sql.Insert.Names
  split at h
  · next hnone =>
    cases h
    refine ⟨⟨List.nodup_range, ?_⟩, fun i hi => List.mem_range.mp hi⟩
    rw [if_pos hnone]
  · next hsome =>
    obtain ⟨hnodup, more, hmore, hall⟩ := forall₂_insertColumns List.nodup_nil h
    rw [List.nil_append] at hmore
    subst hmore
    refine ⟨⟨hnodup, by rw [if_neg hsome]; exact hall⟩, fun i hi => ?_⟩
    obtain ⟨ident, -, hposition⟩ := exists_mem_of_forall₂ hall hi
    exact (List.findIdx?_eq_some_iff_findIdx_eq.mp hposition).1

theorem stands_of_ofInsert {upserts : Bool} {insert : Sql.Insert}
    (h : ofInsert schema upserts insert = .ok plan) :
    schema.resolve insert.table = .ok plan.table ∧
      ∀ table : Table, plan.table.definition = table.definition →
        plan.Stands (if upserts then .upsert insert else .insert insert) table := by
  obtain ⟨found, hfound, h⟩ := Result.bind_eq_ok.mp h
  obtain ⟨columns, hcolumns, h⟩ := Result.bind_eq_ok.mp h
  unfold ofRows at h
  split at h
  · cases h
  · obtain ⟨rows, hrows, h⟩ := Result.bind_eq_ok.mp h
    cases h
    refine ⟨hfound, fun table htable => ?_⟩
    dsimp only at htable
    rw [htable] at hcolumns
    obtain ⟨hnames, hwithin⟩ := names_of_columnsOf hcolumns
    cases upserts with
    | false =>
      exact ⟨(fun hreads => by cases hreads), hwithin,
        fun _ n left happly => Change.makes_insert hnames hrows happly⟩
    | true =>
      exact ⟨(fun hreads => by cases hreads), hwithin,
        fun _ n left happly => Change.makes_upsert hnames hrows happly⟩

/-- The columns of an assignment are columns of the table. -/
theorem lt_of_assignment {name : Sql.ObjectName} {definition : TableDef}
    {assignment : Sql.Assignment} {bound : Nat × Bound}
    (h : Compiling.assignment (name.layout definition) assignment = .ok bound) :
    bound.1 < definition.columns.length := by
  obtain ⟨column, hcolumn, h⟩ := Result.bind_eq_ok.mp h
  obtain ⟨expr, -, h⟩ := Result.bind_eq_ok.mp h
  cases h
  have hwidth : (name.layout definition).width = definition.columns.length := List.length_map _
  exact hwidth ▸ Layout.resolve_lt hcolumn

theorem stands_of_ofUpdate {update : Sql.Update} (h : ofUpdate schema update = .ok plan) :
    schema.resolve update.table = .ok plan.table ∧
      ∀ table : Table, plan.table.definition = table.definition →
        plan.Stands (.update update) table := by
  obtain ⟨found, hfound, h⟩ := Result.bind_eq_ok.mp h
  obtain ⟨filter, hfilter, h⟩ := Result.bind_eq_ok.mp h
  obtain ⟨assignments, hassignments, h⟩ := Result.bind_eq_ok.mp h
  cases h
  refine ⟨hfound, fun table htable => ?_⟩
  dsimp only at htable
  rw [htable] at hfilter hassignments
  refine ⟨fun _ => rfl, fun i hi => ?_,
    fun hsound n left happly => Change.makes_update hsound hassignments hfilter happly⟩
  obtain ⟨bound, hbound, rfl⟩ := List.mem_map.mp hi
  obtain ⟨assigned, -, hassigned⟩ :=
    exists_mem_of_forall₂ (Result.mapM_eq_ok_iff.mp hassignments) hbound
  exact lt_of_assignment hassigned

theorem stands_of_ofDelete {delete : Sql.Delete} (h : ofDelete schema delete = .ok plan) :
    schema.resolve delete.table = .ok plan.table ∧
      ∀ table : Table, plan.table.definition = table.definition →
        plan.Stands (.delete delete) table := by
  obtain ⟨found, hfound, h⟩ := Result.bind_eq_ok.mp h
  obtain ⟨filter, hfilter, h⟩ := Result.bind_eq_ok.mp h
  cases h
  refine ⟨hfound, fun table htable => ?_⟩
  dsimp only at htable
  rw [htable] at hfilter
  exact ⟨fun _ => rfl, List.forall_mem_nil _,
    fun _ n left happly => Change.makes_delete hfilter happly⟩

/-- **The plan of a statement stands on the table that the statement names.** -/
theorem exists_stands {statement : Statement} {name : Sql.ObjectName}
    (htarget : statement.target? = some name) (h : ofStatement schema statement = .ok plan) :
    schema.resolve name = .ok plan.table ∧ ∃ table, schema.get? plan.table.key = some table ∧
      plan.table.definition = table.definition ∧ plan.Stands statement table := by
  have hstands : schema.resolve name = .ok plan.table ∧ ∀ table : Table,
      plan.table.definition = table.definition → plan.Stands statement table := by
    cases statement with
    | insert rows => cases htarget; exact stands_of_ofInsert h
    | upsert rows => cases htarget; exact stands_of_ofInsert h
    | update change => cases htarget; exact stands_of_ofUpdate h
    | delete change => cases htarget; exact stands_of_ofDelete h
    | _ => cases htarget
  obtain ⟨table, htable, hdefinition⟩ := Schema.exists_of_resolve hstands.1
  exact ⟨hstands.1, table, htable, hdefinition, hstands.2 table hdefinition⟩

/-- A change to a table in memory is made by setting the table. -/
theorem applyChange_eq (hschema : schema.InMemory)
    (htable : schema.get? plan.table.key = some table) :
    Work.applyChange plan.table.key plan.change plan.rows schema =
      ((plan.change.apply plan.rows table).1,
        schema.put plan.table.key (plan.change.apply plan.rows table).2) := by
  have hwritable : Work.writableTable schema plan.table.key = .ok table := by
    unfold Work.writableTable Leaf.tableOf
    rw [htable]
    simp only [Result.ok_bind, Change.checkWritable, Table.isWritable, hschema.access_eq htable]
    rfl
  unfold Work.applyChange
  rw [hwritable]

end ChangePlan

/-! ## The main statement -/

namespace Execution

variable {spec : JobSpec} {schema : Schema} {statement : Statement} {name : Sql.ObjectName}

/-- A changing statement that is left to the job is compiled into the tasks of its plan. -/
theorem does_change (hplanner : spec.planner = Planner.inMemory)
    (hparse : Compiling.parse spec.raw = .ok statement) (htarget : statement.target? = some name)
    (hleaves : Compiling.Leaves (startContext spec schema) spec.visitor (.statement statement)) :
    Compiling.Does (startContext spec schema) .empty (Compiling.compile spec.visitor)
      ((ChangePlan.ofStatement schema statement).map ChangePlan.compiled) := by
  refine does_compile hparse hleaves (ChangePlan.does_statement rfl hplanner htarget)
    fun found hfound => ?_
  cases hplan : ChangePlan.ofStatement schema statement with
  | error error => rw [hplan] at hfound; cases hfound
  | ok plan =>
    rw [hplan] at hfound
    cases hfound
    unfold ChangePlan.compiled ChangePlan.task
    split <;> rfl

/-- The execution of a changing statement whose plan is known. -/
theorem run_change (hschema : schema.InMemory) (hplanner : spec.planner = Planner.inMemory)
    (hvisitor : spec.visitor = none) (hparse : Compiling.parse spec.raw = .ok statement)
    (htarget : statement.target? = some name) :
    (∀ error, ChangePlan.ofStatement schema statement = .error error →
      ∃ last : World, last.schema = some schema ∧
        Execution.run spec (.start (some schema) spec.config) =
          (⟨.compile, none, none, none, some (.error error)⟩, last)) ∧
    ∀ plan table, ChangePlan.ofStatement schema statement = .ok plan →
      schema.get? plan.table.key = some table → plan.Stands statement table →
      ∃ last : World,
        last.schema = some (schema.put plan.table.key (plan.change.apply plan.rows table).2) ∧
          Execution.run spec (.start (some schema) spec.config) =
            (ofFlow plan.task (ChangePlan.outcome (plan.change.apply plan.rows table).1),
              last) := by
  have hleaves : ∀ call, Compiling.Leaves (startContext spec schema) spec.visitor call := by
    rw [hvisitor]
    exact Compiling.leaves_none
  have hcompile : Compiling.Does (startContext spec schema) .empty
      (Compiling.compile spec.visitor)
      ((ChangePlan.ofStatement schema statement).map ChangePlan.compiled) :=
    does_change hplanner hparse htarget (hleaves _)
  constructor
  · intro error herror
    rw [herror] at hcompile
    exact run_of_does_error hcompile
  · intro plan table hplan htable hstands
    rw [hplan] at hcompile
    have hchain : plan.task.isChain = true := by
      unfold ChangePlan.task
      split <;> rfl
    obtain ⟨last, hlast, -, hrun⟩ := run_of_does hchain hcompile fun signals hshutdown =>
      ChangePlan.gives hshutdown hstands.rows_eq htable (hschema.access_eq htable)
        hstands.beyond?_eq_none
    rw [ChangePlan.applyChange_eq hschema htable] at hlast hrun
    exact ⟨last, hlast, hrun⟩

/-- **Changing statements are exact or have no effect.** Execute the text of an INSERT, UPSERT,
UPDATE or DELETE on tables in memory. Either the execution fails and all tables are as they were, or
it gives the number `n` of the reference as its only row and leaves, in the place of the table that
the statement names, the one that the reference makes of it; all other tables are as they were. -/
theorem change_exact (hschema : schema.InMemory) (hplanner : spec.planner = Planner.inMemory)
    (hvisitor : spec.visitor = none) (hparse : Compiling.parse spec.raw = .ok statement)
    (htarget : statement.target? = some name) :
    let (execution, last) := Execution.run spec (.start (some schema) spec.config)
    (∃ failure, execution.failure = some failure ∧ execution.rows = none ∧
      last.schema = some schema) ∨
    ∃ (found : ResolvedTable) (table left : Table) (after : Schema) (n : Nat),
      schema.resolve name = .ok found ∧ schema.get? found.key = some table ∧
        execution.failure = none ∧ execution.rows = some [[Value.count n]] ∧
        last.schema = some after ∧ after.get? found.key = some left ∧
        (∀ other, other ≠ found.key → after.get? other = schema.get? other) ∧
        statement.Makes table n left := by
  obtain ⟨hfails, hruns⟩ := run_change hschema hplanner hvisitor hparse htarget
  cases hplan : ChangePlan.ofStatement schema statement with
  | error error =>
    obtain ⟨last, hlast, hrun⟩ := hfails error hplan
    rw [hrun]
    exact Or.inl ⟨_, rfl, rfl, hlast⟩
  | ok plan =>
    obtain ⟨hresolve, table, htable, -, hstands⟩ := ChangePlan.exists_stands htarget hplan
    obtain ⟨last, hlast, hrun⟩ := hruns plan table hplan htable hstands
    rw [hrun]
    cases happly : plan.change.apply plan.rows table with
    | mk result left =>
      rw [happly] at hlast
      cases result with
      | error error =>
        -- the change was not made, so the table is set to itself
        dsimp only at hlast
        rw [Change.apply_of_error happly, Schema.put_get? htable] at hlast
        exact Or.inl ⟨_, rfl, rfl, hlast⟩
      | ok n =>
        exact Or.inr ⟨plan.table, table, left, _, n, hresolve, htable, rfl, rfl, hlast,
          schema.get?_put_self _ _, fun other hother => schema.get?_put_of_ne _ hother,
          hstands.makes (hschema.sound htable) n left happly⟩

/-- The update `UPDATE people SET name = 'eve' WHERE id = 2`. -/
def renamed : Sql.Update :=
  ⟨⟨[⟨"people", false⟩]⟩, [⟨⟨"name", false⟩, .literal (.string "eve")⟩],
    some (.binary (.ident ⟨"id", false⟩) .eq (.literal (.number "2")))⟩

/-- The second of the people gets a new name. -/
theorem change_exact_family :
    let spec : JobSpec := ⟨"UPDATE people SET name = 'eve' WHERE id = 2", .default, .inMemory, none⟩
    let (execution, last) := Execution.run spec (.start (some .family) spec.config)
    ∃ (found : ResolvedTable) (table left : Table) (after : Schema) (n : Nat),
      Schema.family.resolve renamed.table = .ok found ∧ Schema.family.get? found.key = some table ∧
        execution.failure = none ∧ execution.rows = some [[Value.count n]] ∧
        last.schema = some after ∧ after.get? found.key = some left ∧
        (∀ other, other ≠ found.key → after.get? other = Schema.family.get? other) ∧
        (Statement.update renamed).Makes table n left := by
  intro spec
  have hparse : Compiling.parse spec.raw = .ok (.update renamed) := by cbv
  have hplan : ChangePlan.ofStatement .family (.update renamed) =
      .ok ⟨⟨"people", ⟨"people", [⟨"id", .int64⟩, ⟨"name", .utf8⟩]⟩⟩,
        .update [(1, .literal (.utf8 "eve"))] (some (.binary (.column 0) .eq (.literal (.int 2)))),
        []⟩ := rfl
  have hsucceeds : (Execution.run spec (.start (some .family) spec.config)).1.failure = none := by
    obtain ⟨-, table, htable, -, hstands⟩ := ChangePlan.exists_stands rfl hplan
    obtain ⟨-, hruns⟩ := run_change Schema.inMemory_family rfl rfl hparse rfl
    obtain ⟨last, -, hrun⟩ := hruns _ table hplan htable hstands
    cases htable
    exact (congrArg (fun found => found.1.failure) hrun).trans rfl
  have hexact := change_exact Schema.inMemory_family rfl rfl hparse rfl
  revert hexact hsucceeds
  generalize Execution.run spec (.start (some .family) spec.config) = result
  intro hsucceeds hexact
  refine Or.resolve_left hexact ?_
  rintro ⟨failure, hfailure, -⟩
  rw [hsucceeds] at hfailure
  cases hfailure

end Execution
end SqlPipeline
