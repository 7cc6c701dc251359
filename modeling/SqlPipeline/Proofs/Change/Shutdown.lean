import Mathlib
import SqlPipeline.Proofs.Change.Exact
import SqlPipeline.Proofs.Job.Wiring

/-!
# Changes under a shutdown

Tasks find out about a shutdown when they send or receive. The rows of an INSERT or UPSERT have to be
received before they are written, so a job that was shut down before it runs writes nothing. An
UPDATE or DELETE receives nothing and sends only the number of rows that it changed: it is made all
the same, and the shutdown is found out about afterwards (`Execution.run_after_shutdown`,
`Execution.run_after_shutdown_delete`).
-/

namespace SqlPipeline

open Sql (Statement)

/-- The world after all tasks were told to stop. -/
def World.shutDown (world : World) : World :=
  world.setSignals { world.signals with shutdown := true }

namespace ChangePlan

variable {signals : Signals} {schema : Schema} {plan : ChangePlan}

/-- A flow that is the outcome of a change ends as the change did. -/
theorem outcome_outcome (result : Result Nat) :
    (outcome result).outcome = (result.map fun _ => ()).mapError .error := by
  cases result <;> rfl

/-- A change that reads rows is told to stop before it has read any. -/
theorem made_of_reads (hshutdown : signals.shutdown = true) (hreads : plan.change.readsRows = true) :
    plan.made signals schema = (outcome (.error .shuttingDown), schema) := by
  -- so is the task before it, unless it has no rows to send
  have hinput : (Work.sending signals .empty plan.rows).interrupted =
      outcome (.error .shuttingDown) := by
    unfold Work.sending
    split <;> rfl
  unfold made Work.changing
  rw [if_pos ⟨hreads, hshutdown⟩, if_pos hreads, hinput]

/-- A change that reads no rows is made before it is told to stop. -/
theorem made_of_not_reads (hshutdown : signals.shutdown = true)
    (hreads : plan.change.readsRows = false) (hrows : plan.rows = []) :
    let applied := Work.applyChange plan.table.key plan.change plan.rows schema
    plan.made signals schema =
      (outcome (applied.1 >>= fun _ => .error .shuttingDown), applied.2) := by
  intro applied
  have happlied : Work.applyChange plan.table.key plan.change [] schema = applied := by
    rw [← hrows]
  unfold made Work.changing
  rw [if_neg (by simp [hreads]), if_neg (by simp [hreads]), if_neg (by simp [hreads]), happlied]
  rcases applied with ⟨error | count, after⟩
  · rfl
  · dsimp only
    rw [if_pos hshutdown]
    rfl

/-- A change that fails leaves all tables as they were. -/
theorem applyChange_of_error {table : Table} {error : Error} {after : Schema}
    (hschema : schema.InMemory) (htable : schema.get? plan.table.key = some table)
    (h : Work.applyChange plan.table.key plan.change plan.rows schema = (.error error, after)) :
    after = schema := by
  rw [applyChange_eq hschema htable] at h
  cases happly : plan.change.apply plan.rows table with
  | mk result left =>
    rw [happly] at h
    cases h
    dsimp only
    rw [Change.apply_of_error happly, Schema.put_get? htable]

/-- Only an INSERT or UPSERT is planned as a change that reads rows. -/
theorem readsRows_of_ofStatement {statement : Statement}
    (h : ofStatement schema statement = .ok plan) :
    plan.change.readsRows = true ↔ ∃ rows, statement = .insert rows ∨ statement = .upsert rows := by
  have hinsert : ∀ {upserts : Bool} {insert : Sql.Insert},
      ofInsert schema upserts insert = .ok plan → plan.change.readsRows = true := by
    intro upserts insert h
    obtain ⟨table, -, h⟩ := Result.bind_eq_ok.mp h
    obtain ⟨columns, -, h⟩ := Result.bind_eq_ok.mp h
    unfold ofRows at h
    split at h
    · cases h
    · obtain ⟨rows, -, h⟩ := Result.bind_eq_ok.mp h
      cases h
      cases upserts <;> rfl
  cases statement with
  | insert rows => exact ⟨fun _ => ⟨rows, .inl rfl⟩, fun _ => hinsert h⟩
  | upsert rows => exact ⟨fun _ => ⟨rows, .inr rfl⟩, fun _ => hinsert h⟩
  | update change =>
    obtain ⟨table, -, h⟩ := Result.bind_eq_ok.mp h
    obtain ⟨filter, -, h⟩ := Result.bind_eq_ok.mp h
    obtain ⟨assignments, -, h⟩ := Result.bind_eq_ok.mp h
    cases h
    simp [Change.readsRows]
  | delete change =>
    obtain ⟨table, -, h⟩ := Result.bind_eq_ok.mp h
    obtain ⟨filter, -, h⟩ := Result.bind_eq_ok.mp h
    cases h
    simp [Change.readsRows]
  | _ => cases h

end ChangePlan

namespace Execution

variable {spec : JobSpec} {schema : Schema} {statement : Statement} {name : Sql.ObjectName}
  {job ready : StatementJob} {before world : World}

/-- A changing statement that was compiled and set up has a plan, and is run as the plan is made,
whatever it was told in the meantime. -/
theorem run_of_setUp (hschema : schema.InMemory) (hplanner : spec.planner = Planner.inMemory)
    (hvisitor : spec.visitor = none ∨ spec.visitor = some Metadata.visitor)
    (hparse : Compiling.parse spec.raw = .ok statement) (htarget : statement.target? = some name)
    (hcompile : Job.new.compile spec.driving (.start (some schema) spec.config) =
      ((.ok (), job), before))
    (hsetup : job.setup spec.driving before = ((.ok (), ready), world)) :
    world.signals.shutdown = false ∧ ∃ plan table,
      ChangePlan.ofStatement schema statement = .ok plan ∧
        schema.get? plan.table.key = some table ∧ plan.Stands statement table ∧
        ∀ signals, let run := ready.run spec.driving .patient (world.setSignals signals)
          run.1.1 = (plan.made signals schema).1.outcome ∧
            run.2.schema = some (plan.made signals schema).2 := by
  have hmetadata : statement.isMetadata = false := by
    cases statement <;> first | rfl | cases htarget
  have hdoes : Compiling.Does (startContext spec schema) .empty (Compiling.compile spec.visitor)
      ((ChangePlan.ofStatement schema statement).map ChangePlan.compiled) :=
    does_change hplanner hparse htarget
      (Compiling.Ordinary.leaves_statement hvisitor hmetadata)
  obtain ⟨hresult, hshutdown, -⟩ := compiled_of_does hdoes
  obtain ⟨root, hcompiled, rfl, rfl⟩ := compile_eq_ok hcompile
  rw [hcompiled] at hresult
  cases hplan : ChangePlan.ofStatement schema statement with
  | error error => rw [hplan] at hresult; cases hresult
  | ok plan =>
    rw [hplan] at hresult
    cases hresult
    obtain ⟨-, table, htable, -, hstands⟩ := ChangePlan.exists_stands htarget hplan
    obtain ⟨prepared, hprepared, rfl, hready⟩ := setup_eq hsetup
    refine ⟨hshutdown, plan, table, rfl, htable, hstands, ?_⟩
    intro signals run
    have hgives : plan.task.Gives signals schema (plan.made signals schema).1
        (plan.made signals schema).2 :=
      ChangePlan.gives_made htable (hschema.access_eq htable) hstands.beyond?_eq_none
    obtain ⟨-, other, hother, hout, -, hsends⟩ := hgives
    -- the root was set up once, whatever it is told later
    have hsame : prepared = other := by
      have hboth : (Except.ok (), prepared) = (Except.ok (), other) := hprepared.symm.trans hother
      cases hboth
      rfl
    have hrun : run = Job.run spec.driving ⟨.setUp, some other⟩ .patient
        ((afterCompiling spec (.start (some schema) spec.config)).setSignals signals) := by
      rw [← hsame, ← hready rfl]
    rw [hrun]
    exact run_setUp .patient rfl hout hsends

/-- **A job that is shut down before it runs writes nothing, unless there is nothing to receive.**
Let an INSERT, UPSERT, UPDATE or DELETE on tables in memory be compiled and set up, and then be shut
down. An INSERT or UPSERT fails because of the shutdown, and all tables are as they were. An UPDATE
or DELETE goes as far as it would have gone: either it fails as it would have failed, and all tables
are as they were, or it leaves the tables that it would have left, and fails because of the shutdown
after that. -/
theorem run_after_shutdown (hschema : schema.InMemory) (hplanner : spec.planner = Planner.inMemory)
    (hvisitor : spec.visitor = none ∨ spec.visitor = some Metadata.visitor)
    (hparse : Compiling.parse spec.raw = .ok statement) (htarget : statement.target? = some name)
    (hcompile : Job.new.compile spec.driving (.start (some schema) spec.config) =
      ((.ok (), job), before))
    (hsetup : job.setup spec.driving before = ((.ok (), ready), world)) :
    let stopped := ready.run spec.driving .patient world.shutDown
    let free := ready.run spec.driving .patient world
    ((∃ rows, statement = .insert rows ∨ statement = .upsert rows) →
      stopped.1.1 = .error (.error .shuttingDown) ∧ stopped.2.schema = some schema) ∧
    ((∃ change, statement = .update change) ∨ (∃ change, statement = .delete change) →
      (∃ failure, free.1.1 = .error failure ∧ stopped.1.1 = .error failure ∧
        stopped.2.schema = some schema) ∨
      (free.1.1 = .ok () ∧ stopped.1.1 = .error (.error .shuttingDown) ∧
        stopped.2.schema = free.2.schema)) := by
  obtain ⟨hshutdown, plan, table, hplan, htable, hstands, hrun⟩ :=
    run_of_setUp hschema hplanner hvisitor hparse htarget hcompile hsetup
  have hreads := ChangePlan.readsRows_of_ofStatement hplan
  intro stopped free
  obtain ⟨hstopped, hstoppedSchema⟩ := hrun { world.signals with shutdown := true }
  obtain ⟨hfree, hfreeSchema⟩ := hrun world.signals
  constructor
  · intro hhanded
    rw [ChangePlan.made_of_reads rfl (hreads.mpr hhanded)] at hstopped hstoppedSchema
    exact ⟨hstopped, hstoppedSchema⟩
  · intro halone
    have hreadsNone : plan.change.readsRows = false := by
      rw [← Bool.not_eq_true, hreads]
      rintro ⟨rows, rfl | rfl⟩ <;> rcases halone with ⟨change, h⟩ | ⟨change, h⟩ <;> cases h
    rw [ChangePlan.made_of_not_reads rfl hreadsNone (hstands.rows_eq hreadsNone)]
      at hstopped hstoppedSchema
    rw [ChangePlan.made_eq hshutdown hstands.rows_eq] at hfree hfreeSchema
    cases happlied : Work.applyChange plan.table.key plan.change plan.rows schema with
    | mk result after =>
      rw [happlied] at hstopped hstoppedSchema hfree hfreeSchema
      rw [ChangePlan.outcome_outcome] at hstopped hfree
      cases result with
      | error error =>
        -- nothing was changed, as in a run that is not shut down
        rw [ChangePlan.applyChange_of_error hschema htable happlied] at hstoppedSchema
        exact .inl ⟨_, hfree, hstopped, hstoppedSchema⟩
      | ok count => exact .inr ⟨hfree, hstopped, hstoppedSchema.trans hfreeSchema.symm⟩

/-- A changing statement that has a plan is compiled and set up. -/
theorem exists_setUp (hschema : schema.InMemory) (hplanner : spec.planner = Planner.inMemory)
    (hvisitor : spec.visitor = none) (hparse : Compiling.parse spec.raw = .ok statement)
    (htarget : statement.target? = some name) {plan : ChangePlan}
    (hplan : ChangePlan.ofStatement schema statement = .ok plan) :
    ∃ job before ready world,
      Job.new.compile spec.driving (.start (some schema) spec.config) =
          ((.ok (), job), before) ∧
        job.setup spec.driving before = ((.ok (), ready), world) := by
  have hleaves : Compiling.Leaves (startContext spec schema) spec.visitor
      (.statement statement) := by
    rw [hvisitor]
    exact Compiling.leaves_none _
  have hdoes := does_change hplanner hparse htarget hleaves
  rw [hplan] at hdoes
  obtain ⟨hcompiled, -⟩ := compiled_of_does hdoes
  obtain ⟨-, table, htable, -, hstands⟩ := ChangePlan.exists_stands htarget hplan
  have hgives : plan.task.Gives (.ofConfig spec.config) schema _ _ :=
    ChangePlan.gives_made htable (hschema.access_eq htable) hstands.beyond?_eq_none
  obtain ⟨-, prepared, hprepared, -⟩ := hgives
  exact ⟨_, _, _, _, compile_new hcompiled, setup_compiled hprepared⟩

/-- The row `(3, 'eve')` is not inserted by a job that was shut down before it ran. -/
theorem run_after_shutdown_insert :
    let spec : JobSpec := ⟨"INSERT INTO people VALUES (3, 'eve')", .default, .inMemory, none⟩
    ∃ job before ready world,
      Job.new.compile spec.driving (.start (some .family) spec.config) = ((.ok (), job), before) ∧
        job.setup spec.driving before = ((.ok (), ready), world) ∧
        let stopped := ready.run spec.driving .patient world.shutDown
        stopped.1.1 = .error (.error .shuttingDown) ∧ stopped.2.schema = some .family := by
  intro spec
  let rows : Sql.Insert :=
    ⟨⟨[⟨"people", false⟩]⟩, [], [[.literal (.number "3"), .literal (.string "eve")]]⟩
  have hparse : Compiling.parse spec.raw = .ok (.insert rows) := by cbv
  have hplan : ChangePlan.ofStatement .family (.insert rows) =
      .ok ⟨⟨"people", ⟨"people", [⟨"id", .int64⟩, ⟨"name", .utf8⟩]⟩⟩, .insert [0, 1],
        [[.int 3, .utf8 "eve"]]⟩ := rfl
  obtain ⟨job, before, ready, world, hcompile, hsetup⟩ :=
    exists_setUp Schema.inMemory_family rfl rfl hparse rfl hplan
  exact ⟨job, before, ready, world, hcompile, hsetup, (run_after_shutdown Schema.inMemory_family rfl
    (.inl rfl) hparse rfl hcompile hsetup).1 ⟨rows, .inl rfl⟩⟩

/-- All people are deleted by a job that was shut down before it ran, though it fails. -/
theorem run_after_shutdown_delete :
    let spec : JobSpec := ⟨"DELETE FROM people", .default, .inMemory, none⟩
    ∃ job before ready world,
      Job.new.compile spec.driving (.start (some .family) spec.config) = ((.ok (), job), before) ∧
        job.setup spec.driving before = ((.ok (), ready), world) ∧
        let stopped := ready.run spec.driving .patient world.shutDown
        stopped.1.1 = .error (.error .shuttingDown) ∧ stopped.2.schema ≠ some .family ∧
          ∃ after, stopped.2.schema = some after ∧ (Schema.get? .family "people").map Table.rows =
              some [[.int 1, .utf8 "ann"], [.int 2, .utf8 "bob"]] ∧
            (after.get? "people").map Table.rows = some [] := by
  intro spec
  let people : Sql.Delete := ⟨⟨[⟨"people", false⟩]⟩, none⟩
  have hparse : Compiling.parse spec.raw = .ok (.delete people) := by cbv
  have hplan : ChangePlan.ofStatement .family (.delete people) =
      .ok ⟨⟨"people", ⟨"people", [⟨"id", .int64⟩, ⟨"name", .utf8⟩]⟩⟩, .delete none, []⟩ := rfl
  obtain ⟨job, before, ready, world, hcompile, hsetup⟩ :=
    exists_setUp Schema.inMemory_family rfl rfl hparse rfl hplan
  obtain ⟨-, plan, table, hfound, -, -, hrun⟩ :=
    run_of_setUp Schema.inMemory_family rfl (.inl rfl) hparse rfl hcompile hsetup
  cases hplan.symm.trans hfound
  obtain ⟨hstopped, hafter⟩ := hrun { world.signals with shutdown := true }
  rw [ChangePlan.made_of_not_reads rfl rfl rfl] at hstopped hafter
  refine ⟨job, before, ready, world, hcompile, hsetup, hstopped, ?_, _, hafter, rfl, rfl⟩
  intro hsame
  have hrows := hafter.symm.trans hsame
  revert hrows
  decide

end Execution
end SqlPipeline
