import Mathlib
import SqlPipeline.Proofs.Error.List
import SqlPipeline.Proofs.Job.Wiring
import SqlPipeline.Proofs.Plan.Steps
import SqlPipeline.Proofs.Query.WherePlans

/-!
# Sources of a join

The sources of a FROM clause with joins are looked up one after the other, whichever of them fail,
and then tasks are made for each, whichever of these fail. Here it is followed what the planner is
asked for on the way, in what order, and what is made of its answers (`Planning.Runs`), for any
planner.

**A join reports every source that cannot be resolved; if there is none, each source is planned with
its own table, name, layout and filter, in the order of the FROM clause**
(`Execution.compile_joins`).
-/

namespace SqlPipeline

open Sql (Expr Select)

variable {α β γ : Type} {context : Context}

/-! ## Steps of planning and their requests -/

namespace Planning

/-- Taken in a context, the step gives the result and makes exactly these requests. -/
def Runs (context : Context) (step : Planning α) (result : Result α) (requests : List Request) :
    Prop :=
  ∀ effects : Effects, ((step context).run).run effects =
    (result, { effects with requests := effects.requests ++ requests })

theorem Runs.of_eq {step : Planning α} {result other : Result α} {requests : List Request}
    (h : Runs context step result requests) (hresult : result = other) :
    Runs context step other requests :=
  hresult ▸ h

theorem runs_pure (a : α) : Runs context (pure a) (.ok a) [] := by
  intro effects
  rw [List.append_nil]
  rfl

theorem runs_throw (error : Error) : Runs context (throw error : Planning α) (.error error) [] := by
  intro effects
  rw [List.append_nil]
  rfl

theorem runs_read : Runs context read (.ok context) [] := by
  intro effects
  rw [List.append_nil]
  rfl

theorem runs_ofResult (result : Result α) : Runs context (ofResult result) result [] := by
  cases result with
  | ok a => exact runs_pure a
  | error error => exact runs_throw error

theorem runs_make (request : Request) :
    Runs context (make request) (context.planner request) [request] := by
  intro effects
  have hofResult : Runs context (ofResult (context.planner request)) _ _ := runs_ofResult _
  have hanswer := hofResult { effects with requests := effects.requests ++ [request] }
  rw [List.append_nil] at hanswer
  exact hanswer

theorem runs_bind {step : Planning α} {next : α → Planning β} {a : α} {result : Result β}
    {requests more : List Request} (hstep : Runs context step (.ok a) requests)
    (hnext : Runs context (next a) result more) :
    Runs context (step >>= next) result (requests ++ more) := by
  intro effects
  rw [run_bind, hstep effects, ← List.append_assoc]
  exact hnext _

/-- A step that makes no requests hands its value to the next. -/
theorem runs_then {step : Planning α} {next : α → Planning β} {a : α} {result : Result β}
    {requests : List Request} (hstep : Runs context step (.ok a) [])
    (hnext : Runs context (next a) result requests) :
    Runs context (step >>= next) result requests :=
  runs_bind hstep hnext

/-- What was asked for is all that is asked for if the value is only handed on. -/
theorem runs_bind_still {step : Planning α} {next : α → Planning β} {a : α} {result : Result β}
    {requests : List Request} (hstep : Runs context step (.ok a) requests)
    (hnext : Runs context (next a) result []) : Runs context (step >>= next) result requests := by
  have h := runs_bind hstep hnext
  rw [List.append_nil] at h
  exact h

/-- After a failure nothing more is asked for. -/
theorem runs_bind_error {step : Planning α} {error : Error} {requests : List Request}
    (hstep : Runs context step (.error error) requests) (next : α → Planning β) :
    Runs context (step >>= next) (.error error) requests := by
  intro effects
  rw [run_bind, hstep effects]

/-- Attempts on all elements of a list are made one after the other, whichever of them fail. -/
theorem runs_mapM_attempt {step : γ → Planning α} {result : γ → Result α}
    {requests : γ → List Request} (xs : List γ)
    (hsteps : ∀ x, Runs context (step x) (result x) (requests x)) :
    Runs context ((xs.map step).mapM attempt) (.ok (xs.map result)) (xs.flatMap requests) := by
  induction xs with
  | nil => exact runs_pure []
  | cons x rest ih =>
    have hattempt : Runs context (attempt (step x)) (.ok (result x)) (requests x) := by
      intro effects
      rw [run_attempt, hsteps x effects]
    have hrest : Runs context
        ((rest.map step).mapM attempt >>= fun results => pure (result x :: results))
        (.ok (result x :: rest.map result)) (rest.flatMap requests) :=
      runs_bind_still ih (runs_pure (result x :: rest.map result))
    rw [List.map_cons, List.mapM_cons]
    exact runs_bind hattempt hrest

/-- To collect steps is to attempt them all. -/
theorem collect_eq (steps : List (Planning α)) :
    collect steps = steps.mapM attempt >>= fun results => ofResult (Result.collect results) := by
  refine congrArg (steps.mapM attempt >>= ·) (funext fun results => ?_)
  have hfold := Result.foldl_appendResult results [] .empty
  rw [List.nil_append] at hfold
  erw [hfold]
  unfold Result.collect ErrorList.empty
  dsimp only
  rw [List.nil_append]
  cases (Result.errors results).error? <;> rfl

theorem runs_collect {step : γ → Planning α} {result : γ → Result α}
    {requests : γ → List Request} (xs : List γ)
    (hsteps : ∀ x, Runs context (step x) (result x) (requests x)) :
    Runs context (collect (xs.map step)) (Result.collect (xs.map result))
      (xs.flatMap requests) := by
  rw [collect_eq]
  exact runs_bind_still (runs_mapM_attempt xs hsteps)
    (runs_ofResult (Result.collect (xs.map result)))

end Planning

/-! ## Sources are looked up -/

def Context.resolve (context : Context) (name : Sql.ObjectName) : Result ResolvedTable :=
  match context.schema with
  | none => .error .noSchemaSelected
  | some schema => schema.resolve name

namespace Planning

theorem does_resolveTable_in (name : Sql.ObjectName) :
    Does context (resolveTable name) (context.resolve name) := by
  unfold Context.resolve
  cases hschema : context.schema with
  | none => exact does_then does_read (by rw [hschema]; exact does_throw _)
  | some schema => exact does_resolveTable hschema name

/-- Looking a table up asks for no task. -/
theorem runs_resolveTable (name : Sql.ObjectName) :
    Runs context (resolveTable name) (context.resolve name) [] := by
  have hread : ∀ {next : Context → Planning ResolvedTable},
      (∃ result, Runs context (next context) result []) →
      ∃ result, Runs context (read >>= next) result [] :=
    fun ⟨result, h⟩ => ⟨result, runs_then runs_read h⟩
  have hruns : ∃ result, Runs context (resolveTable name) result [] := by
    apply hread
    cases context.schema with
    | none => exact ⟨_, runs_throw .noSchemaSelected⟩
    | some schema =>
      dsimp only
      split
      · exact ⟨_, runs_throw _⟩
      · split
        · exact ⟨_, runs_throw _⟩
        · exact ⟨_, runs_pure _⟩
  obtain ⟨result, hruns⟩ := hruns
  intro effects
  obtain ⟨requests, hdoes⟩ := does_resolveTable_in name effects
  have hresult : context.resolve name = result :=
    congrArg Prod.fst (hdoes.symm.trans (hruns effects))
  rw [hresult]
  exact hruns effects

end Planning

namespace SourcePlan

def ofFound (table : Sql.TableRef) (found : ResolvedTable) : SourcePlan :=
  ⟨table.binding, found, .ofTable table.binding found.definition, none⟩

theorem runs_resolve (table : Sql.TableRef) :
    Planning.Runs context (resolve table)
      ((context.resolve table.name).map (ofFound table)) [] := by
  have hfound : Planning.Runs context (resolveTable table.name) _ _ :=
    Planning.runs_resolveTable table.name
  cases hresolve : context.resolve table.name with
  | error error =>
    rw [hresolve] at hfound
    exact Planning.runs_bind_error hfound _
  | ok found =>
    rw [hresolve] at hfound
    exact Planning.runs_then hfound (Planning.runs_pure _)

/-! ## The side of a join -/

/-- What the planner is asked for, and what it comes to, to read the rows of a source and to filter
them by its part of the condition. -/
def side (planner : Planner) (plan : SourcePlan) : List Request × Result Task :=
  let scan := Request.source plan.binding plan.table
  let whole children := Request.sequence ("join_side(" ++ plan.binding ++ ")") children
  match planner scan with
  | .error error => ([scan], .error error)
  | .ok rows =>
    match plan.filter.map (Bound.bind plan.layout) with
    | none => ([scan, whole [rows]], planner (whole [rows]))
    | some (.error error) => ([scan], .error error)
    | some (.ok predicate) =>
      match planner (.filter predicate) with
      | .error error => ([scan, .filter predicate], .error error)
      | .ok filter =>
        ([scan, .filter predicate, whole [rows, filter]], planner (whole [rows, filter]))

/-- A condition that cannot be bound to the rows of its source asks for no task. -/
theorem runs_condition_error {plan : SourcePlan} {expr : Expr} {error : Error}
    (h : Bound.bind plan.layout expr = .error error) :
    Planning.Runs context (plan.condition (some expr)) (.error error) [] :=
  Planning.runs_bind_error ((Planning.runs_ofResult _).of_eq h) _

theorem runs_condition_ok {plan : SourcePlan} {expr : Expr} {predicate : Bound}
    (h : Bound.bind plan.layout expr = .ok predicate) :
    Planning.Runs context (plan.condition (some expr))
      ((context.planner (.filter predicate)).map some) [.filter predicate] := by
  refine Planning.runs_then ((Planning.runs_ofResult _).of_eq h) ?_
  have hmake : Planning.Runs context _ _ _ := Planning.runs_make (.filter predicate)
  cases hfilter : context.planner (.filter predicate) with
  | error error => exact Planning.runs_bind_error (hmake.of_eq hfilter) _
  | ok filter => exact Planning.runs_bind_still (hmake.of_eq hfilter) (Planning.runs_pure _)

theorem runs_joinSide (plan : SourcePlan) :
    Planning.Runs context plan.joinSide (plan.side context.planner).2
      (plan.side context.planner).1 := by
  have hscan : Planning.Runs context plan.scan _ _ :=
    Planning.runs_make (.source plan.binding plan.table)
  have hwhole : ∀ children : List Task, Planning.Runs context _ _ _ := fun children =>
    Planning.runs_make (.sequence ("join_side(" ++ plan.binding ++ ")") children)
  unfold side
  dsimp only
  cases hrows : context.planner (.source plan.binding plan.table) with
  | error error => exact Planning.runs_bind_error (hscan.of_eq hrows) _
  | ok rows =>
    have hscan := hscan.of_eq hrows
    cases hexpr : plan.filter with
    | none =>
      refine Planning.runs_bind hscan ?_
      rw [hexpr]
      exact Planning.runs_then (Planning.runs_pure none) (hwhole [rows])
    | some expr =>
      rw [Option.map_some]
      cases hpredicate : Bound.bind plan.layout expr with
      | error error =>
        refine Planning.runs_bind_still hscan ?_
        rw [hexpr]
        exact Planning.runs_bind_error (runs_condition_error hpredicate) _
      | ok predicate =>
        have hcondition : Planning.Runs context (plan.condition (some expr)) _ _ :=
          runs_condition_ok hpredicate
        dsimp only
        cases hfilter : context.planner (.filter predicate) with
        | error error =>
          refine Planning.runs_bind hscan ?_
          rw [hexpr]
          exact Planning.runs_bind_error (hcondition.of_eq (by rw [hfilter]; rfl)) _
        | ok filter =>
          have hcondition : Planning.Runs context (plan.condition (some expr)) (.ok (some filter))
              [.filter predicate] := hcondition.of_eq (by rw [hfilter]; rfl)
          refine Planning.runs_bind hscan ?_
          rw [hexpr]
          exact Planning.runs_bind hcondition (hwhole [rows, filter])

end SourcePlan

/-! ## Requests for no source -/

/-- Of further requests none asks for the rows of a table. -/
def Effects.Extends (after before : Effects) : Prop :=
  ∃ more, after.requests = before.requests ++ more ∧ ∀ request ∈ more, request.isSource = false

namespace Effects

theorem extends_refl (effects : Effects) : effects.Extends effects :=
  ⟨[], (List.append_nil _).symm, fun _ h => by cases h⟩

theorem Extends.trans {after between before : Effects} (h : after.Extends between)
    (hbefore : between.Extends before) : after.Extends before := by
  obtain ⟨more, hmore, hothers⟩ := h
  obtain ⟨first, hfirst, hnone⟩ := hbefore
  refine ⟨first ++ more, by rw [hmore, hfirst, List.append_assoc], ?_⟩
  intro request hrequest
  rcases List.mem_append.mp hrequest with hrequest | hrequest
  · exact hnone request hrequest
  · exact hothers request hrequest

end Effects

namespace Planning

/-- The rows of tables are not asked for. -/
def AsksNoSource (context : Context) (step : Planning α) : Prop :=
  ∀ effects, (((step context).run).run effects).2.Extends effects

theorem asksNoSource_of_runs {step : Planning α} {result : Result α} {requests : List Request}
    (h : Runs context step result requests)
    (hrequests : ∀ request ∈ requests, request.isSource = false) : AsksNoSource context step := by
  intro effects
  rw [h effects]
  exact ⟨requests, rfl, hrequests⟩

theorem asksNoSource_pure (a : α) : AsksNoSource context (pure a) :=
  asksNoSource_of_runs (runs_pure a) fun _ h => by cases h

theorem asksNoSource_ofResult (result : Result α) : AsksNoSource context (ofResult result) :=
  asksNoSource_of_runs (runs_ofResult result) fun _ h => by cases h

theorem asksNoSource_make {request : Request} (h : request.isSource = false) :
    AsksNoSource context (make request) :=
  asksNoSource_of_runs (runs_make request) fun other hother => by
    rw [List.mem_singleton.mp hother]
    exact h

theorem asksNoSource_bind {step : Planning α} {next : α → Planning β}
    (hstep : AsksNoSource context step) (hnext : ∀ a, AsksNoSource context (next a)) :
    AsksNoSource context (step >>= next) := by
  intro effects
  have hfirst := hstep effects
  rw [run_bind]
  generalize ((step context).run).run effects = ran at hfirst ⊢
  obtain ⟨error | a, left⟩ := ran
  · exact hfirst
  · exact (hnext a left).trans hfirst

theorem asksNoSource_extend (rest : List (Sql.Join × Task × Layout)) (task : Task)
    (layout : Layout) : AsksNoSource context (JoinPlan.extend task layout rest) := by
  induction rest generalizing task layout with
  | nil => exact asksNoSource_pure _
  | cons side rest ih =>
    refine asksNoSource_bind (asksNoSource_ofResult _) fun on => ?_
    exact asksNoSource_bind (asksNoSource_make rfl) fun joined => ih joined _

end Planning

/-- Only sources ask for the rows of tables, and not what comes behind them. -/
theorem Compiling.admits_extends : Admits context fun before after =>
    after.effects.Extends before.effects where
  refl before := before.effects.extends_refl
  trans _ _ _ hfirst hnext := hnext.trans hfirst
  setLayout _ before := before.effects.extends_refl
  make _ h before := Planning.asksNoSource_make h before.effects

/-! ## Joins are put together -/

namespace JoinPlan

/-- The plans and sides up to a position are joined to a task whose rows have a layout, from left to
right, each by the condition that was written behind it. -/
inductive Joined (planner : Planner) (joins : List Sql.Join) (plans : List SourcePlan)
    (sides : List Task) : Nat → Task → Layout → Prop
  | first {task plan} (htask : sides[0]? = some task) (hplan : plans[0]? = some plan) :
      Joined planner joins plans sides 0 task plan.layout
  | next {i left layout join right plan on task}
      (hleft : Joined planner joins plans sides i left layout)
      (hjoin : joins[i]? = some join) (hright : sides[i + 1]? = some right)
      (hplan : plans[i + 1]? = some plan)
      (hon : Bound.bind (layout.append plan.layout) join.on = .ok on)
      (htask : planner (.join join.kind left right on plan.layout.width) = .ok task) :
      Joined planner joins plans sides (i + 1) task (layout.append plan.layout)

/-- The rest of the sides is joined behind those that are joined already. -/
theorem joined_extend {joins : List Sql.Join} {plans : List SourcePlan} {sides : List Task}
    {left : Effects} {last : Task} {lastLayout : Layout}
    (hplans : plans.length = joins.length + 1) (hsides : sides.length = joins.length + 1) :
    ∀ (more i : Nat) (effects : Effects) (task : Task) (layout : Layout), i + more = joins.length →
      Joined context.planner joins plans sides i task layout →
      ((extend task layout ((joins.drop i).zip ((sides.drop (i + 1)).zip
        ((plans.drop (i + 1)).map (·.layout)))) context).run).run effects =
          (.ok (last, lastLayout), left) →
      Joined context.planner joins plans sides joins.length last lastLayout
  | 0, i, effects, task, layout, hi, hjoined, hrun => by
    have hi : i = joins.length := by omega
    rw [hi, List.drop_length, List.zip_nil_left] at hrun
    cases hrun
    exact hi ▸ hjoined
  | more + 1, i, effects, task, layout, hi, hjoined, hrun => by
    have hjoin : i < joins.length := by omega
    have hside : i + 1 < sides.length := by omega
    have hplan : i + 1 < plans.length := by omega
    rw [List.drop_eq_getElem_cons hjoin, List.drop_eq_getElem_cons hside,
      List.drop_eq_getElem_cons hplan, List.map_cons, List.zip_cons_cons, List.zip_cons_cons,
      extend, Planning.run_bind, Planning.runs_ofResult] at hrun
    cases hon : Bound.bind (layout.append plans[i + 1].layout) joins[i].on with
    | error error => rw [hon] at hrun; cases hrun
    | ok on =>
      rw [hon] at hrun
      dsimp only at hrun
      rw [Planning.run_bind, Planning.runs_make] at hrun
      cases htask : context.planner
          (.join joins[i].kind task sides[i + 1] on plans[i + 1].layout.width) with
      | error error => rw [htask] at hrun; cases hrun
      | ok joined =>
        rw [htask] at hrun
        have hnext : Joined context.planner joins plans sides (i + 1) joined
            (layout.append plans[i + 1].layout) :=
          .next hjoined (List.getElem?_eq_getElem hjoin) (List.getElem?_eq_getElem hside)
            (List.getElem?_eq_getElem hplan) hon htask
        exact joined_extend hplans hsides more (i + 1) _ joined _ (by omega) hnext hrun

/-- Joins the tables of a FROM clause that are planned already. -/
def ofPlans (clause : Sql.From) (shared : List SourcePlan × Option Expr) : Planning JoinPlan := do
  let sides ← Planning.collect (shared.1.map SourcePlan.joinSide)
  match sides, shared.1.map (·.layout) with
  | first :: rights, layout :: layouts =>
    let (task, layout) ← extend first layout (clause.joins.zip (rights.zip layouts))
    return ⟨task, layout, shared.2⟩
  | _, _ => throw (.internal "FROM without any sources")

/-- The condition is shared out among the tables before they are joined. -/
theorem ofFrom_eq (clause : Sql.From) (condition : Option Expr) :
    ofFrom clause condition = Planning.collect (clause.tables.map SourcePlan.resolve) >>=
      fun plans => ofPlans clause (Query.share clause condition plans) := rfl

/-- The other sides are joined to the first, and the rows of no table are asked for. -/
theorem run_extend_joined {joins : List Sql.Join} {plan : SourcePlan} {plans : List SourcePlan}
    {first : Task} {rights : List Task} (residual : Option Expr)
    (hplans : (plan :: plans).length = joins.length + 1)
    (hsides : (first :: rights).length = joins.length + 1) (effects : Effects) :
    let ran := (((extend first plan.layout (joins.zip (rights.zip (plans.map (·.layout)))) >>=
      fun found => pure ⟨found.1, found.2, residual⟩ : Planning JoinPlan) context).run).run effects
    ran.2.Extends effects ∧ ∀ joined, ran.1 = .ok joined →
      Joined context.planner joins (plan :: plans) (first :: rights) joins.length joined.task
        joined.layout := by
  intro ran
  have hran : ran = _ := Planning.run_bind _ _ _
  have hextends := @Planning.asksNoSource_extend context
    (joins.zip (rights.zip (plans.map (·.layout)))) first plan.layout effects
  rcases hlast : ((extend first plan.layout
      (joins.zip (rights.zip (plans.map (·.layout)))) context).run).run effects with
    ⟨error | ⟨task, layout⟩, left⟩
  · rw [hlast] at hran hextends
    rw [hran]
    exact ⟨hextends, fun joined h => by cases h⟩
  · rw [hlast] at hran hextends
    rw [hran]
    refine ⟨hextends, fun joined h => ?_⟩
    cases h
    have hfirst : Joined context.planner joins (plan :: plans) (first :: rights) 0 first
        plan.layout := .first rfl rfl
    exact joined_extend hplans hsides joins.length 0 _ first _ (Nat.zero_add _) hfirst hlast

/-- The sides are made one after the other, and joined if all of them were made. -/
theorem run_ofPlans {clause : Sql.From} {shared : List SourcePlan × Option Expr}
    (hlength : shared.1.length = clause.joins.length + 1) (effects : Effects) :
    let ran := ((ofPlans clause shared context).run).run effects
    ran.2.Extends { effects with
      requests := effects.requests ++ shared.1.flatMap fun plan => (plan.side context.planner).1 } ∧
    ∀ joined, ran.1 = .ok joined → ∃ sides : List Task,
      shared.1.map (fun plan => (plan.side context.planner).2) = sides.map .ok ∧
      Joined context.planner clause.joins shared.1 sides clause.joins.length joined.task
        joined.layout := by
  intro ran
  obtain ⟨plans, residual⟩ := shared
  dsimp only at hlength ⊢
  have hran : ran = _ := Planning.run_bind _ _ _
  rw [Planning.runs_collect plans SourcePlan.runs_joinSide] at hran
  cases hsides : Result.collect (plans.map fun plan => (plan.side context.planner).2) with
  | error error =>
    rw [hsides] at hran
    rw [hran]
    exact ⟨Effects.extends_refl _, fun joined h => by cases h⟩
  | ok sides =>
    have hmade := Result.collect_eq_ok_iff.mp hsides
    have hsidesLength : sides.length = clause.joins.length + 1 := by
      have h := congrArg List.length hmade
      rw [List.length_map, List.length_map] at h
      omega
    rw [hsides] at hran
    cases plans with
    | nil => cases hlength
    | cons plan plans =>
      cases sides with
      | nil => cases hsidesLength
      | cons first rights =>
        -- what is left is to join the other sides to the first
        obtain ⟨hextends, hjoined⟩ := run_extend_joined residual hlength hsidesLength
          { effects with requests := effects.requests ++
            (plan :: plans).flatMap fun plan => (plan.side context.planner).1 }
        rw [hran]
        exact ⟨hextends, fun joined h => ⟨_, hmade, hjoined joined h⟩⟩

end JoinPlan

/-! ## Sources and their plans -/

/-- The tables of a FROM clause under a condition, all of which were found, and their plans: each
table has its own plan, with the layout of its own columns, and in inner joins with the part of the
condition that is about it alone. -/
structure Paired (clause : Sql.From) (condition : Option Expr) (tables : List ResolvedTable)
    (plans : List SourcePlan) : Prop where
  length_eq : plans.length = clause.tables.length
  getElem?_eq : ∀ i table own, clause.tables[i]? = some table → tables[i]? = some own →
    plans[i]? = some ({
      binding := table.binding
      table := own
      layout := .ofTable table.binding own.definition
      filter := if clause.joins.all (·.kind = .inner) then
        condition.bind fun filter => pushedTo (plans.map (·.layout)) filter i else none
      } : SourcePlan)

/-- **The condition is shared out to the tables it is about.** -/
theorem paired_share {clause : Sql.From} {tables : List ResolvedTable} (condition : Option Expr)
    (hlength : tables.length = clause.tables.length) :
    Paired clause condition tables
      (Query.share clause condition (List.zipWith SourcePlan.ofFound clause.tables tables)).1 := by
  have hplans : ∀ (i : Nat) table own, clause.tables[i]? = some table →
      tables[i]? = some own → (List.zipWith SourcePlan.ofFound clause.tables tables)[i]? =
        some (SourcePlan.ofFound table own) := by
    intro i table own htable hown
    rw [List.getElem?_zipWith, htable, hown]
  have hzip : (List.zipWith SourcePlan.ofFound clause.tables tables).length =
      clause.tables.length := by
    rw [List.length_zipWith, hlength, min_self]
  unfold Query.share
  cases condition with
  | none =>
    refine ⟨hzip, fun i table own htable hown => ?_⟩
    rw [hplans i table own htable hown, Option.bind_none, ite_self]
    rfl
  | some filter =>
    dsimp only
    split
    · next hinner =>
      refine ⟨?_, fun i table own htable hown => ?_⟩
      · unfold SourcePlan.pushDown
        rw [List.length_map, List.length_zipIdx, hzip]
      · rw [Query.map_layout_pushDown, if_pos hinner, Option.bind_some]
        unfold SourcePlan.pushDown
        rw [List.getElem?_map, List.getElem?_zipIdx, hplans i table own htable hown]
        simp [SourcePlan.ofFound]
    · next houter =>
      refine ⟨hzip, fun i table own htable hown => ?_⟩
      rw [hplans i table own htable hown, if_neg houter]
      rfl

namespace JoinPlan

abbrev resolved (context : Context) (clause : Sql.From) : List (Result ResolvedTable) :=
  clause.tables.map fun table => context.resolve table.name

theorem runs_plans (clause : Sql.From) :
    Planning.Runs context (Planning.collect (clause.tables.map SourcePlan.resolve))
      (Result.collect (clause.tables.map fun table =>
        (context.resolve table.name).map (SourcePlan.ofFound table))) [] := by
  have h : Planning.Runs context (Planning.collect (clause.tables.map SourcePlan.resolve)) _ _ :=
    Planning.runs_collect clause.tables SourcePlan.runs_resolve
  rw [List.flatMap_eq_nil_iff.mpr fun _ _ => rfl] at h
  exact h

/-- Sources that cannot be resolved are reported before anything is asked for. -/
theorem run_ofFrom_error {clause : Sql.From} {error : Error}
    (herror : (Result.errors (resolved context clause)).error? = some error)
    (condition : Option Expr) (effects : Effects) :
    ((ofFrom clause condition context).run).run effects =
      (.error error, { effects with requests := effects.requests ++ [] }) := by
  have herrors : Result.errors (clause.tables.map fun table =>
      (context.resolve table.name).map (SourcePlan.ofFound table)) =
        Result.errors (resolved context clause) := by
    unfold Result.errors
    rw [List.filterMap_map, List.filterMap_map]
    refine congrArg ErrorList.mk (List.filterMap_congr fun table _ => ?_)
    rw [Function.comp_apply, Function.comp_apply]
    cases context.resolve table.name <;> rfl
  have hcollect : Result.collect (clause.tables.map fun table =>
      (context.resolve table.name).map (SourcePlan.ofFound table)) = .error error := by
    unfold Result.collect
    rw [herrors, herror]
  exact Planning.runs_bind_error ((runs_plans clause).of_eq hcollect) _ effects

/-- Sources that are all resolved are planned one by one. -/
theorem run_ofFrom {clause : Sql.From} {tables : List ResolvedTable}
    (htables : resolved context clause = tables.map .ok) (condition : Option Expr)
    (effects : Effects) :
    ((ofFrom clause condition context).run).run effects =
      ((ofPlans clause (Query.share clause condition
        (List.zipWith SourcePlan.ofFound clause.tables tables)) context).run).run effects := by
  have hplans : ∀ (refs : List Sql.TableRef) (tables : List ResolvedTable),
      refs.map (fun table => context.resolve table.name) = tables.map .ok →
      refs.map (fun table => (context.resolve table.name).map (SourcePlan.ofFound table)) =
        (List.zipWith SourcePlan.ofFound refs tables).map .ok := by
    intro refs
    induction refs with
    | nil => intro tables _; rfl
    | cons ref refs ih =>
      intro tables h
      cases tables with
      | nil => cases h
      | cons own tables =>
        obtain ⟨hown, hrest⟩ := List.cons.inj h
        dsimp only at hown
        rw [List.map_cons, hown, ih tables hrest]
        rfl
  have hruns := (runs_plans clause).of_eq
    (Result.collect_eq_ok_iff.mpr (hplans clause.tables tables htables))
  rw [ofFrom_eq, Planning.run_bind, hruns effects, List.append_nil]

end JoinPlan

/-! ## Statements -/

namespace Compiling

/-- What a select does behind the tables of its FROM clause, if no visitor is asked. -/
def behind (query : Select) (joined : JoinPlan) : Compiling Task := do
  setLayout joined.layout
  let filter ← condition joined.residual
  let groups ← grouping query
  let having ← condition query.having
  let projected ← projection query.items
  let task ← together query (joined.task :: filter.toList ++ groups.toList ++ having.toList ++
    projected.toList)
  ofResult task.runnable

theorem tables_joins {clause : Sql.From} (hjoins : clause.joins ≠ []) (filter : Option Expr) :
    tables clause filter = plan (JoinPlan.ofFrom clause filter) >>= fun joined =>
      setLayout joined.layout >>= fun _ => pure (joined.task, joined.residual) := by
  unfold tables
  rw [if_neg (by simpa using hjoins)]

theorem rows_joins {query : Select} {clause : Sql.From} (hsource : query.source = some clause) :
    rows none query = tables clause query.condition >>= fun found =>
      condition found.2 >>= fun filter => pure (found.1 :: filter.toList) := by
  unfold rows
  rw [hsource]
  rfl

/-- The tables of a select with joins are planned before everything else. -/
theorem select_joins {query : Select} {clause : Sql.From} (hsource : query.source = some clause)
    (hjoins : clause.joins ≠ []) :
    (select none query >>= fun task => ofResult task.runnable) =
      setLayout .empty >>= fun _ => plan (JoinPlan.ofFrom clause query.condition) >>=
        behind query := by
  have hclauses : ∀ what call own, Compiling.clause none what call own = own := fun _ _ _ => rfl
  simp only [select_eq, hclauses, rows_joins hsource, tables_joins hjoins, bind_assoc, pure_bind]
  rfl

/-- A select from several tables is compiled by planning the tables first. -/
theorem run_compile_joins {query : Select} {clause : Sql.From}
    (hparse : parse context.raw = .ok (.select query)) (hsource : query.source = some clause)
    (hjoins : clause.joins ≠ []) (compilation : Compilation) :
    ((compile none context).run).run compilation =
      (((plan (JoinPlan.ofFrom clause query.condition) >>= behind query) context).run).run
        { compilation with statement := some (.select query), layout := .empty } := by
  have hvisit : visit none (.select query) =
      select none query >>= fun task => pure (.done (some task)) := rfl
  rw [run_compile hparse, hvisit, bind_assoc]
  exact congrArg (fun step : Compiling Task =>
    ((step context).run).run { compilation with statement := some (.select query) })
      (select_joins hsource hjoins)

theorem extends_behind (query : Select) (joined : JoinPlan) :
    Leads context (fun before after => after.effects.Extends before.effects)
      (behind query joined) := by
  refine leads_bind admits_extends (admits_extends.setLayout _) fun _ => ?_
  refine leads_bind admits_extends (leads_condition admits_extends _) fun filter => ?_
  refine leads_bind admits_extends (leads_grouping admits_extends query) fun groups => ?_
  refine leads_bind admits_extends (leads_condition admits_extends _) fun having => ?_
  refine leads_bind admits_extends (leads_projection admits_extends _) fun projected => ?_
  refine leads_bind admits_extends (leads_together admits_extends query _) fun task => ?_
  exact leads_ofResult admits_extends _

theorem yields_make (request : Request) :
    Yields context (make request) fun task => context.planner request = .ok task :=
  fun _ _ _ h => (run_make_eq_ok h).1

/-- The root of a select is made of its tasks, and perhaps one for distinct rows behind them. -/
theorem yields_together (query : Select) (tasks : List Task) :
    Yields context (together query tasks) fun root =>
      ∃ last, context.planner (.sequence "select" (tasks ++ last)) = .ok root := by
  have hmake : ∀ distinct : Option Task,
      Yields context (make (.sequence "select" (tasks ++ distinct.toList))) fun root =>
        ∃ last, context.planner (.sequence "select" (tasks ++ last)) = .ok root :=
    fun distinct compilation root left h => ⟨_, yields_make _ compilation root left h⟩
  unfold together
  by_cases hdistinct : query.distinct = true
  · rw [if_pos hdistinct]
    exact yields_bind (yields_any _) fun distinct _ => hmake distinct
  · rw [if_neg hdistinct]
    exact yields_bind (yields_any _) fun distinct _ => hmake distinct

/-- The joined tables are the first task of the root. -/
theorem yields_behind (query : Select) (joined : JoinPlan) :
    Yields context (behind query joined) fun root =>
      ∃ rest, context.planner (.sequence "select" (joined.task :: rest)) = .ok root := by
  refine yields_bind (yields_any _) fun _ _ => ?_
  refine yields_bind (yields_any _) fun filter _ => ?_
  refine yields_bind (yields_any _) fun groups _ => ?_
  refine yields_bind (yields_any _) fun having _ => ?_
  refine yields_bind (yields_any _) fun projected _ => ?_
  refine yields_bind (yields_together query _) fun task htask => ?_
  obtain ⟨last, htask⟩ := htask
  refine yields_ofResult fun root hroot => ?_
  rw [Task.runnable_eq_ok hroot]
  exact ⟨_, htask⟩

end Compiling

/-! ## The main statement -/

namespace Execution

/-- **A join reports every source that cannot be resolved.** Whatever the planner, schema and
conditions of the statement: if one of the sources of a FROM clause with joins cannot be resolved,
compiling fails with its error, and if several cannot, with their messages line by line. If all can
be, each has its own plan; the planner is asked for the tasks of one after the other, and later for
the rows of no table; and if the statement is compiled, the first task of its root joins what was
made of the plans from left to right, each by its own condition. -/
theorem compile_joins {spec : JobSpec} {world : World} {query : Select} {clause : Sql.From}
    (hvisitor : spec.visitor = none) (hparse : Compiling.parse spec.raw = .ok (.select query))
    (hsource : query.source = some clause) (hjoins : clause.joins ≠ []) :
    let resolved := clause.tables.map fun table => (Execution.context spec world).resolve table.name
    let errors := (Result.errors resolved).errors
    let found := compiled spec world
    (∀ error, errors = [error] → found.1 = .error error) ∧
      (2 ≤ errors.length →
        found.1 = .error (.aggregate (Text.join "\n" (errors.map Error.message)))) ∧
      (errors = [] → ∃ tables plans, resolved = tables.map .ok ∧
        Paired clause query.condition tables plans ∧
        found.2.effects.Extends { world.compilation.effects with
          requests := world.compilation.effects.requests ++
            plans.flatMap fun plan => (plan.side spec.planner).1 } ∧
        ∀ root, found.1 = .ok root → ∃ sides task layout rest,
          plans.map (fun plan => (plan.side spec.planner).2) = sides.map .ok ∧
          JoinPlan.Joined spec.planner clause.joins plans sides clause.joins.length task layout ∧
          spec.planner (.sequence "select" (task :: rest)) = .ok root) := by
  intro resolved errors found
  have hraw : Compiling.parse (Execution.context spec world).raw = .ok (.select query) := hparse
  have hfound : found = ((Compiling.compile none (Execution.context spec world)).run).run
      world.compilation := by
    rw [← hvisitor]
    rfl
  rw [Compiling.run_compile_joins hraw hsource hjoins, Compiling.run_bind,
    Compiling.run_plan] at hfound
  dsimp only at hfound
  have hfails : ∀ error, (Result.errors resolved).error? = some error →
      found.1 = .error error := by
    intro error herror
    rw [JoinPlan.run_ofFrom_error herror] at hfound
    rw [hfound]
  refine ⟨fun error herror => hfails error ?one, fun hseveral => hfails _ ?several,
    fun hnone => ?resolved⟩
  case one =>
    unfold ErrorList.error?
    rw [show (Result.errors resolved).errors = [error] from herror]
  case several => exact ErrorList.error?_of_two_le hseveral
  case resolved =>
    have htables : resolved = (Result.values resolved).map .ok := Result.eq_map_values hnone
    have hlength : (Result.values resolved).length = clause.tables.length := by
      have h := congrArg List.length htables
      rw [List.length_map, List.length_map] at h
      exact h.symm
    have hpaired := paired_share query.condition hlength
    have hplans : clause.tables.length = clause.joins.length + 1 := by
      rw [Sql.From.tables, List.length_cons, List.length_map]
    refine ⟨_, _, htables, hpaired, ?_⟩
    obtain ⟨hextends, hjoined⟩ := JoinPlan.run_ofPlans (hpaired.length_eq.trans hplans)
      world.compilation.effects
    rw [JoinPlan.run_ofFrom htables] at hfound
    generalize ((JoinPlan.ofPlans clause (Query.share clause query.condition
      (List.zipWith SourcePlan.ofFound clause.tables (Result.values resolved)))
        (Execution.context spec world)).run).run world.compilation.effects = ran
      at hfound hextends hjoined
    obtain ⟨result, left⟩ := ran
    cases result with
    | error error =>
      rw [hfound]
      exact ⟨hextends, fun root h => by cases h⟩
    | ok joined =>
      -- what follows the tables of the statement asks for no further rows
      refine ⟨hfound ▸ (Compiling.extends_behind query joined _).trans hextends,
        fun root hroot => ?_⟩
      obtain ⟨sides, hsides, hlast⟩ := hjoined joined rfl
      obtain ⟨rest, hrest⟩ := Compiling.yields_behind query joined _ root _
        (Prod.ext (hfound ▸ hroot) rfl)
      exact ⟨sides, joined.task, joined.layout, rest, hsides, hlast, hrest⟩

/-- The tables of `FROM people JOIN nope ON id = 1 LEFT JOIN gone ON id = owner`. -/
def missingClause : Sql.From :=
  ⟨⟨⟨[⟨"people", false⟩]⟩, none⟩,
    [⟨.inner, ⟨⟨[⟨"nope", false⟩]⟩, none⟩,
        .binary (.ident ⟨"id", false⟩) .eq (.literal (.number "1"))⟩,
      ⟨.left, ⟨⟨[⟨"gone", false⟩]⟩, none⟩,
        .binary (.ident ⟨"id", false⟩) .eq (.ident ⟨"owner", false⟩)⟩]⟩

/-- Two tables that are not there are both reported; two that are there are both planned. -/
theorem compile_joins_family :
    let missing : JobSpec :=
      ⟨"SELECT * FROM people JOIN nope ON id = 1 LEFT JOIN gone ON id = owner", .default, .inMemory,
        none⟩
    let spec : JobSpec :=
      ⟨"SELECT kind FROM people JOIN pets ON id = owner WHERE id = 2", .default, .inMemory, none⟩
    let world : World := .start (some .family) .default
    (compiled missing world).1 =
        .error (.aggregate "Missing table: nope\nMissing table: gone") ∧
      ∃ root tables plans, (compiled spec world).1 = .ok root ∧
        tables.map ResolvedTable.key = ["people", "pets"] ∧
        Paired ownersClause ownersSelect.condition tables plans ∧
        ∃ sides task layout,
          JoinPlan.Joined .inMemory ownersClause.joins plans sides 1 task layout := by
  intro missing spec world
  have hmissing : Compiling.parse missing.raw =
      .ok (.select ⟨false, [.all], none, some missingClause, none, [], none⟩) := by cbv
  have hparse : Compiling.parse spec.raw = .ok (.select ownersSelect) := by cbv
  have hroot : (compiled spec world).1 = .ok (Query.sequence "select"
      (ownersQuery [.filter (.binary (.column 0) .eq (.literal (.int 2)))])
      [.projection [.column 3]]).task := by
    have hquery : Query.ofSelect .family ownersSelect = .ok (.sequence "select"
        (ownersQuery [.filter (.binary (.column 0) .eq (.literal (.int 2)))])
        [.projection [.column 3]], ⟨[⟨some "pets", "kind"⟩]⟩) := rfl
    have hdoes : Compiling.Does (startContext spec .family) .empty (Compiling.compile spec.visitor)
        ((Query.ofSelect .family ownersSelect).map fun query => (query.1.task, query.2)) :=
      does_select rfl hparse (Compiling.leaves_none _) fun call _ => Compiling.leaves_none call
    rw [hquery] at hdoes
    exact (compiled_of_does hdoes).1
  obtain ⟨-, hseveral, -⟩ := @compile_joins missing world _ _ rfl hmissing rfl (by decide)
  obtain ⟨-, -, hnone⟩ := @compile_joins spec world _ _ rfl hparse rfl (by decide)
  refine ⟨hseveral (by decide), ?_⟩
  obtain ⟨tables, plans, htables, hpaired, -, hjoined⟩ := hnone rfl
  obtain ⟨sides, task, layout, rest, -, hjoined, -⟩ := hjoined _ hroot
  refine ⟨_, tables, plans, hroot, ?_, hpaired, sides, task, layout, hjoined⟩
  have hresolved : [⟨"people", ⟨"people", [⟨"id", .int64⟩, ⟨"name", .utf8⟩]⟩⟩,
      ⟨"pets", ⟨"pets", [⟨"owner", .int64⟩, ⟨"kind", .utf8⟩]⟩⟩].map Except.ok =
        tables.map (Except.ok : ResolvedTable → Result ResolvedTable) := htables
  rw [← List.map_injective_iff.mpr (fun _ _ h => Except.ok.inj h) hresolved]
  rfl

end Execution

end SqlPipeline
