import SqlPipeline.Proofs.Query.WherePlans
import SqlPipeline.Proofs.Sql.Scripts

/-!
# Which WHERE clauses a join accepts

A condition can be checked on joined rows only if it can be bound to their columns. The job asks
less of the WHERE clause of an inner join: every conjunct is tried on each table alone, and one that
can be bound to exactly one of them is left to it, even if it cannot be bound to the joined columns
because a name in it is also one of another table.

So a select of all joined columns compiles exactly if each conjunct of its WHERE clause can be bound
to the joined columns or belongs to one table, and otherwise fails with the error of binding a
conjunct that belongs to none (`Execution.accepts_where`). That a name is ambiguous is noticed only
in a conjunct that belongs to no single table.
-/

namespace SqlPipeline

open Sql (Expr Args Select)

/-! ## Binding a condition and its parts -/

namespace Layout

variable {layout : Layout}

mutual

/-- What can be bound to stored columns can be bound in all its parts. -/
theorem Admits.of_mem_parts (hstored : layout.Stored) :
    ∀ {expr part : Expr}, layout.Admits expr → part ∈ expr.parts → layout.Admits part
  | .ident name, part, h, hpart => by
    rw [List.mem_singleton.mp hpart]
    exact h
  | .qualified parts, part, h, hpart => by
    rw [List.mem_singleton.mp hpart]
    exact h
  | .literal value, part, h, hpart => by
    rw [List.mem_singleton.mp hpart]
    exact h
  | .unary op operand, part, h, hpart => by
    rcases List.mem_cons.mp hpart with rfl | hpart
    · exact h
    · obtain ⟨bound, h⟩ := h
      rw [Bound.bind, hstored.computed?_eq_none] at h
      obtain ⟨inner, hinner, -⟩ := Result.bind_eq_ok.mp h
      exact Admits.of_mem_parts hstored ⟨inner, hinner⟩ hpart
  | .binary left op right, part, h, hpart => by
    rcases List.mem_cons.mp hpart with rfl | hpart
    · exact h
    · obtain ⟨bound, h⟩ := h
      rw [Bound.bind, hstored.computed?_eq_none] at h
      obtain ⟨first, hfirst, h⟩ := Result.bind_eq_ok.mp h
      obtain ⟨second, hsecond, -⟩ := Result.bind_eq_ok.mp h
      rcases List.mem_append.mp hpart with hpart | hpart
      · exact Admits.of_mem_parts hstored ⟨first, hfirst⟩ hpart
      · exact Admits.of_mem_parts hstored ⟨second, hsecond⟩ hpart
  | .isNull operand negated, part, h, hpart => by
    rcases List.mem_cons.mp hpart with rfl | hpart
    · exact h
    · obtain ⟨bound, h⟩ := h
      rw [Bound.bind, hstored.computed?_eq_none] at h
      obtain ⟨inner, hinner, -⟩ := Result.bind_eq_ok.mp h
      exact Admits.of_mem_parts hstored ⟨inner, hinner⟩ hpart
  | .nested inner, part, h, hpart => by
    rcases List.mem_cons.mp hpart with rfl | hpart
    · exact h
    · obtain ⟨bound, h⟩ := h
      rw [bind_nested hstored] at h
      exact Admits.of_mem_parts hstored ⟨bound, h⟩ hpart
  | .call function args, part, h, hpart => by
    rcases List.mem_cons.mp hpart with rfl | hpart
    · exact h
    · obtain ⟨bound, h⟩ := h
      rw [Bound.bind, hstored.computed?_eq_none] at h
      obtain ⟨found, -, h⟩ := Result.bind_eq_ok.mp h
      obtain ⟨bounds, hbounds, -⟩ := Result.bind_eq_ok.mp h
      exact admits_of_mem_args hstored hbounds hpart

theorem admits_of_mem_args (hstored : layout.Stored) :
    ∀ {args : Args} {text : String} {bounds : List Bound} {part : Expr},
      Bound.bindArgs layout text args = .ok bounds → part ∈ args.parts → layout.Admits part
  | .nil, _, _, _, _, hpart => by cases hpart
  | .star _, _, _, _, h, _ => by cases h
  | .value arg rest, text, bounds, part, h, hpart => by
    obtain ⟨first, hfirst, h⟩ := Result.bind_eq_ok.mp h
    obtain ⟨more, hmore, -⟩ := Result.bind_eq_ok.mp h
    rcases List.mem_append.mp hpart with hpart | hpart
    · exact Admits.of_mem_parts hstored ⟨first, hfirst⟩ hpart
    · exact admits_of_mem_args hstored hmore hpart

end

/-- A name that can be bound is that of exactly one column. -/
theorem positions_of_admits {name : Sql.Ident} (h : layout.Admits (.ident name)) :
    (layout.positions (·.answers none name.key)).length = 1 := by
  obtain ⟨bound, h⟩ := h
  obtain ⟨i, hi, -⟩ := Result.bind_eq_ok.mp h
  rw [resolve_eq_ok_iff.mp hi]
  rfl

/-- If conjuncts cannot be bound when they are put together, one of them cannot be bound, for the
same reason. -/
theorem bind_conjoin_error (hstored : layout.Stored) {parts : List Expr} {expr : Expr}
    {error : Error} (hexpr : conjoin parts = some expr)
    (h : Bound.bind layout expr = .error error) :
    ∃ part ∈ parts, Bound.bind layout part = .error error := by
  -- conjuncts are put together from the left, so what was built so far varies in the induction
  have hfold : ∀ (rest : List Expr) (first : Expr),
      Bound.bind layout (rest.foldl (fun left right => .binary left .and right) first) =
        .error error → ∃ part ∈ first :: rest, Bound.bind layout part = .error error := by
    intro rest
    induction rest with
    | nil => exact fun first h => ⟨first, List.mem_cons_self, h⟩
    | cons next rest ih =>
      intro first h
      obtain ⟨part, hmem, hpart⟩ := ih _ h
      rcases List.mem_cons.mp hmem with rfl | hmem
      · rw [bind_and hstored] at hpart
        cases hfirst : Bound.bind layout first with
        | error other =>
          rw [hfirst] at hpart
          exact ⟨first, List.mem_cons_self, by rw [hfirst]; exact hpart⟩
        | ok bound =>
          rw [hfirst, Result.ok_bind] at hpart
          cases hnext : Bound.bind layout next with
          | error other =>
            rw [hnext] at hpart
            exact ⟨next, by simp, by rw [hnext]; exact hpart⟩
          | ok second => rw [hnext] at hpart; cases hpart
      · exact ⟨part, by simp [hmem], hpart⟩
  cases parts with
  | nil => cases hexpr
  | cons first rest =>
    cases hexpr
    exact hfold rest first h

end Layout

namespace Query

variable {schema : Schema}

/-! ## The tables -/

/-- Joins whose conditions can be bound can be put together. -/
theorem joinAll_eq_ok :
    ∀ {joins : List Sql.Join} {layouts : List Layout} {rights : List Query} {query : Query}
      {layout : Layout}, joins.length = layouts.length → joins.length = rights.length →
      (∀ i join, joins[i]? = some join →
        (layout.append (.joined (layouts.take (i + 1)))).Admits join.on) →
      ∃ joined, joinAll query layout (joins.zip (rights.zip layouts)) =
        .ok (joined, layout.append (.joined layouts))
  | [], [], [], query, layout, _, _, _ => ⟨query, by simp [joinAll, Layout.append, Layout.joined]⟩
  | added :: joins, right :: layouts, side :: rights, query, layout, hlayouts, hrights, hon => by
    have hfirst : (layout.append right).Admits added.on := by
      have h := hon 0 added rfl
      simpa [Layout.append, Layout.joined] using h
    obtain ⟨on, hbound⟩ := hfirst
    have hlayout : ∀ rest, layout.append (.joined (right :: rest)) =
        (layout.append right).append (.joined rest) := by
      intro rest
      simp [Layout.append, Layout.joined]
    have hrest : ∃ joined, joinAll (.join added.kind on right.width query side)
        (layout.append right) (joins.zip (rights.zip layouts)) =
          .ok (joined, (layout.append right).append (.joined layouts)) :=
      joinAll_eq_ok (Nat.succ.inj hlayouts) (Nat.succ.inj hrights)
        fun i join hjoin => hlayout (layouts.take (i + 1)) ▸ hon (i + 1) join hjoin
    obtain ⟨joined, hjoined⟩ := hrest
    refine ⟨joined, ?_⟩
    rw [hlayout, ← hjoined, List.zip_cons_cons, List.zip_cons_cons, joinAll, hbound]
    rfl

section

variable {select : Select} {clause : Sql.From} {condition : Expr} {plans : List SourcePlan}
  {name : String}

/-- The condition of a table can be bound if its conjuncts are left to the table. -/
theorem query_pushDown (hplans : ∀ plan ∈ plans, plan.layout.Stored) :
    ∃ sides, List.Forall₂ (fun plan side => SourcePlan.query name plan = .ok side)
      (SourcePlan.pushDown plans condition).1 sides := by
  refine exists_forall₂_iff.mpr fun shared hshared => ?_
  obtain ⟨⟨plan, i⟩, hplan, rfl⟩ := List.mem_map.mp hshared
  have hat : plans[i]? = some plan := List.mem_zipIdx_iff_getElem?.mp hplan
  have hstored : plan.layout.Stored := hplans plan (List.mem_of_getElem? hat)
  have hadmits : ∀ expr, pushedTo (plans.map (·.layout)) condition i = some expr →
      plan.layout.Admits expr := by
    intro expr hexpr
    refine (Layout.admits_conjoin hstored hexpr).mpr fun part hpart => ?_
    obtain ⟨layout, hlayout, hown⟩ :=
      admits_of_ownerOf (of_decide_eq_true (List.mem_filter.mp hpart).2)
    rw [List.getElem?_map, hat] at hlayout
    cases hlayout
    exact hown
  obtain ⟨filter, hfilter, -⟩ := rows_condition hadmits
  refine ⟨.sequence (name ++ "(" ++ plan.binding ++ ")") (.source plan.binding plan.table.key)
    (filter.map Step.filter).toList, ?_⟩
  unfold SourcePlan.query
  rw [hfilter]
  rfl

/-- **The joined tables are found whatever the condition is** that is shared out among them. -/
theorem joinSides_pushDown (hplans : ∀ plan ∈ plans, plan.layout.Stored)
    (hlength : plans.length = clause.joins.length + 1)
    (hons : ∀ i join, clause.joins[i]? = some join →
      (Layout.joined ((plans.map (·.layout)).take (i + 2))).Admits join.on) :
    ∃ joined, joinSides clause (SourcePlan.pushDown plans condition).1 =
      .ok (joined, .joined (plans.map (·.layout))) := by
  obtain ⟨sides, hsides⟩ := query_pushDown hplans
  have hcount : sides.length = clause.joins.length + 1 := by
    rw [← hsides.length_eq, ← List.length_map (·.layout), map_layout_pushDown, List.length_map,
      hlength]
  unfold joinSides
  rw [Result.collect_map_eq_ok_iff.mpr hsides, map_layout_pushDown, Result.ok_bind]
  rw [← List.length_map (·.layout)] at hlength
  generalize plans.map (·.layout) = layouts at hlength hons
  match layouts, sides, hlength, hcount with
  | layout :: rest, first :: rights, hlength, hcount =>
    exact joinAll_eq_ok (Nat.succ.inj hlength).symm (Nat.succ.inj hcount).symm hons

/-- Selecting all columns and nothing else can be done on any rows. -/
theorem outputs_all (layout : Layout) (hitems : select.items = [.all])
    (hgroupBy : select.groupBy = []) (hhaving : select.having = none) :
    ∃ found, outputs layout select = .ok found := by
  unfold outputs grouping condition projection
  rw [hitems, hgroupBy, hhaving]
  exact ⟨_, rfl⟩

/-- **A select of all columns is compiled exactly if what remains of its condition can be bound to
the joined columns.** -/
theorem ofSelect_all (hitems : select.items = [.all]) (hgroupBy : select.groupBy = [])
    (hhaving : select.having = none) (hsource : select.source = some clause)
    (hcondition : select.condition = some condition) (hjoins : clause.joins ≠ [])
    (hinner : ∀ join ∈ clause.joins, join.kind = .inner)
    (hplans : Result.collect (clause.tables.map (SourcePlan.ofRef schema)) = .ok plans)
    (hons : ∀ i join, clause.joins[i]? = some join →
      (Layout.joined ((plans.map (·.layout)).take (i + 2))).Admits join.on) :
    (ofSelect schema select).map (fun _ => ()) =
      ((residual (plans.map (·.layout)) condition).mapM
        (Bound.bind (.joined (plans.map (·.layout))))).map fun _ => () := by
  obtain ⟨hstands, hstored, hlength⟩ := plans_of_refs hplans
  have hlayouts : ∀ plan ∈ plans, plan.layout.Stored := by
    intro plan hplan column hcolumn
    have hlayout : plan.layout ∈ plans.map (·.layout) := List.mem_map.mpr ⟨plan, hplan, rfl⟩
    exact hstored column (List.mem_flatMap.mpr ⟨plan.layout, hlayout, hcolumn⟩)
  obtain ⟨joined, hjoined⟩ := joinSides_pushDown hlayouts hlength hons
  unfold ofSelect rows
  rw [hsource, hcondition]
  dsimp only
  rw [ofTables_some hjoins hinner hplans, hjoined, Result.ok_bind, Result.ok_bind]
  dsimp only
  unfold Query.condition
  cases (residual (plans.map (·.layout)) condition).mapM
      (Bound.bind (.joined (plans.map (·.layout)))) with
  | error error => rfl
  | ok filter =>
    obtain ⟨found, hfound⟩ := outputs_all (.joined (plans.map (·.layout))) hitems hgroupBy hhaving
    show Except.map _ (withOutputs select (joined, filter.map Step.filter,
      .joined (plans.map (·.layout)))) = _
    unfold withOutputs
    rw [hfound]
    rfl

end

/-! ## What remains of the condition -/

/-- What remains of a condition can be bound exactly if each conjunct that belongs to no table can
be. -/
theorem binds_residual_iff {layouts : List Layout} {whole : Layout} (hstored : whole.Stored)
    (condition : Expr) :
    (∃ filter, (residual layouts condition).mapM (Bound.bind whole) = .ok filter) ↔
      ∀ part ∈ conjuncts condition, whole.Admits part ∨ (ownerOf layouts part).isSome = true := by
  have hparts : (∀ expr, residual layouts condition = some expr → whole.Admits expr) ↔
      ∀ part ∈ (conjuncts condition).filter fun part => ownerOf layouts part = none,
        whole.Admits part := by
    unfold residual
    cases hfound : (conjuncts condition).filter fun part => ownerOf layouts part = none with
    | nil => simp [conjoin]
    | cons first rest =>
      rw [← Layout.admits_conjoin hstored (rfl : conjoin (first :: rest) = some _)]
      simp [conjoin]
  have hmapM : (∃ filter, (residual layouts condition).mapM (Bound.bind whole) = .ok filter) ↔
      ∀ expr, residual layouts condition = some expr → whole.Admits expr := by
    refine ⟨fun ⟨filter, hfilter⟩ expr hexpr => ?_, fun h => ?_⟩
    · rw [hexpr, Option.mapM_some] at hfilter
      obtain ⟨bound, hbound, -⟩ := Result.bind_eq_ok.mp hfilter
      exact ⟨bound, hbound⟩
    · obtain ⟨filter, hfilter, -⟩ := rows_condition h
      exact ⟨filter, hfilter⟩
  rw [hmapM, hparts]
  refine ⟨fun h part hpart => ?_, fun h part hpart => ?_⟩
  · cases howner : ownerOf layouts part with
    | none => exact Or.inl (h part (List.mem_filter.mpr ⟨hpart, by simp [howner]⟩))
    | some i => exact Or.inr rfl
  · obtain ⟨hconjunct, howner⟩ := List.mem_filter.mp hpart
    have hnone : ownerOf layouts part = none := of_decide_eq_true howner
    exact (h part hconjunct).resolve_right (by simp [hnone])

theorem exists_residual_of_error {layout : Layout} {rest : Option Expr} {error : Error}
    (h : rest.mapM (Bound.bind layout) = .error error) :
    ∃ expr, rest = some expr ∧ Bound.bind layout expr = .error error := by
  cases rest with
  | none => cases h
  | some expr =>
    rw [Option.mapM_some] at h
    refine ⟨expr, rfl, ?_⟩
    cases hbound : Bound.bind layout expr with
    | ok bound => rw [hbound] at h; cases h
    | error other => rw [hbound] at h; cases h; rfl

end Query

/-! ## The main statement -/

namespace Execution

variable {spec : JobSpec} {schema : Schema} {select : Select} {clause : Sql.From}
  {condition : Expr} {plans : List SourcePlan}

/-- A select of all columns comes as far as what remains of its condition lets it. -/
theorem run_all (hschema : schema.InMemory) (hplanner : spec.planner = Planner.inMemory)
    (hvisitor : spec.visitor = none) (hparse : Compiling.parse spec.raw = .ok (.select select))
    {rest : Result (Option Bound)}
    (hselect : (Query.ofSelect schema select).map (fun _ => ()) = rest.map fun _ => ()) :
    let execution := (Execution.run spec (.start (some schema) spec.config)).1
    (∀ filter, rest = .ok filter → execution.phase ≠ .compile) ∧
      ∀ error, rest = .error error →
        execution = ⟨.compile, none, none, none, some (.error error)⟩ := by
  intro execution
  obtain ⟨hfails, hruns⟩ := run_select hschema hplanner hvisitor hparse
  constructor
  · rintro filter rfl
    cases hquery : Query.ofSelect schema select with
    | error error => rw [hquery] at hselect; cases hselect
    | ok found =>
      obtain ⟨last, -, -, hrun⟩ := hruns found.1 found.2 hquery
      have hexecution : execution = _ := congrArg Prod.fst hrun
      rw [hexecution, ofFlow]
      split <;> simp
  · rintro error rfl
    cases hquery : Query.ofSelect schema select with
    | ok found => rw [hquery] at hselect; cases hselect
    | error other =>
      rw [hquery] at hselect
      cases hselect
      obtain ⟨last, -, hrun⟩ := hfails error hquery
      exact congrArg Prod.fst hrun

/-- **Which WHERE clauses a select from inner joins accepts.** Execute `SELECT *` from inner joins
of tables in memory whose ON clauses can be bound. It compiles exactly if each conjunct of the WHERE
clause can be bound to the joined columns or to exactly one table. So it does if the whole clause
can be bound to the joined columns. A conjunct with a name that is not that of exactly one joined
column is accepted only because it can be bound to exactly one table. If the select does not
compile, it fails with the error of binding to the joined columns a conjunct that belongs to no
table. -/
theorem accepts_where (hschema : schema.InMemory) (hplanner : spec.planner = Planner.inMemory)
    (hvisitor : spec.visitor = none)
    (hparse : Compiling.parse spec.raw = .ok (.select select))
    (hitems : select.items = [.all]) (hgroupBy : select.groupBy = [])
    (hhaving : select.having = none)
    (hsource : select.source = some clause) (hjoins : clause.joins ≠ [])
    (hinner : ∀ join ∈ clause.joins, join.kind = .inner)
    (hcondition : select.condition = some condition)
    (hplans : Result.collect (clause.tables.map (SourcePlan.ofRef schema)) = .ok plans)
    (hons : ∀ i join, clause.joins[i]? = some join →
      (Layout.joined ((plans.map (·.layout)).take (i + 2))).Admits join.on) :
    let execution := (Execution.run spec (.start (some schema) spec.config)).1
    let layouts := plans.map (·.layout)
    let whole := Layout.joined layouts
    (execution.phase ≠ .compile ↔ ∀ part ∈ conjuncts condition,
      whole.Admits part ∨ (ownerOf layouts part).isSome = true) ∧
    (whole.Admits condition → execution.phase ≠ .compile) ∧
    (execution.phase ≠ .compile → ∀ part ∈ conjuncts condition, ∀ name : Sql.Ident,
      .ident name ∈ part.parts → (whole.positions (·.answers none name.key)).length ≠ 1 →
        (ownerOf layouts part).isSome = true) ∧
    (execution.phase = .compile → ∃ part ∈ conjuncts condition, ownerOf layouts part = none ∧
      ∃ error, Bound.bind whole part = .error error ∧
        execution.failure = some (.error error)) := by
  intro execution layouts whole
  obtain ⟨-, hstored, -⟩ := Query.plans_of_refs hplans
  obtain ⟨hruns, hfails⟩ := run_all hschema hplanner hvisitor hparse
    (Query.ofSelect_all hitems hgroupBy hhaving hsource hcondition hjoins hinner hplans hons)
  have hbinds := @Query.binds_residual_iff layouts whole hstored condition
  cases hrest : (residual layouts condition).mapM (Bound.bind whole) with
  | ok filter =>
    have haccepts := hbinds.mp ⟨filter, hrest⟩
    have hphase : execution.phase ≠ .compile := hruns filter hrest
    refine ⟨iff_of_true hphase haccepts, fun _ => hphase, fun _ part hpart name hname hshared => ?_,
      fun h => absurd h hphase⟩
    refine (haccepts part hpart).resolve_left fun hadmits => hshared ?_
    exact Layout.positions_of_admits (Layout.Admits.of_mem_parts hstored hadmits hname)
  | error error =>
    have hexecution : execution = ⟨.compile, none, none, none, some (.error error)⟩ :=
      hfails error hrest
    have hphase : ¬execution.phase ≠ .compile := by simp [hexecution]
    have hrejects : ¬∀ part ∈ conjuncts condition,
        whole.Admits part ∨ (ownerOf layouts part).isSome = true := by
      rw [← hbinds]
      rintro ⟨filter, hfilter⟩
      cases hrest.symm.trans hfilter
    refine ⟨iff_of_false hphase hrejects, fun hadmits => ?_, fun h => absurd h hphase, fun _ => ?_⟩
    · exact absurd (fun part hpart =>
        Or.inl ((Layout.admits_conjuncts hstored condition).mp hadmits part hpart)) hrejects
    · obtain ⟨expr, hexpr, hbind⟩ := Query.exists_residual_of_error hrest
      obtain ⟨part, hpart, herror⟩ := Layout.bind_conjoin_error hstored hexpr hbind
      obtain ⟨hconjunct, howner⟩ := List.mem_filter.mp hpart
      exact ⟨part, hconjunct, of_decide_eq_true howner, error, herror, by rw [hexecution]⟩

/-- People and their pets. Both tables have a column named `id`. -/
def numberedPets : Schema :=
  ⟨"family",
    [("people", ⟨⟨"people", [⟨"id", .int64⟩, ⟨"name", .utf8⟩]⟩, .readWrite,
        [[.int 1, .utf8 "ann"], [.int 2, .utf8 "bob"]]⟩),
      ("pets", ⟨⟨"pets", [⟨"id", .int64⟩, ⟨"owner", .int64⟩]⟩, .readWrite,
        [[.int 2, .int 2], [.int 7, .int 1]]⟩)]⟩

theorem inMemory_numberedPets : numberedPets.InMemory := by
  decide

/-- The tables of `FROM people JOIN pets ON people.id = owner`. -/
def numberedClause : Sql.From :=
  ⟨⟨⟨[⟨"people", false⟩]⟩, none⟩, [⟨.inner, ⟨⟨[⟨"pets", false⟩]⟩, none⟩,
    .binary (.qualified [⟨"people", false⟩, ⟨"id", false⟩]) .eq (.ident ⟨"owner", false⟩)⟩]⟩

def numberedPlans : List SourcePlan :=
  [⟨"people", ⟨"people", ⟨"people", [⟨"id", .int64⟩, ⟨"name", .utf8⟩]⟩⟩,
      ⟨[⟨some "people", "id"⟩, ⟨some "people", "name"⟩]⟩, none⟩,
    ⟨"pets", ⟨"pets", ⟨"pets", [⟨"id", .int64⟩, ⟨"owner", .int64⟩]⟩⟩,
      ⟨[⟨some "pets", "id"⟩, ⟨some "pets", "owner"⟩]⟩, none⟩]

/-- The condition `id = owner`. -/
def ownNumber : Expr :=
  .binary (.ident ⟨"id", false⟩) .eq (.ident ⟨"owner", false⟩)

/-- The job of `SELECT * FROM people JOIN pets ON people.id = owner WHERE id = owner`. -/
def numberedSpec : JobSpec :=
  ⟨"SELECT * FROM people JOIN pets ON people.id = owner WHERE id = owner", .default, .inMemory,
    none⟩

theorem parse_numberedSpec : Compiling.parse numberedSpec.raw =
    .ok (.select ⟨false, [.all], none, some numberedClause, some ownNumber, [], none⟩) :=
  Sql.Script.eq_ok_of_toOption (by decide +kernel)

theorem plans_numberedClause :
    Result.collect (numberedClause.tables.map (SourcePlan.ofRef numberedPets)) =
      .ok numberedPlans := rfl

theorem admits_numberedClause : ∀ i join, numberedClause.joins[i]? = some join →
    (Layout.joined ((numberedPlans.map (·.layout)).take (i + 2))).Admits join.on := by
  intro i join hjoin
  cases i with
  | zero => cases hjoin; exact ⟨.binary (.column 0) .eq (.column 3), rfl⟩
  | succ i => cases hjoin

/-- The only conjunct belongs to the pets. -/
theorem accepts_where_numbered :
    numberedPets.InMemory ∧
      (∀ i join, numberedClause.joins[i]? = some join →
        (Layout.joined ((numberedPlans.map (·.layout)).take (i + 2))).Admits join.on) ∧
      ((Execution.run numberedSpec (.start (some numberedPets) numberedSpec.config)).1.phase ≠
          .compile ↔
        ∀ part ∈ conjuncts ownNumber, (Layout.joined (numberedPlans.map (·.layout))).Admits part ∨
          (ownerOf (numberedPlans.map (·.layout)) part).isSome = true) := by
  have haccepts := @accepts_where numberedSpec numberedPets _ numberedClause ownNumber numberedPlans
    inMemory_numberedPets rfl rfl parse_numberedSpec rfl rfl rfl rfl (by simp [numberedClause])
    (by simp [numberedClause]) rfl plans_numberedClause admits_numberedClause
  exact ⟨inMemory_numberedPets, admits_numberedClause, haccepts.1⟩

/-- The sources resolve and the ON clause can be bound. The name `id` is ambiguous in the joined
rows, but the select compiles and gives rows. -/
theorem accepts_ambiguous_name :
    let execution :=
      (Execution.run numberedSpec (.start (some numberedPets) numberedSpec.config)).1
    Result.collect (numberedClause.tables.map (SourcePlan.ofRef numberedPets)) =
        .ok numberedPlans ∧
      (∀ i join, numberedClause.joins[i]? = some join →
        (Layout.joined ((numberedPlans.map (·.layout)).take (i + 2))).Admits join.on) ∧
      Bound.bind (.joined (numberedPlans.map (·.layout))) ownNumber =
        .error (.ambiguousColumn "id") ∧
      execution.phase = .done ∧
      execution.rows = some [[.int 2, .utf8 "bob", .int 2, .int 2]] := by
  intro execution
  have hquery : Query.ofSelect numberedPets
      ⟨false, [.all], none, some numberedClause, some ownNumber, [], none⟩ =
    .ok (.sequence "select"
      (.join .inner (.binary (.column 0) .eq (.column 3)) 2
        (.sequence "join_side(people)" (.source "people" "people") [])
        (.sequence "join_side(pets)" (.source "pets" "pets")
          [.filter (.binary (.column 0) .eq (.column 1))]))
      [.projection [.column 0, .column 1, .column 2, .column 3]],
      .joined (numberedPlans.map (·.layout))) := rfl
  obtain ⟨-, hruns⟩ := run_select inMemory_numberedPets rfl rfl parse_numberedSpec
  obtain ⟨last, -, -, hrun⟩ := hruns _ _ hquery
  refine ⟨plans_numberedClause, admits_numberedClause, rfl, ?_, ?_⟩
  · exact (congrArg (fun found => found.1.phase) hrun).trans rfl
  · exact (congrArg (fun found => found.1.rows) hrun).trans rfl

end Execution
end SqlPipeline
