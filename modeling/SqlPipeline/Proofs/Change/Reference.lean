import SqlPipeline.Plan.Compile
import SqlPipeline.Proofs.Bound.Holds
import SqlPipeline.Proofs.Change.Columns
import SqlPipeline.Proofs.Table.Calls

/-!
# What changing statements are to do

A reference for the four statements that change a table, written down from the statement and the
rows alone: which rows are selected, which value each column of a new row has, and which number the
statement gives (`Sql.Statement.Makes`). It knows nothing of tasks, callbacks or positions in rows
that are built up step by step.

**A change that is bound to a statement, and succeeds, does what the reference says**
(`Change.makes_insert`, `Change.makes_upsert`, `Change.makes_update`, `Change.makes_delete`).
-/

namespace SqlPipeline

open Sql (Expr)

def Layout.value (layout : Layout) (row : Row) (expr : Expr) : Result Value :=
  Bound.bind layout expr >>= fun bound => bound.eval row

/-! ## The reference -/

namespace Sql

def Statement.target? : Statement → Option ObjectName
  | .insert rows => some rows.table
  | .upsert rows => some rows.table
  | .update change => some change.table
  | .delete change => some change.table
  | _ => none

/-- The columns that the values of an INSERT are for, each at most once: all of them if none are
named. -/
def Insert.Names (insert : Insert) (definition : TableDef) (columns : List Nat) : Prop :=
  columns.Nodup ∧
    if insert.columns.isEmpty then columns = List.range definition.columns.length
    else List.Forall₂ (fun name i => definition.position? name.key = some i) insert.columns columns

/-- The stored rows that an INSERT builds: the values of its expressions in the columns they are
for, cast to the types of the columns, and NULL in all others. -/
def Insert.Builds (insert : Insert) (definition : TableDef) (built : List Row) : Prop :=
  ∃ columns, insert.Names definition columns ∧
    List.Forall₂ (fun exprs row => exprs.length = columns.length ∧
      definition.Writes (Layout.empty.value Row.empty) (columns.zip exprs)
        (Row.nulls definition.columns.length) row) insert.rows built

/-- The layout of a table under the name by which a statement changes it. -/
def ObjectName.layout (name : ObjectName) (definition : TableDef) : Layout :=
  .ofTable name.baseKey definition

/-- Whether a row is one of those that are changed: its WHERE is true, or there is none. -/
def isSelected (layout : Layout) (condition : Option Expr) (row : Row) : Bool :=
  condition.all (layout.holds row)

/-- What an UPDATE makes of the rows of a table. All assignments are evaluated on the old row, and
the last one to a column counts. -/
def Update.Makes (update : Update) (definition : TableDef) (old new : List Row) : Prop :=
  ∃ columns : List Nat,
    List.Forall₂ (fun (assignment : Assignment) i =>
      (update.table.layout definition).resolve none assignment.column.key = .ok i)
      update.assignments columns ∧
    List.Forall₂ (fun before after =>
      if isSelected (update.table.layout definition) update.condition before then
        definition.Writes ((update.table.layout definition).value before)
          (columns.zip (update.assignments.map (·.value))) before after
      else after = before) old new

/-- What a statement is to make of the table it changes, and the number it is to give. -/
def Statement.Makes (before : Table) (n : Nat) (left : Table) : Statement → Prop
  | .insert rows =>
    ∃ built, rows.Builds before.definition built ∧ n = built.length ∧
      left = { before with rows := before.rows ++ built }
  | .upsert rows =>
    ∃ built, rows.Builds before.definition built ∧ n = built.length ∧
      before.upsert built = (.ok n, left)
  | .update change =>
    let selected := isSelected (change.table.layout before.definition) change.condition
    n = before.rows.countP selected ∧ ∃ rows, change.Makes before.definition before.rows rows ∧
      left = { before with rows := rows }
  | .delete change =>
    let selected := isSelected (change.table.layout before.definition) change.condition
    n = before.rows.countP selected ∧
      left = { before with rows := before.rows.filter fun row => !selected row }
  | _ => False

end Sql

/-! ## Passes over the rows -/

namespace Table

variable {definition : TableDef} {selected : Row → Bool}

/-- An update that asks of each row on its own replaces the rows it gives a new one for. -/
theorem updateRows_each {change : Row → Result (Option Row)}
    (hselected : ∀ row answer, change row = .ok answer → answer.isSome = selected row) :
    ∀ {rows : List Row} {start last : Unit} {n : Nat} {out : List Row},
      (updateRows definition (fun row => StateT.lift (change row)) rows).run start =
          .ok ((n, out), last) →
        n = rows.countP selected ∧
          List.Forall₂ (fun before after =>
            if selected before then ∃ changed, change before = .ok (some changed) ∧
              definition.coerce changed = .ok after
            else after = before) rows out
  | [], start, last, n, out, h => by
    cases h
    exact ⟨rfl, .nil⟩
  | row :: rest, start, last, n, out, h => by
    rw [updateRows, StateT.run_bind, Result.bind_eq_ok] at h
    obtain ⟨⟨answer, middle⟩, hask, h⟩ := h
    obtain ⟨hanswer, -⟩ := Result.run_lift_eq_ok.mp hask
    have hrow := hselected row answer hanswer
    cases answer with
    | none =>
      simp only [StateT.run_bind, Result.bind_eq_ok] at h
      obtain ⟨⟨⟨m, rows⟩, final⟩, hrows, h⟩ := h
      cases h
      obtain ⟨hcount, hout⟩ := updateRows_each hselected hrows
      have hnot : selected row = false := hrow.symm
      exact ⟨by simp [hcount, hnot], .cons (by simp [hnot]) hout⟩
    | some changed =>
      simp only [StateT.run_bind, Result.bind_eq_ok] at h
      obtain ⟨⟨stored, kept⟩, hstored, ⟨⟨m, rows⟩, final⟩, hrows, h⟩ := h
      cases h
      obtain ⟨hcoerce, -⟩ := Result.run_lift_eq_ok.mp hstored
      obtain ⟨hcount, hout⟩ := updateRows_each hselected hrows
      have hyes : selected row = true := hrow.symm
      refine ⟨by simp [hcount, hyes], .cons ?_ hout⟩
      rw [if_pos hyes]
      exact ⟨changed, hanswer, hcoerce⟩

/-- A delete stops at the first row of which it cannot be told whether it is selected, and otherwise
keeps those that are not. -/
theorem run_remaining {accepts : Row → Result Bool}
    (hselected : ∀ row answer, accepts row = .ok answer → answer = selected row) :
    ∀ rows : List Row, (remaining (fun row => StateT.lift (accepts row)) rows).run () =
      (rows.mapM accepts).map fun _ => (rows.filter fun row => !selected row, ())
  | [] => rfl
  | row :: rest => by
    rw [remaining, List.mapM_cons, StateT.run_bind]
    cases hrow : accepts row with
    | error error => rfl
    | ok removed =>
      have hremoved : removed = selected row := hselected row removed hrow
      show (StateT.run (remaining _ rest >>= fun kept =>
        return if removed then kept else row :: kept) () : Result (List Row × Unit)) = _
      rw [StateT.run_bind, run_remaining hselected rest, List.filter_cons, ← hremoved]
      cases rest.mapM accepts with
      | error error => rfl
      | ok answers => cases removed <;> rfl

/-- An update that gives each selected row back as it was counts the selected rows and changes
none. -/
theorem run_updateRows {definition : TableDef} {change : Row → Result (Option Row)}
    {accepts : Row → Result Bool}
    (hselected : ∀ row answer, accepts row = .ok answer → answer = selected row) :
    ∀ {rows : List Row}, (∀ row ∈ rows, definition.coerce row = .ok row ∧
        change row = (accepts row).map fun answer => if answer then some row else none) →
      (updateRows definition (fun row => StateT.lift (change row)) rows).run () =
        (rows.mapM accepts).map fun _ => ((rows.countP selected, rows), ())
  | [], _ => rfl
  | row :: rest, hrows => by
    obtain ⟨⟨hcoerce, hchange⟩, hrest⟩ := List.forall_mem_cons.mp hrows
    rw [updateRows, List.mapM_cons, StateT.run_bind, hchange]
    cases hrow : accepts row with
    | error error => rfl
    | ok answer =>
      have hanswer : answer = selected row := hselected row answer hrow
      cases answer with
      | false =>
        show (StateT.run (updateRows definition _ rest >>= fun found =>
          return (found.1, row :: found.2)) () : Result ((Nat × List Row) × Unit)) = _
        rw [StateT.run_bind, run_updateRows hselected hrest, List.countP_cons, ← hanswer]
        cases rest.mapM accepts <;> rfl
      | true =>
        show (StateT.run (StateT.lift (definition.coerce row) >>= fun stored =>
          updateRows definition _ rest >>= fun found =>
            return (found.1 + 1, stored :: found.2)) () : Result ((Nat × List Row) × Unit)) = _
        rw [hcoerce]
        show (StateT.run (updateRows definition _ rest >>= fun found =>
          return (found.1 + 1, row :: found.2)) () : Result ((Nat × List Row) × Unit)) = _
        rw [StateT.run_bind, run_updateRows hselected hrest, List.countP_cons, ← hanswer]
        cases rest.mapM accepts <;> rfl

/-- A delete that asks of each row on its own keeps the others. -/
theorem remaining_each {accepts : Row → Result Bool}
    (hselected : ∀ row answer, accepts row = .ok answer → answer = selected row)
    {rows : List Row} {start last : Unit} {kept : List Row}
    (h : (remaining (fun row => StateT.lift (accepts row)) rows).run start = .ok (kept, last)) :
    kept = rows.filter fun row => !selected row := by
  rw [run_remaining hselected rows] at h
  cases hanswers : rows.mapM accepts with
  | error error => rw [hanswers] at h; cases h
  | ok answers => rw [hanswers] at h; cases h; rfl

end Table

/-! ## Changes are calls -/

namespace Change

/-- A change is made by one call, or fails before it makes one. -/
theorem apply_cases (change : Change) (rows : List Row) (table : Table) :
    (∃ error, change.apply rows table = (.error error, table)) ∨
      ∃ call : Table.Call, change.apply rows table = table.call call := by
  cases change with
  | insert columns =>
    simp only [apply]
    split
    · next error _ => exact Or.inl ⟨error, rfl⟩
    · next full _ => exact Or.inr ⟨.insert full, rfl⟩
  | upsert columns =>
    simp only [apply]
    split
    · next error _ => exact Or.inl ⟨error, rfl⟩
    · next full _ => exact Or.inr ⟨.upsert full, rfl⟩
  | update assignments condition => exact Or.inr ⟨.update _, rfl⟩
  | delete condition => exact Or.inr ⟨.delete _, rfl⟩

/-- A change that fails leaves the table as it was. -/
theorem apply_of_error {change : Change} {rows : List Row} {table left : Table} {error : Error}
    (h : change.apply rows table = (.error error, left)) : left = table := by
  rcases apply_cases change rows table with ⟨other, hother⟩ | ⟨call, hcall⟩
  · rw [hother] at h
    cases h
    rfl
  · rw [hcall] at h
    have hsame := Table.call_of_error (congrArg Prod.fst h)
    rwa [h] at hsame

end Change

/-! ## Changes that are bound to statements -/

namespace Change

variable {before left : Table} {n : Nat}

/-- A bound WHERE accepts the rows it selects. -/
theorem isSelected_of_selects {layout : Layout} {condition : Option Expr} {filter : Option Bound}
    (hbind : condition.mapM (Bound.bind layout) = .ok filter) {row : Row} {answer : Bool}
    (h : selects filter row = .ok answer) : answer = Sql.isSelected layout condition row := by
  unfold Sql.isSelected
  cases condition with
  | none =>
    cases hbind
    cases h
    rfl
  | some expr =>
    rw [Option.mapM_some] at hbind
    cases hbound : Bound.bind layout expr with
    | error error => rw [hbound] at hbind; cases hbind
    | ok bound =>
      rw [hbound] at hbind
      cases hbind
      rw [Option.all_some, Layout.holds_of_bind hbound]
      unfold Bound.holds
      rw [show bound.accepts row = .ok answer from h]

/-- The values that an INSERT evaluates for a row are those of its expressions. -/
theorem values_of_insertRow {columns : Nat} {exprs : List Expr} {values : Row}
    (h : Compiling.insertRow columns exprs = .ok values) :
    exprs.length = columns ∧
      List.Forall₂ (fun expr value => Layout.empty.value Row.empty expr = .ok value) exprs
        values := by
  unfold Compiling.insertRow at h
  split at h
  · next hlength => exact ⟨hlength, Result.mapM_eq_ok_iff.mp h⟩
  · cases h

theorem forall₂_zip {value : Expr → Result Value} :
    ∀ {columns : List Nat} {exprs : List Expr} {values : Row},
      List.Forall₂ (fun expr found => value expr = .ok found) exprs values →
      List.Forall₂ (fun own pair => own.1 = pair.1 ∧ value own.2 = .ok pair.2)
        (columns.zip exprs) (columns.zip values)
  | [], _, _, _ => .nil
  | _ :: _, _, _, .nil => .nil
  | _ :: _, _, _, .cons hfirst hrest => .cons ⟨rfl, hfirst⟩ (forall₂_zip hrest)

/-- **A row of an INSERT is stored as it is to be built.** -/
theorem writes_of_widen {definition : TableDef} {columns : List Nat} {exprs : List Expr}
    {values full row : Row} (hvalues : Compiling.insertRow columns.length exprs = .ok values)
    (hwiden : widen columns definition.columns.length values = .ok full)
    (hstored : definition.coerce full = .ok row) :
    exprs.length = columns.length ∧
      definition.Writes (Layout.empty.value Row.empty) (columns.zip exprs)
        (Row.nulls definition.columns.length) row := by
  obtain ⟨hlength, hall⟩ := values_of_insertRow hvalues
  refine ⟨hlength, ?_⟩
  unfold widen at hwiden
  split at hwiden
  · rw [setColumns_eq] at hwiden
    exact TableDef.writes_of_setAll (forall₂_zip hall) (TableDef.fits_nulls definition) hwiden
      hstored
  · cases hwiden

/-- **The rows of an INSERT are stored as it is to build them.** -/
theorem builds_of_widen {insert : Sql.Insert} {definition : TableDef} {columns : List Nat}
    {rows full stored : List Row} (hnames : insert.Names definition columns)
    (hrows : insert.rows.mapM (Compiling.insertRow columns.length) = .ok rows)
    (hwiden : rows.mapM (widen columns definition.columns.length) = .ok full)
    (hstored : full.mapM definition.coerce = .ok stored) : insert.Builds definition stored := by
  refine ⟨columns, hnames, ?_⟩
  -- the three passes over the rows go in step
  rw [Result.mapM_eq_ok_iff] at hrows hwiden hstored
  generalize insert.rows = lists at hrows
  induction hrows generalizing full stored with
  | nil =>
    cases hwiden
    cases hstored
    exact .nil
  | cons hvalues _ ih =>
    cases hwiden with
    | cons hfull hfulls =>
      cases hstored with
      | cons hrow hrest => exact .cons (writes_of_widen hvalues hfull hrow) (ih hfulls hrest)

/-- **An INSERT that succeeds does what it is to do.** -/
theorem makes_insert {insert : Sql.Insert} {columns : List Nat} {rows : List Row}
    (hnames : insert.Names before.definition columns)
    (hrows : insert.rows.mapM (Compiling.insertRow columns.length) = .ok rows)
    (h : (Change.insert columns).apply rows before = (.ok n, left)) :
    (Sql.Statement.insert insert).Makes before n left := by
  simp only [apply] at h
  split at h
  · cases h
  · next full hwiden =>
    obtain ⟨stored, hstored, hn, hleft⟩ := Table.insert_eq_ok h
    exact ⟨stored, builds_of_widen hnames hrows hwiden hstored, hn, hleft⟩

/-- **An UPSERT that succeeds does what it is to do.** -/
theorem makes_upsert {insert : Sql.Insert} {columns : List Nat} {rows : List Row}
    (hnames : insert.Names before.definition columns)
    (hrows : insert.rows.mapM (Compiling.insertRow columns.length) = .ok rows)
    (h : (Change.upsert columns).apply rows before = (.ok n, left)) :
    (Sql.Statement.upsert insert).Makes before n left := by
  simp only [apply] at h
  split at h
  · cases h
  · next full hwiden =>
    obtain ⟨stored, hstored, hn, hupsert⟩ := Table.upsert_eq_ok h
    exact ⟨stored, builds_of_widen hnames hrows hwiden hstored, hn, hupsert⟩

/-- The row that an UPDATE makes of a selected one is stored as it is to be written. -/
theorem writes_of_assign {layout : Layout} {definition : TableDef}
    {written : List Sql.Assignment} {assignments : List (Nat × Bound)} {old changed row : Row}
    (hold : definition.Fits old)
    (hwritten : List.Forall₂ (fun own bound => Compiling.assignment layout own = .ok bound) written
      assignments)
    (hassign : assign old assignments old = .ok changed)
    (hstored : definition.coerce changed = .ok row) :
    definition.Writes (layout.value old)
      ((assignments.map (·.1)).zip (written.map (·.value))) old row := by
  obtain ⟨pairs, hpairs, hset⟩ := setAll_of_assign hassign
  refine TableDef.writes_of_setAll ?_ hold hset hstored
  clear hassign hset
  induction hwritten generalizing pairs with
  | nil => cases hpairs; exact .nil
  | cons hfirst _ ih =>
    cases hpairs with
    | cons hpair hrest =>
      obtain ⟨column, -, hfirst⟩ := Result.bind_eq_ok.mp hfirst
      obtain ⟨bound, hbound, hfirst⟩ := Result.bind_eq_ok.mp hfirst
      cases hfirst
      exact .cons ⟨hpair.1, Result.bind_eq_ok.mpr ⟨bound, hbound, hpair.2⟩⟩ (ih _ hrest)

/-- An UPDATE has a new row for those it selects. -/
theorem isSome_of_rewrite {layout : Layout} {condition : Option Expr} {filter : Option Bound}
    {assignments : List (Nat × Bound)} {row : Row} {answer : Option Row}
    (hfilter : condition.mapM (Bound.bind layout) = .ok filter)
    (h : rewrite assignments filter row = .ok answer) :
    answer.isSome = Sql.isSelected layout condition row := by
  obtain ⟨accepted, haccepted, h⟩ := Result.bind_eq_ok.mp h
  rw [← isSelected_of_selects hfilter haccepted]
  cases accepted with
  | false =>
    cases h
    rfl
  | true =>
    obtain ⟨changed, -, h⟩ := Result.bind_eq_ok.mp h
    cases h
    rfl

/-- That new row is the one its assignments make. -/
theorem assign_of_rewrite {filter : Option Bound} {assignments : List (Nat × Bound)}
    {row changed : Row} (h : rewrite assignments filter row = .ok (some changed)) :
    assign row assignments row = .ok changed := by
  obtain ⟨accepted, -, h⟩ := Result.bind_eq_ok.mp h
  cases accepted with
  | false => cases h
  | true =>
    obtain ⟨assigned, hassigned, h⟩ := Result.bind_eq_ok.mp h
    cases h
    exact hassigned

/-- **An UPDATE that succeeds does what it is to do.** -/
theorem makes_update {update : Sql.Update} {assignments : List (Nat × Bound)}
    {filter : Option Bound} {rows : List Row} (hsound : before.Sound)
    (hassignments : update.assignments.mapM
      (Compiling.assignment (update.table.layout before.definition)) = .ok assignments)
    (hfilter : update.condition.mapM (Bound.bind (update.table.layout before.definition)) =
      .ok filter)
    (h : (Change.update assignments filter).apply rows before = (.ok n, left)) :
    (Sql.Statement.update update).Makes before n left := by
  have hwritten := Result.mapM_eq_ok_iff.mp hassignments
  simp only [apply, Table.update] at h
  split at h
  · cases h
  · next count out hrun =>
    cases h
    obtain ⟨last, hrun⟩ := Result.run'_eq_ok.mp hrun
    obtain ⟨hcount, hout⟩ :=
      Table.updateRows_each (fun row answer => isSome_of_rewrite hfilter) hrun
    refine ⟨hcount, out, ⟨assignments.map (·.1), ?_, ?_⟩, rfl⟩
    · rw [List.forall₂_map_right_iff]
      refine hwritten.imp fun own bound hown => ?_
      obtain ⟨column, hcolumn, hown⟩ := Result.bind_eq_ok.mp hown
      obtain ⟨expr, -, hown⟩ := Result.bind_eq_ok.mp hown
      cases hown
      exact hcolumn
    · -- each old row fits the columns, so what is not assigned survives being stored again
      refine ((List.forall₂_and_left _ _).mpr ⟨hsound, hout⟩).imp fun old new hrow => ?_
      obtain ⟨hold, hrow⟩ := hrow
      split at hrow
      · next hselected =>
        obtain ⟨changed, hchanged, hstored⟩ := hrow
        rw [if_pos hselected]
        exact writes_of_assign hold hwritten (assign_of_rewrite hchanged) hstored
      · next hselected =>
        rw [if_neg hselected]
        exact hrow

/-- **A DELETE that succeeds does what it is to do.** -/
theorem makes_delete {delete : Sql.Delete} {filter : Option Bound} {rows : List Row}
    (hfilter : delete.condition.mapM (Bound.bind (delete.table.layout before.definition)) =
      .ok filter)
    (h : (Change.delete filter).apply rows before = (.ok n, left)) :
    (Sql.Statement.delete delete).Makes before n left := by
  simp only [apply, Table.delete] at h
  split at h
  · cases h
  · next kept hrun =>
    cases h
    obtain ⟨last, hrun⟩ := Result.run'_eq_ok.mp hrun
    have hkept := Table.remaining_each (fun row answer => isSelected_of_selects hfilter) hrun
    refine ⟨?_, by rw [hkept]⟩
    -- the rows are those that are selected and those that are kept
    have hlength := List.length_eq_length_filter_add (l := before.rows)
      (Sql.isSelected (delete.table.layout before.definition) delete.condition)
    rw [← List.countP_eq_length_filter, ← hkept] at hlength
    omega

end Change
end SqlPipeline
