import SqlPipeline.Proofs.Sql.Printing
import SqlPipeline.Proofs.Sql.Scripts

/-!
# Statements read back from their text

A statement that was read from a script is printed as a spelling of itself, so reading its text
gives it back, with the names of its functions in lower case (`parse_text`). This is shown clause by
clause, along the grammar: of whatever spelling a clause was read, its text is another one.
-/

namespace SqlPipeline.Sql

/-! ## The expressions of a statement -/

def SelectItem.mapExprs (f : Expr → Expr) : SelectItem → SelectItem
  | .expr value => .expr (f value)
  | .aliased value name => .aliased (f value) name
  | .allOf table => .allOf table
  | .all => .all

def Join.mapExprs (f : Expr → Expr) (join : Join) : Join :=
  { join with on := f join.on }

def From.mapExprs (f : Expr → Expr) (source : From) : From :=
  { source with joins := source.joins.map (·.mapExprs f) }

def From.exprs (source : From) : List Expr :=
  source.joins.map (·.on)

def Select.mapExprs (f : Expr → Expr) (select : Select) : Select :=
  { select with
    items := select.items.map (·.mapExprs f)
    source := select.source.map (·.mapExprs f)
    condition := select.condition.map f
    groupBy := select.groupBy.map f
    having := select.having.map f }

def Select.exprs (select : Select) : List Expr :=
  select.items.filterMap (·.expr?) ++ select.source.toList.flatMap (·.exprs) ++
    select.condition.toList ++ select.groupBy ++ select.having.toList

def Insert.mapExprs (f : Expr → Expr) (insert : Insert) : Insert :=
  { insert with rows := insert.rows.map (·.map f) }

def Assignment.mapExprs (f : Expr → Expr) (assignment : Assignment) : Assignment :=
  { assignment with value := f assignment.value }

def Update.mapExprs (f : Expr → Expr) (update : Update) : Update :=
  { update with
    assignments := update.assignments.map (·.mapExprs f)
    condition := update.condition.map f }

def Delete.mapExprs (f : Expr → Expr) (delete : Delete) : Delete :=
  { delete with condition := delete.condition.map f }

def SetVariable.mapExprs (f : Expr → Expr) (change : SetVariable) : SetVariable :=
  { change with value := f change.value }

namespace Statement

/-- A statement with its own expressions changed; a statement to prepare is left as it is. -/
def mapExprs (f : Expr → Expr) : Statement → Statement
  | select s => .select (s.mapExprs f)
  | insert i => .insert (i.mapExprs f)
  | upsert i => .upsert (i.mapExprs f)
  | update u => .update (u.mapExprs f)
  | delete d => .delete (d.mapExprs f)
  | showing what => .showing what
  | describe table => .describe table
  | set change => .set (change.mapExprs f)
  | into target s => .into target (s.mapExprs f)
  | prepare name sql statement => .prepare name sql statement

/-- The expressions of a statement, but not those of a statement to prepare. -/
def exprs : Statement → List Expr
  | select s | into _ s => s.exprs
  | insert i | upsert i => i.rows.flatten
  | update u => u.assignments.map (·.value) ++ u.condition.toList
  | delete d => d.condition.toList
  | set change => [change.value]
  | showing _ | describe _ | prepare _ _ _ => []

def lowered (statement : Statement) : Statement :=
  statement.mapExprs Expr.lowered

end Statement

/-! ## Lists and clauses -/

theorem join_cons {separator s : String} {rest : List String} (h : rest ≠ []) :
    Text.join separator (s :: rest) = s ++ separator ++ Text.join separator rest := by
  cases rest with
  | nil => exact absurd rfl h
  | cons t rest => rfl

section Lists

variable {α β : Type} {Spelled : α → List Token → Prop} {Printed : β → List Token → Prop}
  {text : α → String} {f : α → β} {tokens : List Token}

theorem Listed.ne_nil {items : List α} (h : Listed Spelled items tokens) : items ≠ [] := by
  cases h <;> exact List.cons_ne_nil _ _

theorem Listed.prints {items : List α} (h : Listed Spelled items tokens)
    (hitem : ∀ item ∈ items, ∀ tokens, Spelled item tokens →
      PrintsAs (text item) (Printed (f item))) :
    PrintsAs (Text.join ", " (items.map text)) (Listed Printed (items.map f)) := by
  induction h with
  | @one item tokens h =>
    obtain ⟨printed, htext, hprinted⟩ := hitem item List.mem_cons_self tokens h
    exact ⟨printed, htext, .one hprinted⟩
  | @cons item items tokens others h hothers ih =>
    obtain ⟨printed, htext, hprinted⟩ := hitem item List.mem_cons_self tokens h
    obtain ⟨more, hmore, hmore'⟩ := ih fun item hmem => hitem item (List.mem_cons_of_mem _ hmem)
    refine ⟨printed ++ .sign .comma :: more, ?_, .cons hprinted hmore'⟩
    rw [List.map_cons, join_cons (by simpa using hothers.ne_nil)]
    simpa using (htext.append .comma).append hmore

theorem Clause.prints {keyword : Keyword} {found : Option α}
    (h : Clause keyword Spelled found tokens)
    (hitem : ∀ a ∈ found, ∀ tokens, Spelled a tokens → PrintsAs (text a) (Printed (f a))) :
    ∃ printed, Prints EndsExpr EndsExpr (clauseText keyword.name (found.map text)) printed ∧
      Clause keyword Printed (found.map f) printed := by
  cases h with
  | none => exact ⟨[], .empty, .none⟩
  | @some t a tokens ht h =>
    obtain ⟨printed, htext, hprinted⟩ := hitem a rfl tokens h
    refine ⟨keyword.token :: printed, ?_, .some rfl hprinted⟩
    exact (Prints.between keyword).append htext

end Lists

/-! ## Names and tables -/

theorem ObjectName.Spelled.prints {name : ObjectName} {tokens : List Token}
    (h : name.Spelled tokens) : Prints StartsOperand EndsWord name.text tokens := by
  obtain ⟨rfl, hne, hnames⟩ := h
  exact .dotted hne hnames

theorem Aliased.isName {name : Ident} {tokens : List Token} (h : Aliased (some name) tokens) :
    name.IsName := by
  cases h with
  | as _ hname => exact hname
  | plain hname _ => exact hname

theorem TableRef.Spelled.prints {table : TableRef} {tokens : List Token}
    (h : table.Spelled tokens) : PrintsAs table.text table.Spelled := by
  cases h with | @mk tokens others hname halias =>
  obtain ⟨object, name⟩ := table
  cases name with
  | none =>
    have hspelled : TableRef.Spelled ⟨object, none⟩ (tokens ++ []) := .mk hname .none
    rw [List.append_nil] at hspelled
    exact ⟨tokens, hname.prints.ends.starts, hspelled⟩
  | some name =>
    refine ⟨tokens ++ [Keyword.AS.token, name.token], ?_, .mk hname (.as rfl halias.isName)⟩
    have hall := (hname.prints.ends.starts.append (.between .AS)).append
      (Prints.name halias.isName).ends.starts
    rwa [List.append_assoc] at hall

theorem SelectItem.Spelled.prints {item : SelectItem} {tokens : List Token}
    (h : item.Spelled tokens) (hplain : ∀ e ∈ item.expr?, e.IsPlain) :
    PrintsAs item.text (item.mapExprs Expr.lowered).Spelled := by
  cases h with
  | @named value name tokens others h hname =>
    cases name with
    | none =>
      obtain ⟨printed, htext, hprinted⟩ := h.prints (hplain value rfl)
      have hspelled := SelectItem.Spelled.named hprinted .none
      rw [List.append_nil] at hspelled
      exact ⟨printed, htext, hspelled⟩
    | some name =>
      obtain ⟨printed, htext, hprinted⟩ := h.prints (hplain value rfl)
      refine ⟨printed ++ [Keyword.AS.token, name.token], ?_, .named hprinted (.as rfl hname.isName)⟩
      have hall := (htext.append (.between .AS)).append (Prints.name hname.isName).ends.starts
      rwa [List.append_assoc] at hall
  | @allOf table tokens h =>
    have hperiod : Prints EndsWord StartsOperand Sign.period.text [.sign .period] :=
      .sign (fun _ => rfl) (by decide)
    have hstar : Prints StartsOperand EndsExpr Sign.star.text [.sign .star] :=
      .sign (fun _ => rfl) (by decide)
    exact ⟨_, (h.prints.append (hperiod.append hstar)).starts, .allOf h⟩
  | all =>
    have hstar : Prints StartsToken EndsExpr Sign.star.text [.sign .star] :=
      .sign (fun _ => rfl) (by decide)
    exact ⟨_, hstar, .all⟩

/-! ## Clauses of a select -/

theorem JoinKind.prints (kind : JoinKind) : ∃ words, kind.Spelled words ∧
    Prints StartsToken StartsToken (match kind with | .inner => "JOIN " | .left => "LEFT JOIN ")
      words := by
  cases kind with
  | inner => exact ⟨[_], ⟨_, List.mem_cons_self, rfl⟩, (Prints.word .JOIN).starts⟩
  | left =>
    exact ⟨[_, _], ⟨_, List.mem_cons_self, rfl⟩,
      (Prints.word .LEFT).starts.append (Prints.word .JOIN).starts⟩

theorem Join.Spelled.prints {join : Join} {tokens : List Token} (h : join.Spelled tokens)
    (hplain : join.on.IsPlain) : PrintsAs join.text (join.mapExprs Expr.lowered).Spelled := by
  obtain ⟨kind, ref, on⟩ := join
  obtain ⟨-, htable, -, hon⟩ := h
  obtain ⟨table, htext, htable⟩ := htable.prints
  obtain ⟨condition, hcondition, hon⟩ := hon.prints hplain
  obtain ⟨words, hwords, hkind⟩ := kind.prints
  refine ⟨words ++ (table ++ Keyword.ON.token :: condition), ?_, .mk hwords htable rfl hon⟩
  have hall := ((hkind.append htext).append (.between .ON)).append hcondition
  simp only [List.append_assoc, List.cons_append, List.nil_append] at hall
  exact hall

/-- Joins are printed one after the other, each after a blank. -/
theorem Joins.prints {joins : List Join} {tokens : List Token} (h : Joins joins tokens)
    (hplain : ∀ join ∈ joins, join.on.IsPlain) : ∀ {first : String} {before : List Token},
      Prints StartsToken EndsExpr first before →
        ∃ printed, Prints StartsToken EndsExpr (Text.join " " (first :: joins.map Join.text))
            (before ++ printed) ∧
          Joins (joins.map (·.mapExprs Expr.lowered)) printed := by
  induction h with
  | nil =>
    intro first before hfirst
    exact ⟨[], by simpa [Text.join] using hfirst, .nil⟩
  | @cons join joins tokens others h _ ih =>
    intro first before hfirst
    obtain ⟨printed, htext, hprinted⟩ := h.prints (hplain join List.mem_cons_self)
    obtain ⟨more, hmore, hjoins⟩ := ih (fun join hmem => hplain join (List.mem_cons_of_mem _ hmem)) htext
    refine ⟨printed ++ more, ?_, .cons hprinted hjoins⟩
    rw [List.map_cons, join_cons (List.cons_ne_nil _ _)]
    simpa using (hfirst.append .blank).append hmore

theorem From.Spelled.prints {source : From} {tokens : List Token} (h : source.Spelled tokens)
    (hplain : ∀ e ∈ source.exprs, e.IsPlain) :
    PrintsAs source.text (source.mapExprs Expr.lowered).Spelled := by
  obtain ⟨htable, hjoins⟩ := h
  obtain ⟨table, htext, htable'⟩ := htable.prints
  obtain ⟨printed, hprinted, hjoins'⟩ :=
    hjoins.prints (fun join hjoin => hplain _ (List.mem_map_of_mem hjoin)) htext
  exact ⟨table ++ printed, hprinted, .mk htable' hjoins'⟩

theorem Groups.prints {groups : List Expr} {tokens : List Token} (h : Groups groups tokens)
    (hplain : ∀ e ∈ groups, e.IsPlain) :
    ∃ printed, Prints EndsExpr EndsExpr
        (if groups.isEmpty then "" else " GROUP BY " ++ listText groups) printed ∧
      Groups (groups.map Expr.lowered) printed := by
  cases h with
  | none => exact ⟨[], .empty, .none⟩
  | some ht hu h =>
    obtain ⟨printed, htext, hprinted⟩ :=
      h.prints fun e he tokens hspelled => hspelled.prints (hplain e he)
    refine ⟨_, ?_, .some (t := Keyword.GROUP.token) (u := Keyword.BY.token) rfl rfl hprinted⟩
    rw [if_neg (by simpa using h.ne_nil)]
    have hwords : Prints EndsExpr StartsToken " GROUP BY " [Keyword.GROUP.token, Keyword.BY.token] :=
      (Prints.blank.append (Prints.word .GROUP).starts).append (Prints.word .BY).starts
    exact hwords.append htext

theorem Distinct.prints {distinct : Bool} {tokens : List Token} (h : Distinct distinct tokens) :
    ∃ printed, Prints StartsToken StartsToken (if distinct then "DISTINCT " else "") printed ∧
      Distinct distinct printed := by
  cases h with
  | all => exact ⟨[], .empty, .all⟩
  | distinct => exact ⟨_, (Prints.word .DISTINCT).starts, .distinct rfl⟩

theorem Select.Spelled.prints {select : Select} {tokens : List Token} (h : select.Spelled tokens)
    (hplain : ∀ e ∈ select.exprs, e.IsPlain) :
    ∃ printed, Prints StartsToken EndsExpr select.text (Keyword.SELECT.token :: printed) ∧
      (select.mapExprs Expr.lowered).Spelled printed := by
  simp only [Select.exprs, List.mem_append, List.mem_filterMap, List.mem_flatMap,
    Option.mem_toList] at hplain
  obtain ⟨hdistinct, hitems, hinto, hsource, hcondition, hgroups, hhaving⟩ := h
  obtain ⟨distinct, hdistinct, hdistinct'⟩ := hdistinct.prints
  obtain ⟨items, hitems, hitems'⟩ := hitems.prints fun item hitem tokens hspelled =>
    hspelled.prints fun e he => hplain e (.inl (.inl (.inl (.inl ⟨item, hitem, he⟩))))
  obtain ⟨into, hinto, hinto'⟩ := hinto.prints (f := id) fun name _ tokens hspelled =>
    ⟨tokens, hspelled.prints.ends.starts, hspelled⟩
  obtain ⟨source, hsource, hsource'⟩ := hsource.prints fun source hmem tokens hspelled =>
    hspelled.prints fun e he => hplain e (.inl (.inl (.inl (.inr ⟨source, hmem, he⟩))))
  obtain ⟨condition, hcondition, hcondition'⟩ := hcondition.prints fun e he tokens hspelled =>
    hspelled.prints (hplain e (.inl (.inl (.inr he))))
  obtain ⟨groups, hgroups, hgroups'⟩ := hgroups.prints fun e he => hplain e (.inl (.inr he))
  obtain ⟨having, hhaving, hhaving'⟩ := hhaving.prints fun e he tokens hspelled =>
    hspelled.prints (hplain e (.inr he))
  rw [Option.map_id] at hinto'
  refine ⟨_, ?_, .mk hdistinct' hitems' hinto' hsource' hcondition' hgroups' hhaving'⟩
  have hall := (((((((Prints.word .SELECT).starts.append hdistinct).append hitems).append hinto).append
    hsource).append hcondition).append hgroups).append hhaving
  simp only [List.append_assoc, List.cons_append, List.nil_append] at hall
  exact hall

theorem Ident.Spelled.prints {name : Ident} {tokens : List Token} (h : name.Spelled tokens) :
    Prints StartsOperand EndsWord name.text tokens := by
  obtain ⟨rfl, hname⟩ := h
  exact .name hname

/-! ## The other statements -/

/-- A list in parentheses. -/
theorem prints_parentheses {text : String} {tokens : List Token}
    (h : Prints StartsToken EndsExpr text tokens) :
    Prints StartsToken EndsExpr ("(" ++ text ++ ")")
      (.sign .leftParen :: (tokens ++ [.sign .rightParen])) := by
  have hleft : Prints StartsToken StartsToken Sign.leftParen.text [.sign .leftParen] :=
    .sign (fun _ => rfl) (by decide)
  have hright : Prints EndsExpr EndsExpr Sign.rightParen.text [.sign .rightParen] :=
    .sign (fun _ => rfl) (by decide)
  exact (hleft.append h).append hright

theorem Columns.prints {columns : List Ident} {tokens : List Token} (h : Columns columns tokens) :
    ∃ printed, Prints EndsExpr EndsExpr (if columns.isEmpty then ""
        else " (" ++ Text.join ", " (columns.map Ident.text) ++ ")") printed ∧
      Columns columns printed := by
  cases h with
  | none => exact ⟨[], .empty, .none⟩
  | some h =>
    obtain ⟨h⟩ := h
    obtain ⟨printed, htext, hprinted⟩ := h.prints (f := id) fun name _ tokens hspelled =>
      ⟨tokens, hspelled.prints.ends.starts, hspelled⟩
    rw [List.map_id] at hprinted
    refine ⟨_, ?_, .some (.mk hprinted)⟩
    rw [if_neg (by simpa using h.ne_nil)]
    exact Prints.blank.append (prints_parentheses htext)

theorem Insert.Spelled.prints {insert : Insert} {tokens : List Token} (h : insert.Spelled tokens)
    (hplain : ∀ e ∈ insert.rows.flatten, e.IsPlain) :
    PrintsAs insert.text (insert.mapExprs Expr.lowered).Spelled := by
  obtain ⟨htable, hcolumns, -, hrows⟩ := h
  obtain ⟨columns, hcolumns, hcolumns'⟩ := hcolumns.prints
  obtain ⟨rows, hrows, hrows'⟩ : PrintsAs (Text.join ", " (insert.rows.map fun row => "(" ++ listText row ++ ")"))
      (Listed (InParens (Listed Expr.Spelled)) (insert.rows.map (·.map Expr.lowered))) := by
    refine hrows.prints fun row hrow tokens hspelled => ?_
    obtain ⟨h⟩ := hspelled
    obtain ⟨printed, htext, hprinted⟩ := h.prints fun e he tokens hspelled =>
      hspelled.prints (hplain e (List.mem_flatten.mpr ⟨row, hrow, he⟩))
    exact ⟨_, prints_parentheses htext, .mk hprinted⟩
  refine ⟨_, ?_, .mk (t := Keyword.VALUES.token) htable hcolumns' rfl hrows'⟩
  have hall := ((htable.prints.ends.starts.append hcolumns).append (.between .VALUES)).append hrows
  simp only [List.append_assoc, List.cons_append, List.nil_append] at hall
  exact hall

theorem Assignment.Spelled.prints {assignment : Assignment} {tokens : List Token}
    (h : assignment.Spelled tokens) (hplain : assignment.value.IsPlain) :
    PrintsAs assignment.text (assignment.mapExprs Expr.lowered).Spelled := by
  obtain ⟨hcolumn, hvalue⟩ := h
  obtain ⟨value, htext, hvalue'⟩ := hvalue.prints hplain
  refine ⟨_, ?_, .mk hcolumn hvalue'⟩
  have hall := ((Prints.name hcolumn).ends.starts.append (BinaryOp.prints .eq)).append htext
  exact hall

theorem Update.Spelled.prints {update : Update} {tokens : List Token} (h : update.Spelled tokens)
    (hplain : ∀ e ∈ update.assignments.map (·.value) ++ update.condition.toList, e.IsPlain) :
    ∃ printed, Prints StartsToken EndsExpr update.text (Keyword.UPDATE.token :: printed) ∧
      (update.mapExprs Expr.lowered).Spelled printed := by
  simp only [List.mem_append, List.mem_map, Option.mem_toList] at hplain
  obtain ⟨htable, -, hassignments, hcondition⟩ := h
  obtain ⟨assignments, hassignments, hassignments'⟩ :=
    hassignments.prints fun assignment hmem tokens hspelled =>
      hspelled.prints (hplain _ (.inl ⟨assignment, hmem, rfl⟩))
  obtain ⟨condition, hcondition, hcondition'⟩ := hcondition.prints fun e he tokens hspelled =>
    hspelled.prints (hplain e (.inr he))
  refine ⟨_, ?_, .mk (t := Keyword.SET.token) htable rfl hassignments' hcondition'⟩
  have hall := ((((Prints.word .UPDATE).starts.append htable.prints.ends.starts).append
    (.between .SET)).append hassignments).append hcondition
  simp only [List.append_assoc, List.cons_append, List.nil_append] at hall
  exact hall

theorem Delete.Spelled.prints {delete : Delete} {tokens : List Token} (h : delete.Spelled tokens)
    (hplain : ∀ e ∈ delete.condition, e.IsPlain) :
    ∃ printed, Prints StartsToken EndsExpr delete.text
        (Keyword.DELETE.token :: Keyword.FROM.token :: printed) ∧
      (delete.mapExprs Expr.lowered).Spelled printed := by
  obtain ⟨htable, hcondition⟩ := h
  obtain ⟨condition, hcondition, hcondition'⟩ := hcondition.prints fun e he tokens hspelled =>
    hspelled.prints (hplain e he)
  refine ⟨_, ?_, .mk htable hcondition'⟩
  exact (((Prints.word .DELETE).starts.append (Prints.word .FROM).starts).append
    htable.prints.ends.starts).append hcondition

theorem Show.Spelled.prints {what : Show} {tokens : List Token} (h : what.Spelled tokens) :
    ∃ printed, Prints StartsToken EndsExpr what.text (Keyword.SHOW.token :: printed) ∧
      what.Spelled printed := by
  cases h with
  | tables =>
    refine ⟨[Keyword.TABLES.token], ?_, .tables rfl⟩
    exact (Prints.word .SHOW).starts.append (Prints.keyword .TABLES).ends.starts
  | columns _ _ htable =>
    refine ⟨_, ?_, .columns (t := Keyword.COLUMNS.token) (u := Keyword.FROM.token) rfl rfl htable⟩
    exact (((Prints.word .SHOW).starts.append (Prints.word .COLUMNS).starts).append
      (Prints.word .FROM).starts).append htable.prints.ends.starts
  | named hname htables hcolumns =>
    refine ⟨_, ?_, .named hname htables hcolumns⟩
    exact (Prints.word .SHOW).starts.append (Prints.name hname).ends.starts

theorem SetVariable.Spelled.prints {change : SetVariable} {tokens : List Token}
    (h : change.Spelled tokens) (hplain : change.value.IsPlain) :
    ∃ printed, Prints StartsToken EndsExpr change.text (Keyword.SET.token :: printed) ∧
      (change.mapExprs Expr.lowered).Spelled printed := by
  obtain ⟨hname, hvalue⟩ := h
  obtain ⟨value, htext, hvalue'⟩ := hvalue.prints hplain
  refine ⟨_, ?_, .mk hname hvalue'⟩
  have hall := (((Prints.word .SET).starts.append hname.prints.ends.starts).append
    (BinaryOp.prints .eq)).append htext
  simp only [List.append_assoc, List.cons_append, List.nil_append] at hall
  exact hall

/-- **A statement is printed as a spelling of itself, with its functions in lower case.** Only a
select into a target is not, since its text has the target at the end. -/
theorem Statement.Spelled.prints {read : String → Except ParseError (List Statement)}
    {statement : Statement} {tokens : List Token} (h : statement.Spelled read tokens)
    (hinto : ∀ target select, statement ≠ .into target select)
    (hplain : ∀ e ∈ statement.exprs, e.IsPlain) :
    PrintsAs statement.text (statement.lowered.Spelled read) := by
  cases h with
  | select _ h hnone =>
    obtain ⟨printed, htext, hprinted⟩ := h.prints hplain
    exact ⟨_, htext, .select rfl hprinted hnone⟩
  | @into _ select target => exact absurd rfl (hinto target { select with into := none })
  | insert _ _ h =>
    obtain ⟨printed, htext, hprinted⟩ := h.prints hplain
    refine ⟨_, ?_, .insert (t := Keyword.INSERT.token) (u := Keyword.INTO.token) rfl rfl hprinted⟩
    exact ((Prints.word .INSERT).starts.append (Prints.word .INTO).starts).append htext
  | upsert _ _ h =>
    obtain ⟨printed, htext, hprinted⟩ := h.prints hplain
    refine ⟨_, ?_, .upsert (t := Keyword.UPSERT.token) (u := Keyword.INTO.token) rfl rfl hprinted⟩
    exact ((Prints.word .UPSERT).starts.append (Prints.word .INTO).starts).append htext
  | update _ h =>
    obtain ⟨printed, htext, hprinted⟩ := h.prints hplain
    exact ⟨_, htext, .update rfl hprinted⟩
  | delete _ _ h =>
    obtain ⟨printed, htext, hprinted⟩ := h.prints fun e he => hplain e (Option.mem_toList.mpr he)
    exact ⟨_, htext, .delete rfl rfl hprinted⟩
  | showing _ h =>
    obtain ⟨printed, htext, hprinted⟩ := h.prints
    exact ⟨_, htext, .showing rfl hprinted⟩
  | describe _ h =>
    refine ⟨_, ?_, .describe (t := Keyword.DESCRIBE.token) (.inl rfl) h⟩
    exact (Prints.word .DESCRIBE).starts.append h.prints.ends.starts
  | set _ h =>
    obtain ⟨printed, htext, hprinted⟩ := h.prints (hplain _ List.mem_cons_self)
    exact ⟨_, htext, .set rfl hprinted⟩
  | @prepare _ _ name sql inner _ hname _ hread =>
    refine ⟨_, ?_, .prepare (t := Keyword.PREPARE.token) (u := Keyword.FROM.token) rfl hname rfl hread⟩
    have hstring : Prints StartsOperand EndsExpr (Text.enquote '\'' sql) [.string sql] :=
      .token_endsExpr rfl trivial nofun
    exact (((Prints.word .PREPARE).starts.append (Prints.name hname).ends.starts).append
      (.between .FROM)).append hstring.starts

namespace Script

/-- **A statement is read back from its text.** Every statement of a script but a select into a
target, if no minus in its own expressions stands in front of a minus and their functions are named
by unquoted words of ASCII, is the only statement of its text, up to the case of these names. -/
theorem parse_text {sql : String} {statements : List Statement} {statement : Statement}
    (h : parse sql = .ok statements) (hmem : statement ∈ statements)
    (hinto : ∀ target select, statement ≠ .into target select)
    (hplain : ∀ e ∈ statement.exprs, ∀ part ∈ e.parts, part.Plain) :
    parse statement.text = .ok [statement.lowered] := by
  obtain ⟨founds, hfounds, rfl⟩ := parse_eq_ok_iff.mp h
  obtain ⟨found, hfound, rfl⟩ := List.mem_map.mp hmem
  obtain ⟨_, _, _, _, -, -, -, -, hspelled⟩ := exists_slice hfounds hfound
  obtain ⟨tokens, htext, hprinted⟩ := hspelled.prints hinto hplain
  obtain ⟨ts, hlexes, rfl⟩ := (htext [] nofun).1 0
  exact parse_of_spelled hlexes hprinted

/-- A select that is printed with other letters, signs and words than it was written with. -/
def writtenSelect : String :=
  "select Count(*), \"a\"\"b\" q from t left outer join u on -t.a == 1. where not x <> 'it''s'"

def readSelect : Statement :=
  .select {
    distinct := false
    items := [.expr (.call ⟨"Count", false⟩ (.star .nil)),
      .aliased (.ident ⟨"a\"b", true⟩) ⟨"q", false⟩]
    into := none
    source := some ⟨⟨⟨[⟨"t", false⟩]⟩, none⟩, [⟨.left, ⟨⟨[⟨"u", false⟩]⟩, none⟩,
      .binary (.unary .minus (.qualified [⟨"t", false⟩, ⟨"a", false⟩])) .eq
        (.literal (.number "1."))⟩]⟩
    condition := some (.unary .not
      (.binary (.ident ⟨"x", false⟩) .notEq (.literal (.string "it's"))))
    groupBy := []
    having := none }

/-- Its text is another text, and is read as the same select with `count` for `Count`. -/
theorem parse_text_select :
    parse writtenSelect = .ok [readSelect] ∧
      readSelect.text = "SELECT count(*), \"a\"\"b\" AS q FROM t LEFT JOIN u ON -t.a = 1. " ++
        "WHERE NOT x != 'it''s'" ∧
      (∀ e ∈ readSelect.exprs, ∀ part ∈ e.parts, part.Plain) ∧
      parse readSelect.text = .ok [readSelect.lowered] := by
  have h : parse writtenSelect = .ok [readSelect] := eq_ok_of_toOption (by decide +kernel)
  have hplain : ∀ e ∈ readSelect.exprs, ∀ part ∈ e.parts, part.Plain := by decide +kernel
  exact ⟨h, by decide +kernel, hplain, parse_text h List.mem_cons_self nofun hplain⟩

end Script
end SqlPipeline.Sql
