import SqlPipeline.Proofs.Sql.Expressions
import SqlPipeline.Sql.Parser.Statement

/-!
# The grammar of statements

How each clause and statement is spelled, as relations between what is read and its tokens. A
keyword may be written in any letter case, and some words may be left out, so one statement has
many spellings.

Clauses come in a fixed order, and each ends where the next keyword starts: `Closed keywords tokens`
says that the tokens are at an end, or go on with one of these keywords.
-/

namespace SqlPipeline.Sql

/-- An expression as an item of a select list, with another name if there is one. -/
def SelectItem.named (value : Expr) : Option Ident → SelectItem
  | some name => .aliased value name
  | none => .expr value

inductive SelectItem.Spelled : SelectItem → List Token → Prop where
  | named {value : Expr} {name : Option Ident} {tokens others : List Token}
      (h : value.Spelled tokens) (hname : Aliased name others) :
      Spelled (.named value name) (tokens ++ others)
  | allOf {table : ObjectName} {tokens : List Token} (h : table.Spelled tokens) :
      Spelled (.allOf table) (tokens ++ [.sign .period, .sign .star])
  | all : Spelled .all [.sign .star]

inductive TableRef.Spelled : TableRef → List Token → Prop where
  | mk {table : TableRef} {tokens others : List Token} (hname : table.name.Spelled tokens)
      (halias : Aliased table.aliasName others) : Spelled table (tokens ++ others)

/-- The words of a join; some may be left out. -/
def JoinKind.words : JoinKind → List (List Keyword)
  | .inner => [[.JOIN], [.INNER, .JOIN]]
  | .left => [[.LEFT, .JOIN], [.LEFT, .OUTER, .JOIN]]

def JoinKind.Spelled (kind : JoinKind) (tokens : List Token) : Prop :=
  ∃ words ∈ kind.words, tokens.map Token.keyword? = words.map some

inductive Join.Spelled : Join → List Token → Prop where
  | mk {join : Join} {words table condition : List Token} {t : Token}
      (hkind : join.kind.Spelled words) (htable : join.table.Spelled table)
      (ht : t.keyword? = some .ON) (hon : join.on.Spelled condition) :
      Spelled join (words ++ (table ++ t :: condition))

inductive Joins : List Join → List Token → Prop where
  | nil : Joins [] []
  | cons {join : Join} {joins : List Join} {tokens others : List Token} (h : join.Spelled tokens)
      (hothers : Joins joins others) : Joins (join :: joins) (tokens ++ others)

inductive From.Spelled : From → List Token → Prop where
  | mk {source : From} {tokens others : List Token} (htable : source.table.Spelled tokens)
      (hjoins : Joins source.joins others) : Spelled source (tokens ++ others)

inductive Groups : List Expr → List Token → Prop where
  | none : Groups [] []
  | some {t u : Token} {groups : List Expr} {tokens : List Token} (ht : t.keyword? = some .GROUP)
      (hu : u.keyword? = some .BY) (h : Listed Expr.Spelled groups tokens) :
      Groups groups (t :: u :: tokens)

inductive Distinct : Bool → List Token → Prop where
  | all : Distinct false []
  | distinct {t : Token} (ht : t.keyword? = some .DISTINCT) : Distinct true [t]

/-- What follows SELECT. -/
inductive Select.Spelled : Select → List Token → Prop where
  | mk {select : Select} {distinct items into source condition groups having : List Token}
      (hdistinct : Distinct select.distinct distinct)
      (hitems : Listed SelectItem.Spelled select.items items)
      (hinto : Clause .INTO ObjectName.Spelled select.into into)
      (hsource : Clause .FROM From.Spelled select.source source)
      (hcondition : Clause .WHERE Expr.Spelled select.condition condition)
      (hgroups : Groups select.groupBy groups)
      (hhaving : Clause .HAVING Expr.Spelled select.having having) :
      Spelled select (distinct ++ (items ++ (into ++ (source ++ (condition ++ (groups ++ having))))))

/-- Whether nothing follows the select list but perhaps a target. -/
def Select.IsBare (select : Select) : Prop :=
  select.source = none ∧ select.condition = none ∧ select.groupBy = [] ∧ select.having = none

instance : DecidablePred Select.IsBare := fun select =>
  inferInstanceAs (Decidable (select.source = none ∧ select.condition = none ∧
    select.groupBy = [] ∧ select.having = none))

inductive Columns : List Ident → List Token → Prop where
  | none : Columns [] []
  | some {columns : List Ident} {tokens : List Token}
      (h : InParens (Listed Ident.Spelled) columns tokens) : Columns columns tokens

/-- What follows INSERT INTO or UPSERT INTO. -/
inductive Insert.Spelled : Insert → List Token → Prop where
  | mk {insert : Insert} {table columns rows : List Token} {t : Token}
      (htable : insert.table.Spelled table) (hcolumns : Columns insert.columns columns)
      (ht : t.keyword? = some .VALUES)
      (hrows : Listed (InParens (Listed Expr.Spelled)) insert.rows rows) :
      Spelled insert (table ++ (columns ++ t :: rows))

inductive Assignment.Spelled : Assignment → List Token → Prop where
  | mk {assignment : Assignment} {tokens : List Token} (hcolumn : assignment.column.IsName)
      (hvalue : assignment.value.Spelled tokens) :
      Spelled assignment (assignment.column.token :: .sign .eq :: tokens)

inductive Update.Spelled : Update → List Token → Prop where
  | mk {update : Update} {table assignments condition : List Token} {t : Token}
      (htable : update.table.Spelled table) (ht : t.keyword? = some .SET)
      (hassignments : Listed Assignment.Spelled update.assignments assignments)
      (hcondition : Clause .WHERE Expr.Spelled update.condition condition) :
      Spelled update (table ++ t :: (assignments ++ condition))

inductive Delete.Spelled : Delete → List Token → Prop where
  | mk {delete : Delete} {table condition : List Token} (htable : delete.table.Spelled table)
      (hcondition : Clause .WHERE Expr.Spelled delete.condition condition) :
      Spelled delete (table ++ condition)

inductive Show.Spelled : Show → List Token → Prop where
  | tables {t : Token} (ht : t.keyword? = some .TABLES) : Spelled .tables [t]
  | columns {t u : Token} {table : ObjectName} {tokens : List Token}
      (ht : t.keyword? = some .COLUMNS) (hu : u.keyword? = some .FROM)
      (htable : table.Spelled tokens) : Spelled (.columns table) (t :: u :: tokens)
  | named {name : Ident} (hname : name.IsName) (htables : name.keyword? ≠ some .TABLES)
      (hcolumns : name.keyword? ≠ some .COLUMNS) : Spelled (.variable name) [name.token]

inductive SetVariable.Spelled : SetVariable → List Token → Prop where
  | mk {change : SetVariable} {name value : List Token} (hname : change.name.Spelled name)
      (hvalue : change.value.Spelled value) : Spelled change (name ++ .sign .eq :: value)

/-- How a statement is spelled, where `read` reads the texts that are prepared. -/
inductive Statement.Spelled (read : String → Except ParseError (List Statement)) :
    Statement → List Token → Prop where
  | select {t : Token} {select : Select} {tokens : List Token} (ht : t.keyword? = some .SELECT)
      (h : select.Spelled tokens) (hinto : select.into = none) :
      Spelled read (.select select) (t :: tokens)
  | into {t : Token} {select : Select} {target : ObjectName} {tokens : List Token}
      (ht : t.keyword? = some .SELECT) (h : select.Spelled tokens)
      (hinto : select.into = some target) :
      Spelled read (.into target { select with into := none }) (t :: tokens)
  | insert {t u : Token} {insert : Insert} {tokens : List Token} (ht : t.keyword? = some .INSERT)
      (hu : u.keyword? = some .INTO) (h : insert.Spelled tokens) :
      Spelled read (.insert insert) (t :: u :: tokens)
  | upsert {t u : Token} {insert : Insert} {tokens : List Token} (ht : t.keyword? = some .UPSERT)
      (hu : u.keyword? = some .INTO) (h : insert.Spelled tokens) :
      Spelled read (.upsert insert) (t :: u :: tokens)
  | update {t : Token} {update : Update} {tokens : List Token} (ht : t.keyword? = some .UPDATE)
      (h : update.Spelled tokens) : Spelled read (.update update) (t :: tokens)
  | delete {t u : Token} {delete : Delete} {tokens : List Token} (ht : t.keyword? = some .DELETE)
      (hu : u.keyword? = some .FROM) (h : delete.Spelled tokens) :
      Spelled read (.delete delete) (t :: u :: tokens)
  | showing {t : Token} {what : Show} {tokens : List Token} (ht : t.keyword? = some .SHOW)
      (h : what.Spelled tokens) : Spelled read (.showing what) (t :: tokens)
  | describe {t : Token} {table : ObjectName} {tokens : List Token}
      (ht : t.keyword? = some .DESCRIBE ∨ t.keyword? = some .DESC) (h : table.Spelled tokens) :
      Spelled read (.describe table) (t :: tokens)
  | set {t : Token} {change : SetVariable} {tokens : List Token} (ht : t.keyword? = some .SET)
      (h : change.Spelled tokens) : Spelled read (.set change) (t :: tokens)
  | prepare {t u : Token} {name : Ident} {sql : String} {statement : Statement}
      (ht : t.keyword? = some .PREPARE) (hname : name.IsName) (hu : u.keyword? = some .FROM)
      (hread : read sql = .ok [statement]) :
      Spelled read (.prepare name sql statement) [t, name.token, u, .string sql]

/-! ## First tokens -/

/-- The tokens an expression can start with. -/
theorem Expr.Spelled.exists_first {e : Expr} {tokens : List Token} (h : e.Spelled tokens) :
    ∃ t others, tokens = t :: others ∧ t.StartsExpr := by
  obtain ⟨token, others, htokens, hfirst⟩ := Expr.exists_first h.2
  obtain ⟨t, rest, rfl, rfl, -⟩ := List.map_eq_cons_iff.mp (h.1.trans htokens)
  exact ⟨t, rest, rfl, Token.startsExpr_capital.mp hfirst⟩

theorem Token.StartsExpr.keyword?_ne {t : Token} {keyword : Keyword} (h : t.StartsExpr)
    (hreserved : keyword.isReserved = true) (hother : keyword ∉ [.NOT, .TRUE, .FALSE, .NULL]) :
    t.keyword? ≠ some keyword :=
  fun hkeyword => hother (h.2 keyword (reserved?_eq_some_iff.mpr ⟨hkeyword, hreserved⟩))

/-- The first item of a select list is no keyword that could stand before it. -/
theorem SelectItem.Spelled.stops_distinct {item : SelectItem} {tokens rest : List Token}
    (h : item.Spelled tokens) : Stops (·.keyword? = some .DISTINCT) (tokens ++ rest) := by
  cases h with
  | named h =>
    obtain ⟨t, others, rfl, ht⟩ := h.exists_first
    exact stops_cons.mpr (ht.keyword?_ne rfl (by decide))
  | allOf h =>
    obtain ⟨htokens, hne, hnames⟩ := h
    obtain ⟨name, others, hparts⟩ := List.exists_cons_of_ne_nil hne
    rw [hparts] at htokens hnames
    rw [htokens]
    exact stops_cons.mpr ((hnames name List.mem_cons_self).startsExpr.keyword?_ne rfl (by decide))
  | all => exact stops_cons.mpr nofun

/-! ## Where clauses end -/

/-- Whether a token makes more of a select item or a table before it. -/
def Token.Aliases (t : Token) : Prop :=
  t.GoesOn ∨ t.Names

/-- Whether a token makes more of the tables before it. -/
def Token.JoinsOn (t : Token) : Prop :=
  t.Aliases ∨ t.keyword? = some .JOIN ∨ t.keyword? = some .INNER ∨ t.keyword? = some .LEFT

/-- The tokens are at an end, or at one of the keywords. -/
def Closed (keywords : List Keyword) (tokens : List Token) : Prop :=
  ∀ t ∈ tokens.head?, t = .sign .semicolon ∨ ∃ keyword ∈ keywords, t.keyword? = some keyword

theorem closed_of_stops {tokens : List Token} (h : Stops (· ≠ .sign .semicolon) tokens) :
    Closed [] tokens :=
  fun t ht => .inl (Classical.not_not.mp (h t ht))

theorem Closed.cons {keywords : List Keyword} {tokens : List Token} (h : Closed keywords tokens)
    (keyword : Keyword) : Closed (keyword :: keywords) tokens := by
  intro t ht
  obtain hsign | ⟨other, hother, hkeyword⟩ := h t ht
  · exact .inl hsign
  · exact .inr ⟨other, List.mem_cons_of_mem _ hother, hkeyword⟩

theorem closed_cons {keyword : Keyword} {keywords : List Keyword} {t : Token} {tokens : List Token}
    (ht : t.keyword? = some keyword) : Closed (keyword :: keywords) (t :: tokens) :=
  fun u hu => by cases hu; exact .inr ⟨keyword, List.mem_cons_self, ht⟩

/-- A clause starts with its keyword, or is left out before an end. -/
theorem Clause.closed_of_none {α : Type} {Spelled : α → List Token → Prop} {keyword : Keyword}
    {keywords : List Keyword} {found : Option α} {tokens rest : List Token}
    (h : Clause keyword Spelled found tokens) (hrest : found = .none → Closed keywords rest) :
    Closed (keyword :: keywords) (tokens ++ rest) := by
  cases h with
  | none => exact (hrest rfl).cons keyword
  | some ht => exact closed_cons ht

theorem Clause.closed {α : Type} {Spelled : α → List Token → Prop} {keyword : Keyword}
    {keywords : List Keyword} {found : Option α} {tokens rest : List Token}
    (h : Clause keyword Spelled found tokens) (hrest : Closed keywords rest) :
    Closed (keyword :: keywords) (tokens ++ rest) :=
  h.closed_of_none fun _ => hrest

theorem Groups.closed_of_nil {keywords : List Keyword} {groups : List Expr}
    {tokens rest : List Token} (h : Groups groups tokens)
    (hrest : groups = [] → Closed keywords rest) :
    Closed (.GROUP :: keywords) (tokens ++ rest) := by
  cases h with
  | none => exact (hrest rfl).cons .GROUP
  | some ht => exact closed_cons ht

theorem Groups.closed {keywords : List Keyword} {groups : List Expr} {tokens rest : List Token}
    (h : Groups groups tokens) (hrest : Closed keywords rest) :
    Closed (.GROUP :: keywords) (tokens ++ rest) :=
  h.closed_of_nil fun _ => hrest

theorem Token.ne_sign_of_keyword {t : Token} {keyword : Keyword} (h : t.keyword? = some keyword)
    {s : Sign} : t ≠ .sign s := by
  rintro rfl
  cases h

theorem Token.not_aliases_of_keyword {t : Token} {keyword : Keyword}
    (h : t.keyword? = some keyword) (hother : keyword ∉ [.AND, .OR, .IS, .AS]) : ¬t.Aliases := by
  obtain ⟨w, rfl, hw⟩ := exists_word h
  have hextension : Extension.ofToken? (.word w) = none := by
    unfold Extension.ofToken?
    dsimp only
    rw [hw]
    revert hother
    cases keyword <;> decide
  rintro ((hgoesOn | hnamesOn) | hnames)
  · exact hgoesOn hextension
  · rcases hnamesOn with h | h <;> cases h
  · rcases hnames with has | ⟨v, hv, hplain⟩
    · rw [h] at has
      cases has
      exact hother (by decide)
    · cases hv
      rw [hw] at hplain
      cases hplain

/-- The keywords that make more of what stands before them. -/
def Keyword.joining : List Keyword :=
  [.AND, .OR, .IS, .AS, .JOIN, .INNER, .LEFT]

theorem Token.not_joinsOn_of_keyword {t : Token} {keyword : Keyword}
    (h : t.keyword? = some keyword) (hother : keyword ∉ Keyword.joining) : ¬t.JoinsOn := by
  rintro (haliases | hjoins)
  · refine not_aliases_of_keyword h (fun hmem => hother ?_) haliases
    exact List.mem_append_left [.JOIN, .INNER, .LEFT] hmem
  · rw [h] at hjoins
    rcases hjoins with h | h | h <;> cases h <;> exact hother (by decide)

theorem Token.not_joinsOn_of_sign {s : Sign} (h : s = .comma ∨ s = .semicolon ∨ s = .rightParen) :
    ¬(Token.sign s).JoinsOn := by
  rcases h with rfl | rfl | rfl
  all_goals
    rintro (((h | h | h) | h | ⟨w, hw, -⟩) | h | h | h)
    · exact h rfl
    all_goals first
      | cases h
      | cases hw

/-- What stands before the end, or before one of the keywords, does not go on. -/
theorem Closed.stops {keywords : List Keyword} {tokens : List Token} (h : Closed keywords tokens)
    (keyword : Keyword)
    (hother : ∀ other ∈ keywords, other ∉ Keyword.joining ∧ other ≠ keyword) :
    Stops (fun t => t.JoinsOn ∨ t = .sign .comma ∨ t.keyword? = some keyword) tokens := by
  intro t ht
  obtain rfl | ⟨other, hmem, hkeyword⟩ := h t ht
  · rintro (hjoins | hcomma | hkeyword)
    · exact Token.not_joinsOn_of_sign (.inr (.inl rfl)) hjoins
    · cases hcomma
    · cases hkeyword
  · obtain ⟨hjoining, hne⟩ := hother other hmem
    rintro (hjoins | rfl | hsame)
    · exact Token.not_joinsOn_of_keyword hkeyword hjoining hjoins
    · cases hkeyword
    · rw [hkeyword] at hsame
      exact hne (Option.some.inj hsame)

/-- A clause that may follow does not, if its keyword is not among those that do. -/
theorem Closed.stops_clause {keywords : List Keyword} {tokens : List Token} {GoesOn : Token → Prop}
    (h : Closed keywords tokens) (keyword : Keyword)
    (hother : ∀ other ∈ keywords, other ∉ Keyword.joining ∧ other ≠ keyword)
    (himp : ∀ t, GoesOn t → t.JoinsOn) :
    Stops (fun t => GoesOn t ∨ t.keyword? = some keyword) tokens :=
  (h.stops keyword hother).imp fun t ht => ht.imp (himp t) .inr

/-- A list does not go on either. -/
theorem Closed.stops_list {keywords : List Keyword} {tokens : List Token} {GoesOn : Token → Prop}
    (h : Closed keywords tokens)
    (hother : ∀ other ∈ keywords, other ∉ Keyword.joining ∧ other ≠ .SELECT)
    (himp : ∀ t, GoesOn t → t.JoinsOn) :
    Stops (fun t => GoesOn t ∨ t = .sign .comma) tokens :=
  (h.stops .SELECT hother).imp fun t ht => ht.imp (himp t) .inl

/-- Neither does a single thing. -/
theorem Closed.stops_one {keywords : List Keyword} {tokens : List Token} {GoesOn : Token → Prop}
    (h : Closed keywords tokens)
    (hother : ∀ other ∈ keywords, other ∉ Keyword.joining ∧ other ≠ .SELECT)
    (himp : ∀ t, GoesOn t → t.JoinsOn) : Stops GoesOn tokens :=
  (h.stops .SELECT hother).imp fun t ht => .inl (himp t ht)

theorem Token.GoesOn.joinsOn {t : Token} (h : t.GoesOn) : t.JoinsOn :=
  .inl (.inl h)

theorem Token.joinsOn_of_period {t : Token} (h : t = .sign .period) : t.JoinsOn :=
  .inl (.inl (.inr (.inr h)))

end SqlPipeline.Sql
