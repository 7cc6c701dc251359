import SqlPipeline.Proofs.Recursion
import SqlPipeline.Proofs.Sql.ParseErrors

/-!
# Reading ends

Scripts are read by recursions: over the segments of a text, over the statements of a script, over
the items of a list, the joins of a select and the parts of a name, and among the readers of
expressions. Most are bounded by budgets. Here each of them has its body, which is one round of it
without a budget, and `Halts` says that the rounds come to an end by themselves: the next round
starts further on in the text or in the tokens. Only a reader of expressions may call another in the
same place, which then is of lower rank. A text to prepare is shorter than the one it stands in. So
no budget is ever used up (`Script.parse_halts`).

Tokens are given back in two places. An item of a select list that is no starred name is read from
where it starts (`Parser.run_selectItem`), and keywords that do not all come next are left unread
(`Parser.run_keywords?`).
-/

namespace SqlPipeline.Sql

/-! ## Segments -/

namespace Segment

/-- One segment is cut off; `more` cuts the rest, given its byte position. -/
def splitBody (more : Nat × List Char → Except ParseError (List (Nat × Segment))) :
    Nat × List Char → Except ParseError (List (Nat × Segment))
  | (_, []) => .ok []
  | (offset, c :: cs) =>
    match next c cs with
    | .error message => .error ⟨message, some offset⟩
    | .ok (segment, rest) =>
      (more (offset + Text.byteLength segment.text, rest)).map ((offset, segment) :: ·)

/-- Of budgets that are no smaller than the text, any will do. -/
theorem split_congr : ∀ {budget other offset : Nat} {cs : List Char}, cs.length ≤ budget →
    cs.length ≤ other → split budget offset cs = split other offset cs
  | budget, other, _, [], _, _ => by cases budget <;> cases other <;> rfl
  | 0, _, _, _ :: _, hbudget, _ => by cases hbudget
  | _, 0, _, _ :: _, _, hother => by cases hother
  | budget + 1, other + 1, offset, c :: cs, hbudget, hother => by
    rw [split, split]
    cases hnext : next c cs with
    | error message => rfl
    | ok found =>
      dsimp only
      rw [split_congr (length_rest_le hnext hbudget) (length_rest_le hnext hother)]

theorem ahead_of_next {c : Char} {cs rest : List Char} {segment : Segment}
    (h : next c cs = .ok (segment, rest)) : Ahead rest (c :: cs) := by
  refine ⟨⟨segment.text, next_append h⟩, ?_⟩
  rintro rfl
  exact Nat.not_succ_le_self _ (length_rest_le h (Nat.le_refl _))

theorem halts_split : Halts (fun rest all => Ahead rest.2 all.2) (fun i => i.2.length) splitBody
    (fun i => split i.2.length i.1 i.2) := by
  refine .of_calls_below Ahead.length_lt fun i more hmore => ?_
  obtain ⟨offset, cs⟩ := i
  cases cs with
  | nil => rfl
  | cons c cs =>
    rw [splitBody, List.length_cons, split]
    cases hnext : next c cs with
    | error message => rfl
    | ok found =>
      dsimp only
      rw [hmore (_, found.2) (ahead_of_next hnext),
        split_congr (Nat.le_refl _) (length_rest_le hnext (Nat.le_refl _))]

end Segment

namespace Parser

variable {α : Type} {ts rest : List Located}

theorem run_get_bind (next : List Located → Parser α) : (get >>= next).run ts = (next ts).run ts :=
  rfl

/-- A parser leaves no more than there was. -/
theorem suffix_of_ends {p : Parser α} (hp : ∀ all, Ends all (fun _ => False) p) {a : α}
    (h : Reads p ts a rest) : rest <:+ ts :=
  (hp ts).suffix h

theorem ahead_of_sign? {s : Sign} (h : Reads (sign? s) ts true rest) : Ahead rest ts := by
  obtain ⟨t, left, -, rfl, -, rfl⟩ | ⟨-, hfalse, -⟩ := reads_sign?.mp h
  · exact .of_cons List.suffix_rfl
  · cases hfalse

/-- A loop ends if each of its rounds starts further on than the one before. -/
theorem halts_loop {within : Nat → Parser α} {body : Parser α → Parser α}
    (hbody : ∀ budget, within (budget + 1) = body (within budget))
    (hround : ∀ more other ts, (∀ left, Ahead left ts → more.run left = other.run left) →
      (body more).run ts = (body other).run ts) :
    Halts Ahead List.length body (do within ((← get).length + 1) : Parser α) := by
  refine .of_budget within Ahead.length_lt (fun budget ts => ?_)
    (fun budget ts more => hround (within budget) more ts) fun ts => ?_
  · rw [hbody]
  · exact ⟨ts.length + 1, Nat.lt_succ_self _, rfl⟩

/-! ## Lists -/

/-- An item of a list; after a comma, `more` reads the others. -/
def listBody (item : Parser α) (more : Parser (List α)) : Parser (List α) := do
  let first ← item
  if ← sign? .comma then
    return first :: (← more)
  else return [first]

theorem halts_commaList {item : Parser α} (hitem : ∀ all, Ends all (fun _ => False) item) :
    Halts Ahead List.length (listBody item) (commaList item) := by
  refine halts_loop (fun _ => rfl) fun more other ts hmore => ?_
  refine run_bind_congr rfl fun first rest hfirst => run_bind_congr rfl fun comma left hcomma => ?_
  cases comma
  · rfl
  · have hleft : Ahead left ts := (ahead_of_sign? hcomma).trans_suffix (suffix_of_ends hitem hfirst)
    exact run_bind_congr (hmore left hleft) fun _ _ _ => rfl

/-! ## Joins -/

/-- A join, if one follows; `more` reads the others. -/
def joinsBody (more : Parser (List Join)) : Parser (List Join) := do
  match ← joinKind? with
  | none => return []
  | some kind =>
    let table ← tableRef
    expectKeyword .ON
    let on ← expr
    return ⟨kind, table, on⟩ :: (← more)

def joins : Parser (List Join) := do
  joinsWithin ((← get).length + 1)

theorem fromClause_eq : fromClause = (do return ⟨← tableRef, ← joins⟩) := rfl

theorem halts_joins : Halts Ahead List.length joinsBody joins := by
  refine halts_loop (fun _ => rfl) fun more other ts hmore => ?_
  refine run_bind_congr rfl fun kind rest hkind => ?_
  cases kind with
  | none => rfl
  | some kind =>
    refine run_bind_congr rfl fun table left htable => run_bind_congr rfl fun _ next hnext =>
      run_bind_congr rfl fun on after hon => ?_
    have hleft : left <:+ ts := (suffix_of_ends (fun _ => ends_tableRef) htable).trans
      (suffix_of_ends (fun _ => ends_joinKind?) hkind)
    obtain ⟨t, -, rfl⟩ := reads_expectKeyword.mp hnext
    have hafter : Ahead after ts :=
      (Ahead.of_cons (suffix_of_ends (fun _ => ends_expr) hon)).trans_suffix hleft
    exact run_bind_congr (hmore after hafter) fun _ _ _ => rfl

/-! ## Statements -/

section Statements

variable {read : String → Except ParseError (List Statement)}

/-- A statement, if one follows; after a semicolon, `more` reads the others. -/
def statementsBody (read : String → Except ParseError (List Statement))
    (more : Parser (List Spanned)) : Parser (List Spanned) := do
  set ((← get).dropWhile (·.token = .sign .semicolon))
  match ← peek? with
  | none => return []
  | some start =>
    let found ← statement read
    match ← peek? with
    | none => return [⟨found, start.offset, none⟩]
    | some stop =>
      unless ← sign? .semicolon do unexpected "end of statement"
      return ⟨found, start.offset, some stop.offset⟩ :: (← more)

/-- The statements that follow, where `read` reads the texts that are prepared. -/
def statements (read : String → Except ParseError (List Statement)) : Parser (List Spanned) := do
  statementsWithin read ((← get).length + 1)

theorem halts_statements : Halts Ahead List.length (statementsBody read) (statements read) := by
  refine halts_loop (fun _ => rfl) fun more other ts hmore => ?_
  refine run_bind_congr rfl fun _ _ hget => run_bind_congr rfl fun _ left hleft =>
    run_bind_congr rfl fun first rest hfirst => ?_
  have hrest : rest <:+ ts := by
    cases hget
    cases hleft
    exact (reads_peek?.mp hfirst).2 ▸ List.dropWhile_suffix _
  cases first with
  | none => rfl
  | some start =>
    refine run_bind_congr rfl fun found after hfound =>
      run_bind_congr rfl fun stop after' hstop => ?_
    have hstatement : Ends rest (OfPrepared read rest) (statement read) := ends_statement
    have hafter : after' <:+ ts :=
      (reads_peek?.mp hstop).2 ▸ (hstatement.suffix hfound).trans hrest
    cases stop with
    | none => rfl
    | some stop =>
      refine run_bind_congr rfl fun semicolon others hsemicolon => ?_
      cases semicolon
      · refine run_bind_congr rfl fun _ last hlast => ?_
        exact absurd hlast not_reads_unexpected
      · have hothers : Ahead others ts := (ahead_of_sign? hsemicolon).trans_suffix hafter
        exact run_bind_congr (hmore others hothers) fun _ _ _ => rfl

end Statements

/-! ## Expressions -/

/-- The readers that expressions are read by. -/
inductive Call where
  | expr (level : Nat)
  | operand
  | named (name : Ident)
  | arguments
  | extend (level : Nat) (left : Expr)

namespace Call

abbrev Result : Call → Type
  | arguments => Args
  | _ => Expr

/-- Without a token in between, a reader only calls readers of lower rank. -/
def rank : Call → Nat
  | operand | named _ | extend _ _ => 0
  | expr _ => 1
  | arguments => 2

/-- One call of a reader; `calls` are the readers that it calls. -/
def body (calls : (call : Call) → Parser call.Result) : (call : Call) → Parser call.Result
  | expr level => do
    let first ← calls operand
    calls (extend level first)
  | operand => do
    let t ← next "an expression"
    match t.token with
    | .number digits => return .literal (.number digits)
    | .string value => return .literal (.string value)
    | .sign .minus => return .unary .minus (← calls (expr UnaryOp.minus.level))
    | .sign .plus => return .unary .plus (← calls (expr UnaryOp.plus.level))
    | .sign .leftParen =>
      let inner ← calls (expr 0)
      expectSign .rightParen
      return .nested inner
    | .sign sign => failAt t ("Unexpected token '" ++ sign.text ++ "' in expression")
    | .word w =>
      match w.keyword with
      | some .NOT => return .unary .not (← calls (expr UnaryOp.not.level))
      | some .TRUE => return .literal (.boolean true)
      | some .FALSE => return .literal (.boolean false)
      | some .NULL => return .literal .null
      | some keyword =>
        if keyword.isReserved then
          failAt t ("Unexpected keyword " ++ keyword.name ++ " in expression")
        else calls (named ⟨w.value, w.quoted⟩)
      | none => calls (named ⟨w.value, w.quoted⟩)
  | named name => do
    if ← sign? .leftParen then
      if ← sign? .rightParen then
        return .call name .nil
      let args ← calls arguments
      expectSign .rightParen
      return .call name args
    match ← dottedTail with
    | [] => return .ident name
    | others => return .qualified (name :: others)
  | arguments => do
    if ← sign? .star then
      if ← sign? .comma then
        return .star (← calls arguments)
      return .star .nil
    let first ← calls (expr 0)
    if ← sign? .comma then
      return .value first (← calls arguments)
    return .value first .nil
  | extend level left => do
    match ← get with
    | [] => return left
    | t :: rest =>
      match Extension.ofToken? t.token with
      | none => return left
      | some extension =>
        if level < extension.level then
          set rest
          match extension with
          | .isNull =>
            let negated ← keyword? .NOT
            expectKeyword .NULL
            calls (extend level (.isNull left negated))
          | .binary op =>
            let right ← calls (expr op.level)
            calls (extend level (.binary left op right))
        else return left

def within (budget : Nat) : (call : Call) → Parser call.Result
  | expr level => exprAt budget level
  | operand => Parser.operand budget
  | named name => Parser.named budget name
  | arguments => Parser.arguments budget
  | extend level left => Parser.extend budget level left

/-- The readers with the budget that expressions are read with. -/
def reader (call : Call) : Parser call.Result := do
  call.within (exprBudget (← get).length)

theorem within_succ (budget : Nat) (call : Call) :
    within (budget + 1) call = body (within budget) call := by
  cases call <;> rfl

/-- A call further on in the tokens, or one of lower rank at the same place. -/
def Below (inner outer : Call × List Located) : Prop :=
  Ahead inner.2 outer.2 ∨ inner.2 = outer.2 ∧ inner.1.rank < outer.1.rank

abbrev Outcome (i : Call × List Located) : Type :=
  Except ParseError (i.1.Result × List Located)

/-- No deeper than this are calls nested below one. -/
def size (i : Call × List Located) : Nat :=
  3 * i.2.length + i.1.rank

theorem rank_lt (call : Call) : call.rank < 3 := by
  cases call <;> simp [rank]

theorem Below.size_lt {inner outer : Call × List Located} (h : Below inner outer) :
    size inner < size outer := by
  unfold size
  obtain h | ⟨htokens, hrank⟩ := h
  · have := h.length_lt
    have := inner.1.rank_lt
    omega
  · rw [htokens]
    omega

theorem Below.of_suffix {inner outer : Call} (h : rest <:+ ts) (hrank : inner.rank < outer.rank) :
    Below (inner, rest) (outer, ts) := by
  by_cases heq : rest = ts
  · exact .inr ⟨heq, hrank⟩
  · exact .inl ⟨h, heq⟩

theorem ends_within {all : List Located} {Other : ParseError → Prop} (budget : Nat) :
    ∀ call : Call, Ends all Other (within budget call)
  | expr level => ends_exprAt budget level
  | operand => ends_operand budget
  | named name => ends_named budget name
  | arguments => ends_arguments budget
  | extend level left => ends_extend budget level left

theorem suffix_of_within {budget : Nat} {call : Call} {found : call.Result}
    (h : Reads (within budget call) ts found rest) : rest <:+ ts :=
  suffix_of_ends (fun _ => ends_within budget call) h

/-! Each reader makes the same of the tokens if the calls below are the same. -/

section Below

variable {budget : Nat} {calls : (call : Call) → Parser call.Result}

theorem body_expr_congr {level : Nat}
    (h : ∀ inner rest, Below (inner, rest) (expr level, ts) →
      (within budget inner).run rest = (calls inner).run rest) :
    (body (within budget) (expr level)).run ts = (body calls (expr level)).run ts := by
  refine run_bind_congr (h operand ts (.inr ⟨rfl, Nat.zero_lt_one⟩)) fun first rest hfirst => ?_
  exact h _ rest (.of_suffix (suffix_of_within hfirst) Nat.zero_lt_one)

theorem body_operand_congr
    (h : ∀ inner rest, Ahead rest ts → (within budget inner).run rest = (calls inner).run rest) :
    (body (within budget) operand).run ts = (body calls operand).run ts := by
  refine run_bind_congr rfl fun t rest ht => ?_
  cases reads_next.mp ht
  have hrest (inner : Call) : (within budget inner).run rest = (calls inner).run rest :=
    h inner rest (.of_cons List.suffix_rfl)
  split
  · rfl
  · rfl
  · exact run_bind_congr (hrest _) fun _ _ _ => rfl
  · exact run_bind_congr (hrest _) fun _ _ _ => rfl
  · exact run_bind_congr (hrest _) fun _ _ _ => rfl
  · rfl
  -- a word: `NOT`, a literal or a name
  · split
    · exact run_bind_congr (hrest _) fun _ _ _ => rfl
    · rfl
    · rfl
    · rfl
    · split
      · rfl
      · exact hrest _
    · exact hrest _

theorem body_named_congr {name : Ident}
    (h : ∀ inner rest, Ahead rest ts → (within budget inner).run rest = (calls inner).run rest) :
    (body (within budget) (named name)).run ts = (body calls (named name)).run ts := by
  refine run_bind_congr rfl fun opens left hopens => ?_
  cases opens
  · rfl
  · refine run_bind_congr rfl fun closes others hcloses => ?_
    cases closes
    · have hothers : Ahead others ts :=
        .suffix_trans (suffix_of_ends (fun _ => ends_sign? _) hcloses) (ahead_of_sign? hopens)
      exact run_bind_congr (h arguments others hothers) fun _ _ _ => rfl
    · rfl

theorem body_arguments_congr
    (h : ∀ inner rest, Below (inner, rest) (arguments, ts) →
      (within budget inner).run rest = (calls inner).run rest) :
    (body (within budget) arguments).run ts = (body calls arguments).run ts := by
  refine run_bind_congr rfl fun star rest hstar => ?_
  have hrest : rest <:+ ts := suffix_of_ends (fun _ => ends_sign? _) hstar
  cases star
  · have hexpr : Below (expr 0, rest) (arguments, ts) := .of_suffix hrest (by simp [rank])
    refine run_bind_congr (h (expr 0) rest hexpr) fun first left hfirst =>
      run_bind_congr rfl fun comma others hcomma => ?_
    cases comma
    · rfl
    · have hothers : Ahead others ts :=
        (ahead_of_sign? hcomma).trans_suffix ((suffix_of_within hfirst).trans hrest)
      exact run_bind_congr (h arguments others (.inl hothers)) fun _ _ _ => rfl
  · refine run_bind_congr rfl fun comma others hcomma => ?_
    cases comma
    · rfl
    · have hothers : Ahead others ts := (ahead_of_sign? hcomma).trans_suffix hrest
      exact run_bind_congr (h arguments others (.inl hothers)) fun _ _ _ => rfl

/-- An operator is itself a token, so it is extended further on. -/
theorem body_extend_congr {level : Nat} {left : Expr}
    (h : ∀ inner rest, Ahead rest ts → (within budget inner).run rest = (calls inner).run rest) :
    (body (within budget) (extend level left)).run ts =
      (body calls (extend level left)).run ts := by
  cases ts with
  | nil => rfl
  | cons t ts =>
    refine run_bind_congr rfl fun tokens rest hget => ?_
    cases hget
    dsimp only
    split
    · rfl
    split
    · refine run_bind_congr rfl fun _ rest hset => ?_
      cases hset
      split
      · refine run_bind_congr rfl fun negated others hnegated =>
          run_bind_congr rfl fun _ last hlast => ?_
        have hlast : last <:+ ts := (suffix_of_ends (fun _ => ends_expectKeyword _) hlast).trans
          (suffix_of_ends (fun _ => ends_keyword? _) hnegated)
        exact h _ last (.of_cons hlast)
      · refine run_bind_congr (h _ ts (.of_cons List.suffix_rfl)) fun right others hright => ?_
        exact h _ others (.of_cons (suffix_of_within hright))
    · rfl

theorem body_congr {call : Call}
    (h : ∀ inner rest, Below (inner, rest) (call, ts) →
      (within budget inner).run rest = (calls inner).run rest) :
    (body (within budget) call).run ts = (body calls call).run ts := by
  have hahead (inner : Call) (rest : List Located) (hrest : Ahead rest ts) :
      (within budget inner).run rest = (calls inner).run rest := h inner rest (.inl hrest)
  cases call with
  | expr level => exact body_expr_congr h
  | operand => exact body_operand_congr hahead
  | named name => exact body_named_congr hahead
  | arguments => exact body_arguments_congr h
  | extend level left => exact body_extend_congr hahead

end Below

def bodyAt (calls : (i : Call × List Located) → Outcome i) (i : Call × List Located) : Outcome i :=
  (body (fun call ts => calls (call, ts)) i.1).run i.2

def outcome (i : Call × List Located) : Outcome i :=
  i.1.reader.run i.2

theorem halts : Halts Below size bodyAt outcome := by
  refine .of_budget (fun budget i => (within budget i.1).run i.2) Below.size_lt ?_ ?_ ?_
  · exact fun budget i => by rw [within_succ]; rfl
  · exact fun budget i calls h => body_congr fun inner rest hbelow => h (inner, rest) hbelow
  · refine fun i => ⟨exprBudget i.2.length, ?_, run_get_bind _⟩
    have := i.1.rank_lt
    simp only [size, exprBudget]
    omega

end Call

/-! ## Names -/

/-- A part of a name, if a period comes before it; `more` reads the others. -/
def dottedBody (more : List Located → Except ParseError (List Ident × List Located)) :
    List Located → Except ParseError (List Ident × List Located)
  | [] => .ok ([], [])
  | t :: rest =>
    if t.token = .sign .period then
      match rest with
      | [] => (unexpected "identifier" : Parser (List Ident)).run []
      | name :: rest => do
        let first ← identOf name
        let (others, rest) ← more rest
        return (first :: others, rest)
    else .ok ([], t :: rest)

theorem halts_dottedTail : Halts Ahead List.length dottedBody dottedTail := by
  refine .of_calls_below Ahead.length_lt fun ts more hmore => ?_
  match ts with
  | [] => rfl
  | [t] => rw [dottedBody, dottedTail]
  | t :: name :: rest =>
    have hrest : Ahead rest (t :: name :: rest) := .of_cons (List.suffix_cons name rest)
    rw [dottedBody, dottedTail, hmore rest hrest]

/-- A part of a starred name, with its period; `more` reads the others, if no star comes. -/
def starredBody (more : List Located → Option (List Ident × List Located)) :
    List Located → Option (List Ident × List Located)
  | name :: period :: rest =>
    match identOf name with
    | .error _ => none
    | .ok ident =>
      if period.token = .sign .period then
        match rest with
        | star :: others =>
          if star.token = .sign .star then some ([ident], others)
          else (more rest).map fun (idents, others) => (ident :: idents, others)
        | [] => none
      else none
  | _ => none

theorem halts_starredName? : Halts Ahead List.length starredBody starredName? := by
  refine .of_calls_below Ahead.length_lt fun ts more hmore => ?_
  match ts with
  | [] | [_] | [_, _] => rfl
  | name :: period :: star :: others =>
    have hrest : Ahead (star :: others) (name :: period :: star :: others) :=
      .of_cons (List.suffix_cons period _)
    calc starredBody more (name :: period :: star :: others)
        = starredBody starredName? (name :: period :: star :: others) := by
          rw [starredBody, starredBody, hmore _ hrest]
      _ = starredName? (name :: period :: star :: others) := rfl

/-- An item of a select list that is no starred name. -/
def unstarredItem : Parser SelectItem := do
  if ← sign? .star then
    return .all
  let value ← expr
  match ← alias? with
  | some name => return .aliased value name
  | none => return .expr value

theorem starredName?_star {t : Located} (h : t.token = .sign .star) :
    starredName? (t :: ts) = none := by
  obtain ⟨error, herror⟩ : ∃ error, identOf t = .error error := by
    rw [identOf, h]
    exact ⟨_, rfl⟩
  cases ts with
  | nil => rfl
  | cons period rest => rw [starredName?, herror]

/-- An item that is no starred name is read from where it starts. -/
theorem run_selectItem (ts : List Located) : selectItem.run ts =
    match starredName? ts with
    | some (idents, rest) => .ok (.allOf ⟨idents⟩, rest)
    | none => unstarredItem.run ts := by
  cases ts with
  | nil => rfl
  | cons t ts =>
    by_cases ht : t.token = .sign .star
    · have hsign : Reads (sign? .star) (t :: ts) true ts :=
        reads_sign?.mpr (.inl ⟨t, ts, ht, rfl, rfl, rfl⟩)
      rw [starredName?_star ht, selectItem, unstarredItem, hsign.run_bind, hsign.run_bind]
      rfl
    · have hsign : Reads (sign? .star) (t :: ts) false (t :: ts) :=
        reads_sign?.mpr (.inr ⟨stops_tokensOf_cons.mpr ht, rfl, rfl⟩)
      rw [selectItem, unstarredItem, hsign.run_bind, hsign.run_bind, if_neg Bool.false_ne_true,
        if_neg Bool.false_ne_true, run_get_bind]
      cases starredName? (t :: ts) with
      | none => rfl
      | some found => rfl

/-- Keywords are either all read or all left unread. -/
theorem run_keywords? (keywords : List Keyword) (ts : List Located) :
    Reads (keywords? keywords) ts false ts ∨
      ∃ used rest, ts = used ++ rest ∧ used.length = keywords.length ∧
        Reads (keywords? keywords) ts true rest := by
  by_cases h : (keywords.map some == (ts.take keywords.length).map (·.token.keyword?)) = true
  · refine .inr ⟨_, _, (List.take_append_drop keywords.length ts).symm, ?_, ?_⟩
    · simpa using (congrArg List.length (eq_of_beq h)).symm
    · change (if _ then _ else _ : Parser Bool).run ts = _
      rw [if_pos h]
      rfl
  · refine .inl ?_
    change (if _ then _ else _ : Parser Bool).run ts = _
    rw [if_neg h]
    rfl

end Parser

/-! ## Scripts -/

namespace Script

open SqlPipeline.Sql.Parser

/-- The statements of a script with their places; `read` reads the texts to prepare in it. -/
def spannedBody (read : String → Except ParseError (List Statement)) (sql : String) :
    Except ParseError (List Spanned) := do
  let tokens ← tokenize sql
  if tokens.isEmpty then
    throw ⟨"Empty SQL statement", none⟩
  let (found, _) ← (statements read).run tokens
  return found

/-- The statements of a script; `read` reads the texts to prepare in it. -/
def parseBody (read : String → Except ParseError (List Statement)) (sql : String) :
    Except ParseError (List Statement) := do
  return (← spannedBody read sql).map (·.statement)

theorem spanned_eq_body (sql : String) : spanned sql = spannedBody parse sql :=
  spanned_eq sql

theorem halts_parse : Halts PreparedIn String.length parseBody parse := by
  refine .of_calls_below PreparedIn.length_lt fun sql read hread => ?_
  have hspanned : spannedBody read sql = spanned sql :=
    (readWith_congr hread).trans (spanned_eq sql).symm
  rw [parseBody, hspanned]
  rfl

/-- **Reading a script ends**, whatever the script is: so do the loops and recursions by which it is
read, and each of their rounds starts further on than the one before. -/
theorem parse_halts :
    -- a script, where texts to prepare are read as scripts; with the places of statements too
    Halts PreparedIn String.length parseBody parse ∧
    (∀ sql, parseWithSource sql = do
      return (← spannedBody parse sql).map fun found => (found.statement, sourceOf sql found)) ∧
    -- the segments of a text
    Halts (fun rest all => Ahead rest.2 all.2) (fun i => i.2.length) Segment.splitBody
      (fun i => Segment.split i.2.length i.1 i.2) ∧
    -- the statements of a script
    (∀ read, Halts Ahead List.length (statementsBody read) (statements read)) ∧
    -- the lists in a statement
    Halts Ahead List.length (listBody selectItem) (commaList selectItem) ∧
    Halts Ahead List.length (listBody Parser.expr) (commaList Parser.expr) ∧
    Halts Ahead List.length (listBody ident) (commaList ident) ∧
    Halts Ahead List.length (listBody assignment) (commaList assignment) ∧
    Halts Ahead List.length (listBody (parenthesized Parser.expr))
      (commaList (parenthesized Parser.expr)) ∧
    -- the items of a select list: one that is no starred name is read from where it starts
    Halts Ahead List.length starredBody starredName? ∧
    (∀ ts, selectItem.run ts = match starredName? ts with
      | some (idents, rest) => .ok (.allOf ⟨idents⟩, rest)
      | none => unstarredItem.run ts) ∧
    -- the joins of a select, which start with keywords
    fromClause = (do return ⟨← Parser.tableRef, ← joins⟩) ∧
    Halts Ahead List.length joinsBody joins ∧
    (∀ keywords ts, Reads (keywords? keywords) ts false ts ∨
      ∃ used rest, ts = used ++ rest ∧ used.length = keywords.length ∧
        Reads (keywords? keywords) ts true rest) ∧
    -- the operators, operands and arguments of an expression
    Parser.expr = Call.reader (.expr 0) ∧ Halts Call.Below Call.size Call.bodyAt Call.outcome ∧
    -- the parts of a name
    Halts Ahead List.length dottedBody dottedTail := by
  refine ⟨halts_parse, fun sql => ?_, Segment.halts_split, fun _ => halts_statements,
    halts_commaList fun _ => ends_selectItem, halts_commaList fun _ => ends_expr,
    halts_commaList fun _ => ends_ident, halts_commaList fun _ => ends_assignment,
    halts_commaList fun _ => ends_parenthesized ends_expr, halts_starredName?, run_selectItem,
    fromClause_eq, halts_joins, run_keywords?, rfl, Call.halts, halts_dottedTail⟩
  rw [parseWithSource, spanned_eq_body]

def preparingTables : String :=
  "PREPARE p FROM 'SHOW TABLES'"

/-- The text to prepare here is shorter, and how deep texts to prepare are read does not matter. -/
theorem parse_halts_prepared :
    PreparedIn "SHOW TABLES" preparingTables ∧
      "SHOW TABLES".length < preparingTables.length ∧
      parseBody^[29] (fun _ => .ok []) preparingTables = parse preparingTables := by
  obtain ⟨hscripts, -⟩ := parse_halts
  have htokens : tokenize preparingTables = .ok [⟨Keyword.PREPARE.token, 0⟩,
      ⟨Ident.token ⟨"p", false⟩, 8⟩, ⟨Keyword.FROM.token, 10⟩, ⟨.string "SHOW TABLES", 15⟩] := by
    decide +kernel
  have hprepared : PreparedIn "SHOW TABLES" preparingTables :=
    ⟨_, htokens, [], _, _, _, _, [], ⟨"p", false⟩, rfl, rfl, rfl, rfl, rfl⟩
  exact ⟨hprepared, hscripts.shrinks hprepared, hscripts.ends 29 _ _ (by decide +kernel)⟩

end Script
end SqlPipeline.Sql
