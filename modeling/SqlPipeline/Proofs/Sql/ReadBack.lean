import SqlPipeline.Proofs.Sql.Scripts
import SqlPipeline.Proofs.Sql.Spellings

/-!
# Printed expressions, read back

An expression whose parts are all shown (`Expr.Shown`) is printed with its own tokens, and so its
text is read as the expression again. Here the converse is proved as well: **the text of an
expression is read as this expression, with its unquoted functions in lower case, exactly if all of
its parts are shown** (`Parser.run_expr_text_iff`).

That other texts are not read back is found by counting. Double quotes and runs of minus signs are
the marks of a text. A text has all marks of its tokens, since two minus signs in a row are never
two tokens (`Lexes.marks_le`). But for each minus in front of a minus, and for each quoted function,
the text of an expression has a mark less than the tokens of the expression (`Expr.loses`).
-/

namespace SqlPipeline
namespace Sql

/-! ## Marks -/

/-- Whether a character is a mark, by the character after it: a double quote is one, and so is the
last of some minus signs. -/
def markAt (c : Char) (next : Option Char) : Nat :=
  if c = '"' ∨ c = '-' ∧ next ≠ some '-' then 1 else 0

/-- The number of double quotes and runs of minus signs in a text. -/
def marks : List Char → Nat
  | [] => 0
  | c :: cs => markAt c cs.head? + marks cs

theorem markAt_quote (next : Option Char) : markAt '"' next = 1 :=
  if_pos (.inl rfl)

theorem marks_eq_zero {cs : List Char} (h : ∀ c ∈ cs, c ≠ '"' ∧ c ≠ '-') : marks cs = 0 := by
  induction cs with
  | nil => rfl
  | cons c cs ih =>
    have hc : markAt c cs.head? = 0 := if_neg (by simp [h c List.mem_cons_self])
    rw [marks, hc, ih fun d hd => h d (List.mem_cons_of_mem _ hd)]

theorem marks_le_append (xs ys : List Char) : marks ys ≤ marks (xs ++ ys) := by
  induction xs with
  | nil => exact Nat.le_refl _
  | cons x xs ih => exact Nat.le_trans ih (Nat.le_add_left _ _)

/-- A mark is lost between two texts if one run of minus signs is made of two. -/
theorem marks_append (xs ys : List Char) :
    marks (xs ++ ys) + (if xs.getLast? = some '-' ∧ ys.head? = some '-' then 1 else 0) =
      marks xs + marks ys := by
  induction xs with
  | nil => simp [marks]
  | cons x xs ih =>
    -- only the last character of the first text meets the second one
    cases xs with
    | nil =>
      have hlast : markAt x ys.head? + (if x = '-' ∧ ys.head? = some '-' then 1 else 0) =
          markAt x none := by
        unfold markAt
        by_cases hx : x = '-' <;> by_cases hys : ys.head? = some '-' <;> simp [hx, hys]
      simp only [List.cons_append, List.nil_append, marks, List.head?_nil, List.getLast?_singleton,
        Option.some.injEq]
      omega
    | cons z xs =>
      rw [List.getLast?_cons_cons, List.cons_append, marks, marks, Nat.add_assoc, ih, Nat.add_assoc]
      rfl

theorem marks_append_le (xs ys : List Char) : marks (xs ++ ys) ≤ marks xs + marks ys :=
  Nat.le_trans (Nat.le_add_right _ _) (Nat.le_of_eq (marks_append xs ys))

theorem marks_append_of_ne {xs ys : List Char} (h : xs.getLast? ≠ some '-' ∨ ys.head? ≠ some '-') :
    marks (xs ++ ys) = marks xs + marks ys := by
  rw [← marks_append, if_neg (by tauto), Nat.add_zero]

theorem Segment.head?_doubled (quote : Char) (cs : List Char) :
    (doubled quote cs).head? = cs.head? := by
  cases cs with
  | nil => rfl
  | cons c cs =>
    by_cases hc : c = quote
    · rw [hc, doubled_cons_self]
      rfl
    · rw [doubled_cons_of_ne hc]
      rfl

theorem marks_le_doubled (cs : List Char) : marks cs ≤ marks (Segment.doubled '"' cs) := by
  induction cs with
  | nil => exact Nat.le_refl _
  | cons c cs ih =>
    by_cases hc : c = '"'
    · subst hc
      rw [Segment.doubled_cons_self, marks, marks, marks, markAt_quote, markAt_quote, markAt_quote]
      omega
    · rw [Segment.doubled_cons_of_ne hc, marks, marks, Segment.head?_doubled]
      exact Nat.add_le_add_left ih _

/-- In quotes a text has the two quotes for marks as well. -/
theorem marks_enquote (value : String) :
    marks value.toList + 2 ≤ marks (Text.enquote '"' value).toList := by
  have hinner : marks (Segment.doubled '"' value.toList ++ ['"']) =
      marks (Segment.doubled '"' value.toList) + 1 :=
    marks_append_of_ne (.inr (by decide))
  have hdoubled := marks_le_doubled value.toList
  rw [Segment.toList_enquote, marks, hinner, markAt_quote]
  omega

/-! ## The marks of tokens -/

theorem IsWord.marks_eq_zero {word : List Char} (h : IsWord word) : marks word = 0 := by
  have hmarks : ∀ d ∈ ['"', '-'], Text.isWordPart d = false := by decide +kernel
  refine Sql.marks_eq_zero fun c hc => ?_
  have hpart := h.isWordPart hc
  constructor <;>
  · rintro rfl
    simp [hmarks] at hpart

def Token.marks : List Token → Nat
  | [] => 0
  | token :: tokens => Sql.marks token.spelling + marks tokens

namespace Token

@[simp] theorem marks_nil : marks [] = 0 := rfl

@[simp] theorem marks_cons (token : Token) (tokens : List Token) :
    marks (token :: tokens) = Sql.marks token.spelling + marks tokens := rfl

@[simp] theorem marks_append (tokens others : List Token) :
    marks (tokens ++ others) = marks tokens + marks others := by
  induction tokens with
  | nil => exact (Nat.zero_add _).symm
  | cons token tokens ih => rw [List.cons_append, marks_cons, ih, marks_cons, Nat.add_assoc]

/-- A keyword has no marks, however it is written. -/
theorem marks_of_keyword {token : Token} {keyword : Keyword} (h : token.Lexed)
    (hkeyword : token.keyword? = some keyword) : Sql.marks token.spelling = 0 := by
  obtain ⟨⟨value, quoted, own⟩, rfl, rfl⟩ := exists_word hkeyword
  cases quoted with
  | true => cases h
  | false => exact IsWord.marks_eq_zero h.1

theorem marks_capital {token : Token} (h : token.Lexed) :
    Sql.marks token.capital.spelling = Sql.marks token.spelling := by
  cases hreserved : token.reserved? with
  | none => rw [capital_of_reserved?_eq_none hreserved]
  | some keyword =>
    obtain ⟨hkeyword, -⟩ := reserved?_eq_some_iff.mp hreserved
    have hcapital : token.capital.keyword? = some keyword := by rw [keyword?_capital, hkeyword]
    rw [marks_of_keyword h.capital hcapital, marks_of_keyword h hkeyword]

theorem marks_capitals {ts : List Located} (h : AllLexed ts) :
    marks (capitals ts) = marks (tokensOf ts) := by
  induction ts with
  | nil => rfl
  | cons t ts ih =>
    have ht : t.token.Lexed := h t List.mem_cons_self
    rw [capitals_cons, marks_cons, marks_capital ht, ih h.tail]
    rfl

theorem marks_of_mem_spellings {token : Token} {text : List Char} (h : text ∈ token.spellings) :
    Sql.marks text = Sql.marks token.spelling := by
  cases token with
  | sign s =>
    have hall : ∀ text ∈ (Token.sign s).spellings,
        Sql.marks text = Sql.marks (Token.sign s).spelling := by
      cases s <;> decide
    exact hall text h
  | word _ | number _ | string _ => rw [List.mem_singleton.mp h]

/-- Only the minus ends with a minus. -/
theorem getLast?_spelling {token : Token} (h : token.Lexed) (hminus : token ≠ .sign .minus) :
    token.spelling.getLast? ≠ some '-' := by
  have hquoted {quote : Char} {value : String} (hquote : quote ≠ '-') :
      (Text.enquote quote value).toList.getLast? ≠ some '-' := by
    rw [Segment.toList_enquote, ← List.cons_append, List.getLast?_concat]
    simpa using hquote
  match token, h with
  | .word ⟨value, true, _⟩, _ => exact hquoted (by decide)
  | .word ⟨value, false, _⟩, h =>
    intro hlast
    have hpart := IsWord.isWordPart h.1 (List.mem_of_getLast? hlast)
    revert hpart
    decide +kernel
  | .number digits, h =>
    intro hlast
    rcases IsNumber.mem h (List.mem_of_getLast? hlast) with hdigit | hperiod
    · cases hdigit
    · cases hperiod
  | .string value, _ => exact hquoted (by decide)
  | .sign s, _ =>
    cases s
    case minus => exact absurd rfl hminus
    all_goals decide

end Token

/-- A token that the lexer cuts off takes no mark from the text after it. -/
theorem Segment.Before.marks_append {token : Token} {text rest : List Char}
    (h : (lexeme text token).Before rest) :
    marks (text ++ rest) = marks token.spelling + marks rest := by
  cases h with
  | token hlexed htext hrest =>
    rw [← Token.marks_of_mem_spellings htext]
    refine marks_append_of_ne ?_
    by_cases hminus : token = .sign .minus
    · subst hminus
      cases List.mem_singleton.mp htext
      refine .inr fun hnext => ?_
      cases hrest '-' hnext
    · -- the second spellings of signs do not end with a minus either
      left
      rcases Token.mem_spellings htext with rfl | rfl | rfl
      · exact Token.getLast?_spelling hlexed hminus
      · decide
      · decide

/-- **A text has all marks of its tokens.** -/
theorem Lexes.marks_le {offset : Nat} {text rest : List Char} {tokens : List Located}
    (h : Lexes offset text tokens rest) :
    Token.marks (tokensOf tokens) + marks rest ≤ marks (text ++ rest) := by
  induction h with
  | done => simp [tokensOf]
  | trivia _ _ ih =>
    rw [List.append_assoc]
    exact Nat.le_trans ih (marks_le_append _ _)
  | token h _ ih =>
    rw [List.append_assoc, h.marks_append]
    rw [tokensOf, List.map_cons, Token.marks_cons, Nat.add_assoc]
    exact Nat.add_le_add_left ih _

/-! ## What printing leaves out -/

/-- Whether a mark of the outermost form of an expression is left out where it is printed. -/
def Expr.hides : Expr → Bool
  | .unary .minus (.unary .minus _) => true
  | .call function _ => function.quoted
  | _ => false

/-- A name in lower case, unless it stands in quotes. -/
def Ident.recased (name : Ident) : Ident :=
  if name.quoted then name else name.lowered

/-- The functions without quotes in lower case. -/
def Respelling.recasing : Respelling where
  function := Ident.recased
  name := id
  string := id

/-- A text is printed for some tokens with at least so many marks less. -/
def Loses (lost : Nat) (text : String) (tokens : List Token) : Prop :=
  marks text.toList + lost ≤ Token.marks tokens

namespace Loses

variable {lost others : Nat} {x y : String} {tokens rest : List Token}

theorem append (h : Loses lost x tokens) (hy : Loses others y rest) :
    Loses (lost + others) (x ++ y) (tokens ++ rest) := by
  have happend := marks_append_le x.toList y.toList
  unfold Loses at h hy ⊢
  rw [String.toList_append, Token.marks_append]
  omega

/-- A text without marks loses nothing. -/
theorem unmarked (h : marks x.toList = 0) : Loses 0 x tokens := by
  unfold Loses
  omega

theorem token {token : Token} (h : x.toList = token.spelling) : Loses 0 x [token] :=
  Nat.le_of_eq (congrArg Sql.marks h)

theorem name (name : Ident) : Loses 0 name.text [name.token] := by
  obtain ⟨value, quoted⟩ := name
  cases quoted <;> exact token rfl

theorem sign (s : Sign) : Loses 0 s.text [.sign s] := token rfl

/-- The key of a function has no quotes. -/
theorem key (function : Ident) :
    Loses (if function.quoted then 1 else 0) function.key [function.recased.token] := by
  obtain ⟨value, quoted⟩ := function
  cases quoted with
  | false => exact token rfl
  | true =>
    have hvalue := marks_enquote value
    have htoken : (Ident.recased ⟨value, true⟩).token.spelling =
        (Text.enquote '"' value).toList := rfl
    have hkey : Ident.key ⟨value, true⟩ = value := rfl
    rw [Loses, Token.marks_cons, Token.marks_nil, htoken, hkey, if_pos rfl]
    omega

theorem dotted : ∀ parts : List Ident, Loses 0 (dotted parts) (dottedTokens parts)
  | [] => unmarked rfl
  | [only] => name only
  | first :: next :: others => by
    have hperiod : Loses 0 "." [.sign .period] := unmarked (by decide)
    have hall := ((name first).append hperiod).append (dotted (next :: others))
    exact hall

/-- The second of two minus signs is part of the run of the first. -/
theorem minus (h : Loses lost x tokens) (hx : x.toList.head? = some '-') :
    Loses (lost + 1) ("-" ++ x) (.sign .minus :: tokens) := by
  obtain ⟨rest, hrest⟩ := List.head?_eq_some_iff.mp hx
  have hrun : Sql.marks ("-" ++ x).toList = Sql.marks x.toList := by
    rw [String.toList_append, hrest]
    exact Nat.zero_add _
  have hminus : Sql.marks (Token.sign .minus).spelling = 1 := by decide
  rw [Loses] at h ⊢
  rw [hrun, Token.marks_cons, hminus]
  omega

end Loses

theorem Expr.hides_unary {op : UnaryOp} {operand : Expr}
    (h : (Expr.unary op operand).hides = true) :
    op = .minus ∧ operand.text.toList.head? = some '-' := by
  cases op with
  | plus | not => cases h
  | minus =>
    cases operand with
    | unary own inner =>
      cases own with
      | plus | not => cases h
      | minus =>
        refine ⟨rfl, ?_⟩
        rw [Expr.text, String.toList_append]
        rfl
    | _ => cases h

mutual

/-- **Each minus in front of a minus and each quoted function loses a mark in the text.** -/
theorem Expr.loses : ∀ e : Expr,
    Loses (e.parts.countP Expr.hides) e.text (e.respelled .recasing).tokens
  | .ident name => .name name
  | .qualified parts => by
    rw [Expr.respelled, Respelling.recasing, List.map_id]
    exact .dotted parts
  | .literal value => by
    refine .token ?_
    cases value with
    | boolean value => cases value <;> rfl
    | number _ | string _ | null => rfl
  | .unary op operand => by
    have hoperand := Expr.loses operand
    rw [Expr.parts, List.countP_cons]
    by_cases hhides : (Expr.unary op operand).hides = true
    · obtain ⟨rfl, hminus⟩ := Expr.hides_unary hhides
      rw [if_pos hhides]
      exact hoperand.minus hminus
    · have hop : Loses 0 op.text [op.token] := by cases op <;> exact Nat.le_of_eq (by decide)
      have hall := hop.append hoperand
      rw [if_neg hhides, Nat.add_zero]
      rwa [Nat.zero_add] at hall
  | .binary left op right => by
    have hop : Loses 0 (" " ++ op.text ++ " ") [op.token] := by
      cases op <;> exact Nat.le_of_eq (by decide)
    have hall := ((Expr.loses left).append hop).append (Expr.loses right)
    simpa [Expr.text, Expr.respelled, Expr.tokens, Expr.parts, Expr.hides, String.append_assoc]
      using hall
  | .isNull operand negated => by
    have hoperand := Expr.loses operand
    cases negated with
    | false | true => exact hoperand.append (.unmarked (by decide))
  | .call function args => by
    have hall := (((Loses.key function).append (Loses.sign .leftParen)).append
      (Args.loses args)).append (Loses.sign .rightParen)
    rw [Expr.parts, List.countP_cons, Nat.add_comm]
    exact hall
  | .nested inner => by
    have hall := ((Loses.sign .leftParen).append (Expr.loses inner)).append (Loses.sign .rightParen)
    rw [Expr.parts, List.countP_cons, Nat.add_comm]
    exact hall

theorem Args.loses : ∀ args : Args,
    Loses (args.parts.countP Expr.hides) args.text (args.respelled .recasing).tokens
  | .nil => .unmarked rfl
  | .star rest => by
    have hrest := Args.loses rest
    have hstar : Loses 0 "*" [.sign .star] := .unmarked (by decide)
    have hcomma : Loses 0 ", " [.sign .comma] := .unmarked (by decide)
    cases rest with
    | nil => exact hstar
    | star _ | value _ _ =>
      have hall := (hstar.append hcomma).append hrest
      rwa [Nat.zero_add] at hall
  | .value arg rest => by
    have harg := Expr.loses arg
    have hrest := Args.loses rest
    have hcomma : Loses 0 ", " [.sign .comma] := .unmarked (by decide)
    rw [Args.parts, List.countP_append]
    cases rest with
    | nil => exact harg
    | star _ | value _ _ =>
      have hall := (harg.append hcomma).append hrest
      simpa [Args.text, Args.respelled, Args.tokens] using hall

end

/-! ## Reading back -/

mutual

theorem Expr.parts_respelled {r : Respelling} : ∀ e : Expr,
    (e.respelled r).parts = e.parts.map (Expr.respelled r)
  | .ident _ | .qualified _ | .literal _ => rfl
  | .unary _ operand => congrArg (List.cons _) (Expr.parts_respelled operand)
  | .binary left _ right => by
    rw [Expr.respelled, Expr.parts, Expr.parts_respelled left, Expr.parts_respelled right,
      ← List.map_append]
    rfl
  | .isNull operand _ => congrArg (List.cons _) (Expr.parts_respelled operand)
  | .call _ args => congrArg (List.cons _) (Args.parts_respelled args)
  | .nested inner => congrArg (List.cons _) (Expr.parts_respelled inner)

theorem Args.parts_respelled {r : Respelling} : ∀ args : Args,
    (args.respelled r).parts = args.parts.map (Expr.respelled r)
  | .nil => rfl
  | .star rest => Args.parts_respelled rest
  | .value arg rest => by
    rw [Args.respelled, Args.parts, Expr.parts_respelled arg, Args.parts_respelled rest,
      ← List.map_append]
    rfl

end

mutual

/-- Where all functions are shown, none has quotes. -/
theorem Expr.lowered_eq_respelled : ∀ {e : Expr}, (∀ part ∈ e.parts, part.Shown) →
    e.lowered = e.respelled .recasing
  | .ident _, _ => rfl
  | .qualified parts, _ => congrArg Expr.qualified (List.map_id parts).symm
  | .literal value, _ => by cases value <;> rfl
  | .unary op operand, h => by
    have hoperand := Expr.lowered_eq_respelled (e := operand)
      fun part hpart => h part (List.mem_cons_of_mem _ hpart)
    exact congrArg (Expr.unary op) hoperand
  | .binary left op right, h => by
    have hleft := Expr.lowered_eq_respelled (e := left)
      fun part hpart => h part (List.mem_cons_of_mem _ (List.mem_append_left _ hpart))
    have hright := Expr.lowered_eq_respelled (e := right)
      fun part hpart => h part (List.mem_cons_of_mem _ (List.mem_append_right _ hpart))
    exact congrArg₂ (fun left right => Expr.binary left op right) hleft hright
  | .isNull operand negated, h => by
    have hoperand := Expr.lowered_eq_respelled (e := operand)
      fun part hpart => h part (List.mem_cons_of_mem _ hpart)
    exact congrArg (fun operand => Expr.isNull operand negated) hoperand
  | .call function args, h => by
    have hfunction : function.lowered = function.recased :=
      (if_neg (by simp [(h _ List.mem_cons_self).1])).symm
    have hargs := Args.lowered_eq_respelled fun part hpart => h part (List.mem_cons_of_mem _ hpart)
    exact congrArg₂ Expr.call hfunction hargs
  | .nested inner, h => by
    have hinner := Expr.lowered_eq_respelled (e := inner)
      fun part hpart => h part (List.mem_cons_of_mem _ hpart)
    exact congrArg Expr.nested hinner

theorem Args.lowered_eq_respelled : ∀ {args : Args}, (∀ part ∈ args.parts, part.Shown) →
    args.lowered = args.respelled .recasing
  | .nil, _ => rfl
  | .star rest, h => by
    have hshown : ∀ part ∈ rest.parts, part.Shown := h
    exact congrArg Args.star (Args.lowered_eq_respelled hshown)
  | .value arg rest, h => by
    have harg := Expr.lowered_eq_respelled (e := arg)
      fun part hpart => h part (List.mem_append_left _ hpart)
    have hrest := Args.lowered_eq_respelled fun part hpart => h part (List.mem_append_right _ hpart)
    exact congrArg₂ Args.value harg hrest

end

/-- Reading the whole text of an expression gives this expression. -/
def Expr.ReadsAs (text : String) (e : Expr) : Prop :=
  ∃ tokens, tokenize text = .ok tokens ∧ Parser.expr.run tokens = .ok (e, [])

/-- An expression that is read from a text is grouped, and the text has all marks of its tokens. -/
theorem Expr.ReadsAs.sound {text : String} {e : Expr} (h : ReadsAs text e) :
    e.Grouped 0 ∧ Token.marks e.tokens ≤ marks text.toList := by
  obtain ⟨tokens, htokens, hrun⟩ := h
  have hlexes := tokenize_eq_ok_iff.mp htokens
  obtain ⟨used, rfl, hused, hgrouped, -⟩ := Parser.expr_sound hlexes.lexed hrun
  rw [List.append_nil] at hlexes
  refine ⟨hgrouped, ?_⟩
  have hmarks := hlexes.marks_le
  rw [List.append_nil] at hmarks
  rw [← hused, Token.marks_capitals hlexes.lexed]
  exact Nat.le_trans (Nat.le_add_right _ _) hmarks

theorem Expr.Grouped.readsAs {e : Expr} (h : e.Grouped 0) (hshown : ∀ part ∈ e.parts, part.Shown) :
    Expr.ReadsAs e.text (e.respelled .recasing) := by
  obtain ⟨hwrites, -⟩ := h.prints hshown [] (fun c hc => by cases hc)
  obtain ⟨tokens, hlexes, htokens⟩ := hwrites 0
  have hlowered := h.lowered hshown
  -- the keywords among the printed tokens are in capitals already
  have hcapitals : capitals tokens = e.lowered.tokens := by
    rw [← hlowered.capital_tokens, ← htokens, capitals, tokensOf, List.map_map]
    rfl
  have hreads : Parser.Reads Parser.expr (tokens ++ []) e.lowered [] :=
    Parser.expr_complete hcapitals hlowered rfl stops_nil
  rw [List.append_nil] at hreads
  rw [← Expr.lowered_eq_respelled hshown]
  exact ⟨tokens, tokenize_eq_ok_iff.mpr hlexes, hreads⟩

theorem Expr.shown_of_readsAs {e : Expr} (h : ReadsAs e.text (e.respelled .recasing)) :
    ∀ part ∈ e.parts, part.Shown := by
  obtain ⟨hgrouped, hmarks⟩ := h.sound
  -- what is read has no more marks than the text, so no mark of the tokens is left out in it
  have hnone : e.parts.countP Expr.hides = 0 := by
    have hloses := e.loses
    unfold Loses at hloses
    omega
  intro part hpart
  have hhides : ¬part.hides = true := List.countP_eq_zero.mp hnone part hpart
  have hgrouped : ∃ level, (part.respelled .recasing).Grouped level := by
    refine hgrouped.of_mem_parts ?_
    rw [Expr.parts_respelled]
    exact List.mem_map_of_mem hpart
  cases part with
  | unary op operand =>
    cases op with
    | plus | not => trivial
    | minus =>
      cases operand with
      | unary own _ =>
        cases own with
        | plus | not => trivial
        | minus => exact absurd rfl hhides
      | _ => trivial
  | call function args =>
    obtain ⟨_, hname, -⟩ := hgrouped
    have hquoted : function.quoted = false := by simpa [Expr.hides] using hhides
    have hrecased : function.recased = function.lowered := if_neg (by simp [hquoted])
    exact ⟨hquoted, hrecased ▸ hname⟩
  | _ => trivial

/-- **When a printed expression is read back.** Of an expression that is read from any text, the own
text is read in full, as this expression with its unquoted functions in lower case, exactly if no
minus in it stands in front of a minus and every function is unquoted and a name in lower case as
well. -/
theorem Parser.run_expr_text_iff {sql : String} {tokens rest : List Located} {e : Expr}
    (htokens : tokenize sql = .ok tokens) (h : Parser.expr.run tokens = .ok (e, rest)) :
    Expr.ReadsAs e.text (e.respelled .recasing) ↔ ∀ part ∈ e.parts, part.Shown := by
  obtain ⟨_, _, _, hgrouped, -⟩ := expr_sound (tokenize_eq_ok_iff.mp htokens).lexed h
  exact ⟨Expr.shown_of_readsAs, hgrouped.readsAs⟩

/-- The tokens of `Abs(-(-"a-b")) IS NULL`. -/
def absTokens : List Located :=
  [⟨Ident.token ⟨"Abs", false⟩, 0⟩, ⟨.sign .leftParen, 3⟩, ⟨.sign .minus, 4⟩, ⟨.sign .leftParen, 5⟩,
   ⟨.sign .minus, 6⟩, ⟨Ident.token ⟨"a-b", true⟩, 7⟩, ⟨.sign .rightParen, 12⟩,
   ⟨.sign .rightParen, 13⟩, ⟨Keyword.IS.token, 15⟩, ⟨Keyword.NULL.token, 18⟩]

/-- The expression `Abs(-(-"a-b")) IS NULL`. -/
def absExpr : Expr :=
  .isNull (.call ⟨"Abs", false⟩
    (.value (.unary .minus (.nested (.unary .minus (.ident ⟨"a-b", true⟩)))) .nil)) false

/-- A minus in parentheses may stand after a minus. -/
theorem Parser.run_expr_text_abs :
    tokenize "Abs(-(-\"a-b\")) IS NULL" = .ok absTokens ∧
      Parser.expr.run absTokens = .ok (absExpr, []) ∧
      (∀ part ∈ absExpr.parts, part.Shown) ∧
      Expr.ReadsAs absExpr.text (absExpr.respelled .recasing) := by
  have htokens : tokenize "Abs(-(-\"a-b\")) IS NULL" = .ok absTokens :=
    Script.eq_ok_of_toOption (by decide +kernel)
  have hexpr : Parser.expr.run absTokens = .ok (absExpr, []) :=
    Script.eq_ok_of_toOption (by decide +kernel)
  have hplain : absExpr.IsPlain := by decide +kernel
  obtain ⟨_, _, _, hgrouped, -⟩ := expr_sound (tokenize_eq_ok_iff.mp htokens).lexed hexpr
  have hshown := hgrouped.shown hplain
  exact ⟨htokens, hexpr, hshown, (run_expr_text_iff htokens hexpr).mpr hshown⟩

/-- The expression `- -1`. -/
def negatedTwice : Expr :=
  .unary .minus (.unary .minus (.literal (.number "1")))

/-- A call of a function by its name, with the column `x` for an argument. -/
def callOf (function : Ident) : Expr :=
  .call function (.value (.ident ⟨"x", false⟩) .nil)

/-- The text of `- -1` is a comment, from which nothing is read. The text of `"Lower"(x)` is read as
a call of another function, which is found under the key `lower`. -/
theorem Parser.run_expr_text_lossy :
    Expr.ReadsAs "- -1" negatedTwice ∧ (∀ e, ¬Expr.ReadsAs negatedTwice.text e) ∧
      Expr.ReadsAs "\"Lower\"(x)" (callOf ⟨"Lower", true⟩) ∧
      Expr.ReadsAs (callOf ⟨"Lower", true⟩).text (callOf ⟨"Lower", false⟩) := by
  have hreads {text : String} {e : Expr} (tokens : List Located)
      (htokens : (tokenize text).toOption = some tokens)
      (hexpr : (Parser.expr.run tokens).toOption = some (e, [])) : Expr.ReadsAs text e :=
    ⟨tokens, Script.eq_ok_of_toOption htokens, Script.eq_ok_of_toOption hexpr⟩
  refine ⟨?_, ?_, ?_, ?_⟩
  · exact hreads [⟨.sign .minus, 0⟩, ⟨.sign .minus, 2⟩, ⟨.number "1", 3⟩]
      (by decide +kernel) (by decide +kernel)
  · rintro e ⟨tokens, htokens, hexpr⟩
    have hnone : tokenize negatedTwice.text = .ok [] := Script.eq_ok_of_toOption (by decide +kernel)
    cases hnone.symm.trans htokens
    cases hexpr
  · exact hreads [⟨Ident.token ⟨"Lower", true⟩, 0⟩, ⟨.sign .leftParen, 7⟩,
      ⟨Ident.token ⟨"x", false⟩, 8⟩, ⟨.sign .rightParen, 9⟩] (by decide +kernel) (by decide +kernel)
  · exact hreads [⟨Ident.token ⟨"Lower", false⟩, 0⟩, ⟨.sign .leftParen, 5⟩,
      ⟨Ident.token ⟨"x", false⟩, 6⟩, ⟨.sign .rightParen, 7⟩] (by decide +kernel) (by decide +kernel)

end Sql
end SqlPipeline
