import SqlPipeline.Proofs.Sql.Segments
import SqlPipeline.Sql.Parser.Expr

/-!
# The grammar of expressions

The tokens an expression is written with, and the expressions that can be written without further
parentheses: `Expr.Grouped` says that every operator of an expression has the operands it would
have if the tokens were read.

An operator takes what follows into its last operand as long as that binds tighter. So an
expression may stand to the left of an operator only if it leaves that operator alone
(`Expr.Leaves`), and to the right of one only if its own operators bind tighter.
-/

namespace SqlPipeline.Sql

/-! ## Tokens -/

/-- A keyword as a token, in capitals. -/
def Keyword.token (keyword : Keyword) : Token :=
  .word ⟨keyword.name, false, some keyword⟩

theorem Keyword.lexed_token (keyword : Keyword) : keyword.token.Lexed := by
  have hword : IsWord keyword.name.toList := by
    cases keyword <;> exact ⟨by decide, by decide⟩
  have hkeyword : some keyword = Keyword.ofWord? keyword.name.toList := by
    cases keyword <;> decide
  exact ⟨hword, hkeyword⟩

namespace Token

def reserved? (token : Token) : Option Keyword :=
  token.keyword?.filter Keyword.isReserved

/-- A reserved keyword in capitals, and any other token as it is. The letters of reserved keywords
do not matter to a statement, those of all other words do. -/
def capital (token : Token) : Token :=
  match token.reserved? with
  | some keyword => keyword.token
  | none => token

theorem reserved?_eq_some_iff {token : Token} {keyword : Keyword} :
    token.reserved? = some keyword ↔ token.keyword? = some keyword ∧ keyword.isReserved = true := by
  unfold reserved?
  rw [Option.filter_eq_some_iff]

@[simp] theorem keyword?_token (keyword : Keyword) : keyword.token.keyword? = some keyword := rfl

theorem capital_of_keyword {token : Token} {keyword : Keyword} (h : token.keyword? = some keyword)
    (hreserved : keyword.isReserved = true) : token.capital = keyword.token := by
  rw [capital, reserved?_eq_some_iff.mpr ⟨h, hreserved⟩]

theorem capital_of_reserved?_eq_none {token : Token} (h : token.reserved? = none) :
    token.capital = token := by
  rw [capital, h]

/-- Capitals leave the keyword of a token as it is. -/
@[simp] theorem keyword?_capital (token : Token) : token.capital.keyword? = token.keyword? := by
  cases h : token.reserved? with
  | none => rw [capital_of_reserved?_eq_none h]
  | some keyword =>
    obtain ⟨hkeyword, hreserved⟩ := reserved?_eq_some_iff.mp h
    rw [capital_of_keyword hkeyword hreserved, hkeyword, keyword?_token]

@[simp] theorem reserved?_capital (token : Token) : token.capital.reserved? = token.reserved? := by
  rw [reserved?, keyword?_capital, reserved?]

theorem keyword?_of_capital {token : Token} {keyword : Keyword} (h : token.capital = keyword.token) :
    token.keyword? = some keyword := by
  rw [← keyword?_capital, h, keyword?_token]

theorem exists_word {token : Token} {keyword : Keyword} (h : token.keyword? = some keyword) :
    ∃ w : Word, token = .word w ∧ w.keyword = some keyword := by
  cases token with
  | word w => exact ⟨w, rfl, h⟩
  | number _ | string _ | sign _ => cases h

/-- Only the token itself is written like a token that is no reserved keyword. -/
theorem eq_of_capital {token other : Token} (h : token.capital = other)
    (hother : other.reserved? = none) : token = other := by
  cases htoken : token.reserved? with
  | none => rwa [capital_of_reserved?_eq_none htoken] at h
  | some keyword =>
    rw [← h, reserved?_capital, htoken] at hother
    cases hother

/-- A word in capitals is still one that the lexer makes. -/
theorem Lexed.capital {token : Token} (h : token.Lexed) : token.capital.Lexed := by
  unfold Token.capital
  split
  · next keyword _ => exact keyword.lexed_token
  · exact h

theorem capital_sign {token : Token} {s : Sign} : token.capital = .sign s ↔ token = .sign s :=
  ⟨fun h => eq_of_capital h rfl, fun h => by rw [h]; rfl⟩

end Token

def capitals (tokens : List Located) : List Token :=
  tokens.map (·.token.capital)

@[simp] theorem capitals_append (first rest : List Located) :
    capitals (first ++ rest) = capitals first ++ capitals rest :=
  List.map_append

@[simp] theorem capitals_cons (t : Located) (rest : List Located) :
    capitals (t :: rest) = t.token.capital :: capitals rest := rfl

namespace Ident

/-- The keyword that a name is spelled like. -/
def keyword? (name : Ident) : Option Keyword :=
  if name.quoted then none else Keyword.ofWord? name.value.toList

def token (name : Ident) : Token :=
  .word ⟨name.value, name.quoted, name.keyword?⟩

/-- A name that can be written: any text in quotes, or a word that is no reserved keyword. -/
def IsName (name : Ident) : Prop :=
  (name.quoted = true ∨ IsWord name.value.toList) ∧ name.token.reserved? = none

theorem lexed_token_iff {name : Ident} :
    name.token.Lexed ↔ name.quoted = true ∨ IsWord name.value.toList := by
  obtain ⟨value, quoted⟩ := name
  cases quoted <;> simp [token, keyword?, Token.Lexed]

/-- The tokens of a word are the tokens of names. -/
theorem token_of_lexed {w : Word} (h : (Token.word w).Lexed) :
    Ident.token ⟨w.value, w.quoted⟩ = .word w := by
  obtain ⟨value, quoted, keyword⟩ := w
  cases quoted with
  | true =>
    cases (show keyword = none from h)
    rfl
  | false =>
    obtain ⟨-, rfl⟩ : IsWord value.toList ∧ keyword = Keyword.ofWord? value.toList := h
    rfl

theorem token_inj {name other : Ident} (h : name.token = other.token) : name = other := by
  cases name
  cases other
  injection h with h
  injection h with hvalue hquoted
  exact congr (congrArg Ident.mk hvalue) hquoted

theorem IsName.capital {name : Ident} (h : name.IsName) : name.token.capital = name.token :=
  Token.capital_of_reserved?_eq_none h.2

end Ident

/-- The tokens of the names that follow the first in a dotted name. -/
def tailTokens (names : List Ident) : List Token :=
  names.flatMap fun name => [.sign .period, name.token]

def dottedTokens : List Ident → List Token
  | [] => []
  | name :: others => name.token :: tailTokens others

def UnaryOp.token : UnaryOp → Token
  | .plus => .sign .plus
  | .minus => .sign .minus
  | .not => Keyword.NOT.token

def BinaryOp.token : BinaryOp → Token
  | .plus => .sign .plus
  | .minus => .sign .minus
  | .multiply => .sign .star
  | .divide => .sign .slash
  | .modulo => .sign .percent
  | .gt => .sign .gt
  | .lt => .sign .lt
  | .gtEq => .sign .gtEq
  | .ltEq => .sign .ltEq
  | .eq => .sign .eq
  | .notEq => .sign .neq
  | .and => Keyword.AND.token
  | .or => Keyword.OR.token

def Literal.token : Literal → Token
  | .number digits => .number digits
  | .string value => .string value
  | .boolean true => Keyword.TRUE.token
  | .boolean false => Keyword.FALSE.token
  | .null => Keyword.NULL.token

def nullTokens (negated : Bool) : List Token :=
  if negated then [Keyword.IS.token, Keyword.NOT.token, Keyword.NULL.token]
  else [Keyword.IS.token, Keyword.NULL.token]

mutual

/-- The tokens of an expression in order. Parentheses belong to calls and to nested expressions
only. -/
def Expr.tokens : Expr → List Token
  | .ident name => [name.token]
  | .qualified parts => dottedTokens parts
  | .literal value => [value.token]
  | .unary op operand => op.token :: operand.tokens
  | .binary left op right => left.tokens ++ op.token :: right.tokens
  | .isNull operand negated => operand.tokens ++ nullTokens negated
  | .call function args =>
    function.token :: .sign .leftParen :: (args.tokens ++ [.sign .rightParen])
  | .nested inner => .sign .leftParen :: (inner.tokens ++ [.sign .rightParen])

def Args.tokens : Args → List Token
  | .nil => []
  | .star .nil => [.sign .star]
  | .star rest => .sign .star :: .sign .comma :: rest.tokens
  | .value arg .nil => arg.tokens
  | .value arg rest => arg.tokens ++ .sign .comma :: rest.tokens

end

/-! ## Grouping -/

/-- Whether an operator of the given level that follows an expression is left alone by the
operators at the right edge of the expression. -/
def Expr.Leaves : Expr → Nat → Prop
  | .unary op operand, level => level ≤ op.level ∧ operand.Leaves level
  | .binary _ op right, level => level ≤ op.level ∧ right.Leaves level
  | _, _ => True

mutual

/-- Whether an expression can be written at a level: its operators bind tighter than the level, the
operands of each of them are grouped by it, and its names and literals can be written. -/
def Expr.Grouped : Expr → Nat → Prop
  | .ident name, _ => name.IsName
  | .qualified parts, _ => 2 ≤ parts.length ∧ ∀ name ∈ parts, name.IsName
  | .literal value, _ => value.token.Lexed
  | .unary op operand, _ => operand.Grouped op.level
  | .binary left op right, level =>
    level < op.level ∧ left.Grouped level ∧ left.Leaves op.level ∧ right.Grouped op.level
  | .isNull operand _, level =>
    level < Extension.isNull.level ∧ operand.Grouped level ∧ operand.Leaves Extension.isNull.level
  | .call function args, _ => function.IsName ∧ args.Grouped
  | .nested inner, _ => inner.Grouped 0

def Args.Grouped : Args → Prop
  | .nil => True
  | .star rest => rest.Grouped
  | .value arg rest => arg.Grouped 0 ∧ rest.Grouped

end

theorem Expr.leaves_zero : ∀ e : Expr, e.Leaves 0
  | .unary _ operand => ⟨Nat.zero_le _, operand.leaves_zero⟩
  | .binary _ _ right => ⟨Nat.zero_le _, right.leaves_zero⟩
  | .ident _ | .qualified _ | .literal _ | .isNull _ _ | .call _ _ | .nested _ => trivial

namespace Extension

def token : Extension → Token
  | isNull => Keyword.IS.token
  | binary op => op.token

theorem level_pos : ∀ extension : Extension, 0 < extension.level
  | isNull => by decide
  | binary op => by cases op <;> decide

theorem ofToken?_token : ∀ extension : Extension, ofToken? extension.token = some extension
  | isNull => rfl
  | binary op => by cases op <;> rfl

theorem ofToken?_capital (t : Token) : ofToken? t.capital = ofToken? t := by
  cases h : t.reserved? with
  | none => rw [Token.capital_of_reserved?_eq_none h]
  | some keyword =>
    obtain ⟨hkeyword, hreserved⟩ := Token.reserved?_eq_some_iff.mp h
    rw [Token.capital_of_keyword hkeyword hreserved]
    cases t with
    | word w =>
      simp [ofToken?, Keyword.token, show w.keyword = some keyword from hkeyword]
    | number _ | string _ | sign _ => cases hkeyword

/-- A token starts an extension exactly if it is written like the extension's first token. -/
theorem ofToken?_eq_some_iff {t : Token} {extension : Extension} :
    ofToken? t = some extension ↔ t.capital = extension.token := by
  constructor
  · intro h
    cases t with
    | word w =>
      simp only [ofToken?] at h
      split at h
      all_goals first
        | (cases h; done)
        | next hkeyword =>
          cases h
          exact Token.capital_of_keyword hkeyword rfl
    | sign s => cases s <;> cases h <;> rfl
    | number _ | string _ => cases h
  · intro h
    rw [← ofToken?_capital, h, ofToken?_token]

end Extension

/-- The level of the operator at the front of the tokens, zero if there is none. -/
def nextLevel : List Located → Nat
  | [] => 0
  | t :: _ => ((Extension.ofToken? t.token).map Extension.level).getD 0

theorem nextLevel_cons {t : Located} {extension : Extension} (rest : List Located)
    (h : t.token.capital = extension.token) : nextLevel (t :: rest) = extension.level := by
  rw [nextLevel, Extension.ofToken?_eq_some_iff.mpr h]
  rfl

/-- Without a level no operator comes next. -/
theorem nextLevel_eq_zero_iff : ∀ {ts : List Located},
    nextLevel ts = 0 ↔ ∀ t ∈ ts.head?, Extension.ofToken? t.token = none
  | [] => by simp [nextLevel]
  | t :: rest => by
    cases h : Extension.ofToken? t.token with
    | none => simp [nextLevel, h]
    | some extension =>
      have := extension.level_pos
      simp [nextLevel, h]
      omega

end SqlPipeline.Sql
