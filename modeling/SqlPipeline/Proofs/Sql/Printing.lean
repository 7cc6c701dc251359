import SqlPipeline.Proofs.Sql.Lexing
import SqlPipeline.Proofs.Sql.Precedence

/-!
# The tokens of printed texts

`Prints First Next text tokens` says what a printed text is made of: wherever it stands, it has
these tokens if the character after it is one of `Next`, and then the character at its own front is
one of `First`. Printed texts are put together by it like steps (`Prints.append`).

An expression is printed with just its own tokens, except that a function is shown by its look-up
key (`Expr.Grouped.prints`). This needs every part to be printed so that it can be read
(`Expr.Shown`): a minus in front of a minus would start a comment, a quoted name of a function loses
its quotes, and a key outside ASCII may be no name. Where functions are words of ASCII, only the
minus matters (`Expr.Plain`).
-/

namespace SqlPipeline

namespace Text

/-! ## Lower case in ASCII -/

def asciiChars : List Char :=
  (List.range 0x80).map Char.ofNat

theorem mem_asciiChars {c : Char} (h : c.toNat < 0x80) : c ∈ asciiChars :=
  List.mem_map.mpr ⟨c.toNat, List.mem_range.mpr h, Char.ofNat_toNat c⟩

theorem lowerAfter_ascii : ∀ {before cs : List Char}, (∀ c ∈ cs, c.toNat < 0x80) →
    lowerAfter before cs = cs.map Char.toLower
  | _, [], _ => rfl
  | before, c :: cs, h => by
    have hc := h c List.mem_cons_self
    have hsigma : (c == 'Σ') = false := by
      refine beq_eq_false_iff_ne.mpr ?_
      rintro rfl
      exact absurd hc (by decide)
    rw [lowerAfter, hsigma, lowerChar, if_pos hc,
      lowerAfter_ascii fun d hd => h d (List.mem_cons_of_mem c hd)]
    rfl

theorem toList_lower_ascii {s : String} (h : ∀ c ∈ s.toList, c.toNat < 0x80) :
    (lower s).toList = s.toList.map Char.toLower := by
  rw [lower, String.toList_ofList, lowerAfter_ascii h]

end Text

namespace Sql

theorem IsWord.lower {word : List Char} (h : IsWord word) (hascii : ∀ c ∈ word, c.toNat < 0x80) :
    IsWord (word.map Char.toLower) := by
  have hstart : ∀ c ∈ Text.asciiChars, Text.isWordStart c = true →
      Text.isWordStart c.toLower = true := by decide +kernel
  have hpart : ∀ c ∈ Text.asciiChars, Text.isWordPart c = true →
      Text.isWordPart c.toLower = true := by decide +kernel
  cases word with
  | nil => exact h
  | cons c cs =>
    refine ⟨hstart c (Text.mem_asciiChars (hascii c List.mem_cons_self)) h.1, fun d hd => ?_⟩
    obtain ⟨e, he, rfl⟩ := List.mem_map.mp hd
    exact hpart e (Text.mem_asciiChars (hascii e (List.mem_cons_of_mem c he))) (h.2 e he)

/-- Keywords are recognised in lower case as well. -/
theorem Keyword.ofWord?_lower {word : List Char} (hascii : ∀ c ∈ word, c.toNat < 0x80) :
    ofWord? (word.map Char.toLower) = ofWord? word := by
  have hupper : ∀ c ∈ Text.asciiChars, c.toLower.toUpper = c.toUpper := by decide +kernel
  have hword : (word.map Char.toLower).map Char.toUpper = word.map Char.toUpper := by
    rw [List.map_map]
    exact List.map_congr_left fun c hc => hupper c (Text.mem_asciiChars (hascii c hc))
  rw [ofWord?, hword, ofWord?]

def Ident.lowered (name : Ident) : Ident :=
  { name with value := Text.lower name.value }

theorem Ident.keyword?_lowered {name : Ident} (hascii : ∀ c ∈ name.value.toList, c.toNat < 0x80) :
    name.lowered.keyword? = name.keyword? := by
  simp only [keyword?, lowered, Text.toList_lower_ascii hascii, Keyword.ofWord?_lower hascii]

theorem Ident.IsName.lowered {name : Ident} (h : name.IsName) (hquoted : name.quoted = false)
    (hascii : ∀ c ∈ name.value.toList, c.toNat < 0x80) : name.lowered.IsName := by
  constructor
  · have hword : IsWord name.value.toList := h.1.resolve_left (by simp [hquoted])
    refine .inr ?_
    rw [Ident.lowered, Text.toList_lower_ascii hascii]
    exact hword.lower hascii
  · have hnone : name.keyword?.filter Keyword.isReserved = none := h.2
    rw [← Ident.keyword?_lowered hascii] at hnone
    exact hnone

theorem Ident.key_of_not_quoted {name : Ident} (h : name.quoted = false) :
    name.key = name.lowered.text := by
  simp [key, text, lowered, h]

/-- A text has these tokens wherever it stands before this rest. -/
def Writes (text : List Char) (tokens : List Token) (rest : List Char) : Prop :=
  ∀ offset, ∃ ts, Lexes offset text ts rest ∧ tokensOf ts = tokens

theorem Writes.append {xs ys rest : List Char} {tokens others : List Token}
    (h : Writes xs tokens (ys ++ rest)) (hothers : Writes ys others rest) :
    Writes (xs ++ ys) (tokens ++ others) rest := by
  intro offset
  obtain ⟨ts, hts, rfl⟩ := h offset
  obtain ⟨us, hus, rfl⟩ := hothers (offset + Text.byteLength xs)
  exact ⟨ts ++ us, hts.append hus, tokensOf_append⟩

/-! ## Characters between tokens -/

/-- The characters that may follow an expression. -/
def EndsExpr (c : Char) : Prop :=
  c ∈ [' ', ',', ')']

/-- The characters that may follow a word. -/
def EndsWord (c : Char) : Prop :=
  c ∈ [' ', ',', ')', '.', '(']

/-- The characters that tokens start with. -/
def StartsToken (c : Char) : Prop :=
  Text.isBlank c = false

/-- The characters that may follow a minus. -/
def StartsOperand (c : Char) : Prop :=
  Text.isBlank c = false ∧ c ≠ '-'

instance : DecidablePred EndsExpr := fun c => inferInstanceAs (Decidable (c ∈ _))

instance : DecidablePred EndsWord := fun c => inferInstanceAs (Decidable (c ∈ _))

instance : DecidablePred StartsToken := fun c => inferInstanceAs (Decidable (Text.isBlank c = false))

instance : DecidablePred StartsOperand := fun c => inferInstanceAs (Decidable (_ ∧ c ≠ '-'))

theorem EndsExpr.word {c : Char} (h : EndsExpr c) : EndsWord c :=
  List.mem_append_left ['.', '('] h

theorem EndsExpr.of_rightParen {c : Char} (h : c = ')') : EndsExpr c := by
  subst h
  decide

theorem StartsOperand.token {c : Char} (h : StartsOperand c) : StartsToken c := h.1

namespace Token

theorem isContinuedBy_word {w : Word} {c : Char} {text : List Char} (hc : EndsWord c) :
    (Token.word w).isContinuedBy c text = false := by
  have hplain : ∀ d ∈ [' ', ',', ')', '.', '('], Text.isWordPart d = false ∧ d ≠ '"' := by
    decide +kernel
  obtain ⟨hpart, hquote⟩ := hplain c hc
  cases hquoted : w.quoted <;> simp [isContinuedBy, hquoted, hpart, hquote]

theorem isContinuedBy_of_endsExpr {token : Token} {c : Char} (hc : EndsExpr c) :
    token.isContinuedBy c token.spelling = false := by
  cases token with
  | word w => exact isContinuedBy_word hc.word
  | number digits =>
    have hplain : ∀ d ∈ [' ', ',', ')'], d.isDigit = false ∧ d ≠ '.' := by decide
    simp [isContinuedBy, hplain c hc]
  | string value =>
    have hplain : ∀ d ∈ [' ', ',', ')'], d ≠ '\'' := by decide
    simpa [isContinuedBy] using hplain c hc
  | sign s =>
    have hplain : ∀ d ∈ [' ', ',', ')'], signGoesOn d s.text.toList = false := by
      cases s <;> decide
    exact hplain c hc

/-- A token starts with a character that is no blank, and only the minus starts with a minus. -/
theorem spelling_first {token : Token} (h : token.Lexed) (hminus : token ≠ .sign .minus) :
    ∀ c ∈ token.spelling.head?, StartsOperand c := by
  have hword {d : Char} (hd : Text.isWordPart d = true) : StartsOperand d := by
    refine ⟨Text.isBlank_of_isWordPart hd, ?_⟩
    rintro rfl
    revert hd
    decide +kernel
  intro c hc
  match token, h with
  | .word ⟨value, true, keyword⟩, _ =>
    rw [spelling, if_pos rfl, Segment.toList_enquote] at hc
    cases hc
    exact ⟨by decide, by decide⟩
  | .word ⟨value, false, keyword⟩, h =>
    exact hword (IsWord.isWordPart h.1 (List.mem_of_mem_head? hc))
  | .number digits, h =>
    rcases IsNumber.mem h (List.mem_of_mem_head? hc) with hdigit | rfl
    · refine ⟨Text.isBlank_of_isDigit hdigit, ?_⟩
      rintro rfl
      cases hdigit
    · exact ⟨by decide, by decide⟩
  | .string value, _ =>
    rw [spelling, Segment.toList_enquote] at hc
    cases hc
    exact ⟨by decide, by decide⟩
  | .sign s, _ =>
    cases s
    case minus => exact absurd rfl hminus
    all_goals
      cases hc
      exact ⟨by decide, by decide⟩

end Token

/-! ## Printed texts -/

/-- Before one of the next characters the text has these tokens and one of the first characters. -/
def Prints (First Next : Char → Prop) (text : String) (tokens : List Token) : Prop :=
  ∀ rest : List Char, (∀ c ∈ rest.head?, Next c) →
    Writes text.toList tokens rest ∧ ∀ c ∈ (text.toList ++ rest).head?, First c

namespace Prints

variable {First Middle Next : Char → Prop} {x y : String} {tokens others : List Token}

theorem append (h : Prints First Middle x tokens) (hy : Prints Middle Next y others) :
    Prints First Next (x ++ y) (tokens ++ others) := by
  intro rest hrest
  obtain ⟨hothers, hmiddle⟩ := hy rest hrest
  obtain ⟨htokens, hfirst⟩ := h (y.toList ++ rest) hmiddle
  rw [String.toList_append, List.append_assoc]
  exact ⟨htokens.append hothers, hfirst⟩

theorem mono {First' Next' : Char → Prop} (h : Prints First Next x tokens)
    (hfirst : ∀ c, First c → First' c) (hnext : ∀ c, Next' c → Next c) :
    Prints First' Next' x tokens := by
  intro rest hrest
  obtain ⟨htokens, hchars⟩ := h rest fun c hc => hnext c (hrest c hc)
  exact ⟨htokens, fun c hc => hfirst c (hchars c hc)⟩

/-- Where an operand may start, any token may start. -/
theorem starts (h : Prints StartsOperand Next x tokens) : Prints StartsToken Next x tokens :=
  h.mono (fun _ => StartsOperand.token) fun _ h => h

/-- What may follow an expression, may follow a word. -/
theorem ends (h : Prints First EndsWord x tokens) : Prints First EndsExpr x tokens :=
  h.mono (fun _ h => h) fun _ => EndsExpr.word

theorem empty : Prints First First "" [] :=
  fun _ hrest => ⟨fun _ => ⟨[], .done, rfl⟩, hrest⟩

/-- A blank parts tokens. -/
theorem blank : Prints EndsExpr StartsToken " " [] := by
  refine fun rest hrest => ⟨fun offset => ⟨[], ?_, rfl⟩, fun c hc => ?_⟩
  · have h : Segment.Before (.trivia [' ']) ([] ++ rest) :=
      .blanks (by decide) (by decide) hrest
    exact .trivia h .done
  · cases hc
    exact List.mem_cons_self

theorem token {token : Token} {text : String} (htext : text.toList = token.spelling)
    (h : token.Lexed) (hfirst : ∀ c ∈ token.spelling.head?, First c)
    (hnext : ∀ c, Next c → token.isContinuedBy c token.spelling = false) :
    Prints First Next text [token] := by
  intro rest hrest
  rw [htext]
  refine ⟨fun offset => ⟨[⟨token, offset⟩], ?_, rfl⟩, fun c hc => hfirst c ?_⟩
  · have hbefore : Segment.Before (.lexeme token.spelling token) ([] ++ rest) :=
      .token h token.spelling_mem_spellings fun c hc => hnext c (hrest c hc)
    have hlexes : Lexes offset (token.spelling ++ []) [⟨token, offset⟩] rest :=
      .token hbefore .done
    rwa [List.append_nil] at hlexes
  · rwa [List.head?_append_of_ne_nil _ (Segment.spelling_ne_nil h)] at hc

/-- A token before something that may follow an expression. -/
theorem token_endsExpr {token : Token} {text : String} (htext : text.toList = token.spelling)
    (h : token.Lexed) (hminus : token ≠ .sign .minus) :
    Prints StartsOperand EndsExpr text [token] :=
  .token htext h (Token.spelling_first h hminus) fun _ => Token.isContinuedBy_of_endsExpr

/-- A sign that nothing makes more of. -/
theorem sign {s : Sign} (hnext : ∀ c, Token.signGoesOn c s.text.toList = false)
    (hfirst : ∀ c ∈ s.text.toList.head?, First c) : Prints First Next s.text [.sign s] :=
  .token rfl trivial hfirst fun c _ => hnext c

/-- A comma and the blank after it. -/
theorem comma : Prints EndsExpr StartsToken ", " [.sign .comma] := by
  have hcomma : Prints EndsExpr EndsExpr Sign.comma.text [.sign .comma] :=
    .sign (fun _ => rfl) (by decide)
  exact hcomma.append .blank

theorem name {name : Ident} (h : name.IsName) : Prints StartsOperand EndsWord name.text [name.token] := by
  have hlexed : name.token.Lexed := Ident.lexed_token_iff.mpr h.1
  refine .token ?_ hlexed (Token.spelling_first hlexed nofun) fun c hc => Token.isContinuedBy_word hc
  obtain ⟨value, quoted⟩ := name
  cases quoted <;> rfl

theorem keyword (keyword : Keyword) :
    Prints StartsOperand EndsWord keyword.name [keyword.token] :=
  .token rfl keyword.lexed_token (Token.spelling_first keyword.lexed_token nofun)
    fun _ hc => Token.isContinuedBy_word hc

/-- A keyword and the blank that sets it off. -/
theorem word (keyword : Keyword) :
    Prints StartsOperand StartsToken (keyword.name ++ " ") [keyword.token] :=
  (Prints.keyword keyword).ends.append .blank

/-- A keyword between two blanks. -/
theorem between (keyword : Keyword) :
    Prints EndsExpr StartsToken (" " ++ keyword.name ++ " ") [keyword.token] :=
  (Prints.blank.append (Prints.keyword keyword).ends.starts).append .blank

theorem dotted : ∀ {parts : List Ident}, parts ≠ [] → (∀ name ∈ parts, name.IsName) →
    Prints StartsOperand EndsWord (dotted parts) (dottedTokens parts)
  | [], hne, _ => absurd rfl hne
  | [only], _, hnames => .name (hnames only (by simp))
  | first :: next :: others, _, hnames => by
    have hfirst := Prints.name (hnames first List.mem_cons_self)
    have hperiod : Prints EndsWord StartsOperand Sign.period.text [.sign .period] :=
      .sign (fun _ => rfl) (by decide)
    have hothers := Prints.dotted (List.cons_ne_nil next others)
      fun name hname => hnames name (List.mem_cons_of_mem first hname)
    exact (hfirst.append hperiod).append hothers

end Prints

/-! ## Expressions -/

/-- Whether nothing in an expression is lost by the way its outermost form is printed: no minus
stands in front of a minus, and a function is shown by a word. -/
def Expr.Plain : Expr → Prop
  | .unary .minus (.unary .minus _) => False
  | .call function _ => function.quoted = false ∧ ∀ c ∈ function.value.toList, c.toNat < 0x80
  | _ => True

instance : DecidablePred Expr.Plain
  | .unary .minus (.unary .minus _) => .isFalse id
  | .call function _ =>
    inferInstanceAs
      (Decidable (function.quoted = false ∧ ∀ c ∈ function.value.toList, c.toNat < 0x80))
  | .unary .minus (.unary .plus _) | .unary .minus (.unary .not _) | .unary .minus (.ident _)
  | .unary .minus (.qualified _) | .unary .minus (.literal _) | .unary .minus (.binary _ _ _)
  | .unary .minus (.isNull _ _) | .unary .minus (.call _ _) | .unary .minus (.nested _)
  | .unary .plus _ | .unary .not _ | .ident _ | .qualified _ | .literal _ | .binary _ _ _
  | .isNull _ _ | .nested _ => .isTrue trivial

/-- An expression without what printing cannot show. -/
def Expr.IsPlain (e : Expr) : Prop :=
  ∀ part ∈ e.parts, part.Plain

instance (e : Expr) : Decidable e.IsPlain :=
  inferInstanceAs (Decidable (∀ part ∈ e.parts, part.Plain))

/-- Whether the outermost form of an expression is printed so that it can be read again: no minus
stands in front of a minus, and a function has no quotes and a name for its look-up key. -/
def Expr.Shown : Expr → Prop
  | .unary .minus (.unary .minus _) => False
  | .call function _ => function.quoted = false ∧ function.lowered.IsName
  | _ => True

/-- The functions of plain expressions are names in lower case as well. -/
theorem Expr.Grouped.shown_of_plain {e : Expr} {level : Nat} (h : e.Grouped level)
    (hplain : e.Plain) : e.Shown := by
  cases e with
  | unary op operand =>
    cases op with
    | plus | not => trivial
    | minus => cases operand with
      | unary op _ => cases op <;> exact hplain
      | _ => trivial
  | call function args => exact ⟨hplain.1, h.1.lowered hplain.1 hplain.2⟩
  | _ => trivial

theorem Expr.Grouped.shown {e : Expr} {level : Nat} (h : e.Grouped level) (hplain : e.IsPlain) :
    ∀ part ∈ e.parts, part.Shown := by
  intro part hpart
  obtain ⟨_, hgrouped⟩ := h.of_mem_parts hpart
  exact hgrouped.shown_of_plain (hplain part hpart)

mutual

def Expr.lowered : Expr → Expr
  | .unary op operand => .unary op operand.lowered
  | .binary left op right => .binary left.lowered op right.lowered
  | .isNull operand negated => .isNull operand.lowered negated
  | .call function args => .call function.lowered args.lowered
  | .nested inner => .nested inner.lowered
  | e => e

def Args.lowered : Args → Args
  | .nil => .nil
  | .star rest => .star rest.lowered
  | .value arg rest => .value arg.lowered rest.lowered

end

theorem Expr.leaves_lowered : ∀ {e : Expr} {level : Nat}, e.lowered.Leaves level ↔ e.Leaves level
  | .unary _ operand, _ => and_congr_right fun _ => Expr.leaves_lowered (e := operand)
  | .binary _ _ right, _ => and_congr_right fun _ => Expr.leaves_lowered (e := right)
  | .ident _, _ | .qualified _, _ | .literal _, _ | .isNull _ _, _ | .call _ _, _ | .nested _, _ =>
    Iff.rfl

/-- The characters that an expression can start with. -/
def Expr.First : Expr → Char → Prop
  | .unary .minus _ => StartsToken
  | .binary left _ _ => left.First
  | .isNull operand _ => operand.First
  | _ => StartsOperand

theorem Expr.First.startsToken {c : Char} : ∀ {e : Expr}, e.First c → StartsToken c
  | .unary .minus _, h => h
  | .binary left _ _, h => Expr.First.startsToken (e := left) h
  | .isNull operand _, h => Expr.First.startsToken (e := operand) h
  | .unary .plus _, h | .unary .not _, h | .ident _, h | .qualified _, h | .literal _, h
  | .call _ _, h | .nested _, h => h.1

/-- The operand of a minus starts with no minus, unless it is a minus itself. -/
theorem Expr.first_of_minus {operand : Expr} (h : operand.Grouped UnaryOp.minus.level)
    (hshown : (Expr.unary .minus operand).Shown) : operand.First = StartsOperand := by
  cases operand with
  | unary op inner =>
    cases op with
    | minus => exact hshown.elim
    | plus | not => rfl
  | binary left op right =>
    have hlevel := h.1
    cases op <;> exact absurd hlevel (by decide)
  | isNull operand negated => exact absurd h.1 (by decide)
  | ident _ | qualified _ | literal _ | call _ _ | nested _ => rfl

theorem Literal.prints {value : Literal} (h : value.token.Lexed) :
    Prints StartsOperand EndsExpr value.text [value.token] := by
  refine .token_endsExpr ?_ h ?_
  · cases value with
    | boolean value => cases value <;> rfl
    | number _ | string _ | null => rfl
  · cases value with
    | boolean value => cases value <;> exact nofun
    | number _ | string _ | null => exact nofun

/-- An operator between two operands stands between blanks. -/
theorem BinaryOp.prints (op : BinaryOp) :
    Prints EndsExpr StartsToken (" " ++ op.text ++ " ") [op.token] := by
  have hop : Prints StartsToken EndsExpr op.text [op.token] := by
    refine .token ?_ ?_ ?_ fun _ => Token.isContinuedBy_of_endsExpr
    · cases op <;> rfl
    · cases op
      case and | or => exact Keyword.lexed_token _
      all_goals trivial
    · cases op <;> decide
  exact (Prints.blank.append hop).append .blank

mutual

/-- **An expression is printed with its own tokens.** -/
theorem Expr.Grouped.prints : ∀ {e : Expr} {level : Nat}, e.Grouped level →
    (∀ part ∈ e.parts, part.Shown) → Prints e.First EndsExpr e.text e.lowered.tokens
  | .ident name, _, h, _ => (Prints.name h).ends
  | .qualified parts, _, h, _ => (Prints.dotted (by rintro rfl; cases h.1) h.2).ends
  | .literal value, _, h, _ => Literal.prints h
  | .unary op operand, _, h, hshown => by
    have hoperand := Expr.Grouped.prints (e := operand) h
      fun part hpart => hshown part (List.mem_cons_of_mem _ hpart)
    cases op with
    | plus =>
      have hsign : Prints StartsOperand StartsToken Sign.plus.text [.sign .plus] :=
        .sign (fun _ => rfl) (by decide)
      exact hsign.append (hoperand.mono (fun _ => Expr.First.startsToken) fun _ h => h)
    | minus =>
      have hminus : Prints StartsToken StartsOperand Sign.minus.text [.sign .minus] := by
        refine .token rfl trivial (by decide) fun c hc => ?_
        change (c == '-') = false
        simpa using hc.2
      rw [Expr.first_of_minus h (hshown _ List.mem_cons_self)] at hoperand
      exact hminus.append hoperand
    | not =>
      exact (Prints.word .NOT).append (hoperand.mono (fun _ => Expr.First.startsToken) fun _ h => h)
  | .binary left op right, _, h, hshown => by
    have hleft := Expr.Grouped.prints (e := left) h.2.1
      fun part hpart => hshown part (List.mem_cons_of_mem _ (List.mem_append_left _ hpart))
    have hright := Expr.Grouped.prints (e := right) h.2.2.2
      fun part hpart => hshown part (List.mem_cons_of_mem _ (List.mem_append_right _ hpart))
    have hboth := (hleft.append op.prints).append
      (hright.mono (fun _ => Expr.First.startsToken) fun _ h => h)
    simpa [Expr.First, Expr.text, Expr.lowered, Expr.tokens, String.append_assoc] using hboth
  | .isNull operand negated, _, h, hshown => by
    have hoperand := Expr.Grouped.prints (e := operand) h.2.1
      fun part hpart => hshown part (List.mem_cons_of_mem _ hpart)
    have hnull : Prints EndsExpr EndsExpr (if negated then " IS NOT NULL" else " IS NULL")
        (nullTokens negated) := by
      cases negated with
      | false =>
        exact (Prints.blank.append (Prints.word .IS).starts).append (Prints.keyword .NULL).ends.starts
      | true =>
        exact ((Prints.blank.append (Prints.word .IS).starts).append (Prints.word .NOT).starts).append
          (Prints.keyword .NULL).ends.starts
    cases negated with
    | false | true => exact hoperand.append hnull
  | .call function args, _, h, hshown => by
    obtain ⟨hquoted, hname⟩ := hshown _ List.mem_cons_self
    have hargs := Args.Grouped.prints h.2
      fun part hpart => hshown part (List.mem_cons_of_mem _ hpart)
    have hfunction := Prints.name hname
    rw [← Ident.key_of_not_quoted hquoted] at hfunction
    have hleft : Prints EndsWord StartsToken Sign.leftParen.text [.sign .leftParen] :=
      .sign (fun _ => rfl) (by decide)
    have hright : Prints (· = ')') EndsExpr Sign.rightParen.text [.sign .rightParen] :=
      .sign (fun _ => rfl) (by decide)
    have hall := ((hfunction.append hleft).append hargs).append hright
    simpa [Expr.First, Expr.text, Expr.lowered, Expr.tokens, Sign.text] using hall
  | .nested inner, _, h, hshown => by
    have hinner := Expr.Grouped.prints (e := inner) h
      fun part hpart => hshown part (List.mem_cons_of_mem _ hpart)
    have hleft : Prints StartsOperand StartsToken Sign.leftParen.text [.sign .leftParen] :=
      .sign (fun _ => rfl) (by decide)
    have hright : Prints EndsExpr EndsExpr Sign.rightParen.text [.sign .rightParen] :=
      .sign (fun _ => rfl) (by decide)
    exact (hleft.append (hinner.mono (fun _ => Expr.First.startsToken) fun _ h => h)).append hright

theorem Args.Grouped.prints : ∀ {args : Args}, args.Grouped → (∀ part ∈ args.parts, part.Shown) →
    Prints StartsToken (· = ')') args.text args.lowered.tokens
  | .nil, _, _ => Prints.empty.mono (by rintro c rfl; decide) fun _ h => h
  | .star rest, h, hshown => by
    have hgrouped : rest.Grouped := h
    have hrest := Args.Grouped.prints hgrouped hshown
    have hstar : Prints StartsToken EndsExpr Sign.star.text [.sign .star] :=
      .sign (fun _ => rfl) (by decide)
    cases rest with
    | nil => exact hstar.mono (fun _ h => h) fun _ => EndsExpr.of_rightParen
    | star _ | value _ _ => exact (hstar.append .comma).append hrest
  | .value arg rest, h, hshown => by
    have harg := (Expr.Grouped.prints h.1
      fun part hpart => hshown part (List.mem_append_left _ hpart)).mono
        (fun _ => Expr.First.startsToken) fun _ h => h
    have hrest := Args.Grouped.prints h.2
      fun part hpart => hshown part (List.mem_append_right _ hpart)
    cases rest with
    | nil => exact harg.mono (fun _ h => h) fun _ => EndsExpr.of_rightParen
    | star _ | value _ _ =>
      have hall := (harg.append .comma).append hrest
      simpa [Args.text, Args.lowered, Args.tokens] using hall

end

mutual

/-- Lower case leaves the grouping of an expression as it is. -/
theorem Expr.Grouped.lowered : ∀ {e : Expr} {level : Nat}, e.Grouped level →
    (∀ part ∈ e.parts, part.Shown) → e.lowered.Grouped level
  | .ident _, _, h, _ => h
  | .qualified _, _, h, _ => h
  | .literal _, _, h, _ => h
  | .unary op operand, _, h, hshown =>
    Expr.Grouped.lowered (e := operand) h fun part hpart => hshown part (List.mem_cons_of_mem _ hpart)
  | .binary left op right, _, h, hshown => by
    have hleft := Expr.Grouped.lowered (e := left) h.2.1
      fun part hpart => hshown part (List.mem_cons_of_mem _ (List.mem_append_left _ hpart))
    have hright := Expr.Grouped.lowered (e := right) h.2.2.2
      fun part hpart => hshown part (List.mem_cons_of_mem _ (List.mem_append_right _ hpart))
    exact ⟨h.1, hleft, Expr.leaves_lowered.mpr h.2.2.1, hright⟩
  | .isNull operand negated, _, h, hshown =>
    ⟨h.1, Expr.Grouped.lowered (e := operand) h.2.1
      fun part hpart => hshown part (List.mem_cons_of_mem _ hpart),
      Expr.leaves_lowered.mpr h.2.2⟩
  | .call function args, _, h, hshown => by
    obtain ⟨hquoted, hname⟩ := hshown _ List.mem_cons_self
    exact ⟨hname, Args.Grouped.lowered h.2
      fun part hpart => hshown part (List.mem_cons_of_mem _ hpart)⟩
  | .nested inner, _, h, hshown =>
    Expr.Grouped.lowered (e := inner) h fun part hpart => hshown part (List.mem_cons_of_mem _ hpart)

theorem Args.Grouped.lowered : ∀ {args : Args}, args.Grouped → (∀ part ∈ args.parts, part.Shown) →
    args.lowered.Grouped
  | .nil, _, _ => trivial
  | .star rest, h, hshown => by
    have hgrouped : rest.Grouped := h
    have hrest := Args.Grouped.lowered hgrouped hshown
    exact hrest
  | .value _ _, h, hshown =>
    ⟨Expr.Grouped.lowered h.1 fun part hpart => hshown part (List.mem_append_left _ hpart),
      Args.Grouped.lowered h.2 fun part hpart => hshown part (List.mem_append_right _ hpart)⟩

end

theorem capital_dottedTokens {parts : List Ident} (h : ∀ name ∈ parts, name.IsName) :
    (dottedTokens parts).map Token.capital = dottedTokens parts := by
  cases parts with
  | nil => rfl
  | cons name others =>
    have htail : ∀ token ∈ tailTokens others, token.capital = token := fun token htoken =>
      Token.capital_of_reserved?_eq_none
        (reserved?_of_mem_tailTokens (fun name hname => h name (List.mem_cons_of_mem _ hname)) _ htoken)
    rw [dottedTokens, List.map_cons, (h name List.mem_cons_self).capital,
      List.map_congr_left htail, List.map_id']

mutual

/-- The tokens of an expression have their reserved keywords in capitals. -/
theorem Expr.Grouped.capital_tokens : ∀ {e : Expr} {level : Nat}, e.Grouped level →
    e.tokens.map Token.capital = e.tokens
  | .ident _, _, h => congrArg (fun token => [token]) (Ident.IsName.capital h)
  | .qualified _, _, h => capital_dottedTokens h.2
  | .literal value, _, _ => by
    cases value with
    | boolean value => cases value <;> rfl
    | number _ | string _ | null => rfl
  | .unary op operand, _, h => by
    rw [Expr.tokens, List.map_cons, Expr.Grouped.capital_tokens (e := operand) h]
    cases op <;> rfl
  | .binary left op right, _, h => by
    rw [Expr.tokens, List.map_append, List.map_cons, Expr.Grouped.capital_tokens h.2.1,
      Expr.Grouped.capital_tokens h.2.2.2]
    cases op <;> rfl
  | .isNull operand negated, _, h => by
    rw [Expr.tokens, List.map_append, Expr.Grouped.capital_tokens h.2.1]
    cases negated <;> rfl
  | .call function args, _, h => by
    simp only [Expr.tokens, List.map_cons, List.map_append, h.1.capital,
      Args.Grouped.capital_tokens h.2]
    rfl
  | .nested inner, _, h => by
    simp only [Expr.tokens, List.map_cons, List.map_append,
      Expr.Grouped.capital_tokens (e := inner) h]
    rfl

theorem Args.Grouped.capital_tokens : ∀ {args : Args}, args.Grouped →
    args.tokens.map Token.capital = args.tokens
  | .nil, _ => rfl
  | .star rest, h => by
    have hgrouped : rest.Grouped := h
    have hrest := Args.Grouped.capital_tokens hgrouped
    cases rest with
    | nil => rfl
    | star _ | value _ _ =>
      rw [Args.tokens, List.map_cons, List.map_cons, hrest]
      · rfl
      · exact nofun
  | .value arg rest, h => by
    have harg := Expr.Grouped.capital_tokens h.1
    have hrest := Args.Grouped.capital_tokens h.2
    cases rest with
    | nil => exact harg
    | star _ | value _ _ =>
      rw [Args.tokens, List.map_append, List.map_cons, harg, hrest]
      · rfl
      · exact nofun

end

/-- A text that may stand where an expression stands, made of tokens that spell something. -/
def PrintsAs (text : String) (Spelled : List Token → Prop) : Prop :=
  ∃ tokens, Prints StartsToken EndsExpr text tokens ∧ Spelled tokens

/-- **An expression is printed as a spelling of itself, with its functions in lower case.** -/
theorem Expr.Spelled.prints {e : Expr} {tokens : List Token} (h : e.Spelled tokens)
    (hplain : e.IsPlain) : PrintsAs e.text e.lowered.Spelled := by
  have hshown := h.2.shown hplain
  have hlowered := h.2.lowered hshown
  refine ⟨e.lowered.tokens, ?_, hlowered.capital_tokens, hlowered⟩
  exact (h.2.prints hshown).mono (fun _ => Expr.First.startsToken) fun _ h => h

end Sql
end SqlPipeline
