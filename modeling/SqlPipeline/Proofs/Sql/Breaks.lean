import SqlPipeline.Proofs.Sql.LetterCase
import SqlPipeline.Proofs.Sql.StatementGrammar

/-!
# Text after a printed select

A comment starts with minus signs, and a statement ends at a semicolon: these characters are the
breaks of a text. A text has all breaks of its tokens (`Lexes.breaks_le`), and a printed select has
no others (`Select.Spelled.keeps`). So if a select is read back from its text, there is nothing but
blanks between the tokens of the text. Such a text may stand before any other with a blank between
them (`Lexes.append_blank`), whereas a comment at its end would swallow what comes after it.
-/

namespace SqlPipeline.Sql

open Segment (Before)

/-! ## Breaks -/

def isBreak (c : Char) : Bool :=
  c == '-' || c == ';'

/-- The number of minus signs and semicolons in a text. -/
def breaks (cs : List Char) : Nat :=
  cs.countP isBreak

@[simp] theorem breaks_append (xs ys : List Char) : breaks (xs ++ ys) = breaks xs + breaks ys :=
  List.countP_append

theorem breaks_eq_zero {cs : List Char} (h : ∀ c ∈ cs, isBreak c = false) : breaks cs = 0 :=
  List.countP_eq_zero.mpr fun c hc => by simp [h c hc]

theorem IsWord.breaks_eq_zero {word : List Char} (h : IsWord word) : breaks word = 0 := by
  have hbreaks : ∀ c, isBreak c = true → Text.isWordPart c = false := by
    intro c hc
    have hall : ∀ c ∈ ['-', ';'], Text.isWordPart c = false := by decide +kernel
    exact hall c (by simpa [isBreak] using hc)
  refine Sql.breaks_eq_zero fun c hc => ?_
  cases hbreak : isBreak c with
  | false => rfl
  | true => exact absurd (h.isWordPart hc) (by simp [hbreaks c hbreak])

/-- Lower case brings no breaks. -/
theorem breaks_lower {s : String} (h : breaks s.toList = 0) : breaks (Text.lower s).toList = 0 := by
  have hascii : ∀ c, isBreak c = true → 0 < c.toNat ∧ c.toNat < 65 := by
    intro c hc
    have hall : ∀ c ∈ ['-', ';'], 0 < c.toNat ∧ c.toNat < 65 := by decide
    exact hall c (by simpa [isBreak] using hc)
  refine List.countP_eq_zero.mpr fun c hc hbreak => ?_
  obtain ⟨hpos, hlt⟩ := hascii c hbreak
  exact List.countP_eq_zero.mp h c (Text.mem_of_mem_lower hc hpos hlt) hbreak

/-- Quotes have no breaks. -/
theorem breaks_enquote (value : String) :
    breaks (Text.enquote '"' value).toList = breaks value.toList := by
  have hquote : breaks ['"'] = 0 := by decide
  have hdoubled : ∀ cs : List Char, breaks (Segment.doubled '"' cs) = breaks cs := by
    intro cs
    induction cs with
    | nil => rfl
    | cons c cs ih =>
      have hcons (c : Char) (cs : List Char) : breaks (c :: cs) = breaks [c] + breaks cs :=
        breaks_append [c] cs
      by_cases hc : c = '"'
      · subst hc
        rw [Segment.doubled_cons_self, hcons, hcons _ (Segment.doubled _ _), ih, hquote,
          Nat.zero_add, hcons, hquote]
      · rw [Segment.doubled_cons_of_ne hc, hcons, ih, ← hcons]
  rw [Segment.toList_enquote, ← List.singleton_append, breaks_append, breaks_append, hdoubled,
    hquote, Nat.zero_add, Nat.add_zero]

def Token.breaks (tokens : List Token) : Nat :=
  Sql.breaks (tokens.flatMap spelling)

namespace Token

@[simp] theorem breaks_nil : breaks [] = 0 := rfl

@[simp] theorem breaks_cons (token : Token) (tokens : List Token) :
    breaks (token :: tokens) = Sql.breaks token.spelling + breaks tokens := by
  rw [breaks, List.flatMap_cons, breaks_append, breaks]

@[simp] theorem breaks_append (tokens others : List Token) :
    breaks (tokens ++ others) = breaks tokens + breaks others := by
  rw [breaks, List.flatMap_append, Sql.breaks_append, breaks, breaks]

theorem breaks_capitals_le (tokens : List Token) :
    breaks (tokens.map capital) ≤ breaks tokens := by
  induction tokens with
  | nil => exact Nat.le_refl _
  | cons token tokens ih =>
    have hcapital : Sql.breaks token.capital.spelling ≤ Sql.breaks token.spelling := by
      cases hreserved : token.reserved? with
      | none => rw [capital_of_reserved?_eq_none hreserved]
      | some keyword =>
        obtain ⟨hkeyword, hreserved⟩ := reserved?_eq_some_iff.mp hreserved
        have hword : Sql.breaks keyword.token.spelling = 0 :=
          IsWord.breaks_eq_zero keyword.lexed_token.1
        rw [capital_of_keyword hkeyword hreserved, hword]
        exact Nat.zero_le _
    rw [List.map_cons, breaks_cons, breaks_cons]
    exact Nat.add_le_add hcapital ih

theorem breaks_of_mem_spellings {token : Token} {text : List Char} (h : text ∈ token.spellings) :
    Sql.breaks text = Sql.breaks token.spelling := by
  cases token with
  | sign s =>
    have hall : ∀ text ∈ (Token.sign s).spellings,
        Sql.breaks text = Sql.breaks (Token.sign s).spelling := by
      cases s <;> decide
    exact hall text h
  | word _ | number _ | string _ => rw [List.mem_singleton.mp h]

end Token

/-! ## What is printed -/

/-- A text has only breaks that the tokens it is printed for have as well. -/
def Keeps (text : String) (tokens : List Token) : Prop :=
  breaks text.toList ≤ Token.breaks tokens

namespace Keeps

variable {x y : String} {tokens others : List Token}

theorem append (h : Keeps x tokens) (hy : Keeps y others) : Keeps (x ++ y) (tokens ++ others) := by
  rw [Keeps, String.toList_append, breaks_append, Token.breaks_append]
  exact Nat.add_le_add h hy

/-- A text without breaks may be printed for anything. -/
theorem unbroken (h : breaks x.toList = 0) : Keeps x tokens := by
  rw [Keeps, h]
  exact Nat.zero_le _

theorem token {token : Token} (h : x.toList = token.spelling) : Keeps x [token] := by
  rw [Keeps, h, Token.breaks_cons, Token.breaks_nil, Nat.add_zero]

theorem name (name : Ident) : Keeps name.text [name.token] := by
  obtain ⟨value, quoted⟩ := name
  cases quoted <;> exact token rfl

/-- Of a function only quotes and capitals are not shown. -/
theorem key {function : Ident} (h : function.IsName) : Keeps function.key [function.token] := by
  obtain ⟨value, quoted⟩ := function
  cases quoted with
  | false =>
    have hword : IsWord value.toList := h.1.resolve_left nofun
    exact unbroken (breaks_lower hword.breaks_eq_zero)
  | true =>
    have hvalue : Keeps (Text.enquote '"' value) [Ident.token ⟨value, true⟩] := token rfl
    rwa [Keeps, breaks_enquote] at hvalue

theorem dotted : ∀ parts : List Ident, Keeps (dotted parts) (dottedTokens parts)
  | [] => unbroken rfl
  | [only] => name only
  | first :: next :: others => by
    have hperiod : Keeps "." [.sign .period] := unbroken (by decide)
    exact ((name first).append hperiod).append (dotted (next :: others))

end Keeps

mutual

theorem Expr.Grouped.keeps : ∀ {e : Expr} {level : Nat}, e.Grouped level → Keeps e.text e.tokens
  | .ident name, _, _ => .name name
  | .qualified parts, _, _ => .dotted parts
  | .literal value, _, _ => by
    refine .token ?_
    cases value with
    | boolean value => cases value <;> rfl
    | number _ | string _ | null => rfl
  | .unary op operand, _, h => by
    have hop : Keeps op.text [op.token] := by cases op <;> exact Nat.le_of_eq (by decide)
    exact hop.append (Expr.Grouped.keeps (e := operand) h)
  | .binary left op right, _, ⟨_, hleft, _, hright⟩ => by
    have hop : Keeps (" " ++ op.text ++ " ") [op.token] := by
      cases op <;> exact Nat.le_of_eq (by decide)
    have hall := ((Expr.Grouped.keeps hleft).append hop).append (Expr.Grouped.keeps hright)
    simpa [Expr.text, Expr.tokens, String.append_assoc] using hall
  | .isNull operand negated, _, ⟨_, hoperand, _⟩ => by
    have hoperand := Expr.Grouped.keeps hoperand
    cases negated with
    | false | true => exact hoperand.append (.unbroken (by decide))
  | .call function args, _, ⟨hfunction, hargs⟩ => by
    have hleft : Keeps "(" [.sign .leftParen] := .unbroken (by decide)
    have hright : Keeps ")" [.sign .rightParen] := .unbroken (by decide)
    exact (((Keeps.key hfunction).append hleft).append (Args.Grouped.keeps hargs)).append hright
  | .nested inner, _, h => by
    have hleft : Keeps "(" [.sign .leftParen] := .unbroken (by decide)
    have hright : Keeps ")" [.sign .rightParen] := .unbroken (by decide)
    exact (hleft.append (Expr.Grouped.keeps (e := inner) h)).append hright

theorem Args.Grouped.keeps : ∀ {args : Args}, args.Grouped → Keeps args.text args.tokens
  | .nil, _ => .unbroken rfl
  | .star rest, h => by
    have hrest : Keeps rest.text rest.tokens := Args.Grouped.keeps h
    have hstar : Keeps "*" [.sign .star] := .unbroken (by decide)
    have hcomma : Keeps ", " [.sign .comma] := .unbroken (by decide)
    cases rest with
    | nil => exact hstar
    | star _ | value _ _ => exact (hstar.append hcomma).append hrest
  | .value arg rest, ⟨harg, hrest⟩ => by
    have harg := Expr.Grouped.keeps harg
    have hrest := Args.Grouped.keeps hrest
    have hcomma : Keeps ", " [.sign .comma] := .unbroken (by decide)
    cases rest with
    | nil => exact harg
    | star _ | value _ _ =>
      have hall := (harg.append hcomma).append hrest
      simpa [Args.text, Args.tokens] using hall

end

/-! ## Clauses -/

theorem Expr.Spelled.keeps {e : Expr} {tokens : List Token} (h : e.Spelled tokens) :
    Keeps e.text tokens := by
  obtain ⟨htokens, hgrouped⟩ := h
  have hcapitals := Token.breaks_capitals_le tokens
  rw [htokens] at hcapitals
  exact Nat.le_trans hgrouped.keeps hcapitals

theorem ObjectName.Spelled.keeps {name : ObjectName} {tokens : List Token}
    (h : name.Spelled tokens) : Keeps name.text tokens := by
  obtain ⟨rfl, -, -⟩ := h
  exact .dotted name.parts

section Lists

variable {α : Type} {Spelled : α → List Token → Prop} {text : α → String} {tokens : List Token}

theorem Listed.keeps {items : List α} (h : Listed Spelled items tokens)
    (hitem : ∀ {item : α} {tokens : List Token}, Spelled item tokens → Keeps (text item) tokens) :
    Keeps (Text.join ", " (items.map text)) tokens := by
  induction h with
  | one h => exact hitem h
  | cons h hothers ih =>
    have hcomma : Keeps ", " [.sign .comma] := .unbroken (by decide)
    have hall := ((hitem h).append hcomma).append ih
    rw [List.append_assoc] at hall
    cases hothers <;> exact hall

theorem Clause.keeps {keyword : Keyword} {found : Option α} (h : Clause keyword Spelled found tokens)
    (hkeyword : breaks (" " ++ keyword.name ++ " ").toList = 0)
    (hitem : ∀ {item : α} {tokens : List Token}, Spelled item tokens → Keeps (text item) tokens) :
    Keeps (clauseText keyword.name (found.map text)) tokens := by
  cases h with
  | none => exact .unbroken rfl
  | @some t _ _ _ h =>
    have hwords : Keeps (" " ++ keyword.name ++ " ") [t] := .unbroken hkeyword
    exact hwords.append (hitem h)

end Lists

theorem Keeps.aliased {text : String} {tokens others : List Token} {name : Ident}
    (h : Keeps text tokens) (hname : Aliased (some name) others) :
    Keeps (text ++ " AS " ++ name.text) (tokens ++ others) := by
  have hwords (tokens : List Token) : Keeps " AS " tokens := .unbroken (by decide)
  rw [String.append_assoc]
  cases hname with
  | as _ _ => exact h.append ((hwords [_]).append (.name name))
  | plain _ _ => exact h.append ((hwords []).append (.name name))

theorem TableRef.Spelled.keeps {table : TableRef} {tokens : List Token} (h : table.Spelled tokens) :
    Keeps table.text tokens := by
  cases h with | @mk tokens others hname halias =>
  obtain ⟨object, name⟩ := table
  cases name with
  | none =>
    cases halias
    rw [List.append_nil]
    exact hname.keeps
  | some name => exact hname.keeps.aliased halias

theorem SelectItem.Spelled.keeps {item : SelectItem} {tokens : List Token}
    (h : item.Spelled tokens) : Keeps item.text tokens := by
  cases h with
  | @named value name tokens others h hname =>
    cases name with
    | none =>
      cases hname
      rw [List.append_nil]
      exact h.keeps
    | some name => exact h.keeps.aliased hname
  | allOf h =>
    have hstar : Keeps ".*" [.sign .period, .sign .star] := .unbroken (by decide)
    exact h.keeps.append hstar
  | all => exact .unbroken (by decide)

theorem JoinKind.keeps (kind : JoinKind) (words : List Token) :
    Keeps (match kind with | .inner => "JOIN " | .left => "LEFT JOIN ") words := by
  cases kind with
  | inner | left => exact .unbroken (by decide)

theorem Join.Spelled.keeps {join : Join} {tokens : List Token} (h : join.Spelled tokens) :
    Keeps join.text tokens := by
  cases h with | @mk words table condition t _ htable _ hon =>
  have hword : Keeps " ON " [t] := .unbroken (by decide)
  have hall := (((join.kind.keeps words).append htable.keeps).append hword).append hon.keeps
  simp only [List.append_assoc, List.cons_append, List.nil_append] at hall
  exact hall

theorem Joins.keeps {joins : List Join} {tokens : List Token} (h : Joins joins tokens) :
    ∀ {first : String} {before : List Token}, Keeps first before →
      Keeps (Text.join " " (first :: joins.map Join.text)) (before ++ tokens) := by
  induction h with
  | nil =>
    intro first before hfirst
    rw [List.append_nil]
    exact hfirst
  | cons h _ ih =>
    intro first before hfirst
    have hblank : Keeps " " [] := .unbroken (by decide)
    have hall := (hfirst.append hblank).append (ih h.keeps)
    rw [List.append_nil] at hall
    exact hall

theorem From.Spelled.keeps {source : From} {tokens : List Token} (h : source.Spelled tokens) :
    Keeps source.text tokens := by
  obtain ⟨htable, hjoins⟩ := h
  exact hjoins.keeps htable.keeps

theorem Groups.keeps {groups : List Expr} {tokens : List Token} (h : Groups groups tokens) :
    Keeps (if groups.isEmpty then "" else " GROUP BY " ++ listText groups) tokens := by
  cases h with
  | none => exact .unbroken rfl
  | @some t u groups tokens _ _ h =>
    have hwords : Keeps " GROUP BY " [t, u] := .unbroken (by decide)
    have hall := hwords.append (h.keeps Expr.Spelled.keeps)
    cases h <;> exact hall

theorem Distinct.keeps {distinct : Bool} {tokens : List Token} (h : Distinct distinct tokens) :
    Keeps (if distinct then "DISTINCT " else "") tokens := by
  cases h with
  | all | distinct => exact .unbroken (by decide)

theorem Select.Spelled.keeps {select : Select} {tokens : List Token} (h : select.Spelled tokens) :
    Keeps select.text tokens := by
  obtain ⟨hdistinct, hitems, hinto, hsource, hcondition, hgroups, hhaving⟩ := h
  have hselect : Keeps "SELECT " [] := .unbroken (by decide)
  have hall := ((((((hselect.append hdistinct.keeps).append (hitems.keeps SelectItem.Spelled.keeps)).append
    (hinto.keeps (by decide) ObjectName.Spelled.keeps)).append
    (hsource.keeps (by decide) From.Spelled.keeps)).append
    (hcondition.keeps (by decide) Expr.Spelled.keeps)).append hgroups.keeps).append
    (hhaving.keeps (by decide) Expr.Spelled.keeps)
  simp only [List.append_assoc, List.nil_append] at hall
  exact hall

/-! ## Before another text -/

section Lexing

variable {offset : Nat} {text rest more : List Char} {tokens others : List Located}

theorem Segment.Before.breaks_lexeme {spelling : List Char} {token : Token}
    (h : Before (.lexeme spelling token) rest) : breaks spelling = breaks token.spelling := by
  cases h with
  | token _ hspelling => exact Token.breaks_of_mem_spellings hspelling

/-- **A text has all breaks of its tokens.** -/
theorem Lexes.breaks_le (h : Lexes offset text tokens rest) :
    Token.breaks (tokensOf tokens) ≤ breaks text := by
  induction h with
  | done => exact Nat.le_refl _
  | trivia _ _ ih =>
    rw [breaks_append]
    exact Nat.le_trans ih (Nat.le_add_left _ _)
  | token h _ ih =>
    rw [breaks_append, h.breaks_lexeme, tokensOf_cons, Token.breaks_cons]
    exact Nat.add_le_add_left ih _

/-- Without breaks there are only blanks between tokens. -/
theorem Segment.Before.blank_of_breaks {skipped : List Char} (h : Before (.trivia skipped) rest)
    (hbreaks : breaks skipped = 0) : ∀ b ∈ skipped, Text.isBlank b = true := by
  cases h with
  | blanks _ hall => exact hall
  | comment =>
    exact absurd (List.countP_eq_zero.mp hbreaks '-' List.mem_cons_self) (by decide)

theorem Token.isContinuedBy_blank (token : Token) (text : List Char) :
    token.isContinuedBy ' ' text = false := by
  cases token with
  | word w => exact isContinuedBy_word (by decide)
  | number digits => rfl
  | string value => rfl
  | sign s =>
    show signGoesOn ' ' text = false
    unfold signGoesOn
    split <;> rfl

theorem Lexes.blank_cons {bs : List Char} (hblank : ∀ b ∈ bs, Text.isBlank b = true)
    (hmore : Lexes (offset + Text.byteLength bs + 1) more others [])
    (hhead : ∀ c ∈ more.head?, Text.isBlank c = false) :
    Lexes offset (bs ++ ' ' :: more) others [] := by
  have hbefore : Before (.trivia (bs ++ [' '])) (more ++ []) := by
    refine .blanks (by simp) (fun b hb => ?_) (by rwa [List.append_nil])
    rcases List.mem_append.mp hb with hb | hb
    · exact hblank b hb
    · rw [List.mem_singleton.mp hb]
      decide
  have hall : Lexes offset ((bs ++ [' ']) ++ more) others [] := by
    refine .trivia hbefore ?_
    rwa [Text.byteLength_append, ← Nat.add_assoc]
  rwa [List.append_assoc] at hall

/-- **A text without comments stands before another one, with a blank between them.** -/
theorem Lexes.append_blank (h : Lexes offset text tokens [])
    (hbreaks : breaks text ≤ Token.breaks (tokensOf tokens))
    (hmore : Lexes (offset + Text.byteLength text + 1) more others [])
    (hhead : ∀ c ∈ more.head?, Text.isBlank c = false) :
    Lexes offset (text ++ ' ' :: more) (tokens ++ others) [] := by
  generalize hrest : [] = rest at h
  induction h with
  | done =>
    subst hrest
    exact .blank_cons (List.forall_mem_nil _) hmore hhead
  | @trivia offset skipped text _ tokens h htext ih =>
    subst hrest
    rw [breaks_append] at hbreaks
    rw [Text.byteLength_append, ← Nat.add_assoc] at hmore
    have hle := htext.breaks_le
    have hblank := h.blank_of_breaks (by omega)
    cases text with
    | nil =>
      -- the blanks at the end and the one after them are one run
      cases htext.eq_nil_of_blank (List.forall_mem_nil _)
      rw [List.append_nil]
      exact .blank_cons hblank hmore hhead
    | cons c cs =>
      have hbefore : Before (.trivia skipped) ((c :: cs ++ ' ' :: more) ++ []) := by
        cases h with
        | blanks hne hall hstop => exact .blanks hne hall hstop
        | comment => exact absurd (hblank '-' List.mem_cons_self) (by decide)
      rw [List.append_assoc]
      exact .trivia hbefore (ih (by omega) hmore rfl)
  | @token offset spelling text _ token tokens h htext ih =>
    subst hrest
    rw [breaks_append, h.breaks_lexeme, tokensOf_cons, Token.breaks_cons] at hbreaks
    rw [Text.byteLength_append, ← Nat.add_assoc] at hmore
    have hbefore : Before (.lexeme spelling token) ((text ++ ' ' :: more) ++ []) := by
      cases h with | token hlexed hspelling hstop =>
      refine .token hlexed hspelling fun c hc => ?_
      cases text with
      | nil =>
        cases hc
        exact token.isContinuedBy_blank spelling
      | cons d ds => exact hstop c hc
    rw [List.append_assoc]
    exact .token hbefore (ih (Nat.le_of_add_le_add_left hbreaks) hmore rfl)

end Lexing
end SqlPipeline.Sql
