import SqlPipeline.Proofs.Sql.LetterCase

/-!
# Spellings of an expression

Expressions are looked up by their texts without regard to letter case. What such a text says about
the expression is found out by reading it in lower case: two expressions with texts that differ only
in the case of letters differ only in the letters of their names and strings
(`Expr.Grouped.eq_of_sameAsciiCase`).

For names without quotes this is no difference. For quoted names and for strings it is one, which
the comparison does not see. Only if what stands in quotes is the same in both, the two are the same
expression up to the letter case of names without quotes (`Expr.SpelledAlike`,
`Expr.spelledAlike_of_folded`).
-/

namespace SqlPipeline
namespace Sql

/-! ## Expressions -/

/-- A change to the names of functions, to all other names, and to strings. -/
structure Respelling where
  function : Ident → Ident
  name : Ident → Ident
  string : String → String

def Literal.respelled (r : Respelling) : Literal → Literal
  | .string value => .string (r.string value)
  | value => value

mutual

def Expr.respelled (r : Respelling) : Expr → Expr
  | .ident name => .ident (r.name name)
  | .qualified parts => .qualified (parts.map r.name)
  | .literal value => .literal (value.respelled r)
  | .unary op operand => .unary op (operand.respelled r)
  | .binary left op right => .binary (left.respelled r) op (right.respelled r)
  | .isNull operand negated => .isNull (operand.respelled r) negated
  | .call function args => .call (r.function function) (args.respelled r)
  | .nested inner => .nested (inner.respelled r)

def Args.respelled (r : Respelling) : Args → Args
  | .nil => .nil
  | .star rest => .star (rest.respelled r)
  | .value arg rest => .value (arg.respelled r) (rest.respelled r)

end

namespace Ident

def folded (name : Ident) : Ident :=
  { name with value := Text.folded name.value }

theorem token_folded (name : Ident) : name.folded.token = name.token.folded := by
  have hkeyword : name.folded.keyword? = name.keyword? := by
    unfold keyword? folded
    rw [Text.toList_folded, Keyword.ofWord?_toLower]
  rw [token, hkeyword]
  rfl

theorem IsName.folded {name : Ident} (h : name.IsName) : name.folded.IsName := by
  refine ⟨h.1.imp id fun hword => ?_, ?_⟩
  · rw [Ident.folded, Text.toList_folded]
    exact isWord_toLower hword
  · rw [token_folded, Token.reserved?_folded]
    exact h.2

end Ident

/-- All ASCII letters in names and strings in lower case. -/
def Respelling.folding : Respelling where
  function := Ident.folded
  name := Ident.folded
  string := Text.folded

theorem Literal.lexed_folded {value : Literal} (h : value.token.Lexed) :
    (value.respelled .folding).token.Lexed := by
  cases value with
  | string _ => trivial
  | number _ | boolean _ | null => exact h

theorem Expr.leaves_respelled {r : Respelling} :
    ∀ {e : Expr} {level : Nat}, (e.respelled r).Leaves level ↔ e.Leaves level
  | .unary _ operand, _ => and_congr_right fun _ => Expr.leaves_respelled (e := operand)
  | .binary _ _ right, _ => and_congr_right fun _ => Expr.leaves_respelled (e := right)
  | .ident _, _ | .qualified _, _ | .literal _, _ | .isNull _ _, _ | .call _ _, _ | .nested _, _ =>
    Iff.rfl

mutual

/-- Lower case leaves the grouping of an expression as it is. -/
theorem Expr.Grouped.folded : ∀ {e : Expr} {level : Nat}, e.Grouped level →
    (e.respelled .folding).Grouped level
  | .ident _, _, h => Ident.IsName.folded h
  | .qualified parts, _, h => by
    refine ⟨by rw [List.length_map]; exact h.1, fun name hname => ?_⟩
    obtain ⟨own, hown, rfl⟩ := List.mem_map.mp hname
    exact (h.2 own hown).folded
  | .literal _, _, h => Literal.lexed_folded h
  | .unary _ operand, _, h => Expr.Grouped.folded (e := operand) h
  | .binary _ _ _, _, h =>
    ⟨h.1, h.2.1.folded, Expr.leaves_respelled.mpr h.2.2.1, h.2.2.2.folded⟩
  | .isNull _ _, _, h => ⟨h.1, h.2.1.folded, Expr.leaves_respelled.mpr h.2.2⟩
  | .call _ _, _, h => ⟨h.1.folded, h.2.folded⟩
  | .nested inner, _, h => Expr.Grouped.folded (e := inner) h

theorem Args.Grouped.folded : ∀ {args : Args}, args.Grouped → (args.respelled .folding).Grouped
  | .nil, _ => trivial
  | .star rest, h => (show rest.Grouped from h).folded
  | .value _ _, h => ⟨h.1.folded, h.2.folded⟩

end

/-- A token in lower case, except that reserved keywords are in capitals. -/
def Token.normal (token : Token) : Token :=
  token.folded.capital

theorem Keyword.normal_token {keyword : Keyword} (h : keyword.isReserved = true) :
    keyword.token.normal = keyword.token :=
  Token.capital_of_keyword (Token.keyword?_folded.trans rfl) h

theorem Ident.IsName.normal {name : Ident} (h : name.IsName) :
    name.token.normal = name.folded.token := by
  rw [Token.normal, ← Ident.token_folded]
  exact h.folded.capital

theorem normal_dottedTokens {parts : List Ident} (h : ∀ name ∈ parts, name.IsName) :
    (dottedTokens parts).map Token.normal = dottedTokens (parts.map Ident.folded) := by
  have htail : ∀ names : List Ident, (∀ name ∈ names, name.IsName) →
      (tailTokens names).map Token.normal = tailTokens (names.map Ident.folded) := by
    intro names hnames
    unfold tailTokens
    rw [List.map_flatMap, List.flatMap_map]
    refine List.flatMap_congr fun name hname => ?_
    rw [List.map_cons, List.map_cons, (hnames name hname).normal]
    rfl
  cases parts with
  | nil => rfl
  | cons name others =>
    rw [dottedTokens, List.map_cons, (h name List.mem_cons_self).normal,
      htail others fun other hother => h other (List.mem_cons_of_mem _ hother)]
    rfl

mutual

/-- The tokens of an expression in lower case are those of the expression in lower case. -/
theorem Expr.Grouped.normal_tokens : ∀ {e : Expr} {level : Nat}, e.Grouped level →
    e.tokens.map Token.normal = (e.respelled .folding).tokens
  | .ident name, _, h => congrArg (fun token => [token]) (Ident.IsName.normal h)
  | .qualified parts, _, h => normal_dottedTokens h.2
  | .literal value, _, _ => by
    cases value with
    | boolean value =>
      cases value <;> exact congrArg (fun token => [token]) (Keyword.normal_token rfl)
    | null => exact congrArg (fun token => [token]) (Keyword.normal_token rfl)
    | number _ | string _ => rfl
  | .unary op operand, _, h => by
    have hop : op.token.normal = op.token := by
      cases op with
      | plus | minus => rfl
      | not => exact Keyword.normal_token rfl
    rw [Expr.tokens, List.map_cons, Expr.Grouped.normal_tokens (e := operand) h, hop]
    rfl
  | .binary left op right, _, h => by
    have hop : op.token.normal = op.token := by
      cases op
      case and | or => exact Keyword.normal_token rfl
      all_goals rfl
    rw [Expr.tokens, List.map_append, List.map_cons, Expr.Grouped.normal_tokens h.2.1,
      Expr.Grouped.normal_tokens h.2.2.2, hop]
    rfl
  | .isNull operand negated, _, h => by
    have hnull : (nullTokens negated).map Token.normal = nullTokens negated := by
      cases negated <;> decide
    rw [Expr.tokens, List.map_append, Expr.Grouped.normal_tokens h.2.1, hnull]
    rfl
  | .call function args, _, h => by
    simp only [Expr.tokens, List.map_cons, List.map_append, h.1.normal,
      Args.Grouped.normal_tokens h.2]
    rfl
  | .nested inner, _, h => by
    simp only [Expr.tokens, List.map_cons, List.map_append,
      Expr.Grouped.normal_tokens (e := inner) h]
    rfl

theorem Args.Grouped.normal_tokens : ∀ {args : Args}, args.Grouped →
    args.tokens.map Token.normal = (args.respelled .folding).tokens
  | .nil, _ => rfl
  | .star rest, h => by
    have hrest := Args.Grouped.normal_tokens (show rest.Grouped from h)
    cases rest with
    | nil => rfl
    | star _ | value _ _ =>
      rw [Args.tokens, List.map_cons, List.map_cons, hrest]
      · rfl
      · exact nofun
  | .value arg rest, h => by
    have harg := Expr.Grouped.normal_tokens h.1
    have hrest := Args.Grouped.normal_tokens h.2
    cases rest with
    | nil => exact harg
    | star _ | value _ _ =>
      rw [Args.tokens, List.map_append, List.map_cons, harg, hrest]
      · rfl
      · exact nofun

end

/-- What can be written at some level can be written on its own. -/
theorem Expr.Grouped.zero : ∀ {e : Expr} {level : Nat}, e.Grouped level → e.Grouped 0
  | .ident _, _, h | .qualified _, _, h | .literal _, _, h | .unary _ _, _, h | .call _ _, _, h
  | .nested _, _, h => h
  | .binary _ _ _, _, h => ⟨Nat.zero_lt_of_lt h.1, h.2.1.zero, h.2.2⟩
  | .isNull _ _, _, h => ⟨Nat.zero_lt_of_lt h.1, h.2.1.zero, h.2.2⟩

/-- Two expressions with the same tokens are the same. -/
theorem Expr.Grouped.eq_of_tokens {e other : Expr} (h : e.Grouped 0) (hother : other.Grouped 0)
    (htokens : e.tokens = other.tokens) : e = other := by
  have hcapitals : capitals (e.tokens.map fun token => ⟨token, 0⟩) = e.tokens := by
    rw [capitals, List.map_map]
    exact h.capital_tokens
  have hreads : Parser.Reads Parser.expr ((e.tokens.map fun token => ⟨token, 0⟩) ++ []) e [] :=
    Parser.expr_complete hcapitals h rfl stops_nil
  have hagain : Parser.Reads Parser.expr ((e.tokens.map fun token => ⟨token, 0⟩) ++ []) other [] :=
    Parser.expr_complete (hcapitals.trans htokens) hother rfl stops_nil
  exact (Prod.mk.inj (Except.ok.inj (hreads.symm.trans hagain))).1

/-! ## The same expression in other letters -/

theorem Ident.folded_lowered {name : Ident} (h : ∀ c ∈ name.value.toList, c.toNat < 0x80) :
    name.lowered.folded = name.folded := by
  have hvalue : Text.folded (Text.lower name.value) = Text.folded name.value := by
    apply String.toList_injective
    rw [Text.lower_of_ascii h, Text.toList_folded, Text.toList_folded, List.map_map]
    exact List.map_congr_left fun c _ => Text.toLower_toLower c
  exact congrArg (fun text => Ident.mk text name.quoted) hvalue

mutual

/-- In lower case, functions need not be lowered first. -/
theorem Expr.folded_lowered : ∀ {e : Expr}, e.IsPlain →
    e.lowered.respelled .folding = e.respelled .folding
  | .ident _, _ | .qualified _, _ | .literal _, _ => rfl
  | .unary op operand, h => by
    have hoperand := Expr.folded_lowered (e := operand)
      fun part hpart => h part (List.mem_cons_of_mem _ hpart)
    exact congrArg (Expr.unary op) hoperand
  | .binary left op right, h => by
    have hleft := Expr.folded_lowered (e := left)
      fun part hpart => h part (List.mem_cons_of_mem _ (List.mem_append_left _ hpart))
    have hright := Expr.folded_lowered (e := right)
      fun part hpart => h part (List.mem_cons_of_mem _ (List.mem_append_right _ hpart))
    exact congrArg₂ (fun left right => Expr.binary left op right) hleft hright
  | .isNull operand negated, h => by
    have hoperand := Expr.folded_lowered (e := operand)
      fun part hpart => h part (List.mem_cons_of_mem _ hpart)
    exact congrArg (fun operand => Expr.isNull operand negated) hoperand
  | .call function args, h => by
    have hfunction := Ident.folded_lowered (h _ List.mem_cons_self).2
    have hargs := Args.folded_lowered fun part hpart => h part (List.mem_cons_of_mem _ hpart)
    exact congrArg₂ Expr.call hfunction hargs
  | .nested inner, h => by
    have hinner := Expr.folded_lowered (e := inner)
      fun part hpart => h part (List.mem_cons_of_mem _ hpart)
    exact congrArg Expr.nested hinner

theorem Args.folded_lowered : ∀ {args : Args}, (∀ part ∈ args.parts, part.Plain) →
    args.lowered.respelled .folding = args.respelled .folding
  | .nil, _ => rfl
  | .star rest, h => by
    have hplain : ∀ part ∈ rest.parts, part.Plain := h
    exact congrArg Args.star (Args.folded_lowered hplain)
  | .value arg rest, h => by
    have harg := Expr.folded_lowered (e := arg)
      fun part hpart => h part (List.mem_append_left _ hpart)
    have hrest := Args.folded_lowered fun part hpart => h part (List.mem_append_right _ hpart)
    exact congrArg₂ Args.value harg hrest

end

/-- **Expressions whose texts differ only in the case of letters differ only in that.** -/
theorem Expr.Grouped.eq_of_sameAsciiCase {e other : Expr} {level levelOther : Nat}
    (h : e.Grouped level) (hother : other.Grouped levelOther) (hplain : e.IsPlain)
    (hplainOther : other.IsPlain) (htext : Text.sameAsciiCase e.text other.text = true) :
    e.respelled .folding = other.respelled .folding := by
  have hfolded {e : Expr} {level : Nat} (h : e.Grouped level) (hplain : e.IsPlain) :
      ∃ ts, Lexes 0 (e.text.toList.map Char.toLower) ts [] ∧
        ts.map (·.token.capital) = (e.respelled .folding).tokens := by
    have hshown := h.shown hplain
    obtain ⟨hwrites, -⟩ := h.prints hshown [] (fun c hc => by cases hc)
    obtain ⟨ts, hts, htokens⟩ := hwrites 0
    refine ⟨_, hts.folded, ?_⟩
    rw [← Expr.folded_lowered hplain, ← (h.lowered hshown).normal_tokens, ← htokens, tokensOf,
      List.map_map, List.map_map]
    rfl
  obtain ⟨ts, hts, htokens⟩ := hfolded h hplain
  obtain ⟨us, hus, hothers⟩ := hfolded hother hplainOther
  have hsame : e.text.toList.map Char.toLower = other.text.toList.map Char.toLower :=
    beq_iff_eq.mp htext
  rw [hsame] at hts
  refine h.folded.zero.eq_of_tokens hother.folded.zero ?_
  rw [← htokens, ← hothers, hts.unique hus]

/-- A name with its letters in lower case if it stands without quotes. -/
def Ident.caseless (name : Ident) : Ident :=
  if name.quoted then name else name.folded

/-- The ASCII letters of names without quotes in lower case. -/
def Respelling.caseless : Respelling where
  function := Ident.caseless
  name := Ident.caseless
  string := id

/-- The same expression up to the letter case of names without quotes. The letter case of keywords
is no part of an expression. -/
def Expr.SpelledAlike (e other : Expr) : Prop :=
  e.respelled .caseless = other.respelled .caseless

instance (e other : Expr) : Decidable (e.SpelledAlike other) :=
  inferInstanceAs (Decidable (_ = _))

/-- The text of a name that stands in quotes. -/
def Ident.quotation? (name : Ident) : Option String :=
  if name.quoted then some name.value else none

def Literal.quotation? : Literal → Option String
  | .string value => some value
  | _ => none

mutual

/-- The quoted names and the strings of an expression, in order. -/
def Expr.quotations : Expr → List String
  | .ident name => name.quotation?.toList
  | .qualified parts => parts.flatMap fun name => name.quotation?.toList
  | .literal value => value.quotation?.toList
  | .unary _ operand => operand.quotations
  | .binary left _ right => left.quotations ++ right.quotations
  | .isNull operand _ => operand.quotations
  | .call function args => function.quotation?.toList ++ args.quotations
  | .nested inner => inner.quotations

def Args.quotations : Args → List String
  | .nil => []
  | .star rest => rest.quotations
  | .value arg rest => arg.quotations ++ rest.quotations

end

/-! The texts behind those compared are compared along with them, so that the quoted texts of an
operand are taken off the front of a list one operand after the other. -/

theorem Ident.caseless_eq {name other : Ident} {xs ys : List String}
    (h : name.folded = other.folded)
    (hquotations : name.quotation?.toList ++ xs = other.quotation?.toList ++ ys) :
    name.caseless = other.caseless ∧ xs = ys := by
  obtain ⟨value, quoted⟩ := name
  obtain ⟨valueOther, quotedOther⟩ := other
  obtain ⟨hvalue, rfl⟩ := Ident.mk.inj h
  cases quoted with
  | false => exact ⟨h, hquotations⟩
  | true =>
    obtain ⟨rfl, htails⟩ := List.cons.inj hquotations
    exact ⟨rfl, htails⟩

theorem Literal.caseless_eq {value other : Literal} {xs ys : List String}
    (h : value.respelled .folding = other.respelled .folding)
    (hquotations : value.quotation?.toList ++ xs = other.quotation?.toList ++ ys) :
    value.respelled .caseless = other.respelled .caseless ∧ xs = ys := by
  cases value with
  | string text =>
    cases other with
    | string textOther =>
      obtain ⟨rfl, htails⟩ := List.cons.inj hquotations
      exact ⟨rfl, htails⟩
    | number _ | boolean _ | null => cases h
  | number _ | boolean _ | null =>
    cases other with
    | string _ => cases h
    | number _ | boolean _ | null => exact ⟨h, hquotations⟩

theorem caseless_eq_of_names : ∀ {names others : List Ident} {xs ys : List String},
    names.map Ident.folded = others.map Ident.folded →
    names.flatMap (fun name => name.quotation?.toList) ++ xs =
      others.flatMap (fun name => name.quotation?.toList) ++ ys →
    names.map Ident.caseless = others.map Ident.caseless ∧ xs = ys
  | [], [], _, _, _, hquotations => ⟨rfl, hquotations⟩
  | name :: names, other :: others, xs, ys, h, hquotations => by
    obtain ⟨hname, hnames⟩ := List.cons.inj h
    rw [List.flatMap_cons, List.flatMap_cons, List.append_assoc, List.append_assoc] at hquotations
    obtain ⟨hname, hquotations⟩ := Ident.caseless_eq hname hquotations
    obtain ⟨hnames, htails⟩ := caseless_eq_of_names hnames hquotations
    exact ⟨congrArg₂ List.cons hname hnames, htails⟩

mutual

theorem Expr.spelledAlike_append : ∀ {e other : Expr} {xs ys : List String},
    e.respelled .folding = other.respelled .folding →
    e.quotations ++ xs = other.quotations ++ ys → e.SpelledAlike other ∧ xs = ys
  | .ident name, other, xs, ys, h, hquotations => by
    cases other with
    | ident own =>
      obtain ⟨hname, htails⟩ := Ident.caseless_eq (Expr.ident.inj h) hquotations
      exact ⟨congrArg Expr.ident hname, htails⟩
    | _ => cases h
  | .qualified parts, other, xs, ys, h, hquotations => by
    cases other with
    | qualified own =>
      obtain ⟨hparts, htails⟩ := caseless_eq_of_names (Expr.qualified.inj h) hquotations
      exact ⟨congrArg Expr.qualified hparts, htails⟩
    | _ => cases h
  | .literal value, other, xs, ys, h, hquotations => by
    cases other with
    | literal own =>
      obtain ⟨hvalue, htails⟩ := Literal.caseless_eq (Expr.literal.inj h) hquotations
      exact ⟨congrArg Expr.literal hvalue, htails⟩
    | _ => cases h
  | .unary op operand, other, xs, ys, h, hquotations => by
    cases other with
    | unary own operandOwn =>
      obtain ⟨rfl, hoperand⟩ := Expr.unary.inj h
      obtain ⟨halike, htails⟩ := Expr.spelledAlike_append (e := operand) hoperand hquotations
      exact ⟨congrArg (Expr.unary op) halike, htails⟩
    | _ => cases h
  | .binary left op right, other, xs, ys, h, hquotations => by
    cases other with
    | binary leftOwn own rightOwn =>
      obtain ⟨hleft, rfl, hright⟩ := Expr.binary.inj h
      rw [Expr.quotations, Expr.quotations, List.append_assoc, List.append_assoc] at hquotations
      obtain ⟨halikeLeft, hquotations⟩ := Expr.spelledAlike_append (e := left) hleft hquotations
      obtain ⟨halikeRight, htails⟩ := Expr.spelledAlike_append (e := right) hright hquotations
      exact ⟨congrArg₂ (fun left right => Expr.binary left op right) halikeLeft halikeRight, htails⟩
    | _ => cases h
  | .isNull operand negated, other, xs, ys, h, hquotations => by
    cases other with
    | isNull operandOwn own =>
      obtain ⟨hoperand, rfl⟩ := Expr.isNull.inj h
      obtain ⟨halike, htails⟩ := Expr.spelledAlike_append (e := operand) hoperand hquotations
      exact ⟨congrArg (fun operand => Expr.isNull operand negated) halike, htails⟩
    | _ => cases h
  | .call function args, other, xs, ys, h, hquotations => by
    cases other with
    | call own argsOwn =>
      obtain ⟨hfunction, hargs⟩ := Expr.call.inj h
      rw [Expr.quotations, Expr.quotations, List.append_assoc, List.append_assoc] at hquotations
      obtain ⟨hfunction, hquotations⟩ := Ident.caseless_eq hfunction hquotations
      obtain ⟨hargs, htails⟩ := Args.spelledAlike_append hargs hquotations
      exact ⟨congrArg₂ Expr.call hfunction hargs, htails⟩
    | _ => cases h
  | .nested inner, other, xs, ys, h, hquotations => by
    cases other with
    | nested innerOwn =>
      obtain ⟨halike, htails⟩ :=
        Expr.spelledAlike_append (e := inner) (Expr.nested.inj h) hquotations
      exact ⟨congrArg Expr.nested halike, htails⟩
    | _ => cases h

theorem Args.spelledAlike_append : ∀ {args others : Args} {xs ys : List String},
    args.respelled .folding = others.respelled .folding →
    args.quotations ++ xs = others.quotations ++ ys →
      args.respelled .caseless = others.respelled .caseless ∧ xs = ys
  | .nil, others, xs, ys, h, hquotations => by
    cases others with
    | nil => exact ⟨rfl, hquotations⟩
    | _ => cases h
  | .star rest, others, xs, ys, h, hquotations => by
    cases others with
    | star restOwn =>
      have hquotations : rest.quotations ++ xs = restOwn.quotations ++ ys := hquotations
      obtain ⟨hrest, htails⟩ := Args.spelledAlike_append (Args.star.inj h) hquotations
      exact ⟨congrArg Args.star hrest, htails⟩
    | _ => cases h
  | .value arg rest, others, xs, ys, h, hquotations => by
    cases others with
    | value argOwn restOwn =>
      obtain ⟨harg, hrest⟩ := Args.value.inj h
      rw [Args.quotations, Args.quotations, List.append_assoc, List.append_assoc] at hquotations
      obtain ⟨halike, hquotations⟩ := Expr.spelledAlike_append harg hquotations
      obtain ⟨hrest, htails⟩ := Args.spelledAlike_append hrest hquotations
      exact ⟨congrArg₂ Args.value halike hrest, htails⟩
    | _ => cases h

end

/-- **Expressions that differ only in letters, and not in what they have in quotes, are the same up
to the letter case of names without quotes.** -/
theorem Expr.spelledAlike_of_folded {e other : Expr}
    (h : e.respelled .folding = other.respelled .folding)
    (hquotations : e.quotations = other.quotations) : e.SpelledAlike other :=
  (Expr.spelledAlike_append h (congrArg (· ++ []) hquotations)).1

end Sql
end SqlPipeline
