import SqlPipeline.Proofs.Sql.Reading

/-!
# Reading expressions

The parser of expressions against their grammar. What it reads at a level is grouped and is spelled
by the tokens it took (`Parser.exprAt_sound`, by induction on the budget), and every grouped
expression is read from its tokens, whatever comes next (`Parser.exprAt_complete`, by induction on
the expression). Both are brought together in `Parser.parses_expr`.

An operator that follows is what joins the two: an expression that is read leaves the operator
alone, and one that leaves it alone is read up to it.
-/

namespace SqlPipeline.Sql

theorem Args.tokens_star {args : Args} (h : args ≠ .nil) :
    (Args.star args).tokens = .sign .star :: .sign .comma :: args.tokens := by
  cases args with
  | nil => exact absurd rfl h
  | star | value => rfl

theorem Args.tokens_value {args : Args} (h : args ≠ .nil) (arg : Expr) :
    (Args.value arg args).tokens = arg.tokens ++ .sign .comma :: args.tokens := by
  cases args with
  | nil => exact absurd rfl h
  | star | value => rfl

theorem capitals_eq (used : List Located) : capitals used = (tokensOf used).map Token.capital := by
  rw [capitals, tokensOf, List.map_map]
  rfl

theorem capitals_of_names {used : List Located} {tokens : List Token} (h : tokensOf used = tokens)
    (hnames : ∀ token ∈ tokens, token.reserved? = none) : capitals used = tokens := by
  subst h
  refine List.map_congr_left fun t ht => ?_
  exact Token.capital_of_reserved?_eq_none (hnames _ (List.mem_map_of_mem ht))

theorem tokensOf_of_capitals {used : List Located} {tokens : List Token} (h : capitals used = tokens)
    (hnames : ∀ token ∈ tokens, token.reserved? = none) : tokensOf used = tokens := by
  subst h
  refine List.map_congr_left fun t ht => ?_
  exact Token.eq_of_capital rfl (hnames _ (List.mem_map_of_mem ht))

theorem reserved?_of_mem_tailTokens {names : List Ident} (hnames : ∀ name ∈ names, name.IsName) :
    ∀ token ∈ tailTokens names, token.reserved? = none := by
  intro token htoken
  obtain ⟨name, hname, h⟩ := List.mem_flatMap.mp htoken
  rcases List.mem_cons.mp h with rfl | h
  · rfl
  · rw [List.mem_singleton.mp h]
    exact (hnames name hname).2

theorem exists_cons_of_null {used : List Located} {negated : Bool}
    (h : capitals used = nullTokens negated) :
    ∃ t nulls, used = t :: nulls ∧ t.token.capital = Extension.isNull.token := by
  cases used with
  | nil => cases negated <;> cases h
  | cons t nulls =>
    refine ⟨t, nulls, rfl, ?_⟩
    cases negated <;> exact (List.cons.inj h).1

/-- An expression is spelled by its tokens, in which reserved keywords may have any letter case. -/
def Expr.Spelled (e : Expr) (tokens : List Token) : Prop :=
  tokens.map Token.capital = e.tokens ∧ e.Grouped 0

/-- Whether a token makes more of a name before it. -/
def Token.NamesOn (t : Token) : Prop :=
  t = .sign .leftParen ∨ t = .sign .period

/-- Whether a token makes more of an expression before it. -/
def Token.GoesOn (t : Token) : Prop :=
  Extension.ofToken? t ≠ none ∨ t.NamesOn

/-- Whether an expression can start with a token. -/
def Token.StartsExpr (t : Token) : Prop :=
  (∀ s, t = .sign s → s = .minus ∨ s = .plus ∨ s = .leftParen) ∧
    ∀ keyword, t.reserved? = some keyword → keyword ∈ [.NOT, .TRUE, .FALSE, .NULL]

theorem Token.startsExpr_capital {t : Token} : t.capital.StartsExpr ↔ t.StartsExpr := by
  simp [StartsExpr, capital_sign]

theorem Ident.IsName.startsExpr {name : Ident} (h : name.IsName) : name.token.StartsExpr :=
  ⟨nofun, fun keyword hkeyword => by rw [h.2] at hkeyword; cases hkeyword⟩

theorem UnaryOp.startsExpr (op : UnaryOp) : op.token.StartsExpr := by
  cases op with
  | plus => exact ⟨by rintro s ⟨⟩; simp, nofun⟩
  | minus => exact ⟨by rintro s ⟨⟩; simp, nofun⟩
  | not => exact ⟨nofun, by rintro keyword ⟨⟩; decide⟩

theorem Literal.startsExpr : ∀ value : Literal, value.token.StartsExpr
  | .number _ | .string _ => ⟨nofun, nofun⟩
  | .boolean true | .boolean false | .null => ⟨nofun, by rintro keyword ⟨⟩; decide⟩

theorem Expr.exists_first : ∀ {e : Expr} {level : Nat}, e.Grouped level →
    ∃ token others, e.tokens = token :: others ∧ token.StartsExpr
  | .ident name, _, h => ⟨name.token, [], rfl, h.startsExpr⟩
  | .qualified (name :: _), _, h => ⟨name.token, _, rfl, (h.2 name List.mem_cons_self).startsExpr⟩
  | .qualified [], _, h => by cases h.1
  | .literal value, _, _ => ⟨value.token, [], rfl, value.startsExpr⟩
  | .unary op operand, _, _ => ⟨op.token, operand.tokens, rfl, op.startsExpr⟩
  | .binary left op right, _, h => by
    obtain ⟨token, others, htokens, hfirst⟩ := exists_first h.2.1
    refine ⟨token, others ++ op.token :: right.tokens, ?_, hfirst⟩
    rw [Expr.tokens, htokens]
    rfl
  | .isNull operand negated, _, h => by
    obtain ⟨token, others, htokens, hfirst⟩ := exists_first h.2.1
    refine ⟨token, others ++ nullTokens negated, ?_, hfirst⟩
    rw [Expr.tokens, htokens]
    rfl
  | .call function _, _, h => ⟨function.token, _, rfl, h.1.startsExpr⟩
  | .nested _, _, _ => ⟨.sign .leftParen, _, rfl, by rintro s ⟨⟩; simp, nofun⟩

/-- Arguments start with a star or an expression. -/
theorem Args.exists_first : ∀ {args : Args}, args ≠ .nil → args.Grouped →
    ∃ token others, args.tokens = token :: others ∧ token ≠ .sign .rightParen
  | .nil, hne, _ => absurd rfl hne
  | .star .nil, _, _ | .star (.star _), _, _ | .star (.value _ _), _, _ => ⟨_, _, rfl, nofun⟩
  | .value arg others, _, h => by
    obtain ⟨token, following, htokens, hfirst⟩ := Expr.exists_first h.1
    have hne : token ≠ .sign .rightParen := by
      rintro rfl
      simpa using hfirst.1 _ rfl
    by_cases hnil : others = .nil
    · exact ⟨token, following, by rw [hnil, ← htokens]; rfl, hne⟩
    · exact ⟨token, _, by rw [tokens_value hnil, htokens, List.cons_append], hne⟩

theorem stops_sign_of_capitals {used rest : List Located} {token : Token} {others : List Token}
    {s : Sign} (h : capitals used = token :: others) (hne : token ≠ .sign s) :
    Stops (· = .sign s) (tokensOf (used ++ rest)) := by
  obtain ⟨t, used, rfl, ht, -⟩ := List.map_eq_cons_iff.mp h
  refine stops_tokensOf_cons.mpr fun htoken => hne ?_
  rw [← ht]
  exact Token.capital_sign.mpr htoken

namespace Parser

variable {budget level : Nat} {ts rest : List Located} {left e : Expr}

theorem reads_null {α : Type} {next : Bool → Parser α} {a : α} :
    Reads (do let negated ← keyword? .NOT; expectKeyword .NULL; next negated) ts a rest ↔
      ∃ negated used middle, ts = used ++ middle ∧
        Keyword.IS.token :: capitals used = nullTokens negated ∧ Reads (next negated) middle a rest := by
  simp only [reads_keyword?_bind, reads_bind (p := expectKeyword _), reads_expectKeyword]
  constructor
  · rintro (⟨t, _, ht, rfl, _, _, ⟨u, hu, rfl⟩, h⟩ | ⟨-, _, _, ⟨u, hu, rfl⟩, h⟩)
    · refine ⟨true, [t, u], _, rfl, ?_, h⟩
      rw [capitals_cons, capitals_cons, Token.capital_of_keyword ht rfl,
        Token.capital_of_keyword hu rfl]
      rfl
    · refine ⟨false, [u], _, rfl, ?_, h⟩
      rw [capitals_cons, Token.capital_of_keyword hu rfl]
      rfl
  · rintro ⟨negated, used, middle, rfl, hused, h⟩
    cases negated with
    | true =>
      obtain ⟨t, used, rfl, ht, hused⟩ := List.map_eq_cons_iff.mp (List.cons.inj hused).2
      obtain ⟨u, rfl, hu⟩ := List.map_eq_singleton_iff.mp hused
      exact .inl ⟨t, u :: middle, Token.keyword?_of_capital ht, rfl, (), middle,
        ⟨u, Token.keyword?_of_capital hu, rfl⟩, h⟩
    | false =>
      obtain ⟨u, rfl, hu⟩ := List.map_eq_singleton_iff.mp (List.cons.inj hused).2
      have hnull := Token.keyword?_of_capital hu
      refine .inr ⟨stops_tokensOf_cons.mpr ?_, (), middle, ⟨u, hnull, rfl⟩, h⟩
      rw [hnull]
      decide

/-- An expression is left alone by what does not bind tighter than the level. -/
theorem reads_extend_of_le (h : nextLevel ts ≤ level) :
    Reads (extend (budget + 1) level left) ts e rest ↔ left = e ∧ ts = rest := by
  rw [extend, reads_get_bind, ← reads_pure]
  cases ts with
  | nil => rfl
  | cons t ts =>
    dsimp only
    cases hextension : Extension.ofToken? t.token with
    | none => rfl
    | some extension =>
      rw [nextLevel_cons ts (Extension.ofToken?_eq_some_iff.mp hextension)] at h
      dsimp only
      rw [if_neg (Nat.not_lt.mpr h)]

/-- An expression is extended by what binds tighter than the level. -/
theorem reads_extend_of_lt {t : Located} {extension : Extension}
    (ht : t.token.capital = extension.token) (h : level < extension.level) :
    Reads (extend (budget + 1) level left) (t :: ts) e rest ↔
      match extension with
      | .isNull => ∃ negated used middle, t :: ts = used ++ middle ∧
          capitals used = nullTokens negated ∧
          Reads (extend budget level (.isNull left negated)) middle e rest
      | .binary op => ∃ right middle, Reads (exprAt budget op.level) ts right middle ∧
          Reads (extend budget level (.binary left op right)) middle e rest := by
  rw [extend, reads_get_bind]
  dsimp only
  rw [Extension.ofToken?_eq_some_iff.mpr ht]
  dsimp only
  rw [if_pos h, reads_set_bind]
  cases extension with
  | binary op => exact reads_bind
  | isNull =>
    refine reads_null.trans ⟨?_, ?_⟩
    · rintro ⟨negated, used, middle, rfl, hused, hnext⟩
      exact ⟨negated, t :: used, middle, rfl, by rwa [capitals_cons, ht], hnext⟩
    · rintro ⟨negated, used, middle, heq, hused, hnext⟩
      cases used with
      | nil => cases negated <;> cases hused
      | cons u used =>
        cases heq
        rw [capitals_cons, ht] at hused
        exact ⟨negated, used, middle, rfl, hused, hnext⟩

/-- A level that is passed belongs to an extension at the front of the tokens. -/
theorem exists_extension (h : level < nextLevel ts) : ∃ t following extension,
    ts = t :: following ∧ t.token.capital = Extension.token extension ∧ level < extension.level := by
  cases ts with
  | nil => cases h
  | cons t ts =>
    cases hextension : Extension.ofToken? t.token with
    | none => simp [nextLevel, hextension] at h
    | some extension =>
      have ht := Extension.ofToken?_eq_some_iff.mp hextension
      rw [nextLevel_cons ts ht] at h
      exact ⟨t, ts, extension, rfl, ht, h⟩

/-! ## What is read is grouped -/

theorem not_namesOn_of_extension {t : Located} {extension : Extension}
    (ht : t.token.capital = extension.token) : ¬t.token.NamesOn := by
  rintro (h | h)
  all_goals
    rw [Token.capital_sign.mpr h] at ht
    cases extension with
    | isNull => cases ht
    | binary op => cases op <;> cases ht

/-- An expression that is one token. -/
theorem literal_sound {t : Located} {middle : List Located}
    (hlexed : t.token.Lexed) (value : Literal) (hvalue : t.token.capital = value.token)
    (h : Reads (pure (.literal value)) middle e rest) :
    ∃ used, t :: middle = used ++ rest ∧ capitals used = e.tokens ∧
      (∀ level, e.Grouped level) ∧ e.Leaves (nextLevel rest) := by
  obtain ⟨rfl, rfl⟩ := reads_pure.mp h
  refine ⟨[t], rfl, congrArg (fun token => [token]) hvalue, fun _ => ?_, trivial⟩
  change value.token.Lexed
  rw [← hvalue]
  exact hlexed.capital

mutual

theorem exprAt_sound : ∀ {budget level : Nat} {ts rest : List Located} {e : Expr}, AllLexed ts →
    Reads (exprAt budget level) ts e rest →
      ∃ used, ts = used ++ rest ∧ capitals used = e.tokens ∧ e.Grouped level ∧
        e.Leaves (nextLevel rest) ∧ nextLevel rest ≤ level
  | 0, _, _, _, _, _, h => absurd h not_reads_outOfBudget
  | budget + 1, level, ts, rest, e, hlexed, h => by
    rw [exprAt, reads_bind] at h
    obtain ⟨first, middle, hfirst, h⟩ := h
    obtain ⟨used, rfl, htokens, hgrouped, hleaves⟩ := operand_sound hlexed hfirst
    obtain ⟨more, rfl, hmore, hresult⟩ :=
      extend_sound hlexed.of_append (hgrouped level) hleaves h
    refine ⟨used ++ more, (List.append_assoc _ _ _).symm, ?_, hresult⟩
    rw [capitals_append, htokens, hmore]

theorem operand_sound : ∀ {budget : Nat} {ts rest : List Located} {e : Expr}, AllLexed ts →
    Reads (operand budget) ts e rest →
      ∃ used, ts = used ++ rest ∧ capitals used = e.tokens ∧ (∀ level, e.Grouped level) ∧
        e.Leaves (nextLevel rest)
  | 0, _, _, _, _, h => absurd h not_reads_outOfBudget
  | budget + 1, ts, rest, e, hlexed, h => by
    rw [operand, reads_bind] at h
    obtain ⟨t, middle, ht, h⟩ := h
    cases reads_next.mp ht
    -- an operator before its operand
    have hunary (op : UnaryOp) (hop : t.token.capital = op.token)
        (h : Reads (do return .unary op (← exprAt budget op.level)) middle e rest) :
        ∃ used, t :: middle = used ++ rest ∧ capitals used = e.tokens ∧
          (∀ level, e.Grouped level) ∧ e.Leaves (nextLevel rest) := by
      obtain ⟨inner, _, hinner, h⟩ := reads_bind.mp h
      obtain ⟨rfl, rfl⟩ := reads_pure.mp h
      obtain ⟨used, rfl, hused, hgrouped, hleaves, hlevel⟩ := exprAt_sound hlexed.tail hinner
      refine ⟨t :: used, rfl, ?_, fun _ => hgrouped, hlevel, hleaves⟩
      rw [capitals_cons, hop, hused]
      rfl
    have hfirst := hlexed t List.mem_cons_self
    obtain ⟨token, offset⟩ := t
    cases token with
    | number digits => exact literal_sound hfirst (.number digits) rfl h
    | string value => exact literal_sound hfirst (.string value) rfl h
    | sign s =>
      cases s with
      | minus => exact hunary .minus rfl h
      | plus => exact hunary .plus rfl h
      | leftParen =>
        simp only [reads_bind, reads_expectSign, reads_pure] at h
        obtain ⟨inner, _, hinner, _, _, ⟨u, hu, rfl⟩, rfl, rfl⟩ := h
        obtain ⟨used, rfl, hused, hgrouped, -, -⟩ := exprAt_sound hlexed.tail hinner
        refine ⟨⟨.sign .leftParen, offset⟩ :: (used ++ [u]), by simp, ?_, fun _ => hgrouped, trivial⟩
        rw [capitals_cons, capitals_append, hused, capitals_cons, hu]
        rfl
      | _ => exact absurd h not_reads_failAt
    | word w =>
      have hlexedWord : (Token.word w).Lexed := hfirst
      -- a word that is no reserved keyword
      have hnamed (hfree : (Token.word w).reserved? = none)
          (h : Reads (named budget ⟨w.value, w.quoted⟩) middle e rest) :
          ∃ used, ⟨.word w, offset⟩ :: middle = used ++ rest ∧ capitals used = e.tokens ∧
            (∀ level, e.Grouped level) ∧ e.Leaves (nextLevel rest) := by
        have htoken := Ident.token_of_lexed hlexedWord
        have hname : (⟨w.value, w.quoted⟩ : Ident).IsName := by
          rw [← htoken] at hlexedWord hfree
          exact ⟨Ident.lexed_token_iff.mp hlexedWord, hfree⟩
        obtain ⟨used, rfl, hused, hresult⟩ := named_sound hlexed.tail hname h
        refine ⟨⟨.word w, offset⟩ :: used, rfl, ?_, hresult⟩
        rw [capitals_cons, Token.capital_of_reserved?_eq_none hfree, ← htoken, hused]
      dsimp only at h
      split at h
      · next hkeyword => exact hunary .not (Token.capital_of_keyword hkeyword rfl) h
      · next hkeyword =>
        exact literal_sound hfirst (.boolean true) (Token.capital_of_keyword hkeyword rfl) h
      · next hkeyword =>
        exact literal_sound hfirst (.boolean false) (Token.capital_of_keyword hkeyword rfl) h
      · next hkeyword =>
        exact literal_sound hfirst .null (Token.capital_of_keyword hkeyword rfl) h
      · next keyword _ _ _ _ hkeyword =>
        split at h
        · exact absurd h not_reads_failAt
        · next hreserved =>
          exact hnamed (by simp [Token.reserved?, Token.keyword?, hkeyword, hreserved]) h
      · next hkeyword =>
        exact hnamed (by simp [Token.reserved?, Token.keyword?, hkeyword]) h

theorem named_sound : ∀ {budget : Nat} {ts rest : List Located} {name : Ident} {e : Expr},
    AllLexed ts → name.IsName → Reads (named budget name) ts e rest →
      ∃ used, ts = used ++ rest ∧ name.token :: capitals used = e.tokens ∧
        (∀ level, e.Grouped level) ∧ e.Leaves (nextLevel rest)
  | 0, _, _, _, _, _, _, h => absurd h not_reads_outOfBudget
  | budget + 1, ts, rest, name, e, hlexed, hname, h => by
    rw [named] at h
    simp only [↓reads_ifSign, reads_bind, reads_expectSign, reads_pure] at h
    obtain ⟨t, _, ht, rfl, ⟨u, _, hu, rfl, rfl, rfl⟩ |
      ⟨-, args, _, hargs, _, _, ⟨u, hu, rfl⟩, rfl, rfl⟩⟩ | ⟨-, others, _, hothers, h⟩ := h
    · refine ⟨[t, u], rfl, ?_, fun level => ⟨hname, trivial⟩, trivial⟩
      rw [capitals_cons, capitals_cons, ht, hu]
      rfl
    · obtain ⟨used, rfl, hused, -, hgrouped⟩ := arguments_sound hlexed.tail hargs
      refine ⟨t :: (used ++ [u]), by simp, ?_, fun level => ⟨hname, hgrouped⟩, trivial⟩
      rw [capitals_cons, capitals_append, capitals_cons, ht, hused, hu]
      rfl
    · obtain ⟨used, rfl, hused, hnames⟩ := parses_dottedTail.sound hlexed hothers
      have hcapitals := capitals_of_names hused (reserved?_of_mem_tailTokens hnames)
      split at h
      · obtain ⟨rfl, rfl⟩ := reads_pure.mp h
        exact ⟨used, rfl, by rw [hcapitals]; rfl, fun level => hname, trivial⟩
      · next hne =>
        obtain ⟨rfl, rfl⟩ := reads_pure.mp h
        refine ⟨used, rfl, by rw [hcapitals]; rfl, fun level => ⟨?_, ?_⟩, trivial⟩
        · have := List.length_pos_iff.mpr hne
          rw [List.length_cons]
          omega
        · simpa [hname] using hnames

theorem arguments_sound : ∀ {budget : Nat} {ts rest : List Located} {args : Args}, AllLexed ts →
    Reads (arguments budget) ts args rest →
      ∃ used, ts = used ++ rest ∧ capitals used = args.tokens ∧ args ≠ .nil ∧ args.Grouped
  | 0, _, _, _, _, h => absurd h not_reads_outOfBudget
  | budget + 1, ts, rest, args, hlexed, h => by
    rw [arguments] at h
    simp only [↓reads_ifSign, reads_bind, reads_pure] at h
    obtain ⟨t, _, ht, rfl, ⟨u, _, hu, rfl, others, _, hothers, rfl, rfl⟩ | ⟨-, rfl, rfl⟩⟩ |
      ⟨-, first, _, hfirst, ⟨u, _, hu, rfl, others, _, hothers, rfl, rfl⟩ | ⟨-, rfl, rfl⟩⟩ := h
    · obtain ⟨used, rfl, hused, hne, hgrouped⟩ := arguments_sound hlexed.tail.tail hothers
      refine ⟨t :: u :: used, rfl, ?_, nofun, hgrouped⟩
      rw [capitals_cons, capitals_cons, ht, hu, hused, Args.tokens_star hne]
      rfl
    · refine ⟨[t], rfl, ?_, nofun, trivial⟩
      rw [capitals_cons, ht]
      rfl
    · obtain ⟨used, rfl, hused, hgroupedFirst, -, -⟩ := exprAt_sound hlexed hfirst
      obtain ⟨more, rfl, hmore, hne, hgrouped⟩ := arguments_sound hlexed.of_append.tail hothers
      refine ⟨used ++ u :: more, by simp, ?_, nofun, hgroupedFirst, hgrouped⟩
      rw [capitals_append, capitals_cons, hu, hused, hmore, Args.tokens_value hne]
      rfl
    · obtain ⟨used, rfl, hused, hfirst, -, -⟩ := exprAt_sound hlexed hfirst
      exact ⟨used, rfl, hused, nofun, hfirst, trivial⟩

theorem extend_sound : ∀ {budget level : Nat} {ts rest : List Located} {left e : Expr},
    AllLexed ts → left.Grouped level → left.Leaves (nextLevel ts) →
    Reads (extend budget level left) ts e rest →
      ∃ used, ts = used ++ rest ∧ left.tokens ++ capitals used = e.tokens ∧ e.Grouped level ∧
        e.Leaves (nextLevel rest) ∧ nextLevel rest ≤ level
  | 0, _, _, _, _, _, _, _, _, h => absurd h not_reads_outOfBudget
  | budget + 1, level, ts, rest, left, e, hlexed, hgrouped, hleaves, h => by
    rcases Nat.lt_or_ge level (nextLevel ts) with hlt | hle
    · obtain ⟨t, following, extension, rfl, ht, hlevel⟩ := exists_extension hlt
      rw [nextLevel_cons following ht] at hleaves
      replace h := (reads_extend_of_lt ht hlevel).mp h
      cases extension with
      | isNull =>
        obtain ⟨negated, used, middle, heq, hused, hnext⟩ := h
        rw [heq] at hlexed ⊢
        have hnew : (Expr.isNull left negated).Grouped level := ⟨hlevel, hgrouped, hleaves⟩
        obtain ⟨more, rfl, hmore, hresult⟩ := extend_sound hlexed.of_append hnew trivial hnext
        refine ⟨used ++ more, (List.append_assoc _ _ _).symm, ?_, hresult⟩
        rw [← hmore, capitals_append, hused, ← List.append_assoc]
        rfl
      | binary op =>
        obtain ⟨right, middle, hright, hnext⟩ := h
        obtain ⟨used, rfl, hused, hrightGrouped, hrightLeaves, hrightLevel⟩ :=
          exprAt_sound hlexed.tail hright
        have hnew : (Expr.binary left op right).Grouped level :=
          ⟨hlevel, hgrouped, hleaves, hrightGrouped⟩
        obtain ⟨more, rfl, hmore, hresult⟩ := extend_sound hlexed.tail.of_append hnew
          ⟨hrightLevel, hrightLeaves⟩ hnext
        refine ⟨t :: (used ++ more), by simp, ?_, hresult⟩
        rw [← hmore, capitals_cons, capitals_append, ht, hused]
        simp [Expr.tokens, Extension.token]
    · obtain ⟨rfl, rfl⟩ := (reads_extend_of_le hle).mp h
      exact ⟨[], rfl, List.append_nil _, hgrouped, hleaves, hle⟩

end

/-! ## What is grouped is read -/

theorem operand_literal {t : Located} {value : Literal} (ht : t.token.capital = value.token) :
    Reads (operand (budget + 1)) (t :: rest) (.literal value) rest := by
  rw [operand, reads_next_bind]
  have hkeyword {keyword : Keyword} (h : t.token.capital = keyword.token) :=
    Token.exists_word (Token.keyword?_of_capital h)
  match value, ht with
  | .number digits, ht | .string digits, ht =>
    rw [Token.eq_of_capital ht rfl]
    exact reads_pure.mpr ⟨rfl, rfl⟩
  | .boolean true, ht | .boolean false, ht | .null, ht =>
    obtain ⟨w, hw, hkeyword⟩ := hkeyword ht
    rw [hw]
    dsimp only
    rw [hkeyword]
    exact reads_pure.mpr ⟨rfl, rfl⟩

theorem operand_unary {t : Located} {op : UnaryOp} {operand : Expr}
    (ht : t.token.capital = op.token)
    (h : Reads (exprAt budget op.level) ts operand rest) :
    Reads (Parser.operand (budget + 1)) (t :: ts) (.unary op operand) rest := by
  rw [Parser.operand, reads_next_bind]
  cases op with
  | minus | plus =>
    rw [Token.eq_of_capital ht rfl]
    exact reads_bind.mpr ⟨operand, rest, h, reads_pure.mpr ⟨rfl, rfl⟩⟩
  | not =>
    obtain ⟨w, hw, hkeyword⟩ := Token.exists_word (Token.keyword?_of_capital ht)
    rw [hw]
    dsimp only
    rw [hkeyword]
    exact reads_bind.mpr ⟨operand, rest, h, reads_pure.mpr ⟨rfl, rfl⟩⟩

theorem operand_nested {t u : Located} {inner : Expr} (ht : t.token = .sign .leftParen)
    (hu : u.token = .sign .rightParen) (h : Reads (exprAt budget 0) ts inner (u :: rest)) :
    Reads (operand (budget + 1)) (t :: ts) (.nested inner) rest := by
  rw [operand, reads_next_bind]
  rw [ht]
  exact reads_bind.mpr ⟨inner, u :: rest, h, reads_bind.mpr
    ⟨(), rest, reads_expectSign.mpr ⟨u, hu, rfl⟩, reads_pure.mpr ⟨rfl, rfl⟩⟩⟩

theorem operand_named {t : Located} {name : Ident} (ht : t.token = name.token)
    (hname : name.IsName) (h : Reads (named budget name) ts e rest) :
    Reads (operand (budget + 1)) (t :: ts) e rest := by
  rw [operand, reads_next_bind]
  rw [ht]
  have hfree := hname.2
  unfold Ident.token at hfree ⊢
  generalize name.keyword? = found at hfree
  cases found with
  | none => exact h
  | some keyword =>
    cases keyword
    case TABLES | COLUMNS | DESC => exact h
    all_goals cases hfree

/-- Enough of a budget to read an expression leaves enough to read on. Every token takes three steps
at most: as an operand, as a name, and as the first of the arguments. -/
def ReadsThen (budget level : Nat) (used rest : List Located) (e : Expr) : Prop :=
  3 * used.length ≤ budget → ∃ left, budget + 3 ≤ left + 3 * used.length ∧
    ∀ {out : Expr} {last : List Located}, Reads (extend left level e) rest out last →
      Reads (exprAt (budget + 1) level) (used ++ rest) out last

theorem ReadsThen.reads {used : List Located} (h : ReadsThen budget level used rest e)
    (hbudget : 3 * used.length ≤ budget) (hlevel : nextLevel rest ≤ level) :
    Reads (exprAt (budget + 1) level) (used ++ rest) e rest := by
  obtain ⟨left, hleft, hnext⟩ := h hbudget
  obtain ⟨left, rfl⟩ : ∃ n, left = n + 1 := ⟨left - 1, by omega⟩
  exact hnext ((reads_extend_of_le hlevel).mpr ⟨rfl, rfl⟩)

theorem readsThen_of_operand {used : List Located} (hne : used ≠ [])
    (h : ∀ left, 3 * used.length ≤ left + 3 → Reads (operand (left + 3)) (used ++ rest) e rest) :
    ReadsThen budget level used rest e := by
  intro hbudget
  have := List.length_pos_iff.mpr hne
  obtain ⟨left, rfl⟩ : ∃ n, budget = n + 3 := ⟨budget - 3, by omega⟩
  refine ⟨left + 3, by omega, fun hnext => ?_⟩
  rw [exprAt, reads_bind]
  exact ⟨e, rest, h left hbudget, hnext⟩

/-- A comma or closing parenthesis ends an expression. -/
theorem delimits {s : Sign} (hs : s = .comma ∨ s = .rightParen) {u : Located}
    (hu : u.token = .sign s) (rest : List Located) :
    nextLevel (u :: rest) = 0 ∧ Stops Token.NamesOn (tokensOf (u :: rest)) := by
  rw [nextLevel_eq_zero_iff, stops_tokensOf_cons, hu]
  rcases hs with rfl | rfl
  · exact ⟨fun t ht => by cases ht; rw [hu]; rfl, by rintro (h | h) <;> cases h⟩
  · exact ⟨fun t ht => by cases ht; rw [hu]; rfl, by rintro (h | h) <;> cases h⟩

theorem named_call_nil {name : Ident} {t u : Located} (ht : t.token = .sign .leftParen)
    (hu : u.token = .sign .rightParen) :
    Reads (named (budget + 1) name) (t :: u :: rest) (.call name .nil) rest := by
  rw [named]
  simp only [↓reads_ifSign]
  exact .inl ⟨t, u :: rest, ht, rfl, .inl ⟨u, rest, hu, rfl, reads_pure.mpr ⟨rfl, rfl⟩⟩⟩

theorem named_call {name : Ident} {args : Args} {t u : Located} (ht : t.token = .sign .leftParen)
    (hu : u.token = .sign .rightParen) (hstops : Stops (· = .sign .rightParen) (tokensOf ts))
    (h : Reads (arguments budget) ts args (u :: rest)) :
    Reads (named (budget + 1) name) (t :: ts) (.call name args) rest := by
  rw [named]
  simp only [↓reads_ifSign, reads_bind, reads_expectSign]
  exact .inl ⟨t, ts, ht, rfl, .inr ⟨hstops, args, _, h, (), rest, ⟨u, hu, rfl⟩,
    reads_pure.mpr ⟨rfl, rfl⟩⟩⟩

theorem named_ident {name : Ident} (hstops : Stops Token.NamesOn (tokensOf rest)) :
    Reads (named (budget + 1) name) rest (.ident name) rest := by
  have hnone : Tail [] (tokensOf []) := ⟨rfl, fun name hname => nomatch hname⟩
  have htail : Reads dottedTail rest [] rest :=
    parses_dottedTail.complete hnone (hstops.imp fun t ht => .inr ht)
  rw [named]
  simp only [↓reads_ifSign, reads_bind]
  exact .inr ⟨hstops.imp fun t ht => .inl ht, [], rest, htail, reads_pure.mpr ⟨rfl, rfl⟩⟩

theorem named_qualified {name other : Ident} {others : List Ident} {used : List Located}
    (hused : Tail (other :: others) (tokensOf used)) (hstops : Stops Token.NamesOn (tokensOf rest)) :
    Reads (named (budget + 1) name) (used ++ rest) (.qualified (name :: other :: others)) rest := by
  have htail := parses_dottedTail.complete hused (hstops.imp fun t ht => .inr ht)
  obtain ⟨t, used, rfl, ht, -⟩ := tokensOf_eq_cons.mp hused.1
  rw [named]
  simp only [↓reads_ifSign, reads_bind]
  refine .inr ⟨stops_tokensOf_cons.mpr ?_, _, rest, htail, reads_pure.mpr ⟨rfl, rfl⟩⟩
  rw [ht]
  exact nofun

theorem arguments_star {t : Located} (ht : t.token = .sign .star)
    (hstops : Stops (· = .sign .comma) (tokensOf ts)) :
    Reads (arguments (budget + 1)) (t :: ts) (.star .nil) ts := by
  rw [arguments]
  simp only [↓reads_ifSign]
  exact .inl ⟨t, ts, ht, rfl, .inr ⟨hstops, reads_pure.mpr ⟨rfl, rfl⟩⟩⟩

theorem arguments_star_comma {t u : Located} {others : Args} (ht : t.token = .sign .star)
    (hu : u.token = .sign .comma) (h : Reads (arguments budget) ts others rest) :
    Reads (arguments (budget + 1)) (t :: u :: ts) (.star others) rest := by
  rw [arguments]
  simp only [↓reads_ifSign, reads_bind]
  exact .inl ⟨t, u :: ts, ht, rfl, .inl ⟨u, ts, hu, rfl, others, rest, h,
    reads_pure.mpr ⟨rfl, rfl⟩⟩⟩

theorem arguments_value {arg : Expr} (hstar : Stops (· = .sign .star) (tokensOf ts))
    (h : Reads (exprAt budget 0) ts arg rest) (hstops : Stops (· = .sign .comma) (tokensOf rest)) :
    Reads (arguments (budget + 1)) ts (.value arg .nil) rest := by
  rw [arguments]
  simp only [↓reads_ifSign, reads_bind]
  exact .inr ⟨hstar, arg, rest, h, .inr ⟨hstops, reads_pure.mpr ⟨rfl, rfl⟩⟩⟩

theorem arguments_value_comma {arg : Expr} {others : Args} {u : Located} {following : List Located}
    (hstar : Stops (· = .sign .star) (tokensOf ts))
    (h : Reads (exprAt budget 0) ts arg (u :: following)) (hu : u.token = .sign .comma)
    (hothers : Reads (arguments budget) following others rest) :
    Reads (arguments (budget + 1)) ts (.value arg others) rest := by
  rw [arguments]
  simp only [↓reads_ifSign, reads_bind]
  exact .inr ⟨hstar, arg, _, h, .inl ⟨u, following, hu, rfl, others, rest, hothers,
    reads_pure.mpr ⟨rfl, rfl⟩⟩⟩

mutual

theorem exprAt_complete : ∀ (e : Expr) (budget : Nat) {level : Nat} {used rest : List Located},
    capitals used = e.tokens → e.Grouped level → e.Leaves (nextLevel rest) →
    Stops Token.NamesOn (tokensOf rest) → ReadsThen budget level used rest e
  | .ident name, budget, level, used, rest, hused, hgrouped, _, hstops => by
    obtain ⟨t, rfl, ht⟩ := List.map_eq_singleton_iff.mp hused
    refine readsThen_of_operand (List.cons_ne_nil _ _) fun left hbudget => ?_
    exact operand_named (Token.eq_of_capital ht hgrouped.2) hgrouped (named_ident hstops)
  | .qualified parts, budget, level, used, rest, hused, hgrouped, _, hstops => by
    obtain ⟨hlength, hnames⟩ := hgrouped
    match parts, hlength with
    | name :: other :: others, _ =>
      obtain ⟨t, used, rfl, ht, hothers⟩ := List.map_eq_cons_iff.mp hused
      have hname := hnames name List.mem_cons_self
      have htail : ∀ part ∈ other :: others, part.IsName :=
        fun part hpart => hnames part (List.mem_cons_of_mem name hpart)
      refine readsThen_of_operand (List.cons_ne_nil _ _) fun left hbudget => ?_
      refine operand_named (Token.eq_of_capital ht hname.2) hname (named_qualified ?_ hstops)
      exact ⟨tokensOf_of_capitals hothers (reserved?_of_mem_tailTokens htail), htail⟩
  | .literal value, budget, level, used, rest, hused, _, _, _ => by
    obtain ⟨t, rfl, ht⟩ := List.map_eq_singleton_iff.mp hused
    exact readsThen_of_operand (List.cons_ne_nil _ _) fun left hbudget => operand_literal ht
  | .unary op operand, budget, level, used, rest, hused, hgrouped, hleaves, hstops => by
    obtain ⟨t, used, rfl, ht, hoperand⟩ := List.map_eq_cons_iff.mp hused
    refine readsThen_of_operand (List.cons_ne_nil _ _) fun left hbudget => ?_
    rw [List.length_cons] at hbudget
    have hreads := exprAt_complete operand (left + 1) hoperand hgrouped hleaves.2 hstops
    exact operand_unary ht (hreads.reads (by omega) hleaves.1)
  | .binary left op right, budget, level, used, rest, hused, hgrouped, hleaves, hstops => by
    obtain ⟨first, others, rfl, hfirst, hothers⟩ := List.map_eq_append_iff.mp hused
    obtain ⟨t, others, rfl, ht, hothers⟩ := List.map_eq_cons_iff.mp hothers
    intro hbudget
    obtain ⟨hlevel, hleft, hleftLeaves, hright⟩ := hgrouped
    simp only [List.length_append, List.length_cons] at hbudget ⊢
    replace ht : t.token.capital = (Extension.binary op).token := ht
    have hleftReads : ReadsThen budget level first (t :: (others ++ rest)) left :=
      exprAt_complete left budget hfirst hleft (by rwa [nextLevel_cons _ ht])
        (stops_tokensOf_cons.mpr (not_namesOn_of_extension ht))
    -- the loop that read the left operand goes on, with what it has left, and finds the operator
    obtain ⟨afterLeft, hafterLeft, hnext⟩ := hleftReads (by omega)
    obtain ⟨budgetRight, rfl⟩ : ∃ n, afterLeft = n + 1 + 1 := ⟨afterLeft - 2, by omega⟩
    have hrightReads := exprAt_complete right budgetRight hothers hright hleaves.2 hstops
    refine ⟨budgetRight + 1, by omega, fun hout => ?_⟩
    rw [List.append_assoc, List.cons_append]
    exact hnext ((reads_extend_of_lt ht hlevel).mpr
      ⟨right, rest, hrightReads.reads (by omega) hleaves.1, hout⟩)
  | .isNull operand negated, budget, level, used, rest, hused, hgrouped, _, hstops => by
    obtain ⟨first, others, rfl, hfirst, hothers⟩ := List.map_eq_append_iff.mp hused
    obtain ⟨t, nulls, rfl, ht⟩ := exists_cons_of_null hothers
    intro hbudget
    obtain ⟨hlevel, hoperand, hoperandLeaves⟩ := hgrouped
    simp only [List.length_append, List.length_cons] at hbudget ⊢
    have hoperandReads : ReadsThen budget level first (t :: (nulls ++ rest)) operand :=
      exprAt_complete operand budget hfirst hoperand (by rwa [nextLevel_cons _ ht])
        (stops_tokensOf_cons.mpr (not_namesOn_of_extension ht))
    obtain ⟨left, hleft, hnext⟩ := hoperandReads (by omega)
    obtain ⟨left, rfl⟩ : ∃ n, left = n + 1 := ⟨left - 1, by omega⟩
    refine ⟨left, by omega, fun hout => ?_⟩
    rw [List.append_assoc, List.cons_append]
    exact hnext ((reads_extend_of_lt ht hlevel).mpr ⟨negated, t :: nulls, rest, rfl, hothers, hout⟩)
  | .call function args, budget, level, used, rest, hused, hgrouped, _, _ => by
    obtain ⟨t, used, rfl, ht, hused⟩ := List.map_eq_cons_iff.mp hused
    obtain ⟨open_, used, rfl, hopen, hused⟩ := List.map_eq_cons_iff.mp hused
    obtain ⟨inner, last, rfl, hinner, hlast⟩ := List.map_eq_append_iff.mp hused
    obtain ⟨u, rfl, hu⟩ := List.map_eq_singleton_iff.mp hlast
    obtain ⟨hname, hargs⟩ := hgrouped
    rw [Token.capital_sign] at hopen hu
    refine readsThen_of_operand (List.cons_ne_nil _ _) fun left hbudget => ?_
    simp only [List.length_append, List.length_cons, List.length_nil] at hbudget
    refine operand_named (Token.eq_of_capital ht hname.2) hname ?_
    by_cases hnil : args = .nil
    · subst hnil
      cases List.map_eq_nil_iff.mp hinner
      exact named_call_nil hopen hu
    · obtain ⟨token, others, htokens, hne⟩ := Args.exists_first hnil hargs
      have hclose : Stops (· = .sign .rightParen) (tokensOf (inner ++ u :: rest)) :=
        stops_sign_of_capitals (hinner.trans htokens) hne
      have hreads : Reads (arguments (left + 1)) (inner ++ u :: rest) args (u :: rest) :=
        arguments_complete args hnil hinner hargs hu (by omega)
      change Reads _ (open_ :: (inner ++ [u] ++ rest)) _ _
      rw [List.append_assoc]
      exact named_call hopen hu hclose hreads
  | .nested inner, budget, level, used, rest, hused, hgrouped, _, _ => by
    obtain ⟨t, used, rfl, ht, hused⟩ := List.map_eq_cons_iff.mp hused
    obtain ⟨used, last, rfl, hinner, hlast⟩ := List.map_eq_append_iff.mp hused
    obtain ⟨u, rfl, hu⟩ := List.map_eq_singleton_iff.mp hlast
    rw [Token.capital_sign] at ht hu
    refine readsThen_of_operand (List.cons_ne_nil _ _) fun left hbudget => ?_
    simp only [List.length_append, List.length_cons, List.length_nil] at hbudget
    obtain ⟨hlevel, hdelimits⟩ := delimits (.inr rfl) hu rest
    have hreads := exprAt_complete inner (left + 1) hinner hgrouped
      (hlevel ▸ inner.leaves_zero) hdelimits
    rw [List.cons_append, List.append_assoc]
    exact operand_nested ht hu (hreads.reads (by omega) (Nat.le_of_eq hlevel))

theorem arguments_complete : ∀ (args : Args) {budget : Nat} {used rest : List Located} {u : Located},
    args ≠ .nil → capitals used = args.tokens → args.Grouped → u.token = .sign .rightParen →
    3 * used.length + 1 ≤ budget → Reads (arguments (budget + 1)) (used ++ u :: rest) args (u :: rest)
  | .nil, _, _, _, _, hne, _, _, _, _ => absurd rfl hne
  | .star others, budget, used, rest, u, _, hused, hgrouped, hu, hbudget => by
    by_cases hnil : others = .nil
    · subst hnil
      obtain ⟨t, rfl, ht⟩ := List.map_eq_singleton_iff.mp hused
      exact arguments_star (Token.capital_sign.mp ht) (stops_tokensOf_cons.mpr (by simp [hu]))
    · rw [Args.tokens_star hnil] at hused
      obtain ⟨t, used, rfl, ht, hused⟩ := List.map_eq_cons_iff.mp hused
      obtain ⟨v, used, rfl, hv, hused⟩ := List.map_eq_cons_iff.mp hused
      simp only [List.length_cons] at hbudget
      obtain ⟨budget, rfl⟩ : ∃ n, budget = n + 1 := ⟨budget - 1, by omega⟩
      exact arguments_star_comma (Token.capital_sign.mp ht) (Token.capital_sign.mp hv)
        (arguments_complete others hnil hused hgrouped hu (by omega))
  | .value arg others, budget, used, rest, u, _, hused, hgrouped, hu, hbudget => by
    obtain ⟨token, following, htokens, hfirst⟩ := Expr.exists_first hgrouped.1
    have hne : token ≠ .sign .star := by
      rintro rfl
      simpa using hfirst.1 _ rfl
    obtain ⟨budget, rfl⟩ : ∃ n, budget = n + 1 := ⟨budget - 1, by omega⟩
    by_cases hnil : others = .nil
    · subst hnil
      change capitals used = arg.tokens at hused
      obtain ⟨hlevel, hdelimits⟩ := delimits (.inr rfl) hu rest
      have harg := exprAt_complete arg budget hused hgrouped.1
        (hlevel ▸ arg.leaves_zero) hdelimits
      exact arguments_value (stops_sign_of_capitals (hused.trans htokens) hne)
        (harg.reads (by omega) (Nat.le_of_eq hlevel)) (stops_tokensOf_cons.mpr (by simp [hu]))
    · rw [Args.tokens_value hnil] at hused
      obtain ⟨first, more, rfl, hfirstUsed, hmore⟩ := List.map_eq_append_iff.mp hused
      obtain ⟨v, more, rfl, hv, hmore⟩ := List.map_eq_cons_iff.mp hmore
      rw [Token.capital_sign] at hv
      simp only [List.length_append, List.length_cons] at hbudget
      obtain ⟨hlevel, hdelimits⟩ := delimits (.inl rfl) hv (more ++ u :: rest)
      have harg := exprAt_complete arg budget hfirstUsed hgrouped.1
        (hlevel ▸ arg.leaves_zero) hdelimits
      rw [List.append_assoc, List.cons_append]
      exact arguments_value_comma (stops_sign_of_capitals (hfirstUsed.trans htokens) hne)
        (harg.reads (by omega) (Nat.le_of_eq hlevel)) hv
        (arguments_complete others hnil hmore hgrouped.2 hu (by omega))

end

/-! ## Expressions -/

theorem expr_sound (hlexed : AllLexed ts) (h : Reads expr ts e rest) :
    ∃ used, ts = used ++ rest ∧ capitals used = e.tokens ∧ e.Grouped 0 ∧ nextLevel rest = 0 := by
  obtain ⟨used, heq, hused, hgrouped, -, hlevel⟩ := exprAt_sound hlexed (reads_get_bind.mp h)
  exact ⟨used, heq, hused, hgrouped, Nat.le_zero.mp hlevel⟩

/-- Three steps for each token are enough for every expression. -/
theorem expr_complete {used : List Located} (hused : capitals used = e.tokens)
    (hgrouped : e.Grouped 0) (hlevel : nextLevel rest = 0)
    (hstops : Stops Token.NamesOn (tokensOf rest)) : Reads expr (used ++ rest) e rest := by
  have hreads := exprAt_complete e (3 * (used ++ rest).length + 2) hused hgrouped
    (hlevel ▸ e.leaves_zero) hstops
  refine reads_get_bind.mpr (hreads.reads ?_ (Nat.le_of_eq hlevel))
  rw [List.length_append]
  omega

/-- **The parser of expressions reads exactly the grouped expressions, from their tokens.** -/
theorem parses_expr : Parses expr Expr.Spelled Token.GoesOn where
  sound {ts rest e} hlexed h := by
    obtain ⟨used, heq, hused, hgrouped, -⟩ := expr_sound hlexed h
    refine ⟨used, heq, ?_, hgrouped⟩
    rw [← hused, capitals_eq]
  complete {used rest e} h hstops := by
    obtain ⟨hused, hgrouped⟩ := h
    rw [← capitals_eq] at hused
    refine expr_complete hused hgrouped ?_ (hstops.imp fun t ht => .inr ht)
    refine nextLevel_eq_zero_iff.mpr fun t ht => ?_
    obtain ⟨rest, rfl⟩ := List.head?_eq_some_iff.mp ht
    exact Classical.not_not.mp fun hsome => stops_tokensOf_cons.mp hstops (.inl hsome)

end Parser
end SqlPipeline.Sql
