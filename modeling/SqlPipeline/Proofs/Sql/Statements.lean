import SqlPipeline.Proofs.Sql.StatementGrammar

/-!
# Reading statements

The parsers of the clauses and statements against their grammar: each `parses_` theorem says that
what a parser reads was spelled by the tokens it took, and that it reads whatever is spelled. They
end in `Parser.parses_statement`, by which a statement is the same before a semicolon as at the end
of a text.
-/

namespace SqlPipeline.Sql.Parser

variable {ts rest : List Located}

/-! ## Select lists -/

theorem starredName?_sound : ∀ {ts rest : List Located} {names : List Ident}, AllLexed ts →
    starredName? ts = some (names, rest) →
      ∃ used, ts = used ++ rest ∧ tokensOf used = dottedTokens names ++ [.sign .period, .sign .star] ∧
        names ≠ [] ∧ ∀ name ∈ names, name.IsName
  | [], _, _, _, h | [_], _, _, _, h => by cases h
  | t :: period :: ts, rest, names, hlexed, h => by
    rw [starredName?] at h
    split at h
    · cases h
    next name hident =>
    obtain ⟨htoken, hname⟩ := (identOf_eq_ok_iff (hlexed t List.mem_cons_self)).mp hident
    split at h
    case isFalse => cases h
    next hperiod =>
    split at h
    case h_2 => cases h
    next star others =>
    split at h
    · next hstar =>
      cases h
      refine ⟨[t, period, star], rfl, ?_, List.cons_ne_nil _ _, ?_⟩
      · simp [htoken, hperiod, hstar, dottedTokens, tailTokens]
      · exact fun other hother => List.mem_singleton.mp hother ▸ hname
    · obtain ⟨⟨following, last⟩, hfollowing, heq⟩ := Option.map_eq_some_iff.mp h
      cases heq
      obtain ⟨used, heq, hused, hne, hnames⟩ := starredName?_sound hlexed.tail.tail hfollowing
      obtain ⟨first, following, rfl⟩ := List.exists_cons_of_ne_nil hne
      refine ⟨t :: period :: used, by rw [heq]; rfl, ?_, List.cons_ne_nil _ _, ?_⟩
      · rw [tokensOf_cons, tokensOf_cons, hused, htoken, hperiod]
        rfl
      · simpa [hname] using hnames

theorem starredName?_complete : ∀ {names : List Ident} {name : Ident} {used rest : List Located},
    tokensOf used = dottedTokens (name :: names) ++ [.sign .period, .sign .star] →
    (∀ part ∈ name :: names, part.IsName) →
    starredName? (used ++ rest) = some (name :: names, rest)
  | [], name, used, rest, hused, hnames => by
    obtain ⟨t, used, rfl, htoken, hused⟩ := tokensOf_eq_cons.mp hused
    obtain ⟨period, used, rfl, hperiod, hused⟩ := tokensOf_eq_cons.mp hused
    obtain ⟨star, rfl, hstar⟩ := tokensOf_eq_singleton.mp hused
    change starredName? (t :: period :: star :: rest) = _
    rw [starredName?, identOf_of_name htoken (hnames name List.mem_cons_self)]
    simp [hperiod, hstar]
  | other :: names, name, used, rest, hused, hnames => by
    obtain ⟨t, used, rfl, htoken, hused⟩ := tokensOf_eq_cons.mp hused
    obtain ⟨period, used, rfl, hperiod, hused⟩ := tokensOf_eq_cons.mp hused
    have hothers : ∀ part ∈ other :: names, part.IsName :=
      fun part hpart => hnames part (List.mem_cons_of_mem name hpart)
    have hrec : starredName? (used ++ rest) = some (other :: names, rest) :=
      starredName?_complete hused hothers
    obtain ⟨u, used, rfl, hu, -⟩ := tokensOf_eq_cons.mp hused
    change starredName? (t :: period :: u :: (used ++ rest)) = _
    rw [starredName?, identOf_of_name htoken (hnames name List.mem_cons_self)]
    dsimp only
    rw [if_pos hperiod, if_neg (by rw [hu]; exact nofun)]
    change (starredName? (u :: used ++ rest)).map _ = _
    rw [hrec]
    rfl

/-- A name that no period follows is no starred one. -/
theorem starredName?_of_stops {t : Located} (h : Stops (· = .sign .period) (tokensOf ts)) :
    starredName? (t :: ts) = none := by
  cases ts with
  | nil => rfl
  | cons u ts =>
    rw [starredName?]
    split
    · rfl
    · rw [if_neg (stops_tokensOf_cons.mp h)]

/-- A dotted name without a star is no starred one. -/
theorem starredName?_dotted : ∀ {names : List Ident} {t : Located} {used rest : List Located},
    Tail names (tokensOf used) → Stops (· = .sign .period) (tokensOf rest) →
      starredName? (t :: (used ++ rest)) = none
  | [], t, used, rest, ⟨hused, _⟩, hstops => by
    cases tokensOf_eq_nil.mp hused
    exact starredName?_of_stops hstops
  | name :: names, t, used, rest, ⟨hused, hnames⟩, hstops => by
    obtain ⟨period, used, rfl, hperiod, hused⟩ := tokensOf_eq_cons.mp hused
    obtain ⟨u, used, rfl, hu, hused⟩ := tokensOf_eq_cons.mp hused
    have htail : Tail names (tokensOf used) :=
      ⟨hused, fun part hpart => hnames part (List.mem_cons_of_mem name hpart)⟩
    change starredName? (t :: period :: u :: (used ++ rest)) = none
    rw [starredName?]
    split
    · rfl
    · dsimp only
      rw [if_pos hperiod, if_neg (by rw [hu]; exact nofun), starredName?_dotted htail hstops]
      rfl

theorem stops_period {e : Expr} {level : Nat} {used : List Located} (hused : capitals used = e.tokens)
    (hgrouped : e.Grouped level) : Stops (· = .sign .period) (tokensOf (used ++ rest)) := by
  obtain ⟨token, others, htokens, hfirst⟩ := Expr.exists_first hgrouped
  refine stops_sign_of_capitals (hused.trans htokens) ?_
  rintro rfl
  simpa using hfirst.1 _ rfl

/-- An expression is no starred name. -/
theorem starredName?_expr : ∀ {e : Expr} {level : Nat} {used rest : List Located},
    capitals used = e.tokens → e.Grouped level → Stops (· = .sign .period) (tokensOf rest) →
      starredName? (used ++ rest) = none
  | .ident _, _, _, rest, hused, _, hstops | .literal _, _, _, rest, hused, _, hstops => by
    obtain ⟨t, rfl, -⟩ := List.map_eq_singleton_iff.mp hused
    exact starredName?_of_stops hstops
  | .qualified (name :: others), _, used, rest, hused, hgrouped, hstops => by
    obtain ⟨t, used, rfl, -, hused⟩ := List.map_eq_cons_iff.mp hused
    have hnames : ∀ part ∈ others, part.IsName :=
      fun part hpart => hgrouped.2 part (List.mem_cons_of_mem name hpart)
    exact starredName?_dotted
      ⟨tokensOf_of_capitals hused (reserved?_of_mem_tailTokens hnames), hnames⟩ hstops
  | .qualified [], _, _, _, _, hgrouped, _ => by cases hgrouped.1
  | .unary op operand, level, used, rest, hused, hgrouped, hstops => by
    obtain ⟨t, used, rfl, -, hused⟩ := List.map_eq_cons_iff.mp hused
    exact starredName?_of_stops (stops_period hused hgrouped)
  | .binary left op right, level, used, rest, hused, hgrouped, hstops => by
    obtain ⟨first, others, rfl, hfirst, hothers⟩ := List.map_eq_append_iff.mp hused
    obtain ⟨t, others, rfl, ht, -⟩ := List.map_eq_cons_iff.mp hothers
    replace ht : t.token.capital = (Extension.binary op).token := ht
    rw [List.append_assoc]
    exact starredName?_expr hfirst hgrouped.2.1
      (stops_tokensOf_cons.mpr fun h => not_namesOn_of_extension ht (.inr h))
  | .isNull operand negated, level, used, rest, hused, hgrouped, hstops => by
    obtain ⟨first, others, rfl, hfirst, hothers⟩ := List.map_eq_append_iff.mp hused
    obtain ⟨t, others, rfl, ht⟩ := exists_cons_of_null hothers
    rw [List.append_assoc]
    exact starredName?_expr hfirst hgrouped.2.1
      (stops_tokensOf_cons.mpr fun h => not_namesOn_of_extension ht (.inr h))
  | .call function args, level, used, rest, hused, hgrouped, hstops => by
    obtain ⟨t, used, rfl, -, hused⟩ := List.map_eq_cons_iff.mp hused
    obtain ⟨u, used, rfl, hu, -⟩ := List.map_eq_cons_iff.mp hused
    refine starredName?_of_stops (stops_tokensOf_cons.mpr ?_)
    rw [Token.capital_sign.mp hu]
    exact nofun
  | .nested inner, level, used, rest, hused, hgrouped, hstops => by
    obtain ⟨t, used, rfl, -, hused⟩ := List.map_eq_cons_iff.mp hused
    obtain ⟨inside, last, rfl, hinside, -⟩ := List.map_eq_append_iff.mp hused
    refine starredName?_of_stops ?_
    change Stops _ (tokensOf (inside ++ last ++ rest))
    rw [List.append_assoc]
    exact stops_period hinside hgrouped

theorem not_goesOn_of_names {t : Token} (h : t.Names) : ¬t.GoesOn := by
  have hword : ∃ w : Word, t = .word w ∧ Extension.ofToken? t = none := by
    rcases h with h | ⟨w, rfl, hw⟩
    · obtain ⟨w, rfl, hw⟩ := Token.exists_word h
      refine ⟨w, rfl, ?_⟩
      unfold Extension.ofToken?
      dsimp only
      rw [hw]
    · refine ⟨w, rfl, ?_⟩
      unfold Extension.ofToken?
      dsimp only
      rw [hw]
  obtain ⟨w, rfl, hnone⟩ := hword
  rintro (hsome | h | h)
  · exact hsome hnone
  · cases h
  · cases h

/-- Another name starts with a token that does not go on with an expression. -/
theorem stops_aliased {name : Option Ident} {tokens others : List Token} (h : Aliased name tokens)
    (hstops : Stops Token.Aliases others) : Stops Token.GoesOn (tokens ++ others) := by
  cases h with
  | none => exact hstops.imp fun t ht => .inl ht
  | as ht => exact stops_cons.mpr (not_goesOn_of_names (.inl ht))
  | plain hname hplain => exact stops_cons.mpr (not_goesOn_of_names (.inr ⟨_, rfl, hplain⟩))

theorem selectItem_named {value : Expr} {name : Option Ident} {used : List Located}
    (h : Reads expr ts value used) (hname : Reads alias? used name rest)
    (hstar : Stops (· = .sign .star) (tokensOf ts)) (hstarred : starredName? ts = none) :
    Reads selectItem ts (.named value name) rest := by
  unfold selectItem
  rw [reads_ifSign]
  refine .inr ⟨hstar, ?_⟩
  rw [reads_get_bind, hstarred]
  refine reads_bind.mpr ⟨value, used, h, reads_bind.mpr ⟨name, rest, hname, ?_⟩⟩
  cases name <;> exact reads_pure.mpr ⟨rfl, rfl⟩

theorem selectItem_allOf {names : List Ident} (hstar : Stops (· = .sign .star) (tokensOf ts))
    (h : starredName? ts = some (names, rest)) :
    Reads selectItem ts (.allOf ⟨names⟩) rest := by
  unfold selectItem
  rw [reads_ifSign]
  refine .inr ⟨hstar, ?_⟩
  rw [reads_get_bind, h]
  exact reads_pure.mpr ⟨rfl, rfl⟩

theorem parses_selectItem : Parses selectItem SelectItem.Spelled Token.Aliases where
  sound {ts rest item} hlexed h := by
    unfold selectItem at h
    simp only [↓reads_ifSign, reads_get_bind, reads_pure] at h
    obtain ⟨t, _, ht, rfl, rfl, rfl⟩ | ⟨-, h⟩ := h
    · refine ⟨[t], rfl, ?_⟩
      rw [tokensOf_cons, ht]
      exact .all
    · -- all columns of a table are told from an expression by the tokens up to the star
      cases hstarred : starredName? ts with
      | some found =>
        obtain ⟨names, last⟩ := found
        rw [hstarred] at h
        replace h : Reads (pure (.allOf ⟨names⟩)) last item rest := h
        obtain ⟨rfl, rfl⟩ := reads_pure.mp h
        obtain ⟨used, rfl, hused, hne, hnames⟩ := starredName?_sound hlexed hstarred
        refine ⟨used, rfl, ?_⟩
        rw [hused]
        exact .allOf ⟨rfl, hne, hnames⟩
      | none =>
        rw [hstarred] at h
        obtain ⟨value, _, hvalue, h⟩ := reads_bind.mp h
        obtain ⟨name, last, hname, h⟩ := reads_bind.mp h
        obtain ⟨used, rfl, hused⟩ := parses_expr.sound hlexed hvalue
        obtain ⟨others, rfl, hothers⟩ := parses_alias?.sound hlexed.of_append hname
        have hitem : SelectItem.named value name = item ∧ last = rest := by
          cases name <;> exact reads_pure.mp h
        obtain ⟨rfl, rfl⟩ := hitem
        refine ⟨used ++ others, (List.append_assoc _ _ _).symm, ?_⟩
        rw [tokensOf_append]
        exact .named hused hothers
  complete {used rest item} h hstops := by
    generalize hused : tokensOf used = tokens at h
    cases h with
    | all =>
      obtain ⟨t, rfl, ht⟩ := tokensOf_eq_singleton.mp hused
      exact reads_ifSign.mpr (.inl ⟨t, rest, ht, rfl, reads_pure.mpr ⟨rfl, rfl⟩⟩)
    | @allOf table tokens h =>
      obtain ⟨rfl, hne, hnames⟩ := h
      obtain ⟨name, names, hparts⟩ := List.exists_cons_of_ne_nil hne
      rw [hparts] at hused hnames
      have hstarred : starredName? (used ++ rest) = some (name :: names, rest) :=
        starredName?_complete hused hnames
      obtain ⟨t, used, rfl, ht, -⟩ := tokensOf_eq_cons.mp hused
      rw [← hparts] at hstarred
      exact selectItem_allOf (stops_tokensOf_cons.mpr (by simp [ht, Ident.token])) hstarred
    | @named value name tokens others h hname =>
      obtain ⟨first, last, rfl, rfl, rfl⟩ := tokensOf_eq_append.mp hused
      have hfollow : Stops Token.GoesOn (tokensOf (last ++ rest)) := by
        rw [tokensOf_append]
        exact stops_aliased hname hstops
      have hstar : Stops (· = .sign .star) (tokensOf (first ++ (last ++ rest))) := by
        obtain ⟨t, others, heq, ht⟩ := h.exists_first
        rw [tokensOf_append, heq]
        refine stops_cons.mpr ?_
        rintro rfl
        simpa using ht.1 _ rfl
      have hstarred : starredName? (first ++ (last ++ rest)) = none :=
        starredName?_expr ((capitals_eq first).trans h.1) h.2
          (hfollow.imp fun t ht => .inr (.inr ht))
      rw [List.append_assoc]
      exact selectItem_named (parses_expr.complete h hfollow)
        (parses_alias?.complete hname (hstops.imp fun t ht => .inr ht)) hstar hstarred

/-! ## Tables and joins -/

theorem parses_tableRef : Parses tableRef TableRef.Spelled Token.Aliases where
  sound {ts rest table} hlexed h := by
    simp only [tableRef, reads_bind, reads_pure] at h
    obtain ⟨name, _, hname, label, _, halias, rfl, rfl⟩ := h
    obtain ⟨used, rfl, hused⟩ := parses_objectName.sound hlexed hname
    obtain ⟨others, rfl, hothers⟩ := parses_alias?.sound hlexed.of_append halias
    refine ⟨used ++ others, (List.append_assoc _ _ _).symm, ?_⟩
    rw [tokensOf_append]
    exact .mk hused hothers
  complete {used rest table} h hstops := by
    generalize hused : tokensOf used = tokens at h
    obtain ⟨hname, halias⟩ := h
    obtain ⟨first, last, rfl, rfl, rfl⟩ := tokensOf_eq_append.mp hused
    have hfollow : Stops (· = .sign .period) (tokensOf (last ++ rest)) := by
      rw [tokensOf_append]
      exact (stops_aliased halias hstops).imp fun t ht => .inr (.inr ht)
    have hnameReads := parses_objectName.complete hname hfollow
    have haliasReads := parses_alias?.complete halias (hstops.imp fun t ht => .inr ht)
    rw [List.append_assoc]
    simp only [tableRef, reads_bind, reads_pure]
    exact ⟨_, _, hnameReads, _, _, haliasReads, rfl, rfl⟩

/-- A choice by whether keywords come next. -/
theorem reads_ifKeywords {α : Type} {words : List Keyword} {p q : Parser α} {a : α} :
    Reads (do if ← keywords? words then p else q) ts a rest ↔
      if ((tokensOf ts).map Token.keyword?).take words.length = words.map some then
        Reads p (ts.drop words.length) a rest
      else Reads q ts a rest := by
  have htest : (words.map some == (ts.take words.length).map (·.token.keyword?)) = true ↔
      ((tokensOf ts).map Token.keyword?).take words.length = words.map some := by
    rw [beq_iff_eq, tokensOf, List.map_map, ← List.map_take, eq_comm]
    rfl
  rw [keywords?, bind_assoc, reads_get_bind]
  split
  · next h =>
    rw [if_pos (htest.mp h)]
    rfl
  · next h =>
    rw [if_neg fun hwords => h (htest.mpr hwords)]
    rfl

theorem joinKind?_sound {found : Option JoinKind} (h : Reads joinKind? ts found rest) :
    found = none ∧ ts = rest ∨ ∃ kind used, found = some kind ∧ ts = used ++ rest ∧
      kind.Spelled (tokensOf used) := by
  have htake {words : List Keyword} {kind : JoinKind} (hmem : words ∈ kind.words)
      (hwords : ((tokensOf ts).map Token.keyword?).take words.length = words.map some)
      (h : Reads (pure (some kind)) (ts.drop words.length) found rest) :
      ∃ kind used, found = some kind ∧ ts = used ++ rest ∧ kind.Spelled (tokensOf used) := by
    obtain ⟨rfl, rfl⟩ := reads_pure.mp h
    refine ⟨kind, ts.take words.length, rfl, (List.take_append_drop _ _).symm, words, hmem, ?_⟩
    rwa [tokensOf, List.map_take, List.map_take]
  unfold joinKind? at h
  simp only [↓reads_ifKeywords] at h
  split at h
  · next hwords => exact .inr (htake (by decide) hwords h)
  split at h
  · next hwords => exact .inr (htake (by decide) hwords h)
  split at h
  · next hwords => exact .inr (htake (by decide) hwords h)
  split at h
  · next hwords => exact .inr (htake (by decide) hwords h)
  · obtain ⟨rfl, rfl⟩ := reads_pure.mp h
    exact .inl ⟨rfl, rfl⟩

theorem joinKind?_none (h : Stops Token.JoinsOn (tokensOf rest)) :
    Reads joinKind? rest none rest := by
  unfold joinKind?
  simp only [↓reads_ifKeywords]
  cases rest with
  | nil => simp [reads_pure]
  | cons t rest =>
    have hother := stops_tokensOf_cons.mp h
    have hjoin : t.token.keyword? ≠ some .JOIN := fun h => hother (.inr (.inl h))
    have hinner : t.token.keyword? ≠ some .INNER := fun h => hother (.inr (.inr (.inl h)))
    have hleft : t.token.keyword? ≠ some .LEFT := fun h => hother (.inr (.inr (.inr h)))
    simp [hjoin, hinner, hleft, reads_pure]

theorem joinKind?_some {kind : JoinKind} {used : List Located} (h : kind.Spelled (tokensOf used)) :
    Reads joinKind? (used ++ rest) (some kind) rest := by
  obtain ⟨words, hmem, hwords⟩ := h
  have hdrop : (used ++ rest).drop words.length = rest := by
    have hlength := congrArg List.length hwords
    rw [List.length_map, List.length_map, length_tokensOf] at hlength
    rw [← hlength, List.drop_left]
  have hall : (tokensOf (used ++ rest)).map Token.keyword? =
      words.map some ++ (tokensOf rest).map Token.keyword? := by
    rw [tokensOf_append, List.map_append, hwords]
  unfold joinKind?
  simp only [↓reads_ifKeywords, hall]
  generalize (tokensOf rest).map Token.keyword? = others
  cases kind
  all_goals
    simp only [JoinKind.words, List.mem_cons, List.not_mem_nil, or_false] at hmem
    rcases hmem with rfl | rfl
    all_goals simpa [reads_pure] using hdrop

theorem joinsWithin_sound : ∀ {budget : Nat} {ts rest : List Located} {joins : List Join},
    AllLexed ts → Reads (joinsWithin budget) ts joins rest →
      ∃ used, ts = used ++ rest ∧ Joins joins (tokensOf used)
  | 0, _, _, _, _, h => absurd h not_reads_outOfBudget
  | budget + 1, ts, rest, joins, hlexed, h => by
    rw [joinsWithin, reads_bind] at h
    obtain ⟨found, _, hkind, h⟩ := h
    obtain ⟨rfl, rfl⟩ | ⟨kind, words, rfl, rfl, hwords⟩ := joinKind?_sound hkind
    · obtain ⟨rfl, rfl⟩ := reads_pure.mp h
      exact ⟨[], rfl, .nil⟩
    · simp only [reads_bind, reads_expectKeyword, reads_pure] at h
      obtain ⟨table, _, htable, _, _, ⟨t, ht, rfl⟩, on, _, hon, others, _, hothers, rfl, rfl⟩ := h
      obtain ⟨used, rfl, hused⟩ := parses_tableRef.sound hlexed.of_append htable
      obtain ⟨condition, rfl, hcondition⟩ :=
        parses_expr.sound hlexed.of_append.of_append.tail hon
      obtain ⟨more, rfl, hmore⟩ :=
        joinsWithin_sound hlexed.of_append.of_append.tail.of_append hothers
      refine ⟨words ++ (used ++ t :: condition) ++ more, by simp, ?_⟩
      simp only [tokensOf_append, tokensOf_cons]
      have hjoin : Join.Spelled ⟨kind, table, on⟩ (tokensOf words ++
          (tokensOf used ++ t.token :: tokensOf condition)) := .mk hwords hused ht hcondition
      exact .cons hjoin hmore

/-- A join starts with a keyword, which ends what stands before it. -/
theorem stops_join {join : Join} {tokens others : List Token} (h : join.Spelled tokens) :
    Stops Token.Aliases (tokens ++ others) := by
  obtain ⟨⟨words, hmem, hwords⟩, -, -, -⟩ := h
  obtain ⟨keyword, others, hkeywords, hother⟩ : ∃ keyword others, words = keyword :: others ∧
      keyword ∉ [.AND, .OR, .IS, .AS] := by
    cases hkind : join.kind
    all_goals
      simp only [hkind, JoinKind.words, List.mem_cons, List.not_mem_nil, or_false] at hmem
      rcases hmem with rfl | rfl <;> exact ⟨_, _, rfl, by decide⟩
  rw [hkeywords] at hwords
  obtain ⟨t, tokens, rfl, ht, -⟩ := List.map_eq_cons_iff.mp hwords
  exact stops_cons.mpr (Token.not_aliases_of_keyword ht hother)

/-- What follows a table in a FROM clause does not make more of its name. -/
theorem stops_joins {joins : List Join} {tokens others : List Token} (h : Joins joins tokens)
    (hstops : Stops Token.JoinsOn others) : Stops Token.Aliases (tokens ++ others) := by
  cases h with
  | nil => exact hstops.imp fun t ht => .inl ht
  | cons h =>
    rw [List.append_assoc]
    exact stops_join h

theorem joinsWithin_complete {joins : List Join} {tokens : List Token} (h : Joins joins tokens)
    (hstops : Stops Token.JoinsOn (tokensOf rest)) :
    ∀ {budget : Nat} {used : List Located}, tokensOf used = tokens → joins.length < budget →
      Reads (joinsWithin budget) (used ++ rest) joins rest := by
  induction h with
  | nil =>
    intro budget used hused hbudget
    obtain ⟨budget, rfl⟩ : ∃ n, budget = n + 1 := ⟨budget - 1, by omega⟩
    cases tokensOf_eq_nil.mp hused
    rw [joinsWithin, reads_bind]
    exact ⟨none, rest, joinKind?_none hstops, reads_pure.mpr ⟨rfl, rfl⟩⟩
  | @cons join joins tokens others h hjoins ih =>
    intro budget used hused hbudget
    obtain ⟨budget, rfl⟩ : ∃ n, budget = n + 1 := ⟨budget - 1, by omega⟩
    obtain ⟨first, more, rfl, hfirst, hmore⟩ := tokensOf_eq_append.mp hused
    obtain ⟨hkind, htable, ht, hon⟩ := h
    obtain ⟨words, first, rfl, rfl, hafterWords⟩ := tokensOf_eq_append.mp hfirst
    obtain ⟨table, first, rfl, rfl, hafterTable⟩ := tokensOf_eq_append.mp hafterWords
    obtain ⟨t, condition, rfl, rfl, rfl⟩ := tokensOf_eq_cons.mp hafterTable
    have hfollow : Stops Token.GoesOn (tokensOf (more ++ rest)) := by
      rw [tokensOf_append, hmore]
      exact (stops_joins hjoins hstops).imp fun t ht => .inl ht
    have honReads := parses_expr.complete hon hfollow
    have htableReads : Reads tableRef (table ++ t :: (condition ++ (more ++ rest))) join.table
        (t :: (condition ++ (more ++ rest))) :=
      parses_tableRef.complete htable
        (stops_tokensOf_cons.mpr (Token.not_aliases_of_keyword ht (by decide)))
    have hothers := ih hmore (Nat.lt_of_succ_lt_succ hbudget)
    simp only [joinsWithin, reads_bind, List.append_assoc, List.cons_append]
    refine ⟨some join.kind, _, joinKind?_some hkind, ?_⟩
    simp only [reads_bind, reads_expectKeyword]
    exact ⟨join.table, _, htableReads, (), _, ⟨t, ht, rfl⟩, join.on, _, honReads, joins, rest,
      hothers, reads_pure.mpr ⟨rfl, rfl⟩⟩

/-- Each join has a keyword of its own. -/
theorem length_joins {joins : List Join} {tokens : List Token} (h : Joins joins tokens) :
    joins.length ≤ tokens.length := by
  induction h with
  | nil => exact Nat.le_refl _
  | cons h _ ih =>
    obtain ⟨-, -, -, -⟩ := h
    simp only [List.length_cons, List.length_append]
    omega

theorem parses_fromClause : Parses fromClause From.Spelled Token.JoinsOn where
  sound {ts rest source} hlexed h := by
    simp only [fromClause, reads_bind, ↓reads_get_bind, reads_pure] at h
    obtain ⟨table, _, htable, joins, _, hjoins, rfl, rfl⟩ := h
    obtain ⟨used, rfl, hused⟩ := parses_tableRef.sound hlexed htable
    obtain ⟨more, rfl, hmore⟩ := joinsWithin_sound hlexed.of_append hjoins
    refine ⟨used ++ more, (List.append_assoc _ _ _).symm, ?_⟩
    rw [tokensOf_append]
    exact .mk hused hmore
  complete {used rest source} h hstops := by
    generalize hused : tokensOf used = tokens at h
    obtain ⟨htable, hjoins⟩ := h
    obtain ⟨first, more, rfl, rfl, rfl⟩ := tokensOf_eq_append.mp hused
    have hfollow : Stops Token.Aliases (tokensOf (more ++ rest)) := by
      rw [tokensOf_append]
      exact stops_joins hjoins hstops
    have htableReads := parses_tableRef.complete htable hfollow
    have hjoinsReads : Reads (joinsWithin ((more ++ rest).length + 1)) (more ++ rest) source.joins
        rest := by
      refine joinsWithin_complete hjoins hstops rfl ?_
      have hlength := length_joins hjoins
      rw [length_tokensOf] at hlength
      rw [List.length_append]
      omega
    rw [List.append_assoc]
    simp only [fromClause, reads_bind, ↓reads_get_bind]
    exact ⟨_, _, htableReads, _, _, hjoinsReads, reads_pure.mpr ⟨rfl, rfl⟩⟩

/-! ## Clauses of a select -/

theorem not_goesOn_comma : ¬(Token.sign .comma).GoesOn :=
  fun h => Token.not_joinsOn_of_sign (.inl rfl) (.inl (.inl h))

theorem parses_groupBy : Parses groupBy Groups fun t =>
    t.JoinsOn ∨ t = .sign .comma ∨ t.keyword? = some .GROUP where
  sound {ts rest groups} hlexed h := by
    unfold groupBy at h
    rw [reads_ifKeywords] at h
    split at h
    · next hwords =>
      match ts, hwords, hlexed, h with
      | t :: u :: ts, hwords, hlexed, h =>
        simp only [tokensOf_cons, List.map_cons, List.length_cons, List.length_nil,
          List.take_succ_cons, List.take_zero, List.map_nil, List.cons.injEq] at hwords
        obtain ⟨used, rfl, hused⟩ :=
          (parses_commaList parses_expr not_goesOn_comma).sound hlexed.tail.tail h
        exact ⟨t :: u :: used, rfl, .some hwords.1 hwords.2.1 hused⟩
    · obtain ⟨rfl, rfl⟩ := reads_pure.mp h
      exact ⟨[], rfl, .none⟩
  complete {used rest groups} h hstops := by
    generalize hused : tokensOf used = tokens at h
    unfold groupBy
    rw [reads_ifKeywords]
    cases h with
    | none =>
      cases tokensOf_eq_nil.mp hused
      rw [if_neg, reads_pure]
      · exact ⟨rfl, rfl⟩
      · cases rest with
        | nil => exact nofun
        | cons t rest =>
          have ht : t.token.keyword? ≠ some .GROUP :=
            fun h => stops_tokensOf_cons.mp hstops (.inr (.inr h))
          simp [ht]
    | @some t u groups tokens ht hu h =>
      obtain ⟨t, used, rfl, rfl, hafter⟩ := tokensOf_eq_cons.mp hused
      obtain ⟨u, used, rfl, rfl, rfl⟩ := tokensOf_eq_cons.mp hafter
      rw [if_pos (by simp [ht, hu])]
      refine (parses_commaList parses_expr not_goesOn_comma).complete h (hstops.imp fun t ht => ?_)
      rcases ht with ht | ht
      · exact .inl (.inl (.inl ht))
      · exact .inr (.inl ht)

theorem parses_distinct : Parses (keyword? .DISTINCT) Distinct (·.keyword? = some .DISTINCT) where
  sound {ts rest found} _ h := by
    rw [← bind_pure (keyword? .DISTINCT)] at h
    obtain ⟨t, left, ht, rfl, hfound⟩ | ⟨-, hfound⟩ := reads_keyword?_bind.mp h
    · obtain ⟨rfl, rfl⟩ := reads_pure.mp hfound
      exact ⟨[t], rfl, .distinct ht⟩
    · obtain ⟨rfl, rfl⟩ := reads_pure.mp hfound
      exact ⟨[], rfl, .all⟩
  complete {used rest found} h hstops := by
    generalize hused : tokensOf used = tokens at h
    rw [← bind_pure (keyword? .DISTINCT)]
    cases h with
    | all =>
      cases tokensOf_eq_nil.mp hused
      exact reads_keyword?_bind.mpr (.inr ⟨hstops, reads_pure.mpr ⟨rfl, rfl⟩⟩)
    | distinct ht =>
      obtain ⟨t, rfl, rfl⟩ := tokensOf_eq_singleton.mp hused
      exact reads_keyword?_bind.mpr (.inl ⟨t, rest, ht, rfl, reads_pure.mpr ⟨rfl, rfl⟩⟩)

theorem not_aliases_comma : ¬(Token.sign .comma).Aliases :=
  fun h => Token.not_joinsOn_of_sign (.inl rfl) (.inl h)

theorem parses_items : Parses (commaList selectItem) (Listed SelectItem.Spelled)
    fun t => t.Aliases ∨ t = .sign .comma :=
  parses_commaList parses_selectItem not_aliases_comma

theorem stops_items {items : List SelectItem} {tokens others : List Token}
    (h : Listed SelectItem.Spelled items tokens) :
    Stops (·.keyword? = some .DISTINCT) (tokens ++ others) := by
  cases h with
  | one h => exact h.stops_distinct
  | cons h =>
    rw [List.append_assoc]
    exact h.stops_distinct

/-- A select is read before a target as well, unless the target could be its own. -/
theorem reads_select {found : Select} {used rest : List Located}
    (h : found.Spelled (tokensOf used)) (hrest : Closed [.INTO] (tokensOf rest))
    (hbare : found.IsBare → Closed [] (tokensOf rest)) :
    Reads select (used ++ rest) found rest := by
  generalize hused : tokensOf used = tokens at h
  obtain ⟨hdistinct, hitems, hinto, hsource, hcondition, hgroups, hhaving⟩ := h
  obtain ⟨distinct, left₁, rfl, rfl, h₁⟩ := tokensOf_eq_append.mp hused
  obtain ⟨items, left₂, rfl, rfl, h₂⟩ := tokensOf_eq_append.mp h₁
  obtain ⟨into, left₃, rfl, rfl, h₃⟩ := tokensOf_eq_append.mp h₂
  obtain ⟨source, left₄, rfl, rfl, h₄⟩ := tokensOf_eq_append.mp h₃
  obtain ⟨condition, left₅, rfl, rfl, h₅⟩ := tokensOf_eq_append.mp h₄
  obtain ⟨groups, having, rfl, rfl, rfl⟩ := tokensOf_eq_append.mp h₅
  -- from the last clause to the first, each closes what stands before it
  have hendGroups : Closed [.HAVING, .INTO] (tokensOf (having ++ rest)) := by
    rw [tokensOf_append]
    exact hhaving.closed hrest
  have hendCondition : Closed [.GROUP, .HAVING, .INTO] (tokensOf (groups ++ (having ++ rest))) := by
    rw [tokensOf_append]
    exact hgroups.closed hendGroups
  have hendSource : Closed [.WHERE, .GROUP, .HAVING, .INTO]
      (tokensOf (condition ++ (groups ++ (having ++ rest)))) := by
    rw [tokensOf_append]
    exact hcondition.closed hendCondition
  -- a target is read only right after the items
  have hendInto : Closed [.FROM, .WHERE, .GROUP, .HAVING]
      (tokensOf (source ++ (condition ++ (groups ++ (having ++ rest))))) := by
    simp only [tokensOf_append]
    exact hsource.closed_of_none fun hsource => hcondition.closed_of_none fun hcondition =>
      hgroups.closed_of_nil fun hgroups => hhaving.closed_of_none fun hhaving =>
        hbare ⟨hsource, hcondition, hgroups, hhaving⟩
  have hendItems : Closed [.INTO, .FROM, .WHERE, .GROUP, .HAVING]
      (tokensOf (into ++ (source ++ (condition ++ (groups ++ (having ++ rest)))))) := by
    rw [tokensOf_append]
    exact hinto.closed hendInto
  have hendDistinct : Stops (·.keyword? = some .DISTINCT)
      (tokensOf (items ++ (into ++ (source ++ (condition ++ (groups ++ (having ++ rest))))))) := by
    rw [tokensOf_append]
    exact stops_items hitems
  simp only [select, reads_bind, List.append_assoc]
  exact ⟨_, _, parses_distinct.complete hdistinct hendDistinct,
    _, _, parses_items.complete hitems (hendItems.stops_list (by decide) fun t => .inl),
    _, _, (parses_clause? parses_objectName .INTO).complete hinto
      (hendInto.stops_clause _ (by decide) fun t => Token.joinsOn_of_period),
    _, _, (parses_clause? parses_fromClause .FROM).complete hsource
      (hendSource.stops_clause _ (by decide) fun t ht => ht),
    _, _, (parses_clause? parses_expr .WHERE).complete hcondition
      (hendCondition.stops_clause _ (by decide) fun t => Token.GoesOn.joinsOn),
    _, _, parses_groupBy.complete hgroups (hendGroups.stops _ (by decide)),
    _, _, (parses_clause? parses_expr .HAVING).complete hhaving
      (hrest.stops_clause _ (by decide) fun t => Token.GoesOn.joinsOn),
    reads_pure.mpr ⟨rfl, rfl⟩⟩

theorem parses_select : Parses select Select.Spelled (· ≠ .sign .semicolon) where
  sound {ts rest found} hlexed h := by
    simp only [select, reads_bind, reads_pure] at h
    obtain ⟨distinct, _, hdistinct, items, _, hitems, into, _, hinto, source, _, hsource, condition,
      _, hcondition, groups, _, hgroups, having, _, hhaving, rfl, rfl⟩ := h
    obtain ⟨used₁, rfl, hdistinct'⟩ := parses_distinct.sound hlexed hdistinct
    replace hlexed := hlexed.of_append
    obtain ⟨used₂, rfl, hitems'⟩ := parses_items.sound hlexed hitems
    replace hlexed := hlexed.of_append
    obtain ⟨used₃, rfl, hinto'⟩ := (parses_clause? parses_objectName .INTO).sound hlexed hinto
    replace hlexed := hlexed.of_append
    obtain ⟨used₄, rfl, hsource'⟩ := (parses_clause? parses_fromClause .FROM).sound hlexed hsource
    replace hlexed := hlexed.of_append
    obtain ⟨used₅, rfl, hcondition'⟩ := (parses_clause? parses_expr .WHERE).sound hlexed hcondition
    replace hlexed := hlexed.of_append
    obtain ⟨used₆, rfl, hgroups'⟩ := parses_groupBy.sound hlexed hgroups
    replace hlexed := hlexed.of_append
    obtain ⟨used₇, rfl, hhaving'⟩ := (parses_clause? parses_expr .HAVING).sound hlexed hhaving
    refine ⟨used₁ ++ (used₂ ++ (used₃ ++ (used₄ ++ (used₅ ++ (used₆ ++ used₇))))),
      by simp only [List.append_assoc], ?_⟩
    simp only [tokensOf_append]
    exact .mk hdistinct' hitems' hinto' hsource' hcondition' hgroups' hhaving'
  complete h hstops :=
    reads_select h ((closed_of_stops hstops).cons .INTO) fun _ => closed_of_stops hstops

/-! ## Changes and other statements -/

theorem not_goesOn_rightParen : ¬(Token.sign .rightParen).GoesOn :=
  fun h => Token.not_joinsOn_of_sign (.inr (.inr rfl)) h.joinsOn

theorem parses_columns : Parses (parenthesized ident) (InParens (Listed Ident.Spelled)) fun _ => False :=
  parses_parenthesized parses_ident (fun h => h) fun h => h

theorem parses_rows : Parses (commaList (parenthesized expr))
    (Listed (InParens (Listed Expr.Spelled))) fun t => False ∨ t = .sign .comma :=
  parses_commaList (parses_parenthesized parses_expr not_goesOn_comma not_goesOn_rightParen)
    fun h => h

/-- The step that reads the columns of an insert if a parenthesis comes next. -/
theorem columns_sound {α : Type} {next : List Ident → Parser α} {a : α} (hlexed : AllLexed ts)
    (h : Reads (match ts.head? with
      | some ⟨.sign .leftParen, _⟩ => do
        let columns ← parenthesized ident
        next columns
      | _ => do
        let columns ← pure []
        next columns) ts a rest) :
    ∃ columns used middle, ts = used ++ middle ∧ Columns columns (tokensOf used) ∧
      Reads (next columns) middle a rest := by
  split at h
  · obtain ⟨columns, middle, hcolumns, hnext⟩ := reads_bind.mp h
    obtain ⟨used, rfl, hused⟩ := parses_columns.sound hlexed hcolumns
    exact ⟨columns, used, middle, rfl, .some hused, hnext⟩
  · obtain ⟨columns, middle, hcolumns, hnext⟩ := reads_bind.mp h
    obtain ⟨rfl, rfl⟩ := reads_pure.mp hcolumns
    exact ⟨[], [], ts, rfl, .none, hnext⟩

theorem columns_complete {α : Type} {next : List Ident → Parser α} {a : α} {columns : List Ident}
    {used middle : List Located} (h : Columns columns (tokensOf used))
    (hstops : Stops (· = .sign .leftParen) (tokensOf middle))
    (hnext : Reads (next columns) middle a rest) :
    Reads (match (used ++ middle).head? with
      | some ⟨.sign .leftParen, _⟩ => do
        let columns ← parenthesized ident
        next columns
      | _ => do
        let columns ← pure []
        next columns) (used ++ middle) a rest := by
  generalize hused : tokensOf used = tokens at h
  cases h with
  | none =>
    cases tokensOf_eq_nil.mp hused
    have hpure : Reads (pure [] : Parser (List Ident)) middle [] middle := reads_pure.mpr ⟨rfl, rfl⟩
    split
    · next offset hhead =>
      obtain ⟨others, rfl⟩ := List.head?_eq_some_iff.mp hhead
      exact absurd rfl (hstops (.sign .leftParen) rfl)
    · exact reads_bind.mpr ⟨[], middle, hpure, hnext⟩
  | some h =>
    subst hused
    have hcolumns : Reads (parenthesized ident) (used ++ middle) columns middle :=
      parses_columns.complete h fun _ _ h => h
    obtain ⟨t, others, rfl, ht⟩ : ∃ t others, used = t :: others ∧ t.token = .sign .leftParen := by
      generalize htokens : tokensOf used = tokens at h
      obtain ⟨-⟩ := h
      obtain ⟨t, others, rfl, ht, -⟩ := tokensOf_eq_cons.mp htokens
      exact ⟨t, others, rfl, ht⟩
    split
    · exact reads_bind.mpr ⟨columns, middle, hcolumns, hnext⟩
    · next hother =>
      obtain ⟨token, offset⟩ := t
      cases ht
      exact absurd rfl (hother offset)

theorem stops_columns {columns : List Ident} {tokens others : List Token}
    (h : Columns columns tokens) (hstops : Stops (· = .sign .period) others) :
    Stops (· = .sign .period) (tokens ++ others) := by
  cases h with
  | none => exact hstops
  | some h =>
    obtain ⟨-⟩ := h
    exact stops_cons.mpr nofun

theorem parses_insert : Parses insert Insert.Spelled (· ≠ .sign .semicolon) where
  sound {ts rest found} hlexed h := by
    simp only [insert, reads_bind (p := objectName), reads_bind (p := peek?), reads_peek?] at h
    obtain ⟨table, _, htable, _, _, ⟨rfl, rfl⟩, h⟩ := h
    obtain ⟨used₁, rfl, htable'⟩ := parses_objectName.sound hlexed htable
    replace hlexed := hlexed.of_append
    obtain ⟨columns, used₂, _, rfl, hcolumns, h⟩ := columns_sound hlexed h
    simp only [reads_bind, reads_expectKeyword, reads_pure] at h
    obtain ⟨_, _, ⟨t, ht, rfl⟩, rows, _, hrows, rfl, rfl⟩ := h
    obtain ⟨used₃, rfl, hrows'⟩ := parses_rows.sound hlexed.of_append.tail hrows
    refine ⟨used₁ ++ (used₂ ++ t :: used₃), by simp, ?_⟩
    simp only [tokensOf_append, tokensOf_cons]
    exact .mk htable' hcolumns ht hrows'
  complete {used rest found} h hstops := by
    generalize hused : tokensOf used = tokens at h
    obtain ⟨htable, hcolumns, ht, hrows⟩ := h
    obtain ⟨table, left₁, rfl, rfl, h₁⟩ := tokensOf_eq_append.mp hused
    obtain ⟨columns, left₂, rfl, rfl, h₂⟩ := tokensOf_eq_append.mp h₁
    obtain ⟨t, rows, rfl, rfl, rfl⟩ := tokensOf_eq_cons.mp h₂
    have hend := closed_of_stops hstops
    have hendTable : Stops (· = .sign .period) (tokensOf (columns ++ t :: (rows ++ rest))) := by
      rw [tokensOf_append]
      exact stops_columns hcolumns (stops_tokensOf_cons.mpr (Token.ne_sign_of_keyword ht))
    simp only [insert, reads_bind (p := objectName), reads_bind (p := peek?), reads_peek?,
      List.append_assoc, List.cons_append]
    refine ⟨_, _, parses_objectName.complete htable hendTable, _, _, ⟨rfl, rfl⟩, ?_⟩
    refine columns_complete hcolumns (stops_tokensOf_cons.mpr (Token.ne_sign_of_keyword ht)) ?_
    simp only [reads_bind, reads_expectKeyword]
    exact ⟨(), _, ⟨t, ht, rfl⟩, _, _, parses_rows.complete hrows
      (hend.stops_list (by decide) fun t h => h.elim), reads_pure.mpr ⟨rfl, rfl⟩⟩

theorem parses_assignment : Parses assignment Assignment.Spelled Token.GoesOn where
  sound {ts rest found} hlexed h := by
    simp only [assignment, reads_bind, reads_expectSign, reads_pure] at h
    obtain ⟨column, _, hcolumn, _, _, ⟨t, ht, rfl⟩, value, _, hvalue, rfl, rfl⟩ := h
    obtain ⟨used, rfl, hused, hname⟩ := parses_ident.sound hlexed hcolumn
    obtain ⟨more, rfl, hmore⟩ := parses_expr.sound hlexed.of_append.tail hvalue
    refine ⟨used ++ t :: more, by simp, ?_⟩
    rw [tokensOf_append, tokensOf_cons, hused, ht]
    exact .mk hname hmore
  complete {used rest found} h hstops := by
    generalize hused : tokensOf used = tokens at h
    obtain ⟨hcolumn, hvalue⟩ := h
    obtain ⟨name, left₁, rfl, hname, h₁⟩ := tokensOf_eq_cons.mp hused
    obtain ⟨t, value, rfl, ht, rfl⟩ := tokensOf_eq_cons.mp h₁
    have hident : Reads ident ([name] ++ t :: (value ++ rest)) found.column (t :: (value ++ rest)) :=
      parses_ident.complete ⟨congrArg (fun token => [token]) hname, hcolumn⟩ fun _ _ h => h
    simp only [assignment, reads_bind, reads_expectSign, List.cons_append]
    exact ⟨_, _, hident, (), _, ⟨t, ht, rfl⟩, _, _, parses_expr.complete hvalue hstops,
      reads_pure.mpr ⟨rfl, rfl⟩⟩

theorem parses_assignments : Parses (commaList assignment) (Listed Assignment.Spelled)
    fun t => t.GoesOn ∨ t = .sign .comma :=
  parses_commaList parses_assignment not_goesOn_comma

theorem parses_update : Parses update Update.Spelled (· ≠ .sign .semicolon) where
  sound {ts rest found} hlexed h := by
    simp only [update, reads_bind, reads_expectKeyword, reads_pure] at h
    obtain ⟨table, _, htable, _, _, ⟨t, ht, rfl⟩, assignments, _, hassignments, condition, _,
      hcondition, rfl, rfl⟩ := h
    obtain ⟨used₁, rfl, htable'⟩ := parses_objectName.sound hlexed htable
    replace hlexed := hlexed.of_append.tail
    obtain ⟨used₂, rfl, hassignments'⟩ := parses_assignments.sound hlexed hassignments
    replace hlexed := hlexed.of_append
    obtain ⟨used₃, rfl, hcondition'⟩ := (parses_clause? parses_expr .WHERE).sound hlexed hcondition
    refine ⟨used₁ ++ t :: (used₂ ++ used₃), by simp, ?_⟩
    simp only [tokensOf_append, tokensOf_cons]
    exact .mk htable' ht hassignments' hcondition'
  complete {used rest found} h hstops := by
    generalize hused : tokensOf used = tokens at h
    obtain ⟨htable, ht, hassignments, hcondition⟩ := h
    obtain ⟨table, left₁, rfl, rfl, h₁⟩ := tokensOf_eq_append.mp hused
    obtain ⟨t, left₂, rfl, rfl, h₂⟩ := tokensOf_eq_cons.mp h₁
    obtain ⟨assignments, condition, rfl, rfl, rfl⟩ := tokensOf_eq_append.mp h₂
    have hend := closed_of_stops hstops
    have hendAssignments : Closed [.WHERE] (tokensOf (condition ++ rest)) := by
      rw [tokensOf_append]
      exact hcondition.closed hend
    have hendTable : Stops (· = .sign .period)
        (tokensOf (t :: (assignments ++ (condition ++ rest)))) :=
      stops_tokensOf_cons.mpr (Token.ne_sign_of_keyword ht)
    simp only [update, reads_bind, reads_expectKeyword, List.append_assoc, List.cons_append]
    exact ⟨_, _, parses_objectName.complete htable hendTable,
      (), _, ⟨t, ht, rfl⟩,
      _, _, parses_assignments.complete hassignments
        (hendAssignments.stops_list (by decide) fun t => Token.GoesOn.joinsOn),
      _, _, (parses_clause? parses_expr .WHERE).complete hcondition
        (hend.stops_clause _ (by decide) fun t => Token.GoesOn.joinsOn),
      reads_pure.mpr ⟨rfl, rfl⟩⟩

theorem parses_delete : Parses delete Delete.Spelled (· ≠ .sign .semicolon) where
  sound {ts rest found} hlexed h := by
    simp only [delete, reads_bind, reads_pure] at h
    obtain ⟨table, _, htable, condition, _, hcondition, rfl, rfl⟩ := h
    obtain ⟨used₁, rfl, htable'⟩ := parses_objectName.sound hlexed htable
    obtain ⟨used₂, rfl, hcondition'⟩ :=
      (parses_clause? parses_expr .WHERE).sound hlexed.of_append hcondition
    refine ⟨used₁ ++ used₂, by simp, ?_⟩
    rw [tokensOf_append]
    exact .mk htable' hcondition'
  complete {used rest found} h hstops := by
    generalize hused : tokensOf used = tokens at h
    obtain ⟨htable, hcondition⟩ := h
    obtain ⟨table, condition, rfl, rfl, rfl⟩ := tokensOf_eq_append.mp hused
    have hend := closed_of_stops hstops
    have hendTable : Closed [.WHERE] (tokensOf (condition ++ rest)) := by
      rw [tokensOf_append]
      exact hcondition.closed hend
    simp only [delete, reads_bind, List.append_assoc]
    exact ⟨_, _, parses_objectName.complete htable (hendTable.stops_one (by decide) fun t => Token.joinsOn_of_period),
      _, _, (parses_clause? parses_expr .WHERE).complete hcondition
        (hend.stops_clause _ (by decide) fun t => Token.GoesOn.joinsOn),
      reads_pure.mpr ⟨rfl, rfl⟩⟩

theorem parses_showing : Parses showing Show.Spelled (· ≠ .sign .semicolon) where
  sound {ts rest found} hlexed h := by
    unfold showing at h
    simp only [↓reads_ifKeyword, reads_bind, reads_expectKeyword, reads_pure] at h
    obtain ⟨t, _, ht, rfl, rfl, rfl⟩ | ⟨htables, ⟨t, _, ht, rfl, _, _, ⟨u, hu, rfl⟩, table, _, htable,
      rfl, rfl⟩ | ⟨hcolumns, name, _, hname, rfl, rfl⟩⟩ := h
    · exact ⟨[t], rfl, .tables ht⟩
    · obtain ⟨used, rfl, hused⟩ := parses_objectName.sound hlexed.tail.tail htable
      exact ⟨t :: u :: used, rfl, .columns ht hu hused⟩
    · obtain ⟨used, rfl, hused, hname⟩ := parses_ident.sound hlexed hname
      rw [tokensOf_append, hused] at htables hcolumns
      refine ⟨used, rfl, ?_⟩
      rw [hused]
      exact .named hname (stops_cons.mp htables) (stops_cons.mp hcolumns)
  complete {used rest found} h hstops := by
    generalize hused : tokensOf used = tokens at h
    unfold showing
    simp only [↓reads_ifKeyword, reads_bind, reads_expectKeyword]
    cases h with
    | tables ht =>
      obtain ⟨t, rfl, rfl⟩ := tokensOf_eq_singleton.mp hused
      exact .inl ⟨t, rest, ht, rfl, reads_pure.mpr ⟨rfl, rfl⟩⟩
    | columns ht hu htable =>
      obtain ⟨t, left₁, rfl, rfl, h₁⟩ := tokensOf_eq_cons.mp hused
      obtain ⟨u, table, rfl, rfl, rfl⟩ := tokensOf_eq_cons.mp h₁
      have hstop : Stops (·.keyword? = some .TABLES) (tokensOf (t :: u :: table ++ rest)) :=
        stops_tokensOf_cons.mpr (by rw [ht]; decide)
      have hend := (closed_of_stops hstops).stops_one (by decide) fun t => Token.joinsOn_of_period
      exact .inr ⟨hstop, .inl ⟨t, _, ht, rfl, (), _, ⟨u, hu, rfl⟩, _, _,
        parses_objectName.complete htable hend, reads_pure.mpr ⟨rfl, rfl⟩⟩⟩
    | @named name hname htables hcolumns =>
      have hident : Reads ident (used ++ rest) name rest :=
        parses_ident.complete ⟨hused, hname⟩ fun _ _ h => h
      rw [tokensOf_append, hused]
      exact .inr ⟨stops_cons.mpr htables, .inr ⟨stops_cons.mpr hcolumns, name, rest, hident,
        reads_pure.mpr ⟨rfl, rfl⟩⟩⟩

theorem parses_setVariable : Parses setVariable SetVariable.Spelled (· ≠ .sign .semicolon) where
  sound {ts rest found} hlexed h := by
    simp only [setVariable, reads_bind, reads_expectSign, reads_pure] at h
    obtain ⟨name, _, hname, _, _, ⟨t, ht, rfl⟩, value, _, hvalue, rfl, rfl⟩ := h
    obtain ⟨used, rfl, hused⟩ := parses_objectName.sound hlexed hname
    obtain ⟨more, rfl, hmore⟩ := parses_expr.sound hlexed.of_append.tail hvalue
    refine ⟨used ++ t :: more, by simp, ?_⟩
    rw [tokensOf_append, tokensOf_cons, ht]
    exact .mk hused hmore
  complete {used rest found} h hstops := by
    generalize hused : tokensOf used = tokens at h
    obtain ⟨hname, hvalue⟩ := h
    obtain ⟨name, left₁, rfl, rfl, h₁⟩ := tokensOf_eq_append.mp hused
    obtain ⟨t, value, rfl, ht, rfl⟩ := tokensOf_eq_cons.mp h₁
    have hend := closed_of_stops hstops
    have hendName : Stops (· = .sign .period) (tokensOf (t :: (value ++ rest))) :=
      stops_tokensOf_cons.mpr (by rw [ht]; decide)
    simp only [setVariable, reads_bind, reads_expectSign, List.append_assoc, List.cons_append]
    exact ⟨_, _, parses_objectName.complete hname hendName, (), _, ⟨t, ht, rfl⟩,
      _, _, parses_expr.complete hvalue (hend.stops_one (by decide) fun t => Token.GoesOn.joinsOn),
      reads_pure.mpr ⟨rfl, rfl⟩⟩

/-! ## Statements -/

section Statement

variable {read : String → Except ParseError (List Statement)} {found : Statement}

/-- What follows PREPARE, after its word. -/
theorem prepare_sound (hlexed : AllLexed ts) (h : Reads (prepare read) ts found rest) {t : Token}
    (ht : t.keyword? = some .PREPARE) :
    ∃ used, ts = used ++ rest ∧ found.Spelled read (t :: tokensOf used) := by
  simp only [prepare, reads_bind, reads_expectKeyword, reads_next] at h
  obtain ⟨name, _, hname, _, _, ⟨u, hu, rfl⟩, v, _, rfl, h⟩ := h
  obtain ⟨used, rfl, hused, hname'⟩ := parses_ident.sound hlexed hname
  split at h
  · next sql hsql =>
    obtain ⟨statements, _, hlift, hnext⟩ := reads_bind.mp h
    obtain ⟨hread, rfl⟩ := reads_lift.mp hlift
    split at hnext
    · next statement =>
      obtain ⟨rfl, rfl⟩ := reads_pure.mp hnext
      refine ⟨used ++ [u, v], by simp, ?_⟩
      rw [tokensOf_append, hused, tokensOf_cons, tokensOf_cons, hsql]
      exact .prepare ht hname' hu hread
    · exact absurd hnext not_reads_failAt
  · exact absurd h not_reads_failAt

/-- What a parser reads, made into something else. -/
theorem Parses.sound_map {α β : Type} {p : Parser α} {Spelled : α → List Token → Prop}
    {GoesOn : Token → Prop} {make : α → β} {b : β} (hp : Parses p Spelled GoesOn)
    (hlexed : AllLexed ts) (h : Reads (do return make (← p)) ts b rest) :
    ∃ a used, b = make a ∧ ts = used ++ rest ∧ Spelled a (tokensOf used) := by
  obtain ⟨a, _, ha, hb⟩ := reads_bind.mp h
  obtain ⟨rfl, rfl⟩ := reads_pure.mp hb
  obtain ⟨used, rfl, hused⟩ := hp.sound hlexed ha
  exact ⟨a, used, rfl, rfl, hused⟩

/-- The same after a keyword. -/
theorem Parses.sound_after {α β : Type} {p : Parser α} {Spelled : α → List Token → Prop}
    {GoesOn : Token → Prop} {keyword : Keyword} {make : α → β} {b : β}
    (hp : Parses p Spelled GoesOn) (hlexed : AllLexed ts)
    (h : Reads (do expectKeyword keyword; return make (← p)) ts b rest) :
    ∃ u a used, u.token.keyword? = some keyword ∧ b = make a ∧ ts = u :: used ++ rest ∧
      Spelled a (tokensOf used) := by
  obtain ⟨_, _, hkeyword, hnext⟩ := reads_bind.mp h
  obtain ⟨u, hu, rfl⟩ := reads_expectKeyword.mp hkeyword
  obtain ⟨a, used, rfl, rfl, hused⟩ := hp.sound_map hlexed.tail hnext
  exact ⟨u, a, used, hu, rfl, rfl, hused⟩

theorem statement_sound (hlexed : AllLexed ts) (h : Reads (statement read) ts found rest) :
    ∃ used, ts = used ++ rest ∧ found.Spelled read (tokensOf used) := by
  rw [statement, reads_bind] at h
  obtain ⟨t, _, ht, h⟩ := h
  cases reads_next.mp ht
  replace hlexed := hlexed.tail
  -- a statement begins with a keyword that says which it is
  split at h
  · exact absurd h not_reads_failAt
  · next hselects =>
    obtain ⟨select, _, hselect, hnext⟩ := reads_bind.mp h
    obtain ⟨used, rfl, hused⟩ := parses_select.sound hlexed hselect
    split at hnext
    · next target hinto =>
      obtain ⟨rfl, rfl⟩ := reads_pure.mp hnext
      exact ⟨t :: used, rfl, .into hselects hused hinto⟩
    · next hinto =>
      obtain ⟨rfl, rfl⟩ := reads_pure.mp hnext
      exact ⟨t :: used, rfl, .select hselects hused hinto⟩
  · next hinserts =>
    obtain ⟨u, insert, used, hu, rfl, rfl, hused⟩ := parses_insert.sound_after hlexed h
    exact ⟨t :: u :: used, rfl, .insert hinserts hu hused⟩
  · next hupserts =>
    obtain ⟨u, insert, used, hu, rfl, rfl, hused⟩ := parses_insert.sound_after hlexed h
    exact ⟨t :: u :: used, rfl, .upsert hupserts hu hused⟩
  · next hupdates =>
    obtain ⟨update, used, rfl, rfl, hused⟩ := parses_update.sound_map hlexed h
    exact ⟨t :: used, rfl, .update hupdates hused⟩
  · next hdeletes =>
    obtain ⟨u, delete, used, hu, rfl, rfl, hused⟩ := parses_delete.sound_after hlexed h
    exact ⟨t :: u :: used, rfl, .delete hdeletes hu hused⟩
  · next hshows =>
    obtain ⟨what, used, rfl, rfl, hused⟩ := parses_showing.sound_map hlexed h
    exact ⟨t :: used, rfl, .showing hshows hused⟩
  · next hdescribes =>
    obtain ⟨table, used, rfl, rfl, hused⟩ := parses_objectName.sound_map hlexed h
    exact ⟨t :: used, rfl, .describe (.inl hdescribes) hused⟩
  · next hdesc =>
    obtain ⟨table, used, rfl, rfl, hused⟩ := parses_objectName.sound_map hlexed h
    exact ⟨t :: used, rfl, .describe (.inr hdesc) hused⟩
  · next hsets =>
    obtain ⟨change, used, rfl, rfl, hused⟩ := parses_setVariable.sound_map hlexed h
    exact ⟨t :: used, rfl, .set hsets hused⟩
  · next hprepares =>
    obtain ⟨used, rfl, hused⟩ := prepare_sound hlexed h hprepares
    exact ⟨t :: used, rfl, hused⟩
  · exact absurd h not_reads_failAt

theorem Parses.complete_map {α β : Type} {p : Parser α} {Spelled : α → List Token → Prop}
    {GoesOn : Token → Prop} {make : α → β} {a : α} {used : List Located} (hp : Parses p Spelled GoesOn)
    (h : Spelled a (tokensOf used)) (hstops : Stops GoesOn (tokensOf rest)) :
    Reads (do return make (← p)) (used ++ rest) (make a) rest :=
  reads_bind.mpr ⟨a, rest, hp.complete h hstops, reads_pure.mpr ⟨rfl, rfl⟩⟩

theorem Parses.complete_after {α β : Type} {p : Parser α} {Spelled : α → List Token → Prop}
    {GoesOn : Token → Prop} {keyword : Keyword} {make : α → β} {a : α} {u : Located}
    {used : List Located} (hp : Parses p Spelled GoesOn) (hu : u.token.keyword? = some keyword)
    (h : Spelled a (tokensOf used)) (hstops : Stops GoesOn (tokensOf rest)) :
    Reads (do expectKeyword keyword; return make (← p)) (u :: used ++ rest) (make a) rest :=
  reads_bind.mpr ⟨(), used ++ rest, reads_expectKeyword.mpr ⟨u, hu, rfl⟩,
    hp.complete_map h hstops⟩

theorem prepare_complete {t u v : Located} {name : Ident} {sql : String} (ht : t.token = name.token)
    (hname : name.IsName) (hu : u.token.keyword? = some .FROM) (hv : v.token = .string sql)
    (hread : read sql = .ok [found]) :
    Reads (prepare read) (t :: u :: v :: rest) (.prepare name sql found) rest := by
  have hident : Reads ident ([t] ++ u :: v :: rest) name (u :: v :: rest) :=
    parses_ident.complete ⟨congrArg (fun token => [token]) ht, hname⟩ fun _ _ h => h
  simp only [prepare, reads_bind, reads_expectKeyword, reads_next]
  refine ⟨name, _, hident, (), _, ⟨u, hu, rfl⟩, v, rest, rfl, ?_⟩
  rw [hv]
  exact reads_bind.mpr ⟨[found], rest, reads_lift.mpr ⟨hread, rfl⟩, reads_pure.mpr ⟨rfl, rfl⟩⟩

/-- The statement that starts with SELECT and has no target. -/
theorem reads_statement_select {t : Located} {found : Select} (ht : t.token.keyword? = some .SELECT)
    (h : Reads select ts found rest) (hinto : found.into = none) :
    Reads (statement read) (t :: ts) (.select found) rest := by
  refine reads_next_bind.mpr ?_
  rw [ht]
  refine reads_bind.mpr ⟨_, rest, h, ?_⟩
  rw [hinto]
  exact reads_pure.mpr ⟨rfl, rfl⟩

theorem statement_complete {used : List Located} (h : found.Spelled read (tokensOf used))
    (hstops : Stops (· ≠ .sign .semicolon) (tokensOf rest)) :
    Reads (statement read) (used ++ rest) found rest := by
  generalize hused : tokensOf used = tokens at h
  have hendName := (closed_of_stops hstops).stops_one (by decide) fun t => Token.joinsOn_of_period
  -- each statement is told by its first word
  cases h with
  | select ht h hinto =>
    obtain ⟨t, used, rfl, rfl, rfl⟩ := tokensOf_eq_cons.mp hused
    exact reads_statement_select ht (parses_select.complete h hstops) hinto
  | into ht h hinto =>
    obtain ⟨t, used, rfl, rfl, rfl⟩ := tokensOf_eq_cons.mp hused
    refine reads_next_bind.mpr ?_
    rw [ht]
    refine reads_bind.mpr ⟨_, rest, parses_select.complete h hstops, ?_⟩
    rw [hinto]
    exact reads_pure.mpr ⟨rfl, rfl⟩
  | insert ht hu h =>
    obtain ⟨t, left, rfl, rfl, hleft⟩ := tokensOf_eq_cons.mp hused
    obtain ⟨u, used, rfl, rfl, rfl⟩ := tokensOf_eq_cons.mp hleft
    refine reads_next_bind.mpr ?_
    rw [ht]
    exact parses_insert.complete_after hu h hstops
  | upsert ht hu h =>
    obtain ⟨t, left, rfl, rfl, hleft⟩ := tokensOf_eq_cons.mp hused
    obtain ⟨u, used, rfl, rfl, rfl⟩ := tokensOf_eq_cons.mp hleft
    refine reads_next_bind.mpr ?_
    rw [ht]
    exact parses_insert.complete_after hu h hstops
  | update ht h =>
    obtain ⟨t, used, rfl, rfl, rfl⟩ := tokensOf_eq_cons.mp hused
    refine reads_next_bind.mpr ?_
    rw [ht]
    exact parses_update.complete_map h hstops
  | delete ht hu h =>
    obtain ⟨t, left, rfl, rfl, hleft⟩ := tokensOf_eq_cons.mp hused
    obtain ⟨u, used, rfl, rfl, rfl⟩ := tokensOf_eq_cons.mp hleft
    refine reads_next_bind.mpr ?_
    rw [ht]
    exact parses_delete.complete_after hu h hstops
  | showing ht h =>
    obtain ⟨t, used, rfl, rfl, rfl⟩ := tokensOf_eq_cons.mp hused
    refine reads_next_bind.mpr ?_
    rw [ht]
    exact parses_showing.complete_map h hstops
  | describe ht h =>
    obtain ⟨t, used, rfl, rfl, rfl⟩ := tokensOf_eq_cons.mp hused
    refine reads_next_bind.mpr ?_
    rcases ht with ht | ht
    all_goals
      rw [ht]
      exact parses_objectName.complete_map h hendName
  | set ht h =>
    obtain ⟨t, used, rfl, rfl, rfl⟩ := tokensOf_eq_cons.mp hused
    refine reads_next_bind.mpr ?_
    rw [ht]
    exact parses_setVariable.complete_map h hstops
  | prepare ht hname hu hread =>
    obtain ⟨t, left₁, rfl, rfl, h₁⟩ := tokensOf_eq_cons.mp hused
    obtain ⟨n, left₂, rfl, hn, h₂⟩ := tokensOf_eq_cons.mp h₁
    obtain ⟨u, left₃, rfl, rfl, h₃⟩ := tokensOf_eq_cons.mp h₂
    obtain ⟨v, rfl, hv⟩ := tokensOf_eq_singleton.mp h₃
    refine reads_next_bind.mpr ?_
    rw [ht]
    exact prepare_complete hn hname hu hv hread

/-- **The parser of statements reads exactly what the grammar spells, and stops at a semicolon or at
the end of the text.** -/
theorem parses_statement :
    Parses (statement read) (Statement.Spelled read) (· ≠ .sign .semicolon) :=
  ⟨statement_sound, statement_complete⟩

end Statement

end SqlPipeline.Sql.Parser
