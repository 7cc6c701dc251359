import SqlPipeline.Proofs.Sql.Reading
import SqlPipeline.Sql.Parser.Statement

/-!
# How parsers end

A parser that reads a rest of some tokens leaves a rest of them, or fails; and it fails at one of
these tokens or at no place. `Parser.Ends all Other p` says this of the parser `p` and the tokens
`all`, where errors from elsewhere, of the kind `Other`, are allowed for: the text that is prepared
by a statement has positions of its own.

The tokens that a parser has read already are among `all` as well, so an error may go back to one of
them. That is why the property is one of all rests of the same tokens, and why it is kept by each
step that parsers are made of.
-/

namespace SqlPipeline.Sql

/-- Whether an error is at no place, or at one of the given tokens. -/
def ParseError.SeenIn (all : List Located) (error : ParseError) : Prop :=
  ∀ offset ∈ error.offset, ∃ t ∈ all, t.offset = offset

namespace Parser

variable {α β : Type} {all ts rest : List Located} {Other : ParseError → Prop}

/-- How a parser ends when it reads a rest of `all`: it leaves another rest of `all`, or it fails at
a token of `all`, or with an error from elsewhere. -/
structure EndsAt (all : List Located) (Other : ParseError → Prop) (p : Parser α)
    (ts : List Located) : Prop where
  leaves {a : α} {rest : List Located} : Reads p ts a rest → rest <:+ all
  fails {error : ParseError} : p.run ts = .error error → error.SeenIn all ∨ Other error

/-- A parser that ends this way on every rest of `all`. -/
def Ends (all : List Located) (Other : ParseError → Prop) (p : Parser α) : Prop :=
  ∀ ts, ts <:+ all → EndsAt all Other p ts

/-! ## Single steps -/

theorem EndsAt.bind {p : Parser α} {next : α → Parser β} (hp : EndsAt all Other p ts)
    (hnext : ∀ a rest, Reads p ts a rest → rest <:+ all → EndsAt all Other (next a) rest) :
    EndsAt all Other (p >>= next) ts where
  leaves h := by
    obtain ⟨a, middle, ha, h⟩ := reads_bind.mp h
    exact (hnext a middle ha (hp.leaves ha)).leaves h
  fails h := by
    rw [StateT.run_bind] at h
    cases hrun : p.run ts with
    | error error =>
      rw [hrun] at h
      cases h
      exact hp.fails hrun
    | ok found =>
      rw [hrun] at h
      exact (hnext found.1 found.2 hrun (hp.leaves hrun)).fails h

/-- Such a parser leaves a rest of the tokens it started with. -/
theorem Ends.suffix {p : Parser α} {a : α} (hp : Ends ts Other p) (h : Reads p ts a rest) :
    rest <:+ ts :=
  (hp ts List.suffix_rfl).leaves h

theorem Ends.bind {p : Parser α} {next : α → Parser β} (hp : Ends all Other p)
    (hnext : ∀ a, Ends all Other (next a)) : Ends all Other (p >>= next) :=
  fun ts hts => (hp ts hts).bind fun a rest _ hrest => hnext a rest hrest

theorem EndsAt.congr {p q : Parser α} {us : List Located} (hp : EndsAt all Other p ts)
    (h : q.run us = p.run ts) : EndsAt all Other q us :=
  ⟨fun hreads => hp.leaves (h.symm.trans hreads), fun hrun => hp.fails (h.symm.trans hrun)⟩

theorem ends_pure (a : α) : Ends all Other (pure a) := fun _ hts =>
  ⟨fun h => (reads_pure.mp h).2 ▸ hts, fun h => by cases h⟩

theorem ends_ite {c : Prop} [Decidable c] {p q : Parser α} (hp : Ends all Other p)
    (hq : Ends all Other q) : Ends all Other (if c then p else q) := by
  split
  · exact hp
  · exact hq

theorem endsAt_throw {error : ParseError} (h : error.SeenIn all ∨ Other error) :
    EndsAt all Other (throw error : Parser α) ts :=
  ⟨fun hreads => absurd hreads not_reads_throw, fun hrun => by cases hrun; exact h⟩

theorem seenIn_none (message : String) : (ParseError.mk message none).SeenIn all :=
  fun _ h => by cases h

theorem seenIn_some {t : Located} (ht : t ∈ all) (message : String) :
    (ParseError.mk message (some t.offset)).SeenIn all :=
  fun _ h => by cases h; exact ⟨t, ht, rfl⟩

theorem ends_failAt {t : Located} (ht : t ∈ all) (message : String) :
    Ends all Other (failAt t message : Parser α) :=
  fun _ _ => endsAt_throw (.inl (seenIn_some ht message))

theorem ends_outOfBudget : Ends all Other (outOfBudget : Parser α) :=
  fun _ _ => endsAt_throw (.inl (seenIn_none _))

theorem endsAt_get_bind {next : List Located → Parser α} (h : EndsAt all Other (next ts) ts) :
    EndsAt all Other (get >>= next) ts :=
  ⟨fun hreads => h.leaves (reads_get_bind.mp hreads), h.fails⟩

theorem endsAt_set_bind {found : List Located} {next : PUnit → Parser α}
    (h : EndsAt all Other (next ⟨⟩) found) : EndsAt all Other (set found >>= next) ts :=
  ⟨fun hreads => h.leaves (reads_set_bind.mp hreads), h.fails⟩

theorem ends_unexpected (expected : String) : Ends all Other (unexpected expected : Parser α) := by
  intro ts hts
  refine endsAt_get_bind ?_
  cases ts with
  | nil => exact endsAt_throw (.inl (seenIn_none _))
  | cons t ts => exact ends_failAt (hts.mem List.mem_cons_self) _ _ hts

theorem suffix_of_cons {t : Located} (h : t :: ts <:+ all) : ts <:+ all :=
  (List.suffix_cons t ts).trans h

/-- A parser that takes the next token first. -/
theorem endsAt_next_bind {expected : String} {after : Located → Parser α} (hts : ts <:+ all)
    (h : ∀ t rest, ts = t :: rest → EndsAt all Other (after t) rest) :
    EndsAt all Other (next expected >>= after) ts := by
  cases ts with
  | nil =>
    have hnext : EndsAt all Other (next expected) [] :=
      endsAt_get_bind (ends_unexpected expected [] hts)
    exact hnext.bind fun t rest ht _ => by cases reads_next.mp ht
  | cons t ts =>
    have ht := h t ts rfl
    exact ⟨ht.leaves, ht.fails⟩

theorem ends_next_bind {expected : String} {after : Located → Parser α}
    (h : ∀ t ts, t :: ts <:+ all → EndsAt all Other (after t) ts) :
    Ends all Other (next expected >>= after) :=
  fun _ hts => endsAt_next_bind hts fun t rest heq => h t rest (heq ▸ hts)

theorem ends_peek? : Ends all Other peek? := fun _ hts => endsAt_get_bind (ends_pure _ _ hts)

theorem ends_keyword? (keyword : Keyword) : Ends all Other (keyword? keyword) := by
  intro ts hts
  refine endsAt_get_bind ?_
  cases ts with
  | nil => exact ends_pure false _ hts
  | cons t ts =>
    dsimp only
    split
    · exact endsAt_set_bind (ends_pure true _ (suffix_of_cons hts))
    · exact ends_pure false _ hts

theorem ends_keywords? (keywords : List Keyword) : Ends all Other (keywords? keywords) := by
  intro ts hts
  refine endsAt_get_bind ?_
  split
  · exact endsAt_set_bind (ends_pure true _ ((List.drop_suffix _ _).trans hts))
  · exact ends_pure false _ hts

theorem ends_sign? (s : Sign) : Ends all Other (sign? s) := by
  intro ts hts
  refine endsAt_get_bind ?_
  cases ts with
  | nil => exact ends_pure false _ hts
  | cons t ts =>
    dsimp only
    split
    · exact endsAt_set_bind (ends_pure true _ (suffix_of_cons hts))
    · exact ends_pure false _ hts

theorem ends_expectKeyword (keyword : Keyword) : Ends all Other (expectKeyword keyword) :=
  (ends_keyword? keyword).bind fun _ => ends_ite (ends_pure _) (ends_unexpected _)

theorem ends_expectSign (s : Sign) : Ends all Other (expectSign s) :=
  (ends_sign? s).bind fun _ => ends_ite (ends_pure _) (ends_unexpected _)

/-! ## Names and lists -/

theorem identOf_seenIn {t : Located} {error : ParseError} (ht : t ∈ all)
    (h : identOf t = .error error) : error.SeenIn all := by
  unfold identOf at h
  split at h
  · split at h
    · split at h
      · cases h
        exact seenIn_some ht _
      · cases h
    · cases h
  · cases h
    exact seenIn_some ht _

theorem ends_lift {step : Except ParseError α}
    (h : ∀ error, step = .error error → error.SeenIn all ∨ Other error) :
    Ends all Other (liftM step : Parser α) := by
  intro ts hts
  refine ⟨fun hreads => (reads_lift.mp hreads).2 ▸ hts, fun {error} hrun => h error ?_⟩
  cases step with
  | ok a => cases hrun
  | error other =>
    cases hrun
    rfl

theorem ends_ident : Ends all Other ident := by
  refine ends_next_bind fun t ts hts => ends_lift (fun error h => .inl ?_) ts (suffix_of_cons hts)
  exact identOf_seenIn (hts.mem List.mem_cons_self) h

theorem endsAt_dottedTail : ∀ ts, ts <:+ all → EndsAt all Other dottedTail ts
  | [], hts => (ends_pure [] [] hts).congr rfl
  | [t], hts => by
    by_cases hperiod : t.token = .sign .period
    · refine (ends_unexpected "identifier" [] (suffix_of_cons hts)).congr ?_
      change dottedTail [t] = _
      rw [dottedTail, if_pos hperiod]
    · refine (ends_pure [] [t] hts).congr ?_
      change dottedTail [t] = _
      rw [dottedTail, if_neg hperiod]
      rfl
  | t :: name :: ts, hts => by
    have hname : name ∈ all := (suffix_of_cons hts).mem List.mem_cons_self
    have hrest : ts <:+ all := suffix_of_cons (suffix_of_cons hts)
    by_cases hperiod : t.token = .sign .period
    · cases hident : identOf name with
      | error error =>
        have hfails : EndsAt all Other (throw error : Parser (List Ident)) ts :=
          endsAt_throw (.inl (identOf_seenIn hname hident))
        refine hfails.congr ?_
        change dottedTail (t :: name :: ts) = _
        rw [dottedTail, if_pos hperiod, hident]
        rfl
      | ok first =>
        have hothers : EndsAt all Other (do return first :: (← dottedTail)) ts :=
          (endsAt_dottedTail ts hrest).bind fun _ left _ hleft => ends_pure _ left hleft
        refine hothers.congr ?_
        change dottedTail (t :: name :: ts) = _
        rw [dottedTail, if_pos hperiod, hident]
        rfl
    · refine (ends_pure [] (t :: name :: ts) hts).congr ?_
      change dottedTail (t :: name :: ts) = _
      rw [dottedTail, if_neg hperiod]
      rfl

theorem ends_dottedTail : Ends all Other dottedTail := endsAt_dottedTail

theorem ends_objectName : Ends all Other objectName :=
  ends_ident.bind fun _ => ends_dottedTail.bind fun _ => ends_pure _

theorem ends_commaListWithin {item : Parser α} (hitem : Ends all Other item) :
    ∀ budget, Ends all Other (commaListWithin item budget)
  | 0 => ends_outOfBudget
  | budget + 1 => hitem.bind fun _ => (ends_sign? _).bind fun _ =>
    ends_ite ((ends_commaListWithin hitem budget).bind fun _ => ends_pure _) (ends_pure _)

theorem ends_commaList {item : Parser α} (hitem : Ends all Other item) :
    Ends all Other (commaList item) :=
  fun _ hts => endsAt_get_bind (ends_commaListWithin hitem _ _ hts)

theorem ends_parenthesized {item : Parser α} (hitem : Ends all Other item) :
    Ends all Other (parenthesized item) :=
  (ends_expectSign _).bind fun _ => (ends_commaList hitem).bind fun _ =>
    (ends_expectSign _).bind fun _ => ends_pure _

theorem ends_alias? : Ends all Other alias? := by
  have hnamed : Ends all Other (do return some (← ident)) := ends_ident.bind fun _ => ends_pure _
  refine (ends_keyword? _).bind fun _ => ends_ite hnamed (ends_peek?.bind fun next => ?_)
  split
  · exact hnamed
  · exact ends_pure _

theorem ends_clause? {content : Parser α} (h : Ends all Other content) (keyword : Keyword) :
    Ends all Other (clause? keyword content) :=
  (ends_keyword? keyword).bind fun _ => ends_ite (h.bind fun _ => ends_pure _) (ends_pure _)

/-! ## Expressions -/

mutual

theorem ends_exprAt : ∀ budget level, Ends all Other (exprAt budget level)
  | 0, _ => ends_outOfBudget
  | budget + 1, level => (ends_operand budget).bind fun first => ends_extend budget level first

theorem ends_operand : ∀ budget, Ends all Other (operand budget)
  | 0 => ends_outOfBudget
  | budget + 1 => by
    refine ends_next_bind fun t ts hts => ?_
    have hrest := suffix_of_cons hts
    have ht : t ∈ all := hts.mem List.mem_cons_self
    split
    · exact ends_pure _ _ hrest
    · exact ends_pure _ _ hrest
    · exact (ends_exprAt budget _).bind (fun _ => ends_pure _) _ hrest
    · exact (ends_exprAt budget _).bind (fun _ => ends_pure _) _ hrest
    · exact (ends_exprAt budget _).bind
        (fun _ => (ends_expectSign _).bind fun _ => ends_pure _) _ hrest
    · exact ends_failAt ht _ _ hrest
    -- a word: `NOT`, a literal or a name
    · split
      · exact (ends_exprAt budget _).bind (fun _ => ends_pure _) _ hrest
      · exact ends_pure _ _ hrest
      · exact ends_pure _ _ hrest
      · exact ends_pure _ _ hrest
      · exact ends_ite (ends_failAt ht _) (ends_named budget _) _ hrest
      · exact ends_named budget _ _ hrest

theorem ends_named : ∀ budget name, Ends all Other (named budget name)
  | 0, _ => ends_outOfBudget
  | budget + 1, name => by
    refine (ends_sign? _).bind fun _ => ends_ite ?_ (ends_dottedTail.bind fun others => ?_)
    · exact (ends_sign? _).bind fun _ => ends_ite (ends_pure _)
        ((ends_arguments budget).bind fun _ => (ends_expectSign _).bind fun _ => ends_pure _)
    · split
      · exact ends_pure _
      · exact ends_pure _

theorem ends_arguments : ∀ budget, Ends all Other (arguments budget)
  | 0 => ends_outOfBudget
  | budget + 1 => by
    have hmore (args : Args → Args) : Ends all Other (do return args (← arguments budget)) :=
      (ends_arguments budget).bind fun _ => ends_pure _
    refine (ends_sign? _).bind fun _ => ends_ite ?_ ((ends_exprAt budget 0).bind fun _ => ?_)
    · exact (ends_sign? _).bind fun _ => ends_ite (hmore _) (ends_pure _)
    · exact (ends_sign? _).bind fun _ => ends_ite (hmore _) (ends_pure _)

theorem ends_extend : ∀ budget level left, Ends all Other (extend budget level left)
  | 0, _, _ => ends_outOfBudget
  | budget + 1, level, left => by
    intro ts hts
    refine endsAt_get_bind ?_
    cases ts with
    | nil => exact ends_pure _ _ hts
    | cons t ts =>
      dsimp only
      split
      · exact ends_pure _ _ hts
      split
      · refine endsAt_set_bind ?_
        split
        · exact (ends_keyword? _).bind (fun _ => (ends_expectKeyword _).bind fun _ =>
            ends_extend budget level _) _ (suffix_of_cons hts)
        · exact (ends_exprAt budget _).bind (fun _ => ends_extend budget level _) _ (suffix_of_cons hts)
      · exact ends_pure _ _ hts

end

theorem ends_expr : Ends all Other expr := fun _ hts => endsAt_get_bind (ends_exprAt _ _ _ hts)

/-! ## Clauses -/

theorem starredName?_suffix : ∀ {ts rest : List Located} {names : List Ident},
    starredName? ts = some (names, rest) → rest <:+ ts
  | [], _, _, h | [_], _, _, h => by cases h
  | t :: period :: ts, rest, names, h => by
    rw [starredName?] at h
    split at h
    · cases h
    split at h
    case isFalse => cases h
    split at h
    case h_2 => cases h
    next star others =>
    split at h
    · cases h
      exact ⟨[t, period, star], rfl⟩
    · obtain ⟨⟨following, last⟩, hfollowing, heq⟩ := Option.map_eq_some_iff.mp h
      cases heq
      exact (starredName?_suffix hfollowing).trans ⟨[t, period], rfl⟩

theorem ends_selectItem : Ends all Other selectItem := by
  refine (ends_sign? _).bind fun _ => ends_ite (ends_pure _) fun ts hts => endsAt_get_bind ?_
  split
  · next hstarred =>
    exact endsAt_set_bind (ends_pure _ _ ((starredName?_suffix hstarred).trans hts))
  · refine ends_expr.bind (fun value => ends_alias?.bind fun name => ?_) ts hts
    split
    · exact ends_pure _
    · exact ends_pure _

theorem ends_tableRef : Ends all Other tableRef :=
  ends_objectName.bind fun _ => ends_alias?.bind fun _ => ends_pure _

theorem ends_joinKind? : Ends all Other joinKind? :=
  (ends_keywords? _).bind fun _ => ends_ite (ends_pure _) <|
    (ends_keywords? _).bind fun _ => ends_ite (ends_pure _) <|
      (ends_keywords? _).bind fun _ => ends_ite (ends_pure _) <|
        (ends_keywords? _).bind fun _ => ends_ite (ends_pure _) (ends_pure _)

theorem ends_joinsWithin : ∀ budget, Ends all Other (joinsWithin budget)
  | 0 => ends_outOfBudget
  | budget + 1 => by
    refine ends_joinKind?.bind fun kind => ?_
    split
    · exact ends_pure _
    · exact ends_tableRef.bind fun _ => (ends_expectKeyword _).bind fun _ =>
        ends_expr.bind fun _ => (ends_joinsWithin budget).bind fun _ => ends_pure _

theorem ends_fromClause : Ends all Other fromClause :=
  ends_tableRef.bind fun _ ts hts =>
    endsAt_get_bind (((ends_joinsWithin _).bind fun _ => ends_pure _) ts hts)

theorem ends_groupBy : Ends all Other groupBy :=
  (ends_keywords? _).bind fun _ => ends_ite (ends_commaList ends_expr) (ends_pure _)

theorem ends_select : Ends all Other select :=
  (ends_keyword? _).bind fun _ => (ends_commaList ends_selectItem).bind fun _ =>
    (ends_clause? ends_objectName _).bind fun _ => (ends_clause? ends_fromClause _).bind fun _ =>
      (ends_clause? ends_expr _).bind fun _ => ends_groupBy.bind fun _ =>
        (ends_clause? ends_expr _).bind fun _ => ends_pure _

theorem ends_insert : Ends all Other insert := by
  refine ends_objectName.bind fun table => ends_peek?.bind fun next => ?_
  have hrows (columns : List Ident) : Ends all Other (do
      expectKeyword .VALUES
      let rows ← commaList (parenthesized expr)
      return ⟨table, columns, rows⟩ : Parser Insert) :=
    (ends_expectKeyword _).bind fun _ =>
      (ends_commaList (ends_parenthesized ends_expr)).bind fun _ => ends_pure _
  split
  · exact (ends_parenthesized ends_ident).bind hrows
  · exact hrows []

theorem ends_assignment : Ends all Other assignment :=
  ends_ident.bind fun _ => (ends_expectSign _).bind fun _ => ends_expr.bind fun _ => ends_pure _

theorem ends_update : Ends all Other update :=
  ends_objectName.bind fun _ => (ends_expectKeyword _).bind fun _ =>
    (ends_commaList ends_assignment).bind fun _ => (ends_clause? ends_expr _).bind fun _ =>
      ends_pure _

theorem ends_delete : Ends all Other delete :=
  ends_objectName.bind fun _ => (ends_clause? ends_expr _).bind fun _ => ends_pure _

theorem ends_showing : Ends all Other showing :=
  (ends_keyword? _).bind fun _ => ends_ite (ends_pure _) <|
    (ends_keyword? _).bind fun _ => ends_ite
      ((ends_expectKeyword _).bind fun _ => ends_objectName.bind fun _ => ends_pure _)
      (ends_ident.bind fun _ => ends_pure _)

theorem ends_setVariable : Ends all Other setVariable :=
  ends_objectName.bind fun _ => (ends_expectSign _).bind fun _ =>
    ends_expr.bind fun _ => ends_pure _

end Parser
end SqlPipeline.Sql
