import SqlPipeline.Proofs.Sql.Expressions
import SqlPipeline.Proofs.Sql.Lexing

/-!
# The precedence of operators

What the grouping of an expression means for each of its parts. `Expr.Grouped` follows an operator
down the edges of its operands; `Expr.OperandsBind` looks at an operator and its direct operands
only, in the way precedence is usually explained, and holds throughout every grouped expression.

The parser implements that precedence on the tokens of every text, from every token on
(`Parser.run_expr_of_tokenize`).
-/

namespace SqlPipeline.Sql

/-- Whether an operator is AND or OR. -/
def BinaryOp.IsLogical (op : BinaryOp) : Prop :=
  op = .and ∨ op = .or

/-- The operands an operator may have without parentheses around them. -/
def Expr.OperandsBind : Expr → Prop
  | .binary left op right =>
    (∀ l o r, right = .binary l o r → op.level < o.level) ∧
    (∀ l o r, left = .binary l o r → op.level ≤ o.level) ∧
    (∀ operand negated, right = .isNull operand negated → op.IsLogical) ∧
    (∀ operand, left = .unary .not operand → op.IsLogical)
  | .isNull operand _ =>
    (∀ inner, operand ≠ .unary .not inner) ∧ ∀ l o r, operand = .binary l o r → ¬o.IsLogical
  | .unary .not operand => ∀ l o r, operand = .binary l o r → ¬o.IsLogical
  | .unary .plus operand | .unary .minus operand =>
    (∀ l o r, operand ≠ .binary l o r) ∧ ∀ inner negated, operand ≠ .isNull inner negated
  | _ => True

theorem BinaryOp.isLogical_iff (op : BinaryOp) : op.IsLogical ↔ op.level ≤ UnaryOp.not.level := by
  unfold IsLogical
  cases op <;> decide

/-- The operators that bind looser than IS NULL are the logical ones. -/
theorem BinaryOp.isLogical_of_lt {op : BinaryOp} (h : op.level < Extension.isNull.level) :
    op.IsLogical := by
  unfold IsLogical
  revert h
  cases op <;> decide

theorem BinaryOp.level_lt (op : BinaryOp) : op.level < UnaryOp.minus.level := by
  cases op <;> decide

theorem Expr.Grouped.operandsBind : ∀ {e : Expr} {level : Nat}, e.Grouped level → e.OperandsBind
  | .binary left op right, level, h => by
    obtain ⟨-, hleft, hleaves, hright⟩ := h
    refine ⟨?_, ?_, ?_, ?_⟩
    · rintro l o r rfl
      exact hright.1
    · rintro l o r rfl
      exact hleaves.1
    · rintro operand negated rfl
      exact BinaryOp.isLogical_of_lt hright.1
    · rintro operand rfl
      exact op.isLogical_iff.mpr hleaves.1
  | .isNull operand _, level, h => by
    obtain ⟨-, -, hleaves⟩ := h
    refine ⟨?_, ?_⟩
    · rintro inner rfl
      exact absurd hleaves.1 (by decide)
    · rintro l o r rfl hlogical
      have := o.isLogical_iff.mp hlogical
      have := Nat.le_trans hleaves.1 this
      exact absurd this (by decide)
  | .unary .not operand, level, h => by
    rintro l o r rfl hlogical
    exact Nat.not_lt.mpr (o.isLogical_iff.mp hlogical) h.1
  | .unary .plus operand, level, h | .unary .minus operand, level, h => by
    refine ⟨?_, ?_⟩
    · rintro l o r rfl
      exact Nat.lt_asymm o.level_lt h.1
    · rintro inner negated rfl
      exact absurd h.1 (by decide)
  | .ident _, _, _ | .qualified _, _, _ | .literal _, _, _ | .call _ _, _, _ | .nested _, _, _ =>
    trivial

theorem Expr.self_mem_parts (e : Expr) : e ∈ e.parts := by
  cases e <;> exact List.mem_cons_self

mutual

/-- A part of a part is a part. -/
theorem Expr.parts_subset : ∀ {e part : Expr}, part ∈ e.parts → part.parts ⊆ e.parts
  | .ident _, part, h | .qualified _, part, h | .literal _, part, h => by
    rw [List.mem_singleton.mp h]
    exact List.Subset.refl _
  | .unary op operand, part, h => by
    rcases List.mem_cons.mp h with rfl | h
    · exact List.Subset.refl _
    · exact List.Subset.trans (Expr.parts_subset (e := operand) h) (List.subset_cons_self _ _)
  | .binary left op right, part, h => by
    rcases List.mem_cons.mp h with rfl | h
    · exact List.Subset.refl _
    refine List.Subset.trans ?_ (List.subset_cons_self _ _)
    rcases List.mem_append.mp h with h | h
    · exact List.Subset.trans (Expr.parts_subset h) (List.subset_append_left _ _)
    · exact List.Subset.trans (Expr.parts_subset h) (List.subset_append_right _ _)
  | .isNull operand negated, part, h => by
    rcases List.mem_cons.mp h with rfl | h
    · exact List.Subset.refl _
    · exact List.Subset.trans (Expr.parts_subset (e := operand) h) (List.subset_cons_self _ _)
  | .call function args, part, h => by
    rcases List.mem_cons.mp h with rfl | h
    · exact List.Subset.refl _
    · exact List.Subset.trans (Args.parts_subset h) (List.subset_cons_self _ _)
  | .nested inner, part, h => by
    rcases List.mem_cons.mp h with rfl | h
    · exact List.Subset.refl _
    · exact List.Subset.trans (Expr.parts_subset (e := inner) h) (List.subset_cons_self _ _)

theorem Args.parts_subset : ∀ {args : Args} {part : Expr}, part ∈ args.parts →
    part.parts ⊆ args.parts
  | .nil, _, h => by cases h
  | .star rest, part, h => by
    have hrest : part.parts ⊆ rest.parts := Args.parts_subset h
    exact hrest
  | .value arg rest, part, h => by
    rcases List.mem_append.mp h with h | h
    · exact List.Subset.trans (Expr.parts_subset h) (List.subset_append_left _ _)
    · exact List.Subset.trans (Args.parts_subset h) (List.subset_append_right _ _)

end

mutual

/-- Every part of a grouped expression is grouped, at a level of its own. -/
theorem Expr.Grouped.of_mem_parts : ∀ {e part : Expr} {level : Nat}, e.Grouped level →
    part ∈ e.parts → ∃ level, part.Grouped level
  | .ident _, part, level, h, hpart | .qualified _, part, level, h, hpart
  | .literal _, part, level, h, hpart => by
    cases List.mem_singleton.mp hpart
    exact ⟨level, h⟩
  | .unary op operand, part, level, h, hpart => by
    rcases List.mem_cons.mp hpart with rfl | hpart
    · exact ⟨level, h⟩
    · exact Expr.Grouped.of_mem_parts (e := operand) h hpart
  | .binary left op right, part, level, h, hpart => by
    rcases List.mem_cons.mp hpart with rfl | hpart
    · exact ⟨level, h⟩
    rcases List.mem_append.mp hpart with hpart | hpart
    · exact h.2.1.of_mem_parts hpart
    · exact h.2.2.2.of_mem_parts hpart
  | .isNull operand _, part, level, h, hpart => by
    rcases List.mem_cons.mp hpart with rfl | hpart
    · exact ⟨level, h⟩
    · exact h.2.1.of_mem_parts hpart
  | .call function args, part, level, h, hpart => by
    rcases List.mem_cons.mp hpart with rfl | hpart
    · exact ⟨level, h⟩
    · exact h.2.of_mem_parts hpart
  | .nested inner, part, level, h, hpart => by
    rcases List.mem_cons.mp hpart with rfl | hpart
    · exact ⟨level, h⟩
    · exact Expr.Grouped.of_mem_parts (e := inner) h hpart

theorem Args.Grouped.of_mem_parts : ∀ {args : Args} {part : Expr}, args.Grouped →
    part ∈ args.parts → ∃ level, part.Grouped level
  | .nil, _, _, hpart => by cases hpart
  | .star rest, part, h, hpart => (show rest.Grouped from h).of_mem_parts hpart
  | .value arg rest, part, h, hpart => by
    rcases List.mem_append.mp hpart with hpart | hpart
    · exact h.1.of_mem_parts hpart
    · exact h.2.of_mem_parts hpart

end

/-- **The parser implements the precedence of the operators.** Of the tokens of a text, from any of
them on, an expression takes exactly the tokens that spell it; no operator comes next; each operator
in it has operands that bind; and before any other tokens that do not go on it is read again. -/
theorem Parser.run_expr_of_tokenize {sql : String} {tokens rest : List Located} {start : Nat}
    {e : Expr} (htokens : tokenize sql = .ok tokens)
    (h : Parser.expr.run (tokens.drop start) = .ok (e, rest)) :
    ∃ used, tokens.drop start = used ++ rest ∧ capitals used = e.tokens ∧
      (∀ t ∈ rest.head?, Extension.ofToken? t.token = none) ∧
      (∀ part ∈ e.parts, part.OperandsBind) ∧
      ∀ others : List Located, (∀ t ∈ others.head?, Extension.ofToken? t.token = none ∧
          t.token ≠ .sign .leftParen ∧ t.token ≠ .sign .period) →
        Parser.expr.run (used ++ others) = .ok (e, others) := by
  have hlexed : AllLexed (tokens.drop start) :=
    fun t ht => (tokenize_eq_ok_iff.mp htokens).lexed t (List.mem_of_mem_drop ht)
  obtain ⟨used, heq, hused, hgrouped, hlevel⟩ := expr_sound hlexed h
  refine ⟨used, heq, hused, nextLevel_eq_zero_iff.mp hlevel, ?_, ?_⟩
  · intro part hpart
    obtain ⟨level, hpart⟩ := hgrouped.of_mem_parts hpart
    exact hpart.operandsBind
  · intro others hothers
    have hnext : nextLevel others = 0 := nextLevel_eq_zero_iff.mpr fun t ht => (hothers t ht).1
    refine expr_complete hused hgrouped hnext fun token htoken => ?_
    obtain ⟨t, ht, rfl⟩ : ∃ t ∈ others.head?, t.token = token := by
      rw [tokensOf, List.head?_map] at htoken
      exact Option.map_eq_some_iff.mp htoken
    obtain ⟨-, hparen, hperiod⟩ := hothers t ht
    rintro (hname | hname)
    · exact hparen hname
    · exact hperiod hname

/-- The tokens of `SELECT a = 1 + x * 2 FROM t`. -/
def sumTokens : List Located :=
  [⟨Keyword.SELECT.token, 0⟩, ⟨Ident.token ⟨"a", false⟩, 7⟩, ⟨.sign .eq, 9⟩, ⟨.number "1", 11⟩,
   ⟨.sign .plus, 13⟩, ⟨Ident.token ⟨"x", false⟩, 15⟩, ⟨.sign .star, 17⟩, ⟨.number "2", 19⟩,
   ⟨Keyword.FROM.token, 21⟩, ⟨Ident.token ⟨"t", false⟩, 26⟩]

/-- The expression `a = 1 + x * 2`. -/
def sumExpr : Expr :=
  .binary (.ident ⟨"a", false⟩) .eq (.binary (.literal (.number "1")) .plus
    (.binary (.ident ⟨"x", false⟩) .multiply (.literal (.number "2"))))

/-- A product is grouped before a sum, and a sum before a comparison. -/
theorem Parser.run_expr_of_tokenize_sum :
    tokenize "SELECT a = 1 + x * 2 FROM t" = .ok sumTokens ∧
      Parser.expr.run (sumTokens.drop 1) = .ok (sumExpr, sumTokens.drop 8) ∧
      ∃ used, sumTokens.drop 1 = used ++ sumTokens.drop 8 ∧ capitals used = sumExpr.tokens ∧
        (∀ t ∈ (sumTokens.drop 8).head?, Extension.ofToken? t.token = none) ∧
        (∀ part ∈ sumExpr.parts, part.OperandsBind) ∧
        ∀ others : List Located, (∀ t ∈ others.head?, Extension.ofToken? t.token = none ∧
            t.token ≠ .sign .leftParen ∧ t.token ≠ .sign .period) →
          Parser.expr.run (used ++ others) = .ok (sumExpr, others) := by
  have htokens : tokenize "SELECT a = 1 + x * 2 FROM t" = .ok sumTokens := rfl
  have hexpr : Parser.expr.run (sumTokens.drop 1) = .ok (sumExpr, sumTokens.drop 8) := rfl
  exact ⟨htokens, hexpr, run_expr_of_tokenize htokens hexpr⟩

end SqlPipeline.Sql
