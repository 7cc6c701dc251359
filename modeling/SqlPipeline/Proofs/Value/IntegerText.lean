import SqlPipeline.Bound.Bind
import SqlPipeline.Proofs.Sql.ReadBack

/-!
# The text of an integer as an expression

The text of an integer is its digits, with a minus in front of a negative one. As an expression the
minus is an operator and the digits are a literal of their own. So the text is evaluated to the
integer if the digits alone are one of 64 bits, which they are for all integers but the least
(`Value.eval_int_text`).
-/

namespace SqlPipeline

namespace Number

theorem digitsValue_digitsOf (n : Nat) : digitsValue (digitsOf n) = n := by
  have hfold : digitsValue (digitsOf n) = Nat.ofDigitChars 10 (Nat.toDigits 10 n) 0 := by
    simp [digitsValue, digitsOf, Nat.ofDigitChars, Nat.mul_comm]
  rw [hfold, Nat.ofDigitChars_toDigits (by decide) (by decide)]

theorem isDigit_of_mem_digitsOf {n : Nat} {c : Char} (h : c ∈ digitsOf n) : c.isDigit = true :=
  Nat.isDigit_of_mem_toDigits (by decide) (by decide) h

theorem digitsOf_ne_nil (n : Nat) : digitsOf n ≠ [] := Nat.toDigits_ne_nil

theorem natural?_digitsOf (n : Nat) : natural? (digitsOf n) = some n := by
  have hall : (digitsOf n).all Char.isDigit = true :=
    List.all_eq_true.mpr fun _ hc => isDigit_of_mem_digitsOf hc
  rw [natural?, if_neg (by simp [hall, digitsOf_ne_nil]), digitsValue_digitsOf]

/-- Digits have no sign. -/
theorem integer?_digitsOf (n : Nat) : integer? (digitsOf n) = some (n : Int) := by
  have hsplit : signSplit (digitsOf n) = (false, digitsOf n) := by
    unfold signSplit
    split
    · next heq => exact absurd (isDigit_of_mem_digitsOf (heq ▸ List.mem_cons_self)) (by decide)
    · next heq => exact absurd (isDigit_of_mem_digitsOf (heq ▸ List.mem_cons_self)) (by decide)
    · rfl
  rw [integer?, hsplit]
  dsimp only
  rw [natural?_digitsOf]
  rfl

end Number

namespace Value

/-- Every 64-bit integer has 64 bits. -/
theorem ofInt?_toInt (n : Int64) : ofInt? n.toInt = some (int n) := by
  have hrange : minInt64 ≤ n.toInt ∧ n.toInt ≤ maxInt64 := by
    have hleast := n.le_toInt
    have hgreatest := n.toInt_lt
    unfold minInt64 maxInt64
    omega
  rw [ofInt?, int64?, if_pos hrange, Int64.ofInt_toInt]
  rfl

theorem ofInt?_eq_some {n : Int} (h : minInt64 ≤ n ∧ n ≤ maxInt64) :
    ∃ value : Int64, value.toInt = n ∧ ofInt? n = some (int value) := by
  refine ⟨.ofInt n, ?_, by rw [ofInt?, int64?, if_pos h]; rfl⟩
  obtain ⟨hleast, hgreatest⟩ := h
  refine Int64.toInt_ofInt_of_le ?_ ?_
  · rw [minInt64] at hleast
    omega
  · rw [maxInt64] at hgreatest
    omega

theorem ofNumber_digitsOf (n : Nat) {value : Value} (h : ofInt? n = some value) :
    ofNumber (.ofList (Number.digitsOf n)) = .ok value := by
  have hread : readInt? (Number.digitsOf n) = some value := by
    rw [readInt?, Number.integer?_digitsOf]
    exact h
  rw [ofNumber, String.toList_ofList, hread]

end Value

open Sql (Expr)

/-- The expression that the text of an integer is read as. -/
def Sql.Expr.ofInt (n : Int) : Expr :=
  let digits : Expr := .literal (.number (.ofList (Number.digitsOf n.natAbs)))
  if 0 ≤ n then digits else .unary .minus digits

/-- A text is read as one expression. -/
theorem Sql.Expr.ReadsAs.unique {text : String} {e other : Expr} (h : Expr.ReadsAs text e)
    (hother : Expr.ReadsAs text other) : e = other := by
  obtain ⟨tokens, htokens, hrun⟩ := h
  obtain ⟨tokens', htokens', hrun'⟩ := hother
  cases htokens.symm.trans htokens'
  cases hrun.symm.trans hrun'
  rfl

namespace Value

theorem text_int (n : Int64) : (Value.int n).text = (Expr.ofInt n.toInt).text := by
  have hdigits (m : Nat) : m.repr = String.ofList (Number.digitsOf m) := Nat.repr_eq_ofList_toDigits
  change n.toInt.repr = _
  rw [Int.repr_eq_if, Expr.ofInt]
  by_cases hpos : 0 ≤ n.toInt
  · have habs : n.toInt.toNat = n.toInt.natAbs := by omega
    rw [if_pos hpos, if_pos hpos, habs, hdigits]
    rfl
  · have habs : (-n.toInt).toNat = n.toInt.natAbs := by omega
    rw [if_neg hpos, if_neg hpos, habs, hdigits]
    rfl

/-- The text of an integer is read in full. -/
theorem readsAs_text_int (n : Int64) : Expr.ReadsAs (Value.int n).text (.ofInt n.toInt) := by
  have hlexed (m : Nat) : (Sql.Token.number (.ofList (Number.digitsOf m))).Lexed := by
    rw [Sql.Token.Lexed, String.toList_ofList]
    exact ⟨_, Number.digitsOf_ne_nil m, fun c hc => Number.isDigit_of_mem_digitsOf hc, .inl rfl⟩
  have hread : Expr.ReadsAs (Expr.ofInt n.toInt).text ((Expr.ofInt n.toInt).respelled .recasing) := by
    refine Expr.Grouped.readsAs ?_ ?_
    · unfold Expr.ofInt
      dsimp only
      split
      · exact hlexed _
      · exact hlexed _
    · unfold Expr.ofInt
      dsimp only
      split
      · simp [Expr.parts, Expr.Shown]
      · simp [Expr.parts, Expr.Shown]
  have hkeeps : (Expr.ofInt n.toInt).respelled .recasing = .ofInt n.toInt := by
    unfold Expr.ofInt
    dsimp only
    split <;> rfl
  rwa [hkeeps, ← text_int] at hread

end Value

namespace Bound

theorem bindConstant_number {digits : String} {value : Value}
    (h : Value.ofNumber digits = .ok value) :
    bindConstant (.literal (.number digits)) = .ok (literal value) := by
  rw [bindConstant, bind, Value.ofLiteral, h]
  rfl

theorem bindConstant_minus {digits : String} {value : Value}
    (h : Value.ofNumber digits = .ok value) :
    bindConstant (.unary .minus (.literal (.number digits))) =
      .ok (unary .minus (literal value)) := by
  have hoperand := bindConstant_number h
  rw [bindConstant] at hoperand
  have hnone (text : String) : Layout.empty.computed? text = none := rfl
  rw [bindConstant, bind, hnone, hoperand]
  rfl

end Bound

namespace Value

/-- The value of the expression that the text of an integer is read as. -/
def ofIntText (n : Int64) : Value :=
  if n.toInt = minInt64 then float (.ofInt minInt64) else int n

theorem eval_ofInt (n : Int64) : ∃ bound, Bound.bindConstant (.ofInt n.toInt) = .ok bound ∧
    bound.eval Row.empty = .ok (ofIntText n) := by
  have hleast := n.le_toInt
  by_cases hpos : 0 ≤ n.toInt
  · have habs : ((n.toInt.natAbs : Nat) : Int) = n.toInt := by omega
    have hnumber := ofNumber_digitsOf n.toInt.natAbs (habs ▸ ofInt?_toInt n)
    have hvalue : ofIntText n = int n := if_neg (by rw [minInt64]; omega)
    rw [Expr.ofInt, if_pos hpos, Bound.bindConstant_number hnumber, hvalue]
    exact ⟨_, rfl, rfl⟩
  rw [Expr.ofInt, if_neg hpos]
  by_cases hmin : n.toInt = minInt64
  · -- the digits of the least integer are those of a number that has no 64 bits
    have hnumber : ofNumber (.ofList (Number.digitsOf minInt64.natAbs)) =
        .ok (float (.ofInt (-minInt64))) := by decide +kernel
    have hneg : (Number.Binary64.ofInt (-minInt64)).neg = .ofInt minInt64 := by decide +kernel
    have hvalue : ofIntText n = float (.ofInt minInt64) := if_pos hmin
    rw [hmin, Bound.bindConstant_minus hnumber, hvalue, ← hneg]
    exact ⟨_, rfl, rfl⟩
  · have hrange : minInt64 ≤ ((n.toInt.natAbs : Nat) : Int) ∧
        ((n.toInt.natAbs : Nat) : Int) ≤ maxInt64 := by
      unfold minInt64 at hmin ⊢
      unfold maxInt64
      omega
    obtain ⟨value, htoInt, hvalue⟩ := ofInt?_eq_some hrange
    have hnegated : -value.toInt = n.toInt := by omega
    have hnegate : negate (int value) = .ok (int n) := by
      rw [negate, hnegated, ofInt?_toInt]
    rw [Bound.bindConstant_minus (ofNumber_digitsOf _ hvalue), ofIntText, if_neg hmin]
    exact ⟨_, rfl, hnegate⟩

/-- **What the text of an integer evaluates to.** It is read in full as an expression without
columns, whose value is the integer; only the least integer becomes a double. -/
theorem eval_int_text (n : Int64) : ∃ expr bound, Expr.ReadsAs (Value.int n).text expr ∧
    Bound.bindConstant expr = .ok bound ∧ bound.eval Row.empty =
      .ok (if n.toInt = minInt64 then float (.ofInt minInt64) else int n) := by
  obtain ⟨bound, hbound, heval⟩ := eval_ofInt n
  exact ⟨_, bound, readsAs_text_int n, hbound, heval⟩

/-- No reading of the text of the least integer evaluates to it, although the text itself is cast
to it. -/
theorem eval_int_text_least :
    (¬∃ expr bound, Expr.ReadsAs (Value.int Int64.minValue).text expr ∧
      Bound.bindConstant expr = .ok bound ∧ bound.eval Row.empty = .ok (int Int64.minValue)) ∧
    (utf8 (Value.int Int64.minValue).text).cast .int64 = .ok (int Int64.minValue) := by
  refine ⟨?_, by decide +kernel⟩
  rintro ⟨expr, bound, hreads, hbound, heval⟩
  cases hreads.unique (readsAs_text_int Int64.minValue)
  obtain ⟨bound', hbound', heval'⟩ := eval_ofInt Int64.minValue
  cases hbound.symm.trans hbound'
  have hsame : int Int64.minValue = ofIntText Int64.minValue :=
    Except.ok.inj (heval.symm.trans heval')
  exact absurd hsame (by decide +kernel)

end Value
end SqlPipeline
