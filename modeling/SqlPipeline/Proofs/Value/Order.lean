import Mathlib.Data.String.Basic
import Mathlib.Order.Compare
import SqlPipeline.Proofs.Number.Rounding
import SqlPipeline.Value.Operators

/-!
# How far comparing values is an order

Two integers are compared exactly, but an integer and a double as doubles. Comparing one way round
is always the reverse of the other (`Value.compare?_swap`), and one step after the other leads in the
same direction (`Value.compare?_trans`) but for one shape: a double that two different integers are
rounded to is equal to both of them, which are not equal to each other (`Value.Blurred`). In one
direction strictly, the steps always add up (`Value.compare?_lt_trans`).
-/

namespace SqlPipeline

open Number (Binary64)

/-! ## Steps in a linear order -/

/-- After a first and a second step up, the step over both does not go down, and stays in place only
if both do. -/
def AddsUp (first second both : Ordering) : Prop :=
  both ≠ .gt ∧ (both = .eq → first = .eq ∧ second = .eq)

theorem addsUp_compare {α : Type} [LinearOrder α] {x y z : α} (hfirst : compare x y ≠ .gt)
    (hsecond : compare y z ≠ .gt) : AddsUp (compare x y) (compare y z) (compare x z) := by
  rw [compare_le_iff_le] at hfirst hsecond
  constructor
  · rw [compare_le_iff_le]
    exact hfirst.trans hsecond
  · intro hboth
    rw [compare_eq_iff_eq] at hboth
    subst hboth
    rw [compare_eq_iff_eq, compare_eq_iff_eq]
    exact ⟨hfirst.antisymm hsecond, hsecond.antisymm hfirst⟩

/-! ## Doubles -/

namespace Number.Binary64

/-- No two doubles have one place in the total order. -/
theorem rank_injective : Function.Injective rank := by
  intro x y h
  have hx := x.bits.toNat_lt
  have hy := y.bits.toNat_lt
  unfold rank isNegative signBit at h
  have hbits : x.bits.toNat = y.bits.toNat := by
    split_ifs at h with hxneg hyneg hyneg <;> simp only [decide_eq_true_eq] at * <;> omega
  cases x
  cases y
  exact congrArg mk (UInt64.toNat_inj.mp hbits)

end Number.Binary64

namespace Value

variable {a b c : Value} {order : Ordering}

/-! ## What is compared -/

/-- The values that can be compared, and how they are. -/
inductive Compares : Value → Value → Ordering → Prop
  | boolean (x y : Bool) : Compares (boolean x) (boolean y) (compare x.toNat y.toNat)
  | int (x y : Int64) : Compares (int x) (int y) (compare x.toInt y.toInt)
  | utf8 (x y : String) : Compares (utf8 x) (utf8 y) (compare x y)
  | float (x y : Binary64) : Compares (float x) (float y) (compare x.rank y.rank)
  | intFloat (x : Int64) (y : Binary64) :
    Compares (int x) (float y) (compare (Binary64.ofInt x.toInt).rank y.rank)
  | floatInt (x : Binary64) (y : Int64) :
    Compares (float x) (int y) (compare x.rank (Binary64.ofInt y.toInt).rank)

theorem compare?_eq_some_iff : a.compare? b = .ok (some order) ↔ Compares a b order := by
  constructor
  · intro h
    cases a <;> cases b <;> simp only [compare?, toDouble?] at h <;> cases h
    · exact .boolean _ _
    · exact .int _ _
    · exact .intFloat _ _
    · exact .floatInt _ _
    · exact .float _ _
    · exact .utf8 _ _
  · intro h
    cases h <;> rfl

/-- **Comparing the other way round gives the reverse.** -/
theorem compare?_swap :
    a.compare? b = .ok (some order) ↔ b.compare? a = .ok (some order.swap) := by
  have hswap {a b : Value} {order : Ordering} (h : Compares a b order) : Compares b a order.swap := by
    cases h <;> rw [← Std.OrientedOrd.eq_swap] <;> constructor
  rw [compare?_eq_some_iff, compare?_eq_some_iff]
  refine ⟨hswap, fun h => ?_⟩
  simpa using hswap h

/-! ## Steps between numbers -/

/-- The place of an integer in the order of the doubles. -/
def place (x : Int64) : Int :=
  (Binary64.ofInt x.toInt).rank

theorem place_mono {x y : Int64} (h : x.toInt ≤ y.toInt) : place x ≤ place y :=
  Binary64.rank_ofInt_mono h

/-- Two different integers are rounded to one double. -/
def Merged (x y : Int64) (z : Binary64) : Prop :=
  x.toInt < y.toInt ∧ Binary64.ofInt x.toInt = z ∧ Binary64.ofInt y.toInt = z

/-- The values are a double and two integers that are rounded to it, and the steps by way of the
double, or from it and to it, do not tell the integers apart. -/
inductive Blurred : Value → Value → Value → Prop
  | first {x y : Int64} {z : Binary64} (h : Merged x y z) : Blurred (float z) (int x) (int y)
  | middle {x y : Int64} {z : Binary64} (h : Merged y x z) : Blurred (int x) (float z) (int y)
  | last {x y : Int64} {z : Binary64} (h : Merged x y z) : Blurred (int x) (int y) (float z)

variable {x y : Int64} {z : Binary64}

theorem merged_iff : Merged x y z ↔ x.toInt < y.toInt ∧ place x = z.rank ∧ place y = z.rank := by
  unfold Merged place
  rw [Binary64.rank_injective.eq_iff, Binary64.rank_injective.eq_iff]

theorem addsUp_first (hfirst : compare z.rank (place x) ≠ .gt)
    (hsecond : compare x.toInt y.toInt ≠ .gt) :
    AddsUp (compare z.rank (place x)) (compare x.toInt y.toInt) (compare z.rank (place y)) ↔
      ¬ Blurred (float z) (int x) (int y) := by
  have hblurred : Blurred (float z) (int x) (int y) ↔ Merged x y z :=
    ⟨fun h => by cases h with | first h => exact h, .first⟩
  rw [compare_le_iff_le] at hfirst hsecond
  have hplace := place_mono hsecond
  simp only [AddsUp, hblurred, merged_iff, compare_le_iff_le, compare_eq_iff_eq]
  omega

theorem addsUp_middle (hfirst : compare (place x) z.rank ≠ .gt)
    (hsecond : compare z.rank (place y) ≠ .gt) :
    AddsUp (compare (place x) z.rank) (compare z.rank (place y)) (compare x.toInt y.toInt) ↔
      ¬ Blurred (int x) (float z) (int y) := by
  have hblurred : Blurred (int x) (float z) (int y) ↔ Merged y x z :=
    ⟨fun h => by cases h with | middle h => exact h, .middle⟩
  rw [compare_le_iff_le] at hfirst hsecond
  have hplace : y.toInt ≤ x.toInt → place y ≤ place x := place_mono
  simp only [AddsUp, hblurred, merged_iff, compare_le_iff_le, compare_eq_iff_eq]
  omega

theorem addsUp_last (hfirst : compare x.toInt y.toInt ≠ .gt)
    (hsecond : compare (place y) z.rank ≠ .gt) :
    AddsUp (compare x.toInt y.toInt) (compare (place y) z.rank) (compare (place x) z.rank) ↔
      ¬ Blurred (int x) (int y) (float z) := by
  have hblurred : Blurred (int x) (int y) (float z) ↔ Merged x y z :=
    ⟨fun h => by cases h with | last h => exact h, .last⟩
  rw [compare_le_iff_le] at hfirst hsecond
  have hplace := place_mono hfirst
  simp only [AddsUp, hblurred, merged_iff, compare_le_iff_le, compare_eq_iff_eq]
  omega

/-- **Steps add up unless integers are blurred.** If neither the step from `a` to `b` nor the one
from `b` to `c` goes down, then `a` and `c` can be compared, and the steps add up exactly if the three
values are not blurred. -/
theorem compare?_trans {first second : Ordering} (hab : a.compare? b = .ok (some first))
    (hbc : b.compare? c = .ok (some second)) (hfirst : first ≠ .gt) (hsecond : second ≠ .gt) :
    ∃ both, a.compare? c = .ok (some both) ∧ (AddsUp first second both ↔ ¬ Blurred a b c) := by
  simp only [compare?_eq_some_iff] at hab hbc ⊢
  -- only two integers and a double are compared in two ways
  have hlinear {α : Type} [LinearOrder α] {x y z : α} {a b c : Value} (h : compare x y ≠ .gt)
      (h' : compare y z ≠ .gt) (hblurred : ¬ Blurred a b c) :
      AddsUp (compare x y) (compare y z) (compare x z) ↔ ¬ Blurred a b c :=
    iff_of_true (addsUp_compare h h') hblurred
  cases hab with
  | boolean x y =>
    cases hbc with
    | boolean _ z => exact ⟨_, .boolean x z, hlinear hfirst hsecond nofun⟩
  | utf8 x y =>
    cases hbc with
    | utf8 _ z => exact ⟨_, .utf8 x z, hlinear hfirst hsecond nofun⟩
  | int x y =>
    cases hbc with
    | int _ z => exact ⟨_, .int x z, hlinear hfirst hsecond nofun⟩
    | intFloat _ z => exact ⟨_, .intFloat x z, addsUp_last hfirst hsecond⟩
  | float x y =>
    cases hbc with
    | float _ z => exact ⟨_, .float x z, hlinear hfirst hsecond nofun⟩
    | floatInt _ z => exact ⟨_, .floatInt x z, hlinear hfirst hsecond nofun⟩
  | intFloat x y =>
    cases hbc with
    | float _ z => exact ⟨_, .intFloat x z, hlinear hfirst hsecond nofun⟩
    | floatInt _ z => exact ⟨_, .int x z, addsUp_middle hfirst hsecond⟩
  | floatInt x y =>
    cases hbc with
    | int _ z => exact ⟨_, .floatInt x z, addsUp_first hfirst hsecond⟩
    | intFloat _ z => exact ⟨_, .float x z, hlinear hfirst hsecond nofun⟩

/-- One of the two steps between blurred values is between a number and itself as a double. -/
theorem Blurred.compare?_eq (h : Blurred a b c) :
    a.compare? b = .ok (some .eq) ∨ b.compare? c = .ok (some .eq) := by
  have hsame {x : Int64} {z : Binary64} (h : Binary64.ofInt x.toInt = z) :
      (int x).compare? (float z) = .ok (some .eq) := by
    rw [compare?_eq_some_iff, ← h]
    convert Compares.intFloat x (Binary64.ofInt x.toInt)
    exact (compare_eq_iff_eq.mpr rfl).symm
  cases h with
  | first h => exact .inl (compare?_swap.mpr (hsame h.2.1))
  | middle h => exact .inl (hsame h.2.2)
  | last h => exact .inr (hsame h.2.2)

/-- **Strict steps add up.** -/
theorem compare?_lt_trans (hab : a.compare? b = .ok (some .lt)) (hbc : b.compare? c = .ok (some .lt)) :
    a.compare? c = .ok (some .lt) := by
  obtain ⟨both, hac, hadds⟩ := compare?_trans hab hbc (by decide) (by decide)
  have hclear : ¬ Blurred a b c := by
    intro hblurred
    rcases hblurred.compare?_eq with h | h
    · rw [hab] at h; cases h
    · rw [hbc] at h; cases h
  obtain ⟨hup, hsame⟩ := hadds.mpr hclear
  cases both with
  | lt => exact hac
  | eq => cases (hsame rfl).1
  | gt => exact absurd rfl hup

def CanCompare (a b : Value) : Prop :=
  ∃ order, a.compare? b = .ok (some order)

theorem canCompare_of_toDouble? {x y : Binary64} (ha : a.toDouble? = some x)
    (hb : b.toDouble? = some y) : CanCompare a b := by
  cases a <;> cases ha <;> cases b <;> cases hb <;> exact ⟨_, rfl⟩

/-- The comparison of the first value with the second one gives the wanted result. -/
def Beats (wanted : Ordering) (a b : Value) : Prop :=
  a.compare? b = .ok (some wanted)

variable {wanted : Ordering}

theorem Beats.trans (hwanted : wanted ≠ .eq) (hab : Beats wanted a b) (hbc : Beats wanted b c) :
    Beats wanted a c := by
  unfold Beats at *
  cases wanted with
  | lt => exact compare?_lt_trans hab hbc
  | eq => exact absurd rfl hwanted
  | gt =>
    rw [compare?_swap] at hab hbc ⊢
    exact compare?_lt_trans hbc hab

theorem Beats.asymm (hwanted : wanted ≠ .eq) (hab : Beats wanted a b) : ¬ Beats wanted b a := by
  intro hba
  unfold Beats at *
  rw [compare?_swap, hab] at hba
  cases wanted with
  | lt => cases hba
  | eq => exact hwanted rfl
  | gt => cases hba

/-- A value that no other one beats. -/
def IsUnbeaten (wanted : Ordering) (values : List Value) (value : Value) : Prop :=
  value ∈ values ∧ ∀ other ∈ values, ¬Beats wanted other value

/-- Values that do not beat each other are equal. -/
theorem compare?_eq_of_not_beats (hwanted : wanted ≠ .eq) (h : CanCompare a b)
    (hab : ¬Beats wanted a b) (hba : ¬Beats wanted b a) : a.compare? b = .ok (some .eq) := by
  obtain ⟨order, horder⟩ := h
  unfold Beats at hab hba
  rw [compare?_swap] at hba
  rw [horder] at hab hba ⊢
  cases wanted <;> cases order <;> simp_all

/-- Values of one type that are equal are the same. -/
theorem eq_of_compare?_eq (h : a.compare? b = .ok (some .eq)) (htype : a.datatype? = b.datatype?) :
    a = b := by
  rw [compare?_eq_some_iff] at h
  generalize hsame : Ordering.eq = order at h
  cases h with
  | boolean x y =>
    rw [eq_comm, compare_eq_iff_eq] at hsame
    cases x <;> cases y <;> first | rfl | cases hsame
  | int x y =>
    rw [eq_comm, compare_eq_iff_eq] at hsame
    rw [Int64.toInt_inj.mp hsame]
  | utf8 x y =>
    rw [eq_comm, compare_eq_iff_eq] at hsame
    rw [hsame]
  | float x y =>
    rw [eq_comm, compare_eq_iff_eq] at hsame
    rw [Binary64.rank_injective hsame]
  | intFloat x y => cases htype
  | floatInt x y => cases htype

end Value
end SqlPipeline
