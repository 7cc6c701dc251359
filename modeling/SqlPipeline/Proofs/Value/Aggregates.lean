import Mathlib.Algebra.Ring.Int.Defs
import Mathlib.Data.String.Basic
import Mathlib.Order.Compare
import SqlPipeline.Aggregate
import SqlPipeline.Proofs.Table.Typing
import SqlPipeline.Proofs.Value.Order

/-!
# What aggregates come to

An accumulator keeps one state and changes it with each value that is not NULL. What it comes to in
the end is told here without the state: the number of the values, the first and the last of them in
the order of their type, and their sum. **All of them are what they are called**
(`Accumulator.fold_values`).

The least and the greatest value are found by one loop, which keeps a value that no other one beats
(`Accumulator.foldlM_kept_unbeaten`). In an order this is the value that comes first
(`Accumulator.foldlM_kept`). A sum is exact up to the first prefix of the integers whose
sum does not have 64 bits, and fails there (`Accumulator.foldlM_plus`), even if later integers would
bring it back.
-/

namespace SqlPipeline

/-! ## The order of a type -/

namespace Value

/-- The order of the values of a type: truth values with FALSE first, integers by their size, texts
by their code points. -/
inductive Le : Value → Value → Prop
  | boolean {a b : Bool} (h : a ≤ b) : Le (.boolean a) (.boolean b)
  | int {a b : Int64} (h : a.toInt ≤ b.toInt) : Le (.int a) (.int b)
  | utf8 {a b : String} (h : a ≤ b) : Le (.utf8 a) (.utf8 b)

variable {a b c : Value}

theorem Le.trans (h : Le a b) (h' : Le b c) : Le a c := by
  cases h with
  | boolean h => cases h' with | boolean h' => exact .boolean (h.trans h')
  | int h => cases h' with | int h' => exact .int (h.trans h')
  | utf8 h => cases h' with | utf8 h' => exact .utf8 (h.trans h')

theorem Le.antisymm (h : Le a b) (h' : Le b a) : a = b := by
  cases h with
  | boolean h => cases h' with | boolean h' => rw [h.antisymm h']
  | int h => cases h' with | int h' => rw [Int64.toInt_inj.mp (h.antisymm h')]
  | utf8 h => cases h' with | utf8 h' => rw [h.antisymm h']

/-- Two values of one type can be compared in its order. -/
def Comparable (a b : Value) : Prop :=
  Le a b ∨ Le b a

theorem comparable_of_datatype? {type : DataType} (htype : type ≠ .float64)
    (ha : a.datatype? = some type) (hb : b.datatype? = some type) : Comparable a b := by
  cases a with
  | null => cases ha
  | boolean a =>
    cases ha
    cases b <;> cases hb
    exact (le_total a _).imp .boolean .boolean
  | int a =>
    cases ha
    cases b <;> cases hb
    exact (le_total a.toInt _).imp .int .int
  | float a => cases ha; exact absurd rfl htype
  | utf8 a =>
    cases ha
    cases b <;> cases hb
    exact (le_total a _).imp .utf8 .utf8

/-- Comparing two values tells their order. -/
theorem compare?_of_comparable (h : Comparable a b) :
    ∃ order, a.compare? b = .ok (some order) ∧ (order = .lt ↔ ¬Le b a) ∧ (order = .gt ↔ ¬Le a b) := by
  have hboolean : ∀ x y : Bool, Le (.boolean x) (.boolean y) ↔ x.toNat ≤ y.toNat := by
    intro x y
    refine ⟨fun h => by cases h with | boolean h => exact Bool.toNat_le_toNat h, fun h => .boolean ?_⟩
    revert h
    cases x <;> cases y <;> decide
  have hint : ∀ x y : Int64, Le (.int x) (.int y) ↔ x.toInt ≤ y.toInt :=
    fun x y => ⟨fun h => by cases h with | int h => exact h, .int⟩
  have hutf8 : ∀ x y : String, Le (.utf8 x) (.utf8 y) ↔ x ≤ y :=
    fun x y => ⟨fun h => by cases h with | utf8 h => exact h, .utf8⟩
  have hcases : (∃ x y, a = .boolean x ∧ b = .boolean y) ∨ (∃ x y, a = .int x ∧ b = .int y) ∨
      ∃ x y, a = .utf8 x ∧ b = .utf8 y := by
    rcases h with h | h <;> cases h <;> simp
  rcases hcases with ⟨x, y, rfl, rfl⟩ | ⟨x, y, rfl, rfl⟩ | ⟨x, y, rfl, rfl⟩
  · refine ⟨Ord.compare x.toNat y.toNat, rfl, ?_, ?_⟩
    · rw [hboolean, not_le, compare_lt_iff_lt]
    · rw [hboolean, not_le, compare_gt_iff_gt]
  · refine ⟨Ord.compare x.toInt y.toInt, rfl, ?_, ?_⟩
    · rw [hint, not_le, compare_lt_iff_lt]
    · rw [hint, not_le, compare_gt_iff_gt]
  · refine ⟨Ord.compare x y, rfl, ?_, ?_⟩
    · rw [hutf8, not_le, compare_lt_iff_lt]
    · rw [hutf8, not_le, compare_gt_iff_gt]

/-! ## Parts of a list of values -/

def known (values : List Value) : List Value :=
  values.filter fun value => !value.isNull

def integers (values : List Value) : List Int64 :=
  values.filterMap fun value => match value with
    | .int n => some n
    | _ => none

def total (integers : List Int64) : Int :=
  (integers.map Int64.toInt).sum

def Has64Bits (n : Int) : Prop :=
  minInt64 ≤ n ∧ n ≤ maxInt64

instance (n : Int) : Decidable (Has64Bits n) :=
  inferInstanceAs (Decidable (_ ∧ _))

/-- The value that comes first in an order. -/
def IsFirst (Before : Value → Value → Prop) (values : List Value) (first : Value) : Prop :=
  first ∈ values ∧ ∀ value ∈ values, Before first value

abbrev IsLeast : List Value → Value → Prop :=
  IsFirst Le

abbrev IsGreatest : List Value → Value → Prop :=
  IsFirst fun a b => Le b a

/-- An order of the values of a type, in which a value is before another one if the comparison of
the two gives the wanted result. -/
structure Orders (wanted : Ordering) (Before : Value → Value → Prop) : Prop where
  trans : ∀ {a b c}, Before a b → Before b c → Before a c
  antisymm : ∀ {a b}, Before a b → Before b a → a = b
  total : ∀ {a b}, Comparable a b → Before a b ∨ Before b a
  compare : ∀ {a b}, Comparable a b →
    ∃ order, a.compare? b = .ok (some order) ∧ (order = wanted ↔ ¬Before b a)

theorem orders_lt : Orders .lt Le where
  trans := Le.trans
  antisymm := Le.antisymm
  total := id
  compare h := by
    obtain ⟨order, hcompare, hlt, -⟩ := compare?_of_comparable h
    exact ⟨order, hcompare, hlt⟩

theorem orders_gt : Orders .gt fun a b => Le b a where
  trans h h' := h'.trans h
  antisymm h h' := h'.antisymm h
  total := Or.symm
  compare h := by
    obtain ⟨order, hcompare, -, hgt⟩ := compare?_of_comparable h
    exact ⟨order, hcompare, hgt⟩

variable {wanted : Ordering} {Before : Value → Value → Prop}

/-- The first of some values does not depend on the order in which they are listed. -/
theorem IsFirst.unique (horders : Orders wanted Before) {values others : List Value}
    (hperm : values.Perm others) (h : IsFirst Before values a) (h' : IsFirst Before others b) :
    a = b :=
  horders.antisymm (h.2 b (hperm.mem_iff.mpr h'.1)) (h'.2 a (hperm.mem_iff.mp h.1))

/-- The values of a column of one type that are not NULL can be compared. -/
theorem comparable_of_mem_known {type : DataType} (htype : type ≠ .float64) {values : List Value}
    (hvalues : ∀ value ∈ values, Fits type value) (ha : a ∈ known values) (hb : b ∈ known values) :
    Comparable a b := by
  have htyped : ∀ value ∈ known values, value.datatype? = some type := by
    intro value hvalue
    obtain ⟨hmem, hknown⟩ := List.mem_filter.mp hvalue
    rcases hvalues value hmem with rfl | htyped
    · cases hknown
    · exact htyped
  exact comparable_of_datatype? htype (htyped a ha) (htyped b hb)

/-- Among NULLs and integers, what is known are the integers. -/
theorem known_eq_integers {values : List Value} (hvalues : ∀ value ∈ values, Fits .int64 value) :
    known values = (integers values).map int := by
  induction values with
  | nil => rfl
  | cons value rest ih =>
    have hrest := ih fun other hother => hvalues other (List.mem_cons_of_mem _ hother)
    unfold known integers at hrest ⊢
    rcases hvalues value List.mem_cons_self with rfl | htyped
    · exact hrest
    · cases value with
      | int n => exact congrArg (int n :: ·) hrest
      | _ => cases htyped

end Value

/-! ## One state after the other -/

namespace Accumulator

open Value (known integers total Has64Bits Comparable IsFirst IsLeast IsGreatest Orders CanCompare
  Beats IsUnbeaten)

variable {σ : Type} {values : List Value}

/-- What an aggregate function comes to over values, which are taken in one by one. -/
def fold (function : AggregateFunction) (values : List Value) : Result Value :=
  (values.foldlM add (start function)).map finish

/-- NULLs change nothing. -/
theorem foldlM_add (values : List Value) (acc : Accumulator) :
    values.foldlM add acc = (known values).foldlM (fun acc value => acc.addValue value) acc := by
  induction values generalizing acc with
  | nil => rfl
  | cons value rest ih =>
    unfold known
    rw [List.foldlM_cons, List.filter_cons]
    by_cases hnull : value.isNull = true
    · rw [add, if_pos hnull, if_neg (by simp [hnull])]
      exact ih acc
    · rw [add, if_neg hnull, if_pos (by simp [hnull]), List.foldlM_cons]
      exact bind_congr fun next => ih next

/-- A kind of accumulator goes from state to state. -/
theorem fold_eq {function : AggregateFunction} {make : σ → Accumulator} {first : σ}
    {step : σ → Value → Result σ} (hstart : start function = make first)
    (hstep : ∀ state value, (make state).addValue value = (step state value).map make) :
    fold function values = ((known values).foldlM step first).map fun last => (make last).finish := by
  have hfold : ∀ (values : List Value) (state : σ),
      values.foldlM (fun acc value => acc.addValue value) (make state) =
        (values.foldlM step state).map make := by
    intro values
    induction values with
    | nil => exact fun _ => rfl
    | cons value rest ih =>
      intro state
      rw [List.foldlM_cons, List.foldlM_cons, hstep]
      cases step state value with
      | error error => rfl
      | ok next => exact ih next
  rw [fold, foldlM_add, hstart, hfold, Result.map_map]

/-! ### The number of values -/

theorem fold_count (values : List Value) :
    fold .count values = .ok (.int (Int64.ofNat (known values).length)) := by
  have hlength : ∀ (values : List Value) (n : Nat),
      values.foldlM (fun n _ => (Except.ok (n + 1) : Result Nat)) n = .ok (n + values.length) := by
    intro values
    induction values with
    | nil => exact fun _ => rfl
    | cons value rest ih =>
      intro n
      rw [List.foldlM_cons, Result.ok_bind, ih, List.length_cons, Nat.add_right_comm, Nat.add_assoc]
  have hover : fold .count values = _ :=
    @fold_eq Nat values .count count 0 (fun n _ => .ok (n + 1)) rfl fun _ _ => rfl
  rw [hover, hlength, Nat.zero_add]
  rfl

/-! ### The first value in an order -/

/-- The value that is kept when another one comes, which takes its place if it compares as wanted. -/
def kept (wanted : Ordering) (present : Option Value) (value : Value) : Result (Option Value) :=
  (replaces wanted value present).map fun replaced => if replaced then some value else present

theorem addValue_min (least : Option Value) (value : Value) :
    (min least).addValue value = (kept .lt least value).map min := by
  unfold kept
  rw [addValue]
  rcases replaces .lt value least with error | replaced
  · rfl
  · cases replaced <;> rfl

theorem addValue_max (greatest : Option Value) (value : Value) :
    (max greatest).addValue value = (kept .gt greatest value).map max := by
  unfold kept
  rw [addValue]
  rcases replaces .gt value greatest with error | replaced
  · rfl
  · cases replaced <;> rfl

variable {wanted : Ordering} {Before : Value → Value → Prop}

/-- Of two values, the new one is kept if it beats the present one. -/
theorem kept_some (wanted : Ordering) {present value : Value} (h : CanCompare value present) :
    (Beats wanted value present ∧ kept wanted (some present) value = .ok (some value)) ∨
      (¬Beats wanted value present ∧ kept wanted (some present) value = .ok (some present)) := by
  obtain ⟨order, hcompare⟩ := h
  have hkept : kept wanted (some present) value =
      .ok (if order = wanted then some value else some present) := by
    rw [kept, replaces, hcompare]
    by_cases horder : order = wanted <;> simp [Except.map, pure, Except.pure, horder]
  unfold Beats
  rw [hcompare, hkept]
  by_cases horder : order = wanted
  · exact .inl ⟨by rw [horder], by rw [if_pos horder]⟩
  · exact .inr ⟨by simpa using horder, by rw [if_neg horder]⟩

/-- **A value is kept that no other one beats**, though values that do not beat each other may be
different. It is the present one or beats it. -/
theorem foldlM_kept_unbeaten (hwanted : wanted ≠ .eq) {rest : List Value} {present : Value}
    (h : ∀ a ∈ present :: rest, ∀ b ∈ present :: rest, CanCompare a b) :
    ∃ last, rest.foldlM (kept wanted) (some present) = .ok (some last) ∧
      IsUnbeaten wanted (present :: rest) last ∧ (last = present ∨ Beats wanted last present) := by
  have hself {a : Value} : ¬Beats wanted a a := fun hbeats => hbeats.asymm hwanted hbeats
  induction rest generalizing present with
  | nil => exact ⟨present, rfl, ⟨by simp, by simp [hself]⟩, .inl rfl⟩
  | cons value rest ih =>
    rw [List.foldlM_cons]
    rcases kept_some wanted (h value (by simp) present (by simp)) with
      ⟨hbeats, hkept⟩ | ⟨hnot, hkept⟩
    · -- the new value is kept, and what comes after it beats the present one, too
      obtain ⟨last, hlast, ⟨hmem, hunbeaten⟩, hfrom⟩ :=
        ih fun a ha b hb => h a (.tail _ ha) b (.tail _ hb)
      have hlastBeats : Beats wanted last present := by
        rcases hfrom with rfl | hfrom
        · exact hbeats
        · exact hfrom.trans hwanted hbeats
      refine ⟨last, by rw [hkept]; exact hlast, ⟨.tail _ hmem, ?_⟩, .inr hlastBeats⟩
      intro other hother
      rcases List.mem_cons.mp hother with rfl | hother
      · exact hlastBeats.asymm hwanted
      · exact hunbeaten other hother
    · -- the present value is kept, and what beats it is not beaten by the new one
      have hsub : ∀ a ∈ present :: rest, a ∈ present :: value :: rest := by
        intro a ha
        rcases List.mem_cons.mp ha with rfl | ha
        · exact .head _
        · exact .tail _ (.tail _ ha)
      obtain ⟨last, hlast, ⟨hmem, hunbeaten⟩, hfrom⟩ :=
        ih fun a ha b hb => h a (hsub a ha) b (hsub b hb)
      refine ⟨last, by rw [hkept]; exact hlast, ⟨hsub last hmem, ?_⟩, hfrom⟩
      intro other hother
      rcases List.mem_cons.mp hother with rfl | hother
      · exact hunbeaten other (.head _)
      rcases List.mem_cons.mp hother with rfl | hother
      · intro hbeats
        rcases hfrom with rfl | hfrom
        · exact hnot hbeats
        · exact hnot (hbeats.trans hwanted hfrom)
      · exact hunbeaten other (.tail _ hother)

/-- **The first value of all is kept.** -/
theorem foldlM_kept (horders : Orders wanted Before) (hwanted : wanted ≠ .eq) {rest : List Value}
    {present : Value} (h : ∀ a ∈ present :: rest, ∀ b ∈ present :: rest, Comparable a b) :
    ∃ first, rest.foldlM (kept wanted) (some present) = .ok (some first) ∧
      IsFirst Before (present :: rest) first := by
  have hcompare : ∀ a ∈ present :: rest, ∀ b ∈ present :: rest, CanCompare a b := by
    intro a ha b hb
    obtain ⟨order, hcompare, -⟩ := horders.compare (h a ha b hb)
    exact ⟨order, hcompare⟩
  obtain ⟨first, hfirst, ⟨hmem, hunbeaten⟩, -⟩ := foldlM_kept_unbeaten hwanted hcompare
  refine ⟨first, hfirst, hmem, fun other hother => ?_⟩
  obtain ⟨order, hcompare, hwanted⟩ := horders.compare (h other hother first hmem)
  by_contra hbefore
  rw [hwanted.mpr hbefore] at hcompare
  exact hunbeaten other hother hcompare

/-! ### The sum -/

def plus (present : Option Value) (value : Value) : Result (Option Value) :=
  match present with
  | none => .ok (some value)
  | some present => some <$> present.applyBinary .plus value

theorem addValue_sum (present : Option Value) (value : Value) :
    (sum present).addValue value = (plus present value).map sum := by
  cases present with
  | none => rfl
  | some present =>
    rw [addValue, plus]
    cases present.applyBinary .plus value <;> rfl

def overflow (a b : Int) : Error :=
  .runtime ("Integer overflow evaluating " ++ toString a ++ " + " ++ toString b)

theorem has64Bits_toInt (n : Int64) : Has64Bits n.toInt := by
  have hle := n.le_toInt
  have hlt := n.toInt_lt
  unfold Has64Bits Value.minInt64 Value.maxInt64
  omega

/-- A sum of two integers is exact if it has 64 bits, and fails otherwise. -/
theorem plus_int (a b : Int64) :
    plus (some (.int a)) (.int b) =
      if Has64Bits (a.toInt + b.toInt) then .ok (some (.int (Int64.ofInt (a.toInt + b.toInt))))
      else .error (overflow a.toInt b.toInt) := by
  have hplus : plus (some (.int a)) (.int b) = some <$> Value.intArith .plus a b := rfl
  have hint : Value.int64? (a.toInt + b.toInt) =
      if Has64Bits (a.toInt + b.toInt) then some (Int64.ofInt (a.toInt + b.toInt)) else none := rfl
  have hsign : ∀ rest : String, " " ++ (Sql.BinaryOp.plus.text ++ (" " ++ rest)) = " + " ++ rest := by
    intro rest
    rw [← String.append_assoc, ← String.append_assoc]
    rfl
  rw [hplus, Value.intArith, if_neg (by simp), Value.intArith?, Value.ofInt?, hint]
  by_cases h : Has64Bits (a.toInt + b.toInt)
  · rw [if_pos h, if_pos h]
    rfl
  · rw [if_neg h, if_neg h, overflow]
    simp only [String.append_assoc, hsign]
    rfl

theorem toInt_ofInt {n : Int} (h : Has64Bits n) : (Int64.ofInt n).toInt = n := by
  unfold Has64Bits Value.minInt64 Value.maxInt64 at h
  exact Int64.toInt_ofInt_of_le (by omega) (by omega)

/-- Summing integers from a first one on goes well up to the one with which the sum does not have 64
bits. -/
inductive Sums (first : Int) (rest : List Int64) : Result (Option Value) → Prop
  /-- All sums have 64 bits. -/
  | exact (sum : Int64) (hfits : ∀ k, Has64Bits (first + total (rest.take k)))
    (hsum : sum.toInt = first + total rest) : Sums first rest (.ok (some (.int sum)))
  /-- The integer at place `k` is the first that is too much. -/
  | overflow (k : Nat) (n : Int64) (before : Int) (hn : rest[k]? = some n)
    (hbefore : before = first + total (rest.take k))
    (hfits : ∀ j ≤ k, Has64Bits (first + total (rest.take j)))
    (hover : ¬Has64Bits (before + n.toInt)) : Sums first rest (.error (overflow before n.toInt))

theorem total_take_succ (first : Int) (n : Int64) (rest : List Int64) (k : Nat) :
    first + total ((n :: rest).take (k + 1)) = first + n.toInt + total (rest.take k) := by
  rw [List.take_succ_cons, total, List.map_cons, List.sum_cons, ← Int.add_assoc]
  rfl

/-- One integer more at the front of a sum. -/
theorem Sums.cons {first : Int} {n : Int64} {rest : List Int64} {result : Result (Option Value)}
    (hfirst : Has64Bits first) (h : Sums (first + n.toInt) rest result) :
    Sums first (n :: rest) result := by
  cases h with
  | exact sum hfits hsum =>
    refine .exact sum (fun k => ?_) (hsum.trans (Int.add_assoc _ _ _))
    cases k with
    | zero => exact (Int.add_zero first).symm ▸ hfirst
    | succ k => exact (total_take_succ first n rest k).symm ▸ hfits k
  | overflow k m before hm hbefore hfits hover =>
    refine .overflow (k + 1) m before hm (hbefore.trans (total_take_succ first n rest k).symm)
      (fun j hj => ?_) hover
    cases j with
    | zero => exact (Int.add_zero first).symm ▸ hfirst
    | succ j => exact (total_take_succ first n rest j).symm ▸ hfits j (Nat.le_of_succ_le_succ hj)

/-- **A sum is exact up to the first prefix of the integers that does not have 64 bits.** -/
theorem foldlM_plus :
    ∀ (rest : List Int64) (first : Int64),
      Sums first.toInt rest ((rest.map Value.int).foldlM plus (some (.int first)))
  | [], first => by
    refine .exact first (fun k => ?_) (Int.add_zero _).symm
    rw [List.take_nil, show total [] = 0 from rfl, Int.add_zero]
    exact has64Bits_toInt first
  | n :: rest, first => by
    rw [List.map_cons, List.foldlM_cons, plus_int]
    by_cases hbits : Has64Bits (first.toInt + n.toInt)
    · have hsums := foldlM_plus rest (Int64.ofInt (first.toInt + n.toInt))
      rw [toInt_ofInt hbits] at hsums
      rw [if_pos hbits, Result.ok_bind]
      exact .cons (has64Bits_toInt first) hsums
    · rw [if_neg hbits, Result.error_bind]
      refine .overflow 0 n first.toInt rfl (Int.add_zero _).symm (fun j hj => ?_) hbits
      rw [Nat.le_zero.mp hj, List.take_zero, show total [] = 0 from rfl, Int.add_zero]
      exact has64Bits_toInt first

/-! ## The main statement -/

/-- What the least or the greatest value of some values comes to: NULL if all of them are NULL, and
otherwise the one that is kept. -/
theorem fold_kept {function : AggregateFunction} {make : Option Value → Accumulator}
    {Chosen : List Value → Value → Prop} (hstart : start function = make none)
    (hadd : ∀ state value, (make state).addValue value = (kept wanted state value).map make)
    (hfinish : ∀ state, (make state).finish = state.getD .null)
    (hkept : ∀ present rest, known values = present :: rest →
      ∃ last, rest.foldlM (kept wanted) (some present) = .ok (some last) ∧
        Chosen (present :: rest) last) :
    (known values = [] ∧ fold function values = .ok .null) ∨
      ∃ last, fold function values = .ok last ∧ Chosen (known values) last := by
  rw [fold_eq hstart hadd]
  cases hknown : known values with
  | nil => exact .inl ⟨rfl, congrArg Except.ok (hfinish none)⟩
  | cons present rest =>
    obtain ⟨last, hlast, hchosen⟩ := hkept present rest hknown
    have hloop : (present :: rest).foldlM (kept wanted) none = .ok (some last) := hlast
    exact .inr ⟨last, by rw [hloop]; exact congrArg Except.ok (hfinish (some last)), hchosen⟩

theorem fold_min (h : ∀ a ∈ known values, ∀ b ∈ known values, Comparable a b) :
    (known values = [] ∧ fold .min values = .ok .null) ∨
      ∃ least, fold .min values = .ok least ∧ IsLeast (known values) least :=
  fold_kept rfl addValue_min (fun _ => rfl) fun _ _ hknown =>
    foldlM_kept Value.orders_lt (by decide) (hknown ▸ h)

theorem fold_max (h : ∀ a ∈ known values, ∀ b ∈ known values, Comparable a b) :
    (known values = [] ∧ fold .max values = .ok .null) ∨
      ∃ greatest, fold .max values = .ok greatest ∧ IsGreatest (known values) greatest :=
  fold_kept rfl addValue_max (fun _ => rfl) fun _ _ hknown =>
    foldlM_kept Value.orders_gt (by decide) (hknown ▸ h)

theorem fold_sum (values : List Value) :
    fold .sum values = ((known values).foldlM plus none).map fun last => last.getD .null :=
  @fold_eq _ values .sum sum none plus rfl addValue_sum

/-- A sum of integers, of which there are some. -/
theorem sums_integers (hvalues : ∀ value ∈ values, Value.Fits .int64 value)
    (hsome : known values ≠ []) :
    Sums 0 (integers values) ((known values).foldlM plus none) := by
  have hknown := Value.known_eq_integers hvalues
  rw [hknown] at hsome ⊢
  cases hintegers : integers values with
  | nil => rw [hintegers] at hsome; exact absurd rfl hsome
  | cons first rest =>
    refine .cons (by decide) ?_
    rw [Int.zero_add]
    exact foldlM_plus rest first

/-- What comes first does not depend on the order in which the values are taken in. -/
theorem fold_first_perm {function : AggregateFunction} {others : List Value}
    (horders : Orders wanted Before) (hperm : others.Perm values)
    (h : (known values = [] ∧ fold function values = .ok .null) ∨
      ∃ first, fold function values = .ok first ∧ IsFirst Before (known values) first)
    (h' : (known others = [] ∧ fold function others = .ok .null) ∨
      ∃ first, fold function others = .ok first ∧ IsFirst Before (known others) first) :
    fold function others = fold function values := by
  have hknown : (known others).Perm (known values) := hperm.filter _
  rcases h with ⟨hnone, hnull⟩ | ⟨first, hfirst, hisFirst⟩
  · rcases h' with ⟨-, hnull'⟩ | ⟨other, -, hother⟩
    · rw [hnull, hnull']
    · have hmem := hknown.mem_iff.mp hother.1
      rw [hnone] at hmem
      cases hmem
  · rcases h' with ⟨hnone', -⟩ | ⟨other, hover, hother⟩
    · have hmem := hknown.mem_iff.mpr hisFirst.1
      rw [hnone'] at hmem
      cases hmem
    · rw [hfirst, hover, hother.unique horders hknown hisFirst]

/-- **Aggregates are what they are called.** Over values that are NULL or of one type other than that
of doubles:

* `count` comes to the number of the values that are not NULL, which is that number as it stands
  unless there are 2^63 or more;
* `min`, `max` and `sum` come to NULL if there are none;
* `min` and `max` come to the least and the greatest of them in the order of their type, in whatever
  order all the values are taken in;
* `sum` over integers comes to their sum if all its prefixes have 64 bits, and otherwise fails with
  an overflow at the first prefix that does not. -/
theorem fold_values {type : DataType} (htype : type ≠ .float64)
    (hvalues : ∀ value ∈ values, Value.Fits type value) :
    fold .count values = .ok (.int (Int64.ofNat (known values).length)) ∧
    ((known values).length < 2 ^ 63 →
      (Int64.ofNat (known values).length).toInt = (known values).length) ∧
    (known values = [] → fold .min values = .ok .null ∧ fold .max values = .ok .null ∧
      fold .sum values = .ok .null) ∧
    (known values ≠ [] → ∃ least greatest,
      fold .min values = .ok least ∧ IsLeast (known values) least ∧
      fold .max values = .ok greatest ∧ IsGreatest (known values) greatest) ∧
    (∀ others : List Value, others.Perm values →
      fold .min others = fold .min values ∧ fold .max others = fold .max values) ∧
    (type = .int64 → known values ≠ [] →
      ((∀ k, Has64Bits (total ((integers values).take k))) →
        ∃ sum : Int64, fold .sum values = .ok (.int sum) ∧ sum.toInt = total (integers values)) ∧
      ((¬∀ k, Has64Bits (total ((integers values).take k))) →
        ∃ k n, (integers values)[k]? = some n ∧
          (∀ j ≤ k, Has64Bits (total ((integers values).take j))) ∧
          ¬Has64Bits (total ((integers values).take k) + n.toInt) ∧
          fold .sum values =
            .error (overflow (total ((integers values).take k)) n.toInt))) := by
  have hcomparable : ∀ {others : List Value}, others.Perm values →
      ∀ a ∈ known others, ∀ b ∈ known others, Comparable a b :=
    fun hperm a ha b hb => Value.comparable_of_mem_known htype
      (fun value hvalue => hvalues value (hperm.mem_iff.mp hvalue)) ha hb
  have hmin := fold_min (hcomparable (List.Perm.refl values))
  have hmax := fold_max (hcomparable (List.Perm.refl values))
  refine ⟨fold_count values, fun hlength => ?count, fun hnone => ?none, fun hsome => ?extremes,
    fun others hperm => ?reordered, fun hint hsome => ?sum⟩
  case count => exact Int64.toInt_ofNat_of_lt hlength
  case none =>
    have hnot : ∀ {Before : Value → Value → Prop} {first}, ¬IsFirst Before (known values) first :=
      fun hfirst => by rw [hnone] at hfirst; cases hfirst.1
    refine ⟨?_, ?_, ?_⟩
    · exact hmin.elim (·.2) fun ⟨_, _, hfirst⟩ => (hnot hfirst).elim
    · exact hmax.elim (·.2) fun ⟨_, _, hfirst⟩ => (hnot hfirst).elim
    · rw [fold_sum, hnone]
      rfl
  case extremes =>
    obtain ⟨least, hleast⟩ := hmin.resolve_left fun hnone => hsome hnone.1
    obtain ⟨greatest, hgreatest⟩ := hmax.resolve_left fun hnone => hsome hnone.1
    exact ⟨least, greatest, hleast.1, hleast.2, hgreatest.1, hgreatest.2⟩
  case reordered =>
    exact ⟨fold_first_perm Value.orders_lt hperm hmin (fold_min (hcomparable hperm)),
      fold_first_perm Value.orders_gt hperm hmax (fold_max (hcomparable hperm))⟩
  case sum =>
    subst hint
    have hsums := sums_integers hvalues hsome
    rw [fold_sum]
    generalize (known values).foldlM plus none = result at hsums
    cases hsums with
    | exact sum hfits hsum =>
      simp only [Int.zero_add] at hfits hsum
      exact ⟨fun _ => ⟨sum, rfl, hsum⟩, fun hnot => absurd hfits hnot⟩
    | overflow k n before hn hbefore hfits hover =>
      simp only [Int.zero_add] at hbefore hfits
      subst hbefore
      refine ⟨fun hall => absurd (hall (k + 1)) ?_, fun _ => ⟨k, n, hn, hfits, hover, rfl⟩⟩
      rw [List.take_add_one, hn]
      unfold total at hover ⊢
      simpa using hover

/-- The three integers are counted, and the first and the last of them found. Their sum has 64 bits,
but that of the first two has not. -/
theorem fold_values_overflow :
    let most : Int64 := Int64.ofInt 0x7fffffffffffffff
    let values : List Value := [.int most, .null, .int 1, .int (-1)]
    (∀ value ∈ values, Value.Fits .int64 value) ∧ fold .count values = .ok (.int 3) ∧
      fold .min values = .ok (.int (-1)) ∧ fold .max values = .ok (.int most) ∧
      fold .sum values = .error (overflow 0x7fffffffffffffff 1) := by
  intro most values
  have hvalues : ∀ value ∈ values, Value.Fits .int64 value := by
    simp [values, Value.Fits, Value.datatype?]
  have hknown : known values = [.int most, .int 1, .int (-1)] := rfl
  have hleast : IsLeast (known values) (.int (-1)) := by
    rw [hknown]
    exact ⟨by simp, by simp [Value.Le.int (show (-1 : Int64).toInt ≤ most.toInt by decide),
      Value.Le.int (show (-1 : Int64).toInt ≤ (1 : Int64).toInt by decide),
      Value.Le.int (Int.le_refl (-1 : Int64).toInt)]⟩
  have hgreatest : IsGreatest (known values) (.int most) := by
    rw [hknown]
    exact ⟨by simp, by simp [Value.Le.int (Int.le_refl most.toInt),
      Value.Le.int (show (1 : Int64).toInt ≤ most.toInt by decide),
      Value.Le.int (show (-1 : Int64).toInt ≤ most.toInt by decide)]⟩
  obtain ⟨hcount, -, -, hfirst, -, hsum⟩ := @fold_values values .int64 (by decide) hvalues
  obtain ⟨least, greatest, hmin, hisLeast, hmax, hisGreatest⟩ := hfirst (by rw [hknown]; simp)
  obtain rfl := hisLeast.unique Value.orders_lt (List.Perm.refl _) hleast
  obtain rfl := hisGreatest.unique Value.orders_gt (List.Perm.refl _) hgreatest
  obtain ⟨k, n, hn, hfits, hover, herror⟩ := (hsum rfl (by rw [hknown]; simp)).2
    fun hall => absurd (hall 2) (by decide)
  -- all prefixes but that of the first two integers have 64 bits
  rcases k with _ | _ | k
  · cases hn
    exact absurd (by decide) hover
  · cases hn
    exact ⟨hvalues, hcount, hmin, hmax, herror⟩
  · exact absurd (hfits 2 (by omega)) (by decide)

end Accumulator
end SqlPipeline
