import SqlPipeline.Proofs.Value.Aggregates

/-!
# Least and greatest of mixed numbers

Over integers and doubles together there may be several values that no other one is less than: they
are equal as far as comparing goes, but of different types. Which of them `min` comes to depends on
the order in which they are taken in, and likewise for `max`; but **whatever that order is, the
results are equal, and the same if they are of one type** (`Accumulator.fold_perm_eq`).
-/

namespace SqlPipeline

open Value (known CanCompare IsUnbeaten Blurred)

namespace Accumulator

variable {values others : List Value}

/-- The function keeps the values whose comparison with others gives the wanted result. -/
inductive Wants : AggregateFunction → Ordering → Prop
  | min : Wants .min .lt
  | max : Wants .max .gt

variable {function : AggregateFunction} {wanted : Ordering}

theorem Wants.ne_eq (h : Wants function wanted) : wanted ≠ .eq := by
  cases h <;> decide

/-- What `min` and `max` come to is not beaten by any value. -/
theorem fold_unbeaten (hwants : Wants function wanted)
    (h : ∀ a ∈ known values, ∀ b ∈ known values, CanCompare a b) :
    (known values = [] ∧ fold function values = .ok .null) ∨
      ∃ value, fold function values = .ok value ∧ IsUnbeaten wanted (known values) value := by
  have hkept : ∀ present rest, known values = present :: rest →
      ∃ last, rest.foldlM (kept wanted) (some present) = .ok (some last) ∧
        IsUnbeaten wanted (present :: rest) last := by
    intro present rest hknown
    obtain ⟨last, hlast, hunbeaten, -⟩ := foldlM_kept_unbeaten hwants.ne_eq (hknown ▸ h)
    exact ⟨last, hlast, hunbeaten⟩
  cases hwants with
  | min => exact fold_kept rfl addValue_min (fun _ => rfl) hkept
  | max => exact fold_kept rfl addValue_max (fun _ => rfl) hkept

/-- **The order of the rows decides only between values that are equal.** -/
theorem fold_perm_eq (hwants : Wants function wanted) (hperm : others.Perm values)
    (h : ∀ a ∈ known values, ∀ b ∈ known values, CanCompare a b) :
    (known values = [] ∧ fold function values = .ok .null ∧ fold function others = .ok .null) ∨
      ∃ value other, fold function values = .ok value ∧ fold function others = .ok other ∧
        IsUnbeaten wanted (known values) value ∧ IsUnbeaten wanted (known values) other ∧
        value.compare? other = .ok (some .eq) := by
  have hknown : (known others).Perm (known values) := hperm.filter _
  have hothers : ∀ a ∈ known others, ∀ b ∈ known others, CanCompare a b :=
    fun a ha b hb => h a (hknown.mem_iff.mp ha) b (hknown.mem_iff.mp hb)
  rcases fold_unbeaten hwants h with ⟨hnone, hnull⟩ | ⟨value, hvalue, hunbeaten⟩
  · rcases fold_unbeaten hwants hothers with ⟨-, hnull'⟩ | ⟨other, -, hmem, -⟩
    · exact .inl ⟨hnone, hnull, hnull'⟩
    · rw [hknown.mem_iff, hnone] at hmem
      cases hmem
  · rcases fold_unbeaten hwants hothers with ⟨hnone, -⟩ | ⟨other, hother, hmem, hunbeaten'⟩
    · have hmem := hknown.mem_iff.mpr hunbeaten.1
      rw [hnone] at hmem
      cases hmem
    · have hmem : other ∈ known values := hknown.mem_iff.mp hmem
      have hequal := Value.compare?_eq_of_not_beats hwants.ne_eq (h value hunbeaten.1 other hmem)
        (hunbeaten' value (hknown.mem_iff.mpr hunbeaten.1)) (hunbeaten.2 other hmem)
      exact .inr ⟨value, other, hvalue, hother, hunbeaten,
        ⟨hmem, fun a ha => hunbeaten' a (hknown.mem_iff.mpr ha)⟩, hequal⟩

/-- **How far comparing is an order, and what follows for `min` and `max`.** Comparing the other way
round gives the reverse. Of values `a`, `b`, `c` with `a` not greater than `b` and `b` not greater
than `c`, `a` is not greater than `c`, and equal to it only if both steps are, exactly if they are not
a double and two different integers that are rounded to it, standing as `Value.Blurred` tells. And
over values that can be compared with each other, what `min` and `max` come to in one order of the
rows is equal to what they come to in any other, and the same if both results are of one type. -/
theorem compare_order :
    (∀ (a b : Value) (order : Ordering),
      a.compare? b = .ok (some order) ↔ b.compare? a = .ok (some order.swap)) ∧
    (∀ (a b c : Value) (first second : Ordering), a.compare? b = .ok (some first) →
      b.compare? c = .ok (some second) → first ≠ .gt → second ≠ .gt →
      ∃ both, a.compare? c = .ok (some both) ∧
        ((both ≠ .gt ∧ (both = .eq → first = .eq ∧ second = .eq)) ↔ ¬Blurred a b c)) ∧
    ∀ (function : AggregateFunction) (wanted : Ordering) (values others : List Value),
      Wants function wanted → others.Perm values →
      (∀ a ∈ known values, ∀ b ∈ known values, CanCompare a b) →
      (known values = [] ∧ fold function values = .ok .null ∧ fold function others = .ok .null) ∨
        ∃ value other, fold function values = .ok value ∧ fold function others = .ok other ∧
          IsUnbeaten wanted (known values) value ∧ IsUnbeaten wanted (known values) other ∧
          value.compare? other = .ok (some .eq) ∧
          (value.datatype? = other.datatype? → value = other) := by
  refine ⟨fun _ _ _ => Value.compare?_swap, fun _ _ _ _ _ => Value.compare?_trans, ?_⟩
  intro function wanted values others hwants hperm h
  rcases fold_perm_eq hwants hperm h with hnone | ⟨value, other, hvalue, hother, hleast, hleast', hequal⟩
  · exact .inl hnone
  · exact .inr ⟨value, other, hvalue, hother, hleast, hleast', hequal,
      Value.eq_of_compare?_eq hequal⟩

/-- 2^53 + 1 is equal to the double 2^53, which is equal to the integer 2^53, but greater than the
latter; and the least of an integer and a double that are equal is the one that comes first. -/
theorem compare_not_trans :
    let greater : Value := .int 9007199254740993
    let double : Value := .float ⟨0x4340000000000000⟩
    let integer : Value := .int 9007199254740992
    greater.compare? double = .ok (some .eq) ∧ double.compare? integer = .ok (some .eq) ∧
      greater.compare? integer = .ok (some .gt) ∧
      fold .min [greater, double] = .ok greater ∧ fold .min [double, greater] = .ok double :=
  ⟨rfl, rfl, rfl, rfl, rfl⟩

/-- Whichever of two equal numbers comes first, and wherever a NULL stands, the results are equal. -/
theorem compare_order_mixed :
    let values : List Value := [.int 9007199254740993, .null, .float ⟨0x4340000000000000⟩]
    let others : List Value := [.float ⟨0x4340000000000000⟩, .int 9007199254740993, .null]
    ∃ value other, fold .min values = .ok value ∧ fold .min others = .ok other ∧
      value.compare? other = .ok (some .eq) := by
  intro values others
  have hknown : known values = [.int 9007199254740993, .float ⟨0x4340000000000000⟩] := rfl
  have hcompare : ∀ a ∈ known values, ∀ b ∈ known values, CanCompare a b := by
    have hnumber : ∀ a ∈ known values, ∃ x, a.toDouble? = some x := by simp [hknown, Value.toDouble?]
    intro a ha b hb
    obtain ⟨x, hx⟩ := hnumber a ha
    obtain ⟨y, hy⟩ := hnumber b hb
    exact Value.canCompare_of_toDouble? hx hy
  rcases compare_order.2.2 .min .lt values others .min (by decide) hcompare with
    ⟨hnone, -⟩ | ⟨value, other, hvalue, hother, -, -, hequal, -⟩
  · rw [hknown] at hnone
    cases hnone
  · exact ⟨value, other, hvalue, hother, hequal⟩

end Accumulator
end SqlPipeline
