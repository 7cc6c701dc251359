import Mathlib.Logic.Function.Iterate
import Mathlib.Data.List.Infix

/-!
# Recursions that end

A recursive function is described by its body: one call, in which the calls that it makes in turn
are a parameter. `Halts below size body f` says that this recursion ends by itself and that `f` is
what it comes to. If a function has a budget that is larger than what it is called for, and calls
itself only for smaller things, the budget plays no part in what it comes to (`Halts.of_budget`).

For readers, what is below a list is a rest of it that is further on (`Ahead`).
-/

namespace SqlPipeline

/-! ## Recursions -/

section Recursion

variable {ι : Type} {R : ι → Type}

/-- The recursion whose body is `body` ends and comes to `f`. In `body calls i`, which is the call
for `i`, the further calls are left to `calls`. -/
structure Halts (below : ι → ι → Prop) (size : ι → Nat)
    (body : ((i : ι) → R i) → (i : ι) → R i) (f : (i : ι) → R i) : Prop where
  /-- What is below something is smaller. -/
  shrinks {i j : ι} (h : below j i) : size j < size i
  /-- A call makes further calls only for what is below: no others matter to it. -/
  calls_below (i : ι) (calls : (i : ι) → R i) (h : ∀ j, below j i → calls j = f j) :
    body calls i = f i
  /-- If calls are cut off deeper than the size, what stands there instead does not matter. -/
  ends (depth : Nat) (i : ι) (cut : (i : ι) → R i) (h : size i < depth) : body^[depth] cut i = f i

variable {below : ι → ι → Prop} {size : ι → Nat} {body : ((i : ι) → R i) → (i : ι) → R i}
  {f : (i : ι) → R i}

theorem Halts.of_calls_below (hshrinks : ∀ {i j}, below j i → size j < size i)
    (hcalls : ∀ i calls, (∀ j, below j i → calls j = f j) → body calls i = f i) :
    Halts below size body f where
  shrinks := hshrinks
  calls_below := hcalls
  ends depth := by
    induction depth with
    | zero => exact fun _ _ h => absurd h (Nat.not_lt_zero _)
    | succ depth ih =>
      intro i cut h
      rw [Function.iterate_succ_apply']
      refine hcalls i _ fun j hj => ih j cut ?_
      exact Nat.lt_of_lt_of_le (hshrinks hj) (Nat.le_of_lt_succ h)

/-- A recursion that is bounded by a budget ends without it, if the budget it is given is larger
than the size and its calls are for smaller things. -/
theorem Halts.of_budget (within : Nat → (i : ι) → R i)
    (hshrinks : ∀ {i j}, below j i → size j < size i)
    (hbody : ∀ budget i, within (budget + 1) i = body (within budget) i)
    (hcalls : ∀ budget i calls, (∀ j, below j i → within budget j = calls j) →
      body (within budget) i = body calls i)
    (hf : ∀ i, ∃ budget, size i < budget ∧ f i = within budget i) : Halts below size body f := by
  have hsame : ∀ budget other i, size i < budget → size i < other →
      within budget i = within other i := by
    intro budget
    induction budget with
    | zero => exact fun _ _ h => absurd h (Nat.not_lt_zero _)
    | succ budget ih =>
      intro other i hbudget hother
      obtain ⟨other, rfl⟩ : ∃ left, other = left + 1 := ⟨other - 1, by omega⟩
      rw [hbody, hbody]
      refine hcalls budget i _ fun j hj => ?_
      have := hshrinks hj
      exact ih other j (by omega) (by omega)
  refine .of_calls_below hshrinks fun i calls h => ?_
  obtain ⟨budget, hbudget, heq⟩ := hf i
  obtain ⟨budget, rfl⟩ : ∃ left, budget = left + 1 := ⟨budget - 1, by omega⟩
  rw [heq, hbody]
  refine (hcalls budget i calls fun j hj => ?_).symm
  obtain ⟨own, hown, heqj⟩ := hf j
  have := hshrinks hj
  rw [h j hj, heqj]
  exact hsame budget own j (by omega) hown

end Recursion

/-- A rest of a list that is further on. -/
def Ahead {α : Type} (rest all : List α) : Prop :=
  rest <:+ all ∧ rest ≠ all

namespace Ahead

variable {α : Type} {rest all left : List α}

theorem length_lt (h : Ahead rest all) : rest.length < all.length := by
  refine Nat.lt_of_le_of_ne h.1.length_le fun heq => h.2 ?_
  exact h.1.eq_of_length heq

theorem of_cons {a : α} (h : rest <:+ left) : Ahead rest (a :: left) := by
  refine ⟨h.trans (List.suffix_cons a left), fun heq => ?_⟩
  have := h.length_le
  rw [heq, List.length_cons] at this
  omega

theorem trans_suffix (hrest : Ahead rest left) (hleft : left <:+ all) : Ahead rest all := by
  refine ⟨hrest.1.trans hleft, ?_⟩
  rintro rfl
  exact Nat.not_lt_of_le hleft.length_le hrest.length_lt

theorem suffix_trans (hrest : rest <:+ left) (hleft : Ahead left all) : Ahead rest all := by
  refine ⟨hrest.trans hleft.1, ?_⟩
  rintro rfl
  exact Nat.not_lt_of_le hrest.length_le hleft.length_lt

end Ahead

end SqlPipeline
