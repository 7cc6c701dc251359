import Mathlib.Data.List.Forall2
import SqlPipeline.Error

/-!
# Results, taken apart

Nearly every function of the library is a chain of steps that may fail. What a chain gives when it
succeeds is read off it here step by step: `bind_eq_ok` for two steps in a row, and
`mapM_eq_ok_iff` for one step taken on every element of a list, which succeeds exactly if the step
does on each of them.
-/

namespace SqlPipeline

variable {α β : Type}

/-- Two steps with a state are taken one after the other. -/
theorem bind_apply {σ : Type} (first : StateM σ α) (next : α → StateM σ β) (state : σ) :
    (first >>= next) state = next (first state).1 (first state).2 := rfl

/-- For each of some values there is a related one exactly if there is a list of related ones. -/
theorem exists_forall₂_iff {R : α → β → Prop} {xs : List α} :
    (∃ ys, List.Forall₂ R xs ys) ↔ ∀ x ∈ xs, ∃ y, R x y := by
  induction xs with
  | nil => exact ⟨(fun _ x hx => by cases hx), fun _ => ⟨[], .nil⟩⟩
  | cons x xs ih =>
    simp only [List.forall_mem_cons, ← ih, List.forall₂_cons_left_iff]
    constructor
    · rintro ⟨ys, y, rest, hy, hrest, -⟩
      exact ⟨⟨y, hy⟩, ⟨rest, hrest⟩⟩
    · rintro ⟨⟨y, hy⟩, ⟨rest, hrest⟩⟩
      exact ⟨y :: rest, y, rest, hy, hrest, rfl⟩

/-- Elements at the same place of related lists are related. -/
theorem exists_getElem?_of_forall₂ {α β : Type} {R : α → β → Prop} {xs : List α} {ys : List β}
    (h : List.Forall₂ R xs ys) : ∀ {i : Nat} {y : β}, ys[i]? = some y →
      ∃ x, xs[i]? = some x ∧ R x y := by
  induction h with
  | nil => exact fun hy => by cases hy
  | cons hfirst _ ih =>
    intro i y hy
    cases i with
    | zero => cases hy; exact ⟨_, rfl, hfirst⟩
    | succ i => exact ih hy

theorem exists_mem_of_forall₂ {R : α → β → Prop} {xs : List α} {ys : List β}
    (h : List.Forall₂ R xs ys) {y : β} (hy : y ∈ ys) : ∃ x ∈ xs, R x y := by
  obtain ⟨i, hi⟩ := List.mem_iff_getElem?.mp hy
  obtain ⟨x, hx, hrelated⟩ := exists_getElem?_of_forall₂ h hi
  exact ⟨x, List.mem_of_getElem? hx, hrelated⟩

/-- No element is left twice. -/
theorem nodup_eraseDups [BEq α] [LawfulBEq α] : ∀ xs : List α, xs.eraseDups.Nodup
  | [] => by simp
  | x :: rest => by
    rw [List.eraseDups_cons, List.nodup_cons]
    exact ⟨by simp, nodup_eraseDups _⟩
termination_by xs => xs.length
decreasing_by exact Nat.lt_succ_of_le (List.length_filter_le _ _)

/-- What is left of repeated elements does not depend on the elements that are dropped. -/
theorem eraseDups_filter [BEq α] [LawfulBEq α] (p : α → Bool) :
    ∀ xs : List α, (xs.filter p).eraseDups = xs.eraseDups.filter p
  | [] => by simp
  | x :: rest => by
    have hrest := eraseDups_filter p (rest.filter fun y => !y == x)
    rw [List.filter_filter] at hrest
    rw [List.eraseDups_cons, List.filter_cons, List.filter_cons]
    split
    · rw [List.eraseDups_cons, List.filter_filter, ← hrest]
      simp only [Bool.and_comm]
    · next hx =>
      rw [← hrest]
      congr 1
      apply List.filter_congr
      intro y _
      by_cases hy : y = x
      · simp [hy, hx]
      · simp [hy]
termination_by xs => xs.length
decreasing_by exact Nat.lt_succ_of_le (List.length_filter_le _ _)

namespace Result

/-- A chain of two steps succeeds if both do. -/
theorem bind_eq_ok {first : Result α} {next : α → Result β} {b : β} :
    (first >>= next) = .ok b ↔ ∃ a, first = .ok a ∧ next a = .ok b := by
  cases first with
  | error e => simp [bind, Except.bind]
  | ok a => simp [bind, Except.bind]

@[simp] theorem ok_bind (a : α) (next : α → Result β) :
    ((Except.ok a : Result α) >>= next) = next a := rfl

@[simp] theorem error_bind (e : Error) (next : α → Result β) :
    ((Except.error e : Result α) >>= next) = .error e := rfl

theorem map_map {γ : Type} (f : α → β) (g : β → γ) (result : Result α) :
    (result.map f).map g = result.map fun a => g (f a) := by
  cases result <;> rfl

theorem map_bind {γ : Type} (first : Result α) (next : α → Result β) (g : β → γ) :
    (first >>= next).map g = first >>= fun a => (next a).map g := by
  cases first <;> rfl

/-- Taking a step on all elements of a list succeeds with the results of the steps, in order. -/
theorem mapM_eq_ok_iff {f : α → Result β} :
    ∀ {xs : List α} {ys : List β},
      xs.mapM f = .ok ys ↔ List.Forall₂ (fun x y => f x = .ok y) xs ys
  | [], ys => by
    rw [List.mapM_nil, List.forall₂_nil_left_iff]
    exact ⟨fun h => by cases h; rfl, fun h => by rw [h]; rfl⟩
  | x :: xs, ys => by
    rw [List.mapM_cons, List.forall₂_cons_left_iff, bind_eq_ok]
    constructor
    · rintro ⟨y, hy, h⟩
      obtain ⟨rest, hrest, h⟩ := bind_eq_ok.mp h
      cases h
      exact ⟨y, rest, hy, mapM_eq_ok_iff.mp hrest, rfl⟩
    · rintro ⟨y, rest, hy, hrest, rfl⟩
      exact ⟨y, hy, bind_eq_ok.mpr ⟨rest, mapM_eq_ok_iff.mpr hrest, rfl⟩⟩

/-- Both fail with the same error, or both succeed with values that are related. -/
def Alike (Related : α → β → Prop) : Result α → Result β → Prop
  | .ok a, .ok b => Related a b
  | .error e, .error other => e = other
  | _, _ => False

/-- Chains of alike steps are alike. -/
theorem Alike.bind {γ δ : Type} {Related : α → β → Prop} {Next : γ → δ → Prop} {first : Result α}
    {other : Result β} {next : α → Result γ} {nextOther : β → Result δ}
    (h : Alike Related first other)
    (hnext : ∀ a b, first = .ok a → other = .ok b → Related a b →
      Alike Next (next a) (nextOther b)) :
    Alike Next (first >>= next) (other >>= nextOther) := by
  cases first with
  | error e =>
    cases other with
    | error e' => exact h
    | ok b => exact h.elim
  | ok a =>
    cases other with
    | error e => exact h.elim
    | ok b => exact hnext a b rfl rfl h

/-- Results that are alike in two ways are alike in both at once. -/
theorem Alike.and {Related Other : α → β → Prop} {first : Result α} {second : Result β}
    (h : Alike Related first second) (hother : Alike Other first second) :
    Alike (fun a b => Related a b ∧ Other a b) first second := by
  cases first <;> cases second <;> first | exact ⟨h, hother⟩ | exact h

theorem alike_self (result : Result α) : Alike Eq result result := by
  cases result <;> rfl

/-- A step without a state leaves the state alone. -/
theorem run_lift_eq_ok {σ : Type} {step : Result α} {start last : σ} {a : α} :
    (StateT.lift step).run start = .ok (a, last) ↔ step = .ok a ∧ start = last := by
  cases step with
  | error e => simp [StateT.lift, StateT.run]
  | ok found => simp [StateT.lift, StateT.run, pure, Except.pure]

/-- A step with a state succeeds if it does so with some state at its end. -/
theorem run'_eq_ok {σ : Type} {step : StateT σ Result α} {start : σ} {a : α} :
    step.run' start = .ok a ↔ ∃ last, step.run start = .ok (a, last) := by
  unfold StateT.run'
  cases h : step.run start with
  | error e => simp [show step start = .error e from h, Functor.map, Except.map]
  | ok found => simp [show step start = .ok found from h, Functor.map, Except.map, Prod.ext_iff]

end Result
end SqlPipeline
