import SqlPipeline.Proofs.Result
import SqlPipeline.Task.Run

/-!
# Flows, read backwards

A flow carries the rows that come out of a task and the failure that stops it, which depends on how
far its consumer reads. Two things about a flow out of a stage can be said whatever the stage is:

* **it is complete exactly if the flow into it is and the stage does not fail**
  (`Stage.complete_flow_iff`), and then its rows are those the stage makes of all rows it gets;
* **a failure of it is one of the flow into it, or of the stage** (`Stage.failure_flow`).

What a stage does to a whole list of rows follows from what it does to one row, if there is an
invariant of its state (`Stage.Turns.run`).
-/

namespace SqlPipeline

namespace Flow

/-- Everything that feeds a flow ran to its end. -/
def Complete (flow : Flow) : Prop :=
  flow.failureAtEnd = none

end Flow

namespace Stage

variable {σ : Type} {stage : Stage σ}

/-! ## One stage -/

/-- A consumer that takes everything never makes a stage stop early. -/
theorem readsFor_eq_none :
    ∀ {outs : List (List Row)} {taken : Nat}, outs.flatten.length ≤ taken →
      readsFor taken outs = none
  | [], _, _ => rfl
  | out :: outs, taken, h => by
    rw [List.flatten_cons, List.length_append] at h
    rw [readsFor, if_neg (by omega), readsFor_eq_none (by omega)]
    rfl

/-- What a stage passes on row by row is part of all it passes on. -/
theorem flatten_feed_le (stage : Stage σ) (rows : List Row) :
    (stage.feed stage.start rows).1.flatten.length ≤ (stage.run rows).1.length := by
  unfold run
  split
  · next outs last h =>
    rw [h, List.length_append]
    exact Nat.le_add_right _ _
  · next outs error h => simp only [h, Nat.le_refl]

/-- A consumer that takes all rows never makes the stage stop early. -/
theorem readsFor_all (stage : Stage σ) (rows : List Row) :
    readsFor (stage.run rows).1.length (stage.feed stage.start rows).1 = none :=
  readsFor_eq_none (flatten_feed_le stage rows)

/-- A stage that does not fail lets a flow end as it did. -/
theorem failureAtEnd_of_ok {input : Flow} (h : (stage.run input.rows).2 = .ok ()) :
    (stage.flow input).failureAtEnd = input.failureAtEnd := by
  have hreads := readsFor_all stage input.rows
  unfold Flow.failureAtEnd flow
  dsimp only
  rw [hreads, h]
  rfl

/-- A stage that fails on rows that are there already ends the flow by its failure. -/
theorem failureAtEnd_of_error {rows : List Row} {error : Error}
    (h : (stage.run rows).2 = .error error) :
    (stage.flow (.ofRows rows)).failureAtEnd = some (.error error) := by
  have hreads := readsFor_all stage rows
  unfold Flow.failureAtEnd flow
  dsimp only [Flow.ofRows]
  rw [hreads, h]
  rfl

/-- **A flow out of a stage is complete exactly if the flow into it is and the stage does not
fail.** -/
theorem complete_flow_iff {input : Flow} :
    (stage.flow input).Complete ↔ input.Complete ∧ (stage.run input.rows).2 = .ok () := by
  have hreads := readsFor_all stage input.rows
  unfold Flow.Complete Flow.failureAtEnd flow
  dsimp only
  rw [hreads]
  cases (stage.run input.rows).2 with
  | ok done => cases done; simp [Flow.failureAtEnd]
  | error error =>
    cases input.failure (stage.feed stage.start input.rows).1.length <;> simp

/-- **A failure of a flow out of a stage is one of the flow into it, or of the stage.** -/
theorem failure_flow {input : Flow} {taken : Nat} {failure : Failure}
    (h : (stage.flow input).failure taken = some failure) :
    (∃ reads, input.failure reads = some failure) ∨
      ∃ error, (stage.run input.rows).2 = .error error ∧ failure = .error error := by
  unfold flow at h
  dsimp only at h
  split at h
  · next reads _ => exact Or.inl ⟨reads, h⟩
  · exact Or.inl ⟨_, h⟩
  · next error _ hresult =>
    cases hinput : input.failure (stage.feed stage.start input.rows).1.length with
    | none =>
      rw [hinput] at h
      cases h
      exact Or.inr ⟨error, hresult, rfl⟩
    | some found =>
      rw [hinput] at h
      cases h
      exact Or.inl ⟨_, hinput⟩

/-! ## All rows of a stage -/

/-- What a stage does to one row: it keeps an invariant `Keeps` of its state, and from rows of the
kind `Reads` it makes rows of the kind `Sends` or fails with errors of the kind `Fails`. -/
structure Turns (stage : Stage σ) (Keeps : σ → Prop) (Reads Sends : Row → Prop)
    (Fails : Error → Prop) : Prop where
  start : Keeps stage.start
  sends : ∀ {state row}, Keeps state → Reads row → ∀ out ∈ (stage.step state row).1, Sends out
  next : ∀ {state row after}, Keeps state → Reads row →
    (stage.step state row).2 = .ok after → Keeps after
  fails : ∀ {state row error}, Keeps state → Reads row →
    (stage.step state row).2 = .error error → Fails error
  finish : ∀ {state}, Keeps state → ∀ out ∈ stage.finish state, Sends out

variable {Keeps : σ → Prop} {Reads Sends : Row → Prop} {Fails : Error → Prop}

/-- The invariant is carried from row to row. -/
theorem Turns.feed (h : stage.Turns Keeps Reads Sends Fails) :
    ∀ {rows : List Row} {state : σ}, Keeps state → (∀ row ∈ rows, Reads row) →
      (∀ out ∈ (stage.feed state rows).1.flatten, Sends out) ∧
        (∀ last, (stage.feed state rows).2 = .ok last → Keeps last) ∧
          ∀ error, (stage.feed state rows).2 = .error error → Fails error
  | [], state, hstate, _ => by
    refine ⟨(fun out hout => by cases hout), (fun last heq => ?_), (fun error heq => by cases heq)⟩
    cases heq
    exact hstate
  | row :: rest, state, hstate, hreads => by
    have hrow : Reads row := hreads row List.mem_cons_self
    have hout := h.sends hstate hrow
    cases hstep : stage.step state row with
    | mk out result =>
      rw [hstep] at hout
      cases result with
      | error error =>
        -- the rows from before the failure were sent all the same
        have herror := h.fails hstate hrow (congrArg Prod.snd hstep)
        simp only [Stage.feed, hstep]
        refine ⟨by simpa using hout, (fun last heq => by cases heq), (fun e heq => ?_)⟩
        cases heq
        exact herror
      | ok after =>
        have hkept := h.next hstate hrow (congrArg Prod.snd hstep)
        obtain ⟨houts, hlast, herrors⟩ :=
          h.feed hkept fun r hr => hreads r (List.mem_cons_of_mem _ hr)
        simp only [Stage.feed, hstep]
        refine ⟨(fun r hr => ?_), hlast, herrors⟩
        rcases List.mem_append.mp (List.flatten_cons ▸ hr) with hr | hr
        · exact hout r hr
        · exact houts r hr

/-- **What a stage does to one row, it does to all rows.** -/
theorem Turns.run (h : stage.Turns Keeps Reads Sends Fails) {rows : List Row}
    (hrows : ∀ row ∈ rows, Reads row) :
    (∀ out ∈ (stage.run rows).1, Sends out) ∧
      ∀ error, (stage.run rows).2 = .error error → Fails error := by
  obtain ⟨houts, hlast, herrors⟩ := h.feed h.start hrows
  unfold Stage.run
  split
  · next outs last hfeed =>
    rw [hfeed] at houts hlast
    refine ⟨(fun out hout => ?_), (fun error heq => by cases heq)⟩
    rcases List.mem_append.mp hout with hout | hout
    · exact houts out hout
    · exact h.finish (hlast last rfl) out hout
  · next outs error hfeed =>
    rw [hfeed] at houts herrors
    exact ⟨houts, fun e heq => by cases heq; exact herrors error rfl⟩

end Stage

/-! ## Joins -/

/-- What the joined rows of two flows are: the right side is read first, and the left side row by
row. -/
def Flow.join (kind : Sql.JoinKind) (on : Bound) (rightWidth : Nat) (left right : Flow) : Flow :=
  (Stage.join kind on rightWidth right.rows).flow
    { left with failure := fun reads => left.failure reads <|> right.failureAtEnd }

namespace Flow

variable {kind : Sql.JoinKind} {on : Bound} {rightWidth : Nat} {left right : Flow}

/-- **A join is complete exactly if both sides are and the condition does not fail.** -/
theorem complete_join_iff :
    (join kind on rightWidth left right).Complete ↔
      left.Complete ∧ right.Complete ∧
        ((Stage.join kind on rightWidth right.rows).run left.rows).2 = .ok () := by
  have hboth : (left.failureAtEnd <|> right.failureAtEnd) = none ↔
      left.failureAtEnd = none ∧ right.failureAtEnd = none := by
    cases left.failureAtEnd <;> simp
  rw [join, Stage.complete_flow_iff, ← and_assoc]
  exact and_congr_left' hboth

end Flow
end SqlPipeline
