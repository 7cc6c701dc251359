import SqlPipeline.Proofs.Error.List
import SqlPipeline.Proofs.Plan.Does
import SqlPipeline.Task.Setup

/-!
# Closing trees of tasks

Closing a tree closes what is below each task and reports the errors there as one, which may be
reported with others further up. Only the tasks without children, the leaves, can fail. Here they
are closed in any way, which may leave something behind in a state (`Task.closeWith`); closing them
as the library does is a case of that (`Task.close_eq`).

**Closing a tree closes all its leaves from left to right, each once, and reports what they fail
with as if there were no tree** (`Task.close_tree`).
-/

namespace SqlPipeline

namespace Result

theorem errors_append {α : Type} (first second : List (Result α)) :
    errors (first ++ second) = ⟨(errors first).errors ++ (errors second).errors⟩ := by
  unfold errors
  rw [List.filterMap_append]

theorem toResult_errors_singleton (result : Result Unit) : (errors [result]).toResult = result := by
  cases result <;> rfl

end Result

namespace Task

variable {σ : Type}

mutual

/-- The tasks without children, from left to right. -/
def leaves : Task → List Leaf
  | leaf own => [own]
  | join _ _ _ _ _ left right => left.leaves ++ right.leaves
  | sequence _ _ children => leavesOf children
termination_by structural task => task

def leavesOf : List Task → List Leaf
  | [] => []
  | task :: rest => task.leaves ++ leavesOf rest
termination_by structural tasks => tasks

end

mutual

/-- Closes a tree whose leaves are closed in a way of their own. -/
def closeWith (close : Leaf → StateM σ (Result Unit × Leaf)) : Task → StateM σ (Result Unit × Task)
  | leaf own => do
    let (result, own) ← close own
    return (result, leaf own)
  | join kind on rightWidth ends _ left right => do
    let (first, left) ← closeWith close left
    let (second, right) ← closeWith close right
    let errors := (ErrorList.empty.appendResult first).2
    return ((errors.appendResult second).2.toResult,
      join kind on rightWidth ends.close false left right)
  | sequence name out children => do
    let (errors, children) ← closeAllWith close .empty children
    return (errors.toResult, sequence name out.close children)
termination_by structural task => task

def closeAllWith (close : Leaf → StateM σ (Result Unit × Leaf)) (errors : ErrorList) :
    List Task → StateM σ (ErrorList × List Task)
  | [] => return (errors, [])
  | task :: rest => do
    let (result, task) ← closeWith close task
    let (errors, rest) ← closeAllWith close (errors.appendResult result).2 rest
    return (errors, task :: rest)
termination_by structural tasks => tasks

end

/-- Closes a leaf as the library does, which leaves nothing behind. -/
def closeLeaf (leaf : Leaf) : StateM Unit (Result Unit × Leaf) :=
  return ((ErrorList.empty.append leaf.close.1).toResult, leaf.close.2)

mutual

/-- Closing a tree is to close its leaves as the library does. -/
theorem close_eq : ∀ task : Task, task.closeWith closeLeaf () = (task.close, ())
  | leaf own => rfl
  | join kind on rightWidth ends wired left right => by
    rw [closeWith, bind_apply, close_eq left]
    dsimp only
    rw [bind_apply, close_eq right]
    rfl
  | sequence name out children => by
    rw [closeWith, bind_apply, closeAll_eq .empty children]
    rfl

theorem closeAll_eq (errors : ErrorList) :
    ∀ tasks : List Task, closeAllWith closeLeaf errors tasks () = (closeAll errors tasks, ())
  | [] => rfl
  | task :: rest => by
    rw [closeAllWith, bind_apply, close_eq task]
    dsimp only
    rw [bind_apply, closeAll_eq _ rest]
    rfl

end

/-- The leaves of two parts are closed one part after the other. -/
theorem mapM_append_apply (close : Leaf → StateM σ (Result Unit × Leaf)) (first second : List Leaf)
    (state : σ) :
    (first ++ second).mapM close state =
      ((first.mapM close state).1 ++ (second.mapM close (first.mapM close state).2).1,
        (second.mapM close (first.mapM close state).2).2) := by
  rw [List.mapM_append]
  rfl

mutual

/-- A tree reports what its leaves fail with, and they are all that is closed. -/
theorem closeWith_leaves (close : Leaf → StateM σ (Result Unit × Leaf)) :
    ∀ (task : Task) (state : σ), ∃ after : Task,
      after.leaves = (task.leaves.mapM close state).1.map Prod.snd ∧
      task.closeWith close state =
        (((Result.errors ((task.leaves.mapM close state).1.map Prod.fst)).toResult, after),
          (task.leaves.mapM close state).2)
  | leaf own, state => by
    refine ⟨leaf (close own state).1.2, rfl, ?_⟩
    rw [closeWith, bind_apply]
    have hresult : (Result.errors [(close own state).1.1]).toResult = (close own state).1.1 :=
      Result.toResult_errors_singleton _
    exact congrArg (fun result =>
      ((result, leaf (close own state).1.2), (close own state).2)) hresult.symm
  | join kind on rightWidth ends wired left right, state => by
    obtain ⟨leftAfter, hleftLeaves, hleft⟩ := closeWith_leaves close left state
    obtain ⟨rightAfter, hrightLeaves, hright⟩ :=
      closeWith_leaves close right (left.leaves.mapM close state).2
    refine ⟨join kind on rightWidth ends.close false leftAfter rightAfter, ?_, ?_⟩
    · rw [leaves, leaves, mapM_append_apply, List.map_append, hleftLeaves, hrightLeaves]
    · rw [closeWith, bind_apply, hleft]
      dsimp only
      rw [bind_apply, hright, leaves, mapM_append_apply]
      refine congrArg (fun result => ((result, _), _)) (ErrorList.toResult_congr ?_)
      rw [ErrorList.error?_appendResult_toResult, ErrorList.error?_appendResult_toResult,
        List.map_append, Result.errors_append, ErrorList.error?_append]
      rfl
  | sequence name out children, state => by
    obtain ⟨errors, after, hleaves, hrun, herrors⟩ :=
      closeAllWith_leaves close .empty children state
    refine ⟨sequence name out.close after, hleaves, ?_⟩
    rw [closeWith, bind_apply, hrun, leaves]
    exact congrArg (fun result => ((result, _), _)) (ErrorList.toResult_congr herrors)

theorem closeAllWith_leaves (close : Leaf → StateM σ (Result Unit × Leaf)) (errors : ErrorList) :
    ∀ (tasks : List Task) (state : σ), ∃ (last : ErrorList) (after : List Task),
      leavesOf after = ((leavesOf tasks).mapM close state).1.map Prod.snd ∧
      closeAllWith close errors tasks state =
        ((last, after), ((leavesOf tasks).mapM close state).2) ∧
      last.error? = Error.merge errors.error?
        (Result.errors (((leavesOf tasks).mapM close state).1.map Prod.fst)).error?
  | [], state => ⟨errors, [], rfl, rfl, (Error.merge_none _).symm⟩
  | task :: rest, state => by
    obtain ⟨taskAfter, htaskLeaves, htask⟩ := closeWith_leaves close task state
    obtain ⟨last, restAfter, hrestLeaves, hrest, hlast⟩ := closeAllWith_leaves close
      (errors.appendResult (Result.errors
        ((task.leaves.mapM close state).1.map Prod.fst)).toResult).2 rest
      (task.leaves.mapM close state).2
    refine ⟨last, taskAfter :: restAfter, ?_, ?_, ?_⟩
    · rw [leavesOf, leavesOf, mapM_append_apply, List.map_append, htaskLeaves, hrestLeaves]
    · rw [closeAllWith, bind_apply, htask]
      dsimp only
      rw [bind_apply, hrest, leavesOf, mapM_append_apply]
      rfl
    · rw [hlast, ErrorList.error?_appendResult_toResult, leavesOf, mapM_append_apply,
        List.map_append, Result.errors_append, ErrorList.error?_append, Error.merge_assoc]

end

/-- Closed as the library does, each leaf is closed on its own. -/
theorem mapM_closeLeaf (leaves : List Leaf) : leaves.mapM closeLeaf () =
    (leaves.map fun leaf =>
      ((ErrorList.empty.append leaf.close.1).toResult, leaf.close.2), ()) := by
  have h : leaves.mapM closeLeaf = pure (leaves.map fun leaf =>
      ((ErrorList.empty.append leaf.close.1).toResult, leaf.close.2)) := List.mapM_pure
  exact congrFun h ()

/-- The library's leaves report their own errors, and each of them is closed. -/
theorem close_leaves (task : Task) :
    task.close.2.leaves = task.leaves.map (fun leaf => leaf.close.2) ∧
    ErrorList.Reports (task.leaves.filterMap fun leaf => leaf.close.1) task.close.1 := by
  obtain ⟨after, hleaves, hrun⟩ := closeWith_leaves closeLeaf task ()
  rw [close_eq, mapM_closeLeaf] at hrun
  rw [mapM_closeLeaf, List.map_map] at hleaves
  obtain ⟨hresult, hafter⟩ := Prod.mk.inj (Prod.mk.inj hrun).1
  have herrors : (Result.errors (task.leaves.map fun leaf =>
      (ErrorList.empty.append leaf.close.1).toResult)).errors =
      task.leaves.filterMap fun leaf => leaf.close.1 := by
    unfold Result.errors
    rw [List.filterMap_map]
    refine List.filterMap_congr fun leaf _ => ?_
    rw [Function.comp_apply]
    cases leaf.close.1 <;> rfl
  refine ⟨hafter ▸ hleaves, ?_⟩
  rw [← herrors, hresult, List.map_map]
  exact ErrorList.reports_toResult _

/-- **Closing a tree closes every leaf once, from left to right, whichever of them fail. It succeeds
exactly if they all do, fails with the error of a lone leaf that does, and with the messages of
several that do line by line, however they are spread over the tree.** -/
theorem close_tree (task : Task) :
    (task.close.2.leaves = task.leaves.map (fun leaf => leaf.close.2) ∧
      ErrorList.Reports (task.leaves.filterMap fun leaf => leaf.close.1) task.close.1) ∧
    task.closeWith closeLeaf () = (task.close, ()) ∧
    ∀ {σ : Type} (close : Leaf → StateM σ (Result Unit × Leaf)) (state : σ),
      (task.closeWith close state).2 = (task.leaves.mapM close state).2 ∧
      (task.closeWith close state).1.2.leaves = (task.leaves.mapM close state).1.map Prod.snd ∧
      ErrorList.Reports (Result.errors ((task.leaves.mapM close state).1.map Prod.fst)).errors
        (task.closeWith close state).1.1 := by
  refine ⟨close_leaves task, close_eq task, fun close state => ?_⟩
  obtain ⟨after, hleaves, hrun⟩ := closeWith_leaves close task state
  rw [hrun]
  exact ⟨rfl, hleaves, ErrorList.reports_toResult _⟩

end Task
end SqlPipeline
