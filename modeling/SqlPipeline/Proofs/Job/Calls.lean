import SqlPipeline.Job.Lifecycle
import SqlPipeline.Proofs.Result

/-!
# Calls on a job

A job is driven by six calls, which may come in any order (`Job.Call`). For each of them there is
an equation for every way it can go, so that no proof about jobs has to open their definitions.
Some calls a job refuses by itself (`Job.refusal?`): they have no effect (`perform_of_refusal`),
and a closed job refuses all that could have one.
-/

namespace SqlPipeline

section

variable {σ ρ : Type}

namespace Job

/-- A call on a job. The handoff that is drained may be used by the caller in any way. -/
inductive Call where
  | compile
  | setup
  | run (reader : Reader)
  | collect
  | drain (use : Handoff → Handoff)
  | close

variable (driving : Driving σ ρ) (job : Job ρ)

/-- Makes a call: how it ends, and the job it leaves behind. -/
def perform : Call → StateM σ (Except Failure Unit × Job ρ)
  | .compile => do
    let (result, job) ← job.compile driving
    return (result.mapError .error, job)
  | .setup => do
    let (result, job) ← job.setup driving
    return (result.mapError .error, job)
  | .run reader => job.run driving reader
  | .collect => do
    let (result, job) ← job.collect driving
    return (result.map fun _ => (), job)
  | .drain use => do
    match job.drain driving with
    | .error error => return (.error (.error error), job)
    | .ok _ => return (.ok (), job.mapDrain driving use)
  | .close => do
    let (result, job) := job.close driving
    return (result.mapError .error, job)

/-- Makes calls one after the other, whether they succeed or fail: how each ends, and the job that
they leave behind. -/
def performAll : List Call → Job ρ → StateM σ (List (Except Failure Unit) × Job ρ)
  | [], job => return ([], job)
  | call :: calls, job => do
    let (result, job) ← job.perform driving call
    let (results, job) ← performAll calls job
    return (result :: results, job)

/-- A result that does not pass on a panic. -/
def Contained {α : Type} (result : Except Failure α) : Prop :=
  ∀ message, result ≠ .error (.panic message)

instance {α : Type} (result : Except Failure α) : Decidable (Contained result) :=
  match result with
  | .ok _ | .error (.error _) => .isTrue nofun
  | .error (.panic message) => .isFalse fun h => h message rfl

/-- The error of a call that the job refuses by itself: because of its state, because it has no
root, or because there is nothing to drain. -/
def refusal? : Call → Option Error
  | .compile => if job.state ≠ .created then some (job.outOfOrder .created) else none
  | .setup =>
    if job.root.isNone then some .noRootTask
    else if job.state ≠ .compiled then some (job.outOfOrder .compiled) else none
  | .run _ =>
    if job.root.isNone then some .noRootTask
    else if job.state ≠ .setUp then some (job.outOfOrder .setUp) else none
  | .collect =>
    if job.state ≠ .setUp then some (job.outOfOrder .setUp)
    else match job.drain driving with
      | .error error => some error
      | .ok _ => none
  | .drain _ =>
    match job.drain driving with
    | .error error => some error
    | .ok _ => none
  | .close => none

end Job

/-! ## The calls one by one -/

namespace Job

variable {driving : Driving σ ρ} {job : Job ρ} {root : ρ} {world : σ}

theorem compile_of_ne (h : job.state ≠ .created) :
    job.compile driving world = ((.error (job.outOfOrder .created), job), world) := by
  unfold compile
  rw [if_pos h]
  rfl

theorem compile_of_created (h : job.state = .created) :
    job.compile driving world = (match driving.compile world with
      | (.error error, world) => ((.error error, job), world)
      | (.ok root, world) => ((.ok (), ⟨.compiled, some root⟩), world)) := by
  unfold compile
  rw [if_neg (not_not_intro h), bind_apply]
  rcases driving.compile world with ⟨_ | _, _⟩ <;> rfl

theorem setup_of_none (h : job.root = none) :
    job.setup driving world = ((.error .noRootTask, job), world) := by
  unfold setup
  rw [h]
  rfl

theorem setup_of_ne (hroot : job.root = some root) (h : job.state ≠ .compiled) :
    job.setup driving world = ((.error (job.outOfOrder .compiled), job), world) := by
  unfold setup
  rw [hroot]
  dsimp only
  rw [if_pos h]
  rfl

theorem setup_of_compiled (hroot : job.root = some root) (h : job.state = .compiled) :
    job.setup driving world = (match driving.setup root world with
      | ((.error error, root), world) => ((.error error, ⟨.failed, some root⟩), world)
      | ((.ok (), root), world) => ((.ok (), ⟨.setUp, some root⟩), world)) := by
  unfold setup
  rw [hroot]
  dsimp only
  rw [if_neg (not_not_intro h), bind_apply]
  rcases driving.setup root world with ⟨⟨_ | _, _⟩, _⟩ <;> rfl

theorem run_of_none {reader : Reader} (h : job.root = none) :
    job.run driving reader world = ((.error (.error .noRootTask), job), world) := by
  unfold run
  rw [h]
  rfl

theorem run_of_ne {reader : Reader} (hroot : job.root = some root) (h : job.state ≠ .setUp) :
    job.run driving reader world = ((.error (.error (job.outOfOrder .setUp)), job), world) := by
  unfold run
  rw [hroot]
  dsimp only
  rw [if_pos h]
  rfl

theorem run_of_setUp {reader : Reader} (hroot : job.root = some root) (h : job.state = .setUp) :
    job.run driving reader world = (match driving.run reader root world with
      | ((result, root), world) => ((result, ⟨stateAfter result, some root⟩), world)) := by
  unfold run
  rw [hroot]
  dsimp only
  rw [if_neg (not_not_intro h)]
  rfl

theorem collect_of_ne (h : job.state ≠ .setUp) :
    job.collect driving world = ((.error (.error (job.outOfOrder .setUp)), job), world) := by
  unfold collect
  rw [if_pos h]
  rfl

theorem collect_of_drain_error {error : Error} (h : job.state = .setUp)
    (hdrain : job.drain driving = .error error) :
    job.collect driving world = ((.error (.error error), job), world) := by
  unfold collect
  rw [if_neg (not_not_intro h), hdrain]
  rfl

theorem collect_of_taken {handoff : Handoff} (h : job.state = .setUp)
    (hdrain : job.drain driving = .ok handoff) (htaken : handoff.isTaken = true) :
    job.collect driving world =
      ((.error (.error (.internal "Drain of job already taken")), job), world) := by
  unfold collect
  rw [if_neg (not_not_intro h), hdrain]
  dsimp only
  rw [if_pos htaken]
  rfl

/-- The handoff of the job is taken, its root is run, and what came out is taken. -/
theorem collect_of_setUp {handoff : Handoff} (h : job.state = .setUp)
    (hdrain : job.drain driving = .ok handoff) (htaken : handoff.isTaken = false) :
    job.collect driving world =
      (match (job.mapDrain driving (.moveTo .held)).runJoined driving world with
      | ((result, job), world) =>
        let received := (job.settled result).receive driving
        ((result.map fun _ => received.1.map Message.row, received.2.mapDrain driving Handoff.drop),
          world)) := by
  unfold collect
  rw [if_neg (not_not_intro h), hdrain]
  dsimp only
  rw [if_neg (by simp [htaken])]
  rfl

theorem runJoined_of_setUp (hroot : job.root = some root) (h : job.state = .setUp) :
    job.runJoined driving world = (match driving.runJoined root world with
      | ((joined, root), world) => ((joined.result, ⟨stateJoined joined, some root⟩), world)) := by
  unfold runJoined
  rw [hroot]
  dsimp only
  rw [if_neg (not_not_intro h)]
  rfl

theorem close_of_closed (h : job.state = .closed) : job.close driving = (.ok (), job) := by
  unfold close
  rw [if_pos h]

/-! ### Calls in general -/

theorem perform_compile : job.perform driving .compile world =
    (match job.compile driving world with
      | ((result, job), world) => ((result.mapError .error, job), world)) := rfl

theorem perform_setup : job.perform driving .setup world =
    (match job.setup driving world with
      | ((result, job), world) => ((result.mapError .error, job), world)) := rfl

theorem perform_run {reader : Reader} :
    job.perform driving (.run reader) world = job.run driving reader world := rfl

theorem perform_collect : job.perform driving .collect world =
    (match job.collect driving world with
      | ((result, job), world) => ((result.map fun _ => (), job), world)) := rfl

theorem perform_drain {use : Handoff → Handoff} : job.perform driving (.drain use) world =
    (match job.drain driving with
      | .error error => ((.error (.error error), job), world)
      | .ok _ => ((.ok (), job.mapDrain driving use), world)) := by
  unfold perform
  dsimp only
  cases job.drain driving <;> rfl

theorem perform_close : job.perform driving .close world =
    (((job.close driving).1.mapError .error, (job.close driving).2), world) := rfl

theorem performAll_cons {call : Call} {calls : List Call} :
    performAll driving (call :: calls) job world =
      (match job.perform driving call world with
        | ((result, job), world) =>
          match performAll driving calls job world with
          | ((results, job), world) => ((result :: results, job), world)) := rfl

/-- **A call that the job refuses fails with the reason, and nothing else happens.** -/
theorem perform_of_refusal {call : Call} {error : Error}
    (h : job.refusal? driving call = some error) :
    job.perform driving call world = ((.error (.error error), job), world) := by
  cases call with
  | compile =>
    obtain ⟨hstate, herror⟩ := Option.ite_none_right_eq_some.mp h
    cases herror
    rw [perform_compile, compile_of_ne hstate]
    rfl
  | setup =>
    rw [perform_setup]
    cases hroot : job.root with
    | none =>
      rw [refusal?, hroot] at h
      cases h
      rw [setup_of_none hroot]
      rfl
    | some root =>
      rw [refusal?, hroot] at h
      obtain ⟨hstate, herror⟩ := Option.ite_none_right_eq_some.mp h
      cases herror
      rw [setup_of_ne hroot hstate]
      rfl
  | run reader =>
    rw [perform_run]
    cases hroot : job.root with
    | none =>
      rw [refusal?, hroot] at h
      cases h
      exact run_of_none hroot
    | some root =>
      rw [refusal?, hroot] at h
      obtain ⟨hstate, herror⟩ := Option.ite_none_right_eq_some.mp h
      cases herror
      exact run_of_ne hroot hstate
  | collect =>
    rw [perform_collect]
    by_cases hstate : job.state = .setUp
    · rw [refusal?, if_neg (not_not_intro hstate)] at h
      cases hdrain : job.drain driving with
      | error reason =>
        rw [hdrain] at h
        cases h
        rw [collect_of_drain_error hstate hdrain]
        rfl
      | ok handoff =>
        rw [hdrain] at h
        cases h
    · rw [refusal?, if_pos hstate] at h
      cases h
      rw [collect_of_ne hstate]
      rfl
  | drain use =>
    rw [perform_drain]
    rw [refusal?] at h
    cases hdrain : job.drain driving with
    | error reason =>
      rw [hdrain] at h
      cases h
      rfl
    | ok handoff =>
      rw [hdrain] at h
      cases h
  | close => cases h

/-! ### Closed jobs -/

/-- A closed job refuses everything but to be drained and to be closed. -/
theorem refusal?_of_closed (driving : Driving σ ρ) (h : job.state = .closed) (call : Call) :
    (∃ error, job.refusal? driving call = some error) ∨ (∃ use, call = .drain use) ∨ call = .close := by
  cases call with
  | compile => exact .inl ⟨_, by rw [refusal?, h, if_pos nofun]⟩
  | collect => exact .inl ⟨_, by rw [refusal?, h, if_pos nofun]⟩
  | setup | run reader =>
    left
    rw [refusal?, h]
    split <;> exact ⟨_, rfl⟩
  | drain use => exact .inr (.inl ⟨use, rfl⟩)
  | close => exact .inr (.inr rfl)

/-- **No call opens a closed job again or reaches the world from it.** -/
theorem perform_of_closed (driving : Driving σ ρ) (h : job.state = .closed) (call : Call)
    (world : σ) :
    let after := job.perform driving call world
    (after.1.2 = job ∨ ∃ use, after.1.2 = job.mapDrain driving use) ∧ after.2 = world := by
  rcases refusal?_of_closed driving h call with ⟨error, hrefused⟩ | ⟨use, rfl⟩ | rfl
  · rw [perform_of_refusal hrefused]
    exact ⟨.inl rfl, rfl⟩
  · rw [perform_drain]
    cases job.drain driving with
    | error error => exact ⟨.inl rfl, rfl⟩
    | ok handoff => exact ⟨.inr ⟨use, rfl⟩, rfl⟩
  · rw [perform_close, close_of_closed h]
    exact ⟨.inl rfl, rfl⟩

end Job

end

end SqlPipeline
