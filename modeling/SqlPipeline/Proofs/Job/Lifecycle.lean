import SqlPipeline.Job.Statement
import SqlPipeline.Proofs.Job.Calls

/-!
# The life of a job under any calls

The calls on a job may come in any order, and the statement and the root may succeed or fail as
they like. What a job asks of them in the meantime is written down by `Driving.recorded`, a driving
that otherwise does the same (`performAll_recorded`).

The invariant is a list of histories: for each state, everything that a root can have been asked
for when the job is in it (`JobState.histories`). Every call keeps to it (`Orderly.perform`), and
so do any calls one after the other (`Orderly.performAll`). What the life of a job is like can then
be read from the lists (`performAll_lifecycle`).
-/

namespace SqlPipeline

/-- What a job asks for: that its statement is compiled, or something of its root. -/
inductive Invocation where
  | compile
  | setup (succeeded : Bool)
  | run
  | close
deriving DecidableEq, Repr

namespace Invocation

def isSetup : Invocation → Bool
  | setup _ => true
  | _ => false

end Invocation

section

variable {σ ρ : Type}

/-- The same driving, which writes down what it is asked for. The world keeps everything but the
closing, which is none of its business, and a root everything that was asked of it. -/
def Driving.recorded (driving : Driving σ ρ) :
    Driving (σ × List Invocation) (ρ × List Invocation) where
  compile := fun (world, log) =>
    let (result, world) := driving.compile world
    (result.map fun root => (root, []), world, log ++ [.compile])
  setup := fun (root, history) (world, log) =>
    let ((result, root), world) := driving.setup root world
    let asked := [.setup result.isOk]
    ((result, root, history ++ asked), world, log ++ asked)
  run reader := fun (root, history) (world, log) =>
    let ((result, root), world) := driving.run reader root world
    ((result, root, history ++ [.run]), world, log ++ [.run])
  runJoined := fun (root, history) (world, log) =>
    let ((joined, root), world) := driving.runJoined root world
    ((joined, root, history ++ [.run]), world, log ++ [.run])
  close := fun (root, history) =>
    let (result, root) := driving.close root
    (result, root, history ++ [.close])
  drain? := fun (root, _) => driving.drain? root
  mapDrain f := fun (root, history) => (driving.mapDrain f root, history)

/-! ## The invariant -/

/-- Everything that a root can have been asked for when its job is in a state. -/
def JobState.histories : JobState → List (List Invocation)
  | .created | .compiled => [[]]
  | .setUp => [[.setup true]]
  | .running => []
  | .finished => [[.setup true, .run]]
  | .failed => [[.setup false], [.setup true, .run]]
  | .closed =>
    [[], [.close], [.setup true, .close], [.setup true, .run, .close], [.setup false, .close]]

/-- What the root of a job was asked for; nothing, if there is no root. -/
def Job.history (job : Job (ρ × List Invocation)) : List Invocation :=
  (job.root.map (·.2)).getD []

/-- A job and the log of the world are in order: the root was asked for what its state allows, and
the log holds all of it but the closing, and otherwise only compilations. -/
structure Job.Orderly (job : Job (ρ × List Invocation)) (log : List Invocation) : Prop where
  mem_histories : job.history ∈ job.state.histories
  kept : log.filter (· ≠ .compile) = job.history.filter (· ≠ .close)

/-- What is left behind by a job is in order, and nothing that was asked for is forgotten. -/
structure Job.Continues (job after : Job (ρ × List Invocation)) (log : List Invocation) :
    Prop where
  orderly : after.Orderly log
  grows : job.history <+: after.history

namespace Job

variable {driving : Driving σ ρ} {job : Job (ρ × List Invocation)} {root : ρ}
  {history log : List Invocation} {world : σ}

theorem history_of_root (h : job.root = some (root, history)) : job.history = history := by
  rw [Job.history, h]
  rfl

@[simp] theorem history_mapDrain (f : Handoff → Handoff) :
    (job.mapDrain driving.recorded f).history = job.history := by
  obtain ⟨state, _ | root⟩ := job <;> rfl

@[simp] theorem state_mapDrain (f : Handoff → Handoff) :
    (job.mapDrain driving.recorded f).state = job.state := rfl

@[simp] theorem history_receive : (job.receive driving.recorded).2.history = job.history := by
  unfold receive
  split
  · exact history_mapDrain _
  · rfl

@[simp] theorem state_receive : (job.receive driving.recorded).2.state = job.state := by
  unfold receive
  split <;> rfl

@[simp] theorem history_settled (result : Except Failure Unit) :
    (job.settled result).history = job.history := by
  unfold settled
  split
  · split <;> rfl
  · rfl

/-- A job with something to drain has a root. -/
theorem root_mapDrain {handoff : Handoff} {f : Handoff → Handoff}
    (h : job.drain driving.recorded = .ok handoff) :
    ∃ found, (job.mapDrain driving.recorded f).root = some found := by
  cases hroot : job.root with
  | none =>
    rw [drain, hroot] at h
    cases h
  | some found =>
    rw [mapDrain, hroot]
    exact ⟨_, rfl⟩

/-- A root that was closed was asked for nothing after that. -/
theorem closed_history {state : JobState} (hstate : state ≠ .closed)
    (h : history ∈ state.histories) : history ++ [.close] ∈ JobState.closed.histories := by
  cases state with
  | closed => exact absurd rfl hstate
  | created | compiled | setUp | running | finished | failed =>
    revert h
    revert history
    decide

theorem contained_map {α β : Type} {result : Except Failure α} {f : α → β} :
    Contained (result.map f) ↔ Contained result := by
  cases result <;> simp [Contained, Except.map]

theorem Continues.trans {after last : Job (ρ × List Invocation)} {later : List Invocation}
    (h : job.Continues after log) (hlast : after.Continues last later) : job.Continues last later :=
  ⟨hlast.orderly, h.grows.trans hlast.grows⟩

namespace Orderly

variable {after : Job (ρ × List Invocation)}

theorem same (h : job.Orderly log) : job.Continues job log :=
  ⟨h, List.prefix_rfl⟩

theorem congr (h : job.Orderly log) (hstate : after.state = job.state)
    (hhistory : after.history = job.history) : job.Continues after log := by
  obtain ⟨hmem, hkept⟩ := h
  rw [← hstate, ← hhistory] at hmem
  rw [← hhistory] at hkept
  exact ⟨⟨hmem, hkept⟩, hhistory ▸ List.prefix_rfl⟩

/-- Something was asked of the root that the world was told, too. -/
theorem ask (h : job.Orderly log) {asked : Invocation}
    (hcompile : asked ≠ .compile) (hclose : asked ≠ .close)
    (hhistory : after.history = job.history ++ [asked])
    (hmem : after.history ∈ after.state.histories) : job.Continues after (log ++ [asked]) := by
  refine ⟨⟨hmem, ?_⟩, hhistory ▸ List.prefix_append _ _⟩
  rw [hhistory, List.filter_append, List.filter_append, h.kept]
  simp [hcompile, hclose]

theorem compile (h : job.Orderly log) :
    let after := job.compile driving.recorded (world, log)
    job.Continues after.1.2 after.2.2 := by
  by_cases hstate : job.state = .created
  · -- there is no root yet, so the new one replaces none
    have hempty : job.history = [] := by
      simpa [hstate, JobState.histories] using h.mem_histories
    have hkept : (log ++ [Invocation.compile]).filter (· ≠ .compile) = job.history.filter (· ≠ .close) := by
      rw [List.filter_append, ← h.kept]
      simp
    rw [compile_of_created hstate]
    cases hcompile : driving.compile world with
    | mk result world =>
      cases result with
      | error error =>
        simp only [Driving.recorded, hcompile, Except.map]
        exact ⟨⟨h.mem_histories, hkept⟩, List.prefix_rfl⟩
      | ok root =>
        simp only [Driving.recorded, hcompile, Except.map]
        refine ⟨⟨List.mem_cons_self, ?_⟩, hempty ▸ List.nil_prefix⟩
        rw [hkept, hempty]
        rfl
  · rw [compile_of_ne hstate]
    exact h.same

theorem setup (h : job.Orderly log) :
    let after := job.setup driving.recorded (world, log)
    job.Continues after.1.2 after.2.2 := by
  cases hroot : job.root with
  | none =>
    rw [setup_of_none hroot]
    exact h.same
  | some found =>
    obtain ⟨root, history⟩ := found
    by_cases hstate : job.state = .compiled
    · obtain rfl : history = [] := by
        simpa [history_of_root hroot, hstate, JobState.histories] using h.mem_histories
      have hhistory := history_of_root hroot
      rw [setup_of_compiled hroot hstate]
      cases hsetup : driving.setup root world with
      | mk found world =>
        obtain ⟨result, root⟩ := found
        cases result with
        | error error =>
          simp only [Driving.recorded, hsetup]
          exact h.ask nofun nofun (by rw [hhistory]; rfl) List.mem_cons_self
        | ok _ =>
          simp only [Driving.recorded, hsetup]
          exact h.ask nofun nofun (by rw [hhistory]; rfl) List.mem_cons_self
    · rw [setup_of_ne hroot hstate]
      exact h.same

/-- After a run nothing is allowed but that it was set up before. -/
theorem ran (h : job.Orderly log) (hstate : job.state = .setUp)
    (hhistory : after.history = job.history ++ [.run])
    (hafter : after.state = .finished ∨ after.state = .failed) :
    job.Continues after (log ++ [.run]) := by
  have hsetUp : job.history = [.setup true] := by
    simpa [hstate, JobState.histories] using h.mem_histories
  refine h.ask nofun nofun hhistory ?_
  rw [hhistory, hsetUp]
  rcases hafter with hafter | hafter
  all_goals
    rw [hafter]
    decide

theorem run (h : job.Orderly log) {reader : Reader}
    (hpanic : Contained (job.run driving.recorded reader (world, log)).1.1) :
    let after := job.run driving.recorded reader (world, log)
    job.Continues after.1.2 after.2.2 := by
  cases hroot : job.root with
  | none =>
    rw [run_of_none hroot]
    exact h.same
  | some found =>
    obtain ⟨root, history⟩ := found
    by_cases hstate : job.state = .setUp
    · rw [run_of_setUp hroot hstate] at hpanic ⊢
      cases hrun : driving.run reader root world with
      | mk found world =>
        obtain ⟨result, root⟩ := found
        simp only [Driving.recorded, hrun] at hpanic ⊢
        refine h.ran hstate (by rw [history_of_root hroot]; rfl) ?_
        match result with
        | .ok () => exact .inl rfl
        | .error (.error _) => exact .inr rfl
        | .error (.panic message) => exact absurd rfl (hpanic message)
    · rw [run_of_ne hroot hstate]
      exact h.same

/-- A run that is dropped half-way has failed once the job is settled. -/
theorem runJoined (h : job.Orderly log) (hroot : ∃ found, job.root = some found)
    (hstate : job.state = .setUp)
    (hpanic : Contained (job.runJoined driving.recorded (world, log)).1.1) :
    let after := job.runJoined driving.recorded (world, log)
    job.Continues (after.1.2.settled after.1.1) after.2.2 := by
  obtain ⟨⟨root, history⟩, hroot⟩ := hroot
  rw [runJoined_of_setUp hroot hstate] at hpanic ⊢
  cases hrun : driving.runJoined root world with
  | mk found world =>
    obtain ⟨joined, root⟩ := found
    simp only [Driving.recorded, hrun] at hpanic ⊢
    refine h.ran hstate (by rw [history_settled, history_of_root hroot]; rfl) ?_
    -- only a run that was dropped leaves the job running, and that is settled as a failure
    match joined with
    | .ran (.ok ()) (.ok ()) => exact .inl rfl
    | .ran (.ok ()) (.error _) => exact .inl rfl
    | .ran (.error (.error _)) _ => exact .inr rfl
    | .ran (.error (.panic message)) _ => exact absurd rfl (hpanic message)
    | .dropped _ => exact .inr rfl

theorem collect (h : job.Orderly log)
    (hpanic : Contained (job.collect driving.recorded (world, log)).1.1) :
    let after := job.collect driving.recorded (world, log)
    job.Continues after.1.2 after.2.2 := by
  by_cases hstate : job.state = .setUp
  · cases hdrain : job.drain driving.recorded with
    | error error =>
      rw [collect_of_drain_error hstate hdrain]
      exact h.same
    | ok handoff =>
      cases htaken : handoff.isTaken with
      | true =>
        rw [collect_of_taken hstate hdrain htaken]
        exact h.same
      | false =>
        -- nothing is asked for to take the receiving end, nor to receive what was sent
        have hheld : job.Continues (job.mapDrain driving.recorded (.moveTo .held)) log :=
          h.congr (state_mapDrain _) (history_mapDrain _)
        rw [collect_of_setUp hstate hdrain htaken] at hpanic ⊢
        have hran := hheld.orderly.runJoined (root_mapDrain hdrain) hstate
          (contained_map.mp hpanic)
        refine (hheld.trans hran).trans (hran.orderly.congr state_receive ?_)
        exact (history_mapDrain _).trans history_receive
  · rw [collect_of_ne hstate]
    exact h.same

theorem close (h : job.Orderly log) : job.Continues (job.close driving.recorded).2 log := by
  by_cases hstate : job.state = .closed
  · rw [close_of_closed hstate]
    exact h.same
  · cases hroot : job.root with
    | none =>
      have hempty : job.history = [] := by
        rw [history, hroot]
        rfl
      have hclosed : job.close driving.recorded = (.ok (), ⟨.closed, none⟩) := by
        unfold Job.close
        rw [if_neg hstate, hroot]
      rw [hclosed]
      refine ⟨⟨List.mem_cons_self, ?_⟩, hempty ▸ List.nil_prefix⟩
      rw [h.kept, hempty]
      rfl
    | some found =>
      obtain ⟨root, history⟩ := found
      have hhistory := history_of_root hroot
      have hclosed : (job.close driving.recorded).2 =
          ⟨.closed, some ((driving.close root).2, history ++ [.close])⟩ := by
        unfold Job.close
        rw [if_neg hstate, hroot]
        rfl
      obtain ⟨hmem, hkept⟩ := h
      rw [hhistory] at hmem hkept
      rw [hclosed]
      refine ⟨⟨closed_history hstate hmem, ?_⟩, hhistory ▸ List.prefix_append _ _⟩
      rw [hkept]
      change _ = (history ++ [Invocation.close]).filter _
      simp [List.filter_append]

/-- **Every call leaves a job in order, and forgets nothing.** -/
theorem perform (h : job.Orderly log) {call : Call}
    (hpanic : Contained (job.perform driving.recorded call (world, log)).1.1) :
    let after := job.perform driving.recorded call (world, log)
    job.Continues after.1.2 after.2.2 := by
  cases call with
  | compile =>
    rw [perform_compile]
    exact h.compile
  | setup =>
    rw [perform_setup]
    exact h.setup
  | run reader => exact h.run hpanic
  | collect =>
    rw [perform_collect] at hpanic ⊢
    exact h.collect (contained_map.mp hpanic)
  | drain use =>
    rw [perform_drain]
    cases job.drain driving.recorded with
    | error error => exact h.same
    | ok handoff => exact h.congr (state_mapDrain use) (history_mapDrain use)
  | close => exact h.close

end Orderly

/-! ## Writing down changes nothing -/

/-- A job without what was written down. -/
def erased (job : Job (ρ × List Invocation)) : Job ρ :=
  ⟨job.state, job.root.map (·.1)⟩

/-- What comes of a call, without what was written down. -/
def forget {α : Type} (outcome : (α × Job (ρ × List Invocation)) × (σ × List Invocation)) :
    (α × Job ρ) × σ :=
  ((outcome.1.1, outcome.1.2.erased), outcome.2.1)

theorem erased_root (h : job.root = some (root, history)) : job.erased.root = some root := by
  rw [erased, h]
  rfl

theorem erased_root_none (h : job.root = none) : job.erased.root = none := by
  rw [erased, h]
  rfl

theorem erased_mapDrain (f : Handoff → Handoff) :
    (job.mapDrain driving.recorded f).erased = job.erased.mapDrain driving f := by
  obtain ⟨state, _ | root⟩ := job <;> rfl

theorem drain_recorded : job.drain driving.recorded = job.erased.drain driving := by
  obtain ⟨state, _ | root⟩ := job <;> rfl

theorem receive_recorded : job.erased.receive driving =
    ((job.receive driving.recorded).1, (job.receive driving.recorded).2.erased) := by
  unfold receive
  rw [drain_recorded]
  cases job.erased.drain driving with
  | error error => rfl
  | ok handoff => rw [erased_mapDrain]

theorem erased_settled (result : Except Failure Unit) :
    (job.settled result).erased = job.erased.settled result := by
  unfold settled
  split
  · split
    · next h => rw [if_pos (show job.erased.state = .running from h)]; rfl
    · next h => rw [if_neg (show ¬job.erased.state = .running from h)]
  · rfl

theorem compile_recorded (log : List Invocation) : job.erased.compile driving world =
    forget (job.compile driving.recorded (world, log)) := by
  by_cases hstate : job.state = .created
  · rw [compile_of_created hstate, compile_of_created (show job.erased.state = .created from hstate)]
    unfold Driving.recorded
    dsimp only
    rcases driving.compile world with ⟨_ | _, _⟩ <;> rfl
  · rw [compile_of_ne hstate, compile_of_ne (show job.erased.state ≠ .created from hstate)]
    rfl

theorem setup_recorded (log : List Invocation) : job.erased.setup driving world =
    forget (job.setup driving.recorded (world, log)) := by
  cases hroot : job.root with
  | none =>
    rw [setup_of_none hroot, setup_of_none (erased_root_none hroot)]
    rfl
  | some found =>
    obtain ⟨root, history⟩ := found
    by_cases hstate : job.state = .compiled
    · rw [setup_of_compiled hroot hstate, setup_of_compiled (erased_root hroot) hstate]
      unfold Driving.recorded
      dsimp only
      rcases driving.setup root world with ⟨⟨_ | _, _⟩, _⟩ <;> rfl
    · rw [setup_of_ne hroot hstate, setup_of_ne (erased_root hroot) hstate]
      rfl

theorem run_recorded {reader : Reader} : job.erased.run driving reader world =
    forget (job.run driving.recorded reader (world, log)) := by
  cases hroot : job.root with
  | none =>
    rw [run_of_none hroot, run_of_none (erased_root_none hroot)]
    rfl
  | some found =>
    obtain ⟨root, history⟩ := found
    by_cases hstate : job.state = .setUp
    · rw [run_of_setUp hroot hstate, run_of_setUp (erased_root hroot) hstate]
      rfl
    · rw [run_of_ne hroot hstate, run_of_ne (erased_root hroot) hstate]
      rfl

theorem runJoined_recorded (hroot : job.root = some (root, history)) (hstate : job.state = .setUp) :
    job.erased.runJoined driving world =
      forget (job.runJoined driving.recorded (world, log)) := by
  rw [runJoined_of_setUp hroot hstate, runJoined_of_setUp (erased_root hroot) hstate]
  rfl

theorem collect_recorded (log : List Invocation) : job.erased.collect driving world =
    forget (job.collect driving.recorded (world, log)) := by
  by_cases hstate : job.state = .setUp
  · have herased : job.erased.state = .setUp := hstate
    have hdrained : job.drain driving.recorded = job.erased.drain driving := drain_recorded
    cases hdrain : job.drain driving.recorded with
    | error error =>
      rw [hdrain] at hdrained
      rw [collect_of_drain_error hstate hdrain, collect_of_drain_error herased hdrained.symm]
      rfl
    | ok handoff =>
      rw [hdrain] at hdrained
      cases htaken : handoff.isTaken with
      | true =>
        rw [collect_of_taken hstate hdrain htaken, collect_of_taken herased hdrained.symm htaken]
        rfl
      | false =>
        obtain ⟨⟨root, history⟩, hroot⟩ := root_mapDrain (f := .moveTo .held) hdrain
        have hjoined : (job.erased.mapDrain driving (.moveTo .held)).runJoined driving world =
            forget ((job.mapDrain driving.recorded (.moveTo .held)).runJoined driving.recorded
              (world, log)) := by
          rw [← erased_mapDrain]
          exact runJoined_recorded hroot hstate
        rw [collect_of_setUp hstate hdrain htaken,
          collect_of_setUp herased hdrained.symm htaken, hjoined]
        rcases (job.mapDrain driving.recorded (.moveTo .held)).runJoined driving.recorded
          (world, log) with ⟨⟨result, ran⟩, world, log⟩
        simp only [forget, erased_mapDrain, ← erased_settled, receive_recorded]
  · rw [collect_of_ne hstate, collect_of_ne (show job.erased.state ≠ .setUp from hstate)]
    rfl

theorem close_recorded : job.erased.close driving =
    ((job.close driving.recorded).1, (job.close driving.recorded).2.erased) := by
  by_cases hstate : job.state = .closed
  · rw [close_of_closed hstate, close_of_closed (show job.erased.state = .closed from hstate)]
  · have herased : ¬job.erased.state = .closed := hstate
    unfold close
    rw [if_neg hstate, if_neg herased]
    obtain ⟨state, _ | root⟩ := job <;> rfl

/-- **A call that is written down does what it does otherwise.** -/
theorem perform_recorded (log : List Invocation) (call : Call) : job.erased.perform driving call world =
    forget (job.perform driving.recorded call (world, log)) := by
  cases call with
  | compile =>
    rw [perform_compile, perform_compile, compile_recorded log]
    rfl
  | setup =>
    rw [perform_setup, perform_setup, setup_recorded log]
    rfl
  | run reader => exact run_recorded
  | collect =>
    rw [perform_collect, perform_collect, collect_recorded log]
    rfl
  | drain use =>
    rw [perform_drain, perform_drain, drain_recorded]
    cases job.erased.drain driving with
    | error error => rfl
    | ok handoff =>
      dsimp only
      rw [← erased_mapDrain]
      rfl
  | close =>
    rw [perform_close, perform_close, close_recorded]
    rfl

/-- **A call that is not refused reaches the statement or the root**, when it is one that ought
to. -/
theorem perform_of_accepted {call : Call}
    (hcall : call = .compile ∨ call = .setup ∨ ∃ reader, call = .run reader)
    (h : job.refusal? driving.recorded call = none) :
    ∃ asked, (job.perform driving.recorded call (world, log)).2.2 = log ++ [asked] := by
  rcases hcall with rfl | rfl | ⟨reader, rfl⟩
  · have hstate : job.state = .created := by simpa [refusal?] using h
    rw [perform_compile, compile_of_created hstate]
    unfold Driving.recorded
    dsimp only
    rcases driving.compile world with ⟨_ | _, _⟩ <;> exact ⟨_, rfl⟩
  · cases hroot : job.root with
    | none => simp [refusal?, hroot] at h
    | some found =>
      have hstate : job.state = .compiled := by simpa [refusal?, hroot] using h
      rw [perform_setup, setup_of_compiled hroot hstate]
      unfold Driving.recorded
      dsimp only
      rcases driving.setup found.1 world with ⟨⟨_ | _, _⟩, _⟩ <;> exact ⟨_, rfl⟩
  · cases hroot : job.root with
    | none => simp [refusal?, hroot] at h
    | some found =>
      have hstate : job.state = .setUp := by simpa [refusal?, hroot] using h
      rw [perform_run, run_of_setUp hroot hstate]
      exact ⟨.run, rfl⟩

/-! ## Calls one after the other -/

/-- Calls that are written down do what they do otherwise. -/
theorem performAll_recorded (log : List Invocation) (calls : List Call) :
    performAll driving calls job.erased world =
      forget (performAll driving.recorded calls job (world, log)) := by
  induction calls generalizing job world log with
  | nil => rfl
  | cons call calls ih =>
    rw [performAll_cons, performAll_cons, perform_recorded log call]
    rcases job.perform driving.recorded call (world, log) with ⟨⟨result, after⟩, world, log⟩
    simp only [forget, ih log]
    rfl

/-- **Calls keep a job in order**, whatever they are and however they end. -/
theorem Orderly.performAll (h : job.Orderly log) {calls : List Call}
    (hpanic : ∀ result ∈ (performAll driving.recorded calls job (world, log)).1.1,
      Contained result) :
    let after := performAll driving.recorded calls job (world, log)
    job.Continues after.1.2 after.2.2 := by
  induction calls generalizing job world log with
  | nil => exact h.same
  | cons call calls ih =>
    rw [performAll_cons] at hpanic ⊢
    have hfirst (hcontained : Contained (job.perform driving.recorded call (world, log)).1.1) :=
      h.perform hcontained
    revert hfirst hpanic
    rcases job.perform driving.recorded call (world, log) with ⟨⟨result, after⟩, world, log⟩
    intro hpanic hfirst
    -- what the first call leaves behind is in order again, and the other calls start from it
    have hcontinues := hfirst (hpanic _ List.mem_cons_self)
    exact hcontinues.trans
      (ih hcontinues.orderly fun result hresult => hpanic _ (List.mem_cons_of_mem _ hresult))

/-- **Nothing more is asked of the root of a closed job or of the world**, whatever is called. -/
theorem performAll_of_closed (h : job.state = .closed) (calls : List Call)
    (world : σ × List Invocation) :
    let after := performAll driving.recorded calls job world
    after.1.2.state = .closed ∧ after.1.2.history = job.history ∧ after.2 = world := by
  induction calls generalizing job with
  | nil => exact ⟨h, rfl, rfl⟩
  | cons call calls ih =>
    have hfirst := perform_of_closed driving.recorded h call world
    rw [performAll_cons]
    revert hfirst
    rcases job.perform driving.recorded call world with ⟨⟨result, after⟩, later⟩
    rintro ⟨hafter, rfl : later = world⟩
    have hkept : after.state = .closed ∧ after.history = job.history := by
      rcases hafter with rfl | ⟨use, rfl⟩
      · exact ⟨h, rfl⟩
      · exact ⟨h, history_mapDrain use⟩
    have hrest := ih hkept.1
    exact ⟨hrest.1, hrest.2.1.trans hkept.2, hrest.2.2⟩

end Job

/-! ## What the histories come to -/

namespace JobState

variable {state : JobState} {history before after : List Invocation}

theorem ne_running (h : history ∈ state.histories) : state ≠ .running := by
  rintro rfl
  cases h

/-- Nothing is asked for twice. -/
theorem count_histories (h : history ∈ state.histories) :
    history.countP Invocation.isSetup ≤ 1 ∧ history.count .run ≤ 1 ∧ history.count .close ≤ 1 := by
  revert h history
  cases state <;> decide

theorem setup_before_run (h : history ∈ state.histories) (hrun : history = before ++ .run :: after) :
    .setup true ∈ before := by
  have hfirst : .run ∈ history → history.head? = some (.setup true) := by
    revert h
    clear hrun
    revert history
    cases state <;> decide
  have hhead := hfirst (by simp [hrun])
  cases before with
  | nil =>
    rw [hrun] at hhead
    cases hhead
  | cons first before =>
    rw [hrun] at hhead
    cases hhead
    exact List.mem_cons_self

theorem nothing_after_close (h : history ∈ state.histories)
    (hclose : history = before ++ .close :: after) : after = [] := by
  have hlast : history.Pairwise fun earlier _ => earlier ≠ .close := by
    revert h
    clear hclose
    revert history
    cases state <;> decide
  rw [hclose, List.pairwise_append, List.pairwise_cons] at hlast
  exact List.eq_nil_iff_forall_not_mem.mpr fun asked hasked => hlast.2.1.1 asked hasked rfl

end JobState

/-! ## The life of a job -/

namespace Job

variable {driving : Driving σ ρ}

/-- What holds of a job and its world after any calls, told by what was written down. -/
structure Lifecycle (driving : Driving σ ρ) (job : Job (ρ × List Invocation))
    (world : σ × List Invocation) : Prop where
  /-- No call leaves the job running. -/
  not_running : job.state ≠ .running
  setup_once : job.history.countP Invocation.isSetup ≤ 1
  run_once : job.history.count .run ≤ 1
  close_once : job.history.count .close ≤ 1
  /-- The root is only run after it was set up with success. -/
  setup_before_run : ∀ before after, job.history = before ++ .run :: after → .setup true ∈ before
  /-- Nothing is asked of the root after it is closed. -/
  nothing_after_close : ∀ before after, job.history = before ++ .close :: after → after = []
  /-- Whichever root was asked for anything but to be closed, it was this one. -/
  only_root : world.2.filter (· ≠ .compile) = job.history.filter (· ≠ .close)
  /-- What was asked of the root is never forgotten. -/
  grows : ∀ calls,
    let after := performAll driving.recorded calls job world
    (∀ result ∈ after.1.1, Contained result) → job.history <+: after.1.2.history
  /-- A closed job stays closed, and nothing more is asked for. -/
  stays_closed : job.state = .closed → ∀ calls,
    let after := performAll driving.recorded calls job world
    after.1.2.state = .closed ∧ after.1.2.history = job.history ∧ after.2 = world
  /-- A call that is refused has no effect. -/
  refused : ∀ call error, job.refusal? driving.recorded call = some error →
    job.perform driving.recorded call world = ((.error (.error error), job), world)
  /-- One that is not refused reaches the statement or the root, if it is to compile the one or to
  set up or run the other. -/
  accepted : ∀ call, (call = .compile ∨ call = .setup ∨ ∃ reader, call = .run reader) →
    job.refusal? driving.recorded call = none →
    ∃ asked, (job.perform driving.recorded call world).2.2 = world.2 ++ [asked]

theorem Orderly.lifecycle {job : Job (ρ × List Invocation)} {world : σ × List Invocation}
    (h : job.Orderly world.2) : job.Lifecycle driving world where
  not_running := JobState.ne_running h.mem_histories
  setup_once := (JobState.count_histories h.mem_histories).1
  run_once := (JobState.count_histories h.mem_histories).2.1
  close_once := (JobState.count_histories h.mem_histories).2.2
  setup_before_run _ _ hrun := JobState.setup_before_run h.mem_histories hrun
  nothing_after_close _ _ hclose := JobState.nothing_after_close h.mem_histories hclose
  only_root := h.kept
  grows _ hpanic := (h.performAll hpanic).grows
  stays_closed hclosed calls := performAll_of_closed hclosed calls world
  refused _ _ hrefused := perform_of_refusal hrefused
  accepted _ hcall hnone := perform_of_accepted hcall hnone

/-- A job that was only just made is in order. -/
theorem orderly_new : (new : Job (ρ × List Invocation)).Orderly [] :=
  ⟨List.mem_cons_self, rfl⟩

/-- **The life of a job is kept to under any calls.** A new job may be called in any way, and its
statement and its root may succeed or fail as they like: as long as no call passes on a panic, all
that was asked for in the meantime is in order. To write it down changes no result. -/
theorem performAll_lifecycle (driving : Driving σ ρ) (calls : List Call) (world : σ)
    (hpanic : ∀ result ∈ (performAll driving calls new world).1.1, Contained result) :
    let noted := performAll driving.recorded calls new (world, [])
    performAll driving calls new world = forget noted ∧ noted.1.2.Lifecycle driving noted.2 := by
  have herased : (new : Job (ρ × List Invocation)).erased = new := rfl
  have hrecorded : performAll driving calls new world =
      forget (performAll driving.recorded calls new (world, [])) := by
    rw [← herased]
    exact performAll_recorded [] calls
  rw [hrecorded] at hpanic
  exact ⟨hrecorded, (orderly_new.performAll hpanic).orderly.lifecycle⟩

/-- A job that is run too early, then lived through, and set up once more when it is closed. -/
theorem performAll_lifecycle_select :
    let driving := JobSpec.driving ⟨"SELECT 1", .default, .inMemory, none⟩
    let calls := [.run .patient, .compile, .setup, .collect, .close, .setup]
    let world := World.start none .default
    let noted := performAll driving.recorded calls new (world, [])
    (∀ result ∈ (performAll driving calls new world).1.1, Contained result) ∧
      noted.1.2.history = [.setup true, .run, .close] ∧
      performAll driving calls new world = forget noted ∧
      noted.1.2.Lifecycle driving noted.2 :=
  ⟨by decide +kernel, by decide +kernel, performAll_lifecycle _ _ _ (by decide +kernel)⟩

end Job

end

end SqlPipeline
