import SqlPipeline.Plan.Compile
import SqlPipeline.Proofs.Result

/-!
# Steps of planning as results

Planning runs in a context, counts its requests and keeps a layout, but what it makes depends on
very little of that: on the context, and in a select on the layout of the rows so far. A step *does*
a result if that is what it gives wherever it is taken:

* `Planning.Does context step result` for a step of planning, which tells the job nothing;
* `Compiling.Does context before step result` for a step of compiling that starts with the layout
  `before`; its result comes with the layout it leaves.

Each way to put steps together has a rule (`Planning.does_bind`, `Compiling.does_bind` and so on),
so that a whole statement is planned by a function of the schema alone once its steps are.
-/

namespace SqlPipeline

variable {α β : Type} {context : Context}

/-! ## Planning -/

namespace Planning

/-- Taken in a context, the step gives the result and makes some requests, but tells the job
nothing. -/
def Does (context : Context) (step : Planning α) (result : Result α) : Prop :=
  ∀ effects : Effects, ∃ requests,
    ((step context).run).run effects = (result, { effects with requests })

theorem does_pure (a : α) : Does context (pure a) (.ok a) :=
  fun effects => ⟨effects.requests, rfl⟩

theorem does_throw (error : Error) : Does context (throw error : Planning α) (.error error) :=
  fun effects => ⟨effects.requests, rfl⟩

theorem does_read : Does context read (.ok context) :=
  fun effects => ⟨effects.requests, rfl⟩

/-- Two steps are taken one after the other, and the second only after a success of the first. -/
theorem run_bind (step : Planning α) (next : α → Planning β) (effects : Effects) :
    (((step >>= next) context).run).run effects =
      match ((step context).run).run effects with
      | (.ok a, left) => ((next a context).run).run left
      | (.error error, left) => (.error error, left) := by
  show (ExceptT.bindCont (fun a => next a context) (((step context).run).run effects).1)
    (((step context).run).run effects).2 = _
  rcases ((step context).run).run effects with ⟨found | found, left⟩ <;> rfl

theorem does_bind {step : Planning α} {next : α → Planning β} {result : Result α}
    {f : α → Result β} (hstep : Does context step result)
    (hnext : ∀ a, result = .ok a → Does context (next a) (f a)) :
    Does context (step >>= next) (result >>= f) := by
  intro effects
  obtain ⟨requests, hrun⟩ := hstep effects
  rw [run_bind, hrun]
  cases result with
  | error error => exact ⟨requests, rfl⟩
  | ok a =>
    obtain ⟨more, hmore⟩ := hnext a rfl { effects with requests }
    exact ⟨more, hmore⟩

/-- A step that succeeds hands its value to the next. -/
theorem does_then {step : Planning α} {next : α → Planning β} {a : α} {result : Result β}
    (hstep : Does context step (.ok a)) (hnext : Does context (next a) result) :
    Does context (step >>= next) result :=
  does_bind (f := fun _ => result) hstep fun found h => by
    cases h
    exact hnext

theorem does_map {step : Planning α} {result : Result α} (f : α → β)
    (hstep : Does context step result) : Does context (f <$> step) (result.map f) := by
  have h : Does context (step >>= fun a => pure (f a)) (result >>= fun a => .ok (f a)) :=
    does_bind hstep fun a _ => does_pure (f a)
  cases result <;> exact h

theorem does_ofResult (result : Result α) : Does context (ofResult result) result := by
  cases result with
  | ok value => exact does_pure value
  | error error => exact does_throw error

/-- A request is answered by the planner. -/
theorem does_make (request : Request) :
    Does context (make request) (context.planner request) := by
  intro effects
  have hanswer : Does context (ofResult (context.planner request)) (context.planner request) :=
    does_ofResult _
  exact hanswer { effects with requests := effects.requests ++ [request] }

/-- An attempt hands on whatever the step came to. -/
theorem run_attempt (step : Planning α) (effects : Effects) :
    ((attempt step context).run).run effects =
      (.ok (((step context).run).run effects).1, (((step context).run).run effects).2) := by
  -- a value that is handed on as a result can no longer be told from an error that was caught
  let tried : Planning (Result α) := step >>= fun a => pure (Except.ok a)
  have hattempt : ((attempt step context).run).run effects =
      match ((tried context).run).run effects with
      | (.ok found, left) => (.ok found, left)
      | (.error error, left) => (.ok (.error error), left) := by
    show (ExceptT.tryCatch (m := StateM Effects) (tried context)
      fun error => pure (Except.error error)) effects = _
    unfold ExceptT.tryCatch ExceptT.mk
    rw [bind_apply]
    rw [show ((tried context).run).run effects = tried context effects from rfl]
    rcases tried context effects with ⟨found | found, left⟩ <;> rfl
  rw [hattempt, run_bind]
  rcases ((step context).run).run effects with ⟨found | found, left⟩ <;> rfl

/-- An attempt never fails. -/
theorem does_attempt {step : Planning α} {result : Result α} (hstep : Does context step result) :
    Does context (attempt step) (.ok result) := by
  intro effects
  obtain ⟨requests, hrun⟩ := hstep effects
  exact ⟨requests, by rw [run_attempt, hrun]⟩

/-- Attempts are taken one after the other. -/
theorem does_mapM_attempt :
    ∀ {steps : List (Planning α)} {results : List (Result α)},
      List.Forall₂ (Does context) steps results →
      Does context (steps.mapM attempt) (.ok results)
  | [], [], .nil => does_pure []
  | step :: steps, result :: results, .cons hstep hsteps => by
    have hrest : Does context (steps.mapM attempt >>= fun rest => pure (result :: rest))
        (.ok results >>= fun rest => .ok (result :: rest)) :=
      does_bind (does_mapM_attempt hsteps) fun rest _ => does_pure (result :: rest)
    have hall : Does context (attempt step >>= fun first =>
        steps.mapM attempt >>= fun rest => pure (first :: rest))
        (.ok result >>= fun first => .ok results >>= fun rest => .ok (first :: rest)) :=
      does_bind (does_attempt hstep) fun first hfirst => by
        cases hfirst
        exact hrest
    rw [List.mapM_cons]
    exact hall

end Planning

namespace Result

def values (results : List (Result α)) : List α :=
  results.filterMap Except.toOption

def errors (results : List (Result α)) : ErrorList :=
  ⟨results.filterMap fun
    | .ok _ => none
    | .error error => some error⟩

@[simp] theorem values_ok (value : α) (rest : List (Result α)) :
    values (.ok value :: rest) = value :: values rest := rfl

@[simp] theorem values_error (error : Error) (rest : List (Result α)) :
    values (.error error :: rest) = values rest := rfl

@[simp] theorem errors_ok (value : α) (rest : List (Result α)) :
    errors (.ok value :: rest) = errors rest := rfl

@[simp] theorem errors_error (error : Error) (rest : List (Result α)) :
    (errors (.error error :: rest)).errors = error :: (errors rest).errors := rfl

/-- The values of steps that all succeeded, or one error for those that failed. -/
def collect (results : List (Result α)) : Result (List α) :=
  match (errors results).error? with
  | some error => .error error
  | none => .ok (values results)

/-- Without errors, the values are all there is. -/
theorem eq_map_values {results : List (Result α)} (h : (errors results).errors = []) :
    results = (values results).map .ok := by
  induction results with
  | nil => rfl
  | cons result rest ih =>
    cases result with
    | error error => cases h
    | ok value => exact congrArg (Except.ok value :: ·) (ih h)

/-- **Collected steps succeed exactly if each of them does.** -/
theorem collect_eq_ok_iff {results : List (Result α)} {found : List α} :
    collect results = .ok found ↔ results = found.map .ok := by
  have hok : ∀ found : List α, (errors (found.map (Except.ok : α → Result α))).errors = [] ∧
      values (found.map (Except.ok : α → Result α)) = found := by
    intro found
    induction found with
    | nil => exact ⟨rfl, rfl⟩
    | cons value rest ih => exact ⟨ih.1, congrArg (value :: ·) ih.2⟩
  unfold collect
  constructor
  · intro h
    split at h
    · cases h
    · next herror =>
      cases h
      exact eq_map_values ((ErrorList.error?_eq_none_iff _).mp herror)
  · rintro rfl
    rw [(ErrorList.error?_eq_none_iff _).mpr (hok found).1, (hok found).2]

/-- One step taken on every element of a list succeeds exactly if it does on each of them. -/
theorem collect_map_eq_ok_iff {f : α → Result β} {xs : List α} {ys : List β} :
    collect (xs.map f) = .ok ys ↔ List.Forall₂ (fun x y => f x = .ok y) xs ys := by
  rw [collect_eq_ok_iff, ← List.forall₂_eq_eq_eq, List.forall₂_map_left_iff,
    List.forall₂_map_right_iff]

/-- What is done to the values of collected steps can be done to each of them. -/
theorem collect_map (f : α → β) (results : List (Result α)) :
    collect (results.map (Except.map f)) = (collect results).map (List.map f) := by
  have hvalues : values (results.map (Except.map f)) = (values results).map f := by
    induction results with
    | nil => rfl
    | cons result rest ih =>
      cases result with
      | error error => exact ih
      | ok value => exact congrArg (f value :: ·) ih
  have herrors : errors (results.map (Except.map f)) = errors results := by
    unfold errors
    rw [List.filterMap_map]
    congr 2
    funext result
    cases result <;> rfl
  unfold collect
  rw [hvalues, herrors]
  cases (errors results).error? <;> rfl

/-- Values and errors are gathered from left to right. -/
theorem foldl_appendResult (results : List (Result α)) (found : List α) (met : ErrorList) :
    results.foldl (fun (state : List α × ErrorList) result =>
        (state.1 ++ (state.2.appendResult result).1.toList, (state.2.appendResult result).2))
      (found, met) = (found ++ values results, ⟨met.errors ++ (errors results).errors⟩) := by
  induction results generalizing found met with
  | nil => simp [values, errors]
  | cons result rest ih =>
    rw [List.foldl_cons, ih]
    cases result with
    | ok value => simp [ErrorList.appendResult]
    | error error => simp [ErrorList.appendResult, ErrorList.append]

end Result

namespace Planning

/-- What was gathered from left to right is one error, or else all values. -/
theorem does_gathered (results : List (Result α)) : Does context
    (match (results.foldl (fun (state : List α × ErrorList) result =>
        (state.1 ++ (state.2.appendResult result).1.toList, (state.2.appendResult result).2))
      ([], ErrorList.empty)) with
    | (values, errors) => match errors.error? with
      | some error => throw error
      | none => pure values) (Result.collect results) := by
  rw [Result.foldl_appendResult]
  unfold Result.collect ErrorList.empty
  dsimp only
  rw [List.nil_append, List.nil_append]
  cases (Result.errors results).error? with
  | none => exact does_pure _
  | some error => exact does_throw error

/-- **Collected steps do what their results come to.** -/
theorem does_collect {steps : List (Planning α)} {results : List (Result α)}
    (hsteps : List.Forall₂ (Does context) steps results) :
    Does context (collect steps) (Result.collect results) :=
  does_bind (f := Result.collect) (does_mapM_attempt hsteps) fun found _ => does_gathered found

end Planning

/-! ## Compiling -/

namespace Compiling

variable {before : Layout}

/-- Taken in a context and with the layout `before`, the step gives the result and leaves the layout
that comes with it. It tells the job nothing. -/
def Does (context : Context) (before : Layout) (step : Compiling α) (result : Result (α × Layout)) :
    Prop :=
  ∀ compilation : Compilation, compilation.layout = before → ∃ left : Compilation,
    ((step context).run).run compilation = (result.map Prod.fst, left) ∧
      left.effects.signals = compilation.effects.signals ∧
      ∀ a after, result = .ok (a, after) → left.layout = after

theorem does_pure (a : α) : Does context before (pure a) (.ok (a, before)) :=
  fun compilation hbefore => ⟨compilation, rfl, rfl, fun _ _ h => by cases h; exact hbefore⟩

theorem does_throw (error : Error) :
    Does context before (throw error : Compiling α) (.error error) :=
  fun compilation _ => ⟨compilation, rfl, rfl, fun _ _ h => by cases h⟩

/-- Two steps are taken one after the other, and the second only after a success of the first. -/
theorem run_bind (step : Compiling α) (next : α → Compiling β) (compilation : Compilation) :
    (((step >>= next) context).run).run compilation =
      match ((step context).run).run compilation with
      | (.ok a, left) => ((next a context).run).run left
      | (.error error, left) => (.error error, left) := by
  show (ExceptT.bindCont (fun a => next a context) (((step context).run).run compilation).1)
    (((step context).run).run compilation).2 = _
  rcases ((step context).run).run compilation with ⟨found | found, left⟩ <;> rfl

/-- A step of planning changes nothing but the effects. -/
theorem run_plan (step : Planning α) (compilation : Compilation) :
    ((plan step context).run).run compilation =
      ((((step context).run).run compilation.effects).1,
        { compilation with effects := (((step context).run).run compilation.effects).2 }) := rfl

theorem does_bind {step : Compiling α} {next : α → Compiling β} {result : Result (α × Layout)}
    {f : α × Layout → Result (β × Layout)} (hstep : Does context before step result)
    (hnext : ∀ a between, result = .ok (a, between) →
      Does context between (next a) (f (a, between))) :
    Does context before (step >>= next) (result >>= f) := by
  intro compilation hbefore
  obtain ⟨left, hrun, hsignals, hlayout⟩ := hstep compilation hbefore
  rw [run_bind, hrun]
  cases result with
  | error error => exact ⟨left, rfl, hsignals, fun _ _ h => by cases h⟩
  | ok found =>
    obtain ⟨last, hlast, hlastSignals, hlastLayout⟩ :=
      hnext found.1 found.2 rfl left (hlayout _ _ rfl)
    exact ⟨last, hlast, hlastSignals.trans hsignals, hlastLayout⟩

/-- A step that succeeds hands its value and its layout to the next. -/
theorem does_then {step : Compiling α} {next : α → Compiling β} {a : α} {between : Layout}
    {result : Result (β × Layout)} (hstep : Does context before step (.ok (a, between)))
    (hnext : Does context between (next a) result) :
    Does context before (step >>= next) result :=
  does_bind (f := fun _ => result) hstep fun found layout h => by
    cases h
    exact hnext

/-- After a failure nothing more is done. -/
theorem does_throw_bind (error : Error) (next : α → Compiling β) :
    Does context before ((throw error : Compiling α) >>= next) (.error error) :=
  does_bind (f := fun _ => .error error) (does_throw error) fun _ _ h => by cases h

theorem does_map {step : Compiling α} {result : Result (α × Layout)} (f : α → β)
    (hstep : Does context before step result) :
    Does context before (f <$> step) (result.map fun found => (f found.1, found.2)) := by
  have h : Does context before (step >>= fun a => pure (f a))
      (result >>= fun found => .ok (f found.1, found.2)) :=
    does_bind hstep fun a between _ => does_pure (f a)
  cases result <;> exact h

/-- What is kept so far is looked at. Of that, only the layout is known. -/
theorem does_get {next : Compilation → Compiling β} {result : Result (β × Layout)}
    (hnext : ∀ compilation : Compilation, compilation.layout = before →
      Does context before (next compilation) result) :
    Does context before (get >>= next) result :=
  fun compilation hbefore => hnext compilation hbefore compilation hbefore

theorem does_read : Does context before read (.ok (context, before)) :=
  fun compilation hbefore => ⟨compilation, rfl, rfl, fun _ _ h => by cases h; exact hbefore⟩

/-- What is kept may change, but not the layout nor what was told to the job. -/
theorem does_modify {change : Compilation → Compilation}
    (hlayout : ∀ compilation, (change compilation).layout = compilation.layout)
    (hsignals : ∀ compilation,
      (change compilation).effects.signals = compilation.effects.signals) :
    Does context before (modify change) (.ok ((), before)) :=
  fun compilation hbefore => ⟨change compilation, rfl, hsignals compilation,
    fun _ _ h => by cases h; exact (hlayout compilation).trans hbefore⟩

theorem does_setLayout (layout : Layout) :
    Does context before (setLayout layout) (.ok ((), layout)) :=
  fun compilation _ => ⟨{ compilation with layout }, rfl, rfl, fun _ _ h => by cases h; rfl⟩

/-- A step of planning leaves the layout alone. -/
theorem does_plan {step : Planning α} {result : Result α}
    (hstep : Planning.Does context step result) :
    Does context before (plan step) (result.map (·, before)) := by
  intro compilation hbefore
  obtain ⟨requests, hrun⟩ := hstep compilation.effects
  refine ⟨{ compilation with effects := { compilation.effects with requests } }, ?_, rfl, ?_⟩
  · rw [run_plan, hrun]
    cases result <;> rfl
  · intro a after h
    cases result with
    | error error => cases h
    | ok found => cases h; exact hbefore

/-- A step that does what was found by other means hands that on. -/
theorem does_bind_map {γ : Type} {step : Compiling α} {next : α → Compiling β} {found : Result γ}
    {g : γ → α × Layout} {f : γ → Result (β × Layout)}
    (hstep : Does context before step (found.map g))
    (hnext : ∀ c, found = .ok c → Does context (g c).2 (next (g c).1) (f c)) :
    Does context before (step >>= next) (found >>= f) := by
  cases found with
  | error error => exact does_bind (f := fun _ => .error error) hstep fun _ _ h => by cases h
  | ok c => exact does_then hstep (hnext c rfl)

/-- The value of a step of planning is gone on with, on the same layout. -/
theorem does_plan_bind {step : Planning α} {next : α → Compiling β} {result : Result α}
    {f : α → Result (β × Layout)} (hstep : Planning.Does context step result)
    (hnext : ∀ a, result = .ok a → Does context before (next a) (f a)) :
    Does context before (plan step >>= next) (result >>= f) :=
  does_bind_map (does_plan hstep) hnext

theorem does_ofResult_bind {result : Result α} {next : α → Compiling β}
    {f : α → Result (β × Layout)}
    (hnext : ∀ a, result = .ok a → Does context before (next a) (f a)) :
    Does context before (ofResult result >>= next) (result >>= f) :=
  does_plan_bind (Planning.does_ofResult result) hnext

theorem does_make (request : Request) :
    Does context before (make request) ((context.planner request).map (·, before)) :=
  does_plan (Planning.does_make request)

/-! ### Visitors -/

/-- A call is written down before it is answered, and what comes of an answer is the visit, if the
visitor did not defer. -/
theorem run_consult (visitor : Visitor) (call : Call) (before : Compilation) :
    ((consult (some visitor) call context).run).run before =
      ((((visitor before.calls call context).run).run before.effects).1.map fun visit =>
          if visit.isDeferred then none else some visit,
        { before with
          calls := before.calls ++ [call]
          effects := (((visitor before.calls call context).run).run before.effects).2 }) := by
  have hconsult : ((consult (some visitor) call context).run).run before =
      ((((plan (visitor before.calls call) >>= fun visit =>
        pure (if visit.isDeferred then none else some visit)) : Compiling (Option Visit))
          context).run).run { before with calls := before.calls ++ [call] } := rfl
  rw [hconsult, run_bind, run_plan]
  cases (((visitor before.calls call context).run).run before.effects).1 <;> rfl

def Leaves (context : Context) (visitor : Option Visitor) (call : Call) : Prop :=
  ∀ asked, visitor = some asked →
    ∀ history, Planning.Does context (asked history call) (.ok .deferred)

theorem leaves_none (call : Call) : Leaves context none call :=
  fun _ h => by cases h

/-- A visitor that leaves a call gives nothing. -/
theorem does_consult_leaves {visitor : Option Visitor} {call : Call}
    (hleaves : Leaves context visitor call) :
    Does context before (consult visitor call) (.ok (none, before)) := by
  cases visitor with
  | none => exact does_pure none
  | some asked =>
    refine does_get fun compilation _ => ?_
    have hmodify : Does context before (modify fun kept : Compilation =>
        { kept with calls := compilation.calls ++ [call] }) (.ok ((), before)) :=
      does_modify (fun _ => rfl) (fun _ => rfl)
    have hplan : Does context before (plan (asked compilation.calls call))
        (.ok (.deferred, before)) := does_plan (hleaves asked rfl compilation.calls)
    exact does_then hmodify (does_then hplan (does_pure none))

/-- A visitor that does not leave a call gives its visit. -/
theorem does_consult_visits {asked : Visitor} {call : Call} {visit : Visit}
    (hvisit : ∀ history, Planning.Does context (asked history call) (.ok visit))
    (hkept : visit.isDeferred = false) :
    Does context before (consult (some asked) call) (.ok (some visit, before)) := by
  refine does_get fun compilation _ => ?_
  have hmodify : Does context before (modify fun kept : Compilation =>
      { kept with calls := compilation.calls ++ [call] }) (.ok ((), before)) :=
    does_modify (fun _ => rfl) (fun _ => rfl)
  have hplan : Does context before (plan (asked compilation.calls call)) (.ok (visit, before)) :=
    does_plan (hvisit compilation.calls)
  refine does_then hmodify (does_then hplan ?_)
  rw [hkept]
  exact does_pure (some visit)

/-- A clause that is left to the job is planned by it. -/
theorem does_clause {visitor : Option Visitor} {what : String} {call : Call}
    {own : Compiling (Option Task)} {result : Result (Option Task × Layout)}
    (hleaves : Leaves context visitor call) (hown : Does context before own result) :
    Does context before (clause visitor what call own) result :=
  does_then (does_consult_leaves hleaves) hown

end Compiling
end SqlPipeline
