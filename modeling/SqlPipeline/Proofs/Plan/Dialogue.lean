import SqlPipeline.Proofs.Plan.Steps

/-!
# Dialogues with a visitor

A visitor may do anything when it is called: what it answers depends on what it was asked before, on
the context and on everything that planning keeps. So its answers cannot be read off the visitor,
but only off a step that asks it. `Compiling.Asks` says what a step asks and what is answered. To
find out about one call, the step is taken with the visitor up to that call (`Visitor.upTo`), which
goes as with the visitor itself and ends where the call is made.

A step talks to a visitor by given calls (`Compiling.Talks`) if it makes them in their order, one
after the other as long as none of the answers is a failure, hands on the error of an answer, and
does not succeed with a visit that is refused. Steps that follow each other talk by the calls of the
one and then the other (`Compiling.talks_bind`).
-/

namespace SqlPipeline

variable {α β : Type} {context : Context}

/-! ## Dialogues -/

namespace Visitor

/-- The visitor up to a call, which is left without an answer. -/
def upTo (visitor : Visitor) (n : Nat) : Visitor := fun history call =>
  if history.length < n then visitor history call else throw .shuttingDown

theorem upTo_of_lt (visitor : Visitor) {n : Nat} {history : List Call} (h : history.length < n) :
    visitor.upTo n history = visitor history := by
  funext call
  exact if_pos h

theorem upTo_of_le (visitor : Visitor) {n : Nat} {history : List Call} (h : n ≤ history.length)
    (call : Call) : visitor.upTo n history call = throw .shuttingDown :=
  if_neg (Nat.not_lt.mpr h)

end Visitor

namespace Compiling

/-- What a step asks a visitor and what the visitor answers, when the step is taken in a compilation
and comes to a result and to another compilation. A call is found by leaving it without an answer:
up to there, the step is taken as it would be. -/
structure Asks (context : Context) (visitor : Visitor) (step : Visitor → Compiling α)
    (before : Compilation) (log : List (Call × Result Visit)) (result : Result α)
    (last : Compilation) : Prop where
  run_eq : ((step visitor context).run).run before = (result, last)
  calls_eq : last.calls = before.calls ++ log.map Prod.fst
  reaches : ∀ i call answer, log[i]? = some (call, answer) → ∃ reached : Compilation,
    ((step (visitor.upTo (before.calls.length + i)) context).run).run before =
        (.error .shuttingDown, reached) ∧
      reached.calls = before.calls ++ (log.take (i + 1)).map Prod.fst ∧
      (((visitor (before.calls ++ (log.take i).map Prod.fst) call context).run).run
        reached.effects).1 = answer
  beyond : ∀ n, before.calls.length + log.length ≤ n →
    ((step (visitor.upTo n) context).run).run before = (result, last)

variable {visitor : Visitor} {before between last : Compilation}
  {log more : List (Call × Result Visit)}

/-- A step that has nothing to do with the visitor asks it nothing. -/
theorem asks_still {step : Compiling α} {result : Result α}
    (hrun : ((step context).run).run before = (result, last))
    (hcalls : last.calls = before.calls) :
    Asks context visitor (fun _ => step) before [] result last where
  run_eq := hrun
  calls_eq := by rw [hcalls, List.map_nil, List.append_nil]
  reaches _ _ _ h := by cases h
  beyond _ _ := hrun

/-- The visitor is asked one call, and what it answers is looked at. -/
theorem asks_consult (visitor : Visitor) (call : Call) (before : Compilation) :
    ∃ (answer : Result Visit) (last : Compilation), last.layout = before.layout ∧
      Asks context visitor (fun visitor => consult (some visitor) call) before [(call, answer)]
        (answer.map fun visit => if visit.isDeferred then none else some visit) last := by
  refine ⟨_, _, ?_, run_consult visitor call before, rfl, ?_, ?_⟩
  · rfl
  · intro i asked answer h
    cases i with
    | succ i => cases h
    | zero =>
      cases h
      refine ⟨{ before with calls := before.calls ++ [call] }, ?_, rfl, ?_⟩
      · rw [Nat.add_zero, run_consult, visitor.upTo_of_le (Nat.le_refl _)]
        rfl
      · rw [List.take_zero, List.map_nil, List.append_nil]
  · intro n h
    rw [run_consult, visitor.upTo_of_lt h]

/-- A step that fails ends the dialogue. -/
theorem asks_bind_error {step : Visitor → Compiling α} {next : Visitor → α → Compiling β}
    {error : Error} (h : Asks context visitor step before log (.error error) last) :
    Asks context visitor (fun visitor => step visitor >>= next visitor) before log (.error error)
      last where
  run_eq := by rw [run_bind, h.run_eq]
  calls_eq := h.calls_eq
  reaches := by
    intro i call answer hcall
    obtain ⟨reached, hrun, hreached⟩ := h.reaches i call answer hcall
    exact ⟨reached, by rw [run_bind, hrun], hreached⟩
  beyond := by
    intro n hn
    rw [run_bind, h.beyond n hn]

/-- A step that succeeds is followed by the dialogue of the next. -/
theorem asks_bind {step : Visitor → Compiling α} {next : Visitor → α → Compiling β} {a : α}
    {result : Result β} (h : Asks context visitor step before log (.ok a) between)
    (hnext : Asks context visitor (fun visitor => next visitor a) between more result last) :
    Asks context visitor (fun visitor => step visitor >>= next visitor) before (log ++ more) result
      last where
  run_eq := by
    rw [run_bind, h.run_eq]
    exact hnext.run_eq
  calls_eq := by
    rw [hnext.calls_eq, h.calls_eq, List.map_append, List.append_assoc]
  reaches := by
    intro i call answer hcall
    by_cases hi : i < log.length
    · rw [List.getElem?_append_left hi] at hcall
      obtain ⟨reached, hrun, hcalls, hanswer⟩ := h.reaches i call answer hcall
      refine ⟨reached, by rw [run_bind, hrun], ?_, ?_⟩
      · rw [hcalls, List.take_append_of_le_length hi]
      · rw [List.take_append_of_le_length (Nat.le_of_lt hi)]
        exact hanswer
    · have hlength : between.calls.length = before.calls.length + log.length := by
        rw [h.calls_eq, List.length_append, List.length_map]
      obtain ⟨j, rfl⟩ : ∃ j, i = log.length + j := ⟨i - log.length, by omega⟩
      rw [List.getElem?_append_right (by omega), Nat.add_sub_cancel_left] at hcall
      obtain ⟨reached, hrun, hcalls, hanswer⟩ := hnext.reaches j call answer hcall
      rw [hlength, Nat.add_assoc] at hrun
      refine ⟨reached, ?_, ?_, ?_⟩
      · rw [run_bind, h.beyond _ (by omega)]
        exact hrun
      · rw [hcalls, h.calls_eq, Nat.add_assoc, List.take_length_add_append, List.map_append,
          List.append_assoc]
      · rw [List.take_length_add_append, List.map_append, ← List.append_assoc, ← h.calls_eq]
        exact hanswer
  beyond := by
    intro n hn
    have hlength : between.calls.length = before.calls.length + log.length := by
      rw [h.calls_eq, List.length_append, List.length_map]
    rw [List.length_append] at hn
    rw [run_bind, h.beyond n (by omega)]
    exact hnext.beyond n (by omega)

/-- A dialogue at one place is one at another with the same calls so far, if both are taken alike
with every visitor. -/
theorem Asks.congr {step other : Visitor → Compiling α} {before elsewhere last : Compilation}
    {log : List (Call × Result Visit)} {result : Result α}
    (h : Asks context visitor other elsewhere log result last)
    (hcalls : elsewhere.calls = before.calls)
    (hrun : ∀ visitor, ((step visitor context).run).run before =
      ((other visitor context).run).run elsewhere) :
    Asks context visitor step before log result last where
  run_eq := (hrun visitor).trans h.run_eq
  calls_eq := hcalls ▸ h.calls_eq
  reaches i call answer hcall := by
    obtain ⟨reached, hreached⟩ := h.reaches i call answer hcall
    rw [hcalls, ← hrun] at hreached
    exact ⟨reached, hreached⟩
  beyond n hn := (hrun _).trans (h.beyond n (hcalls ▸ hn))

/-! ## Steps that ask nothing -/

/-- Only the visitor is told of calls. -/
abbrev SameCalls (before after : Compilation) : Prop :=
  after.calls = before.calls

theorem admits_sameCalls : Admits context SameCalls where
  refl _ := rfl
  trans _ _ _ hfirst hnext := Eq.trans hnext hfirst
  setLayout _ _ := rfl
  make _ _ _ := rfl

theorem sameCalls_plan (step : Planning α) : Leads context SameCalls (plan step) :=
  fun _ => rfl

theorem sameCalls_throw (error : Error) :
    Leads context SameCalls (throw error : Compiling α) :=
  fun _ => rfl

theorem sameCalls_throw_bind (error : Error) (next : α → Compiling β) :
    Leads context SameCalls ((throw error : Compiling α) >>= next) :=
  fun _ => rfl

end Compiling

/-! ## What becomes of answers -/

namespace Visit

variable {visit checked : Visit} {what : String}

/-- Whether no visit may end like this. -/
def Refused (visit : Visit) : Prop :=
  visit.status = .unknown ∨ visit.status = .error

theorem check_of_refused (h : visit.Refused) (what : String) :
    ∃ error, visit.check what = .error error := by
  unfold check
  rcases h with h | h
  · rw [h]
    exact ⟨_, rfl⟩
  · rw [h]
    exact ⟨_, rfl⟩

theorem check_eq_ok (h : visit.check what = .ok checked) : checked = visit := by
  unfold check at h
  split at h <;> cases h <;> rfl

theorem eq_deferred (h : visit.isDeferred = true) : visit = .deferred := by
  obtain ⟨task, status⟩ := visit
  unfold isDeferred at h
  simp only [Bool.and_eq_true, Option.isNone_iff_eq_none, decide_eq_true_eq] at h
  rw [h.1, h.2]
  rfl

theorem not_refused_deferred : ¬ deferred.Refused := by
  simp [Refused, deferred]

end Visit

namespace Compiling

variable {visitor : Visitor}

/-- The calls that were made are those expected, in their order, up to where the result is known to
be a failure. The error of a visitor is handed on, and a visit that is refused is not accepted. -/
structure Heeds (calls : List Call) (log : List (Call × Result Visit)) (result : Result α) :
    Prop where
  isPrefix : log.map Prod.fst <+: calls
  complete : ∀ a, result = .ok a → log.map Prod.fst = calls
  fails : ∀ call error, (call, (.error error : Result Visit)) ∈ log → result = .error error
  refuses : ∀ call visit, (call, (.ok visit : Result Visit)) ∈ log → visit.Refused →
    ∃ error, result = .error error

theorem heeds_nil (result : Result α) : Heeds [] [] result where
  isPrefix := List.prefix_refl []
  complete _ _ := rfl
  fails _ _ h := by cases h
  refuses _ _ h := by cases h

/-- After a failure nothing more is asked for. -/
theorem Heeds.stop {calls : List Call} {log : List (Call × Result Visit)} {error : Error}
    (h : Heeds calls log (.error error : Result α)) (more : List Call) :
    Heeds (calls ++ more) log (.error error : Result β) where
  isPrefix := h.isPrefix.trans (List.prefix_append calls more)
  complete _ hok := by cases hok
  fails call other hmem := by
    cases h.fails call other hmem
    rfl
  refuses call visit hmem hrefused := ⟨error, rfl⟩

/-- No answer stood in the way of a success, so the answers that follow count. -/
theorem Heeds.append {calls moreCalls : List Call} {log more : List (Call × Result Visit)} {a : α}
    {result : Result β} (h : Heeds calls log (.ok a)) (hmore : Heeds moreCalls more result) :
    Heeds (calls ++ moreCalls) (log ++ more) result where
  isPrefix := by
    rw [List.map_append, h.complete a rfl]
    exact (List.prefix_append_right_inj calls).mpr hmore.isPrefix
  complete b hok := by
    rw [List.map_append, h.complete a rfl, hmore.complete b hok]
  fails call error hmem := by
    rcases List.mem_append.mp hmem with hmem | hmem
    · cases h.fails call error hmem
    · exact hmore.fails call error hmem
  refuses call visit hmem hrefused := by
    rcases List.mem_append.mp hmem with hmem | hmem
    · obtain ⟨error, herror⟩ := h.refuses call visit hmem hrefused
      cases herror
    · exact hmore.refuses call visit hmem hrefused

/-- Wherever the step is taken, it talks to the visitor by the given calls and heeds the answers. If
it succeeds, the layout before, the visits, the value and the layout after it are related. -/
def Talks (context : Context) (visitor : Visitor) (calls : List Call) (step : Visitor → Compiling α)
    (Post : Layout → List Visit → α → Layout → Prop) : Prop :=
  ∀ before, ∃ log result last, Asks context visitor step before log result last ∧
    Heeds calls log result ∧ ∀ a, result = .ok a → ∃ visits : List Visit,
      log.map Prod.snd = visits.map .ok ∧ Post before.layout visits a last.layout

theorem talks_still {step : Compiling α} {Post : Layout → List Visit → α → Layout → Prop}
    (hcalls : Leads context SameCalls step)
    (hpost : ∀ before a last, ((step context).run).run before = (.ok a, last) →
      Post before.layout [] a last.layout) :
    Talks context visitor [] (fun _ => step) Post := by
  intro before
  have hsame := hcalls before
  rcases hrun : ((step context).run).run before with ⟨result, last⟩
  rw [hrun] at hsame
  refine ⟨[], result, last, asks_still hrun hsame, heeds_nil result, fun a hok => ?_⟩
  rw [hok] at hrun
  exact ⟨[], rfl, hpost before a last hrun⟩

theorem talks_bind {calls more : List Call} {step : Visitor → Compiling α}
    {next : Visitor → α → Compiling β} {P : Layout → List Visit → α → Layout → Prop}
    {Q : α → Layout → List Visit → β → Layout → Prop} (hstep : Talks context visitor calls step P)
    (hnext : ∀ a, Talks context visitor more (fun visitor => next visitor a) (Q a)) :
    Talks context visitor (calls ++ more) (fun visitor => step visitor >>= next visitor)
      fun before visits b after => ∃ a between first second, visits = first ++ second ∧
        P before first a between ∧ Q a between second b after := by
  intro before
  obtain ⟨log, result, between, hasks, hheeds, hpost⟩ := hstep before
  cases result with
  | error error =>
    exact ⟨log, .error error, between, asks_bind_error hasks, hheeds.stop more,
      fun _ h => by cases h⟩
  | ok a =>
    obtain ⟨moreLog, result, last, hmoreAsks, hmoreHeeds, hmorePost⟩ := hnext a between
    refine ⟨log ++ moreLog, result, last, asks_bind hasks hmoreAsks, hheeds.append hmoreHeeds, ?_⟩
    intro b hok
    obtain ⟨first, hfirst, hP⟩ := hpost a rfl
    obtain ⟨second, hsecond, hQ⟩ := hmorePost b hok
    refine ⟨first ++ second, ?_, a, between.layout, first, second, rfl, hP, hQ⟩
    rw [List.map_append, List.map_append, hfirst, hsecond]

theorem Talks.mono {calls : List Call} {step : Visitor → Compiling α}
    {P Q : Layout → List Visit → α → Layout → Prop} (h : Talks context visitor calls step P)
    (hpost : ∀ before visits a after, P before visits a after → Q before visits a after) :
    Talks context visitor calls step Q := by
  intro before
  obtain ⟨log, result, last, hasks, hheeds, hP⟩ := h before
  refine ⟨log, result, last, hasks, hheeds, fun a hok => ?_⟩
  obtain ⟨visits, hvisits, hholds⟩ := hP a hok
  exact ⟨visits, hvisits, hpost _ _ _ _ hholds⟩

/-- A call is made, and no more after it. What follows does not succeed on a refused visit. -/
theorem talks_consult {call : Call} {next : Option Visit → Compiling α}
    {Post : Layout → List Visit → α → Layout → Prop}
    (hcalls : ∀ found, Leads context SameCalls (next found))
    (hrefuses : ∀ visit : Visit, visit.Refused → ∀ before, ∃ error,
      (((next (some visit) context).run).run before).1 = .error error)
    (hpost : ∀ (visit : Visit) (before : Compilation) (a : α) (last : Compilation),
      ((next (if visit.isDeferred then none else some visit) context).run).run before =
        (.ok a, last) → Post before.layout [visit] a last.layout) :
    Talks context visitor [call] (fun visitor => consult (some visitor) call >>= next) Post := by
  intro before
  obtain ⟨answer, between, hlayout, hasks⟩ := asks_consult visitor call before
  cases answer with
  | error error =>
    refine ⟨_, .error error, between, asks_bind_error hasks, ?_, fun _ h => by cases h⟩
    constructor
    · exact List.prefix_refl [call]
    · exact fun _ h => by cases h
    · intro asked other hmem
      cases List.mem_singleton.mp hmem
      rfl
    · exact fun _ _ _ _ => ⟨error, rfl⟩
  | ok visit =>
    have hsame := hcalls (if visit.isDeferred then none else some visit) between
    rcases hrun : ((next (if visit.isDeferred then none else some visit) context).run).run between
      with ⟨result, last⟩
    rw [hrun] at hsame
    refine ⟨_, result, last, asks_bind hasks (asks_still hrun hsame), ?_, ?_⟩
    · constructor
      · exact List.prefix_refl [call]
      · exact fun _ _ => rfl
      · intro asked error hmem
        cases List.mem_singleton.mp hmem
      · intro asked other hmem hrefused
        cases List.mem_singleton.mp hmem
        have hkept : ¬ visit.isDeferred = true := fun h =>
          Visit.not_refused_deferred (Visit.eq_deferred h ▸ hrefused)
        rw [if_neg hkept] at hrun
        obtain ⟨error, herror⟩ := hrefuses visit hrefused between
        rw [hrun] at herror
        exact ⟨error, herror⟩
    · intro a hok
      rw [hok] at hrun
      exact ⟨[visit], rfl, hlayout ▸ hpost visit between a last hrun⟩

theorem talks_pure (a : α) : Talks context visitor [] (fun _ => pure a)
    fun before visits value after => visits = [] ∧ after = before ∧ value = a :=
  talks_still (leads_pure admits_sameCalls a) fun _ _ _ hrun => by
    cases hrun
    exact ⟨rfl, rfl, rfl⟩

theorem talks_make (request : Request) : Talks context visitor [] (fun _ => make request)
    fun before visits task after => visits = [] ∧ after = before ∧
      context.planner request = .ok task :=
  talks_still (sameCalls_plan _) fun _ _ _ hrun =>
    ⟨rfl, (run_make_eq_ok hrun).2, (run_make_eq_ok hrun).1⟩

end Compiling
end SqlPipeline
