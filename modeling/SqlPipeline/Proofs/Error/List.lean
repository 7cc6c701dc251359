import SqlPipeline.Error.List

/-!
# Errors that are reported together

A list of errors is reported as one error, a lone one as it is and several by the lines of their
messages. Reporting goes over appending: what two lists come to is all there is to know about them
to tell what they come to together (`ErrorList.error?_append`). So it makes no difference whether
errors are reported at once or in groups.
-/

namespace SqlPipeline

/-- Joined texts stand one after the other, with the separator between them. -/
theorem Text.join_append (separator : String) {first second : List String} (hfirst : first ≠ [])
    (hsecond : second ≠ []) :
    join separator (first ++ second) =
      join separator first ++ separator ++ join separator second := by
  induction first with
  | nil => exact absurd rfl hfirst
  | cons s rest ih =>
    have hcons : ∀ others : List String, others ≠ [] →
        join separator (s :: others) = s ++ separator ++ join separator others := by
      intro others hothers
      cases others with
      | nil => exact absurd rfl hothers
      | cons next others => rfl
    by_cases hrest : rest = []
    · rw [hrest, List.cons_append, List.nil_append, hcons second hsecond]
      rfl
    · rw [List.cons_append, hcons _ (by simp [hrest]), hcons rest hrest, ih hrest]
      simp only [String.append_assoc]

/-- The error that stands for two errors, if there are any. -/
def Error.merge : Option Error → Option Error → Option Error
  | none, second => second
  | first, none => first
  | some first, some second => some (.aggregate (first.message ++ "\n" ++ second.message))

@[simp] theorem Error.merge_none (first : Option Error) : Error.merge first none = first := by
  cases first <;> rfl

theorem Error.message_aggregate (text : String) : (aggregate text).message = text := rfl

theorem Error.merge_assoc (first second third : Option Error) :
    Error.merge (Error.merge first second) third =
      Error.merge first (Error.merge second third) := by
  cases first with
  | none => rfl
  | some one =>
    cases second with
    | none => rfl
    | some two =>
      cases third with
      | none => rfl
      | some three => simp only [Error.merge, Error.message_aggregate, String.append_assoc]

namespace ErrorList

/-- The error that stands for several has their lines as its message. -/
theorem message_of_error? {list : ErrorList} {error : Error} (h : list.error? = some error) :
    error.message = list.text := by
  unfold error? at h
  split at h
  · cases h
  · next single hsingle =>
    cases h
    rw [text, hsingle]
    rfl
  · cases h
    rfl

theorem error?_of_two_le {list : ErrorList} (h : 2 ≤ list.errors.length) :
    list.error? = some (.aggregate list.text) := by
  unfold error?
  split
  · next hnone => rw [hnone] at h; simp at h
  · next hsingle => rw [hsingle] at h; simp at h
  · rfl

theorem exists_error? {list : ErrorList} (h : list.errors ≠ []) :
    ∃ error, list.error? = some error :=
  Option.ne_none_iff_exists'.mp fun hnone => h ((error?_eq_none_iff list).mp hnone)

/-- **Lists of errors that are put together are reported by what each is reported as.** -/
theorem error?_append (first second : List Error) : (⟨first ++ second⟩ : ErrorList).error? =
    Error.merge (⟨first⟩ : ErrorList).error? (⟨second⟩ : ErrorList).error? := by
  by_cases hfirst : first = []
  · rw [hfirst]
    rfl
  by_cases hsecond : second = []
  · rw [hsecond, List.append_nil]
    exact (Error.merge_none _).symm
  -- both have errors, so together they have two at least
  obtain ⟨one, hone⟩ : ∃ one, (⟨first⟩ : ErrorList).error? = some one := exists_error? hfirst
  obtain ⟨other, hother⟩ : ∃ other, (⟨second⟩ : ErrorList).error? = some other :=
    exists_error? hsecond
  have hlength : 2 ≤ (first ++ second).length := by
    have hone := List.length_pos_iff.mpr hfirst
    have hother := List.length_pos_iff.mpr hsecond
    rw [List.length_append]
    omega
  have htext : (⟨first ++ second⟩ : ErrorList).text =
      (⟨first⟩ : ErrorList).text ++ "\n" ++ (⟨second⟩ : ErrorList).text := by
    unfold text
    rw [List.map_append, Text.join_append "\n" (by simpa using hfirst) (by simpa using hsecond)]
  rw [error?_of_two_le hlength, hone, hother, Error.merge, message_of_error? hone,
    message_of_error? hother, htext]

/-- What comes of steps that are all taken whichever of them fail, given their errors: a lone error
as it is, and several as one with the message of each on a line of its own. -/
structure Reports {α : Type} (errors : List Error) (result : Result α) : Prop where
  ok_iff : (∃ value, result = .ok value) ↔ errors = []
  lone : ∀ error, errors = [error] → result = .error error
  several : 2 ≤ errors.length →
    result = .error (.aggregate (Text.join "\n" (errors.map Error.message)))

/-- **A result that fails with what a list is reported as reports the list.** -/
theorem reports {α : Type} (list : ErrorList) {result : Result α}
    (hnone : list.error? = none → ∃ value, result = .ok value)
    (hsome : ∀ error, list.error? = some error → result = .error error) :
    Reports list.errors result where
  ok_iff := by
    refine ⟨fun ⟨value, hvalue⟩ => Classical.byContradiction fun herrors => ?_,
      fun h => hnone ((error?_eq_none_iff list).mpr h)⟩
    obtain ⟨error, herror⟩ := exists_error? herrors
    rw [hsome error herror] at hvalue
    cases hvalue
  lone error h := hsome error (by unfold error?; rw [h])
  several h := hsome _ (error?_of_two_le h)

theorem reports_toResult (list : ErrorList) : Reports list.errors list.toResult := by
  unfold toResult
  refine list.reports (fun h => ?_) (fun error h => ?_)
  · rw [h]
    exact ⟨(), rfl⟩
  · rw [h]

/-- Lists that are reported alike fail alike. -/
theorem toResult_congr {first second : ErrorList} (h : first.error? = second.error?) :
    first.toResult = second.toResult := by
  unfold toResult
  rw [h]

/-- What a list fails with, added to another one, is reported as the two together. -/
theorem error?_appendResult_toResult (first second : ErrorList) :
    (first.appendResult second.toResult).2.error? = Error.merge first.error? second.error? := by
  unfold toResult
  cases h : second.error? with
  | none => rw [Error.merge_none, appendResult]
  | some error => exact (error?_append first.errors [error])

end ErrorList
end SqlPipeline
