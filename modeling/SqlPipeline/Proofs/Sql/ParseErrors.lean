import SqlPipeline.Proofs.Sql.Endings
import SqlPipeline.Proofs.Sql.LexErrors
import SqlPipeline.Proofs.Sql.Scripts

/-!
# Where the errors of scripts are

An error of a script is at one of its tokens, or where the lexer is stuck if it has no tokens. There
is one exception: if a text to prepare has an error, it becomes the error of the script, with the
position it has in the text to prepare (`Script.parse_error_place`).

A text to prepare is read like a script of its own. How deep such texts may be nested is bounded by
the length of the script, which no text in it reaches (`Parser.statementsIn_congr`).
-/

namespace SqlPipeline.Sql

namespace Parser

variable {α β : Type} {all ts rest : List Located}

/-! ## Statements -/

/-- Whether the tokens have the text `inner` to prepare: it stands after `PREPARE`, a name and
`FROM`. -/
def Prepares (all : List Located) (inner : String) : Prop :=
  ∃ before t name u v after ident, all = before ++ t :: name :: u :: v :: after ∧
    t.token.keyword? = some .PREPARE ∧ identOf name = .ok ident ∧
    u.token.keyword? = some .FROM ∧ v.token = .string inner

/-- Whether a text has the text `inner` to prepare. -/
def PreparedIn (inner sql : String) : Prop :=
  ∃ tokens, tokenize sql = .ok tokens ∧ Prepares tokens inner

/-- A text to prepare is shorter than the text it stands in. -/
theorem PreparedIn.length_lt {inner sql : String} (h : PreparedIn inner sql) :
    inner.length < sql.length := by
  obtain ⟨_, htokens, before, t, name, u, v, after, _, rfl, -, -, -, hv⟩ := h
  have hmem : Token.string inner ∈ tokensOf (before ++ t :: name :: u :: v :: after) := by
    simp [hv]
  have hlength := (tokenize_eq_ok_iff.mp htokens).length_lt_of_string hmem
  rwa [String.length_toList, String.length_toList] at hlength

/-- The string that is found after `PREPARE`, a name and `FROM` is a text to prepare. -/
theorem prepares_of_reads {t v : Located} {name : Ident} {u : Unit} {left after : List Located}
    {inner : String} (hts : t :: ts <:+ all) (ht : t.token.keyword? = some .PREPARE)
    (hname : Reads ident ts name rest) (hfrom : Reads (expectKeyword .FROM) rest u left)
    (hv : left = v :: after) (hstring : v.token = .string inner) : Prepares all inner := by
  obtain ⟨first, _, hfirst, hident⟩ := reads_bind.mp hname
  obtain ⟨hok, rfl⟩ := reads_lift.mp hident
  obtain ⟨w, hw, rfl⟩ := reads_expectKeyword.mp hfrom
  obtain ⟨before, hbefore⟩ := hts
  exact ⟨before, t, first, w, v, after, name, by rw [← hbefore, reads_next.mp hfirst, hv], ht,
    hok, hw, hstring⟩

section Reading

variable {read : String → Except ParseError (List Statement)}

/-- An error that reading a text to prepare ends with. -/
def OfPrepared (read : String → Except ParseError (List Statement)) (all : List Located)
    (error : ParseError) : Prop :=
  ∃ inner, Prepares all inner ∧ read inner = .error error

theorem endsAt_prepare {t : Located} (ht : t.token.keyword? = some .PREPARE)
    (hts : t :: ts <:+ all) : EndsAt all (OfPrepared read all) (prepare read) ts := by
  refine (ends_ident ts (suffix_of_cons hts)).bind fun ident rest hident hrest => ?_
  refine (ends_expectKeyword _ rest hrest).bind fun _ left hfrom hleft => ?_
  refine endsAt_next_bind hleft fun v after hv => ?_
  have hafter : after <:+ all := suffix_of_cons (hv ▸ hleft)
  have hmem : v ∈ all := (hv ▸ hleft).mem List.mem_cons_self
  split
  · next inner hstring =>
    have hprepares : Prepares all inner := prepares_of_reads hts ht hident hfrom hv hstring
    refine Ends.bind (ends_lift fun error herror => .inr ⟨inner, hprepares, herror⟩)
      (fun found => ?_) after hafter
    split
    · exact ends_pure _
    · exact ends_failAt hmem _
  · exact ends_failAt hmem _ after hafter

theorem ends_statement : Ends all (OfPrepared read all) (statement read) := by
  refine ends_next_bind fun t ts hts => ?_
  have hrest := suffix_of_cons hts
  have ht : t ∈ all := hts.mem List.mem_cons_self
  -- no keyword, one of those that begin a statement, or another one
  split
  · exact ends_failAt ht _ ts hrest
  · refine (ends_select.bind fun select => ?_) ts hrest
    split
    · exact ends_pure _
    · exact ends_pure _
  · exact ((ends_expectKeyword _).bind fun _ => ends_insert.bind fun _ => ends_pure _) ts hrest
  · exact ((ends_expectKeyword _).bind fun _ => ends_insert.bind fun _ => ends_pure _) ts hrest
  · exact (ends_update.bind fun _ => ends_pure _) ts hrest
  · exact ((ends_expectKeyword _).bind fun _ => ends_delete.bind fun _ => ends_pure _) ts hrest
  · exact (ends_showing.bind fun _ => ends_pure _) ts hrest
  · exact (ends_objectName.bind fun _ => ends_pure _) ts hrest
  · exact (ends_objectName.bind fun _ => ends_pure _) ts hrest
  · exact (ends_setVariable.bind fun _ => ends_pure _) ts hrest
  · next hprepare => exact endsAt_prepare hprepare hts
  · exact ends_failAt ht _ ts hrest

theorem ends_statementsWithin (budget : Nat) :
    Ends all (OfPrepared read all) (statementsWithin read budget) := by
  induction budget with
  | zero => exact ends_outOfBudget
  | succ budget ih =>
    intro ts hts
    refine endsAt_get_bind (endsAt_set_bind ?_)
    refine (ends_peek?.bind fun first => ?_) _ ((List.dropWhile_suffix _).trans hts)
    split
    · exact ends_pure _
    · refine ends_statement.bind fun found => ends_peek?.bind fun stop => ?_
      split
      · exact ends_pure _
      · exact (ends_sign? _).bind fun _ => ends_ite
          ((ends_pure _).bind fun _ => ih.bind fun _ => ends_pure _)
          ((ends_unexpected _).bind fun _ => ih.bind fun _ => ends_pure _)

end Reading

/-! ## Texts to prepare -/

section Congr

variable {read other : String → Except ParseError (List Statement)}

theorem run_bind_congr {p q : Parser α} {next next' : α → Parser β} (hp : p.run ts = q.run ts)
    (h : ∀ a rest, Reads p ts a rest → (next a).run rest = (next' a).run rest) :
    (p >>= next).run ts = (q >>= next').run ts := by
  rw [StateT.run_bind, StateT.run_bind, ← hp]
  cases hrun : p.run ts with
  | error error => rfl
  | ok found => exact h found.1 found.2 hrun

theorem run_prepare_congr {t : Located} (ht : t.token.keyword? = some .PREPARE)
    (hts : t :: ts <:+ all) (h : ∀ inner, Prepares all inner → read inner = other inner) :
    (prepare read).run ts = (prepare other).run ts := by
  unfold prepare
  refine run_bind_congr rfl fun name rest hname => run_bind_congr rfl fun _ left hfrom =>
    run_bind_congr rfl fun v after hv => ?_
  split
  · next inner hstring =>
    rw [h inner (prepares_of_reads hts ht hname hfrom (reads_next.mp hv) hstring)]
  · rfl

/-- A statement depends only on how the texts to prepare in it are read. -/
theorem run_statement_congr (hts : ts <:+ all)
    (h : ∀ inner, Prepares all inner → read inner = other inner) :
    (statement read).run ts = (statement other).run ts := by
  unfold statement
  refine run_bind_congr rfl fun t rest ht => ?_
  split
  case h_11 hprepare =>
    cases reads_next.mp ht
    exact run_prepare_congr hprepare hts h
  all_goals rfl

theorem run_statementsWithin_congr (h : ∀ inner, Prepares all inner → read inner = other inner) :
    ∀ {budget : Nat} {ts : List Located}, ts <:+ all →
      (statementsWithin read budget).run ts = (statementsWithin other budget).run ts
  | 0, _, _ => rfl
  | budget + 1, ts, hts => by
    unfold statementsWithin
    refine run_bind_congr rfl fun _ _ hget => run_bind_congr rfl fun _ left hleft =>
      run_bind_congr rfl fun first rest hfirst => ?_
    have hrest : rest <:+ all := by
      cases hget
      cases hleft
      exact (reads_peek?.mp hfirst).2 ▸ (List.dropWhile_suffix _).trans hts
    split
    · rfl
    refine run_bind_congr (run_statement_congr hrest h) fun found more hfound =>
      run_bind_congr rfl fun stop more' hstop => ?_
    split
    · rfl
    refine run_bind_congr rfl fun semicolon left' hsemicolon => ?_
    have hmore' : more' <:+ all := by
      have hstatement : Ends rest (OfPrepared read rest) (statement read) := ends_statement
      exact (reads_peek?.mp hstop).2 ▸ (hstatement.suffix hfound).trans hrest
    have hleft' : left' <:+ all := by
      have hsign : Ends more' (fun _ => False) (sign? .semicolon) := ends_sign? _
      exact (hsign.suffix hsemicolon).trans hmore'
    cases semicolon
    · refine run_bind_congr rfl fun _ last hlast => ?_
      exact absurd hlast not_reads_unexpected
    · exact run_bind_congr (run_statementsWithin_congr h hleft') fun _ _ _ => rfl

theorem readWith_of_error {sql : String} {error : ParseError} (h : tokenize sql = .error error) :
    readWith read sql = .error error := by
  rw [readWith, h]
  rfl

theorem readWith_of_nil {sql : String} (h : tokenize sql = .ok []) :
    readWith read sql = .error ⟨"Empty SQL statement", none⟩ := by
  rw [readWith, h]
  rfl

/-- Reading a text that has tokens is reading its tokens. -/
theorem readWith_eq {sql : String} {tokens : List Located} (h : tokenize sql = .ok tokens)
    (hne : tokens ≠ []) : readWith read sql =
      ((statementsWithin read (tokens.length + 1)).run tokens).map (·.1) := by
  obtain ⟨t, ts, rfl⟩ := List.exists_cons_of_ne_nil hne
  rw [readWith, h]
  cases hrun : (statementsWithin read ((t :: ts).length + 1)).run (t :: ts) with
  | error error =>
    change ((statementsWithin read ((t :: ts).length + 1)).run (t :: ts) >>= _) = _
    rw [hrun]
    rfl
  | ok found =>
    change ((statementsWithin read ((t :: ts).length + 1)).run (t :: ts) >>= _) = _
    rw [hrun]
    rfl

/-- The statements of a text depend only on how the texts to prepare in it are read. -/
theorem readWith_congr {sql : String} (h : ∀ inner, PreparedIn inner sql → read inner = other inner) :
    readWith read sql = readWith other sql := by
  cases htokens : tokenize sql with
  | error error => rw [readWith_of_error htokens, readWith_of_error htokens]
  | ok tokens =>
    by_cases hne : tokens = []
    · rw [readWith_of_nil (hne ▸ htokens), readWith_of_nil (hne ▸ htokens)]
    have hrun : (statementsWithin read (tokens.length + 1)).run tokens =
        (statementsWithin other (tokens.length + 1)).run tokens :=
      run_statementsWithin_congr (fun inner hinner => h inner ⟨tokens, htokens, hinner⟩)
        List.suffix_rfl
    rw [readWith_eq htokens hne, readWith_eq htokens hne, hrun]

end Congr

/-- How deep texts to prepare may be nested does not matter for a text that is shorter than that. -/
theorem statementsIn_congr : ∀ {depth other : Nat} {sql : String}, sql.length < depth →
    sql.length < other → statementsIn depth sql = statementsIn other sql
  | 0, _, _, hdepth, _ => absurd hdepth (Nat.not_lt_zero _)
  | _, 0, _, _, hother => absurd hother (Nat.not_lt_zero _)
  | depth + 1, other + 1, sql, hdepth, hother => by
    have hread : readWith (statementsIn depth) sql = readWith (statementsIn other) sql := by
      refine readWith_congr fun inner hinner => ?_
      have := hinner.length_lt
      exact statementsIn_congr (by omega) (by omega)
    rw [statementsIn, statementsIn, hread]

theorem readWith_eq_error {read : String → Except ParseError (List Statement)} {sql : String}
    {error : ParseError} (h : readWith read sql = .error error) :
    tokenize sql = .error error ∨ ∃ tokens, tokenize sql = .ok tokens ∧
      (error.SeenIn tokens ∨ OfPrepared read tokens error) := by
  cases htokens : tokenize sql with
  | error other =>
    rw [readWith_of_error htokens] at h
    cases h
    exact .inl rfl
  | ok tokens =>
    refine .inr ⟨tokens, rfl, ?_⟩
    by_cases hne : tokens = []
    · rw [readWith_of_nil (hne ▸ htokens)] at h
      cases h
      exact .inl (seenIn_none _)
    have hends : Ends tokens (OfPrepared read tokens)
        (statementsWithin read (tokens.length + 1)) := ends_statementsWithin _
    refine (hends tokens List.suffix_rfl).fails ?_
    rw [readWith_eq htokens hne] at h
    cases hrun : (statementsWithin read (tokens.length + 1)).run tokens with
    | error other =>
      rw [hrun] at h
      cases h
      rfl
    | ok found =>
      rw [hrun] at h
      cases h

end Parser

namespace Script

open SqlPipeline.Sql.Parser

variable {sql inner last : String} {error : ParseError} {offset : Nat}

/-- A text to prepare is read as a script of its own. -/
theorem spanned_eq (sql : String) : spanned sql = readWith parse sql :=
  readWith_congr fun _ hinner => statementsIn_congr hinner.length_lt (Nat.lt_succ_self _)

theorem parse_eq_error (h : parse sql = .error error) :
    tokenize sql = .error error ∨ ∃ tokens, tokenize sql = .ok tokens ∧
      (error.SeenIn tokens ∨ OfPrepared parse tokens error) := by
  have hread : readWith parse sql = .error error := by
    rw [parse, spanned_eq] at h
    cases hread : readWith parse sql with
    | error other =>
      rw [hread] at h
      cases h
      rfl
    | ok founds =>
      rw [hread] at h
      cases h
  exact readWith_eq_error hread

end Script

/-- Whether an error may be at a position of a text: at one of its tokens, or, if it is not
tokenized, at the character at which the lexer is stuck. -/
def ParseError.PointsInto (error : ParseError) (sql : String) (offset : Nat) : Prop :=
  match tokenize sql with
  | .ok tokens => ∃ t ∈ tokens, t.offset = offset
  | .error _ => ∃ before c after tokens, sql.toList = before ++ c :: after ∧
      Lexes 0 before tokens (c :: after) ∧ Segment.Stuck c after error.message ∧
      offset = Text.byteLength before

/-- The texts from which a script can have an error: its own, or that of a text to prepare in it
which has the same error. -/
inductive Script.FailsBy (error : ParseError) : String → String → Prop where
  | own {sql : String} : FailsBy error sql sql
  | prepared {sql inner last : String} {tokens : List Located} (htokens : tokenize sql = .ok tokens)
      (hprepares : Parser.Prepares tokens inner) (hinner : Script.parse inner = .error error)
      (hlast : FailsBy error inner last) : FailsBy error sql last

namespace Script

/-- **Where an error of a script is.** -/
theorem parse_error_place {sql : String} {error : ParseError} {offset : Nat}
    (h : parse sql = .error error) (hoffset : error.offset = some offset) :
    ∃ last, FailsBy error sql last ∧ error.PointsInto last offset := by
  induction hlength : sql.length using Nat.strongRecOn generalizing sql with
  | ind length ih =>
    obtain htokens | ⟨tokens, htokens, hseen | ⟨inner, hprepares, hinner⟩⟩ := parse_eq_error h
    · refine ⟨sql, .own, ?_⟩
      obtain ⟨before, c, after, tokens, htext, hlexes, hstuck, hplace⟩ := exists_stuck htokens
      rw [ParseError.PointsInto, htokens]
      exact ⟨before, c, after, tokens, htext, hlexes, hstuck,
        Option.some.inj (hoffset.symm.trans hplace)⟩
    · refine ⟨sql, .own, ?_⟩
      rw [ParseError.PointsInto, htokens]
      exact hseen offset hoffset
    · have hshorter : inner.length < length :=
        hlength ▸ Parser.PreparedIn.length_lt ⟨tokens, htokens, hprepares⟩
      obtain ⟨last, hlast, hplace⟩ := ih inner.length hshorter hinner rfl
      exact ⟨last, .prepared htokens hprepares hinner hlast, hplace⟩

/-- A text to prepare that has no statement. -/
def showingNumber : String :=
  "SHOW 1"

def preparingNumber : String :=
  "PREPARE p FROM 'SHOW 1'"

def numberError : ParseError :=
  ⟨"Unexpected token: 1. Expected an identifier.", some 5⟩

/-- The error of a text to prepare. -/
theorem parse_error_place_prepared :
    parse preparingNumber = .error numberError ∧ numberError.offset = some 5 ∧
      ∃ last, FailsBy numberError preparingNumber last ∧ numberError.PointsInto last 5 := by
  have h : parse preparingNumber = .error numberError := by decide +kernel
  exact ⟨h, rfl, parse_error_place h rfl⟩

/-- The position of this error is one in the text to prepare. In the script no token starts there. -/
theorem parse_error_place_outside :
    parse preparingNumber = .error numberError ∧ parse showingNumber = .error numberError ∧
      numberError.PointsInto showingNumber 5 ∧ ¬numberError.PointsInto preparingNumber 5 := by
  have hshowing : tokenize showingNumber = .ok [⟨Keyword.SHOW.token, 0⟩, ⟨.number "1", 5⟩] := by
    decide +kernel
  have hpreparing : tokenize preparingNumber = .ok [⟨Keyword.PREPARE.token, 0⟩,
      ⟨Ident.token ⟨"p", false⟩, 8⟩, ⟨Keyword.FROM.token, 10⟩, ⟨.string "SHOW 1", 15⟩] := by
    decide +kernel
  refine ⟨by decide +kernel, by decide +kernel, ?_, ?_⟩
  · rw [ParseError.PointsInto, hshowing]
    exact ⟨_, List.mem_cons_of_mem _ List.mem_cons_self, rfl⟩
  · rw [ParseError.PointsInto, hpreparing]
    simp

end Script
end SqlPipeline.Sql
