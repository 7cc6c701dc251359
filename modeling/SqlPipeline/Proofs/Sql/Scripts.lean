import SqlPipeline.Proofs.Sql.Lexing
import SqlPipeline.Proofs.Sql.Statements
import SqlPipeline.Sql.Script

/-!
# Scripts and their statements

`Statements read ts founds` says that the tokens `ts` are the statements `founds` with semicolons
between them. The statement parser stops at a semicolon as it stops at the end of a text, and a
part of a text has the tokens it has in the text. So the text that a statement of a script was read
from is a script of this one statement (`parseWithSource_eq_ok`).

A text to prepare is read with a smaller bound on how deep such texts are nested. The bound has no
effect, since a text to prepare is shorter than the text it stands in (`statementsIn_of_length_lt`).
-/

namespace SqlPipeline.Sql

/-- Statements with semicolons between them, each with the positions where it starts and ends. -/
inductive Statements (read : String → Except ParseError (List Statement)) :
    List Located → List Spanned → Prop where
  | done {semicolons : List Located} (h : ∀ t ∈ semicolons, t.token = .sign .semicolon) :
      Statements read semicolons []
  | last {semicolons used : List Located} {start : Located} {statement : Statement}
      (h : ∀ t ∈ semicolons, t.token = .sign .semicolon)
      (hspelled : statement.Spelled read (tokensOf (start :: used))) :
      Statements read (semicolons ++ start :: used) [⟨statement, start.offset, none⟩]
  | more {semicolons used rest : List Located} {start stop : Located} {statement : Statement}
      {founds : List Spanned} (h : ∀ t ∈ semicolons, t.token = .sign .semicolon)
      (hspelled : statement.Spelled read (tokensOf (start :: used)))
      (hstop : stop.token = .sign .semicolon) (hrest : Statements read rest founds) :
      Statements read (semicolons ++ start :: (used ++ stop :: rest))
        (⟨statement, start.offset, some stop.offset⟩ :: founds)

section Mono

variable {read other : String → Except ParseError (List Statement)}

/-- What a statement is depends only on how the texts in it are read. -/
theorem Statement.Spelled.mono {statement : Statement} {tokens : List Token}
    (h : statement.Spelled read tokens)
    (hread : ∀ sql found, .string sql ∈ tokens → read sql = .ok found → other sql = .ok found) :
    statement.Spelled other tokens := by
  cases h with
  | select ht h hinto => exact .select ht h hinto
  | into ht h hinto => exact .into ht h hinto
  | insert ht hu h => exact .insert ht hu h
  | upsert ht hu h => exact .upsert ht hu h
  | update ht h => exact .update ht h
  | delete ht hu h => exact .delete ht hu h
  | showing ht h => exact .showing ht h
  | describe ht h => exact .describe ht h
  | set ht h => exact .set ht h
  | prepare ht hname hu hfound => exact .prepare ht hname hu (hread _ _ (by simp) hfound)

theorem Statements.mono {ts : List Located} {founds : List Spanned}
    (h : Statements read ts founds)
    (hread : ∀ sql found, .string sql ∈ tokensOf ts → read sql = .ok found →
      other sql = .ok found) :
    Statements other ts founds := by
  induction h with
  | done h => exact .done h
  | last h hspelled =>
    refine .last h (hspelled.mono fun sql found hmem => hread sql found ?_)
    rw [tokensOf_append]
    exact List.mem_append_right _ hmem
  | more h hspelled hstop _ ih =>
    refine .more h (hspelled.mono fun sql found hmem => hread sql found ?_) hstop
      (ih fun sql found hmem => hread sql found ?_)
    · rw [tokensOf_append, ← List.cons_append, tokensOf_append]
      exact List.mem_append_right _ (List.mem_append_left _ hmem)
    · rw [tokensOf_append, ← List.cons_append, tokensOf_append, tokensOf_cons]
      exact List.mem_append_right _ (List.mem_append_right _ (List.mem_cons_of_mem _ hmem))

/-- A statement starts with a keyword. -/
theorem Statement.Spelled.exists_first {statement : Statement} {tokens : List Token}
    (h : statement.Spelled read tokens) :
    ∃ t others keyword, tokens = t :: others ∧ t.keyword? = some keyword := by
  cases h with
  | select ht | into ht | insert ht | upsert ht | update ht | delete ht | showing ht | set ht
  | prepare ht => exact ⟨_, _, _, rfl, ht⟩
  | describe ht =>
    rcases ht with ht | ht
    all_goals exact ⟨_, _, _, rfl, ht⟩

theorem Statement.Spelled.ne_semicolon {statement : Statement} {t : Token} {tokens : List Token}
    (h : statement.Spelled read (t :: tokens)) : t ≠ .sign .semicolon := by
  obtain ⟨_, _, keyword, heq, ht⟩ := h.exists_first
  cases heq
  exact Token.ne_sign_of_keyword ht

end Mono

namespace Parser

variable {read : String → Except ParseError (List Statement)} {ts rest : List Located}
  {founds : List Spanned}

/-- The tokens of a script start with semicolons that are passed over. -/
theorem exists_semicolons : ∀ ts : List Located, ∃ semicolons left, ts = semicolons ++ left ∧
    (∀ t ∈ semicolons, t.token = .sign .semicolon) ∧ Stops (· = .sign .semicolon) (tokensOf left)
  | [] => ⟨[], [], rfl, nofun, stops_nil⟩
  | t :: ts => by
    by_cases ht : t.token = .sign .semicolon
    · obtain ⟨semicolons, left, rfl, hsemicolons, hleft⟩ := exists_semicolons ts
      exact ⟨t :: semicolons, left, rfl, by simpa [ht] using hsemicolons, hleft⟩
    · exact ⟨[], t :: ts, rfl, nofun, stops_tokensOf_cons.mpr ht⟩

theorem dropWhile_semicolons {semicolons left : List Located}
    (h : ∀ t ∈ semicolons, t.token = .sign .semicolon)
    (hleft : Stops (· = .sign .semicolon) (tokensOf left)) :
    (semicolons ++ left).dropWhile (·.token = .sign .semicolon) = left := by
  rw [List.dropWhile_append_of_pos (by simpa using h)]
  cases left with
  | nil => rfl
  | cons t left => exact List.dropWhile_cons_of_neg (by simpa using stops_tokensOf_cons.mp hleft)

/-- The statements after the semicolons at the front. -/
theorem reads_statementsWithin_succ {budget : Nat} {semicolons left : List Located}
    (h : ∀ t ∈ semicolons, t.token = .sign .semicolon)
    (hleft : Stops (· = .sign .semicolon) (tokensOf left)) :
    Reads (statementsWithin read (budget + 1)) (semicolons ++ left) founds rest ↔
      (left = [] ∧ founds = [] ∧ rest = []) ∨
        ∃ start found middle, left.head? = some start ∧ Reads (statement read) left found middle ∧
          (middle = [] ∧ founds = [⟨found, start.offset, none⟩] ∧ rest = [] ∨
            ∃ stop others more, middle = stop :: others ∧ stop.token = .sign .semicolon ∧
              Reads (statementsWithin read budget) others more rest ∧
              founds = ⟨found, start.offset, some stop.offset⟩ :: more) := by
  rw [statementsWithin, reads_get_bind, reads_set_bind, dropWhile_semicolons h hleft,
    reads_peek?_bind]
  cases left with
  | nil => simp [reads_pure, eq_comm]
  | cons start left =>
    rw [List.head?_cons, reads_bind]
    simp only [List.cons_ne_nil, false_and, false_or, Option.some.injEq, exists_and_left,
      exists_eq_left']
    refine exists_congr fun found => exists_congr fun middle => and_congr_right fun _ => ?_
    rw [reads_peek?_bind]
    cases middle with
    | nil => simp [reads_pure, eq_comm]
    | cons stop others =>
      rw [List.head?_cons, reads_sign?_bind]
      simp [reads_bind, reads_pure, not_reads_unexpected, @eq_comm _ founds, -bind_pure_comp]

theorem statementsWithin_sound : ∀ {budget : Nat} {ts rest : List Located} {founds : List Spanned},
    AllLexed ts → Reads (statementsWithin read budget) ts founds rest → Statements read ts founds
  | 0, _, _, _, _, h => absurd h not_reads_outOfBudget
  | budget + 1, ts, rest, founds, hlexed, h => by
    obtain ⟨semicolons, left, rfl, hsemicolons, hleft⟩ := exists_semicolons ts
    obtain ⟨rfl, rfl, -⟩ | ⟨start, found, middle, hstart, hfound, hnext⟩ :=
      (reads_statementsWithin_succ hsemicolons hleft).mp h
    · rw [List.append_nil]
      exact .done hsemicolons
    · obtain ⟨first, rfl, hspelled⟩ := parses_statement.sound hlexed.of_append hfound
      obtain ⟨_, _, _, hfirst, -⟩ := hspelled.exists_first
      obtain ⟨_, used, rfl, -, -⟩ := tokensOf_eq_cons.mp hfirst
      cases hstart
      obtain ⟨rfl, rfl, -⟩ | ⟨stop, others, more, rfl, hstop, hmore, rfl⟩ := hnext
      · rw [List.append_nil]
        exact .last hsemicolons hspelled
      · have hothers : AllLexed others := hlexed.of_append.of_append.tail
        exact .more hsemicolons hspelled hstop (statementsWithin_sound hothers hmore)

theorem statementsWithin_complete (h : Statements read ts founds) :
    ∀ {budget : Nat}, ts.length < budget → Reads (statementsWithin read budget) ts founds [] := by
  induction h with
  | @done semicolons h =>
    intro budget hbudget
    obtain ⟨budget, rfl⟩ : ∃ left, budget = left + 1 := ⟨budget - 1, by omega⟩
    rw [← List.append_nil semicolons]
    exact (reads_statementsWithin_succ h stops_nil).mpr (.inl ⟨rfl, rfl, rfl⟩)
  | @last semicolons used start statement h hspelled =>
    intro budget hbudget
    obtain ⟨budget, rfl⟩ : ∃ left, budget = left + 1 := ⟨budget - 1, by omega⟩
    have hfound : Reads (Parser.statement read) (start :: used ++ []) statement [] :=
      parses_statement.complete hspelled stops_nil
    rw [List.append_nil] at hfound
    exact (reads_statementsWithin_succ h (stops_tokensOf_cons.mpr hspelled.ne_semicolon)).mpr
      (.inr ⟨start, statement, [], rfl, hfound, .inl ⟨rfl, rfl, rfl⟩⟩)
  | @more semicolons used rest start stop statement founds h hspelled hstop _ ih =>
    intro budget hbudget
    obtain ⟨budget, rfl⟩ : ∃ left, budget = left + 1 := ⟨budget - 1, by omega⟩
    have hfound : Reads (Parser.statement read) (start :: used ++ stop :: rest) statement (stop :: rest) :=
      parses_statement.complete hspelled (stops_tokensOf_cons.mpr (by simp [hstop]))
    have hrest : Reads (statementsWithin read budget) rest founds [] := by
      refine ih ?_
      simp only [List.length_append, List.length_cons] at hbudget
      omega
    exact (reads_statementsWithin_succ h (stops_tokensOf_cons.mpr hspelled.ne_semicolon)).mpr
      (.inr ⟨start, statement, stop :: rest, rfl, hfound,
        .inr ⟨stop, rest, founds, rfl, hstop, hrest, rfl⟩⟩)

theorem readWith_of_tokenize {sql : String} {tokens : List Located} (h : tokenize sql = .ok tokens) :
    readWith read sql = .ok founds ↔
      tokens ≠ [] ∧ ∃ rest, Reads (statementsWithin read (tokens.length + 1)) tokens founds rest := by
  rw [readWith, h]
  cases tokens with
  | nil => simp [bind, Except.bind, throw, throwThe, MonadExceptOf.throw]
  | cons t ts =>
    change (do return (← (statementsWithin read _).run (t :: ts)).1 :
      Except ParseError (List Spanned)) = _ ↔ _
    unfold Reads
    cases (statementsWithin read ((t :: ts).length + 1)).run (t :: ts) with
    | error error => simp [bind, Except.bind]
    | ok found => simp [bind, Except.bind, pure, Except.pure, Prod.ext_iff]

/-- **The statements of a text are its tokens, if there are any, parted at semicolons.** -/
theorem readWith_eq_ok_iff {sql : String} :
    readWith read sql = .ok founds ↔
      ∃ tokens, tokenize sql = .ok tokens ∧ tokens ≠ [] ∧ Statements read tokens founds := by
  constructor
  · intro h
    cases htokens : tokenize sql with
    | error error =>
      rw [readWith, htokens] at h
      cases h
    | ok tokens =>
      obtain ⟨hne, rest, hreads⟩ := (readWith_of_tokenize htokens).mp h
      have hlexed : AllLexed tokens := (tokenize_eq_ok_iff.mp htokens).lexed
      exact ⟨tokens, rfl, hne, statementsWithin_sound hlexed hreads⟩
  · rintro ⟨tokens, htokens, hne, h⟩
    exact (readWith_of_tokenize htokens).mpr
      ⟨hne, [], statementsWithin_complete h (Nat.lt_succ_self _)⟩

/-! ## Texts to prepare -/

theorem statementsIn_succ_eq_ok_iff {depth : Nat} {sql : String} {statements : List Statement} :
    statementsIn (depth + 1) sql = .ok statements ↔
      ∃ founds, readWith (statementsIn depth) sql = .ok founds ∧
        founds.map (·.statement) = statements := by
  rw [statementsIn]
  cases readWith (statementsIn depth) sql with
  | error error => simp [bind, Except.bind]
  | ok founds => simp [bind, Except.bind, pure, Except.pure]

/-- The statements of the texts in a text do not depend on a bound on how deep such texts are
nested, if it is large enough for the length of the text. -/
theorem readWith_of_length_le {read : String → Except ParseError (List Statement)} {sql : String}
    {depth : Nat} (h : readWith read sql = .ok founds)
    (hread : ∀ inner statements, inner.length < sql.length → read inner = .ok statements →
      statementsIn depth inner = .ok statements) :
    readWith (statementsIn depth) sql = .ok founds := by
  obtain ⟨tokens, htokens, hne, hfounds⟩ := readWith_eq_ok_iff.mp h
  refine readWith_eq_ok_iff.mpr ⟨tokens, htokens, hne, hfounds.mono fun inner found hmem => ?_⟩
  have hlength := (tokenize_eq_ok_iff.mp htokens).length_lt_of_string hmem
  rw [String.length_toList, String.length_toList] at hlength
  exact hread inner found hlength

theorem statementsIn_of_length_lt : ∀ {depth other : Nat} {sql : String}
    {statements : List Statement}, statementsIn depth sql = .ok statements → sql.length < other →
      statementsIn other sql = .ok statements
  | 0, _, _, _, h, _ => by cases h
  | _, 0, _, _, _, hother => absurd hother (Nat.not_lt_zero _)
  | depth + 1, other + 1, sql, statements, h, hother => by
    obtain ⟨founds, hfounds, rfl⟩ := statementsIn_succ_eq_ok_iff.mp h
    refine statementsIn_succ_eq_ok_iff.mpr ⟨founds, readWith_of_length_le hfounds ?_, rfl⟩
    -- a text to prepare is shorter than the text that it stands in
    intro inner statements hinner hread
    exact statementsIn_of_length_lt hread (by omega)

end Parser

/-! ## Where statements stand -/

/-- A statement of a script stands between two texts, at the positions that were found, and its text
alone is made of the tokens that spell it. -/
theorem Statements.exists_slice {read : String → Except ParseError (List Statement)}
    {ts : List Located} {founds : List Spanned} (h : Statements read ts founds) {text : List Char} :
    ∀ {passed : List Located}, Lexes 0 text (passed ++ ts) [] → ∀ found ∈ founds,
      ∃ before slice after used, text = before ++ (slice ++ after) ∧
        found.first = Text.byteLength before ∧
        found.last.getD (Text.byteLength text) = Text.byteLength (before ++ slice) ∧
        Lexes found.first slice used [] ∧ found.statement.Spelled read (tokensOf used) := by
  induction h with
  | done => exact fun _ found hfound => by cases hfound
  | @last semicolons used start statement _ hspelled =>
    intro passed hlexes found hfound
    -- the last statement reaches to the end of the text
    cases List.mem_singleton.mp hfound
    rw [← List.append_assoc] at hlexes
    obtain ⟨before, slice, rfl, hfirst, -, hslice⟩ := hlexes.cut
    rw [Nat.zero_add] at hfirst
    exact ⟨before, slice, [], _, by rw [List.append_nil], hfirst, rfl, hslice, hspelled⟩
  | @more semicolons used rest start stop statement founds _ hspelled _ _ ih =>
    intro passed hlexes found hfound
    rcases List.mem_cons.mp hfound with rfl | hfound
    · -- the text is cut at the first token of the statement, and again at the semicolon after it
      rw [← List.append_assoc] at hlexes
      obtain ⟨before, others, rfl, hfirst, -, hothers⟩ := hlexes.cut
      rw [← List.cons_append] at hothers
      obtain ⟨slice, after, rfl, hlast, hslice, -⟩ := hothers.cut
      rw [Nat.zero_add] at hfirst
      have hslice' : Lexes start.offset slice (start :: used) ([] ++ (after ++ [])) := hslice
      refine ⟨before, slice, after, _, rfl, hfirst, ?_, hslice'.of_append, hspelled⟩
      rw [Option.getD_some, hlast, hfirst, Text.byteLength_append]
    · have hrest : Lexes 0 text (passed ++ (semicolons ++ start :: (used ++ [stop])) ++ rest) [] := by
        simpa using hlexes
      exact ih hrest found hfound

namespace Script

open SqlPipeline.Sql.Parser

variable {sql : String} {founds : List Spanned} {statement : Statement}

theorem parse_eq_ok_iff {statements : List Statement} :
    parse sql = .ok statements ↔
      ∃ founds, spanned sql = .ok founds ∧ founds.map (·.statement) = statements :=
  statementsIn_succ_eq_ok_iff

theorem parseWithSource_eq_ok_iff {sources : List (Statement × String)} :
    parseWithSource sql = .ok sources ↔
      ∃ founds, spanned sql = .ok founds ∧
        founds.map (fun found => (found.statement, sourceOf sql found)) = sources := by
  rw [parseWithSource]
  cases spanned sql with
  | error error => simp [bind, Except.bind]
  | ok founds => simp [bind, Except.bind, pure, Except.pure]

/-- A result without its error can be computed and compared. -/
theorem eq_ok_of_toOption {ε α : Type} {result : Except ε α} {a : α}
    (h : result.toOption = some a) : result = .ok a := by
  cases result with
  | error error => cases h
  | ok found => exact congrArg _ (Option.some.inj h)

/-- A text that spells a statement is a script of this statement. -/
theorem parse_of_spelled {depth : Nat} {tokens : List Located} (h : Lexes 0 sql.toList tokens [])
    (hspelled : statement.Spelled (statementsIn depth) (tokensOf tokens)) :
    parse sql = .ok [statement] := by
  obtain ⟨_, _, _, hfirst, -⟩ := hspelled.exists_first
  obtain ⟨start, used, rfl, -, -⟩ := tokensOf_eq_cons.mp hfirst
  have hstatements : Statements (statementsIn depth) ([] ++ start :: used)
      [⟨statement, start.offset, none⟩] := .last nofun hspelled
  have hread : readWith (statementsIn depth) sql = .ok [⟨statement, start.offset, none⟩] :=
    readWith_eq_ok_iff.mpr ⟨_, tokenize_eq_ok_iff.mpr h, List.cons_ne_nil _ _, hstatements⟩
  refine parse_eq_ok_iff.mpr ⟨_, readWith_of_length_le hread ?_, rfl⟩
  exact fun inner statements hinner hinner' => statementsIn_of_length_lt hinner' hinner

/-- A statement of a script is spelled by the tokens of its text. -/
theorem exists_slice (h : spanned sql = .ok founds) {found : Spanned} (hfound : found ∈ founds) :
    ∃ before slice after used, sql.toList = before ++ (slice ++ after) ∧
      found.first = Text.byteLength before ∧
      found.last.getD (Text.byteLength sql.toList) = Text.byteLength (before ++ slice) ∧
      Lexes found.first slice used [] ∧
      found.statement.Spelled (statementsIn sql.length) (tokensOf used) := by
  obtain ⟨tokens, htokens, -, hfounds⟩ := readWith_eq_ok_iff.mp h
  have hlexes : Lexes 0 sql.toList ([] ++ tokens) [] := tokenize_eq_ok_iff.mp htokens
  exact hfounds.exists_slice hlexes found hfound

theorem sourceOf_slice {found : Spanned} {before slice after : List Char}
    (htext : sql.toList = before ++ (slice ++ after)) (hfirst : found.first = Text.byteLength before)
    (hlast : found.last.getD (Text.byteLength sql.toList) = Text.byteLength (before ++ slice)) :
    sourceOf sql found = .ofList (Text.trimEnd slice) := by
  simp only [sourceOf, Text.sliceBytes]
  rw [hlast, hfirst, Text.byteLength_append, Nat.add_sub_cancel_left, htext, Text.dropBytes_append,
    Text.takeBytes_append]

/-- **Splitting a script keeps its statements.** The statements are those of the script; each span
lies in the script, between two characters; and the text in it, without the blanks at its end, is a
script of just the statement it stands for. -/
theorem parseWithSource_statements {sources : List (Statement × String)}
    (h : parseWithSource sql = .ok sources) :
    parse sql = .ok (sources.map (·.1)) ∧
      (∃ founds, spanned sql = .ok founds ∧
        sources = founds.map (fun found => (found.statement, sourceOf sql found)) ∧
        ∀ found ∈ founds, ∃ before slice after, sql.toList = before ++ (slice ++ after) ∧
          found.first = Text.byteLength before ∧
          found.last.getD (Text.byteLength sql.toList) = Text.byteLength (before ++ slice) ∧
          sourceOf sql found = .ofList (Text.trimEnd slice)) ∧
      ∀ source ∈ sources, parse source.2 = .ok [source.1] := by
  obtain ⟨founds, hfounds, rfl⟩ := parseWithSource_eq_ok_iff.mp h
  refine ⟨parse_eq_ok_iff.mpr ⟨founds, hfounds, by simp⟩, ⟨founds, hfounds, rfl, ?_⟩, ?_⟩
  · intro found hfound
    obtain ⟨before, slice, after, _, htext, hfirst, hlast, -, -⟩ := exists_slice hfounds hfound
    exact ⟨before, slice, after, htext, hfirst, hlast, sourceOf_slice htext hfirst hlast⟩
  · intro source hsource
    obtain ⟨found, hfound, rfl⟩ := List.mem_map.mp hsource
    obtain ⟨before, slice, after, used, htext, hfirst, hlast, hslice, hspelled⟩ :=
      exists_slice hfounds hfound
    obtain ⟨moved, hmoved, heq⟩ := hslice.trimEnd.moved 0
    have htokens : tokensOf moved = tokensOf used := heq
    refine parse_of_spelled ?_ (htokens ▸ hspelled)
    rw [sourceOf_slice htext hfirst hlast, String.toList_ofList]
    exact hmoved

/-- A script with a semicolon in a string, one in a comment, and an empty statement. -/
def mixedScript : String :=
  "PREPARE p FROM 'SHOW x; -- ü';; -- ä;\nSHOW TABLES -- é; "

/-- Its two statements; the second one reaches to the end of the script. -/
def mixedSources : List (Statement × String) :=
  [(.prepare ⟨"p", false⟩ "SHOW x; -- ü" (.showing (.variable ⟨"x", false⟩)),
     "PREPARE p FROM 'SHOW x; -- ü'"),
   (.showing .tables, "SHOW TABLES -- é;")]

/-- Semicolons in strings and comments part nothing. -/
theorem parseWithSource_statements_mixed :
    parseWithSource mixedScript = .ok mixedSources ∧
      parse mixedScript = .ok (mixedSources.map (·.1)) ∧
      (∃ founds, spanned mixedScript = .ok founds ∧
        mixedSources = founds.map (fun found => (found.statement, sourceOf mixedScript found)) ∧
        ∀ found ∈ founds, ∃ before slice after, mixedScript.toList = before ++ (slice ++ after) ∧
          found.first = Text.byteLength before ∧
          found.last.getD (Text.byteLength mixedScript.toList) = Text.byteLength (before ++ slice) ∧
          sourceOf mixedScript found = .ofList (Text.trimEnd slice)) ∧
      ∀ source ∈ mixedSources, parse source.2 = .ok [source.1] := by
  have h : parseWithSource mixedScript = .ok mixedSources := eq_ok_of_toOption (by decide +kernel)
  exact ⟨h, parseWithSource_statements h⟩

end Script
end SqlPipeline.Sql
