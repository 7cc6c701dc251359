import SqlPipeline.Proofs.Sql.Breaks
import SqlPipeline.Proofs.Sql.ParseErrors
import SqlPipeline.Proofs.Sql.RoundTrip

/-!
# Selects into a target

The target of a select stands after its items and before its clauses, but it is printed after the
clauses. So the text of a select into a target can be read only if there are no clauses: it is read
as the same statement if the select is bare, and else the reading ends at the target
(`parse_text_into`). This holds of all targets and of all selects that are read back from their own
text.
-/

namespace SqlPipeline.Sql

/-! ## Scripts of one statement -/

theorem Token.length_le_breaks {semicolons : List Located}
    (h : ∀ t ∈ semicolons, t.token = .sign .semicolon) :
    semicolons.length ≤ Token.breaks (tokensOf semicolons) := by
  induction semicolons with
  | nil => exact Nat.zero_le _
  | cons t semicolons ih =>
    obtain ⟨ht, hothers⟩ := List.forall_mem_cons.mp h
    have hbreak : Sql.breaks (Token.sign .semicolon).spelling = 1 := by decide
    have := ih hothers
    rw [tokensOf_cons, ht, Token.breaks_cons, hbreak, List.length_cons]
    omega

/-- A script of one statement may have semicolons before and after the statement. -/
theorem Statements.of_one {read : String → Except ParseError (List Statement)}
    {ts : List Located} {founds : List Spanned} {statement : Statement}
    (h : Statements read ts founds) (hone : founds.map (·.statement) = [statement]) :
    ∃ before used after, ts = before ++ (used ++ after) ∧
      (∀ t ∈ before ++ after, t.token = .sign .semicolon) ∧
      statement.Spelled read (tokensOf used) := by
  cases h with
  | done => cases hone
  | last hbefore hspelled =>
    cases hone
    exact ⟨_, _, [], by rw [List.append_nil], by rwa [List.append_nil], hspelled⟩
  | @more before used rest start stop _ founds hbefore hspelled hstop hrest =>
    obtain ⟨rfl, hothers⟩ := List.cons.inj hone
    have hafter : ∀ t ∈ rest, t.token = .sign .semicolon := by
      cases hrest with
      | done h => exact h
      | last | more => cases hothers
    refine ⟨before, start :: used, stop :: rest, rfl, ?_, hspelled⟩
    rw [List.forall_mem_append, List.forall_mem_cons]
    exact ⟨hbefore, hstop, hafter⟩

namespace Script

open SqlPipeline.Sql.Parser

/-- If a select is read back from its text, all tokens of the text are its own. -/
theorem exists_tokens_of_parse_text {select : Select}
    (h : parse select.text = .ok [.select select]) :
    ∃ start used, Lexes 0 select.text.toList (start :: used) [] ∧
      start.token.keyword? = some .SELECT ∧ select.Spelled (tokensOf used) ∧ select.into = none ∧
      breaks select.text.toList ≤ Token.breaks (tokensOf (start :: used)) := by
  obtain ⟨founds, hfounds, hone⟩ := parse_eq_ok_iff.mp h
  obtain ⟨tokens, htokens, -, hstatements⟩ := readWith_eq_ok_iff.mp hfounds
  obtain ⟨before, used, after, rfl, hsemicolons, hspelled⟩ := hstatements.of_one hone
  have hlexes := tokenize_eq_ok_iff.mp htokens
  generalize hused : tokensOf used = own at hspelled
  cases hspelled with
  | select ht hselect hinto =>
    obtain ⟨start, used, rfl, rfl, rfl⟩ := tokensOf_eq_cons.mp hused
    have hbreaks : breaks select.text.toList ≤ Token.breaks (tokensOf (start :: used)) := by
      rw [tokensOf_cons, Token.breaks_cons]
      exact Nat.le_trans hselect.keeps (Nat.le_add_left _ _)
    -- a semicolon would be a break of the text that the select does not have
    have hnone : before ++ after = [] := by
      have hle := hlexes.breaks_le
      have hlength := Token.length_le_breaks hsemicolons
      simp only [tokensOf_append, Token.breaks_append] at hle hlength
      exact List.eq_nil_of_length_eq_zero (by omega)
    obtain ⟨rfl, rfl⟩ := List.append_eq_nil_iff.mp hnone
    rw [List.append_nil] at hlexes
    exact ⟨start, used, hlexes, ht, hselect, hinto, hbreaks⟩

/-- The target of a select that was read can be written. -/
theorem exists_target {sql : String} {statements : List Statement} {target : ObjectName}
    {select : Select} (h : parse sql = .ok statements) (hmem : .into target select ∈ statements) :
    ∃ tokens, target.Spelled tokens := by
  obtain ⟨founds, hfounds, rfl⟩ := parse_eq_ok_iff.mp h
  obtain ⟨found, hfound, heq⟩ := List.mem_map.mp hmem
  obtain ⟨_, _, _, used, -, -, -, -, hspelled⟩ := exists_slice hfounds hfound
  rw [heq] at hspelled
  generalize tokensOf used = tokens at hspelled
  cases hspelled with
  | into _ hselect hinto =>
    obtain ⟨-, -, hinto', -, -, -, -⟩ := hselect
    rw [hinto] at hinto'
    cases hinto' with
    | some _ htarget => exact ⟨_, htarget⟩

end Script

/-- A keyword, a blank and a printed text are the keyword and the tokens of the text. -/
theorem Prints.lexes_word {Next : Char → Prop} {text : String} {tokens : List Token}
    (h : Prints StartsToken Next text tokens) (keyword : Keyword) (offset : Nat) :
    ∃ ts, Lexes offset (keyword.name ++ " " ++ text).toList (⟨keyword.token, offset⟩ :: ts) [] ∧
      tokensOf ts = tokens := by
  obtain ⟨hwrites, -⟩ := (Prints.blank.append h) [] nofun
  obtain ⟨ts, hlexes, htokens⟩ := hwrites (offset + Text.byteLength keyword.name.toList)
  refine ⟨ts, ?_, htokens⟩
  have hword : Segment.Before (.lexeme keyword.name.toList keyword.token)
      ((" " ++ text).toList ++ []) := by
    refine .token keyword.lexed_token (List.mem_singleton_self _) fun c hc => ?_
    rw [String.toList_append] at hc
    cases hc
    exact Token.isContinuedBy_blank _ _
  rw [String.append_assoc, String.toList_append]
  exact .token hword hlexes

/-- The tokens of a printed select into a target are those of the select and then those of the
target. -/
theorem Statement.lexes_into {select : Select} {target : ObjectName} {tokens : List Located}
    {names : List Token} (h : Lexes 0 select.text.toList tokens [])
    (hbreaks : breaks select.text.toList ≤ Token.breaks (tokensOf tokens))
    (htarget : target.Spelled names) :
    ∃ ts, Lexes 0 (Statement.into target select).text.toList (tokens ++
        ⟨Keyword.INTO.token, Text.byteLength select.text.toList + 1⟩ :: ts) [] ∧
      tokensOf ts = names := by
  obtain ⟨ts, hlexes, hts⟩ :=
    htarget.prints.starts.lexes_word .INTO (Text.byteLength select.text.toList + 1)
  refine ⟨ts, ?_, hts⟩
  have htext : (Statement.into target select).text.toList =
      select.text.toList ++ ' ' :: (Keyword.INTO.name ++ " " ++ target.text).toList := by
    simp [Statement.text, Keyword.name]
  rw [htext]
  refine h.append_blank hbreaks (by rwa [Nat.zero_add]) fun c hc => ?_
  rw [String.append_assoc, String.toList_append] at hc
  cases hc
  decide

/-! ## Where the target is read -/

/-- After the items, where nothing follows them, a target is the target of the select. -/
theorem Select.Spelled.into_of_isBare {select : Select} {target : ObjectName}
    {tokens names : List Token} {t : Token} (h : select.Spelled tokens) (hbare : select.IsBare)
    (hinto : select.into = none) (ht : t.keyword? = some .INTO) (htarget : target.Spelled names) :
    Spelled { select with into := some target } (tokens ++ t :: names) := by
  obtain ⟨distinct, items, into, source, condition, groups, having⟩ := select
  obtain ⟨hsource, hcondition, hgroups, hhaving⟩ := hbare
  dsimp only at hinto hsource hcondition hgroups hhaving
  subst hinto hsource hcondition hgroups hhaving
  obtain ⟨hdistinct, hitems, hinto, hsource, hcondition, hgroups, hhaving⟩ := h
  cases hinto
  cases hsource
  cases hcondition
  cases hhaving
  cases hgroups with
  | some _ _ hgroups => cases hgroups
  | none =>
    have hall : Spelled ⟨distinct, items, some target, none, none, [], none⟩ _ :=
      .mk hdistinct hitems (.some ht htarget) .none .none .none .none
    simpa using hall

namespace Parser

variable {read : String → Except ParseError (List Statement)}

/-- A statement that is followed by anything but a semicolon is an error there. -/
theorem run_statementsWithin_of_stop {budget : Nat} {start stop : Located} {found : Statement}
    {used others : List Located} (hstart : start.token ≠ .sign .semicolon)
    (h : Reads (statement read) (start :: used) found (stop :: others))
    (hstop : stop.token ≠ .sign .semicolon) :
    (statementsWithin read (budget + 1)).run (start :: used) =
      .error ⟨"Expected end of statement, got " ++ stop.token.text, some stop.offset⟩ := by
  have hfront : (start :: used).dropWhile (·.token = .sign .semicolon) = start :: used :=
    List.dropWhile_cons_of_neg (by simpa using hstart)
  have hsign : Reads (sign? .semicolon) (stop :: others) false (stop :: others) := by
    show StateT.run (if stop.token = .sign .semicolon then _ else _) (stop :: others) = _
    rw [if_neg hstop]
    rfl
  have hget : Reads (get : Parser (List Located)) (start :: used) (start :: used) (start :: used) :=
    rfl
  have hset : Reads (set (start :: used) : Parser PUnit) (start :: used) ⟨⟩ (start :: used) := rfl
  have hfirst : Reads peek? (start :: used) (some start) (start :: used) := rfl
  have hnext : Reads peek? (stop :: others) (some stop) (stop :: others) := rfl
  rw [statementsWithin, hget.run_bind, hfront, hset.run_bind, hfirst.run_bind]
  dsimp only
  rw [h.run_bind, hnext.run_bind]
  dsimp only
  rw [hsign.run_bind]
  rfl

theorem readWith_of_stop {sql : String} {start stop : Located} {found : Statement}
    {used others : List Located} (htokens : tokenize sql = .ok (start :: used))
    (hstart : start.token ≠ .sign .semicolon)
    (h : Reads (statement read) (start :: used) found (stop :: others))
    (hstop : stop.token ≠ .sign .semicolon) :
    readWith read sql =
      .error ⟨"Expected end of statement, got " ++ stop.token.text, some stop.offset⟩ := by
  rw [readWith_eq htokens (List.cons_ne_nil _ _), run_statementsWithin_of_stop hstart h hstop]
  rfl

end Parser

namespace Script

open SqlPipeline.Sql.Parser

/-- **When a printed select into a target is read back.** If the select is read back from its own
text, its text with the target is a script of the same statement as long as nothing follows the
items; otherwise the script fails at the target. -/
theorem parse_text_into {sql : String} {statements : List Statement} {target : ObjectName}
    {select : Select} (h : parse sql = .ok statements) (hmem : .into target select ∈ statements)
    (hback : parse select.text = .ok [.select select]) :
    parse (Statement.into target select).text =
      if select.IsBare then .ok [.into target select]
      else .error ⟨"Expected end of statement, got INTO",
        some (Text.byteLength select.text.toList + 1)⟩ := by
  obtain ⟨names, htarget⟩ := exists_target h hmem
  obtain ⟨start, used, hlexes, hstart, hselect, hinto, hbreaks⟩ := exists_tokens_of_parse_text hback
  obtain ⟨ts, hlexes, rfl⟩ := Statement.lexes_into hlexes hbreaks htarget
  split
  · next hbare =>
    have hspelled := hselect.into_of_isBare (t := Keyword.INTO.token) hbare hinto rfl htarget
    have hsame : { select with into := none } = select := by rw [← hinto]
    have hall : Statement.Spelled (statementsIn 0) _ _ := .into hstart hspelled rfl
    dsimp only at hall
    rw [hsame] at hall
    exact parse_of_spelled hlexes (by simpa using hall)
  · next hbare =>
    -- the select ends before the target, where the statement is to end
    have hclosed : Closed [.INTO] (tokensOf (⟨Keyword.INTO.token,
        Text.byteLength select.text.toList + 1⟩ :: ts)) := closed_cons rfl
    have hreads := reads_select hselect hclosed fun h => absurd h hbare
    rw [parse, spanned, readWith_of_stop (tokenize_eq_ok_iff.mpr hlexes)
      (Token.ne_sign_of_keyword hstart) (reads_statement_select hstart hreads hinto)
      (Token.ne_sign_of_keyword rfl)]
    rfl

/-- Two selects into targets: after the items of the first one nothing follows. -/
def writtenInto : String :=
  "select distinct count(*) n, -(-u.x) into \"a--;b\".t; -- ü\nSELECT x INTO t FROM u GROUP BY x"

def bareSelect : Select where
  distinct := true
  items := [.aliased (.call ⟨"count", false⟩ (.star .nil)) ⟨"n", false⟩,
    .expr (.unary .minus (.nested (.unary .minus (.qualified [⟨"u", false⟩, ⟨"x", false⟩]))))]
  into := none
  source := none
  condition := none
  groupBy := []
  having := none

def groupedSelect : Select where
  distinct := false
  items := [.expr (.ident ⟨"x", false⟩)]
  into := none
  source := some ⟨⟨⟨[⟨"u", false⟩]⟩, none⟩, []⟩
  condition := none
  groupBy := [.ident ⟨"x", false⟩]
  having := none

def bareTarget : ObjectName :=
  ⟨[⟨"a--;b", true⟩, ⟨"t", false⟩]⟩

def groupedTarget : ObjectName :=
  ⟨[⟨"t", false⟩]⟩

theorem parse_text_into_written :
    parse writtenInto = .ok [.into bareTarget bareSelect, .into groupedTarget groupedSelect] ∧
      parse bareSelect.text = .ok [.select bareSelect] ∧
      parse groupedSelect.text = .ok [.select groupedSelect] ∧
      parse (Statement.into bareTarget bareSelect).text = .ok [.into bareTarget bareSelect] ∧
      parse (Statement.into groupedTarget groupedSelect).text =
        .error ⟨"Expected end of statement, got INTO", some 27⟩ := by
  have h : parse writtenInto =
      .ok [.into bareTarget bareSelect, .into groupedTarget groupedSelect] := by decide +kernel
  have hbare : parse bareSelect.text = .ok [.select bareSelect] := by decide +kernel
  have hgrouped : parse groupedSelect.text = .ok [.select groupedSelect] := by decide +kernel
  exact ⟨h, hbare, hgrouped, parse_text_into h List.mem_cons_self hbare,
    parse_text_into h (List.mem_cons_of_mem _ List.mem_cons_self) hgrouped⟩

/-- A select into a target with a clause is printed as another text, which is no script. -/
theorem parse_text_into_source :
    ∃ target select, parse "SELECT * INTO archive FROM users" = .ok [.into target select] ∧
      parse select.text = .ok [.select select] ∧
      (Statement.into target select).text = "SELECT * FROM users INTO archive" ∧
      parse (Statement.into target select).text =
        .error ⟨"Expected end of statement, got INTO", some 20⟩ :=
  ⟨⟨[⟨"archive", false⟩]⟩, ⟨false, [.all], none, some ⟨⟨⟨[⟨"users", false⟩]⟩, none⟩, []⟩, none, [], none⟩,
    by decide +kernel, by decide +kernel, by decide +kernel, by decide +kernel⟩

end Script
end SqlPipeline.Sql
