import SqlPipeline.Proofs.Sql.Lexing

/-!
# Where the lexer fails

No segment starts at a quote that opens a text without an end, at an exclamation mark that makes no
sign, or at a character that has no place outside of quotes and comments (`Segment.Stuck`). If a text
is not tokenized, the part of it before some character is made of tokens, no segment starts at that
character, and the error has the byte position of it (`exists_stuck`).
-/

namespace SqlPipeline.Sql

namespace Segment

def signStarts : List Char :=
  [',', '.', ';', '(', ')', '+', '-', '*', '/', '%', '=', '<', '>']

/-- A character at which no segment starts, with what follows it and the message about it. -/
inductive Stuck : Char → List Char → String → Prop where
  /-- Nothing that follows the opening quote is a value with the closing quote after it. -/
  | quote {quote : Char} {cs : List Char} (hquote : quote = '\'' ∨ quote = '"')
      (hopen : ∀ value rest, (∀ c ∈ rest.head?, c ≠ quote) →
        doubled quote value ++ quote :: rest ≠ cs) :
      Stuck quote cs ("Unterminated quoted string, missing " ++ String.singleton quote)
  | bang {cs : List Char} (h : cs.head? ≠ some '=') : Stuck '!' cs "Expected '=' after '!'"
  | unknown {c : Char} {cs : List Char} (hblank : Text.isBlank c = false)
      (hstart : Text.isWordStart c = false) (hdigit : c.isDigit = false)
      (hmark : c ∉ '\'' :: '"' :: '!' :: signStarts) :
      Stuck c cs ("Unexpected character '" ++ String.singleton c ++ "'")

theorem sign?_ne_none {c : Char} (h : c ∈ signStarts) (cs : List Char) :
    sign? (c :: cs) ≠ none := by
  intro hnone
  unfold sign? at hnone
  split at hnone
  -- none of these characters is left for the last case
  case h_19 => simp_all [signStarts]
  all_goals cases hnone

theorem stuck_of_quoted {quote : Char} {toToken : String → Token} {cs : List Char}
    {message : String} (hquote : quote = '\'' ∨ quote = '"')
    (h : quoted quote toToken cs = .error message) : Stuck quote cs message := by
  unfold quoted at h
  split at h
  · cases h
  · next hnone =>
    cases h
    refine .quote hquote fun value rest hrest heq => ?_
    rw [← heq, quotedTail_doubled hrest] at hnone
    cases hnone

/-- The lexer fails only at a character at which no segment starts. -/
theorem stuck_of_next {c : Char} {cs : List Char} {message : String}
    (h : next c cs = .error message) : Stuck c cs message := by
  unfold next at h
  dsimp only at h
  split at h
  · cases h
  next hblank =>
  split at h
  · cases h
  split at h
  · next hquote => exact hquote ▸ stuck_of_quoted (.inl rfl) (hquote ▸ h)
  next hsingle =>
  split at h
  · next hquote => exact hquote ▸ stuck_of_quoted (.inr rfl) (hquote ▸ h)
  next hdouble =>
  split at h
  · cases h
  next hsign =>
  split at h
  · next hbang =>
    cases h
    subst hbang
    refine .bang fun hhead => ?_
    obtain ⟨ds, rfl⟩ := List.head?_eq_some_iff.mp hhead
    cases hsign
  next hbang =>
  split at h
  · cases h
  next hdigit =>
  split at h
  · cases h
  next hstart =>
    cases h
    refine .unknown (by simpa using hblank) (by simpa using hstart) (by simpa using hdigit) ?_
    intro hmem
    simp only [List.mem_cons, hsingle, hdouble, hbang, false_or] at hmem
    exact sign?_ne_none (by simpa using hmem) cs hsign

theorem exists_stuck : ∀ {budget offset : Nat} {cs : List Char} {error : ParseError},
    tokensWithin budget offset cs = .error error → cs.length ≤ budget →
      ∃ before c after tokens, cs = before ++ c :: after ∧
        Lexes offset before tokens (c :: after) ∧ Stuck c after error.message ∧
        error.offset = some (offset + Text.byteLength before)
  | _, _, [], _, h, _ => by
    rw [tokensWithin_nil] at h
    cases h
  | 0, _, _ :: _, _, _, hbudget => by cases hbudget
  | budget + 1, offset, c :: cs, error, h, hbudget => by
    cases hnext : next c cs with
    | error message =>
      unfold tokensWithin at h
      rw [split, hnext] at h
      cases h
      exact ⟨[], c, cs, [], rfl, .done, stuck_of_next hnext, rfl⟩
    | ok found =>
      obtain ⟨segment, rest⟩ := found
      rw [tokensWithin_succ hnext] at h
      obtain ⟨htext, hbefore⟩ := next_eq_ok_iff.mp hnext
      have hlength := length_rest_le hnext hbudget
      have hothers : tokensWithin budget (offset + Text.byteLength segment.text) rest =
          .error error := by
        cases hothers : tokensWithin budget (offset + Text.byteLength segment.text) rest with
        | error other => rw [hothers] at h; cases h; rfl
        | ok others => rw [hothers] at h; cases h
      obtain ⟨before, d, after, tokens, rfl, hlexes, hstuck, hoffset⟩ :=
        exists_stuck hothers hlength
      rw [Nat.add_assoc, ← Text.byteLength_append] at hoffset
      rw [← htext, ← List.append_assoc]
      cases segment with
      | trivia text => exact ⟨_, d, after, _, rfl, .trivia hbefore hlexes, hstuck, hoffset⟩
      | lexeme text token => exact ⟨_, d, after, _, rfl, .token hbefore hlexes, hstuck, hoffset⟩

end Segment

/-- **The lexer fails at the first character at which no segment starts.** What stands before the
character is made of tokens, and the error has its byte position. -/
theorem exists_stuck {sql : String} {error : ParseError} (h : tokenize sql = .error error) :
    ∃ before c after tokens, sql.toList = before ++ c :: after ∧
      Lexes 0 before tokens (c :: after) ∧ Segment.Stuck c after error.message ∧
      error.offset = some (Text.byteLength before) := by
  have hsplit : Segment.tokensWithin sql.toList.length 0 sql.toList = .error error := h
  obtain ⟨before, c, after, tokens, htext, hlexes, hstuck, hoffset⟩ :=
    Segment.exists_stuck hsplit (Nat.le_refl _)
  rw [Nat.zero_add] at hoffset
  exact ⟨before, c, after, tokens, htext, hlexes, hstuck, hoffset⟩

end SqlPipeline.Sql
