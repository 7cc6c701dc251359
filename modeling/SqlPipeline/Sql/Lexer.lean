import SqlPipeline.Sql.Token
import SqlPipeline.Text.Basic
import SqlPipeline.Text.Letter

/-!
# Lexer

A text is cut into segments from the left: trivia, which is blanks and comments, and lexemes, each
of which is the spelling of one token. The segments in order make up the text again
(`Segment.next_append`), so the byte position of a token is the length of what stands before it.
-/

namespace SqlPipeline.Sql

/-- A piece of text that was cut off, with the token it spells. -/
inductive Segment where
  /-- Blanks, or a comment without the line end that closes it. -/
  | trivia (text : List Char)
  | lexeme (text : List Char) (token : Token)
deriving DecidableEq, Repr

namespace Segment

def text : Segment → List Char
  | trivia text => text
  | lexeme text _ => text

/-- The rest of a quoted text after its opening quote: its value with doubled quotes undone, the
characters up to and with the closing quote, and what follows. -/
def quotedTail (quote : Char) : List Char → Option (List Char × List Char × List Char)
  | [] => none
  | c :: cs =>
    if c = quote then
      match cs with
      | d :: ds =>
        if d = quote then
          (quotedTail quote ds).map fun (value, raw, rest) => (quote :: value, c :: d :: raw, rest)
        else some ([], [c], d :: ds)
      | [] => some ([], [c], [])
    else (quotedTail quote cs).map fun (value, raw, rest) => (c :: value, c :: raw, rest)

/-- The characters of a number that starts with a digit: digits, then perhaps a period with
perhaps more digits. -/
def numberSplit (cs : List Char) : List Char × List Char :=
  let whole := cs.takeWhile Char.isDigit
  match cs.dropWhile Char.isDigit with
  | '.' :: rest => (whole ++ '.' :: rest.takeWhile Char.isDigit, rest.dropWhile Char.isDigit)
  | rest => (whole, rest)

/-- The sign a text starts with, with its spelling and the rest. Of two spellings the longer one
is meant. -/
def sign? : List Char → Option (Sign × List Char × List Char)
  | ',' :: cs => some (.comma, [','], cs)
  | '.' :: cs => some (.period, ['.'], cs)
  | ';' :: cs => some (.semicolon, [';'], cs)
  | '(' :: cs => some (.leftParen, ['('], cs)
  | ')' :: cs => some (.rightParen, [')'], cs)
  | '+' :: cs => some (.plus, ['+'], cs)
  | '-' :: cs => some (.minus, ['-'], cs)
  | '*' :: cs => some (.star, ['*'], cs)
  | '/' :: cs => some (.slash, ['/'], cs)
  | '%' :: cs => some (.percent, ['%'], cs)
  | '=' :: '=' :: cs => some (.eq, ['=', '='], cs)
  | '=' :: cs => some (.eq, ['='], cs)
  | '!' :: '=' :: cs => some (.neq, ['!', '='], cs)
  | '<' :: '=' :: cs => some (.ltEq, ['<', '='], cs)
  | '<' :: '>' :: cs => some (.neq, ['<', '>'], cs)
  | '<' :: cs => some (.lt, ['<'], cs)
  | '>' :: '=' :: cs => some (.gtEq, ['>', '='], cs)
  | '>' :: cs => some (.gt, ['>'], cs)
  | _ => none

def startsComment : List Char → Bool
  | '-' :: '-' :: _ => true
  | _ => false

/-- Cuts a quoted text off, given its opening quote and what follows that. -/
def quoted (quote : Char) (toToken : String → Token) (cs : List Char) :
    Except String (Segment × List Char) :=
  match quotedTail quote cs with
  | some (value, raw, rest) => .ok (lexeme (quote :: raw) (toToken (String.ofList value)), rest)
  | none => .error ("Unterminated quoted string, missing " ++ String.singleton quote)

/-- Cuts the first segment off a text that has a character; the error is a message about that
character. -/
def next (c : Char) (cs : List Char) : Except String (Segment × List Char) :=
  let text := c :: cs
  if Text.isBlank c then
    .ok (trivia (text.takeWhile Text.isBlank), text.dropWhile Text.isBlank)
  else if startsComment text then
    .ok (trivia (text.takeWhile (· != '\n')), text.dropWhile (· != '\n'))
  else if c = '\'' then quoted c .string cs
  else if c = '"' then quoted c (fun value => .word ⟨value, true, none⟩) cs
  else match sign? text with
    | some (sign, spelling, rest) => .ok (lexeme spelling (.sign sign), rest)
    | none =>
      if c = '!' then .error "Expected '=' after '!'"
      else if c.isDigit then
        let (digits, rest) := numberSplit text
        .ok (lexeme digits (.number (String.ofList digits)), rest)
      else if Text.isWordStart c then
        let word := text.takeWhile Text.isWordPart
        .ok (lexeme word (.word ⟨String.ofList word, false, Keyword.ofWord? word⟩),
          text.dropWhile Text.isWordPart)
      else .error ("Unexpected character '" ++ String.singleton c ++ "'")

/-! ### Segments make up the text -/

theorem quotedTail_append {quote : Char} {cs value raw rest : List Char}
    (h : quotedTail quote cs = some (value, raw, rest)) : raw ++ rest = cs := by
  fun_induction quotedTail quote cs generalizing value raw rest with
  | case1 => simp at h
  | case2 ds ih =>
    obtain ⟨⟨v, r, t⟩, hv, heq⟩ := Option.map_eq_some_iff.1 h
    simp only [Prod.mk.injEq] at heq
    obtain ⟨rfl, rfl, rfl⟩ := heq
    simp [ih hv]
  | case3 | case4 =>
    simp only [Option.some.injEq, Prod.mk.injEq] at h
    obtain ⟨rfl, rfl, rfl⟩ := h
    rfl
  | case5 c cs hc ih =>
    obtain ⟨⟨v, r, t⟩, hv, heq⟩ := Option.map_eq_some_iff.1 h
    simp only [Prod.mk.injEq] at heq
    obtain ⟨rfl, rfl, rfl⟩ := heq
    simp [ih hv]

theorem numberSplit_append (cs : List Char) : (numberSplit cs).1 ++ (numberSplit cs).2 = cs := by
  have whole : cs.takeWhile Char.isDigit ++ cs.dropWhile Char.isDigit = cs :=
    List.takeWhile_append_dropWhile
  unfold numberSplit
  split
  · next rest h =>
    rw [h] at whole
    simpa [List.takeWhile_append_dropWhile] using whole
  · exact whole

theorem sign?_append {cs spelling rest : List Char} {sign : Sign}
    (h : sign? cs = some (sign, spelling, rest)) : spelling ++ rest = cs := by
  unfold sign? at h
  split at h <;> simp_all
  all_goals obtain ⟨-, rfl, rfl⟩ := h; rfl

/-- A segment and the rest make up the text that was cut. -/
theorem next_append {c : Char} {cs rest : List Char} {segment : Segment}
    (h : next c cs = .ok (segment, rest)) : segment.text ++ rest = c :: cs := by
  have quotedCase {quote : Char} {toToken : String → Token} {cs' : List Char}
      (hq : quoted quote toToken cs' = .ok (segment, rest)) :
      segment.text ++ rest = quote :: cs' := by
    unfold quoted at hq
    split at hq
    · next value raw rest' hv =>
      simp only [Except.ok.injEq, Prod.mk.injEq] at hq
      obtain ⟨rfl, rfl⟩ := hq
      simp [text, quotedTail_append hv]
    · simp at hq
  unfold next at h
  simp only at h
  -- blanks and comments, then what is quoted, signs, numbers and words
  split at h
  · simp only [Except.ok.injEq, Prod.mk.injEq] at h
    obtain ⟨rfl, rfl⟩ := h
    exact List.takeWhile_append_dropWhile
  split at h
  · simp only [Except.ok.injEq, Prod.mk.injEq] at h
    obtain ⟨rfl, rfl⟩ := h
    exact List.takeWhile_append_dropWhile
  split at h
  · exact quotedCase h
  split at h
  · exact quotedCase h
  split at h
  · next sign spelling rest' hs =>
    simp only [Except.ok.injEq, Prod.mk.injEq] at h
    obtain ⟨rfl, rfl⟩ := h
    exact sign?_append hs
  split at h
  · simp at h
  split at h
  · simp only [Except.ok.injEq, Prod.mk.injEq] at h
    obtain ⟨rfl, rfl⟩ := h
    exact numberSplit_append (c :: cs)
  split at h
  · simp only [Except.ok.injEq, Prod.mk.injEq] at h
    obtain ⟨rfl, rfl⟩ := h
    exact List.takeWhile_append_dropWhile
  · simp at h

/-- Cuts a text into all its segments, each with its byte position. The budget bounds the number
of segments. -/
def split : Nat → Nat → List Char → Except ParseError (List (Nat × Segment))
  | 0, _, _ => .ok []
  | _, _, [] => .ok []
  | budget + 1, offset, c :: cs =>
    match next c cs with
    | .error message => .error ⟨message, some offset⟩
    | .ok (segment, rest) =>
      (split budget (offset + Text.byteLength segment.text) rest).map ((offset, segment) :: ·)

/-- The token a segment spells, at its position. -/
def located? : Nat × Segment → Option Located
  | (_, trivia _) => none
  | (offset, lexeme _ token) => some ⟨token, offset⟩

end Segment

/-- The segments of a text with their byte positions. A segment has a character, so the length of
the text bounds their number. -/
def segments (cs : List Char) : Except ParseError (List (Nat × Segment)) :=
  Segment.split cs.length 0 cs

def tokenize (sql : String) : Except ParseError (List Located) :=
  (segments sql.toList).map (·.filterMap Segment.located?)

end SqlPipeline.Sql
