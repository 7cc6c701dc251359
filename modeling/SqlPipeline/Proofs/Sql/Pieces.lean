import SqlPipeline.Proofs.Sql.Lexing

/-!
# The pieces of a text

A text that the lexer accepts is trivia and lexemes by turns: it is a list of pieces, each some
trivia with a lexeme after it, and trivia at its end (`tokenize_pieces`). The pieces keep every
character of the text. A lexeme stands on its own, as it is one token also without the text around
it, and the position of a token is the number of bytes in front of its lexeme. That the positions
increase and lie between two characters of the text follows from this alone
(`Piece.located_pairwise`, `Piece.mem_located`).
-/

namespace SqlPipeline.Sql

open Segment (Before)

/-- What may stand between lexemes, before a rest: blanks, and comments, each of which reaches to
the end of its line or of the text. -/
inductive Trivia : List Char → List Char → Prop where
  | nil {rest : List Char} : Trivia [] rest
  | blank {c : Char} {cs rest : List Char} (hc : Text.isBlank c = true) (hcs : Trivia cs rest) :
      Trivia (c :: cs) rest
  | comment {line cs rest : List Char} (hline : '\n' ∉ line)
      (hstop : ∀ c ∈ (cs ++ rest).head?, c = '\n') (hcs : Trivia cs rest) :
      Trivia ('-' :: '-' :: (line ++ cs)) rest

theorem Trivia.blanks {bs cs rest : List Char} (hall : ∀ b ∈ bs, Text.isBlank b = true)
    (hcs : Trivia cs rest) : Trivia (bs ++ cs) rest := by
  induction bs with
  | nil => exact hcs
  | cons b bs ih =>
    exact .blank (hall b List.mem_cons_self) (ih fun c hc => hall c (List.mem_cons_of_mem _ hc))

/-- A segment that is no lexeme, in front of trivia, is trivia with it. -/
theorem Trivia.after {skipped cs rest : List Char} (hcs : Trivia cs rest)
    (h : Before (.trivia skipped) (cs ++ rest)) : Trivia (skipped ++ cs) rest := by
  cases h with
  | blanks _ hall => exact .blanks hall hcs
  | comment hline hstop => exact .comment hline hstop hcs

/-- A lexeme is one token also without the text around it. -/
theorem tokenize_lexeme {lexeme rest : List Char} {token : Token}
    (h : Before (.lexeme lexeme token) rest) : tokenize (.ofList lexeme) = .ok [⟨token, 0⟩] := by
  have halone : Before (.lexeme lexeme token) ([] ++ []) := h.of_append
  rw [tokenize_eq_ok_iff, String.toList_ofList, ← List.append_nil lexeme]
  exact .token halone .done

/-- A lexeme with the trivia in front of it. -/
structure Piece where
  trivia : List Char
  lexeme : List Char
  token : Token
  isTrivia : Trivia trivia lexeme
  /-- How a token is written; the quotes in a quoted text are doubled. -/
  spelled : lexeme ∈ token.spellings
  alone : tokenize (.ofList lexeme) = .ok [⟨token, 0⟩]

namespace Piece

variable {offset : Nat} {p : Piece} {pieces : List Piece} {t : Located}

def text (p : Piece) : List Char :=
  p.trivia ++ p.lexeme

/-- The tokens of pieces, the first of which starts at a byte position. -/
def located (offset : Nat) : List Piece → List Located
  | [] => []
  | p :: pieces =>
    ⟨p.token, offset + Text.byteLength p.trivia⟩ ::
      located (offset + Text.byteLength p.text) pieces

theorem lexeme_ne_nil (p : Piece) : p.lexeme ≠ [] := by
  intro hnil
  have hlexes := tokenize_eq_ok_iff.mp p.alone
  rw [String.toList_ofList, hnil] at hlexes
  have hnone := hlexes.eq_nil_of_blank fun c hc => by cases hc
  cases hnone

theorem byteLength_lexeme_pos (p : Piece) : 0 < Text.byteLength p.lexeme := by
  obtain ⟨c, cs, hlexeme⟩ := List.exists_cons_of_ne_nil p.lexeme_ne_nil
  rw [hlexeme, Text.byteLength_cons]
  have := c.utf8Size_pos
  omega

/-- The position of a token is the number of bytes in front of its lexeme. -/
theorem mem_located (h : t ∈ located offset pieces) :
    ∃ before p after, pieces = before ++ p :: after ∧ t.token = p.token ∧
      t.offset = offset + Text.byteLength (before.flatMap text ++ p.trivia) := by
  induction pieces generalizing offset with
  | nil => cases h
  | cons p pieces ih =>
    rcases List.mem_cons.mp h with rfl | h
    · exact ⟨[], p, pieces, rfl, rfl, rfl⟩
    · obtain ⟨before, q, after, rfl, htoken, hoffset⟩ := ih h
      refine ⟨p :: before, q, after, rfl, htoken, ?_⟩
      rw [hoffset, List.flatMap_cons, List.append_assoc, Text.byteLength_append p.text, Nat.add_assoc]

theorem located_pairwise (offset : Nat) (pieces : List Piece) :
    (located offset pieces).Pairwise (·.offset < ·.offset) := by
  induction pieces generalizing offset with
  | nil => exact .nil
  | cons p pieces ih =>
    refine .cons (fun t ht => ?_) (ih _)
    obtain ⟨before, q, after, -, -, hoffset⟩ := mem_located ht
    have hpos := p.byteLength_lexeme_pos
    rw [hoffset, text, Text.byteLength_append p.trivia]
    dsimp only
    omega

end Piece

/-- A text is cut into pieces along its tokens. -/
theorem Lexes.pieces {offset : Nat} {cs rest : List Char} {tokens : List Located}
    (h : Lexes offset cs tokens rest) : rest = [] → ∃ pieces last,
      cs = pieces.flatMap Piece.text ++ last ∧ Trivia last [] ∧
        tokens = Piece.located offset pieces := by
  induction h with
  | done => exact fun _ => ⟨[], [], rfl, .nil, rfl⟩
  | @trivia _ skipped _ _ _ h _ ih =>
    intro hrest
    obtain ⟨pieces, last, rfl, hlast, rfl⟩ := ih hrest
    rw [hrest] at h
    cases pieces with
    | nil => exact ⟨[], skipped ++ last, rfl, hlast.after h, rfl⟩
    | cons p pieces =>
      -- the trivia joins what stands in front of the first lexeme
      have hfirst : Before (.trivia skipped) (p.trivia ++ p.lexeme) := by
        rw [List.flatMap_cons, List.append_assoc, List.append_assoc] at h
        exact h.of_append
      refine ⟨{ p with trivia := skipped ++ p.trivia, isTrivia := p.isTrivia.after hfirst } :: pieces,
        last, ?_, hlast, ?_⟩
      · simp [Piece.text]
      · simp [Piece.located, Piece.text, Nat.add_assoc]
  | @token _ lexeme _ _ token _ h _ ih =>
    intro hrest
    obtain ⟨pieces, last, rfl, hlast, rfl⟩ := ih hrest
    have hspelled : lexeme ∈ token.spellings := by cases h; assumption
    refine ⟨⟨[], lexeme, token, .nil, hspelled, tokenize_lexeme h⟩ :: pieces, last, ?_, hlast, rfl⟩
    simp [Piece.text]

/-- **The lexer loses nothing of a text.** A text that is tokenized is trivia and lexemes by turns,
one lexeme for each token in order, and a lexeme alone is its token. Each token has the byte
position of its lexeme, which lies between two characters and before the end of the text, and the
positions increase. -/
theorem tokenize_pieces {sql : String} {tokens : List Located} (h : tokenize sql = .ok tokens) :
    (∃ pieces last, sql.toList = pieces.flatMap Piece.text ++ last ∧ Trivia last [] ∧
      tokens = Piece.located 0 pieces) ∧
    tokens.Pairwise (·.offset < ·.offset) ∧
    ∀ t ∈ tokens, ∃ before lexeme after, sql.toList = before ++ (lexeme ++ after) ∧
      t.offset = Text.byteLength before ∧ t.offset < Text.byteLength sql.toList ∧
      lexeme ∈ t.token.spellings ∧ tokenize (.ofList lexeme) = .ok [⟨t.token, 0⟩] := by
  obtain ⟨pieces, last, htext, hlast, rfl⟩ := (tokenize_eq_ok_iff.mp h).pieces rfl
  refine ⟨⟨pieces, last, htext, hlast, rfl⟩, Piece.located_pairwise 0 pieces, fun t ht => ?_⟩
  obtain ⟨before, p, after, rfl, htoken, hoffset⟩ := Piece.mem_located ht
  rw [Nat.zero_add] at hoffset
  have hcut : sql.toList = (before.flatMap Piece.text ++ p.trivia) ++
      (p.lexeme ++ (after.flatMap Piece.text ++ last)) := by
    simp [htext, Piece.text]
  refine ⟨_, p.lexeme, _, hcut, hoffset, ?_, htoken ▸ p.spelled, htoken ▸ p.alone⟩
  have hpos := p.byteLength_lexeme_pos
  rw [hoffset, hcut, Text.byteLength_append _ (p.lexeme ++ _), Text.byteLength_append p.lexeme]
  omega

/-- A text with a letter of two bytes, a sign of two characters, a quote in a string, a number that
ends in a period, and comments in front of a token and at the end. -/
def piecesExample : String :=
  "é <> 'it''s' -- ü\n1. -- ä"

def piecesExampleTokens : List Located :=
  [⟨.word ⟨"é", false, none⟩, 0⟩, ⟨.sign .neq, 3⟩, ⟨.string "it's", 6⟩, ⟨.number "1.", 20⟩]

theorem tokenize_pieces_example :
    tokenize piecesExample = .ok piecesExampleTokens ∧
    (∃ pieces last, piecesExample.toList = pieces.flatMap Piece.text ++ last ∧ Trivia last [] ∧
      piecesExampleTokens = Piece.located 0 pieces) ∧
    piecesExampleTokens.Pairwise (·.offset < ·.offset) ∧
    ∀ t ∈ piecesExampleTokens, ∃ before lexeme after,
      piecesExample.toList = before ++ (lexeme ++ after) ∧
      t.offset = Text.byteLength before ∧ t.offset < Text.byteLength piecesExample.toList ∧
      lexeme ∈ t.token.spellings ∧ tokenize (.ofList lexeme) = .ok [⟨t.token, 0⟩] := by
  have h : tokenize piecesExample = .ok piecesExampleTokens := by decide +kernel
  exact ⟨h, tokenize_pieces h⟩

end SqlPipeline.Sql
