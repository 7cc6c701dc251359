import Mathlib.Data.List.DropRight
import SqlPipeline.Proofs.Sql.Segments

/-!
# The tokens of a text

`Lexes offset text tokens rest` says that `text`, which starts at the byte position `offset` and
has `rest` after it, is made of the given tokens. It is the lexer without its budget
(`tokenize_eq_ok_iff`). What it says about a text can be put together (`Lexes.append`), moved to
another position (`Lexes.moved`), and taken apart at any token (`Lexes.cut`); what follows a text
may be cut short (`Lexes.of_append`), and so may the blanks at its end (`Lexes.trimEnd`). A part of
a script that starts and ends at a token therefore has just the tokens it has in the script.
-/

namespace SqlPipeline

namespace Text

/-! ## Blanks at the end -/

theorem trimEnd_prefix (cs : List Char) : trimEnd cs <+: cs :=
  List.rdropWhile_prefix isBlank cs

theorem trimEnd_concat {c : Char} (h : isBlank c = false) (cs : List Char) :
    trimEnd (cs ++ [c]) = cs ++ [c] :=
  List.rdropWhile_concat_neg isBlank cs c (by simp [h])

theorem trimEnd_append_blank {xs ys : List Char} (h : ∀ c ∈ ys, isBlank c = true) :
    trimEnd (xs ++ ys) = trimEnd xs := by
  rw [trimEnd, List.reverse_append, List.dropWhile_append_of_pos (by simpa using h), trimEnd]

theorem trimEnd_append {xs ys : List Char} (h : trimEnd ys ≠ []) :
    trimEnd (xs ++ ys) = xs ++ trimEnd ys := by
  have hrest : (ys.reverse.dropWhile isBlank).isEmpty = false := by
    simpa [trimEnd] using h
  rw [trimEnd, List.reverse_append, List.dropWhile_append, if_neg (by simp [hrest]),
    List.reverse_append, List.reverse_reverse, trimEnd]

theorem trimEnd_eq_nil_iff {cs : List Char} : trimEnd cs = [] ↔ ∀ c ∈ cs, isBlank c = true :=
  List.rdropWhile_eq_nil_iff

end Text

namespace Sql

open Segment (Before)

/-- The tokens of a text that stands at a byte position, before a rest. -/
inductive Lexes : Nat → List Char → List Located → List Char → Prop where
  | done {offset : Nat} {rest : List Char} : Lexes offset [] [] rest
  | trivia {offset : Nat} {skipped text rest : List Char} {tokens : List Located}
      (h : Before (.trivia skipped) (text ++ rest))
      (htext : Lexes (offset + Text.byteLength skipped) text tokens rest) :
      Lexes offset (skipped ++ text) tokens rest
  | token {offset : Nat} {spelling text rest : List Char} {token : Token} {tokens : List Located}
      (h : Before (.lexeme spelling token) (text ++ rest))
      (htext : Lexes (offset + Text.byteLength spelling) text tokens rest) :
      Lexes offset (spelling ++ text) (⟨token, offset⟩ :: tokens) rest

/-! ## The lexer -/

namespace Segment

variable {offset budget : Nat}

def tokensWithin (budget offset : Nat) (cs : List Char) : Except ParseError (List Located) :=
  (split budget offset cs).map (·.filterMap located?)

theorem tokensWithin_nil : tokensWithin budget offset [] = .ok [] := by
  cases budget <;> rfl

/-- A segment is cut off, and the tokens of the rest follow its own. -/
theorem tokensWithin_succ {c : Char} {cs rest : List Char} {segment : Segment}
    (h : next c cs = .ok (segment, rest)) :
    tokensWithin (budget + 1) offset (c :: cs) =
      (tokensWithin budget (offset + Text.byteLength segment.text) rest).map
        ((located? (offset, segment)).toList ++ ·) := by
  unfold tokensWithin
  rw [split, h]
  dsimp only
  cases split budget (offset + Text.byteLength segment.text) rest with
  | error error => rfl
  | ok segments =>
    refine congrArg Except.ok ?_
    cases hlocated : located? (offset, segment) with
    | none => exact List.filterMap_cons_none hlocated
    | some located => exact List.filterMap_cons_some hlocated

theorem tokensWithin_before {segment : Segment} {rest : List Char} (h : segment.Before rest)
    (hbudget : (segment.text ++ rest).length ≤ budget) :
    ∃ left, rest.length ≤ left ∧ tokensWithin budget offset (segment.text ++ rest) =
      (tokensWithin left (offset + Text.byteLength segment.text) rest).map
        ((located? (offset, segment)).toList ++ ·) := by
  obtain ⟨c, cs, htext⟩ := List.exists_cons_of_ne_nil h.text_ne_nil
  have hlength : rest.length + 1 ≤ budget := by
    rw [htext] at hbudget
    simp only [List.length_append, List.length_cons] at hbudget
    omega
  obtain ⟨left, rfl⟩ : ∃ left, budget = left + 1 := ⟨budget - 1, by omega⟩
  have hnext : next c (cs ++ rest) = .ok (segment, rest) :=
    next_eq_ok_iff.mpr ⟨by rw [htext]; rfl, h⟩
  refine ⟨left, by omega, ?_⟩
  rw [← tokensWithin_succ hnext, htext, List.cons_append]

theorem tokensWithin_of_lexes {cs rest : List Char} {tokens : List Located}
    (h : Lexes offset cs tokens rest) : rest = [] → ∀ {budget : Nat}, cs.length ≤ budget →
      tokensWithin budget offset cs = .ok tokens := by
  induction h with
  | done => exact fun _ budget _ => tokensWithin_nil
  | trivia h _ ih =>
    rintro rfl budget hbudget
    rw [List.append_nil] at h
    obtain ⟨left, hleft, heq⟩ := tokensWithin_before h hbudget
    exact heq.trans ((congrArg _ (ih rfl hleft)).trans rfl)
  | token h _ ih =>
    rintro rfl budget hbudget
    rw [List.append_nil] at h
    obtain ⟨left, hleft, heq⟩ := tokensWithin_before h hbudget
    exact heq.trans ((congrArg _ (ih rfl hleft)).trans rfl)

/-- A budget that is enough for a text is enough for its rest after a segment, with one less. -/
theorem length_rest_le {c : Char} {cs rest : List Char} {segment : Segment}
    (h : next c cs = .ok (segment, rest)) (hbudget : (c :: cs).length ≤ budget + 1) :
    rest.length ≤ budget := by
  obtain ⟨htext, hbefore⟩ := next_eq_ok_iff.mp h
  have hne := List.length_pos_iff.mpr hbefore.text_ne_nil
  have hsum := congrArg List.length htext
  simp only [List.length_append, List.length_cons] at hsum hbudget
  omega

theorem lexes_of_tokensWithin : ∀ {budget offset : Nat} {cs : List Char} {tokens : List Located},
    tokensWithin budget offset cs = .ok tokens → cs.length ≤ budget → Lexes offset cs tokens []
  | _, _, [], tokens, h, _ => by
    rw [tokensWithin_nil] at h
    cases h
    exact .done
  | 0, _, _ :: _, _, _, hbudget => by cases hbudget
  | budget + 1, offset, c :: cs, tokens, h, hbudget => by
    cases hnext : next c cs with
    | error message =>
      unfold tokensWithin at h
      rw [split, hnext] at h
      cases h
    | ok found =>
      obtain ⟨segment, rest⟩ := found
      rw [tokensWithin_succ hnext] at h
      obtain ⟨htext, hbefore⟩ := next_eq_ok_iff.mp hnext
      have hlength := length_rest_le hnext hbudget
      cases hothers : tokensWithin budget (offset + Text.byteLength segment.text) rest with
      | error error => rw [hothers] at h; cases h
      | ok others =>
        rw [hothers] at h
        have hrest := lexes_of_tokensWithin hothers hlength
        rw [← List.append_nil rest] at hbefore
        rw [← htext]
        cases h
        cases segment with
        | trivia text => exact .trivia hbefore hrest
        | lexeme text token => exact .token hbefore hrest

end Segment

/-- **The lexer finds the tokens that the text is made of, and fails only if there are none.** -/
theorem tokenize_eq_ok_iff {sql : String} {tokens : List Located} :
    tokenize sql = .ok tokens ↔ Lexes 0 sql.toList tokens [] :=
  ⟨fun h => Segment.lexes_of_tokensWithin h (Nat.le_refl _),
    fun h => Segment.tokensWithin_of_lexes h rfl (Nat.le_refl _)⟩

namespace Lexes

variable {offset : Nat} {text rest xs ys : List Char} {tokens others : List Located} {t : Located}

/-- The tokens of a text are tokens that the lexer makes. -/
theorem lexed (h : Lexes offset text tokens rest) : ∀ t ∈ tokens, t.token.Lexed := by
  induction h with
  | done => exact fun t ht => by cases ht
  | trivia _ _ ih => exact ih
  | token h _ ih =>
    intro t ht
    rcases List.mem_cons.mp ht with rfl | ht
    · exact h.lexed
    · exact ih t ht

/-! ## Putting texts together and taking them apart -/

theorem append (h : Lexes offset xs tokens (ys ++ rest))
    (hothers : Lexes (offset + Text.byteLength xs) ys others rest) :
    Lexes offset (xs ++ ys) (tokens ++ others) rest := by
  generalize hmiddle : ys ++ rest = middle at h
  induction h with
  | done => simpa using hothers
  | trivia h _ ih =>
    subst hmiddle
    rw [List.append_assoc]
    refine .trivia (by rwa [List.append_assoc]) (ih ?_ rfl)
    rwa [Nat.add_assoc, ← Text.byteLength_append]
  | token h _ ih =>
    subst hmiddle
    rw [List.append_assoc]
    refine .token (by rwa [List.append_assoc]) (ih ?_ rfl)
    rwa [Nat.add_assoc, ← Text.byteLength_append]

/-- A text before a rest is made of the same tokens if the rest is cut short. -/
theorem of_append (h : Lexes offset text tokens (xs ++ ys)) : Lexes offset text tokens xs := by
  generalize hrest : xs ++ ys = rest at h
  induction h with
  | done => exact .done
  | trivia h _ ih =>
    subst hrest
    rw [← List.append_assoc] at h
    exact .trivia h.of_append (ih rfl)
  | token h _ ih =>
    subst hrest
    rw [← List.append_assoc] at h
    exact .token h.of_append (ih rfl)

/-- A text is made of the same tokens wherever it stands. -/
theorem moved (h : Lexes offset text tokens rest) (other : Nat) :
    ∃ moved, Lexes other text moved rest ∧ moved.map (·.token) = tokens.map (·.token) := by
  induction h generalizing other with
  | done => exact ⟨[], .done, rfl⟩
  | trivia h _ ih =>
    obtain ⟨moved, hmoved, heq⟩ := ih (other + _)
    exact ⟨moved, .trivia h hmoved, heq⟩
  | @token _ spelling _ _ token _ h _ ih =>
    obtain ⟨moved, hmoved, heq⟩ := ih (other + Text.byteLength spelling)
    exact ⟨⟨token, other⟩ :: moved, .token h hmoved, congrArg (token :: ·) heq⟩

/-- A text can be taken apart at the start of each of its tokens. -/
theorem cut {before : List Located} (h : Lexes offset text (before ++ t :: others) rest) :
    ∃ xs ys, text = xs ++ ys ∧ t.offset = offset + Text.byteLength xs ∧
      Lexes offset xs before (ys ++ rest) ∧ Lexes t.offset ys (t :: others) rest := by
  generalize htokens : before ++ t :: others = tokens at h
  induction h generalizing before with
  | done => cases before <;> cases htokens
  | @trivia _ skipped _ _ _ h _ ih =>
    obtain ⟨xs, ys, rfl, hoffset, hxs, hys⟩ := ih htokens
    refine ⟨skipped ++ xs, ys, (List.append_assoc _ _ _).symm, ?_, ?_, hys⟩
    · rw [hoffset, Text.byteLength_append, Nat.add_assoc]
    · exact .trivia (by rwa [← List.append_assoc]) hxs
  | @token n spelling text _ token _ h htext ih =>
    cases before with
    | nil =>
      cases htokens
      exact ⟨[], spelling ++ text, rfl, rfl, .done, .token h htext⟩
    | cons first before =>
      obtain ⟨rfl, hothers⟩ := List.cons.inj htokens
      obtain ⟨xs, ys, rfl, hoffset, hxs, hys⟩ := ih hothers
      refine ⟨spelling ++ xs, ys, (List.append_assoc _ _ _).symm, ?_, ?_, hys⟩
      · rw [hoffset, Text.byteLength_append, Nat.add_assoc]
      · exact .token (by rwa [← List.append_assoc]) hxs

/-- The value of a string is shorter than the text it stands in. -/
theorem length_lt_of_string (h : Lexes offset text tokens rest) {value : String}
    (ht : .string value ∈ tokens.map (·.token)) : value.toList.length < text.length := by
  induction h with
  | done => cases ht
  | trivia _ _ ih =>
    have := ih ht
    rw [List.length_append]
    omega
  | token h _ ih =>
    rw [List.length_append]
    rcases List.mem_cons.mp ht with rfl | ht
    · cases h with
      | token _ htext =>
        cases List.mem_singleton.mp htext
        have := Segment.length_le_doubled '\'' value.toList
        simp only [Token.spelling, Segment.toList_enquote, List.length_cons, List.length_append]
        omega
    · have := ih ht
      omega

/-! ## The end of a text -/

/-- A text of blanks has no tokens. -/
theorem eq_nil_of_blank (h : Lexes offset text tokens rest)
    (hblank : ∀ c ∈ text, Text.isBlank c = true) : tokens = [] := by
  induction h with
  | done => rfl
  | trivia _ _ ih => exact ih fun c hc => hblank c (List.mem_append_right _ hc)
  | token h =>
    obtain ⟨cs, c, rfl, hc⟩ := h.last_of_lexeme
    rw [hblank c (by simp)] at hc
    cases hc

/-- A segment stands also before the text that follows it without the blanks at its end. -/
theorem before_trimEnd {segment : Segment} (h : segment.Before (text ++ [])) :
    segment.Before (Text.trimEnd text ++ []) := by
  obtain ⟨bs, hbs⟩ := Text.trimEnd_prefix text
  rw [List.append_nil, ← hbs] at h
  rw [List.append_nil]
  exact h.of_append

/-- Of trivia at the end, nothing or a comment is left. -/
theorem trimEnd_trivia {skipped : List Char} (h : Before (.trivia skipped) []) :
    Lexes offset (Text.trimEnd skipped) [] [] := by
  cases h with
  | blanks _ hall =>
    rw [Text.trimEnd_eq_nil_iff.mpr hall]
    exact .done
  | @comment cs _ hall =>
    have hmark : Text.trimEnd ['-', '-'] = ['-', '-'] := by decide
    obtain ⟨ds, hds, heq⟩ : ∃ ds, ds <+: cs ∧
        Text.trimEnd (['-', '-'] ++ cs) = '-' :: '-' :: ds := by
      by_cases hnil : Text.trimEnd cs = []
      · rw [Text.trimEnd_append_blank (Text.trimEnd_eq_nil_iff.mp hnil), hmark]
        exact ⟨[], List.nil_prefix, rfl⟩
      · rw [Text.trimEnd_append hnil]
        exact ⟨_, Text.trimEnd_prefix cs, rfl⟩
    have hcomment : Before (.trivia ('-' :: '-' :: ds)) ([] ++ []) :=
      .comment (fun hmem => hall (hds.subset hmem)) fun c hc => by cases hc
    have hlexes : Lexes offset ('-' :: '-' :: ds ++ []) [] [] := .trivia hcomment .done
    rw [List.append_nil, ← heq] at hlexes
    exact hlexes

/-- Blanks at the end of a text are no part of its tokens. -/
theorem trimEnd (h : Lexes offset text tokens []) : Lexes offset (Text.trimEnd text) tokens [] := by
  generalize hrest : [] = rest at h
  induction h with
  | done => exact .done
  | @trivia n skipped text _ _ h htext ih =>
    subst hrest
    have hbefore := before_trimEnd h
    by_cases hnil : Text.trimEnd text = []
    · have hblank := Text.trimEnd_eq_nil_iff.mp hnil
      cases htext.eq_nil_of_blank hblank
      rw [Text.trimEnd_append_blank hblank]
      rw [hnil] at hbefore
      exact trimEnd_trivia hbefore
    · rw [Text.trimEnd_append hnil]
      exact .trivia hbefore (ih rfl)
  | @token _ spelling text _ token _ h htext ih =>
    subst hrest
    have hbefore := before_trimEnd h
    have hkeep : Text.trimEnd (spelling ++ text) = spelling ++ Text.trimEnd text := by
      by_cases hnil : Text.trimEnd text = []
      · obtain ⟨cs, c, rfl, hc⟩ := h.last_of_lexeme
        rw [Text.trimEnd_append_blank (Text.trimEnd_eq_nil_iff.mp hnil), Text.trimEnd_concat hc,
          hnil, List.append_nil]
      · exact Text.trimEnd_append hnil
    rw [hkeep]
    exact .token hbefore (ih rfl)

end Lexes
end Sql
end SqlPipeline
