import Mathlib.Data.List.TakeWhile
import SqlPipeline.Sql.Lexer

/-!
# What a segment is

The lexer looks at the first characters of a text to find out what to cut off, and how far it goes
depends on what follows. Both are said here without an order of cases: `Segment.Before` lists the
segments there are, each with what must not come right after it, and `Segment.next_eq_ok_iff` says
that the lexer cuts exactly these off.

Two consequences carry the rest. A segment does not become another one when the text after it is
cut short (`Segment.Before.of_append`), which is why a part of a text has the tokens that the part
has in the whole. And a token that the lexer makes (`Token.Lexed`) is found again wherever its
spelling stands before something that does not continue it, which is why printed text can be read.
-/

namespace SqlPipeline

namespace Text

/-- What holds of the characters of a text is decided on these, not on all characters there are. -/
instance decidableForallMem (p : Char → Prop) [DecidablePred p] (cs : List Char) :
    Decidable (∀ c ∈ cs, p c) :=
  List.decidableBAll p cs

instance decidableForallMemOption (p : Char → Prop) [DecidablePred p] (c? : Option Char) :
    Decidable (∀ c ∈ c?, p c) :=
  Option.decidableForallMem c?

/-! ## Blanks and words have no character in common -/

def blankPoints : List Nat :=
  [9, 10, 11, 12, 13, 32, 0x85, 0xA0, 0x1680, 0x2000, 0x2001, 0x2002, 0x2003, 0x2004, 0x2005,
   0x2006, 0x2007, 0x2008, 0x2009, 0x200A, 0x2028, 0x2029, 0x202F, 0x205F, 0x3000]

theorem toNat_mem_blankPoints {c : Char} (h : isBlank c = true) : c.toNat ∈ blankPoints := by
  unfold isBlank at h
  simp only [inRanges, blankRanges, List.any_cons, List.any_nil] at h
  simp only [blankPoints, List.mem_cons, List.not_mem_nil]
  split at h <;> grind

theorem isWordPart_of_isBlank {c : Char} (h : isBlank c = true) : isWordPart c = false := by
  have hall : ∀ n ∈ blankPoints, isWordPart (Char.ofNat n) = false := by decide +kernel
  have hc := hall c.toNat (toNat_mem_blankPoints h)
  rwa [Char.ofNat_toNat] at hc

theorem isBlank_of_isWordPart {c : Char} (h : isWordPart c = true) : isBlank c = false := by
  cases hblank : isBlank c with
  | false => rfl
  | true =>
    rw [isWordPart_of_isBlank hblank] at h
    cases h

theorem isWordPart_of_isWordStart {c : Char} (h : isWordStart c = true) : isWordPart c = true := by
  unfold isWordStart at h
  unfold isWordPart
  grind

/-- The ten digits. -/
theorem mem_digits_of_isDigit {c : Char} (h : c.isDigit = true) :
    c ∈ ['0', '1', '2', '3', '4', '5', '6', '7', '8', '9'] := by
  have hn : c.toNat ∈ [48, 49, 50, 51, 52, 53, 54, 55, 56, 57] := by
    have hrange : 48 ≤ c.toNat ∧ c.toNat ≤ 57 := by
      simp only [Char.isDigit, Bool.and_eq_true, decide_eq_true_eq] at h
      exact h
    simp only [List.mem_cons, List.not_mem_nil]
    omega
  have hall := List.mem_map_of_mem (f := Char.ofNat) hn
  rwa [Char.ofNat_toNat] at hall

theorem isBlank_of_isDigit {c : Char} (h : c.isDigit = true) : isBlank c = false := by
  have hall : ∀ d ∈ ['0', '1', '2', '3', '4', '5', '6', '7', '8', '9'], isBlank d = false := by
    decide
  exact hall c (mem_digits_of_isDigit h)

end Text

namespace Sql

/-- A word: a letter or underscore, and then letters, digits and underscores. -/
def IsWord : List Char → Prop
  | [] => False
  | c :: cs => Text.isWordStart c = true ∧ ∀ d ∈ cs, Text.isWordPart d = true

/-- A number: digits, perhaps with a period that has digits before it. -/
def IsNumber (cs : List Char) : Prop :=
  ∃ whole, whole ≠ [] ∧ (∀ d ∈ whole, d.isDigit = true) ∧
    (cs = whole ∨ ∃ places, (∀ d ∈ places, d.isDigit = true) ∧ cs = whole ++ '.' :: places)

theorem IsWord.isWordPart {cs : List Char} (h : IsWord cs) {c : Char} (hc : c ∈ cs) :
    Text.isWordPart c = true := by
  cases cs with
  | nil => cases hc
  | cons d ds =>
    rcases List.mem_cons.mp hc with rfl | hc
    · exact Text.isWordPart_of_isWordStart h.1
    · exact h.2 c hc

theorem IsNumber.mem {cs : List Char} (h : IsNumber cs) {c : Char} (hc : c ∈ cs) :
    c.isDigit = true ∨ c = '.' := by
  obtain ⟨whole, -, hwhole, rfl | ⟨places, hplaces, rfl⟩⟩ := h
  · exact .inl (hwhole c hc)
  · rcases List.mem_append.mp hc with hc | hc
    · exact .inl (hwhole c hc)
    rcases List.mem_cons.mp hc with rfl | hc
    · exact .inr rfl
    · exact .inl (hplaces c hc)

namespace Token

/-- The tokens that the lexer makes. -/
def Lexed : Token → Prop
  | word w =>
    if w.quoted then w.keyword = none
    else IsWord w.value.toList ∧ w.keyword = Keyword.ofWord? w.value.toList
  | number digits => IsNumber digits.toList
  | string _ => True
  | sign _ => True

def spelling : Token → List Char
  | word w => if w.quoted then (Text.enquote '"' w.value).toList else w.value.toList
  | number digits => digits.toList
  | string value => (Text.enquote '\'' value).toList
  | sign s => s.text.toList

/-- How a token may be written: two signs have a second spelling. -/
def spellings : Token → List (List Char)
  | sign .eq => [['='], ['=', '=']]
  | sign .neq => [['!', '='], ['<', '>']]
  | token => [token.spelling]

/-- Whether a character right after a sign would make another sign, or a comment, of it. -/
def signGoesOn (c : Char) : List Char → Bool
  | ['='] | ['>'] => c == '='
  | ['<'] => c == '=' || c == '>'
  | ['-'] => c == '-'
  | _ => false

/-- Whether a character right after a token that is written as `text` would belong to it. -/
def isContinuedBy (c : Char) (text : List Char) : Token → Bool
  | word w => if w.quoted then c == '"' else Text.isWordPart c
  | number digits => c.isDigit || (c == '.' && !digits.toList.contains '.')
  | string _ => c == '\''
  | sign _ => signGoesOn c text

theorem spelling_mem_spellings : ∀ token : Token, token.spelling ∈ token.spellings
  | word _ | number _ | string _ => List.mem_singleton_self _
  | sign s => by cases s <;> decide

theorem mem_spellings {token : Token} {text : List Char} (h : text ∈ token.spellings) :
    text = token.spelling ∨ text = ['=', '='] ∨ text = ['<', '>'] := by
  cases token with
  | sign s =>
    cases s
    case eq | neq =>
      rcases List.mem_cons.mp h with rfl | h
      · exact .inl rfl
      · cases List.mem_singleton.mp h
        decide
    all_goals exact .inl (List.mem_singleton.mp h)
  | word w => exact .inl (List.mem_singleton.mp h)
  | number digits => exact .inl (List.mem_singleton.mp h)
  | string value => exact .inl (List.mem_singleton.mp h)

end Token

namespace Segment

/-- The segments there are, each before a text that does not continue it. -/
inductive Before : Segment → List Char → Prop where
  | blanks {bs rest : List Char} (hne : bs ≠ []) (hall : ∀ b ∈ bs, Text.isBlank b = true)
      (hrest : ∀ c ∈ rest.head?, Text.isBlank c = false) : Before (trivia bs) rest
  /-- The line end that closes a comment is no part of it. -/
  | comment {cs rest : List Char} (hall : '\n' ∉ cs) (hrest : ∀ c ∈ rest.head?, c = '\n') :
      Before (trivia ('-' :: '-' :: cs)) rest
  | token {token : Token} {text rest : List Char} (hlexed : token.Lexed)
      (htext : text ∈ token.spellings)
      (hrest : ∀ c ∈ rest.head?, token.isContinuedBy c text = false) :
      Before (lexeme text token) rest

/-! ## Cutting a run of characters -/

section Runs

variable {p : Char → Bool}

theorem takeWhile_run {run rest : List Char} (hall : ∀ c ∈ run, p c = true)
    (hrest : ∀ c ∈ rest.head?, p c = false) : (run ++ rest).takeWhile p = run := by
  rw [List.takeWhile_append_of_pos hall]
  cases rest with
  | nil => rw [List.takeWhile_nil, List.append_nil]
  | cons c cs => rw [List.takeWhile_cons_of_neg (by simp [hrest c rfl]), List.append_nil]

theorem dropWhile_run {run rest : List Char} (hall : ∀ c ∈ run, p c = true)
    (hrest : ∀ c ∈ rest.head?, p c = false) : (run ++ rest).dropWhile p = rest := by
  rw [List.dropWhile_append_of_pos hall]
  cases rest with
  | nil => rfl
  | cons c cs => rw [List.dropWhile_cons_of_neg (by simp [hrest c rfl])]

theorem head?_dropWhile {cs : List Char} {c : Char} (h : c ∈ (cs.dropWhile p).head?) :
    p c = false := by
  have hnot := List.head?_dropWhile_not p cs
  rw [Option.mem_def.mp h] at hnot
  simpa using hnot

end Runs

/-! ## The lexer cuts these segments off -/

def doubled (quote : Char) (value : List Char) : List Char :=
  value.flatMap fun c => if c = quote then [quote, quote] else [c]

theorem toList_enquote (quote : Char) (value : String) :
    (Text.enquote quote value).toList = quote :: (doubled quote value.toList ++ [quote]) := by
  unfold Text.enquote doubled
  rw [String.toList_ofList, List.cons_append]

theorem doubled_cons_self (quote : Char) (value : List Char) :
    doubled quote (quote :: value) = quote :: quote :: doubled quote value := by
  simp [doubled]

theorem doubled_cons_of_ne {quote c : Char} (h : c ≠ quote) (value : List Char) :
    doubled quote (c :: value) = c :: doubled quote value := by
  simp [doubled, h]

theorem length_le_doubled (quote : Char) :
    ∀ value : List Char, value.length ≤ (doubled quote value).length
  | [] => Nat.zero_le _
  | c :: value => by
    have := length_le_doubled quote value
    by_cases hc : c = quote
    · rw [hc, doubled_cons_self, List.length_cons, List.length_cons, List.length_cons]
      omega
    · rw [doubled_cons_of_ne hc, List.length_cons, List.length_cons]
      omega

/-- A quoted text ends at the first quote that is not doubled. -/
theorem quotedTail_spec {quote : Char} {cs value raw rest : List Char}
    (h : quotedTail quote cs = some (value, raw, rest)) :
    raw = doubled quote value ++ [quote] ∧ ∀ c ∈ rest.head?, c ≠ quote := by
  fun_induction quotedTail quote cs generalizing value raw rest with
  | case1 => cases h
  | case2 ds ih =>
    obtain ⟨⟨v, r, t⟩, hv, heq⟩ := Option.map_eq_some_iff.mp h
    cases heq
    obtain ⟨rfl, hrest⟩ := ih hv
    exact ⟨by rw [doubled_cons_self]; rfl, hrest⟩
  | case3 d ds hd =>
    cases h
    exact ⟨rfl, fun c hc => by cases hc; exact hd⟩
  | case4 =>
    cases h
    exact ⟨rfl, fun c hc => by cases hc⟩
  | case5 c cs hc ih =>
    obtain ⟨⟨v, r, t⟩, hv, heq⟩ := Option.map_eq_some_iff.mp h
    cases heq
    obtain ⟨rfl, hrest⟩ := ih hv
    exact ⟨by rw [doubled_cons_of_ne hc]; rfl, hrest⟩

theorem quotedTail_doubled {quote : Char} {rest : List Char} (hrest : ∀ c ∈ rest.head?, c ≠ quote) :
    ∀ value : List Char, quotedTail quote (doubled quote value ++ quote :: rest) =
      some (value, doubled quote value ++ [quote], rest)
  | [] => by
    cases rest with
    | nil => simp [doubled, quotedTail]
    | cons d ds => simp [doubled, quotedTail, hrest d rfl]
  | c :: value => by
    by_cases hc : c = quote
    · subst hc
      simp [doubled_cons_self, quotedTail, quotedTail_doubled hrest value]
    · rw [doubled_cons_of_ne hc, List.cons_append, quotedTail.eq_def]
      dsimp only
      rw [if_neg hc, quotedTail_doubled hrest value]
      rfl

theorem quoted_eq_ok_iff {quote : Char} {toToken : String → Token} {cs rest : List Char}
    {segment : Segment} :
    quoted quote toToken cs = .ok (segment, rest) ↔
      ∃ value : String, segment = lexeme (Text.enquote quote value).toList (toToken value) ∧
        segment.text ++ rest = quote :: cs ∧ ∀ c ∈ rest.head?, c ≠ quote := by
  unfold quoted
  constructor
  · intro h
    split at h
    · next value raw rest' hv =>
      cases h
      obtain ⟨rfl, hrest⟩ := quotedTail_spec hv
      refine ⟨String.ofList value, ?_, ?_, hrest⟩
      · rw [toList_enquote, String.toList_ofList]
      · rw [text, List.cons_append, quotedTail_append hv]
    · cases h
  · rintro ⟨value, rfl, htext, hrest⟩
    rw [text, toList_enquote, List.cons_append, List.cons.injEq] at htext
    obtain ⟨-, rfl⟩ := htext
    rw [List.append_assoc, List.singleton_append, quotedTail_doubled hrest]
    dsimp only
    rw [toList_enquote, String.ofList_toList]

theorem numberSplit_spec {cs digits rest : List Char} (h : numberSplit cs = (digits, rest))
    (hdigit : ∀ c ∈ cs.head?, c.isDigit = true) (hne : cs ≠ []) :
    IsNumber digits ∧ ∀ c ∈ rest.head?, c.isDigit = false ∧ (c = '.' → '.' ∈ digits) := by
  have hwhole : cs.takeWhile Char.isDigit ≠ [] := by
    cases cs with
    | nil => exact absurd rfl hne
    | cons c cs =>
      rw [List.takeWhile_cons_of_pos (hdigit c rfl)]
      exact List.cons_ne_nil _ _
  have hall : ∀ d ∈ cs.takeWhile Char.isDigit, d.isDigit = true :=
    fun _ => List.mem_takeWhile_imp
  unfold numberSplit at h
  dsimp only at h
  split at h
  · next places hplaces =>
    cases h
    refine ⟨⟨_, hwhole, hall, .inr ⟨_, fun _ => List.mem_takeWhile_imp, rfl⟩⟩, fun c hc => ?_⟩
    exact ⟨head?_dropWhile hc, fun _ => by simp⟩
  · next hrest =>
    cases h
    refine ⟨⟨_, hwhole, hall, .inl rfl⟩, fun c hc => ⟨head?_dropWhile hc, ?_⟩⟩
    rintro rfl
    obtain ⟨ds, hds⟩ : ∃ ds, cs.dropWhile Char.isDigit = '.' :: ds :=
      List.head?_eq_some_iff.mp hc
    exact absurd hds (hrest ds)

theorem numberSplit_number {digits rest : List Char} (h : IsNumber digits)
    (hrest : ∀ c ∈ rest.head?, c.isDigit = false ∧ (c = '.' → '.' ∈ digits)) :
    numberSplit (digits ++ rest) = (digits, rest) := by
  have hperiod : ∀ cs : List Char, ∀ c ∈ ('.' :: cs).head?, c.isDigit = false := by
    rintro cs c hc
    cases hc
    decide
  obtain ⟨whole, -, hall, rfl | ⟨places, hplaces, rfl⟩⟩ := h
  · have hstop : ∀ c ∈ rest.head?, c.isDigit = false := fun c hc => (hrest c hc).1
    unfold numberSplit
    rw [takeWhile_run hall hstop, dropWhile_run hall hstop]
    dsimp only
    split
    · next ds =>
      have hmem := (hrest '.' rfl).2 rfl
      exact absurd (hall '.' hmem) (by decide)
    · rfl
  · have hstop : ∀ c ∈ rest.head?, c.isDigit = false := fun c hc => (hrest c hc).1
    unfold numberSplit
    rw [List.append_assoc, List.cons_append, takeWhile_run hall (hperiod _),
      dropWhile_run hall (hperiod _)]
    change (whole ++ '.' :: (places ++ rest).takeWhile Char.isDigit,
      (places ++ rest).dropWhile Char.isDigit) = _
    rw [takeWhile_run hplaces hstop, dropWhile_run hplaces hstop]

/-! ### The first character of a token -/

theorem sign?_digit {c : Char} (h : c.isDigit = true) (cs : List Char) : sign? (c :: cs) = none := by
  have hc := Text.mem_digits_of_isDigit h
  simp only [List.mem_cons, List.not_mem_nil, or_false] at hc
  rcases hc with rfl | rfl | rfl | rfl | rfl | rfl | rfl | rfl | rfl | rfl <;> rfl

theorem sign?_wordStart {c : Char} (h : Text.isWordStart c = true) (cs : List Char) :
    sign? (c :: cs) = none := by
  unfold sign?
  split
  all_goals first
    | rfl
    | next heq =>
      cases heq
      exact absurd h (by decide)

theorem spelling_ne_nil : ∀ {token : Token}, token.Lexed → token.spelling ≠ []
  | .word ⟨value, true, keyword⟩, _ => by
    rw [Token.spelling, if_pos rfl, toList_enquote]
    exact List.cons_ne_nil _ _
  | .word ⟨value, false, keyword⟩, h => by
    intro hnil
    have hword : IsWord value.toList := h.1
    rw [show value.toList = [] from hnil] at hword
    exact hword
  | .number digits, h => by
    intro hnil
    obtain ⟨whole, hne, -, h | ⟨places, -, h⟩⟩ := h
    · exact hne (h.symm.trans hnil)
    · rw [show digits.toList = [] from hnil] at h
      simp at h
  | .string value, _ => by
    rw [Token.spelling, toList_enquote]
    exact List.cons_ne_nil _ _
  | .sign s, _ => by cases s <;> decide

/-- A token ends in a character that is no blank. -/
theorem spelling_last {token : Token} (h : token.Lexed) :
    ∃ cs c, token.spelling = cs ++ [c] ∧ Text.isBlank c = false := by
  have hquoted {quote : Char} (hquote : Text.isBlank quote = false) (value : String) :
      ∃ cs c, (Text.enquote quote value).toList = cs ++ [c] ∧ Text.isBlank c = false :=
    ⟨quote :: doubled quote value.toList, quote, toList_enquote quote value, hquote⟩
  have hplain {cs : List Char} (hne : cs ≠ []) (hall : ∀ c ∈ cs, Text.isBlank c = false) :
      ∃ ds d, cs = ds ++ [d] ∧ Text.isBlank d = false := by
    obtain hnil | ⟨ds, d, rfl⟩ := List.eq_nil_or_concat cs
    · exact absurd hnil hne
    · exact ⟨ds, d, List.concat_eq_append, hall d (by simp)⟩
  have hne := spelling_ne_nil h
  match token, h, hne with
  | .word ⟨value, true, keyword⟩, _, _ => exact hquoted (by decide) value
  | .word ⟨value, false, keyword⟩, h, hne =>
    exact hplain hne fun c hc => Text.isBlank_of_isWordPart (IsWord.isWordPart h.1 hc)
  | .number digits, h, hne =>
    refine hplain hne fun c hc => ?_
    rcases IsNumber.mem h hc with hdigit | rfl
    · exact Text.isBlank_of_isDigit hdigit
    · decide
  | .string value, _, _ => exact hquoted (by decide) value
  | .sign s, _, hne => exact hplain hne (by cases s <;> decide)

theorem Before.text_ne_nil {segment : Segment} {rest : List Char} (h : segment.Before rest) :
    segment.text ≠ [] := by
  cases h with
  | blanks hne => exact hne
  | comment => exact List.cons_ne_nil _ _
  | token hlexed htext =>
    rcases Token.mem_spellings htext with rfl | rfl | rfl
    · exact spelling_ne_nil hlexed
    · exact List.cons_ne_nil _ _
    · exact List.cons_ne_nil _ _

theorem sign?_first {c : Char} {cs rest spelling : List Char} {s : Sign}
    (h : sign? (c :: cs) = some (s, spelling, rest)) :
    Text.isBlank c = false ∧ c ≠ '\'' ∧ c ≠ '"' := by
  unfold sign? at h
  split at h
  all_goals first
    | (cases h; done)
    | next heq =>
      cases heq
      decide

/-- The sign a text starts with is spelled in one of its ways, and is not continued. -/
theorem sign?_spec {cs rest spelling : List Char} {s : Sign}
    (h : sign? cs = some (s, spelling, rest)) (hcomment : startsComment cs = false) :
    spelling ∈ (Token.sign s).spellings ∧ ∀ c ∈ rest.head?, Token.signGoesOn c spelling = false := by
  unfold sign? at h
  split at h
  case h_19 => cases h
  all_goals
    cases h
    refine ⟨by decide, fun c hc => ?_⟩
    obtain ⟨ds, rfl⟩ := List.head?_eq_some_iff.mp hc
  case h_7.refl =>
    -- two minus signs are the mark of a comment
    refine beq_eq_false_iff_ne.mpr ?_
    rintro rfl
    cases hcomment
  all_goals first
    | rfl
    | simp_all [Token.signGoesOn]

theorem sign?_spelling {spelling rest : List Char} {s : Sign}
    (htext : spelling ∈ (Token.sign s).spellings)
    (hrest : ∀ c ∈ rest.head?, Token.signGoesOn c spelling = false) :
    sign? (spelling ++ rest) = some (s, spelling, rest) ∧ startsComment (spelling ++ rest) = false := by
  have hcases : spelling = (Token.sign s).spelling ∨ s = .eq ∧ spelling = ['=', '='] ∨
      s = .neq ∧ spelling = ['<', '>'] := by
    cases s
    all_goals simpa [Token.spellings, Token.spelling, Sign.text] using htext
  rcases hcases with rfl | ⟨rfl, rfl⟩ | ⟨rfl, rfl⟩
  · cases rest with
    | nil => cases s <;> decide
    | cons c cs =>
      have hc := hrest c rfl
      cases s
      all_goals simp_all [Token.signGoesOn, Token.spelling, Sign.text, sign?, startsComment]
  · exact ⟨rfl, rfl⟩
  · exact ⟨rfl, rfl⟩

theorem isContinuedBy_number {digits : String} {text : List Char} {c : Char} :
    (Token.number digits).isContinuedBy c text = false ↔
      c.isDigit = false ∧ (c = '.' → '.' ∈ digits.toList) := by
  simp [Token.isContinuedBy]

theorem before_comment {cs : List Char} (h : startsComment cs = true) :
    (trivia (cs.takeWhile (· != '\n'))).Before (cs.dropWhile (· != '\n')) := by
  unfold startsComment at h
  split at h
  · next ds =>
    have hds : ('-' :: '-' :: ds).takeWhile (· != '\n') =
        '-' :: '-' :: ds.takeWhile (· != '\n') := rfl
    rw [hds]
    refine .comment (fun hmem => ?_) (fun d hd => ?_)
    · simpa using List.mem_takeWhile_imp hmem
    · simpa using head?_dropWhile hd
  · cases h

theorem before_number {c : Char} {cs digits rest : List Char} (hdigit : c.isDigit = true)
    (h : numberSplit (c :: cs) = (digits, rest)) :
    (lexeme digits (.number (String.ofList digits))).Before rest := by
  obtain ⟨hnumber, hrest⟩ :=
    numberSplit_spec h (fun d hd => by cases hd; exact hdigit) (List.cons_ne_nil c cs)
  have hlexed : (Token.number (String.ofList digits)).Lexed := by
    rw [Token.Lexed, String.toList_ofList]
    exact hnumber
  have htext : digits ∈ (Token.number (String.ofList digits)).spellings := by
    refine List.mem_singleton.mpr ?_
    rw [Token.spelling, String.toList_ofList]
  refine .token hlexed htext fun d hd => ?_
  rw [isContinuedBy_number, String.toList_ofList]
  exact hrest d hd

theorem before_word {c : Char} {cs word : List Char} (hstart : Text.isWordStart c = true)
    (h : (c :: cs).takeWhile Text.isWordPart = word) :
    (lexeme word (.word ⟨String.ofList word, false, Keyword.ofWord? word⟩)).Before
      ((c :: cs).dropWhile Text.isWordPart) := by
  have hword : IsWord word := by
    rw [← h, List.takeWhile_cons_of_pos (Text.isWordPart_of_isWordStart hstart)]
    exact ⟨hstart, fun _ => List.mem_takeWhile_imp⟩
  have hlexed : (Token.word ⟨String.ofList word, false, Keyword.ofWord? word⟩).Lexed := by
    rw [Token.Lexed, if_neg Bool.false_ne_true, String.toList_ofList]
    exact ⟨hword, rfl⟩
  refine .token hlexed (List.mem_singleton.mpr ?_) fun d hd => head?_dropWhile hd
  rw [Token.spelling, if_neg Bool.false_ne_true, String.toList_ofList]

/-- A segment that the lexer cuts off stands before something that does not continue it. -/
theorem before_of_next {c : Char} {cs rest : List Char} {segment : Segment}
    (h : next c cs = .ok (segment, rest)) : segment.Before rest := by
  unfold next at h
  dsimp only at h
  -- the lexer tries one kind of segment after the other
  split at h
  · next hblank =>
    cases h
    refine .blanks ?_ (fun _ => List.mem_takeWhile_imp) (fun d hd => head?_dropWhile hd)
    rw [List.takeWhile_cons_of_pos hblank]
    exact List.cons_ne_nil _ _
  split at h
  · next hcomment =>
    cases h
    exact before_comment hcomment
  split at h
  · next hquote =>
    subst hquote
    obtain ⟨value, rfl, -, hrest⟩ := quoted_eq_ok_iff.mp h
    have hlexed : (Token.string value).Lexed := trivial
    exact .token hlexed (List.mem_singleton_self _)
      fun d hd => by simpa [Token.isContinuedBy] using hrest d hd
  split at h
  · next hquote =>
    subst hquote
    obtain ⟨value, rfl, -, hrest⟩ := quoted_eq_ok_iff.mp h
    have hlexed : (Token.word ⟨value, true, none⟩).Lexed := rfl
    exact .token hlexed (List.mem_singleton_self _)
      fun d hd => by simpa [Token.isContinuedBy] using hrest d hd
  split at h
  · next hcomment _ _ _ s spelling rest' hsign =>
    cases h
    obtain ⟨htext, hrest⟩ := sign?_spec hsign (by simpa using hcomment)
    have hlexed : (Token.sign s).Lexed := trivial
    exact .token hlexed htext hrest
  split at h
  · cases h
  split at h
  · next hdigit =>
    cases h
    exact before_number hdigit (Prod.eta _).symm
  split at h
  · next hstart =>
    cases h
    exact before_word hstart rfl
  · cases h

/-! ### Each kind of segment is cut off -/

theorem next_blanks {c : Char} {bs cs rest : List Char} (htext : bs ++ rest = c :: cs)
    (hne : bs ≠ []) (hall : ∀ b ∈ bs, Text.isBlank b = true)
    (hrest : ∀ d ∈ rest.head?, Text.isBlank d = false) : next c cs = .ok (trivia bs, rest) := by
  have hblank : Text.isBlank c = true := by
    cases bs with
    | nil => exact absurd rfl hne
    | cons b bs =>
      obtain ⟨rfl, -⟩ := List.cons.inj htext
      exact hall b List.mem_cons_self
  unfold next
  dsimp only
  rw [if_pos hblank, ← htext, takeWhile_run hall hrest, dropWhile_run hall hrest]

theorem next_comment {cs rest : List Char} (hall : '\n' ∉ cs) (hrest : ∀ c ∈ rest.head?, c = '\n') :
    next '-' ('-' :: (cs ++ rest)) = .ok (trivia ('-' :: '-' :: cs), rest) := by
  have hline : ∀ d ∈ '-' :: '-' :: cs, (d != '\n') = true := by
    intro d hd
    rcases List.mem_cons.mp hd with rfl | hd
    · decide
    rcases List.mem_cons.mp hd with rfl | hd
    · decide
    exact bne_iff_ne.mpr fun heq => hall (heq ▸ hd)
  have hstop : ∀ d ∈ rest.head?, (d != '\n') = false := fun d hd => by simp [hrest d hd]
  have htext : '-' :: '-' :: (cs ++ rest) = '-' :: '-' :: cs ++ rest := rfl
  unfold next
  dsimp only
  rw [if_neg (by decide), if_pos (show startsComment ('-' :: '-' :: _) = true from rfl), htext,
    takeWhile_run hline hstop, dropWhile_run hline hstop]

theorem next_sign {c : Char} {cs spelling rest : List Char} {s : Sign}
    (htext : spelling ++ rest = c :: cs) (hspelling : spelling ∈ (Token.sign s).spellings)
    (hrest : ∀ d ∈ rest.head?, Token.signGoesOn d spelling = false) :
    next c cs = .ok (lexeme spelling (.sign s), rest) := by
  obtain ⟨hsign, hcomment⟩ := sign?_spelling hspelling hrest
  rw [htext] at hsign hcomment
  obtain ⟨hblank, hsingle, hdouble⟩ := sign?_first hsign
  unfold next
  dsimp only
  rw [if_neg (by simp [hblank]), if_neg (by simp [hcomment]), if_neg hsingle, if_neg hdouble, hsign]

theorem next_quoted {quote : Char} {toToken : String → Token}
    (hnext : ∀ cs, next quote cs = quoted quote toToken cs) {c : Char} {cs rest : List Char}
    {value : String} (htext : (Text.enquote quote value).toList ++ rest = c :: cs)
    (hrest : ∀ d ∈ rest.head?, d ≠ quote) :
    next c cs = .ok (lexeme (Text.enquote quote value).toList (toToken value), rest) := by
  have hc : quote = c := by
    rw [toList_enquote] at htext
    exact (List.cons.inj htext).1
  subst hc
  rw [hnext]
  exact quoted_eq_ok_iff.mpr ⟨value, rfl, htext, hrest⟩

theorem next_number {c : Char} {cs rest : List Char} {digits : String}
    (htext : digits.toList ++ rest = c :: cs) (hlexed : IsNumber digits.toList)
    (hrest : ∀ d ∈ rest.head?, d.isDigit = false ∧ (d = '.' → '.' ∈ digits.toList)) :
    next c cs = .ok (lexeme digits.toList (.number digits), rest) := by
  have hdigit : c.isDigit = true := by
    obtain ⟨whole, hne, hall, hdigits⟩ := hlexed
    cases whole with
    | nil => exact absurd rfl hne
    | cons d whole =>
      have hd : d = c := by
        rcases hdigits with h | ⟨places, -, h⟩
        · rw [h] at htext
          exact (List.cons.inj htext).1
        · rw [h] at htext
          exact (List.cons.inj htext).1
      exact hd ▸ hall d List.mem_cons_self
  have hfirst : Text.isBlank c = false ∧ c ≠ '-' ∧ c ≠ '\'' ∧ c ≠ '"' ∧ c ≠ '!' := by
    have hall : ∀ d ∈ ['0', '1', '2', '3', '4', '5', '6', '7', '8', '9'],
        Text.isBlank d = false ∧ d ≠ '-' ∧ d ≠ '\'' ∧ d ≠ '"' ∧ d ≠ '!' := by decide
    exact hall c (Text.mem_digits_of_isDigit hdigit)
  obtain ⟨hblank, hminus, hsingle, hdouble, hbang⟩ := hfirst
  have hcomment : startsComment (c :: cs) = false := by
    unfold startsComment
    split
    · next heq => exact absurd (List.cons.inj heq).1 hminus
    · rfl
  unfold next
  dsimp only
  rw [if_neg (by simp [hblank]), if_neg (by simp [hcomment]), if_neg hsingle, if_neg hdouble,
    sign?_digit hdigit]
  dsimp only
  rw [if_neg hbang, if_pos hdigit, ← htext, numberSplit_number hlexed hrest, String.ofList_toList]

theorem next_word {c : Char} {cs word rest : List Char} (htext : word ++ rest = c :: cs)
    (hword : IsWord word) (hrest : ∀ d ∈ rest.head?, Text.isWordPart d = false) :
    next c cs =
      .ok (lexeme word (.word ⟨String.ofList word, false, Keyword.ofWord? word⟩), rest) := by
  obtain ⟨hstart, hall⟩ : Text.isWordStart c = true ∧ ∀ d ∈ word, Text.isWordPart d = true := by
    cases word with
    | nil => exact hword.elim
    | cons d ds =>
      obtain ⟨rfl, -⟩ := List.cons.inj htext
      exact ⟨hword.1, fun e he => hword.isWordPart he⟩
  have hne {d : Char} (hd : Text.isWordStart d = false) : c ≠ d := by
    rintro rfl
    rw [hd] at hstart
    cases hstart
  have hblank : ¬Text.isBlank c = true := by
    intro hc
    have hpart := Text.isWordPart_of_isBlank hc
    rw [Text.isWordPart_of_isWordStart hstart] at hpart
    cases hpart
  have hcomment : ¬startsComment (c :: cs) = true := by
    unfold startsComment
    split
    · next heq => exact absurd (List.cons.inj heq).1 (hne (by decide))
    · exact Bool.false_ne_true
  have hdigit : ¬c.isDigit = true := by
    intro hc
    have hdigits : ∀ d ∈ ['0', '1', '2', '3', '4', '5', '6', '7', '8', '9'],
        Text.isWordStart d = false := by decide
    rw [hdigits c (Text.mem_digits_of_isDigit hc)] at hstart
    cases hstart
  unfold next
  dsimp only
  rw [if_neg hblank, if_neg hcomment, if_neg (hne (by decide)), if_neg (hne (by decide)),
    sign?_wordStart hstart]
  dsimp only
  rw [if_neg (hne (by decide)), if_neg hdigit, if_pos hstart, ← htext, takeWhile_run hall hrest,
    dropWhile_run hall hrest]

/-- **The lexer cuts off exactly the segments that stand before something that does not continue
them.** -/
theorem next_eq_ok_iff {c : Char} {cs rest : List Char} {segment : Segment} :
    next c cs = .ok (segment, rest) ↔ segment.text ++ rest = c :: cs ∧ segment.Before rest := by
  refine ⟨fun h => ⟨next_append h, before_of_next h⟩, ?_⟩
  rintro ⟨htext, hbefore⟩
  cases hbefore with
  | blanks hne hall hrest => exact next_blanks htext hne hall hrest
  | comment hall hrest =>
    cases htext
    exact next_comment hall hrest
  | @token token spelling _ hlexed hspelling hrest =>
    match token, hlexed with
    | .sign s, _ => exact next_sign htext hspelling hrest
    | .string value, _ =>
      cases List.mem_singleton.mp hspelling
      have hnext : ∀ cs, next '\'' cs = quoted '\'' .string cs := fun _ => rfl
      exact next_quoted hnext htext fun d hd => by simpa [Token.isContinuedBy] using hrest d hd
    | .number digits, hlexed =>
      cases List.mem_singleton.mp hspelling
      exact next_number htext hlexed fun d hd => isContinuedBy_number.mp (hrest d hd)
    | .word ⟨value, true, keyword⟩, hkeyword =>
      cases (show keyword = none from hkeyword)
      cases List.mem_singleton.mp hspelling
      have hnext : ∀ cs, next '"' cs = quoted '"' (fun value => .word ⟨value, true, none⟩) cs :=
        fun _ => rfl
      exact next_quoted hnext htext fun d hd => by simpa [Token.isContinuedBy] using hrest d hd
    | .word ⟨value, false, keyword⟩, hlexed =>
      obtain ⟨hword, rfl⟩ : IsWord value.toList ∧ keyword = Keyword.ofWord? value.toList := hlexed
      cases List.mem_singleton.mp hspelling
      change value.toList ++ rest = c :: cs at htext
      have hnext := next_word htext hword fun d hd => by simpa [Token.isContinuedBy] using hrest d hd
      rwa [String.ofList_toList] at hnext

/-! ## Segments stand on their own -/

theorem head?_of_append {p : Char → Prop} {xs ys : List Char} (h : ∀ c ∈ (xs ++ ys).head?, p c) :
    ∀ c ∈ xs.head?, p c := by
  cases xs with
  | nil => exact fun c hc => by cases hc
  | cons x xs => exact h

/-- The text of a lexeme ends in a character that is no blank. -/
theorem Before.last_of_lexeme {text rest : List Char} {token : Token}
    (h : (lexeme text token).Before rest) : ∃ cs c, text = cs ++ [c] ∧ Text.isBlank c = false := by
  cases h with
  | token hlexed htext =>
    rcases Token.mem_spellings htext with rfl | rfl | rfl
    · exact spelling_last hlexed
    · exact ⟨['='], '=', rfl, by decide⟩
    · exact ⟨['<'], '>', rfl, by decide⟩

/-- A segment stays what it is when the text after it is cut short. -/
theorem Before.of_append {segment : Segment} {xs ys : List Char} (h : segment.Before (xs ++ ys)) :
    segment.Before xs := by
  cases h with
  | blanks hne hall hrest => exact .blanks hne hall (head?_of_append hrest)
  | comment hall hrest => exact .comment hall (head?_of_append hrest)
  | token hlexed htext hrest => exact .token hlexed htext (head?_of_append hrest)

theorem Before.lexed {text rest : List Char} {token : Token}
    (h : (lexeme text token).Before rest) : token.Lexed := by
  cases h with
  | token hlexed => exact hlexed

end Segment
end Sql
end SqlPipeline
