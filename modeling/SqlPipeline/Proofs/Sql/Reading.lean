import SqlPipeline.Proofs.Sql.Grammar

/-!
# What parsers read

`Parser.Reads p ts a rest` says that the parser `p` reads `a` from the front of `ts` and leaves
`rest`. Each step parsers are made of has a rule that says when it reads what.

A parser is described by `Parser.Parses p Spelled GoesOn`: what it reads was spelled by the tokens
it took, and whatever is spelled it reads, provided the tokens after that do not go on. The parsers
of names and lists are described here once for all statements.
-/

namespace SqlPipeline.Sql

def AllLexed (ts : List Located) : Prop :=
  ∀ t ∈ ts, t.token.Lexed

theorem AllLexed.of_append {used rest : List Located} (h : AllLexed (used ++ rest)) :
    AllLexed rest :=
  fun t ht => h t (List.mem_append_right used ht)

theorem AllLexed.tail {t : Located} {rest : List Located} (h : AllLexed (t :: rest)) :
    AllLexed rest :=
  fun u hu => h u (List.mem_cons_of_mem t hu)

def tokensOf (ts : List Located) : List Token :=
  ts.map (·.token)

section TokensOf

variable {ts rest : List Located} {t : Located} {tokens others : List Token} {token : Token}

@[simp] theorem tokensOf_nil : tokensOf [] = [] := rfl

@[simp] theorem tokensOf_cons : tokensOf (t :: ts) = t.token :: tokensOf ts := rfl

@[simp] theorem tokensOf_append : tokensOf (ts ++ rest) = tokensOf ts ++ tokensOf rest :=
  List.map_append

@[simp] theorem length_tokensOf : (tokensOf ts).length = ts.length :=
  List.length_map _

theorem tokensOf_eq_nil : tokensOf ts = [] ↔ ts = [] :=
  List.map_eq_nil_iff

theorem tokensOf_eq_cons : tokensOf ts = token :: tokens ↔
    ∃ t rest, ts = t :: rest ∧ t.token = token ∧ tokensOf rest = tokens :=
  List.map_eq_cons_iff

theorem tokensOf_eq_singleton : tokensOf ts = [token] ↔ ∃ t, ts = [t] ∧ t.token = token :=
  List.map_eq_singleton_iff

theorem tokensOf_eq_append : tokensOf ts = tokens ++ others ↔
    ∃ first rest, ts = first ++ rest ∧ tokensOf first = tokens ∧ tokensOf rest = others :=
  List.map_eq_append_iff

end TokensOf

/-- Whether the first token, if there is one, is not of a kind that goes on. -/
def Stops (GoesOn : Token → Prop) (tokens : List Token) : Prop :=
  ∀ token ∈ tokens.head?, ¬GoesOn token

theorem stops_nil {GoesOn : Token → Prop} : Stops GoesOn [] :=
  fun token h => by cases h

theorem stops_cons {GoesOn : Token → Prop} {token : Token} {tokens : List Token} :
    Stops GoesOn (token :: tokens) ↔ ¬GoesOn token :=
  ⟨fun h => h token rfl, fun h other hother => by cases hother; exact h⟩

theorem stops_tokensOf_cons {GoesOn : Token → Prop} {t : Located} {ts : List Located} :
    Stops GoesOn (tokensOf (t :: ts)) ↔ ¬GoesOn t.token :=
  stops_cons

theorem Stops.imp {GoesOn Other : Token → Prop} {tokens : List Token} (h : Stops GoesOn tokens)
    (himp : ∀ token, Other token → GoesOn token) : Stops Other tokens :=
  fun token htoken hother => h token htoken (himp token hother)

/-! ## Names, lists and clauses -/

section Spelling

def Ident.Spelled (name : Ident) (tokens : List Token) : Prop :=
  tokens = [name.token] ∧ name.IsName

/-- The names after the first in a dotted name, each after a period. -/
def Tail (names : List Ident) (tokens : List Token) : Prop :=
  tokens = tailTokens names ∧ ∀ name ∈ names, name.IsName

def ObjectName.Spelled (name : ObjectName) (tokens : List Token) : Prop :=
  tokens = dottedTokens name.parts ∧ name.parts ≠ [] ∧ ∀ part ∈ name.parts, part.IsName

variable {α : Type}

inductive Listed (Spelled : α → List Token → Prop) : List α → List Token → Prop where
  | one {a : α} {tokens : List Token} (h : Spelled a tokens) : Listed Spelled [a] tokens
  | cons {a : α} {as : List α} {tokens others : List Token} (h : Spelled a tokens)
      (hothers : Listed Spelled as others) :
      Listed Spelled (a :: as) (tokens ++ .sign .comma :: others)

inductive InParens (Spelled : α → List Token → Prop) : α → List Token → Prop where
  | mk {a : α} {tokens : List Token} (h : Spelled a tokens) :
      InParens Spelled a (.sign .leftParen :: (tokens ++ [.sign .rightParen]))

/-- Something after a keyword, or nothing. -/
inductive Clause (keyword : Keyword) (Spelled : α → List Token → Prop) :
    Option α → List Token → Prop where
  | none : Clause keyword Spelled none []
  | some {t : Token} {a : α} {tokens : List Token} (ht : t.keyword? = some keyword)
      (h : Spelled a tokens) : Clause keyword Spelled (some a) (t :: tokens)

/-- A name after `AS`, a word that is no keyword, or nothing. -/
inductive Aliased : Option Ident → List Token → Prop where
  | none : Aliased none []
  | as {t : Token} {name : Ident} (ht : t.keyword? = some .AS) (hname : name.IsName) :
      Aliased (some name) [t, name.token]
  | plain {name : Ident} (hname : name.IsName) (hplain : name.keyword? = none) :
      Aliased (some name) [name.token]

/-- Whether a token starts another name for what stands before it. -/
def Token.Names (t : Token) : Prop :=
  t.keyword? = some .AS ∨ ∃ w : Word, t = .word w ∧ w.keyword = none

/-- There is a comma for each item but one. -/
theorem Listed.length_le {Spelled : α → List Token → Prop} {as : List α} {tokens : List Token}
    (h : Listed Spelled as tokens) :
    as.length ≤ tokens.length + 1 := by
  induction h with
  | one h => simp
  | cons h _ ih =>
    simp only [List.length_cons, List.length_append]
    omega

end Spelling

namespace Parser

variable {α β : Type} {ts rest : List Located}

/-! ## Single steps -/

/-- The parser reads a value from the front of the tokens and leaves a rest. -/
def Reads (p : Parser α) (ts : List Located) (a : α) (rest : List Located) : Prop :=
  p.run ts = .ok (a, rest)

theorem reads_pure {a b : α} : Reads (pure a) ts b rest ↔ a = b ∧ ts = rest := by
  have hrun : (pure a : Parser α).run ts = .ok (a, ts) := rfl
  simp only [Reads, hrun, Except.ok.injEq, Prod.mk.injEq]

theorem reads_bind {p : Parser α} {next : α → Parser β} {b : β} :
    Reads (p >>= next) ts b rest ↔ ∃ a middle, Reads p ts a middle ∧ Reads (next a) middle b rest := by
  unfold Reads
  rw [StateT.run_bind]
  cases p.run ts with
  | error error => simp [bind, Except.bind]
  | ok found =>
    obtain ⟨a, middle⟩ := found
    constructor
    · exact fun h => ⟨a, middle, rfl, h⟩
    · rintro ⟨a', middle', heq, h⟩
      cases heq
      exact h

theorem Reads.run_bind {p : Parser α} {next : α → Parser β} {a : α} (h : Reads p ts a rest) :
    (p >>= next).run ts = (next a).run rest := by
  rw [StateT.run_bind, show p.run ts = .ok (a, rest) from h]
  rfl

theorem not_reads_throw {error : ParseError} {a : α} :
    ¬Reads (throw error : Parser α) ts a rest := by
  simp [Reads, throw, throwThe, MonadExceptOf.throw, StateT.lift, StateT.run, bind, Except.bind]

theorem not_reads_failAt {t : Located} {message : String} {a : α} :
    ¬Reads (failAt t message) ts a rest :=
  not_reads_throw

theorem not_reads_unexpected {expected : String} {a : α} :
    ¬Reads (unexpected expected) ts a rest := by
  cases ts with
  | nil =>
    have h : ∀ message, ¬Reads (throw ⟨message, none⟩ : Parser α) [] a rest :=
      fun message => not_reads_throw
    exact h _
  | cons t ts =>
    have h : ∀ message, ¬Reads (failAt t message) (t :: ts) a rest :=
      fun message => not_reads_failAt
    exact h _

theorem not_reads_outOfBudget {a : α} : ¬Reads outOfBudget ts a rest :=
  not_reads_throw

/-- A parser that looks at all tokens first. -/
theorem reads_get_bind {next : List Located → Parser α} {a : α} :
    Reads (get >>= next) ts a rest ↔ Reads (next ts) ts a rest :=
  Iff.rfl

theorem reads_set_bind {found : List Located} {next : PUnit → Parser α} {a : α} :
    Reads (set found >>= next) ts a rest ↔ Reads (next ⟨⟩) found a rest :=
  Iff.rfl

/-- A parser that looks at the next token first. -/
theorem reads_peek?_bind {next : Option Located → Parser α} {a : α} :
    Reads (peek? >>= next) ts a rest ↔ Reads (next ts.head?) ts a rest :=
  Iff.rfl

theorem reads_peek? {found : Option Located} :
    Reads peek? ts found rest ↔ found = ts.head? ∧ ts = rest := by
  rw [peek?, reads_get_bind, reads_pure, eq_comm]

theorem reads_lift {step : Except ParseError α} {a : α} :
    Reads (liftM step) ts a rest ↔ step = .ok a ∧ ts = rest := by
  cases step with
  | error error =>
    constructor
    · intro h
      cases h
    · rintro ⟨h, -⟩
      cases h
  | ok found =>
    constructor
    · intro h
      cases h
      exact ⟨rfl, rfl⟩
    · rintro ⟨h, rfl⟩
      cases h
      rfl

theorem reads_next {expected : String} {t : Located} :
    Reads (next expected) ts t rest ↔ ts = t :: rest := by
  rw [next, reads_get_bind]
  cases ts with
  | nil => simp [not_reads_unexpected]
  | cons u ts =>
    dsimp only
    rw [reads_set_bind, reads_pure, List.cons.injEq]

/-- A parser that takes the next token first. -/
theorem reads_next_bind {expected : String} {t : Located} {next : Located → Parser α} {a : α} :
    Reads (Parser.next expected >>= next) (t :: ts) a rest ↔ Reads (next t) ts a rest :=
  Iff.rfl

/-- A step that reads one fitting token if it comes next, and nothing if it does not. -/
theorem reads_optional_bind (Fits : Token → Prop) {p : Parser Bool} {next : Bool → Parser α} {a : α}
    (hfits : ∀ t left, Fits t.token → p.run (t :: left) = .ok (true, left))
    (hstops : ∀ ts : List Located, Stops Fits (tokensOf ts) → p.run ts = .ok (false, ts)) :
    Reads (p >>= next) ts a rest ↔
      (∃ t left, Fits t.token ∧ ts = t :: left ∧ Reads (next true) left a rest) ∨
        Stops Fits (tokensOf ts) ∧ Reads (next false) ts a rest := by
  have hrun {found : Bool} {left : List Located} (h : p.run ts = .ok (found, left)) :
      Reads (p >>= next) ts a rest ↔ Reads (next found) left a rest := by
    unfold Reads
    rw [StateT.run_bind, h]
    rfl
  by_cases h : Stops Fits (tokensOf ts)
  · rw [hrun (hstops ts h)]
    refine ⟨fun hnext => .inr ⟨h, hnext⟩, ?_⟩
    rintro (⟨t, left, hfit, rfl, -⟩ | ⟨-, hnext⟩)
    · exact absurd hfit (stops_cons.mp h)
    · exact hnext
  · cases ts with
    | nil => exact absurd stops_nil h
    | cons t left =>
      have hfit : Fits t.token := Classical.not_not.mp fun hnot => h (stops_cons.mpr hnot)
      rw [hrun (hfits t left hfit)]
      refine ⟨fun hnext => .inl ⟨t, left, hfit, rfl, hnext⟩, ?_⟩
      rintro (⟨_, _, -, heq, hnext⟩ | ⟨hnot, -⟩)
      · cases heq
        exact hnext
      · exact absurd hnot h

theorem reads_keyword?_bind {keyword : Keyword} {next : Bool → Parser α} {a : α} :
    Reads (keyword? keyword >>= next) ts a rest ↔
      (∃ t left, t.token.keyword? = some keyword ∧ ts = t :: left ∧ Reads (next true) left a rest) ∨
        Stops (·.keyword? = some keyword) (tokensOf ts) ∧ Reads (next false) ts a rest := by
  refine reads_optional_bind (·.keyword? = some keyword) (fun t left h => ?_) fun ts h => ?_
  · change (if t.token.keyword? = some keyword then _ else _ : Parser Bool) (t :: left) = _
    rw [if_pos h]
    rfl
  · cases ts with
    | nil => rfl
    | cons t left =>
      change (if t.token.keyword? = some keyword then _ else _ : Parser Bool) (t :: left) = _
      rw [if_neg (stops_cons.mp h)]
      rfl

theorem reads_sign?_bind {s : Sign} {next : Bool → Parser α} {a : α} :
    Reads (sign? s >>= next) ts a rest ↔
      (∃ t left, t.token = .sign s ∧ ts = t :: left ∧ Reads (next true) left a rest) ∨
        Stops (· = .sign s) (tokensOf ts) ∧ Reads (next false) ts a rest := by
  refine reads_optional_bind (· = .sign s) (fun t left h => ?_) fun ts h => ?_
  · change (if t.token = .sign s then _ else _ : Parser Bool) (t :: left) = _
    rw [if_pos h]
    rfl
  · cases ts with
    | nil => rfl
    | cons t left =>
      change (if t.token = .sign s then _ else _ : Parser Bool) (t :: left) = _
      rw [if_neg (stops_cons.mp h)]
      rfl

theorem reads_sign? {s : Sign} {found : Bool} :
    Reads (sign? s) ts found rest ↔
      (∃ t left, t.token = .sign s ∧ ts = t :: left ∧ true = found ∧ left = rest) ∨
        Stops (· = .sign s) (tokensOf ts) ∧ false = found ∧ ts = rest := by
  rw [← bind_pure (sign? s), reads_sign?_bind]
  simp only [reads_pure]

/-- A choice by whether a keyword comes next. -/
theorem reads_ifKeyword {keyword : Keyword} {p q : Parser α} {a : α} :
    Reads (do if ← keyword? keyword then p else q) ts a rest ↔
      (∃ t left, t.token.keyword? = some keyword ∧ ts = t :: left ∧ Reads p left a rest) ∨
        Stops (·.keyword? = some keyword) (tokensOf ts) ∧ Reads q ts a rest :=
  reads_keyword?_bind

/-- A choice by whether a sign comes next. -/
theorem reads_ifSign {s : Sign} {p q : Parser α} {a : α} :
    Reads (do if ← sign? s then p else q) ts a rest ↔
      (∃ t left, t.token = .sign s ∧ ts = t :: left ∧ Reads p left a rest) ∨
        Stops (· = .sign s) (tokensOf ts) ∧ Reads q ts a rest :=
  reads_sign?_bind

theorem reads_expectKeyword {keyword : Keyword} {u : Unit} :
    Reads (expectKeyword keyword) ts u rest ↔
      ∃ t, t.token.keyword? = some keyword ∧ ts = t :: rest := by
  simp [expectKeyword, reads_keyword?_bind, reads_pure, not_reads_unexpected]

theorem reads_expectSign {s : Sign} {u : Unit} :
    Reads (expectSign s) ts u rest ↔ ∃ t, t.token = .sign s ∧ ts = t :: rest := by
  simp [expectSign, reads_sign?_bind, reads_pure, not_reads_unexpected]

/-! ## Parsers and grammar -/

/-- What a parser reads is spelled by the tokens it takes; and whatever is spelled it reads, if the
tokens after that do not go on. -/
structure Parses (p : Parser α) (Spelled : α → List Token → Prop) (GoesOn : Token → Prop) :
    Prop where
  sound {ts rest : List Located} {a : α} : AllLexed ts → Reads p ts a rest →
    ∃ used, ts = used ++ rest ∧ Spelled a (tokensOf used)
  complete {used rest : List Located} {a : α} : Spelled a (tokensOf used) →
    Stops GoesOn (tokensOf rest) → Reads p (used ++ rest) a rest

/-! ### Names -/

theorem identOf_eq_ok_iff {t : Located} {name : Ident} (h : t.token.Lexed) :
    identOf t = .ok name ↔ t.token = name.token ∧ name.IsName := by
  obtain ⟨token, offset⟩ := t
  cases token with
  | word w =>
    have htoken := Ident.token_of_lexed h
    have hname : identOf ⟨.word w, offset⟩ = .ok name ↔
        (⟨w.value, w.quoted⟩ : Ident) = name ∧ (Token.word w).reserved? = none := by
      unfold identOf Token.reserved? Token.keyword?
      dsimp only
      split
      · next keyword hkeyword => cases hreserved : keyword.isReserved <;> simp [hkeyword, hreserved]
      · next hkeyword => simp [hkeyword]
    rw [hname]
    constructor
    · rintro ⟨rfl, hfree⟩
      rw [← htoken] at h hfree
      exact ⟨htoken.symm, Ident.lexed_token_iff.mp h, hfree⟩
    · rintro ⟨heq, -, hfree⟩
      change Token.word w = name.token at heq
      exact ⟨Ident.token_inj (htoken.trans heq), heq ▸ hfree⟩
  | number _ | string _ | sign _ =>
    refine ⟨fun h => ?_, fun h => ?_⟩
    · cases h
    · cases h.1

theorem identOf_of_name {t : Located} {name : Ident} (h : t.token = name.token)
    (hname : name.IsName) : identOf t = .ok name :=
  (identOf_eq_ok_iff (h ▸ Ident.lexed_token_iff.mpr hname.1)).mpr ⟨h, hname⟩

theorem parses_ident : Parses ident Ident.Spelled fun _ => False where
  sound {ts rest name} hlexed h := by
    rw [ident, reads_bind] at h
    obtain ⟨t, middle, ht, h⟩ := h
    cases reads_next.mp ht
    obtain ⟨hname, rfl⟩ := reads_lift.mp h
    obtain ⟨htoken, hname⟩ := (identOf_eq_ok_iff (hlexed t List.mem_cons_self)).mp hname
    exact ⟨[t], rfl, congrArg (fun token => [token]) htoken, hname⟩
  complete {used rest name} := by
    rintro ⟨hused, hname⟩ -
    obtain ⟨t, rfl, htoken⟩ := tokensOf_eq_singleton.mp hused
    rw [ident, reads_bind]
    exact ⟨t, rest, reads_next.mpr rfl, reads_lift.mpr ⟨identOf_of_name htoken hname, rfl⟩⟩

theorem dottedTail_sound : ∀ {ts rest : List Located} {names : List Ident}, AllLexed ts →
    dottedTail ts = .ok (names, rest) →
      ∃ used, ts = used ++ rest ∧ Tail names (tokensOf used)
  | [], rest, names, _, h => by
    cases h
    exact ⟨[], rfl, rfl, fun name hname => by cases hname⟩
  | t :: ts, rest, names, hlexed, h => by
    rw [dottedTail.eq_def] at h
    dsimp only at h
    split at h
    · next hperiod =>
      match ts with
      | [] => exact absurd h not_reads_unexpected
      | name :: ts =>
        dsimp only at h
        cases hident : identOf name with
        | error error => rw [hident] at h; cases h
        | ok first =>
          rw [hident] at h
          cases htail : dottedTail ts with
          | error error =>
            change (dottedTail ts >>= _) = _ at h
            rw [htail] at h
            cases h
          | ok found =>
            change (dottedTail ts >>= _) = _ at h
            rw [htail] at h
            cases h
            obtain ⟨used, rfl, htokens, hnames⟩ := dottedTail_sound hlexed.tail.tail htail
            obtain ⟨htoken, hname⟩ := (identOf_eq_ok_iff (hlexed name (by simp))).mp hident
            refine ⟨t :: name :: used, rfl, ?_, by simpa [hname] using hnames⟩
            simp only [tokensOf_cons, hperiod, htoken, htokens]
            rfl
    · cases h
      exact ⟨[], rfl, rfl, fun name hname => by cases hname⟩

theorem dottedTail_complete : ∀ {names : List Ident} {used rest : List Located},
    Tail names (tokensOf used) → Stops (· = .sign .period) (tokensOf rest) →
      dottedTail (used ++ rest) = .ok (names, rest)
  | [], used, rest, ⟨hused, _⟩, hstops => by
    cases tokensOf_eq_nil.mp hused
    cases rest with
    | nil => rfl
    | cons t rest =>
      rw [List.nil_append, dottedTail.eq_def]
      dsimp only
      rw [if_neg (stops_cons.mp hstops)]
  | name :: names, used, rest, ⟨hused, hnames⟩, hstops => by
    obtain ⟨t, used, rfl, hperiod, hused⟩ := tokensOf_eq_cons.mp hused
    obtain ⟨u, used, rfl, htoken, hused⟩ := tokensOf_eq_cons.mp hused
    have htail := dottedTail_complete ⟨hused, fun n hn => hnames n (List.mem_cons_of_mem name hn)⟩ hstops
    rw [List.cons_append, List.cons_append, dottedTail.eq_def]
    dsimp only
    rw [if_pos hperiod, identOf_of_name htoken (hnames name List.mem_cons_self), htail]
    rfl

theorem parses_dottedTail : Parses dottedTail Tail (· = .sign .period) :=
  ⟨dottedTail_sound, dottedTail_complete⟩

theorem parses_objectName : Parses objectName ObjectName.Spelled (· = .sign .period) where
  sound {ts rest name} hlexed h := by
    simp only [objectName, reads_bind, reads_pure] at h
    obtain ⟨first, middle, hfirst, others, last, hothers, rfl, rfl⟩ := h
    obtain ⟨used, rfl, hused, hname⟩ := parses_ident.sound hlexed hfirst
    obtain ⟨more, rfl, hmore, hnames⟩ := parses_dottedTail.sound hlexed.of_append hothers
    refine ⟨used ++ more, (List.append_assoc _ _ _).symm, ?_, List.cons_ne_nil _ _, ?_⟩
    · rw [tokensOf_append, hused, hmore]
      rfl
    · simpa [hname] using hnames
  complete {used rest name} := by
    rintro ⟨hused, hne, hnames⟩ hstops
    obtain ⟨parts⟩ := name
    obtain ⟨first, others, rfl⟩ := List.exists_cons_of_ne_nil hne
    obtain ⟨t, used, rfl, htoken, hused⟩ := tokensOf_eq_cons.mp hused
    have hfirst : Reads ident ([t] ++ (used ++ rest)) first (used ++ rest) :=
      parses_ident.complete ⟨congrArg (fun token => [token]) htoken, hnames first (by simp)⟩
        fun _ _ h => h
    have hothers := parses_dottedTail.complete
      ⟨hused, fun name hname => hnames name (List.mem_cons_of_mem first hname)⟩ hstops
    simp only [objectName, reads_bind, reads_pure]
    exact ⟨first, _, hfirst, others, _, hothers, rfl, rfl⟩

/-! ### Lists -/

section Lists

variable {item : Parser α} {Spelled : α → List Token → Prop} {GoesOn : Token → Prop}

theorem commaListWithin_sound (hitem : Parses item Spelled GoesOn) :
    ∀ {budget : Nat} {ts rest : List Located} {as : List α}, AllLexed ts →
      Reads (commaListWithin item budget) ts as rest →
        ∃ used, ts = used ++ rest ∧ Listed Spelled as (tokensOf used)
  | 0, _, _, _, _, h => absurd h not_reads_outOfBudget
  | budget + 1, ts, rest, as, hlexed, h => by
    simp only [commaListWithin, reads_bind, ↓reads_ifSign, reads_pure] at h
    obtain ⟨a, middle, ha, ⟨t, left, hcomma, rfl, others, last, hothers, rfl, rfl⟩ |
      ⟨-, rfl, rfl⟩⟩ := h
    · obtain ⟨used, rfl, hused⟩ := hitem.sound hlexed ha
      obtain ⟨more, rfl, hmore⟩ := commaListWithin_sound hitem hlexed.of_append.tail hothers
      refine ⟨used ++ t :: more, by simp, ?_⟩
      rw [tokensOf_append, tokensOf_cons, hcomma]
      exact .cons hused hmore
    · obtain ⟨used, rfl, hused⟩ := hitem.sound hlexed ha
      exact ⟨used, rfl, .one hused⟩

theorem commaListWithin_complete (hitem : Parses item Spelled GoesOn)
    (hcomma : ¬GoesOn (.sign .comma)) {rest : List Located}
    (hstops : Stops (fun t => GoesOn t ∨ t = .sign .comma) (tokensOf rest)) {as : List α}
    {tokens : List Token} (h : Listed Spelled as tokens) :
    ∀ {budget : Nat} {used : List Located}, tokensOf used = tokens → as.length ≤ budget →
      Reads (commaListWithin item budget) (used ++ rest) as rest := by
  induction h with
  | @one a tokens h =>
    intro budget used hused hbudget
    obtain ⟨budget, rfl⟩ : ∃ left, budget = left + 1 := ⟨budget - 1, by simp at hbudget; omega⟩
    have ha := hitem.complete (hused.symm ▸ h) (hstops.imp fun t ht => .inl ht)
    simp only [commaListWithin, reads_bind, ↓reads_ifSign, reads_pure]
    exact ⟨a, rest, ha, .inr ⟨hstops.imp fun t ht => .inr ht, rfl, rfl⟩⟩
  | @cons a as tokens others h _ ih =>
    intro budget used hused hbudget
    obtain ⟨budget, rfl⟩ : ∃ left, budget = left + 1 := ⟨budget - 1, by simp at hbudget; omega⟩
    obtain ⟨first, more, rfl, hfirst, hmore⟩ := tokensOf_eq_append.mp hused
    obtain ⟨t, more, rfl, ht, hmore⟩ := tokensOf_eq_cons.mp hmore
    have ha : Reads item (first ++ t :: (more ++ rest)) a (t :: (more ++ rest)) :=
      hitem.complete (hfirst.symm ▸ h) (stops_tokensOf_cons.mpr (by rwa [ht]))
    have hothers := ih hmore (Nat.le_of_succ_le_succ hbudget)
    simp only [commaListWithin, reads_bind, ↓reads_ifSign, reads_pure, List.append_assoc,
      List.cons_append]
    exact ⟨a, _, ha, .inl ⟨t, _, ht, rfl, as, rest, hothers, rfl, rfl⟩⟩

theorem parses_commaList (hitem : Parses item Spelled GoesOn) (hcomma : ¬GoesOn (.sign .comma)) :
    Parses (commaList item) (Listed Spelled) fun t => GoesOn t ∨ t = .sign .comma where
  sound hlexed h := commaListWithin_sound hitem hlexed (reads_get_bind.mp h)
  complete {used rest as} h hstops := by
    refine reads_get_bind.mpr (commaListWithin_complete hitem hcomma hstops h rfl ?_)
    have hlength := h.length_le
    rw [length_tokensOf] at hlength
    rw [List.length_append]
    omega

theorem parses_parenthesized (hitem : Parses item Spelled GoesOn)
    (hcomma : ¬GoesOn (.sign .comma)) (hparen : ¬GoesOn (.sign .rightParen)) :
    Parses (parenthesized item) (InParens (Listed Spelled)) fun _ => False where
  sound {ts rest as} hlexed h := by
    simp only [parenthesized, reads_bind, reads_expectSign, reads_pure] at h
    obtain ⟨_, _, ⟨t, ht, rfl⟩, items, _, hitems, _, _, ⟨u, hu, rfl⟩, rfl, rfl⟩ := h
    obtain ⟨used, rfl, hused⟩ := (parses_commaList hitem hcomma).sound hlexed.tail hitems
    refine ⟨t :: (used ++ [u]), by simp, ?_⟩
    rw [tokensOf_cons, tokensOf_append, ht, tokensOf_cons, hu]
    exact .mk hused
  complete {used rest as} h _ := by
    generalize hused : tokensOf used = tokens at h
    obtain ⟨h⟩ := h
    obtain ⟨t, used, rfl, ht, hused⟩ := tokensOf_eq_cons.mp hused
    obtain ⟨inner, last, rfl, hinner, hlast⟩ := tokensOf_eq_append.mp hused
    obtain ⟨u, rfl, hu⟩ := tokensOf_eq_singleton.mp hlast
    have hitems : Reads (commaList item) (inner ++ u :: rest) as (u :: rest) :=
      (parses_commaList hitem hcomma).complete (hinner.symm ▸ h)
        (stops_tokensOf_cons.mpr (by simpa [hu] using hparen))
    simp only [parenthesized, reads_bind, reads_expectSign, reads_pure]
    exact ⟨(), _, ⟨t, ht, rfl⟩, as, u :: rest, by simpa using hitems, (), rest, ⟨u, hu, rfl⟩, rfl, rfl⟩

theorem parses_clause? (hitem : Parses item Spelled GoesOn) (keyword : Keyword) :
    Parses (clause? keyword item) (Clause keyword Spelled)
      fun t => GoesOn t ∨ t.keyword? = some keyword where
  sound {ts rest found} hlexed h := by
    unfold clause? at h
    simp only [↓reads_ifKeyword, reads_bind, reads_pure] at h
    obtain ⟨t, left, ht, rfl, a, middle, ha, rfl, rfl⟩ | ⟨-, rfl, rfl⟩ := h
    · obtain ⟨used, rfl, hused⟩ := hitem.sound hlexed.tail ha
      exact ⟨t :: used, rfl, .some ht hused⟩
    · exact ⟨[], rfl, .none⟩
  complete {used rest found} h hstops := by
    generalize hused : tokensOf used = tokens at h
    unfold clause?
    simp only [↓reads_ifKeyword, reads_bind, reads_pure]
    cases h with
    | none =>
      cases tokensOf_eq_nil.mp hused
      exact .inr ⟨hstops.imp fun t ht => .inr ht, rfl, rfl⟩
    | @some t a tokens ht h =>
      obtain ⟨u, used, rfl, rfl, rfl⟩ := tokensOf_eq_cons.mp hused
      have ha := hitem.complete h (hstops.imp fun t ht => .inl ht)
      exact .inl ⟨u, used ++ rest, ht, rfl, a, rest, ha, rfl, rfl⟩

end Lists

theorem parses_alias? : Parses alias? Aliased Token.Names where
  sound {ts rest found} hlexed h := by
    unfold alias? at h
    simp only [↓reads_ifKeyword, reads_bind, reads_pure, reads_peek?] at h
    obtain ⟨t, left, ht, rfl, name, _, hname, rfl, rfl⟩ | ⟨-, _, _, ⟨rfl, rfl⟩, h⟩ := h
    · obtain ⟨used, rfl, hused, hname⟩ := parses_ident.sound hlexed.tail hname
      refine ⟨t :: used, rfl, ?_⟩
      rw [tokensOf_cons, hused]
      exact .as ht hname
    · split at h
      · next value quoted offset hhead =>
        obtain ⟨name, _, hname, h⟩ := reads_bind.mp h
        obtain ⟨rfl, rfl⟩ := reads_pure.mp h
        obtain ⟨used, rfl, hused, hisName⟩ := parses_ident.sound hlexed hname
        obtain ⟨t, rfl, ht⟩ := tokensOf_eq_singleton.mp hused
        cases hhead
        refine ⟨_, rfl, ?_⟩
        rw [hused]
        refine .plain hisName ?_
        injection ht with ht
        exact (congrArg Word.keyword ht).symm
      · obtain ⟨rfl, rfl⟩ := reads_pure.mp h
        exact ⟨[], rfl, .none⟩
  complete {used rest found} h hstops := by
    generalize hused : tokensOf used = tokens at h
    unfold alias?
    simp only [↓reads_ifKeyword, reads_bind, reads_pure, reads_peek?]
    cases h with
    | none =>
      cases tokensOf_eq_nil.mp hused
      refine .inr ⟨hstops.imp fun t ht => .inl ht, _, _, ⟨rfl, rfl⟩, ?_⟩
      cases rest with
      | nil => exact reads_pure.mpr ⟨rfl, rfl⟩
      | cons t rest =>
        split
        · next value quoted offset heq =>
          cases heq
          exact absurd (.inr ⟨_, rfl, rfl⟩) (stops_tokensOf_cons.mp hstops)
        · exact reads_pure.mpr ⟨rfl, rfl⟩
    | @as t name ht hname =>
      obtain ⟨u, used, rfl, rfl, hother⟩ := tokensOf_eq_cons.mp hused
      have hident : Reads ident (used ++ rest) name rest :=
        parses_ident.complete ⟨hother, hname⟩ fun _ _ h => h
      exact .inl ⟨u, used ++ rest, ht, rfl, name, rest, hident, rfl, rfl⟩
    | @plain name hname hplain =>
      have hident : Reads ident (used ++ rest) name rest :=
        parses_ident.complete ⟨hused, hname⟩ fun _ _ h => h
      obtain ⟨t, rfl, ht⟩ := tokensOf_eq_singleton.mp hused
      refine .inr ⟨?_, _, _, ⟨rfl, rfl⟩, ?_⟩
      · refine stops_tokensOf_cons.mpr ?_
        rw [ht]
        change ¬name.keyword? = some Keyword.AS
        rw [hplain]
        exact nofun
      · obtain ⟨token, offset⟩ := t
        change token = name.token at ht
        rw [ht, Ident.token, hplain] at hident ⊢
        exact reads_bind.mpr ⟨name, rest, hident, reads_pure.mpr ⟨rfl, rfl⟩⟩

end Parser
end SqlPipeline.Sql
