import SqlPipeline.Aggregate
import SqlPipeline.Proofs.Result
import SqlPipeline.Proofs.Sql.Spellings

/-!
# Binding and letter case

Expressions that differ only in the letter case of names without quotes are bound to the same: such
a name is looked up by its lower case, and a computed column by a text without regard to letter case
(`Bound.bind_eq_ok_of_spelledAlike`). So are the arguments of calls of aggregates
(`Aggregate.ofCall?_of_spelledAlike`). Only the messages of errors may show other letters.
-/

namespace SqlPipeline

/-! ## Texts and names -/

namespace Text

theorem folded_folded (s : String) : folded (folded s) = folded s := by
  apply String.toList_injective
  rw [toList_folded, toList_folded, List.map_map]
  exact List.map_congr_left fun c _ => toLower_toLower c

theorem folded_join (separator : String) :
    ∀ texts : List String, folded (join separator texts) =
      join (folded separator) (texts.map folded)
  | [] => rfl
  | [_] => rfl
  | text :: next :: rest => by
    have hrest := folded_join separator (next :: rest)
    simp only [join, List.map_cons, folded_append] at hrest ⊢
    rw [hrest]

end Text

namespace Sql

namespace Ident

theorem key_caseless (name : Ident) : name.caseless.key = name.key := by
  obtain ⟨value, quoted⟩ := name
  cases quoted with
  | true => rfl
  | false => exact Text.lower_folded value

theorem folded_text_caseless (name : Ident) :
    Text.folded name.caseless.text = Text.folded name.text := by
  obtain ⟨value, quoted⟩ := name
  cases quoted with
  | true => rfl
  | false => exact Text.folded_folded value

end Ident

mutual

theorem Expr.folded_text_caseless : ∀ e : Expr,
    Text.folded (e.respelled .caseless).text = Text.folded e.text
  | .ident name => name.folded_text_caseless
  | .qualified parts => by
    have hparts : ((parts.map Ident.caseless).map Ident.text).map Text.folded =
        (parts.map Ident.text).map Text.folded := by
      rw [List.map_map, List.map_map, List.map_map]
      exact List.map_congr_left fun name _ => name.folded_text_caseless
    show Text.folded (dotted (parts.map Ident.caseless)) = Text.folded (dotted parts)
    rw [dotted, dotted, Text.folded_join, Text.folded_join, hparts]
  | .literal value => by cases value <;> rfl
  | .unary op operand => by
    simp only [Expr.respelled, Expr.text, Text.folded_append, operand.folded_text_caseless]
  | .binary left op right => by
    simp only [Expr.respelled, Expr.text, Text.folded_append, left.folded_text_caseless,
      right.folded_text_caseless]
  | .isNull operand negated => by
    cases negated <;>
      simp only [Expr.respelled, Expr.text, Text.folded_append, operand.folded_text_caseless]
  | .call function args => by
    have hkey : (Respelling.caseless.function function).key = function.key := function.key_caseless
    simp only [Expr.respelled, Expr.text, Text.folded_append, hkey, args.folded_text_caseless]
  | .nested inner => by
    simp only [Expr.respelled, Expr.text, Text.folded_append, inner.folded_text_caseless]

theorem Args.folded_text_caseless : ∀ args : Args,
    Text.folded (args.respelled .caseless).text = Text.folded args.text
  | .nil => rfl
  | .star rest => by
    have hrest := rest.folded_text_caseless
    cases rest with
    | nil => rfl
    | star _ | value _ _ =>
      simp only [Args.respelled, Args.text, Text.folded_append] at hrest ⊢
      rw [hrest]
  | .value arg rest => by
    have harg := arg.folded_text_caseless
    have hrest := rest.folded_text_caseless
    cases rest with
    | nil => exact harg
    | star _ | value _ _ =>
      simp only [Args.respelled, Args.text, Text.folded_append] at hrest ⊢
      rw [harg, hrest]

end

theorem Args.length_respelled (r : Respelling) : ∀ args : Args,
    (args.respelled r).length = args.length
  | .nil => rfl
  | .star rest | .value _ rest => congrArg (· + 1) (rest.length_respelled r)

end Sql

open Sql (Expr Args)

/-! ## Binding -/

namespace Layout

theorem computed?_congr (layout : Layout) {text other : String}
    (h : Text.folded text = Text.folded other) :
    layout.computed? text = layout.computed? other := by
  unfold computed? Text.sameAsciiCase
  rw [show Text.asciiLower text = Text.asciiLower other from String.ofList_injective h]

end Layout

namespace Bound

variable {layout : Layout}

theorem ofQualified_caseless (parts : List Sql.Ident) (bound : Bound) :
    ofQualified layout (parts.map Sql.Ident.caseless) = .ok bound ↔
      ofQualified layout parts = .ok bound := by
  unfold ofQualified
  rw [← List.map_reverse]
  match parts.reverse with
  | [] | [_] => simp
  | name :: relation :: _ =>
    simp only [List.map_cons, Sql.Ident.key_caseless]

theorem functionOf_caseless (name : Sql.Ident) (count : Nat) (text other : String)
    (function : Function) :
    functionOf name.caseless count other = .ok function ↔
      functionOf name count text = .ok function := by
  unfold functionOf
  rw [Sql.Ident.key_caseless]
  split
  · simp
  · split
    · simp
    · split <;> simp

mutual

theorem bind_caseless : ∀ (e : Expr) (bound : Bound),
    bind layout (e.respelled .caseless) = .ok bound ↔ bind layout e = .ok bound
  | .ident name, bound => by
    have hkey : (Sql.Respelling.caseless.name name).key = name.key := name.key_caseless
    rw [Expr.respelled, bind, bind, hkey]
  | .qualified parts, bound => ofQualified_caseless parts bound
  | .literal value, bound => by cases value <;> rfl
  | .unary op operand, bound => by
    have htext := (Expr.unary op operand).folded_text_caseless
    rw [Expr.respelled] at htext ⊢
    rw [bind, bind, layout.computed?_congr htext]
    cases layout.computed? (Expr.unary op operand).text with
    | some position => rfl
    | none => simp only [Result.bind_eq_ok, bind_caseless operand]
  | .binary left op right, bound => by
    have htext := (Expr.binary left op right).folded_text_caseless
    rw [Expr.respelled] at htext ⊢
    rw [bind, bind, layout.computed?_congr htext]
    cases layout.computed? (Expr.binary left op right).text with
    | some position => rfl
    | none => simp only [Result.bind_eq_ok, bind_caseless left, bind_caseless right]
  | .isNull operand negated, bound => by
    have htext := (Expr.isNull operand negated).folded_text_caseless
    rw [Expr.respelled] at htext ⊢
    rw [bind, bind, layout.computed?_congr htext]
    cases layout.computed? (Expr.isNull operand negated).text with
    | some position => rfl
    | none => simp only [Result.bind_eq_ok, bind_caseless operand]
  | .nested inner, bound => by
    have htext := (Expr.nested inner).folded_text_caseless
    rw [Expr.respelled] at htext ⊢
    rw [bind, bind, layout.computed?_congr htext]
    cases layout.computed? (Expr.nested inner).text with
    | some position => rfl
    | none => exact bind_caseless inner bound
  | .call name args, bound => by
    have htext := (Expr.call name args).folded_text_caseless
    rw [Expr.respelled] at htext ⊢
    rw [bind, bind, layout.computed?_congr htext, Args.length_respelled]
    cases layout.computed? (Expr.call name args).text with
    | some position => rfl
    | none =>
      have hfunction (function : Function) :=
        functionOf_caseless name args.length (Expr.call name args).text
          (Expr.call name.caseless (args.respelled .caseless)).text function
      have hargs (bounds : List Bound) :=
        bindArgs_caseless args (Expr.call name args).text
          (Expr.call name.caseless (args.respelled .caseless)).text bounds
      simp only [Result.bind_eq_ok]
      exact exists_congr fun function => and_congr (hfunction function)
        (exists_congr fun bounds => and_congr_left fun _ => hargs bounds)

theorem bindArgs_caseless : ∀ (args : Args) (text other : String) (bounds : List Bound),
    bindArgs layout other (args.respelled .caseless) = .ok bounds ↔
      bindArgs layout text args = .ok bounds
  | .nil, _, _, _ => Iff.rfl
  | .star _, _, _, _ => by simp [Args.respelled, bindArgs]
  | .value arg rest, text, other, bounds => by
    simp only [Args.respelled, bindArgs, Result.bind_eq_ok, bind_caseless arg,
      bindArgs_caseless rest text other]

end

/-- Expressions spelled alike are bound to the same. -/
theorem bind_eq_ok_of_spelledAlike {e other : Expr} {bound : Bound} (h : e.SpelledAlike other)
    (hother : bind layout other = .ok bound) : bind layout e = .ok bound := by
  rw [← bind_caseless, h, bind_caseless]
  exact hother

end Bound

namespace Aggregate

variable {layout : Layout}

/-- What a call of an aggregate computes. -/
inductive Calls (layout : Layout) (name : Sql.Ident) : Args → Aggregate → Prop
  | rows {text : String} (hname : AggregateFunction.ofName? name.key = some .count) :
    Calls layout name (.star .nil) ⟨.count, none, text⟩
  | values {function : AggregateFunction} {arg : Expr} {bound : Bound} {text : String}
    (hname : AggregateFunction.ofName? name.key = some function)
    (harg : Bound.bind layout arg = .ok bound) :
    Calls layout name (.value arg .nil) ⟨function, some bound, text⟩

theorem ofCall?_eq_some_iff {e : Expr} {aggregate : Aggregate} :
    ofCall? layout e = .ok (some aggregate) ↔ aggregate.name = e.text ∧
      ∃ name args, e = .call name args ∧ Calls layout name args aggregate := by
  constructor
  · intro h
    match e, h with
    | .call name args, h =>
      rw [ofCall?] at h
      split at h
      · cases h
      · next function hname =>
        split at h
        · cases h
          exact ⟨rfl, name, _, rfl, .rows hname⟩
        · obtain ⟨bound, hbound, heq⟩ := Result.bind_eq_ok.mp h
          cases heq
          exact ⟨rfl, name, _, rfl, .values hname hbound⟩
        · cases h
  · rintro ⟨htext, name, args, rfl, h⟩
    cases h with
    | rows hname => rw [ofCall?, hname, ← htext]
    | @values function arg bound text hname harg =>
      have hcall : ofCall? layout (.call name (.value arg .nil)) =
          (Bound.bind layout arg >>= fun bound =>
            .ok (some ⟨function, some bound, (Expr.call name (.value arg .nil)).text⟩)) := by
        rw [ofCall?, hname]
        cases function <;> rfl
      rw [hcall, harg, ← htext]
      rfl

/-- A call of an aggregate, in other letters, is a call of the same aggregate. -/
theorem ofCall?_of_spelledAlike {e other : Expr} {aggregate : Aggregate}
    (h : e.SpelledAlike other) (hother : ofCall? layout other = .ok (some aggregate)) :
    ofCall? layout e = .ok (some { aggregate with name := e.text }) := by
  obtain ⟨-, name, args, rfl, hcalls⟩ := ofCall?_eq_some_iff.mp hother
  cases e with
  | call own ownArgs =>
    obtain ⟨hname, hargs⟩ := Expr.call.inj h
    have hkey : own.key = name.key := by
      rw [← own.key_caseless, ← name.key_caseless]
      exact congrArg Sql.Ident.key hname
    refine ofCall?_eq_some_iff.mpr ⟨rfl, own, ownArgs, rfl, ?_⟩
    cases hcalls with
    | rows hcount =>
      match ownArgs, hargs with
      | .star .nil, _ => exact .rows (hkey ▸ hcount)
    | values hfunction harg =>
      match ownArgs, hargs with
      | .value arg rest, hargs =>
        obtain ⟨halike, hrest⟩ := Args.value.inj hargs
        cases rest with
        | nil => exact .values (hkey ▸ hfunction) (Bound.bind_eq_ok_of_spelledAlike halike harg)
        | star _ | value _ _ => cases hrest
  | _ => cases h

end Aggregate
end SqlPipeline
