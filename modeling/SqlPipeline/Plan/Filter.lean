import SqlPipeline.Bound.Bind

/-!
# Splitting a condition

The parts of a condition that are joined by AND, and which of several layouts each of them can be
bound to. A part that can be bound to one layout only is evaluated there.
-/

namespace SqlPipeline

open Sql (Expr)

/-- The parts of a condition that must all be satisfied. Parentheses around them are dropped. -/
def conjuncts : Expr → List Expr
  | .binary left .and right => conjuncts left ++ conjuncts right
  | .nested inner => conjuncts inner
  | other => [other]

/-- The condition that all parts are satisfied, if there are any. -/
def conjoin : List Expr → Option Expr
  | [] => none
  | part :: parts => some (parts.foldl (fun left right => .binary left .and right) part)

def bindsTo (part : Expr) (layout : Layout) : Bool :=
  (Bound.bind layout part).toBool

/-- The positions of the layouts to which an expression can be bound. -/
def bindingPositions (layouts : List Layout) (part : Expr) : List Nat :=
  layouts.zipIdx.filterMap fun (layout, i) => if bindsTo part layout then some i else none

/-- The position of the only layout to which an expression can be bound. -/
def ownerOf (layouts : List Layout) (part : Expr) : Option Nat :=
  match bindingPositions layouts part with
  | [i] => some i
  | _ => none

/-- The part of a condition that is evaluated on the layout at a position. -/
def pushedTo (layouts : List Layout) (condition : Expr) (position : Nat) : Option Expr :=
  conjoin ((conjuncts condition).filter fun part => ownerOf layouts part = some position)

/-- The part of a condition that is evaluated on no single layout. -/
def residual (layouts : List Layout) (condition : Expr) : Option Expr :=
  conjoin ((conjuncts condition).filter fun part => ownerOf layouts part = none)

end SqlPipeline
