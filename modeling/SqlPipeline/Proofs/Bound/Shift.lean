import Mathlib.Data.List.Nodup
import SqlPipeline.Proofs.Bound.Holds

/-!
# Conditions on part of a row

The columns of a table are part of the columns of a join, and a row of the table is part of a row of
the join. An expression that can be bound to both layouts refers to the same columns in both, only
that they stand further back in the larger one (`Layout.PartOf.shift_of_bind`), and it has the same
value on the part as on the whole row (`Bound.eval_shift`). So **a condition that can be bound to a
part holds on a row exactly if it holds on that part of it** (`Layout.PartOf.holds_eq`).
-/

namespace SqlPipeline

open Sql (Expr Args)

/-! ## Expressions -/

namespace Bound

mutual

/-- The expression on rows that have so many further columns in front. -/
def shift (offset : Nat) : Bound → Bound
  | column position => column (offset + position)
  | literal value => literal value
  | unary op operand => unary op (operand.shift offset)
  | binary left op right => binary (left.shift offset) op (right.shift offset)
  | isNull operand negated => isNull (operand.shift offset) negated
  | call function args => call function (shiftAll offset args)

def shiftAll (offset : Nat) : List Bound → List Bound
  | [] => []
  | bound :: rest => bound.shift offset :: shiftAll offset rest

end

variable {row : Row}

mutual

/-- **The value on a part of a row is that of the shifted expression on the whole row.** -/
theorem eval_shift (before after : Row) :
    ∀ {bound : Bound}, bound.Within row.length →
      (bound.shift before.length).eval (before ++ row ++ after) = bound.eval row
  | column position, h => by
    have hposition : position < row.length := h
    have hfound : (before ++ row ++ after)[before.length + position]? = some row[position] := by
      rw [List.append_assoc, List.getElem?_append_right (by omega), Nat.add_sub_cancel_left,
        List.getElem?_append_left hposition, List.getElem?_eq_getElem hposition]
    simp only [shift, eval, hfound, List.getElem?_eq_getElem hposition]
  | literal value, _ => by simp only [shift, eval]
  | unary op operand, h => by
    have hoperand : operand.Within row.length := h
    simp only [shift, eval, eval_shift before after hoperand]
  | binary left op right, h => by
    simp only [shift, eval, eval_shift before after h.1, eval_shift before after h.2]
  | isNull operand negated, h => by
    have hoperand : operand.Within row.length := h
    simp only [shift, eval, eval_shift before after hoperand]
  | call function args, h => by
    have hargs : AllWithin row.length args := h
    simp only [shift, eval, evalAll_shift before after hargs]

theorem evalAll_shift (before after : Row) :
    ∀ {bounds : List Bound}, AllWithin row.length bounds →
      evalAll (before ++ row ++ after) (shiftAll before.length bounds) = evalAll row bounds
  | [], _ => rfl
  | bound :: rest, h => by
    simp only [shiftAll, evalAll, eval_shift before after h.1, evalAll_shift before after h.2]

end

theorem holds_shift (before after : Row) {bound : Bound} (h : bound.Within row.length) :
    (bound.shift before.length).holds (before ++ row ++ after) = bound.holds row := by
  simp only [holds, accepts, eval_shift before after h]

end Bound

/-! ## Layouts -/

namespace Layout

theorem positions_append (left right : Layout) (p : Column → Bool) :
    (left.append right).positions p =
      left.positions p ++ (right.positions p).map (left.width + ·) := by
  have hright : right.columns.zipIdx left.columns.length =
      right.columns.zipIdx.map fun entry => (entry.1, left.columns.length + entry.2) :=
    List.zipIdx_eq_map_add
  unfold positions append width
  rw [List.zipIdx_append, List.filterMap_append, Nat.zero_add, hright, List.filterMap_map,
    List.map_filterMap]
  congr 2
  funext entry
  by_cases h : p entry.1 = true
  · simp [h]
  · simp [h]

theorem resolve_eq_ok_iff {layout : Layout} {relation : Option String} {name : String} {i : Nat} :
    layout.resolve relation name = .ok i ↔ layout.positions (·.answers relation name) = [i] := by
  unfold resolve
  split <;> simp_all

theorem nodup_positions (layout : Layout) (p : Column → Bool) : (layout.positions p).Nodup := by
  have hfilter : layout.positions p =
      (layout.columns.zipIdx.filter fun entry => p entry.1).map Prod.snd := by
    unfold positions
    rw [← List.filterMap_eq_map, List.filterMap_filter]
    rfl
  have hsublist : (layout.positions p).Sublist (List.range' 0 layout.columns.length) := by
    rw [hfilter, ← List.zipIdx_map_snd]
    exact List.filter_sublist.map _
  exact List.Nodup.sublist hsublist List.nodup_range'

/-- A name means a column if that is the only one it can mean. -/
theorem resolve_eq_ok_iff_only {layout : Layout} {relation : Option String} {name : String}
    {i : Nat} : layout.resolve relation name = .ok i ↔
      (∃ column, layout.columns[i]? = some column ∧ column.answers relation name = true) ∧
        ∀ j column, layout.columns[j]? = some column → column.answers relation name = true →
          j = i := by
  rw [resolve_eq_ok_iff]
  constructor
  · intro h
    refine ⟨mem_positions_iff.mp (h ▸ List.mem_singleton_self i), fun j column hj hanswers => ?_⟩
    have hmem : j ∈ layout.positions (·.answers relation name) :=
      mem_positions_iff.mpr ⟨column, hj, hanswers⟩
    exact List.mem_singleton.mp (h ▸ hmem)
  · rintro ⟨hcolumn, honly⟩
    have hmem (j : Nat) : j ∈ layout.positions (·.answers relation name) ↔ j ∈ [i] := by
      rw [mem_positions_iff, List.mem_singleton]
      constructor
      · rintro ⟨column, hj, hanswers⟩
        exact honly j column hj hanswers
      · rintro rfl
        exact hcolumn
    exact List.perm_singleton.mp ((List.perm_ext_iff_of_nodup (nodup_positions layout _)
      (List.nodup_singleton i)).mpr hmem)

/-- The columns of `part` are those of `whole` from a position on. -/
def PartOf (offset : Nat) (part whole : Layout) : Prop :=
  ∃ before after : Layout, before.width = offset ∧ whole = (before.append part).append after

namespace PartOf

variable {offset : Nat} {part whole : Layout}

theorem stored (hpart : part.PartOf offset whole) (hwhole : whole.Stored) : part.Stored := by
  obtain ⟨before, after, -, rfl⟩ := hpart
  intro column hcolumn
  apply hwhole
  simp [append, hcolumn]

/-- A name that means one column of the part and one of the whole means the same in both. -/
theorem resolve_eq (hpart : part.PartOf offset whole) {relation : Option String} {name : String}
    {i j : Nat} (hi : part.resolve relation name = .ok i)
    (hj : whole.resolve relation name = .ok j) : j = offset + i := by
  obtain ⟨before, after, rfl, rfl⟩ := hpart
  rw [resolve_eq_ok_iff] at hi hj
  -- the column of the part is one of those the name means in the whole, and there is only one
  have hmem : before.width + i ∈ [j] := by
    rw [← hj, positions_append, positions_append, hi]
    simp
  exact (List.mem_singleton.mp hmem).symm

mutual

/-- **An expression that can be bound to the part and to the whole refers to the same columns.** -/
theorem shift_of_bind (hpart : part.PartOf offset whole) (hwhole : whole.Stored) :
    ∀ {expr : Expr} {bound other : Bound}, Bound.bind part expr = .ok bound →
      Bound.bind whole expr = .ok other → other = bound.shift offset
  | .ident name, bound, other, h, h' => by
    obtain ⟨i, hi, h⟩ := Result.bind_eq_ok.mp h
    obtain ⟨j, hj, h'⟩ := Result.bind_eq_ok.mp h'
    cases h
    cases h'
    rw [hpart.resolve_eq hi hj, Bound.shift]
  | .qualified parts, bound, other, h, h' => by
    rw [Bound.bind, Bound.ofQualified] at h h'
    cases hparts : parts.reverse with
    | nil => rw [hparts] at h; cases h
    | cons last front =>
      cases front with
      | nil => rw [hparts] at h; cases h
      | cons relation rest =>
        rw [hparts] at h h'
        obtain ⟨i, hi, h⟩ := Result.bind_eq_ok.mp h
        obtain ⟨j, hj, h'⟩ := Result.bind_eq_ok.mp h'
        cases h
        cases h'
        rw [hpart.resolve_eq hi hj, Bound.shift]
  | .literal value, bound, other, h, h' => by
    obtain ⟨found, hfound, h⟩ := Result.bind_eq_ok.mp h
    obtain ⟨found', hfound', h'⟩ := Result.bind_eq_ok.mp h'
    rw [hfound] at hfound'
    cases hfound'
    cases h
    cases h'
    rw [Bound.shift]
  | .unary op operand, bound, other, h, h' => by
    rw [Bound.bind, (hpart.stored hwhole).computed?_eq_none] at h
    rw [Bound.bind, hwhole.computed?_eq_none] at h'
    obtain ⟨inner, hinner, h⟩ := Result.bind_eq_ok.mp h
    obtain ⟨inner', hinner', h'⟩ := Result.bind_eq_ok.mp h'
    cases h
    cases h'
    rw [shift_of_bind hpart hwhole hinner hinner', Bound.shift]
  | .binary left op right, bound, other, h, h' => by
    rw [Bound.bind, (hpart.stored hwhole).computed?_eq_none] at h
    rw [Bound.bind, hwhole.computed?_eq_none] at h'
    obtain ⟨first, hfirst, h⟩ := Result.bind_eq_ok.mp h
    obtain ⟨second, hsecond, h⟩ := Result.bind_eq_ok.mp h
    obtain ⟨first', hfirst', h'⟩ := Result.bind_eq_ok.mp h'
    obtain ⟨second', hsecond', h'⟩ := Result.bind_eq_ok.mp h'
    cases h
    cases h'
    rw [shift_of_bind hpart hwhole hfirst hfirst', shift_of_bind hpart hwhole hsecond hsecond',
      Bound.shift]
  | .isNull operand negated, bound, other, h, h' => by
    rw [Bound.bind, (hpart.stored hwhole).computed?_eq_none] at h
    rw [Bound.bind, hwhole.computed?_eq_none] at h'
    obtain ⟨inner, hinner, h⟩ := Result.bind_eq_ok.mp h
    obtain ⟨inner', hinner', h'⟩ := Result.bind_eq_ok.mp h'
    cases h
    cases h'
    rw [shift_of_bind hpart hwhole hinner hinner', Bound.shift]
  | .nested inner, bound, other, h, h' => by
    rw [Bound.bind, (hpart.stored hwhole).computed?_eq_none] at h
    rw [Bound.bind, hwhole.computed?_eq_none] at h'
    exact shift_of_bind hpart hwhole h h'
  | .call name args, bound, other, h, h' => by
    rw [Bound.bind, (hpart.stored hwhole).computed?_eq_none] at h
    rw [Bound.bind, hwhole.computed?_eq_none] at h'
    obtain ⟨function, hfunction, h⟩ := Result.bind_eq_ok.mp h
    obtain ⟨bounds, hbounds, h⟩ := Result.bind_eq_ok.mp h
    obtain ⟨function', hfunction', h'⟩ := Result.bind_eq_ok.mp h'
    obtain ⟨bounds', hbounds', h'⟩ := Result.bind_eq_ok.mp h'
    -- which function is meant does not depend on the layout
    rw [hfunction] at hfunction'
    cases hfunction'
    cases h
    cases h'
    rw [shiftAll_of_bindArgs hpart hwhole hbounds hbounds', Bound.shift]

theorem shiftAll_of_bindArgs (hpart : part.PartOf offset whole) (hwhole : whole.Stored) :
    ∀ {args : Args} {text : String} {bounds others : List Bound},
      Bound.bindArgs part text args = .ok bounds → Bound.bindArgs whole text args = .ok others →
        others = Bound.shiftAll offset bounds
  | .nil, _, bounds, others, h, h' => by
    cases h
    cases h'
    rfl
  | .star _, _, bounds, others, h, _ => by cases h
  | .value arg rest, text, bounds, others, h, h' => by
    obtain ⟨first, hfirst, h⟩ := Result.bind_eq_ok.mp h
    obtain ⟨more, hmore, h⟩ := Result.bind_eq_ok.mp h
    obtain ⟨first', hfirst', h'⟩ := Result.bind_eq_ok.mp h'
    obtain ⟨more', hmore', h'⟩ := Result.bind_eq_ok.mp h'
    cases h
    cases h'
    rw [shift_of_bind hpart hwhole hfirst hfirst', shiftAll_of_bindArgs hpart hwhole hmore hmore',
      Bound.shiftAll]

end

/-- **A condition that can be bound to a part of a layout holds on a row exactly if it holds on that
part of the row.** -/
theorem holds_eq (hpart : part.PartOf offset whole) (hwhole : whole.Stored) {expr : Expr}
    (hadmits : part.Admits expr) (hwholeAdmits : whole.Admits expr) {before row after : Row}
    (hbefore : before.length = offset) (hrow : row.length = part.width) :
    whole.holds (before ++ row ++ after) expr = part.holds row expr := by
  obtain ⟨bound, hbound⟩ := hadmits
  obtain ⟨other, hother⟩ := hwholeAdmits
  have hwithin : bound.Within row.length := hrow ▸ Bound.within_of_bind hbound
  rw [holds_of_bind hbound, holds_of_bind hother, hpart.shift_of_bind hwhole hbound hother,
    ← hbefore, Bound.holds_shift before after hwithin]

end PartOf

end Layout
end SqlPipeline
