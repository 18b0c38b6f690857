import LogCursor.Setting
/-!
Unfolding cells into values. A collection from which some way leads into a circle has no value of its own, and
is seen as a knot.
-/
namespace LogCursor.Cells

/-- The value of a strand whose collections are nested at most so many levels deep. -/
def value? (cells : Cells) : Nat → Strand → Option Setting
  | _, .scalar k => some k.toSetting
  | _, .edge e => some (.edge e)
  | 0, .inner _ => none
  | fuel + 1, .inner n =>
    match cells.cell? n with
    | none => none
    | some (.list items) => (items.mapM (cells.value? fuel)).map .list
    | some (.map entries) =>
      (entries.mapM fun entry => (cells.value? fuel entry.2).map fun v => (entry.1, v)).map .map
    | some (.set members) => some (.set members)
    | some (.pairs entries) =>
      let pair (entry : Strand × Strand) : Option (Setting × Setting) := do
        return (← cells.value? fuel entry.1, ← cells.value? fuel entry.2)
      (entries.mapM pair).map .pairs

/-- The value that a strand stands for; without circles no collection is nested deeper than there are cells. -/
def value (cells : Cells) : Strand → Setting
  | .scalar k => k.toSetting
  | .edge e => .edge e
  | .inner n => (cells.value? (cells.length + 1) (.inner n)).getD (.knot ⟨cells, n⟩)

end LogCursor.Cells
