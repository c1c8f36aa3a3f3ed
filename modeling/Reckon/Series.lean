import Reckon.Datum

/-! Values in a row, each under a label of its own. -/

namespace Reckon

/-- Labels, each with its value. -/
abbrev Series := List (Datum × Datum)

namespace Series

/-- Values under the numbers of their places. -/
def numbered (values : List Datum) : Series :=
  values.mapIdx fun place value => (.integer place, value)

/-- The labels, each with the text of its value. -/
def lines (series : Series) : Except Failure (List (Datum × String)) :=
  series.mapM fun entry => (fun text => (entry.1, text)) <$> entry.2.cell

theorem numbered_map_text (texts : List String) : numbered (texts.map .text) =
    texts.mapIdx fun place text => (.integer place, .text text) := by
  apply List.ext_getElem <;> simp [numbered]

end Series

end Reckon
