/-!
# Columns

Reports and logs align their fields by padding with spaces. Widths count characters; a field that is
as long as its column or longer is written in full.

* `padRight` — the field at the left edge of its column.
* `padLeft` — the field at the right edge of its column.
-/

namespace Callable.Text

/-- The field, then spaces up to the width. -/
def padRight (width : Nat) (field : String) : String :=
  field ++ String.ofList (List.replicate (width - field.length) ' ')

/-- Spaces up to the width, then the field. -/
def padLeft (width : Nat) (field : String) : String :=
  String.ofList (List.replicate (width - field.length) ' ') ++ field

theorem length_padRight (width : Nat) (field : String) :
    (padRight width field).length = max width field.length := by
  simp [padRight]; omega

theorem length_padLeft (width : Nat) (field : String) :
    (padLeft width field).length = max width field.length := by
  simp [padLeft]; omega

end Callable.Text
