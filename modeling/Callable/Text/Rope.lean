/-!
# Ropes

A text that is put together from pieces. To join two ropes takes one step, however long they are;
the characters are read off once, when the text is complete.

* `Rope.toList` — the characters of a rope.
* `Rope.toList_append` — to join ropes is to join their characters.
-/

namespace Callable.Text

/-- A text in pieces. -/
inductive Rope where
  | text (cs : List Char)
  | append (front back : Rope)

namespace Rope

instance : Append Rope := ⟨append⟩

instance : Coe (List Char) Rope := ⟨text⟩

/-- The characters of a rope, and some more behind them. -/
def before (rest : List Char) : Rope → List Char
  | text cs => cs ++ rest
  | append r s => before (before rest s) r

/-- The characters of a rope. -/
def toList (r : Rope) : List Char := r.before []

theorem before_eq (r : Rope) (rest : List Char) : r.before rest = r.toList ++ rest := by
  unfold toList
  induction r generalizing rest with
  | text cs => simp [before]
  | append r s ihr ihs => simp only [before]; rw [ihr, ihs, ihr (before [] s), List.append_assoc]

@[simp] theorem toList_text (cs : List Char) : (text cs).toList = cs := by simp [toList, before]

@[simp] theorem toList_append (r s : Rope) : (r ++ s).toList = r.toList ++ s.toList :=
  r.before_eq (before [] s)

end Rope

end Callable.Text
