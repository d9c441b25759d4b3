import Callable.Proofs.Json.Reading
import Callable.Script.Perform
import Mathlib

/-!
# Forms lose nothing

Errors and events are exchanged as texts: a value is given its form, the form is written, and at the
other end it is read and the value is made out again. Each of these steps is undone by another one,
for all strings and for all counts that have a form.

What is read need not have been written by the library. A record may be an array of its fields, have
fields in another order or such as it does not know, and an exception may lack its message. So a text
is not determined by what it is read as; but what is written of that is, and it is read and written
again as the same text.

* `ofJson?_toJson` for classes, exceptions, errors and events — a form is made out as what it is the
  form of.
* `Event.countsFit_of_ofJson?` — an event that was read has counts that have a form.
* `Exchanged.Carried` — what is exchanged, `Exchanged.write` and `Exchanged.read?` — the texts.
* `Exchanged.forms_lose_nothing` — the result.
-/

namespace Callable

/-! ### Counts -/

/-- A count below the bound is made out as what it is. -/
theorem Json.count?_nat {n : Nat} (h : n < Nat.pow 2 64) : (Json.nat n).count? = some n := by
  have hread : (toString n).toNat? = some n := Nat.toNat?_repr n
  rw [Json.nat, count?, hread]
  exact if_pos h

theorem Json.lt_of_count? {j : Json} {n : Nat} (h : j.count? = some n) : n < Nat.pow 2 64 := by
  -- a count is read only if it is below the bound
  unfold count? at h
  split at h
  · split at h
    · split at h
      · rename_i hlt
        cases h
        exact hlt
      · cases h
    · cases h
  · cases h

/-- **The counts of an event have a form.** -/
def Event.CountsFit : Event → Prop
  | made _ cells defaults => cells < Nat.pow 2 64 ∧ defaults < Nat.pow 2 64
  | called _ depth | returned depth _ => depth < Nat.pow 2 64
  | attrSet .. | attrDeleted .. | bound _ => True

/-! ### Each kind of value -/

namespace ExceptionClass

theorem written_toJson (c : ExceptionClass) : c.toJson.Written := .str c.name

theorem ofJson?_toJson (c : ExceptionClass) : ofJson? c.toJson = some c := c.ofName?_name

end ExceptionClass

namespace Exception

theorem written_toJson (e : Exception) : e.toJson.Written := by
  refine .obj (List.forall_mem_cons.2 ⟨e.cls.written_toJson, List.forall_mem_singleton.2 ?_⟩)
  -- a message that is not there is written as `null`
  cases e.message with
  | none => exact .null
  | some m => exact .str m

/-- Both fields are there, and `null` is no text. -/
theorem ofJson?_toJson (e : Exception) : ofJson? e.toJson = some e := by
  obtain ⟨cls, message⟩ := e
  have hfields : (toJson ⟨cls, message⟩).fields? ["exc_type", "arg"] =
      some [some cls.toJson, some ((message.map Json.str).getD .null)] := rfl
  -- the two fields are found by their names, whatever the class and the message are
  rw [ofJson?, hfields]
  dsimp only
  rw [cls.ofJson?_toJson]
  cases message <;> rfl

/-- A record without the second field has no message. -/
theorem ofJson?_withoutMessage (cls : ExceptionClass) :
    ofJson? (.obj [("exc_type", cls.toJson)]) = some ⟨cls, none⟩ := by
  have hfields : (Json.obj [("exc_type", cls.toJson)]).fields? ["exc_type", "arg"] =
      some [some cls.toJson, none] := rfl
  rw [ofJson?, hfields]
  dsimp only
  rw [cls.ofJson?_toJson]
  rfl

end Exception

namespace RunError

theorem written_toJson (e : RunError) : e.toJson.Written := by
  cases e with
  | internal m => exact .obj (List.forall_mem_singleton.2 (.str m))
  | raised e => exact .obj (List.forall_mem_singleton.2 e.written_toJson)

theorem ofJson?_toJson (e : RunError) : ofJson? e.toJson = some e := by
  cases e with
  | internal m => rfl
  | raised e =>
    change (Exception.ofJson? e.toJson).map raised = _
    rw [e.ofJson?_toJson]
    rfl

end RunError

namespace Event

theorem written_toJson (e : Event) : e.toJson.Written := by
  cases e with
  | made name cells defaults =>
    refine .obj (List.forall_mem_singleton.2 (.obj (List.forall_mem_cons.2 ⟨.str name, ?_⟩)))
    exact List.forall_mem_cons.2 ⟨.nat cells, List.forall_mem_singleton.2 (.nat defaults)⟩
  | called name depth =>
    refine .obj (List.forall_mem_singleton.2 (.obj (List.forall_mem_cons.2 ⟨.str name, ?_⟩)))
    exact List.forall_mem_singleton.2 (.nat depth)
  | returned depth ok =>
    refine .obj (List.forall_mem_singleton.2 (.obj (List.forall_mem_cons.2 ⟨.nat depth, ?_⟩)))
    exact List.forall_mem_singleton.2 (.bool ok)
  | attrSet name ok | attrDeleted name ok =>
    refine .obj (List.forall_mem_singleton.2 (.obj (List.forall_mem_cons.2 ⟨.str name, ?_⟩)))
    exact List.forall_mem_singleton.2 (.bool ok)
  | bound method =>
    exact .obj (List.forall_mem_singleton.2 (.obj (List.forall_mem_singleton.2 (.bool method))))

/-- The case is told by the name of the one member, and the fields by theirs. -/
theorem ofJson?_toJson {e : Event} (h : e.CountsFit) : ofJson? e.toJson = some e := by
  cases e with
  | made name cells defaults =>
    -- the case and the fields are found by computing; what is left to read are the counts
    change (Json.nat cells).count?.bind (fun cells => (Json.nat defaults).count?.bind fun defaults =>
      some (made name cells defaults)) = _
    rw [Json.count?_nat h.1, Json.count?_nat h.2]
    rfl
  | called name depth =>
    change (Json.nat depth).count?.bind (fun depth => some (called name depth)) = _
    rw [Json.count?_nat h]
    rfl
  | returned depth ok =>
    change (Json.nat depth).count?.bind (fun depth => some (returned depth ok)) = _
    rw [Json.count?_nat h]
    rfl
  | attrSet | attrDeleted | bound => rfl

/-- **What is read as an event has counts that fit**, since they were read as counts. -/
theorem countsFit_of_ofJson? {j : Json} {e : Event} (h : ofJson? j = some e) : e.CountsFit := by
  -- the reading is a chain of steps each of which may fail, and none has failed
  have bound {α β : Type} {x : Option α} {f : α → Option β} {b : β} (h : x >>= f = some b) :
      ∃ a, x = some a ∧ f a = some b := Option.bind_eq_some_iff.1 h
  unfold ofJson? at h
  obtain ⟨⟨case, v⟩, -, h⟩ := bound h
  dsimp only at h
  -- one case for each name that the member may have
  split at h
  case h_1 =>
    obtain ⟨fields, -, h⟩ := bound h
    split at h
    · obtain ⟨name, -, h⟩ := bound h
      obtain ⟨cells, hcells, h⟩ := bound h
      obtain ⟨defaults, hdefaults, h⟩ := bound h
      cases h
      exact ⟨Json.lt_of_count? hcells, Json.lt_of_count? hdefaults⟩
    · cases h
  case h_2 =>
    obtain ⟨fields, -, h⟩ := bound h
    split at h
    · obtain ⟨name, -, h⟩ := bound h
      obtain ⟨depth, hdepth, h⟩ := bound h
      cases h
      exact Json.lt_of_count? hdepth
    · cases h
  case h_3 =>
    obtain ⟨fields, -, h⟩ := bound h
    split at h
    · obtain ⟨depth, hdepth, h⟩ := bound h
      obtain ⟨ok, -, h⟩ := bound h
      cases h
      exact Json.lt_of_count? hdepth
    · cases h
  case h_4 | h_5 =>
    -- writes and deletions have no counts
    obtain ⟨fields, -, h⟩ := bound h
    split at h
    · obtain ⟨name, -, h⟩ := bound h
      obtain ⟨ok, -, h⟩ := bound h
      cases h
      trivial
    · cases h
  case h_6 =>
    obtain ⟨fields, -, h⟩ := bound h
    split at h
    · obtain ⟨method, -, h⟩ := bound h
      cases h
      trivial
    · cases h
  case h_7 => cases h

end Event

/-! ### What is exchanged -/

namespace Script.Exchanged

/-- The values that have a form. -/
def Carried : Exchanged → Type
  | .exceptionClass => ExceptionClass
  | .exception => Exception
  | .error => RunError
  | .event => Event

/-- The form of a value. -/
def toJson : (x : Exchanged) → x.Carried → Json
  | .exceptionClass => ExceptionClass.toJson
  | .exception => Exception.toJson
  | .error => RunError.toJson
  | .event => Event.toJson

/-- The value of a form. -/
def ofJson? : (x : Exchanged) → Json → Option x.Carried
  | .exceptionClass => ExceptionClass.ofJson?
  | .exception => Exception.ofJson?
  | .error => RunError.ofJson?
  | .event => Event.ofJson?

/-- A value that has a form. Counts must be below `2 ^ 64`. -/
def Fits : (x : Exchanged) → x.Carried → Prop
  | .event, e => e.CountsFit
  | .exceptionClass, _ | .exception, _ | .error, _ => True

/-- The text of a value. -/
def write (x : Exchanged) (v : x.Carried) : String := (x.toJson v).print

/-- The value of a text, if it has one. -/
def read? (x : Exchanged) (text : String) : Option x.Carried := (Json.parse? text).bind x.ofJson?

theorem written_toJson (x : Exchanged) (v : x.Carried) : (x.toJson v).Written := by
  cases x with
  | exceptionClass => exact ExceptionClass.written_toJson v
  | exception => exact Exception.written_toJson v
  | error => exact RunError.written_toJson v
  | event => exact Event.written_toJson v

theorem ofJson?_toJson {x : Exchanged} {v : x.Carried} (h : x.Fits v) :
    x.ofJson? (x.toJson v) = some v := by
  cases x with
  | exceptionClass => exact ExceptionClass.ofJson?_toJson v
  | exception => exact Exception.ofJson?_toJson v
  | error => exact RunError.ofJson?_toJson v
  | event => exact Event.ofJson?_toJson h

theorem fits_of_ofJson? {x : Exchanged} {j : Json} {v : x.Carried} (h : x.ofJson? j = some v) :
    x.Fits v := by
  cases x with
  | event => exact Event.countsFit_of_ofJson? h
  | _ => trivial

/-- **What was written is read back.** -/
theorem read?_write {x : Exchanged} {v : x.Carried} (h : x.Fits v) : x.read? (x.write v) = some v := by
  rw [read?, write, Json.parse?_print (x.written_toJson v)]
  exact ofJson?_toJson h

/-- To read a text and write it again is to write the value of the text. -/
theorem reread_eq (x : Exchanged) (text : String) :
    x.reread text = (x.read? text).map x.toJson := by
  rw [reread, read?]
  cases Json.parse? text with
  | none => rfl
  | some j => cases x <;> rfl

/-! ### The result -/

/-- **Forms lose nothing.** Let a value have a form, as all classes, exceptions and errors have, and all
events with counts below `2 ^ 64`. Then its text is read as this value and no other one, so different
values have different texts. Whatever text is read and written again, the outcome is read and
written again as it is. And no message is not the same as an empty one: each is read back as what it
is, and a record without the field has no message. -/
theorem forms_lose_nothing (x : Exchanged) :
    (∀ v : x.Carried, x.Fits v → x.read? (x.write v) = some v) ∧
    (∀ v w : x.Carried, x.Fits v → x.Fits w → x.write v = x.write w → v = w) ∧
    (∀ text j, x.reread text = some j → x.reread j.print = some j) ∧
    ∀ cls : ExceptionClass,
      exception.read? (exception.write (⟨cls, none⟩ : Exception)) = some (⟨cls, none⟩ : Exception) ∧
      exception.read? (exception.write (⟨cls, some ""⟩ : Exception)) =
        some (⟨cls, some ""⟩ : Exception) ∧
      exception.read? (Json.obj [("exc_type", cls.toJson)]).print =
        some (⟨cls, none⟩ : Exception) := by
  refine ⟨fun v => read?_write, ?_, ?_, fun cls => ⟨read?_write trivial, read?_write trivial, ?_⟩⟩
  · intro v w hv hw htext
    have hread := read?_write hv
    rw [htext, read?_write hw] at hread
    exact (Option.some.inj hread).symm
  · intro text j h
    -- the text that was read need not be one that is written; the value that was read is
    rw [reread_eq] at h
    obtain ⟨v, hv, rfl⟩ := Option.map_eq_some_iff.1 h
    obtain ⟨j', -, hj'⟩ := Option.bind_eq_some_iff.1 hv
    -- what was read fits, so what is written of it is read as the same
    have hback := read?_write (fits_of_ofJson? hj')
    rw [reread_eq]
    exact congrArg (Option.map x.toJson) hback
  · have hwritten : (Json.obj [("exc_type", cls.toJson)]).Written :=
      .obj (List.forall_mem_singleton.2 cls.written_toJson)
    rw [read?, Json.parse?_print hwritten]
    exact Exception.ofJson?_withoutMessage cls

/-! ### A strange name and a strange text -/

section Strange

/-- A call at the greatest depth that has a form, of a function whose name has to be escaped. -/
def strangeCall : Event := .called "\"\\\x01😀" 18446744073709551615

/-- A record that is an array of its fields, with blanks. -/
def strangeText : String := "\x7b \"Bind\" : [ true ] \x7d"

/-- The event is read back and differs in its text from one with another depth; the record is written
as an object with one member, and this is read and written as it is. -/
theorem forms_lose_nothing_strange :
    event.Fits strangeCall ∧ event.read? (event.write strangeCall) = some strangeCall ∧
      event.write strangeCall ≠ event.write (.called "\"\\\x01😀" 0) ∧
      event.reread strangeText = some (Event.bound true).toJson ∧
      event.reread (Event.bound true).toJson.print = some (Event.bound true).toJson := by
  have hfits : event.Fits strangeCall := by
    change 18446744073709551615 < Nat.pow 2 64
    norm_num
  have hfits' : event.Fits (.called "\"\\\x01😀" 0) := by
    change 0 < Nat.pow 2 64
    norm_num
  have hread : event.reread strangeText = some (Event.bound true).toJson := by
    have hvalue : (Json.parse? strangeText).bind Event.ofJson? = some (.bound true) := by
      decide +kernel
    rw [reread_eq]
    exact congrArg (Option.map Event.toJson) hvalue
  obtain ⟨hback, hinj, hfixed, -⟩ := forms_lose_nothing event
  refine ⟨hfits, hback _ hfits, fun htext => ?_, hread, hfixed _ _ hread⟩
  have hsame : strangeCall = .called "\"\\\x01😀" 0 := hinj _ _ hfits hfits' htext
  exact absurd (Event.called.inj hsame).2 (by norm_num)

end Strange

end Script.Exchanged

end Callable
