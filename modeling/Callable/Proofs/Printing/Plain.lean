import Callable.Proofs.Equality.Bisimulation
import Callable.Proofs.Printing.Elision

/-!
# The text of plain data

Plain data are put together from absences, truth values, integers and strings by lists, dicts and
tuples, in finitely many steps. Their text shows what they are: where a value begins its first
character tells its kind, and where it ends can be seen without a look at what follows, except that
an integer goes on as long as there are digits.

The tuple without items is left out, since nothing is written for it.

* `Store.Plain` — plain data.
* `Store.SameStructure` — two values, perhaps of different stores, of the same structure.
* `Phrase.trail_append_inj` — sequences are told from what follows, if their items are.
* `Store.Plain.told` — plain values are told from what follows.
* `Store.repr_unambiguous` — the result.
-/

namespace Callable

/-! ### Sequences -/

namespace Phrase

/-- Some texts, each with a comma before it. -/
def trail : List (List Char) → List Char
  | [] => []
  | text :: texts => ',' :: ' ' :: text ++ trail texts

theorem commas_cons (text : List Char) (texts : List (List Char)) :
    commas (text :: texts) = text ++ trail texts := by
  induction texts generalizing text with
  | nil => rw [commas, List.intercalate_singleton, trail, List.append_nil]
  | cons u texts ih =>
    rw [commas_cons_cons, ih, trail, List.append_assoc]
    rfl

/-- What stands behind the first item of a tuple. -/
def tupleEnd : List (List Char) → List Char
  | [] => [',', ')']
  | text :: texts => trail (text :: texts) ++ [')']

theorem tuple_cons (text : List Char) (texts : List (List Char)) :
    tuple (text :: texts) = '(' :: text ++ tupleEnd texts := by
  cases texts with
  | nil => rfl
  | cons u texts =>
    show '(' :: commas (text :: u :: texts) ++ [')'] = _
    rw [commas_cons, tupleEnd, List.cons_append, List.cons_append, List.append_assoc]

/-- Does the text not go on with a digit? -/
def NoDigit (rest : List Char) : Prop := ∀ c ∈ rest.head?, c.isDigit = false

theorem noDigit_nil : NoDigit [] := by rintro c ⟨⟩

theorem noDigit_cons {c : Char} (hc : c.isDigit = false) (rest : List Char) :
    NoDigit (c :: rest) := by
  rintro d ⟨⟩
  exact hc

section Sequences

variable {α β : Type} {F : α → List Char} {G : β → List Char} {R : α → β → Prop} {xs : List α}
  {ys : List β} {close : Char} {rest rest' : List Char}

/-- Every two items with these texts are told from what follows, and related if the texts agree. -/
def Told (F : α → List Char) (G : β → List Char) (R : α → β → Prop) (xs : List α) (ys : List β) :
    Prop :=
  ∀ x ∈ xs, ∀ y ∈ ys, ∀ rest rest', NoDigit rest → NoDigit rest' → F x ++ rest = G y ++ rest' →
    R x y ∧ rest = rest'

theorem Told.tail {x : α} {y : β} (h : Told F G R (x :: xs) (y :: ys)) : Told F G R xs ys := by
  intro a ha b hb
  exact h a (List.mem_cons_of_mem _ ha) b (List.mem_cons_of_mem _ hb)

theorem noDigit_trail (texts : List (List Char)) (hclose : close.isDigit = false)
    (rest : List Char) : NoDigit (trail texts ++ close :: rest) := by
  cases texts with
  | nil => exact noDigit_cons hclose rest
  | cons text texts => exact noDigit_cons (by decide) _

/-- **Sequences are told from what follows**, if their items are and if another sign than a comma
stands at the end. -/
theorem trail_append_inj (told : Told F G R xs ys) (hcomma : close ≠ ',')
    (hclose : close.isDigit = false)
    (h : trail (xs.map F) ++ close :: rest = trail (ys.map G) ++ close :: rest') :
    List.Forall₂ R xs ys ∧ rest = rest' := by
  -- a comma says that there is an item more, and the sign at the end that there is none
  induction xs generalizing ys with
  | nil =>
    cases ys with
    | nil => exact ⟨.nil, (List.cons.inj h).2⟩
    | cons y ys => exact absurd (List.cons.inj h).1 hcomma
  | cons x xs ih =>
    cases ys with
    | nil => exact absurd (List.cons.inj h).1.symm hcomma
    | cons y ys =>
      rw [List.map_cons, List.map_cons, trail, trail, List.append_assoc, List.append_assoc] at h
      -- both go on with a comma and a space
      have hfirst := (List.cons.inj (List.cons.inj h).2).2
      obtain ⟨hxy, htail⟩ := told x List.mem_cons_self y List.mem_cons_self _ _
        (noDigit_trail _ hclose rest) (noDigit_trail _ hclose rest') hfirst
      obtain ⟨hrelated, hrests⟩ := ih told.tail htail
      exact ⟨.cons hxy hrelated, hrests⟩

/-- The same of sequences whose first item has no comma before it. No item begins with the sign at
the end. -/
theorem commas_append_inj (told : Told F G R xs ys) (hcomma : close ≠ ',')
    (hclose : close.isDigit = false) (hF : ∀ x ∈ xs, ∀ more, F x ++ more ≠ close :: rest')
    (hG : ∀ y ∈ ys, ∀ more, G y ++ more ≠ close :: rest)
    (h : commas (xs.map F) ++ close :: rest = commas (ys.map G) ++ close :: rest') :
    List.Forall₂ R xs ys ∧ rest = rest' := by
  cases xs with
  | nil =>
    cases ys with
    | nil => exact ⟨.nil, (List.cons.inj h).2⟩
    | cons y ys =>
      rw [List.map_cons, commas_cons, List.append_assoc] at h
      -- the one sequence is at its end where an item of the other one would have to begin
      exact absurd h.symm (hG y List.mem_cons_self _)
  | cons x xs =>
    cases ys with
    | nil =>
      rw [List.map_cons, commas_cons, List.append_assoc] at h
      exact absurd h (hF x List.mem_cons_self _)
    | cons y ys =>
      rw [List.map_cons, List.map_cons, commas_cons, commas_cons, List.append_assoc,
        List.append_assoc] at h
      obtain ⟨hxy, htail⟩ := told x List.mem_cons_self y List.mem_cons_self _ _
        (noDigit_trail _ hclose rest) (noDigit_trail _ hclose rest') h
      obtain ⟨hrelated, hrests⟩ := trail_append_inj told.tail hcomma hclose htail
      exact ⟨.cons hxy hrelated, hrests⟩

/-- Tuples that are not empty are told from what follows. -/
theorem tuple_append_inj {x : α} {y : β} (told : Told F G R (x :: xs) (y :: ys))
    (h : tuple ((x :: xs).map F) ++ rest = tuple ((y :: ys).map G) ++ rest') :
    List.Forall₂ R (x :: xs) (y :: ys) ∧ rest = rest' := by
  have noDigit_end (texts : List (List Char)) (rest : List Char) :
      NoDigit (tupleEnd texts ++ rest) := by
    cases texts <;> exact noDigit_cons (by decide) _
  rw [List.map_cons, List.map_cons, tuple_cons, tuple_cons, List.append_assoc,
    List.append_assoc] at h
  obtain ⟨hxy, htail⟩ := told x List.mem_cons_self y List.mem_cons_self _ _ (noDigit_end _ rest)
    (noDigit_end _ rest') (List.cons.inj h).2
  -- behind the only item the comma is followed by the closing sign, and otherwise by a space
  cases xs with
  | nil =>
    cases ys with
    | nil => exact ⟨.cons hxy .nil, (List.cons.inj (List.cons.inj htail).2).2⟩
    | cons => exact absurd (List.cons.inj (List.cons.inj htail).2).1 (by decide)
  | cons =>
    cases ys with
    | nil => exact absurd (List.cons.inj (List.cons.inj htail).2).1 (by decide)
    | cons =>
      rw [List.map_cons, List.map_cons, tupleEnd, tupleEnd, List.append_assoc, List.append_assoc,
        ← List.map_cons, ← List.map_cons, List.singleton_append, List.singleton_append] at htail
      obtain ⟨hrelated, hrests⟩ := trail_append_inj told.tail (by decide) (by decide) htail
      exact ⟨.cons hxy hrelated, hrests⟩

end Sequences

end Phrase

namespace Store

open Phrase

variable {s s' : Store} {v v' : Value}

/-! ### Plain data -/

/-- **Plain data.** Since they are put together in finitely many steps, they have no cycles. -/
inductive Plain (s : Store) : Value → Prop
  | none : Plain s .none
  | bool (b : Bool) : Plain s (.bool b)
  | int (n : Int64) : Plain s (.int n)
  | str (t : Str) : Plain s (.str t)
  | tuple (t : Tuple) (hne : t.items ≠ []) (items : ∀ x ∈ t.items, Plain s x) : Plain s (.tuple t)
  | list (r : ListRef) (items : ∀ x ∈ s.list r, Plain s x) : Plain s (.list r)
  | dict (r : DictRef) (values : ∀ x ∈ (s.dict r).values, Plain s x) : Plain s (.dict r)

/-- **Values of the same structure:** the same scalars and texts, the same items in the same order,
and the same names and values in the same order. -/
inductive SameStructure (s s' : Store) : Value → Value → Prop
  | none : SameStructure s s' .none .none
  | bool (b : Bool) : SameStructure s s' (.bool b) (.bool b)
  | int (n : Int64) : SameStructure s s' (.int n) (.int n)
  | str {t t' : Str} (h : t.text = t'.text) : SameStructure s s' (.str t) (.str t')
  | tuple {t t' : Tuple} (hlength : t.items.length = t'.items.length)
      (items : ∀ p ∈ t.items.zip t'.items, SameStructure s s' p.1 p.2) :
      SameStructure s s' (.tuple t) (.tuple t')
  | list {r r' : ListRef} (hlength : (s.list r).length = (s'.list r').length)
      (items : ∀ p ∈ (s.list r).zip (s'.list r'), SameStructure s s' p.1 p.2) :
      SameStructure s s' (.list r) (.list r')
  | dict {r r' : DictRef} (hnames : (s.dict r).keys = (s'.dict r').keys)
      (values : ∀ p ∈ (s.dict r).values.zip (s'.dict r').values, SameStructure s s' p.1 p.2) :
      SameStructure s s' (.dict r) (.dict r')

/-- What is inside of plain data is plain. -/
theorem Plain.of_mem_inside {x : Value} (h : s.Plain v) (hx : x ∈ s.inside v) : s.Plain x := by
  cases h with
  | tuple _ _ items | list _ items | dict _ items => exact items x hx
  | _ => cases hx

theorem Plain.not_reachesCycle (h : s.Plain v) : ¬s.ReachesCycle v := by
  induction h with
  | tuple t _ _ ih | list r _ ih | dict r _ ih =>
    -- a cycle would be reached by way of some part, which is plain as well
    intro hcycle
    obtain ⟨x, hx, hcycle⟩ := hcycle.exists_mem_inside
    exact ih x hx hcycle
  | _ =>
    intro hcycle
    obtain ⟨x, hx, -⟩ := hcycle.exists_mem_inside
    cases hx

/-- The text of a plain value is put together from the texts of its parts. -/
theorem Plain.render_eq (h : s.Plain v) : s.render v = s.phrase v ((s.inside v).map s.render) :=
  render_of_acyclic h.not_reachesCycle

/-- The kind of the value that begins with this character. -/
def kindOf? : Char → Option Kind
  | 'N' => some .none
  | 'T' | 'F' => some .bool
  | '"' => some .str
  | '(' => some .tuple
  | '[' => some .list
  | '\x7b' => some .dict
  | c => if c = '-' ∨ c.isDigit = true then some .int else Option.none

theorem kindOf?_digit {c : Char} (hc : c.isDigit = true) : kindOf? c = some .int := by
  unfold kindOf?
  -- none of the characters that are named is a digit
  split <;> first | (revert hc; decide) | skip
  exact if_pos (.inr hc)

/-- **The first character of a text tells the kind of the value.** -/
theorem Plain.exists_render_eq_cons (h : s.Plain v) :
    ∃ c cs, s.render v = c :: cs ∧ kindOf? c = some v.kind := by
  rw [h.render_eq]
  cases h with
  | none => exact ⟨_, _, rfl, rfl⟩
  | bool b => cases b <;> exact ⟨_, _, rfl, rfl⟩
  | int n =>
    rw [phrase_int, Text.signedDecimal]
    split
    · exact ⟨_, _, rfl, rfl⟩
    · obtain ⟨c, cs, hcons, hdigit⟩ := Text.exists_decimal_eq_cons n.toInt.natAbs
      exact ⟨c, cs, hcons, kindOf?_digit hdigit⟩
  | str t =>
    rw [phrase_str]
    exact ⟨_, _, rfl, rfl⟩
  | tuple t hne _ =>
    -- only a tuple with items begins with its sign; one without is written as nothing
    obtain ⟨x, xs, hcons⟩ := List.exists_cons_of_ne_nil hne
    rw [phrase, inside, hcons, List.map_cons, tuple_cons]
    exact ⟨_, _, rfl, rfl⟩
  | list r _ => exact ⟨_, _, rfl, rfl⟩
  | dict r _ => exact ⟨_, _, rfl, rfl⟩

theorem Plain.kind_eq {rest rest' : List Char} (hv : s.Plain v) (hv' : s'.Plain v')
    (h : s.render v ++ rest = s'.render v' ++ rest') : v.kind = v'.kind := by
  obtain ⟨c, cs, hcons, hkind⟩ := hv.exists_render_eq_cons
  obtain ⟨c', cs', hcons', hkind'⟩ := hv'.exists_render_eq_cons
  rw [hcons, hcons'] at h
  obtain ⟨rfl, -⟩ := List.cons.inj h
  exact Option.some.inj (hkind.symm.trans hkind')

/-- No value begins with a sign that ends a sequence. -/
theorem Plain.render_append_ne {close : Char} (h : s.Plain v) (hclose : kindOf? close = Option.none)
    (more rest : List Char) : s.render v ++ more ≠ close :: rest := by
  obtain ⟨c, cs, hcons, hkind⟩ := h.exists_render_eq_cons
  rw [hcons]
  rintro heq
  obtain ⟨rfl, -⟩ := List.cons.inj heq
  rw [hclose] at hkind
  cases hkind

/-! ### Entries -/

/-- The text of an entry of a dict. -/
def entryText (s : Store) (e : String × Value) : List Char := entry e.1 (s.render e.2)

theorem Plain.render_dict {r : DictRef} (h : s.Plain (.dict r)) :
    s.render (.dict r) = '\x7b' :: commas ((s.dict r).entries.map s.entryText) ++ ['\x7d'] := by
  rw [h.render_eq, phrase, inside, Phrase.dict, Table.keys, Table.values, List.map_map,
    List.zipWith_map, List.zipWith_self]
  rfl

/-- Entries are told from what follows, if their values are. -/
theorem told_entries {R : Value → Value → Prop} {es es' : List (String × Value)}
    (told : Told s.render s'.render R (es.map Prod.snd) (es'.map Prod.snd)) :
    Told s.entryText s'.entryText (fun e e' => e.1 = e'.1 ∧ R e.2 e'.2) es es' := by
  intro e he e' he' rest rest' hrest hrest' h
  rw [entryText, entryText, entry, entry, List.append_assoc, List.append_assoc, List.append_assoc,
    List.append_assoc] at h
  -- the name ends with its quote, and the value is told from what follows by assumption
  obtain ⟨hname, htail⟩ := Text.Quoted.encode_append_inj h
  obtain ⟨hvalue, hrests⟩ := told e.2 (List.mem_map.2 ⟨e, he, rfl⟩) e'.2
    (List.mem_map.2 ⟨e', he', rfl⟩) rest rest' hrest hrest' (List.append_cancel_left htail)
  exact ⟨⟨String.toList_inj.1 hname, hvalue⟩, hrests⟩

/-- Entries that are related one by one have the same names, and related values. -/
theorem forall₂_entries {R : Value → Value → Prop} {t t' : Table Value}
    (h : List.Forall₂ (fun e e' => e.1 = e'.1 ∧ R e.2 e'.2) t.entries t'.entries) :
    t.keys = t'.keys ∧ ∀ p ∈ t.values.zip t'.values, R p.1 p.2 := by
  have hnames : List.Forall₂ Eq t.keys t'.keys :=
    List.forall₂_map_left_iff.2 (List.forall₂_map_right_iff.2 (h.imp fun _ _ => And.left))
  have hvalues : List.Forall₂ R t.values t'.values :=
    List.forall₂_map_left_iff.2 (List.forall₂_map_right_iff.2 (h.imp fun _ _ => And.right))
  exact ⟨List.forall₂_eq_eq_eq ▸ hnames, fun p hp => (List.forall₂_iff_zip.1 hvalues).2 hp⟩

/-! ### Reading a text -/

/-- Tuples are told from what follows, if their items are. -/
theorem Plain.told_tuple {t t' : Tuple} (hv : s.Plain (.tuple t)) (hv' : s'.Plain (.tuple t'))
    (told : Told s.render s'.render (SameStructure s s') t.items t'.items) {rest rest' : List Char}
    (h : s.render (.tuple t) ++ rest = s'.render (.tuple t') ++ rest') :
    SameStructure s s' (.tuple t) (.tuple t') ∧ rest = rest' := by
  rw [hv.render_eq, hv'.render_eq, phrase, phrase, inside, inside] at h
  cases hv with
  | tuple _ hne _ =>
    cases hv' with
    | tuple _ hne' _ =>
      obtain ⟨x, xs, hxs⟩ := List.exists_cons_of_ne_nil hne
      obtain ⟨y, ys, hys⟩ := List.exists_cons_of_ne_nil hne'
      -- neither is empty, so both texts begin with a first item
      rw [hxs, hys] at told h
      obtain ⟨hsame, hrests⟩ := tuple_append_inj told h
      rw [← hxs, ← hys, List.forall₂_iff_zip] at hsame
      exact ⟨.tuple hsame.1 fun p hp => hsame.2 hp, hrests⟩

/-- Lists are told from what follows, if their items are. -/
theorem Plain.told_list {r r' : ListRef} (hv : s.Plain (.list r)) (hv' : s'.Plain (.list r'))
    (told : Told s.render s'.render (SameStructure s s') (s.list r) (s'.list r'))
    {rest rest' : List Char} (h : s.render (.list r) ++ rest = s'.render (.list r') ++ rest') :
    SameStructure s s' (.list r) (.list r') ∧ rest = rest' := by
  rw [hv.render_eq, hv'.render_eq, phrase, phrase, Phrase.list, Phrase.list, List.append_assoc,
    List.append_assoc] at h
  -- no item begins with the sign that ends the list
  have hitem : ∀ x ∈ s.list r, ∀ more, s.render x ++ more ≠ ']' :: rest' := by
    intro x hx more
    exact (hv.of_mem_inside hx).render_append_ne (by decide) more rest'
  have hitem' : ∀ y ∈ s'.list r', ∀ more, s'.render y ++ more ≠ ']' :: rest := by
    intro y hy more
    exact (hv'.of_mem_inside hy).render_append_ne (by decide) more rest
  obtain ⟨hsame, hrests⟩ :=
    commas_append_inj told (by decide) (by decide) hitem hitem' (List.cons.inj h).2
  rw [List.forall₂_iff_zip] at hsame
  exact ⟨.list hsame.1 fun p hp => hsame.2 hp, hrests⟩

/-- Dicts are told from what follows, if their values are. -/
theorem Plain.told_dict {r r' : DictRef} (hv : s.Plain (.dict r)) (hv' : s'.Plain (.dict r'))
    (told : Told s.render s'.render (SameStructure s s') (s.dict r).values (s'.dict r').values)
    {rest rest' : List Char} (h : s.render (.dict r) ++ rest = s'.render (.dict r') ++ rest') :
    SameStructure s s' (.dict r) (.dict r') ∧ rest = rest' := by
  rw [hv.render_dict, hv'.render_dict, List.append_assoc, List.append_assoc] at h
  -- an entry begins with a quote, so none looks like the end of the dict
  have hentry (s : Store) (e : String × Value) (more rest : List Char) :
      s.entryText e ++ more ≠ '\x7d' :: rest := by
    intro heq
    exact absurd (List.cons.inj heq).1 (by decide)
  obtain ⟨hsame, hrests⟩ := commas_append_inj (told_entries told) (by decide) (by decide)
    (fun e _ more => hentry s e more rest') (fun e _ more => hentry s' e more rest)
    (List.cons.inj h).2
  obtain ⟨hnames, hvalues⟩ := forall₂_entries hsame
  exact ⟨.dict hnames hvalues, hrests⟩

/-- **Plain values are told from what follows**, if that does not go on with a digit. -/
theorem Plain.told (hv : s.Plain v) (hv' : s'.Plain v') {rest rest' : List Char}
    (hrest : NoDigit rest) (hrest' : NoDigit rest')
    (h : s.render v ++ rest = s'.render v' ++ rest') : SameStructure s s' v v' ∧ rest = rest' := by
  -- by induction on the first value; the kind of the second is seen from the first character
  induction hv generalizing v' rest rest' with
  | none =>
    have hkind := Plain.none.kind_eq hv' h
    cases hv' with
    | none =>
      rw [Plain.none.render_eq, Plain.none.render_eq, phrase_none, phrase_none] at h
      exact ⟨.none, List.append_cancel_left h⟩
    | _ => cases hkind
  | bool b =>
    have hkind := (Plain.bool b).kind_eq hv' h
    cases hv' with
    | bool b' =>
      rw [(Plain.bool b).render_eq, (Plain.bool b').render_eq, phrase_bool, phrase_bool] at h
      cases b <;> cases b'
      · exact ⟨.bool false, List.append_cancel_left h⟩
      · exact absurd (List.cons.inj h).1 (by decide)
      · exact absurd (List.cons.inj h).1 (by decide)
      · exact ⟨.bool true, List.append_cancel_left h⟩
    | _ => cases hkind
  | int n =>
    have hkind := (Plain.int n).kind_eq hv' h
    cases hv' with
    | int n' =>
      rw [(Plain.int n).render_eq, (Plain.int n').render_eq, phrase_int, phrase_int] at h
      obtain ⟨hn, hrests⟩ := Text.signedDecimal_append_inj hrest hrest' h
      cases Int64.toInt_inj.1 hn
      exact ⟨.int n, hrests⟩
    | _ => cases hkind
  | str t =>
    have hkind := (Plain.str t).kind_eq hv' h
    cases hv' with
    | str t' =>
      rw [(Plain.str t).render_eq, (Plain.str t').render_eq, phrase_str, phrase_str] at h
      obtain ⟨htext, hrests⟩ := Text.Quoted.encode_append_inj h
      exact ⟨.str (String.toList_inj.1 htext), hrests⟩
    | _ => cases hkind
  | tuple t hne items ih =>
    have hplain : s.Plain (.tuple t) := .tuple t hne items
    have hkind := hplain.kind_eq hv' h
    cases hv' with
    | tuple t' hne' items' =>
      refine hplain.told_tuple (.tuple t' hne' items') ?_ h
      intro x hx y hy _ _ hrest hrest' heq
      exact ih x hx (items' y hy) hrest hrest' heq
    | _ => cases hkind
  | list r items ih =>
    have hplain : s.Plain (.list r) := .list r items
    have hkind := hplain.kind_eq hv' h
    cases hv' with
    | list r' items' =>
      refine hplain.told_list (.list r' items') ?_ h
      intro x hx y hy _ _ hrest hrest' heq
      exact ih x hx (items' y hy) hrest hrest' heq
    | _ => cases hkind
  | dict r values ih =>
    have hplain : s.Plain (.dict r) := .dict r values
    have hkind := hplain.kind_eq hv' h
    cases hv' with
    | dict r' values' =>
      refine hplain.told_dict (.dict r' values') ?_ h
      intro x hx y hy _ _ hrest hrest' heq
      exact ih x hx (values' y hy) hrest hrest' heq
    | _ => cases hkind

/-! ### Values of the same structure -/

/-- Lists of values with the same texts, one by one. -/
theorem map_render_eq {xs xs' : List Value} (hlength : xs.length = xs'.length)
    (h : ∀ p ∈ xs.zip xs', s.render p.1 = s'.render p.2) : xs.map s.render = xs'.map s'.render := by
  have hrelated : List.Forall₂ (fun x x' => s.render x = s'.render x') xs xs' :=
    List.forall₂_iff_zip.2 ⟨hlength, fun hp => h _ hp⟩
  rw [← List.forall₂_eq_eq_eq, List.forall₂_map_left_iff, List.forall₂_map_right_iff]
  exact hrelated

/-- Plain values of the same structure have the same text. -/
theorem SameStructure.render_eq (h : SameStructure s s' v v') (hv : s.Plain v) (hv' : s'.Plain v') :
    s.render v = s'.render v' := by
  -- part by part, since the text of each value is put together from those of its parts
  induction h with
  | none => rw [hv.render_eq, hv'.render_eq, phrase_none, phrase_none]
  | bool => rw [hv.render_eq, hv'.render_eq, phrase_bool, phrase_bool]
  | int => rw [hv.render_eq, hv'.render_eq, phrase_int, phrase_int]
  | str h => rw [hv.render_eq, hv'.render_eq, phrase_str, phrase_str, h]
  | tuple hlength _ ih =>
    rw [hv.render_eq, hv'.render_eq]
    refine congrArg Phrase.tuple (map_render_eq hlength fun p hp => ?_)
    obtain ⟨hx, hx'⟩ := List.of_mem_zip hp
    exact ih p hp (hv.of_mem_inside hx) (hv'.of_mem_inside hx')
  | list hlength _ ih =>
    rw [hv.render_eq, hv'.render_eq]
    refine congrArg Phrase.list (map_render_eq hlength fun p hp => ?_)
    obtain ⟨hx, hx'⟩ := List.of_mem_zip hp
    exact ih p hp (hv.of_mem_inside hx) (hv'.of_mem_inside hx')
  | @dict r r' hnames _ ih =>
    -- as many values as there are names, which are the same
    have hlength : (s.dict r).values.length = (s'.dict r').values.length := by
      have hlengths := congrArg List.length hnames
      simpa [Table.keys, Table.values] using hlengths
    rw [hv.render_eq, hv'.render_eq]
    refine congrArg₂ Phrase.dict hnames (map_render_eq hlength fun p hp => ?_)
    obtain ⟨hx, hx'⟩ := List.of_mem_zip hp
    exact ih p hp (hv.of_mem_inside hx) (hv'.of_mem_inside hx')

/-- What is read under one name in two tables of the same names stands in one place. -/
theorem mem_zip_values {t u : Table Value} (hnames : t.keys = u.keys) {k : String} {x y : Value}
    (hx : t.get? k = some x) (hy : u.get? k = some y) : (x, y) ∈ t.values.zip u.values := by
  -- the place of the name in the one table; the other has the same name there
  obtain ⟨i, hi, hentry⟩ := List.mem_iff_getElem.1 (Table.mem_entries_iff.2 hx)
  have hlength : t.entries.length = u.entries.length := by
    simpa [Table.keys] using congrArg List.length hnames
  have hi' : i < u.entries.length := hlength ▸ hi
  have hname : u.entries[i].1 = k := by
    have hnames' := congrArg (fun names => names[i]?) hnames
    simpa [Table.keys, hi, hi', hentry, eq_comm] using hnames'
  have hvalue : u.entries[i].2 = y := by
    have hmem : (k, u.entries[i].2) ∈ u.entries := by
      rw [← hname]
      exact List.getElem_mem hi'
    exact Option.some.inj ((Table.mem_entries_iff.1 hmem).symm.trans hy)
  have hzip : i < (t.values.zip u.values).length := by
    simpa [Table.values] using And.intro hi hi'
  refine List.mem_iff_getElem.2 ⟨i, hzip, ?_⟩
  simp [Table.values, hentry, hvalue]

/-- Values of the same structure match, part by part. -/
theorem isBisimulation_sameStructure (s : Store) : s.IsBisimulation (SameStructure s s) := by
  intro a b h
  cases h with
  | none => exact .none
  | bool b => exact .bool b
  | int n => exact .int n
  | str h => exact .str h
  | tuple hlength items => exact .tuple (List.forall₂_iff_zip.2 ⟨hlength, fun hp => items _ hp⟩)
  | list hlength items => exact .list (List.forall₂_iff_zip.2 ⟨hlength, fun hp => items _ hp⟩)
  | dict hnames values =>
    refine .dict (fun k => by rw [hnames]) ?_
    -- the same names in the same order, so what is read under one name is paired
    intro k x y hx hy
    exact values _ (mem_zip_values hnames hx hy)

/-! ### The result -/

theorem repr_eq_iff : s.repr v = s'.repr v' ↔ s.render v = s'.render v' := by
  rw [repr, repr, String.ofList_inj]

/-- **The text of plain data is unambiguous.** Plain values have the same text exactly if they have
the same structure, whatever stores they are of. Plain values of one store with the same text are
equal. -/
theorem repr_unambiguous (hv : s.Plain v) :
    (∀ {s' : Store} {v' : Value}, s'.Plain v' → (s.repr v = s'.repr v' ↔ SameStructure s s' v v')) ∧
      ∀ {u : Value}, s.Plain u → s.repr v = s.repr u → s.equal v u = true := by
  have alike {s' : Store} {v' : Value} (hv' : s'.Plain v') (htext : s.repr v = s'.repr v') :
      SameStructure s s' v v' := by
    -- nothing follows either text, which is not a digit in any case
    have hwhole : s.render v ++ [] = s'.render v' ++ [] := by
      rw [List.append_nil, List.append_nil]
      exact repr_eq_iff.1 htext
    exact (hv.told hv' noDigit_nil noDigit_nil hwhole).1
  constructor
  · intro s' v' hv'
    exact ⟨alike hv', fun h => repr_eq_iff.2 (h.render_eq hv hv')⟩
  · intro u hu htext
    exact s.isBisimulation_sameStructure.equal (alike hu htext)

/-- A list with a tuple of one item and a dict, whose texts are full of the signs that stand between
values; and the same with other objects, in another order of their making. -/
def signs (a b c : Nat) : Store where
  lists := ⟨#[some [.tuple ⟨⟨a⟩, [.str ⟨⟨b⟩, "\", [1,)"⟩]⟩, .dict ⟨0⟩]]⟩
  dicts := ⟨#[some (.ofList [("\"\x7b", .int (-1)), (": ", .list ⟨1⟩)])]⟩
  cells := .empty
  functions := .empty
  labels := c

theorem plain_signs (a b c : Nat) : (signs a b c).Plain (.list ⟨0⟩) := by
  have hempty : (signs a b c).Plain (.list ⟨1⟩) := .list _ nofun
  refine .list _ ?_
  intro x hx
  rcases List.mem_cons.1 hx with rfl | hx
  · refine .tuple _ (List.cons_ne_nil _ _) ?_
    intro y hy
    cases List.mem_singleton.1 hy
    exact .str _
  · cases List.mem_singleton.1 hx
    refine .dict _ ?_
    intro y hy
    have hvalues : ((signs a b c).dict ⟨0⟩).values = [.int (-1), .list ⟨1⟩] := rfl
    rw [hvalues] at hy
    rcases List.mem_cons.1 hy with rfl | hy
    · exact .int _
    · cases List.mem_singleton.1 hy
      exact hempty

/-- The texts agree, so the values are of the same structure. -/
theorem repr_unambiguous_signs :
    (signs 0 1 2).repr (.list ⟨0⟩) = "[(\"\\\", [1,)\",), \x7b\"\\\"\x7b\": -1, \": \": []\x7d]" ∧
      SameStructure (signs 0 1 2) (signs 7 5 9) (.list ⟨0⟩) (.list ⟨0⟩) := by
  have htext : (signs 0 1 2).repr (.list ⟨0⟩) = (signs 7 5 9).repr (.list ⟨0⟩) := by decide +kernel
  exact ⟨by decide +kernel,
    ((repr_unambiguous (plain_signs 0 1 2)).1 (plain_signs 7 5 9)).1 htext⟩

end Store

end Callable
