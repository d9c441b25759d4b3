import Callable.Proofs.Walk.Printing
import Mathlib.Data.Prod.Lex

/-!
# The spelling of a value

The text of a value is put together from the texts of what is inside of it. Whether a list or a dict
is written or elided is a matter of the way on which the printing has come to it: of the values that
are printed around it.

* `Store.inside`, `Store.phrase` — what is inside of a value, and how its text is put together.
* `Store.Spells` — the text of a value that stands inside of others. A list or a dict that is one of
  them is elided, and everything else is written.
* `Store.toList_renderIn` — one layer of what the library writes.
* `Store.spells_iff` — a value has one text in each place, and the library finds it.
-/

namespace Callable

/-! ### Texts put together -/

namespace Phrase

/-- Some texts with a comma and a space between them. -/
def commas (texts : List (List Char)) : List Char := [',', ' '].intercalate texts

/-- A tuple: nothing at all if it is empty, and with a comma behind its only item. -/
def tuple : List (List Char) → List Char
  | [] => []
  | [text] => '(' :: text ++ [',', ')']
  | texts => '(' :: commas texts ++ [')']

/-- A list. -/
def list (texts : List (List Char)) : List Char := '[' :: commas texts ++ [']']

/-- An entry of a dict. -/
def entry (name : String) (text : List Char) : List Char :=
  Text.Quoted.encode name.toList ++ [':', ' '] ++ text

/-- A dict with these names. -/
def dict (names : List String) (texts : List (List Char)) : List Char :=
  '\x7b' :: commas (List.zipWith entry names texts) ++ ['\x7d']

/-- A bound method of this function, with the text of its receiver. -/
def method (qualname : String) (texts : List (List Char)) : List Char :=
  "<bound method ".toList ++ qualname.toList ++ " of ".toList ++ texts.flatten ++ ['>']

theorem commas_cons_cons (t u : List Char) (texts : List (List Char)) :
    commas (t :: u :: texts) = t ++ [',', ' '] ++ commas (u :: texts) := by
  rw [commas, commas, List.intercalate_cons_cons]

theorem toList_commaSeparated (ropes : List Text.Rope) :
    (Rendering.commaSeparated ropes).toList = commas (ropes.map Text.Rope.toList) := by
  induction ropes with
  | nil => rfl
  | cons r ropes ih =>
    cases ropes with
    -- the last text has no comma behind it
    | nil => simp [Rendering.commaSeparated, commas]
    | cons q ropes =>
      rw [Rendering.commaSeparated, List.map_cons, List.map_cons, commas_cons_cons,
        Text.Rope.toList_append, Text.Rope.toList_append, Text.Rope.toList_text, ih]
      · rfl
      · exact List.cons_ne_nil _ _

theorem toList_tuple (ropes : List Text.Rope) :
    (Rendering.tuple ropes).toList = tuple (ropes.map Text.Rope.toList) := by
  match ropes with
  | [] => rfl
  | [r] => simp [Rendering.tuple, tuple]
  | r :: q :: ropes => simp [Rendering.tuple, tuple, toList_commaSeparated]

theorem toList_list (ropes : List Text.Rope) :
    (Rendering.list ropes).toList = list (ropes.map Text.Rope.toList) := by
  simp [Rendering.list, list, toList_commaSeparated]

theorem toList_dict (es : List (String × Text.Rope)) :
    (Rendering.dict es).toList =
      dict (es.map Prod.fst) ((es.map Prod.snd).map Text.Rope.toList) := by
  -- the library writes entry by entry, a phrase has the names and the texts apart
  have hentries : (es.map fun e => Text.Quoted.encode e.1.toList ++ [':', ' '] ++ e.2.toList) =
      List.zipWith entry (es.map Prod.fst) ((es.map Prod.snd).map Text.Rope.toList) := by
    rw [List.map_map, List.zipWith_map, List.zipWith_self]
    rfl
  rw [dict, ← hentries]
  simp [Rendering.dict, toList_commaSeparated, Function.comp_def]

theorem toList_method (qualname : String) (receiver : Text.Rope) :
    (Rendering.method qualname receiver).toList = method qualname [receiver.toList] := by
  unfold Rendering.method method
  -- the two fixed texts stay closed, since they are long to compute with
  generalize "<bound method ".toList = front
  generalize " of ".toList = link
  rw [List.flatten_singleton, Text.Rope.toList_append, Text.Rope.toList_append,
    Text.Rope.toList_append, Text.Rope.toList_append]
  simp only [Text.Rope.toList_text]

end Phrase

/-! ### The containers on the way -/

/-- The containers among some values. -/
def Enclosing.among (above : List Value) : Enclosing :=
  ⟨above.filterMap Value.list?, above.filterMap Value.dict?⟩

namespace Enclosing

theorem mem_among_lists {above : List Value} {r : ListRef} :
    r ∈ (among above).lists ↔ .list r ∈ above := by
  rw [among, List.mem_filterMap]
  constructor
  · rintro ⟨v, hv, hlist⟩
    cases v <;> cases hlist
    exact hv
  · intro h
    exact ⟨.list r, h, rfl⟩

theorem mem_among_dicts {above : List Value} {r : DictRef} :
    r ∈ (among above).dicts ↔ .dict r ∈ above := by
  rw [among, List.mem_filterMap]
  constructor
  · rintro ⟨v, hv, hdict⟩
    cases v <;> cases hdict
    exact hv
  · intro h
    exact ⟨.dict r, h, rfl⟩

end Enclosing

namespace Store

variable {s : Store} {above : List Value} {v x : Value} {text : List Char}

/-! ### What is inside of a value -/

/-- What is printed inside of a value, in this order. Code objects, cells and functions are named,
and nothing inside of them is printed. -/
def inside (s : Store) : Value → List Value
  | .tuple t => t.items
  | .list r => s.list r
  | .dict r => (s.dict r).values
  | .method m => [m.receiver]
  | _ => []

/-- The text of a value, given the texts of what is inside of it. -/
def phrase (s : Store) : Value → List (List Char) → List Char
  | .tuple _, texts => Phrase.tuple texts
  | .list _, texts => Phrase.list texts
  | .dict r, texts => Phrase.dict (s.dict r).keys texts
  | .method m, texts => Phrase.method (s.function m.function).qualname texts
  | v, _ => (v.renderBy s (fun _ => .text []) (fun _ => .text [])).toList

theorem phrase_none (s : Store) (texts : List (List Char)) : s.phrase .none texts = "None".toList :=
  Text.Rope.toList_text _

theorem phrase_bool (s : Store) (b : Bool) (texts : List (List Char)) :
    s.phrase (.bool b) texts = if b then "True".toList else "False".toList := by
  cases b <;> exact Text.Rope.toList_text _

theorem phrase_int (s : Store) (n : Int64) (texts : List (List Char)) :
    s.phrase (.int n) texts = Text.signedDecimal n.toInt :=
  Text.Rope.toList_text _

theorem phrase_float (s : Store) (x : Binary64) (texts : List (List Char)) :
    s.phrase (.float x) texts = x.render :=
  Text.Rope.toList_text _

theorem phrase_str (s : Store) (t : Str) (texts : List (List Char)) :
    s.phrase (.str t) texts = Text.Quoted.encode t.text.toList :=
  Text.Rope.toList_text _

/-- Is the value a list or a dict that stands inside of itself, being one of those above it? -/
def Recurs (above : List Value) (v : Value) : Prop :=
  v ∈ above ∧ (v.kind = .list ∨ v.kind = .dict)

/-- **The text of a value that stands inside of others**, which are given from the innermost to the
outermost. -/
inductive Spells (s : Store) : List Value → Value → List Char → Prop
  /-- A list inside of itself. -/
  | elidedList {above : List Value} {r : ListRef} (h : .list r ∈ above) :
      Spells s above (.list r) "[...]".toList
  /-- A dict inside of itself. -/
  | elidedDict {above : List Value} {r : DictRef} (h : .dict r ∈ above) :
      Spells s above (.dict r) "\x7b...\x7d".toList
  /-- Anything else, for which each of its parts has a text there. -/
  | written {above : List Value} {v : Value} {texts : List (List Char)} (hnew : ¬Recurs above v)
      (hlength : texts.length = (s.inside v).length)
      (parts : ∀ p ∈ (s.inside v).zip texts, Spells s (v :: above) p.1 p.2) :
      Spells s above v (s.phrase v texts)

/-! ### One layer -/

theorem recurs_list {r : ListRef} : Recurs above (.list r) ↔ .list r ∈ above :=
  ⟨And.left, fun h => ⟨h, .inl rfl⟩⟩

theorem recurs_dict {r : DictRef} : Recurs above (.dict r) ↔ .dict r ∈ above :=
  ⟨And.left, fun h => ⟨h, .inr rfl⟩⟩

theorem not_recurs_of_kind (hlist : v.kind ≠ .list) (hdict : v.kind ≠ .dict) : ¬Recurs above v :=
  fun h => h.2.elim hlist hdict

theorem toList_renderIn_elidedList {r : ListRef} (h : .list r ∈ above) :
    (s.renderIn (.among above) (.list r)).toList = "[...]".toList := by
  rw [renderIn_eq, Value.renderBy,
    if_pos (List.contains_iff_mem.2 (Enclosing.mem_among_lists.2 h))]
  rfl

theorem toList_renderIn_elidedDict {r : DictRef} (h : .dict r ∈ above) :
    (s.renderIn (.among above) (.dict r)).toList = "\x7b...\x7d".toList := by
  rw [renderIn_eq, Value.renderBy,
    if_pos (List.contains_iff_mem.2 (Enclosing.mem_among_dicts.2 h))]
  rfl

/-- **One layer of a text.** What is not elided is put together from the texts of its parts, which
stand inside of it and of all that it stands inside of. -/
theorem toList_renderIn (s : Store) (hnew : ¬Recurs above v) :
    (s.renderIn (.among above) v).toList =
      s.phrase v ((s.inside v).map fun x => (s.renderIn (.among (v :: above)) x).toList) := by
  cases v with
  | tuple t =>
    -- a tuple is no container, so with it above the parts have the same in progress
    have hsame : Enclosing.among (.tuple t :: above) = .among above := rfl
    rw [renderIn_eq, Value.renderBy, renderItemsBy_eq_map, Phrase.toList_tuple, List.map_map, hsame]
    simp only [phrase, inside, Function.comp_def]
    simp only [← renderIn_eq]
  | method m =>
    have hsame : Enclosing.among (.method m :: above) = .among above := rfl
    rw [renderIn_eq, Value.renderBy, Phrase.toList_method, ← renderIn_eq, hsame]
    rfl
  | list r =>
    have hmem : ¬(Enclosing.among above).lists.contains r = true := by
      intro h
      exact hnew (recurs_list.2 (Enclosing.mem_among_lists.1 (List.contains_iff_mem.1 h)))
    rw [renderIn_eq, Value.renderBy, if_neg hmem, Phrase.toList_list, List.map_map]
    rfl
  | dict r =>
    have hmem : ¬(Enclosing.among above).dicts.contains r = true := by
      intro h
      exact hnew (recurs_dict.2 (Enclosing.mem_among_dicts.1 (List.contains_iff_mem.1 h)))
    rw [renderIn_eq, Value.renderBy, if_neg hmem, Phrase.toList_dict]
    simp only [phrase, inside, Table.map, Table.keys, Table.values, List.map_map]
    rfl
  | bool b => cases b <;> rfl
  | _ => rfl

/-! ### Each value has a text -/

/-- How far a printing may still go: by the containers that are not above, then by what is nested
in the value itself. -/
def room (s : Store) (above : List Value) (v : Value) : Nat ×ₗ Nat :=
  toLex (s.containersLeft (.among above), v.depth)

theorem room_lt (s : Store) (hnew : ¬Recurs above v) (hx : x ∈ s.inside v) :
    s.room (v :: above) x < s.room above v := by
  rw [room, room, Prod.Lex.toLex_lt_toLex]
  -- a list or a dict is entered once, and then there is one container less; in a tuple or a method
  -- the containers stay, but what is inside is less deep
  cases v with
  | tuple t => exact .inr ⟨rfl, Value.depth_lt_of_mem hx⟩
  | method m =>
    cases List.mem_singleton.1 hx
    exact .inr ⟨rfl, Nat.lt_succ_self _⟩
  | list r =>
    have hfresh : r ∉ (Enclosing.among above).lists := by
      intro h
      exact hnew (recurs_list.2 (Enclosing.mem_among_lists.1 h))
    have hmade : r.index < s.lists.size := by
      by_contra hge
      rw [inside, list_eq_nil (Nat.le_of_not_lt hge)] at hx
      cases hx
    exact .inl (containersLeft_addList hmade hfresh)
  | dict r =>
    have hfresh : r ∉ (Enclosing.among above).dicts := by
      intro h
      exact hnew (recurs_dict.2 (Enclosing.mem_among_dicts.1 h))
    have hmade : r.index < s.dicts.size := by
      by_contra hge
      rw [inside, dict_eq_empty (Nat.le_of_not_lt hge)] at hx
      cases hx
    exact .inl (containersLeft_addDict hmade hfresh)
  | _ => cases hx

/-- What the library finds is a text of the value. -/
theorem spells_renderIn (s : Store) (above : List Value) (v : Value) :
    s.Spells above v (s.renderIn (.among above) v).toList := by
  -- by recursion on the room that is left, which each part has less of
  by_cases hrecurs : Recurs above v
  · obtain ⟨hmem, hkind⟩ := hrecurs
    cases v with
    | list r =>
      rw [toList_renderIn_elidedList hmem]
      exact .elidedList hmem
    | dict r =>
      rw [toList_renderIn_elidedDict hmem]
      exact .elidedDict hmem
    | _ => rcases hkind with hkind | hkind <;> cases hkind
  · rw [s.toList_renderIn hrecurs]
    refine .written hrecurs (List.length_map _) ?_
    intro p hp
    -- a part is paired with its own text
    rw [List.zip_map_right, List.mem_map] at hp
    obtain ⟨⟨x, y⟩, hxy, rfl⟩ := hp
    obtain ⟨hx, rfl⟩ : x ∈ s.inside v ∧ x = y := by
      rw [List.zip_eq_zipWith, List.zipWith_self, List.mem_map] at hxy
      obtain ⟨z, hz, heq⟩ := hxy
      cases heq
      exact ⟨hz, rfl⟩
    exact s.spells_renderIn (v :: above) x
termination_by s.room above v
decreasing_by exact s.room_lt hrecurs hx

/-- The texts of some values are those that a function gives, if each of them is. -/
theorem eq_map_of_zip {α β : Type} {f : α → β} {xs : List α} {ys : List β}
    (hlength : ys.length = xs.length) (h : ∀ p ∈ xs.zip ys, p.2 = f p.1) : ys = xs.map f := by
  induction xs generalizing ys with
  | nil => exact List.length_eq_zero_iff.1 hlength
  | cons x xs ih =>
    -- the lengths agree, so the two lists end together
    obtain _ | ⟨y, ys⟩ := ys
    · cases hlength
    have hfirst : y = f x := h (x, y) List.mem_cons_self
    have hrest : ys = xs.map f := by
      refine ih (Nat.succ.inj hlength) ?_
      intro p hp
      exact h p (List.mem_cons_of_mem _ hp)
    rw [List.map_cons, ← hfirst, ← hrest]

/-- **A value has one text in each place**, and it is the one that the library finds. -/
theorem spells_iff : s.Spells above v text ↔ text = (s.renderIn (.among above) v).toList := by
  constructor
  · intro h
    -- rule by rule, the library has no other choice than the spelling
    induction h with
    | elidedList h => rw [toList_renderIn_elidedList h]
    | elidedDict h => rw [toList_renderIn_elidedDict h]
    | written hnew hlength _ ih => rw [s.toList_renderIn hnew, ← eq_map_of_zip hlength ih]
  · rintro rfl
    exact s.spells_renderIn above v

/-- With nothing around it, it is the text that programs see. -/
theorem spells_nil_iff : s.Spells [] v text ↔ text = s.render v := by
  rw [spells_iff, ← toList_renderIn_none]
  rfl

end Store

end Callable
