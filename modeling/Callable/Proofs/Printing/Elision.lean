import Callable.Proofs.Printing.Codes
import Callable.Proofs.Printing.Spelling
import Callable.Proofs.Walk.Ending
import Mathlib.Logic.Relation

/-!
# What a printing elides

A printing keeps one set of lists and dicts in progress, for all of its branches. On each branch
that set turns out to be what encloses the place which the printing has come to: so what is elided is
what stands inside of itself, and nothing else is.

* `Store.Occurs` — the places in the printing of a value, each with what encloses it.
* `Walk.ComesTo`, `Store.comesTo_iff` — where a printing comes to, and what is in progress then.
* `Store.Shown` — what the text is like at such a place.
* `Store.Unguarded`, `Store.unguarded_iff` — the text without any guard. A value has one exactly if
  no cycle can be reached from it.
* `Store.render_elides` — the result.
-/

namespace Callable

/-! ### Where a walk comes to -/

namespace Walk

variable {N K R : Type} [DecidableEq K] {look : N → Look N K R}

/-- In the course of a walk from `active` and `part` there comes a moment at which it turns to the
place, with these keys in progress. -/
inductive ComesTo (look : N → Look N K R) : Finset K → Part N R → Finset K → N → Prop
  | here (active : Finset K) (n : N) : ComesTo look active (.place n) active n
  | through {active active' : Finset K} {n m : N} {plan : Plan N R}
      (hlook : look n = .through plan) (h : ComesTo look active (.plan plan) active' m) :
      ComesTo look active (.place n) active' m
  | entered {active active' : Finset K} {n m : N} {key : K} {again : R} {plan : Plan N R}
      (hlook : look n = .guard key again plan) (hkey : key ∉ active)
      (h : ComesTo look (insert key active) (.plan plan) active' m) :
      ComesTo look active (.place n) active' m
  | first {active active' : Finset K} {n m : N} {next : R → Plan N R}
      (h : ComesTo look active (.place n) active' m) :
      ComesTo look active (.plan (.visit n next)) active' m
  | later {active active₁ active' : Finset K} {n m : N} {next : R → Plan N R} {t : Trace N K} {r : R}
      (walk : Walks look active (.place n) [t] r active₁)
      (h : ComesTo look active₁ (.plan (next r)) active' m) :
      ComesTo look active (.plan (.visit n next)) active' m

theorem ComesTo.trans {active active' active'' : Finset K} {part : Part N R} {n m : N}
    (h : ComesTo look active part active' n) (h' : ComesTo look active' (.place n) active'' m) :
    ComesTo look active part active'' m := by
  -- the second way begins where the first one ends, so it is put behind each of its steps
  induction h with
  | here => exact h'
  | through hlook _ ih => exact .through hlook (ih h')
  | entered hlook hkey _ ih => exact .entered hlook hkey (ih h')
  | first _ ih => exact .first (ih h')
  | later walk _ ih => exact .later walk (ih h')

end Walk

open Walk

namespace Store

variable {s : Store} {above above' : List Value} {v x y : Value} {text : List Char}

/-! ### Occurrences -/

/-- **A place in the printing of a value:** what stands there, and the values on the way to it, from
the innermost to `v` itself. What is elided has no places inside of it. -/
inductive Occurs (s : Store) (v : Value) : List Value → Value → Prop
  | root : Occurs s v [] v
  | part {above : List Value} {y x : Value} (h : Occurs s v above y) (hnew : ¬Recurs above y)
      (hx : x ∈ s.inside y) : Occurs s v (y :: above) x

/-- The lists and dicts among the values on the way. -/
abbrev containersAmong (above : List Value) : Finset Container := (Enclosing.among above).containers

theorem list_mem_containersAmong {r : ListRef} : .list r ∈ containersAmong above ↔ .list r ∈ above :=
  Enclosing.list_mem_containers.trans Enclosing.mem_among_lists

theorem dict_mem_containersAmong {r : DictRef} : .dict r ∈ containersAmong above ↔ .dict r ∈ above :=
  Enclosing.dict_mem_containers.trans Enclosing.mem_among_dicts

theorem containersAmong_list (r : ListRef) :
    containersAmong (.list r :: above) = insert (.list r) (containersAmong above) :=
  (Enclosing.among above).containers_addList r

theorem containersAmong_dict (r : DictRef) :
    containersAmong (.dict r :: above) = insert (.dict r) (containersAmong above) :=
  (Enclosing.among above).containers_addDict r

/-- What is looked into without a guard is never elided, and is no list or dict in progress. -/
theorem of_through (above : List Value) {plan : Plan Value Text.Rope}
    (hlook : s.printing y = .through plan) :
    ¬Recurs above y ∧ containersAmong (y :: above) = containersAmong above ∧
      ∀ x, plan.Mentions x → x ∈ s.inside y := by
  cases y with
  | list r => cases hlook
  | dict r => cases hlook
  | tuple t =>
    cases hlook
    exact ⟨not_recurs_of_kind nofun nofun, rfl, fun x hx => Printing.mem_of_mentions_items hx⟩
  | method m =>
    cases hlook
    refine ⟨not_recurs_of_kind nofun nofun, rfl, ?_⟩
    intro x hx
    -- the plan of a method has one visit, to the receiver
    cases hx with
    | here => exact List.mem_singleton_self _
    | later hx => cases hx
  | _ =>
    cases hlook
    exact ⟨not_recurs_of_kind nofun nofun, rfl, nofun⟩

/-- What has a guard is elided if it is on the way, and is in progress inside of itself. -/
theorem of_guard (above : List Value) {key : Container} {again : Text.Rope}
    {plan : Plan Value Text.Rope} (hlook : s.printing y = .guard key again plan) :
    (key ∈ containersAmong above ↔ Recurs above y) ∧
      containersAmong (y :: above) = insert key (containersAmong above) ∧
      ∀ x, plan.Mentions x → x ∈ s.inside y := by
  cases y with
  | list r =>
    cases hlook
    exact ⟨list_mem_containersAmong.trans recurs_list.symm, containersAmong_list r,
      fun x hx => Printing.mem_of_mentions_items hx⟩
  | dict r =>
    cases hlook
    exact ⟨dict_mem_containersAmong.trans recurs_dict.symm, containersAmong_dict r,
      fun x hx => Printing.mem_of_mentions_items hx⟩
  | _ => cases hlook

/-- What a part of a printing has in hand at a place of the value that is printed. -/
def Stands (s : Store) (v : Value) (active : Finset Container) : Part Value Text.Rope → Prop
  | .place x => ∃ above, s.Occurs v above x ∧ active = containersAmong above
  | .plan plan => ∃ above y, s.Occurs v above y ∧ ¬Recurs above y ∧
      active = containersAmong (y :: above) ∧ ∀ x, plan.Mentions x → x ∈ s.inside y

/-- A walk that is at a place of the value comes to places of the value only. -/
theorem Stands.comesTo {active active' : Finset Container} {part : Part Value Text.Rope}
    (hstands : s.Stands v active part) (h : ComesTo s.printing active part active' x) :
    s.Stands v active' (.place x) := by
  -- by induction on the way of the walk: each turn that it takes is a step to a part
  induction h with
  | here => exact hstands
  | through hlook _ ih =>
    obtain ⟨above, hoccurs, rfl⟩ := hstands
    obtain ⟨hnew, hsame, hinside⟩ := of_through above hlook
    exact ih ⟨above, _, hoccurs, hnew, hsame.symm, hinside⟩
  | entered hlook hkey _ ih =>
    obtain ⟨above, hoccurs, rfl⟩ := hstands
    obtain ⟨hrecurs, hinsert, hinside⟩ := of_guard above hlook
    have hnew : ¬Recurs above _ := fun h => hkey (hrecurs.2 h)
    exact ih ⟨above, _, hoccurs, hnew, hinsert.symm, hinside⟩
  | first _ ih =>
    obtain ⟨above, y, hoccurs, hnew, rfl, hinside⟩ := hstands
    exact ih ⟨y :: above, .part hoccurs hnew (hinside _ (.here _)), rfl⟩
  | later walk _ ih =>
    obtain ⟨above, y, hoccurs, hnew, rfl, hinside⟩ := hstands
    -- the walk in between leaves in progress what was in progress
    exact ih ⟨above, y, hoccurs, hnew, walk.active_eq, fun x hx => hinside x (.later hx)⟩

/-- A walk comes to each of some values that it prints one after the other. -/
theorem comesTo_items {e : Enclosing} {compose : List Text.Rope → Text.Rope} {xs : List Value}
    (hx : x ∈ xs) :
    ComesTo s.printing e.containers (.plan (Printing.items compose xs)) e.containers x := by
  induction xs generalizing compose with
  | nil => cases hx
  | cons y ys ih =>
    rcases List.mem_cons.1 hx with rfl | hx
    · exact .first (.here _ _)
    · -- the items before it are printed to their end, which leaves in progress what was so before
      obtain ⟨t, hwalks, -⟩ := s.ends_printing y e
      have hwalk := (hwalks [t] _ e.containers).2 ⟨rfl, rfl, rfl⟩
      exact .later hwalk (ih hx)

/-- A walk comes to each part of what it does not elide. -/
theorem comesTo_part (hnew : ¬Recurs above y) (hx : x ∈ s.inside y) :
    ComesTo s.printing (containersAmong above) (.place y) (containersAmong (y :: above)) x := by
  cases y with
  | tuple t => exact .through rfl (comesTo_items hx)
  | method m =>
    cases List.mem_singleton.1 hx
    exact .through rfl (.first (.here _ _))
  | list r =>
    have hkey : .list r ∉ containersAmong above := by
      intro h
      exact hnew (recurs_list.2 (list_mem_containersAmong.1 h))
    refine .entered rfl hkey ?_
    rw [← containersAmong_list]
    exact comesTo_items hx
  | dict r =>
    have hkey : .dict r ∉ containersAmong above := by
      intro h
      exact hnew (recurs_dict.2 (dict_mem_containersAmong.1 h))
    refine .entered rfl hkey ?_
    rw [← containersAmong_dict]
    exact comesTo_items hx
  | _ => cases hx

/-- **What is in progress is what encloses.** A printing comes to the places of the value, and at
each of them the lists and dicts in progress are those on the way to it. -/
theorem comesTo_iff {active : Finset Container} :
    ComesTo s.printing ∅ (.place v) active x ↔
      ∃ above, s.Occurs v above x ∧ active = containersAmong above := by
  constructor
  · intro h
    have hroot : s.Stands v ∅ (.place v) := ⟨[], .root, rfl⟩
    exact hroot.comesTo h
  · rintro ⟨above, hoccurs, rfl⟩
    -- along the way to the place, from the value itself
    induction hoccurs with
    | root => exact .here _ _
    | part _ hnew hx ih => exact ih.trans (comesTo_part hnew hx)

end Store

/-! ### What the texts look like -/

namespace Phrase

variable {text : List Char} {texts : List (List Char)}

theorem isInfix_commas (hmem : text ∈ texts) : text <:+: commas texts := by
  induction texts with
  | nil => cases hmem
  | cons t texts ih =>
    cases texts with
    | nil =>
      cases List.mem_singleton.1 hmem
      rw [commas, List.intercalate_singleton]
    | cons u texts =>
      rw [commas_cons_cons]
      -- it is the first text, or stands in what is behind the first comma
      rcases List.mem_cons.1 hmem with rfl | hmem
      · rw [List.append_assoc]
        exact (List.prefix_append _ _).isInfix
      · exact (ih hmem).trans (List.suffix_append _ _).isInfix

/-- Every text is that of some entry. -/
theorem exists_entry_mem {names : List String} (hlength : names.length = texts.length)
    (hmem : text ∈ texts) : ∃ name, entry name text ∈ List.zipWith entry names texts := by
  obtain ⟨i, hi, rfl⟩ := List.mem_iff_getElem.1 hmem
  have hi' : i < names.length := hlength ▸ hi
  refine ⟨names[i], List.mem_iff_getElem.2 ⟨i, ?_, List.getElem_zipWith⟩⟩
  rw [List.length_zipWith, hlength, Nat.min_self]
  exact hi

/-- A text that begins with another character does not begin with a dot. -/
theorem head?_cons_ne_dot {c : Char} (hc : c ≠ '.') (cs : List Char) : (c :: cs).head? ≠ some '.' :=
  fun h => hc (Option.some.inj h)

/-- Texts none of which begins with a dot are not put together to one that does. -/
theorem head?_commas_ne_dot (h : ∀ text ∈ texts, text.head? ≠ some '.') :
    (commas texts).head? ≠ some '.' := by
  cases texts with
  | nil => simp [commas]
  | cons t texts =>
    cases texts with
    | nil =>
      rw [commas, List.intercalate_singleton]
      exact h t List.mem_cons_self
    | cons u texts =>
      rw [commas_cons_cons, List.append_assoc]
      cases t with
      | nil => exact head?_cons_ne_dot (by decide) _
      | cons c t => exact h (c :: t) List.mem_cons_self

theorem list_ne_elided (h : ∀ text ∈ texts, text.head? ≠ some '.') :
    list texts ≠ "[...]".toList := by
  intro heq
  -- without the brackets the three dots would be what the commas join
  have hinner : commas texts = ['.', '.', '.'] :=
    List.append_cancel_right (List.cons.inj heq).2
  have hdot : (commas texts).head? = some '.' := by rw [hinner]; rfl
  exact head?_commas_ne_dot h hdot

theorem dict_ne_elided (names : List String) : dict names texts ≠ "\x7b...\x7d".toList := by
  intro heq
  have hinner : commas (List.zipWith entry names texts) = ['.', '.', '.'] :=
    List.append_cancel_right (List.cons.inj heq).2
  have hdot : (commas (List.zipWith entry names texts)).head? = some '.' := by rw [hinner]; rfl
  refine head?_commas_ne_dot ?_ hdot
  -- every entry begins with a quote
  intro text hmem
  obtain ⟨i, hi, rfl⟩ := List.mem_iff_getElem.1 hmem
  rw [List.getElem_zipWith]
  exact head?_cons_ne_dot (by decide) _

end Phrase

namespace Store

variable {s : Store} {above above' : List Value} {v x y : Value} {text : List Char}

/-- The text of a part stands in the text of the whole. -/
theorem isInfix_phrase {texts : List (List Char)} (hlength : texts.length = (s.inside v).length)
    (hmem : text ∈ texts) : text <:+: s.phrase v texts := by
  cases v with
  | tuple t =>
    match texts with
    | [] => cases hmem
    | [u] =>
      -- the tuple of one item is written otherwise than the longer ones
      cases List.mem_singleton.1 hmem
      exact ⟨['('], [',', ')'], rfl⟩
    | u :: w :: texts => exact (Phrase.isInfix_commas hmem).trans ⟨['('], [')'], rfl⟩
  | list r => exact (Phrase.isInfix_commas hmem).trans ⟨['['], [']'], rfl⟩
  | dict r =>
    have hnames : (s.dict r).keys.length = texts.length := by
      rw [hlength, inside, Table.keys, Table.values, List.length_map, List.length_map]
    obtain ⟨name, hentry⟩ := Phrase.exists_entry_mem hnames hmem
    have hin : text <:+: Phrase.entry name text := (List.suffix_append _ _).isInfix
    exact (hin.trans (Phrase.isInfix_commas hentry)).trans ⟨['\x7b'], ['\x7d'], rfl⟩
  | method m =>
    have hflatten : text <:+: texts.flatten := List.infix_of_mem_flatten hmem
    exact hflatten.trans ⟨_, ['>'], rfl⟩
  | _ =>
    rw [List.length_eq_zero_iff.1 hlength] at hmem
    cases hmem

/-- The text at a place of a value stands in the text of the value. -/
theorem Occurs.piece (h : s.Occurs v above x) :
    (s.renderIn (.among above) x).toList <:+: s.render v := by
  induction h with
  | root =>
    rw [← toList_renderIn_none]
    exact List.infix_refl _
  | @part above y x _ hnew hx ih =>
    -- by induction on the way down: the text of a part is a piece of that of the value around it
    refine List.IsInfix.trans ?_ ih
    rw [s.toList_renderIn hnew]
    exact isInfix_phrase (List.length_map _) (List.mem_map.2 ⟨x, hx, rfl⟩)

/-- No text begins with a dot. -/
theorem head?_phrase_ne_dot (s : Store) (v : Value) (texts : List (List Char)) :
    (s.phrase v texts).head? ≠ some '.' := by
  cases v with
  | int n =>
    rw [phrase_int, Text.signedDecimal]
    split
    · exact Phrase.head?_cons_ne_dot (by decide) _
    · obtain ⟨c, cs, hcons, hdigit⟩ := Text.exists_decimal_eq_cons n.toInt.natAbs
      rw [hcons]
      rintro ⟨⟩
      cases hdigit
  | float x =>
    rw [phrase_float]
    exact x.head?_render_ne_dot
  | str t =>
    rw [phrase_str]
    exact Phrase.head?_cons_ne_dot (by decide) _
  | bool b =>
    cases b
    all_goals exact Phrase.head?_cons_ne_dot (by decide) _
  | tuple t =>
    -- what is written for the empty tuple does not begin at all
    rcases texts with - | ⟨text, - | ⟨text', texts⟩⟩
    · rintro ⟨⟩
    · exact Phrase.head?_cons_ne_dot (by decide) _
    · exact Phrase.head?_cons_ne_dot (by decide) _
  | cell c =>
    have hphrase : s.phrase (.cell c) texts = (Rendering.cell c (s.cell c)).toList := rfl
    rw [hphrase]
    cases s.cell c
    all_goals exact Phrase.head?_cons_ne_dot (by decide) _
  | _ => exact Phrase.head?_cons_ne_dot (by decide) _

theorem Spells.head?_ne_dot (h : s.Spells above v text) : text.head? ≠ some '.' := by
  cases h with
  | elidedList => exact Phrase.head?_cons_ne_dot (by decide) _
  | elidedDict => exact Phrase.head?_cons_ne_dot (by decide) _
  | written => exact head?_phrase_ne_dot _ _ _

/-! ### Texts at a place -/

/-- A list is elided where the same list encloses it, and only there. -/
theorem renderIn_list_eq_elided_iff {r : ListRef} :
    (s.renderIn (.among above) (.list r)).toList = "[...]".toList ↔ .list r ∈ above := by
  constructor
  · intro htext
    by_contra hmem
    rw [s.toList_renderIn (mt recurs_list.1 hmem)] at htext
    refine Phrase.list_ne_elided ?_ htext
    -- no text of an item begins with a dot
    intro text hitem
    obtain ⟨x, -, rfl⟩ := List.mem_map.1 hitem
    exact (s.spells_renderIn _ x).head?_ne_dot
  · exact toList_renderIn_elidedList

/-- A dict is elided where the same dict encloses it, and only there. -/
theorem renderIn_dict_eq_elided_iff {r : DictRef} :
    (s.renderIn (.among above) (.dict r)).toList = "\x7b...\x7d".toList ↔ .dict r ∈ above := by
  constructor
  · intro htext
    by_contra hmem
    rw [s.toList_renderIn (mt recurs_dict.1 hmem)] at htext
    exact Phrase.dict_ne_elided _ htext
  · exact toList_renderIn_elidedDict

/-! ### Cycles -/

/-- The one is printed directly inside of the other. -/
def Encloses (s : Store) (v x : Value) : Prop := x ∈ s.inside v

/-- Something that stands inside of itself is inside of the value, or is the value. -/
def ReachesCycle (s : Store) (v : Value) : Prop :=
  ∃ c, Relation.ReflTransGen s.Encloses v c ∧ Relation.TransGen s.Encloses c c

/-- **The text of a value without any guard.** Each part has its text, wherever it stands. -/
inductive Unguarded (s : Store) : Value → List Char → Prop
  | intro {v : Value} {texts : List (List Char)} (hlength : texts.length = (s.inside v).length)
      (parts : ∀ p ∈ (s.inside v).zip texts, Unguarded s p.1 p.2) : Unguarded s v (s.phrase v texts)

/-- The way to a place: `v` leads to it, and so does all that encloses it. -/
theorem Occurs.reaches (h : s.Occurs v above x) :
    Relation.ReflTransGen s.Encloses v x ∧ ∀ y ∈ above, Relation.TransGen s.Encloses y x := by
  induction h with
  | root => exact ⟨.refl, nofun⟩
  | part _ _ hx ih =>
    -- the place moves one part further in, and the value that it leaves is above it now
    refine ⟨ih.1.tail hx, ?_⟩
    intro z hz
    rcases List.mem_cons.1 hz with rfl | hz
    · exact .single hx
    · exact (ih.2 z hz).tail hx

/-- What is elided is on a cycle. -/
theorem Occurs.reachesCycle (h : s.Occurs v above x) (hrecurs : Recurs above x) :
    s.ReachesCycle v :=
  ⟨x, h.reaches.1, h.reaches.2 x hrecurs.1⟩

/-- The text at a place depends on what encloses it only as far as that can be come to again. -/
theorem Spells.congr (h : s.Spells above v text)
    (hsame : ∀ c, Relation.ReflTransGen s.Encloses v c → (Recurs above c ↔ Recurs above' c)) :
    s.Spells above' v text := by
  -- by induction on the text, for any that enclose the place instead
  induction h generalizing above' with
  | elidedList h => exact .elidedList ((hsame _ .refl).1 (recurs_list.2 h)).1
  | elidedDict h => exact .elidedDict ((hsame _ .refl).1 (recurs_dict.2 h)).1
  | @written above v texts hnew hlength _ ih =>
    refine .written (fun h => hnew ((hsame v .refl).2 h)) hlength ?_
    intro p hp
    have hx : p.1 ∈ s.inside v := (List.of_mem_zip hp).1
    refine ih p hp ?_
    -- the part has the value itself above it on both sides, and for the rest nothing has changed
    intro c hc
    have hrest := hsame c (hc.head hx)
    simp only [Recurs, List.mem_cons, or_and_right] at hrest ⊢
    rw [hrest]

/-- Where nothing that encloses a place can be come to again, the text is as if it stood alone. -/
theorem renderIn_eq_render (hapart : ∀ c ∈ above, ¬Relation.ReflTransGen s.Encloses x c) :
    (s.renderIn (.among above) x).toList = s.render x := by
  have halone : s.Spells [] x (s.renderIn (.among above) x).toList := by
    refine (s.spells_renderIn above x).congr ?_
    intro c hc
    exact ⟨fun h => absurd hc (hapart c h.1), fun h => absurd h.1 List.not_mem_nil⟩
  exact spells_nil_iff.1 halone

/-- If nothing is elided in the printing of a value, the guards have made no difference. -/
theorem Spells.unguarded_of_occurs (h : s.Spells above x text) (hoccurs : s.Occurs v above x)
    (hnone : ∀ above x, s.Occurs v above x → ¬Recurs above x) : s.Unguarded x text := by
  induction h with
  | elidedList h => exact absurd (recurs_list.2 h) (hnone _ _ hoccurs)
  | elidedDict h => exact absurd (recurs_dict.2 h) (hnone _ _ hoccurs)
  | written hnew hlength _ ih =>
    refine .intro hlength ?_
    intro p hp
    exact ih p hp (.part hoccurs hnew (List.of_mem_zip hp).1)

/-- Without a cycle nothing is elided. -/
theorem unguarded_render (hacyclic : ¬s.ReachesCycle v) : s.Unguarded v (s.render v) := by
  have hspells : s.Spells [] v (s.render v) := spells_nil_iff.2 rfl
  exact hspells.unguarded_of_occurs .root fun _ _ h hrecurs => hacyclic (h.reachesCycle hrecurs)

/-- If no cycle can be reached, the text is put together from those that the parts have alone. -/
theorem render_of_acyclic (hacyclic : ¬s.ReachesCycle v) :
    s.render v = s.phrase v ((s.inside v).map s.render) := by
  have hnew : ¬Recurs [] v := fun h => absurd h.1 List.not_mem_nil
  have halone : (s.renderIn (.among []) v).toList = s.render v := renderIn_eq_render nofun
  rw [← halone, s.toList_renderIn hnew]
  congr 1
  refine List.map_congr_left ?_
  intro x hx
  refine renderIn_eq_render ?_
  -- from a part there is no way back to the value
  intro c hc hreach
  cases List.mem_singleton.1 hc
  exact hacyclic ⟨v, .refl, .head' hx hreach⟩

/-- A cycle is reached by way of some part. -/
theorem ReachesCycle.exists_mem_inside (h : s.ReachesCycle v) :
    ∃ x ∈ s.inside v, s.ReachesCycle x := by
  obtain ⟨c, hreach, hcycle⟩ := h
  rcases hreach.cases_head with rfl | ⟨x, hx, hrest⟩
  · -- the value is on the cycle itself, and so is the first part on it
    obtain ⟨x, hx, hback⟩ := Relation.TransGen.head'_iff.1 hcycle
    exact ⟨x, hx, v, hback, hcycle⟩
  · exact ⟨x, hx, c, hrest, hcycle⟩

/-- What has a text without a guard is put together in finitely many steps. -/
theorem Unguarded.not_reachesCycle (h : s.Unguarded v text) : ¬s.ReachesCycle v := by
  -- by induction on the text: a cycle would have to be reached by way of some part
  induction h with
  | @intro v texts hlength _ ih =>
    intro hcycle
    obtain ⟨x, hx, hcycle⟩ := hcycle.exists_mem_inside
    obtain ⟨i, hi, rfl⟩ := List.mem_iff_getElem.1 hx
    have hi' : i < ((s.inside v).zip texts).length := by
      rw [List.length_zip, hlength, Nat.min_self]
      exact hi
    refine ih _ (List.getElem_mem hi') ?_
    rw [List.getElem_zip]
    exact hcycle

theorem Unguarded.eq_render (h : s.Unguarded v text) : text = s.render v := by
  induction h with
  | @intro v texts hlength parts ih =>
    have hacyclic := (Unguarded.intro hlength parts).not_reachesCycle
    rw [render_of_acyclic hacyclic, ← eq_map_of_zip hlength ih]

/-- **Texts without a guard.** A value has one exactly if no cycle can be reached from it, and then
it is the text that the library finds. -/
theorem unguarded_iff : s.Unguarded v text ↔ ¬s.ReachesCycle v ∧ text = s.render v := by
  constructor
  · intro h
    exact ⟨h.not_reachesCycle, h.eq_render⟩
  · rintro ⟨hacyclic, rfl⟩
    exact unguarded_render hacyclic

/-- Something is elided exactly if a cycle can be reached. -/
theorem exists_recurs_iff : (∃ above x, s.Occurs v above x ∧ Recurs above x) ↔ s.ReachesCycle v := by
  constructor
  · rintro ⟨above, x, hoccurs, hrecurs⟩
    exact hoccurs.reachesCycle hrecurs
  · intro hcycle
    by_contra hnone
    have hspells : s.Spells [] v (s.render v) := spells_nil_iff.2 rfl
    have hunguarded : s.Unguarded v (s.render v) :=
      hspells.unguarded_of_occurs .root fun above x hoccurs hrecurs =>
        hnone ⟨above, x, hoccurs, hrecurs⟩
    exact hunguarded.not_reachesCycle hcycle

/-! ### The result -/

/-- **What stands at a place** in the text of a value. -/
structure Shown (s : Store) (v : Value) (above : List Value) (x : Value) (text : List Char) :
    Prop where
  /-- It is put together from the texts of the parts, except if it is elided. -/
  spells : s.Spells above x text
  /-- It is a piece of the text of the value. -/
  piece : text <:+: s.render v
  /-- A list looks elided if the same list encloses the place, and otherwise it does not. -/
  list : ∀ r, x = .list r → (text = "[...]".toList ↔ .list r ∈ above)
  /-- So it is with dicts. -/
  dict : ∀ r, x = .dict r → (text = "\x7b...\x7d".toList ↔ .dict r ∈ above)
  /-- If nothing that encloses the place can be come to again, the text is the same as elsewhere. -/
  alone : (∀ c ∈ above, ¬Relation.ReflTransGen s.Encloses x c) → text = s.render x
  /-- The walk that comes to the place writes this text. It leaves in progress what was so before. -/
  walk : (∃ ts rope, Walks s.printing (containersAmong above) (.place x) ts rope
      (containersAmong above)) ∧
    ∀ ts rope active, Walks s.printing (containersAmong above) (.place x) ts rope active →
      rope.toList = text ∧ active = containersAmong above

theorem Occurs.shown (h : s.Occurs v above x) :
    s.Shown v above x (s.renderIn (.among above) x).toList where
  spells := s.spells_renderIn above x
  piece := h.piece
  list := by
    rintro r rfl
    exact renderIn_list_eq_elided_iff
  dict := by
    rintro r rfl
    exact renderIn_dict_eq_elided_iff
  alone := renderIn_eq_render
  walk := by
    obtain ⟨t, hwalks, -⟩ := s.ends_printing x (.among above)
    refine ⟨⟨[t], _, (hwalks _ _ _).2 ⟨rfl, rfl, rfl⟩⟩, ?_⟩
    intro ts rope active hwalk
    obtain ⟨-, rfl, rfl⟩ := (hwalks _ _ _).1 hwalk
    exact ⟨rfl, rfl⟩

/-- **What is elided is what stands inside of itself.** The text of a value is put together from
those of its parts, and a list or dict is elided exactly where the same list or dict encloses it. The one
set of containers in progress, which all branches of the printing share, has at each place the
containers that enclose it. So an object that is come to on several ways, and not from inside of
itself, is written on each of them; nothing is elided if no cycle can be reached; and then the text
is the one that is written without any guard. -/
theorem render_elides (s : Store) (v : Value) :
    (∀ text, s.Spells [] v text ↔ text = s.render v) ∧
    (∀ active x, ComesTo s.printing ∅ (.place v) active x ↔
      ∃ above, s.Occurs v above x ∧ active = containersAmong above) ∧
    (∀ above x, s.Occurs v above x → ∃ text, s.Shown v above x text) ∧
    ((∃ above x, s.Occurs v above x ∧ Recurs above x) ↔ s.ReachesCycle v) ∧
    ∀ text, s.Unguarded v text ↔ ¬s.ReachesCycle v ∧ text = s.render v :=
  ⟨fun _ => spells_nil_iff, fun _ _ => comesTo_iff, fun _ _ h => ⟨_, h.shown⟩, exists_recurs_iff,
    fun _ => unguarded_iff⟩

/-- A dict with a list that it has twice, once in a tuple, and with a method that is bound to the
dict itself. -/
def knot : Store where
  lists := ⟨#[some [.int 1]]⟩
  dicts := ⟨#[some (.ofList [("once", .list ⟨0⟩), ("twice", .tuple ⟨⟨0⟩, [.list ⟨0⟩]⟩),
    ("self", .method ⟨⟨1⟩, ⟨0⟩, .dict ⟨0⟩⟩)])]⟩
  cells := .empty
  functions := ⟨#[some { (default : FunctionObject) with qualname := "f" }]⟩
  labels := 2

/-- The list is written in both places. The dict is elided inside of its own method, so without a
guard there would be no text. -/
theorem render_elides_knot :
    knot.Spells [] (.dict ⟨0⟩)
        "\x7b\"once\": [1], \"twice\": ([1],), \"self\": <bound method f of \x7b...\x7d>\x7d".toList ∧
      ∀ text, ¬knot.Unguarded (.dict ⟨0⟩) text := by
  obtain ⟨hspells, -, -, -, hunguarded⟩ := knot.render_elides (.dict ⟨0⟩)
  have hcycle : knot.ReachesCycle (.dict ⟨0⟩) := by
    have hmethod : knot.Encloses (.dict ⟨0⟩) (.method ⟨⟨1⟩, ⟨0⟩, .dict ⟨0⟩⟩) :=
      List.mem_cons_of_mem _ (List.mem_cons_of_mem _ List.mem_cons_self)
    have hback : knot.Encloses (.method ⟨⟨1⟩, ⟨0⟩, .dict ⟨0⟩⟩) (.dict ⟨0⟩) := List.mem_cons_self
    exact ⟨_, .refl, .head hmethod (.single hback)⟩
  refine ⟨(hspells _).2 (by decide +kernel), ?_⟩
  intro text h
  exact ((hunguarded text).1 h).1 hcycle

end Store

end Callable
