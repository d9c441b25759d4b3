import Callable.Json.Printer
import Callable.Json.Reader
import Callable.Proofs.Printing.Codes

/-!
# Reading what was written

The reader takes apart what the printer puts together. Neither knows of the other: the printer has its
escapes and the reader its own, and a text may spell in several ways what is written in one.

Every part is read off the front of what follows it, so each statement is about a text with a rest.
A string says where it ends and so do arrays and objects; a number does not, and for it the rest must
not begin with something that a number can go on with (`Ends`).

* `Json.Written` — the values of which a text can be made and read back: numbers are numerals of
  natural numbers, and strings have a text.
* `Reader.string_escape`, `Reader.number_decimal` — strings and numbers.
* `Reader.Reads` — a value is read off the front of any rest; `Written.reads` by induction over the
  value, with one lemma for the items of an array and one for the members of an object.
* `Json.parse?_print` — the value of a whole text.
-/

namespace Callable

/-! ### Numerals -/

namespace Text

/-- A numeral begins with a zero for the number zero only. -/
theorem head?_decimal_ne_zero {n : Nat} (h : 0 < n) : (decimal n).head? ≠ some '0' := by
  unfold decimal
  -- by induction on the number: the first digit is that of the quotient by ten
  induction n using Nat.strongRecOn with
  | ind n ih =>
    rw [Nat.toDigits_eq_if (by decide)]
    split
    · rename_i hlt
      have hdigits : ∀ k < 10, 0 < k → [k.digitChar].head? ≠ some '0' := by decide
      exact hdigits n hlt h
    · rw [List.head?_append_of_ne_nil _ Nat.toDigits_ne_nil]
      exact ih (n / 10) (by omega) (by omega)

end Text

namespace Json

open Text

/-! ### Strings -/

/-- The digits of a control character are those of its number. -/
theorem unit?_fourDigits : ∀ n < 32,
    fourDigits n = ['0', '0', (n / 16).digitChar, (n % 16).digitChar] ∧
      Reader.unit? '0' '0' (n / 16).digitChar (n % 16).digitChar = some n := by
  decide

namespace Reader

variable {cs rest : List Char}

theorem pieces_char {c : Char} (hcontrol : ¬ c.toNat < 32) (hquote : c ≠ '"') (hslash : c ≠ '\\') :
    pieces (c :: cs) = (pieces cs).map fun (ps, rest) => (.char c :: ps, rest) := by
  rw [pieces]
  · rw [if_neg (by rintro (h | h) <;> contradiction)]
    cases pieces cs <;> rfl
  · exact hquote
  · exact fun _ _ _ _ _ h => absurd h hslash
  · exact fun _ _ h => absurd h hslash

theorem pieces_simpleEscape {e c : Char} (he : e ≠ 'u') (hc : simpleEscape? e = some c) :
    pieces ('\\' :: e :: cs) = (pieces cs).map fun (ps, rest) => (.char c :: ps, rest) := by
  rw [pieces]
  · rw [hc]
    cases pieces cs <;> rfl
  · -- the case for `u` comes before this one, so it has to be ruled out
    exact fun _ _ _ _ _ h => absurd h he

theorem pieces_unitEscape {n : Nat} (hn : n < 32) :
    pieces (unitEscape n ++ cs) = (pieces cs).map fun (ps, rest) => (.unit n :: ps, rest) := by
  obtain ⟨hdigits, hunit⟩ := unit?_fourDigits n hn
  rw [unitEscape, hdigits]
  change pieces ('\\' :: 'u' :: '0' :: '0' :: (n / 16).digitChar :: (n % 16).digitChar :: cs) = _
  rw [pieces, hunit]
  cases pieces cs <;> rfl

/-- A code unit that is no half of a pair is a character, whatever comes after it. -/
theorem joinPieces_unit {n : Nat} (hn : n < 32) (ps : List Piece) :
    joinPieces (.unit n :: ps) = (joinPieces ps).map (Char.ofNat n :: ·) := by
  have hhigh : isHigh n = false := by
    rw [isHigh, Bool.and_eq_false_iff]
    exact .inl (decide_eq_false (by omega))
  have hlow : isLow n = false := by
    rw [isLow, Bool.and_eq_false_iff]
    exact .inl (decide_eq_false (by omega))
  -- only a high half would look at what comes after it
  cases ps with
  | nil => simp [joinPieces, hhigh, hlow]
  | cons p ps =>
    cases p <;> simp [joinPieces, hhigh, hlow]

/-- **A character is read back** from the way it is written. -/
theorem exists_piece (c : Char) : ∃ p : Piece,
    (∀ ps, joinPieces (p :: ps) = (joinPieces ps).map (c :: ·)) ∧
      ∀ cs, pieces (escape c ++ cs) = (pieces cs).map fun (ps, rest) => (p :: ps, rest) := by
  have simple {e c : Char} (he : e ≠ 'u') (hc : simpleEscape? e = some c) : ∃ p : Piece,
      (∀ ps, joinPieces (p :: ps) = (joinPieces ps).map (c :: ·)) ∧
        ∀ cs, pieces ('\\' :: e :: cs) = (pieces cs).map fun (ps, rest) => (p :: ps, rest) :=
    ⟨.char c, fun _ => rfl, fun _ => pieces_simpleEscape he hc⟩
  -- one case for each way in which the printer may write the character
  unfold escape
  split
  · exact simple (by decide) rfl
  · exact simple (by decide) rfl
  · exact simple (by decide) rfl
  · exact simple (by decide) rfl
  · exact simple (by decide) rfl
  · rename_i hquote hslash _ _ _
    -- the last two short escapes are told by the number of the character
    have hback : Char.ofNat c.toNat = c := Char.ofNat_toNat c
    split
    · rename_i hnumber
      rw [hnumber] at hback
      exact simple (by decide) (congrArg some hback)
    · split
      · rename_i hnumber
        rw [hnumber] at hback
        exact simple (by decide) (congrArg some hback)
      · split
        · rename_i hcontrol
          refine ⟨.unit c.toNat, fun ps => ?_, fun _ => pieces_unitEscape hcontrol⟩
          rw [joinPieces_unit hcontrol, hback]
        · rename_i hcontrol
          exact ⟨.char c, fun _ => rfl, fun _ => pieces_char hcontrol hquote hslash⟩

/-- **A string is read back**, and what follows it is left. -/
theorem string_escape (s : String) (rest : List Char) :
    string (s.toList.flatMap escape ++ '"' :: rest) = some (some s, rest) := by
  have hpieces (cs : List Char) : ∃ ps, joinPieces ps = some cs ∧
      pieces (cs.flatMap escape ++ '"' :: rest) = some (ps, rest) := by
    induction cs with
    | nil => exact ⟨[], rfl, by rw [List.flatMap_nil, List.nil_append, pieces]⟩
    | cons c cs ih =>
      obtain ⟨ps, hjoin, hread⟩ := ih
      obtain ⟨p, hp, hc⟩ := exists_piece c
      refine ⟨p :: ps, by rw [hp, hjoin]; rfl, ?_⟩
      rw [List.flatMap_cons, List.append_assoc, hc, hread]
      rfl
  obtain ⟨ps, hjoin, hread⟩ := hpieces s.toList
  rw [string, hread, Option.map_some]
  dsimp only
  rw [hjoin, Option.map_some, String.ofList_toList]

/-! ### Numbers -/

/-- **A value ends here.** After a value there is nothing, or a comma or a closing bracket or brace. -/
def Ends (rest : List Char) : Prop := ∀ c ∈ rest.head?, c = ',' ∨ c = ']' ∨ c = '\x7d'

theorem ends_nil : Ends [] := nofun

theorem ends_cons {c : Char} (h : c = ',' ∨ c = ']' ∨ c = '\x7d') (rest : List Char) :
    Ends (c :: rest) := by
  rintro c' ⟨⟩
  exact h

theorem Ends.not_isDigit (h : Ends rest) : ∀ c ∈ rest.head?, c.isDigit = false := by
  intro c hc
  rcases h c hc with rfl | rfl | rfl <;> rfl

/-- The digits at the front are those of the numeral. -/
theorem digits_decimal (n : Nat) (h : Ends rest) : digits (decimal n ++ rest) = (decimal n, rest) := by
  have hdigits : ∀ c ∈ decimal n, c.isDigit = true := fun _ => isDigit_of_mem_decimal
  rw [digits, List.takeWhile_append_of_pos hdigits, List.dropWhile_append_of_pos hdigits]
  cases rest with
  | nil => rw [List.takeWhile_nil, List.dropWhile_nil, List.append_nil]
  | cons c rest =>
    have hc : ¬ c.isDigit = true := by
      rw [h.not_isDigit c rfl]
      exact Bool.false_ne_true
    rw [List.takeWhile_cons_of_neg hc, List.dropWhile_cons_of_neg hc, List.append_nil]

theorem whole_decimal (n : Nat) (h : Ends rest) : whole (decimal n ++ rest) = some (decimal n, rest) := by
  rcases Nat.eq_zero_or_pos n with rfl | hpos
  · -- only this numeral begins with a zero, and the reader takes no digit after one
    rfl
  · have hdigits := digits_decimal n h
    have hzero := head?_decimal_ne_zero hpos
    obtain ⟨c, ds, hcons, -⟩ := exists_decimal_eq_cons n
    rw [hcons] at hdigits hzero ⊢
    rw [List.cons_append, whole, ← List.cons_append, hdigits]
    intro cs hcs
    obtain ⟨rfl, -⟩ := List.cons.inj hcs
    exact hzero rfl

theorem fraction_of_ends (h : Ends rest) : fraction rest = some ([], rest) := by
  rw [fraction]
  rintro cs rfl
  rcases h '.' rfl with h | h | h <;> cases h

theorem power_of_ends (h : Ends rest) : power rest = some ([], rest) := by
  cases rest with
  | nil => rfl
  | cons c rest =>
    -- what may come after a value is no sign of an exponent
    rw [power, if_neg]
    rcases h c rfl with rfl | rfl | rfl <;> decide

/-- **A numeral is read back** when it ends where the digits do. -/
theorem number_decimal (n : Nat) (h : Ends rest) :
    number (decimal n ++ rest) = some (toString n, rest) := by
  have hunsigned : unsigned (decimal n ++ rest) = some (decimal n, rest) := by
    rw [unsigned, whole_decimal n h]
    change (fraction rest).bind _ = _
    rw [fraction_of_ends h]
    change (power rest).bind _ = _
    rw [power_of_ends h]
    change some (decimal n ++ [] ++ [], rest) = _
    rw [List.append_nil, List.append_nil]
  obtain ⟨c, ds, hcons, hdigit⟩ := exists_decimal_eq_cons n
  rw [number, hunsigned]
  · rfl
  · -- a digit is no minus sign, so the other case of the reader is out
    intro cs hminus
    rw [hcons] at hminus
    obtain ⟨rfl, -⟩ := List.cons.inj hminus
    cases hdigit

/-! ### Blanks -/

theorem isBlank_of_isDigit {c : Char} (h : c.isDigit = true) : isBlank c = false := by
  rw [isBlank, Bool.or_eq_false_iff, Bool.or_eq_false_iff, Bool.or_eq_false_iff]
  refine ⟨⟨⟨?_, ?_⟩, ?_⟩, ?_⟩ <;> rw [beq_eq_false_iff_ne] <;> rintro rfl <;> cases h

theorem skipBlanks_cons {c : Char} (h : isBlank c = false) : skipBlanks (c :: cs) = c :: cs := by
  rw [skipBlanks, List.dropWhile_cons_of_neg (by rw [h]; exact Bool.false_ne_true)]

end Reader

/-! ### Values -/

/-- **A value that can be read back.** Its numbers are numerals of natural numbers and its strings have
texts. -/
inductive Written : Json → Prop
  | null : Written .null
  | bool (b : Bool) : Written (.bool b)
  | nat (n : Nat) : Written (.nat n)
  | str (s : String) : Written (.str s)
  | array {items : List Json} (h : ∀ v ∈ items, Written v) : Written (.array items)
  | obj {members : List (String × Json)} (h : ∀ m ∈ members, Written m.2) : Written (.obj members)

theorem render_nat (n : Nat) : (Json.nat n).render = decimal n := by
  rw [Json.nat, render]
  exact String.toList_ofList

/-- The first character of a written value is neither blank nor the end of an array. -/
theorem Written.exists_render_eq_cons {v : Json} (h : v.Written) :
    ∃ c cs, v.render = c :: cs ∧ Reader.isBlank c = false ∧ c ≠ ']' := by
  cases h with
  | null => exact ⟨'n', _, rfl, rfl, by decide⟩
  | bool b => cases b with
    | true => exact ⟨'t', _, rfl, rfl, by decide⟩
    | false => exact ⟨'f', _, rfl, rfl, by decide⟩
  | nat n =>
    obtain ⟨c, cs, hcons, hdigit⟩ := exists_decimal_eq_cons n
    refine ⟨c, cs, ?_, ?_, ?_⟩
    · rw [render_nat, hcons]
    · exact Reader.isBlank_of_isDigit hdigit
    · rintro rfl
      cases hdigit
  | str s => exact ⟨'"', _, rfl, rfl, by decide⟩
  | @array items h => cases items with
    | nil => exact ⟨'[', _, rfl, rfl, by decide⟩
    | cons v vs => exact ⟨'[', _, rfl, rfl, by decide⟩
  | @obj members h => cases members with
    | nil => exact ⟨'\x7b', _, rfl, rfl, by decide⟩
    | cons m ms => exact ⟨'\x7b', _, rfl, rfl, by decide⟩

namespace Reader

variable {n : Nat} {cs rest : List Char}

/-- **A value is read off the front** of whatever follows it, if there are steps enough for all of its
characters. -/
def Reads (v : Json) : Prop :=
  ∀ {n : Nat} {rest : List Char}, Ends rest → v.render.length < n →
    value n (v.render ++ rest) = some (v, rest)

theorem value_of_isDigit {c : Char} (h : c.isDigit = true) :
    value (n + 1) (c :: cs) = (number (c :: cs)).map fun (s, cs) => (.number s, cs) := by
  rw [value, skipBlanks_cons (isBlank_of_isDigit h)]
  split
  case h_1 heq => cases heq
  case h_8 => rfl
  all_goals
    -- none of the other characters is a digit
    rename_i heq
    cases heq
    cases h

theorem reads_nat (k : Nat) : Reads (.nat k) := by
  intro n rest hends hn
  rw [render_nat] at hn ⊢
  obtain ⟨c, cs, hcons, hdigit⟩ := exists_decimal_eq_cons k
  cases n with
  | zero => cases hn
  | succ n =>
    have hread := number_decimal k hends
    rw [hcons, List.cons_append] at hread ⊢
    rw [value_of_isDigit hdigit, hread]
    rfl

theorem reads_str (s : String) : Reads (.str s) := by
  intro n rest _ hn
  cases n with
  | zero => cases hn
  | succ n =>
    have hrender : (Json.str s).render ++ rest = '"' :: (s.toList.flatMap escape ++ '"' :: rest) := by
      rw [Json.str, render, renderText, List.append_assoc, List.append_assoc]
      rfl
    rw [hrender, value, skipBlanks_cons rfl]
    change (string _).map _ = _
    rw [string_escape]
    rfl

/-- An array that does not end at once has items. -/
theorem value_bracket {c : Char} (hblank : isBlank c = false) (hclose : c ≠ ']') :
    value (n + 1) ('[' :: c :: cs) = (items n (c :: cs)).map fun (vs, cs) => (.array vs, cs) := by
  have hopen : isBlank '[' = false := rfl
  simp only [value, skipBlanks_cons hopen, skipBlanks_cons hblank]
  split
  · rename_i heq
    exact absurd (List.cons.inj heq).1 hclose
  · rfl

/-- The items of an array are read one after the other, as each ends where a comma or the bracket
comes. -/
theorem items_reads {v : Json} {vs : List Json} (h : ∀ u ∈ v :: vs, Reads u)
    (hn : (v.render ++ renderItems vs).length + 1 < n) :
    items n (v.render ++ (renderItems vs ++ ']' :: rest)) = some (v :: vs, rest) := by
  -- by induction on the items that are left: each takes one step, and the steps that remain are
  -- enough for the characters that remain
  rw [List.length_append] at hn
  induction vs generalizing v n with
  | nil =>
    cases n with
    | zero => cases hn
    | succ n =>
      -- behind the last item the array ends
      have hv := h v List.mem_cons_self (ends_cons (.inr (.inl rfl)) rest)
        (by omega : v.render.length < n)
      rw [renderItems, List.nil_append, items, hv]
      rfl
  | cons u us ih =>
    rw [renderItems, List.length_append, List.length_append, List.length_singleton] at hn
    cases n with
    | zero => cases hn
    | succ n =>
      have hrest : renderItems (u :: us) ++ ']' :: rest =
          ',' :: (u.render ++ (renderItems us ++ ']' :: rest)) := by
        rw [renderItems, List.append_assoc, List.append_assoc]
        rfl
      have hv := h v List.mem_cons_self
        (ends_cons (.inl rfl) (u.render ++ (renderItems us ++ ']' :: rest)))
        (by omega : v.render.length < n)
      have hus := ih (v := u) (n := n) (fun w hw => h w (List.mem_cons_of_mem v hw)) (by omega)
      rw [hrest, items, hv]
      change (items n (u.render ++ (renderItems us ++ ']' :: rest))).bind _ = _
      rw [hus]
      rfl

theorem reads_array {vs : List Json} (hwritten : ∀ v ∈ vs, v.Written) (h : ∀ v ∈ vs, Reads v) :
    Reads (.array vs) := by
  intro n rest _ hn
  cases n with
  | zero => cases hn
  | succ n =>
    cases vs with
    -- an array without items is read by looking one character ahead
    | nil => rfl
    | cons v vs =>
      have hrender : (Json.array (v :: vs)).render ++ rest =
          '[' :: (v.render ++ (renderItems vs ++ ']' :: rest)) := by
        rw [render, List.append_assoc, List.append_assoc, List.append_assoc]
        rfl
      have hlength : (v.render ++ renderItems vs).length + 1 < n := by
        rw [render] at hn
        simp only [List.length_append, List.length_singleton] at hn ⊢
        omega
      have hitems : items n (v.render ++ (renderItems vs ++ ']' :: rest)) = some (v :: vs, rest) :=
        items_reads h hlength
      obtain ⟨c, cs, hcons, hblank, hclose⟩ := (hwritten v List.mem_cons_self).exists_render_eq_cons
      rw [hcons, List.cons_append] at hitems
      rw [hrender, hcons, List.cons_append, value_bracket hblank hclose, hitems]
      rfl

/-- The name of a member is read up to its colon. -/
theorem memberName_renderText (name : String) :
    memberName (renderText (some name) ++ ':' :: rest) = some (some name, rest) := by
  have hrender : renderText (some name) ++ ':' :: rest =
      '"' :: (name.toList.flatMap escape ++ '"' :: (':' :: rest)) := by
    rw [renderText, List.append_assoc, List.append_assoc]
    rfl
  rw [hrender, memberName, skipBlanks_cons rfl]
  change (string _).bind _ = _
  rw [string_escape]
  rfl

/-- The members of an object as they are kept. -/
def named (members : List (String × Json)) : List (Option String × Json) :=
  members.map fun m => (some m.1, m.2)

theorem render_obj_cons (m : String × Json) (ms : List (String × Json)) :
    (Json.obj (m :: ms)).render = ['\x7b'] ++ renderText (some m.1) ++ [':'] ++ m.2.render ++
      renderMembers (named ms) ++ ['\x7d'] := by
  rw [Json.obj, List.map_cons, render]
  rfl

theorem renderMembers_named_cons (m : String × Json) (ms : List (String × Json)) :
    renderMembers (named (m :: ms)) =
      [','] ++ renderText (some m.1) ++ [':'] ++ m.2.render ++ renderMembers (named ms) := by
  rw [named, List.map_cons, renderMembers]
  rfl

/-- So are the members of an object, each with its name. -/
theorem members_reads {m : String × Json} {ms : List (String × Json)}
    (h : ∀ u ∈ m :: ms, Reads u.2)
    (hn : (m.2.render ++ renderMembers (named ms)).length + 1 < n) :
    members n (renderText (some m.1) ++ (':' :: (m.2.render ++
      (renderMembers (named ms) ++ '\x7d' :: rest)))) = some (named (m :: ms), rest) := by
  rw [List.length_append] at hn
  induction ms generalizing m n with
  | nil =>
    cases n with
    | zero => cases hn
    | succ n =>
      have hv := h m List.mem_cons_self (ends_cons (.inr (.inr rfl)) rest)
        (by omega : m.2.render.length < n)
      have hnone : renderMembers (named []) = [] := by rw [named, List.map_nil, renderMembers]
      rw [hnone, List.nil_append, members, memberName_renderText]
      change (value n (m.2.render ++ '\x7d' :: rest)).bind _ = _
      rw [hv]
      rfl
  | cons u us ih =>
    have hrest : renderMembers (named (u :: us)) ++ '\x7d' :: rest =
        ',' :: (renderText (some u.1) ++ (':' :: (u.2.render ++
          (renderMembers (named us) ++ '\x7d' :: rest)))) := by
      rw [renderMembers_named_cons]
      simp only [List.append_assoc, List.cons_append, List.nil_append]
    -- the steps that are left have to be enough for the name too
    have hmore : (renderMembers (named (u :: us))).length =
        (renderText (some u.1)).length + 2 + u.2.render.length +
          (renderMembers (named us)).length := by
      rw [renderMembers_named_cons]
      simp only [List.length_append, List.length_singleton]
      omega
    rw [hmore] at hn
    cases n with
    | zero => cases hn
    | succ n =>
      have hv := h m List.mem_cons_self
        (ends_cons (.inl rfl) (renderText (some u.1) ++ (':' :: (u.2.render ++
          (renderMembers (named us) ++ '\x7d' :: rest)))))
        (by omega : m.2.render.length < n)
      have hus := ih (m := u) (n := n) (fun w hw => h w (List.mem_cons_of_mem m hw)) (by omega)
      rw [hrest, members, memberName_renderText]
      change (value n _).bind _ = _
      rw [hv]
      change (members n _).bind _ = _
      rw [hus]
      rfl

theorem reads_obj {ms : List (String × Json)} (h : ∀ m ∈ ms, Reads m.2) : Reads (.obj ms) := by
  intro n rest _ hn
  cases n with
  | zero => cases hn
  | succ n =>
    cases ms with
    | nil => rfl
    | cons m ms =>
      have hrender : (Json.obj (m :: ms)).render ++ rest =
          '\x7b' :: (renderText (some m.1) ++ (':' :: (m.2.render ++
            (renderMembers (named ms) ++ '\x7d' :: rest)))) := by
        rw [render_obj_cons]
        simp only [List.append_assoc, List.cons_append, List.nil_append]
      have hlength : (m.2.render ++ renderMembers (named ms)).length + 1 < n := by
        rw [render_obj_cons] at hn
        simp only [List.length_append, List.length_singleton] at hn ⊢
        omega
      have hmembers : members n (renderText (some m.1) ++ (':' :: (m.2.render ++
          (renderMembers (named ms) ++ '\x7d' :: rest)))) = some (named (m :: ms), rest) :=
        members_reads h hlength
      -- there is a member, since the brace is followed by the quote of its name
      rw [hrender]
      change (members n (renderText (some m.1) ++ _)).map _ = _
      rw [hmembers]
      rfl

end Reader

open Reader in
/-- **Every value that can be read back is read back**, whatever follows it. -/
theorem Written.reads {v : Json} (h : v.Written) : Reads v := by
  induction h with
  | null =>
    intro n rest _ hn
    cases n with
    | zero => cases hn
    | succ n => rfl
  | bool b =>
    intro n rest _ hn
    cases n with
    | zero => cases hn
    | succ n => cases b <;> rfl
  | nat k => exact reads_nat k
  | str s => exact reads_str s
  | array h ih => exact reads_array h ih
  | obj _ ih => exact reads_obj ih

/-- **The text of a value spells this value.** -/
theorem parse?_print {v : Json} (h : v.Written) : parse? v.print = some v := by
  have htext : v.print.toList = v.render := String.toList_ofList
  have hread := h.reads Reader.ends_nil (Nat.lt_succ_self v.render.length)
  rw [List.append_nil] at hread
  rw [parse?, htext, hread]
  rfl

end Json

end Callable
