import Callable.Float.Written
import Callable.Text.Quoted
import Mathlib.Data.List.Basic

/-!
# Texts that can be told from what follows

What is written for a character or a string is told from whatever is written behind it. A number is
told from what follows as long as that is no digit.

* `Text.append_inj_of_border` — a text of characters of one sort ends where the next is of another.
* `Text.signedDecimal_append_inj` — integers.
* `Text.Quoted.escape_append_inj`, `Text.Quoted.encode_append_inj` — characters and strings in double
  quotes.
* `Binary64.head?_render_ne_dot` — a number has a digit before its point.
-/

namespace Callable

namespace Text

variable {m n : Nat} {c : Char} {rest rest' : List Char}

/-- Texts all of whose characters are of one sort end where the first character of another sort
stands. -/
theorem append_inj_of_border (sort : Char → Prop) {xs ys : List Char} (hxs : ∀ c ∈ xs, sort c)
    (hys : ∀ c ∈ ys, sort c) (hrest : ∀ c ∈ rest.head?, ¬sort c)
    (hrest' : ∀ c ∈ rest'.head?, ¬sort c) (h : xs ++ rest = ys ++ rest') :
    xs = ys ∧ rest = rest' := by
  -- both are read character by character, until one of them ends
  induction xs generalizing ys with
  | nil =>
    cases ys with
    | nil => exact ⟨rfl, h⟩
    | cons y ys =>
      -- the rest would have to begin inside of the other text
      rw [List.nil_append] at h
      subst h
      exact absurd (hys y List.mem_cons_self) (hrest y rfl)
  | cons x xs ih =>
    cases ys with
    | nil =>
      rw [List.nil_append] at h
      subst h
      exact absurd (hxs x List.mem_cons_self) (hrest' x rfl)
    | cons y ys =>
      obtain ⟨rfl, htail⟩ := List.cons.inj h
      have hxs' : ∀ c ∈ xs, sort c := fun c hc => hxs c (List.mem_cons_of_mem _ hc)
      have hys' : ∀ c ∈ ys, sort c := fun c hc => hys c (List.mem_cons_of_mem _ hc)
      obtain ⟨rfl, hrests⟩ := ih hxs' hys' htail
      exact ⟨rfl, hrests⟩

/-! ### Numbers -/

theorem isDigit_of_mem_decimal (h : c ∈ decimal n) : c.isDigit = true :=
  Nat.isDigit_of_mem_toDigits (by decide) (by decide) h

/-- A number begins with a digit. -/
theorem exists_decimal_eq_cons (n : Nat) : ∃ c cs, decimal n = c :: cs ∧ c.isDigit = true := by
  obtain ⟨c, cs, hcons⟩ := List.exists_cons_of_ne_nil (Nat.toDigits_ne_nil (n := n) (b := 10))
  refine ⟨c, cs, hcons, isDigit_of_mem_decimal (n := n) ?_⟩
  rw [decimal, hcons]
  exact List.mem_cons_self

theorem decimal_inj (h : decimal m = decimal n) : m = n := by
  have hread := congrArg (fun cs => Nat.ofDigitChars 10 cs 0) h
  simpa [decimal] using hread

/-- Integers are told from what follows, if that does not begin with a digit. -/
theorem signedDecimal_append_inj {m n : Int} (hrest : ∀ c ∈ rest.head?, c.isDigit = false)
    (hrest' : ∀ c ∈ rest'.head?, c.isDigit = false)
    (h : signedDecimal m ++ rest = signedDecimal n ++ rest') : m = n ∧ rest = rest' := by
  have magnitudes {k l : Nat} (h : decimal k ++ rest = decimal l ++ rest') :
      k = l ∧ rest = rest' := by
    have hstop : ∀ c ∈ rest.head?, ¬c.isDigit = true := by
      intro c hc
      rw [hrest c hc]
      exact Bool.false_ne_true
    have hstop' : ∀ c ∈ rest'.head?, ¬c.isDigit = true := by
      intro c hc
      rw [hrest' c hc]
      exact Bool.false_ne_true
    obtain ⟨hdigits, hrests⟩ := append_inj_of_border (fun c => c.isDigit = true)
      (fun _ => isDigit_of_mem_decimal) (fun _ => isDigit_of_mem_decimal) hstop hstop' h
    exact ⟨decimal_inj hdigits, hrests⟩
  -- a minus sign is not a digit, so both have one or none has
  have no_sign (k : Nat) (cs : List Char) : decimal k ++ cs ≠ '-' :: decimal n.natAbs ++ rest' ∧
      decimal k ++ cs ≠ '-' :: decimal m.natAbs ++ rest := by
    obtain ⟨c, ds, hcons, hdigit⟩ := exists_decimal_eq_cons k
    rw [hcons]
    constructor <;>
    · rintro heq
      obtain ⟨rfl, -⟩ := List.cons.inj heq
      cases hdigit
  unfold signedDecimal at h
  split at h <;> split at h
  · obtain ⟨habs, hrests⟩ := magnitudes (List.cons.inj h).2
    exact ⟨by omega, hrests⟩
  · exact absurd h.symm (no_sign _ _).2
  · exact absurd h (no_sign _ _).1
  · obtain ⟨habs, hrests⟩ := magnitudes h
    exact ⟨by omega, hrests⟩

theorem digitChar_inj {m n : Nat} (hm : m < 16) (hn : n < 16) (h : m.digitChar = n.digitChar) :
    m = n := by
  have hall : ∀ m < 16, ∀ n < 16, m.digitChar = n.digitChar → m = n := by decide
  exact hall m hm n hn h

theorem hexadecimal_inj (h : hexadecimal m = hexadecimal n) : m = n := by
  unfold hexadecimal at h
  -- a number of one digit is shorter than one of several
  have longer (k : Nat) (c d : Char) : [c] ≠ Nat.toDigits 16 k ++ [d] := by
    intro heq
    obtain ⟨hnil, -⟩ := List.append_inj' (show [] ++ [c] = Nat.toDigits 16 k ++ [d] from heq) rfl
    exact Nat.toDigits_ne_nil hnil.symm
  -- by induction on the number: the last digit is the remainder, the others are the quotient
  induction m using Nat.strongRecOn generalizing n with
  | ind m ih =>
    rw [Nat.toDigits_eq_if (by decide), Nat.toDigits_eq_if (n := n) (by decide)] at h
    split at h <;> split at h
    · rename_i hm hn
      exact digitChar_inj hm hn (List.cons.inj h).1
    · exact absurd h (longer _ _ _)
    · exact absurd h.symm (longer _ _ _)
    · rename_i hm hn
      obtain ⟨hfront, hlast⟩ := List.append_inj' h rfl
      have hdiv : m / 16 = n / 16 := ih (m / 16) (by omega) hfront
      have hmod : m % 16 = n % 16 :=
        digitChar_inj (Nat.mod_lt _ (by decide)) (Nat.mod_lt _ (by decide)) (List.cons.inj hlast).1
      omega

theorem digitChar_ne_brace (n : Nat) (hn : n < 16) : n.digitChar ≠ '\x7d' := by
  have hall : ∀ n < 16, n.digitChar ≠ '\x7d' := by decide
  exact hall n hn

theorem brace_not_mem_hexadecimal (n : Nat) : '\x7d' ∉ hexadecimal n := by
  unfold hexadecimal
  induction n using Nat.strongRecOn with
  | ind n ih =>
    rw [Nat.toDigits_eq_if (by decide)]
    split
    · rename_i hn
      intro h
      exact digitChar_ne_brace n hn (List.mem_singleton.1 h).symm
    · rw [List.mem_append, List.mem_singleton]
      rintro (h | h)
      · exact ih (n / 16) (by omega) h
      · exact digitChar_ne_brace (n % 16) (Nat.mod_lt _ (by decide)) h.symm

/-! ### Characters and strings -/

namespace Quoted

variable {c c' : Char} {cs cs' : List Char}

/-- The characters with a short escape, and what stands for them behind the backslash. -/
def shorthands : List (Char × Char) :=
  [('\x00', '0'), ('\t', 't'), ('\r', 'r'), ('\n', 'n'), ('\\', '\\'), ('"', '"')]

/-- The three ways to write a character. -/
theorem escape_cases (c : Char) :
    (∃ short, (c, short) ∈ shorthands ∧ escape c = ['\\', short]) ∨ escape c = codePoint c ∨
      (escape c = [c] ∧ c ≠ '\\' ∧ c ≠ '"') := by
  unfold escape
  split
  · exact .inl ⟨'0', by decide, rfl⟩
  · exact .inl ⟨'t', by decide, rfl⟩
  · exact .inl ⟨'r', by decide, rfl⟩
  · exact .inl ⟨'n', by decide, rfl⟩
  · exact .inl ⟨'\\', by decide, rfl⟩
  · exact .inl ⟨'"', by decide, rfl⟩
  · rename_i hbackslash hquote
    split
    · exact .inr (.inl rfl)
    · exact .inr (.inr ⟨rfl, hbackslash, hquote⟩)

theorem codePoint_append_inj (h : codePoint c ++ rest = codePoint c' ++ rest') :
    c = c' ∧ rest = rest' := by
  simp only [codePoint, List.append_assoc, List.cons_append, List.nil_append, List.cons.injEq,
    true_and] at h
  have border (n : Nat) : ∀ d ∈ hexadecimal n, d ≠ '\x7d' := by
    rintro d hd rfl
    exact brace_not_mem_hexadecimal n hd
  have stop (cs : List Char) : ∀ d ∈ ('\x7d' :: cs).head?, ¬d ≠ '\x7d' := by
    intro d hd hne
    exact hne (Option.some.inj hd).symm
  obtain ⟨hdigits, hrests⟩ :=
    append_inj_of_border (· ≠ '\x7d') (border _) (border _) (stop _) (stop _) h
  exact ⟨Char.toNat_inj.1 (hexadecimal_inj hdigits), (List.cons.inj hrests).2⟩

/-- **Each character is told from what follows.** -/
theorem escape_append_inj (h : escape c ++ rest = escape c' ++ rest') : c = c' ∧ rest = rest' := by
  have short_ne_code {c : Char} {short : Char} (hshort : (c, short) ∈ shorthands) : short ≠ 'u' := by
    have hall : ∀ p ∈ shorthands, p.2 ≠ 'u' := by decide
    exact hall _ hshort
  -- the three ways differ in the first character, or else in the one behind the backslash
  rcases escape_cases c with ⟨e, he, hc⟩ | hc | ⟨hc, hbackslash, -⟩ <;>
    rcases escape_cases c' with ⟨e', he', hc'⟩ | hc' | ⟨hc', hbackslash', -⟩ <;>
    rw [hc, hc'] at h
  · obtain ⟨rfl, rfl⟩ : e = e' ∧ rest = rest' := by simpa using h
    have hall : ∀ p ∈ shorthands, ∀ q ∈ shorthands, p.2 = q.2 → p.1 = q.1 := by decide
    exact ⟨hall _ he _ he' rfl, rfl⟩
  · exact absurd (List.cons.inj (List.cons.inj h).2).1 (short_ne_code he)
  · exact absurd (List.cons.inj h).1.symm hbackslash'
  · exact absurd (List.cons.inj (List.cons.inj h).2).1.symm (short_ne_code he')
  · exact codePoint_append_inj h
  · exact absurd (List.cons.inj h).1.symm hbackslash'
  · exact absurd (List.cons.inj h).1 hbackslash
  · exact absurd (List.cons.inj h).1 hbackslash
  · exact List.cons.inj h

/-- **A string in double quotes is told from what follows**: it ends with the first bare quote. -/
theorem encode_append_inj (h : encode cs ++ rest = encode cs' ++ rest') :
    cs = cs' ∧ rest = rest' := by
  simp only [encode, List.append_assoc, List.cons_append, List.nil_append, List.cons.injEq,
    true_and] at h
  -- where a quote stands, no character is written
  have no_quote (c : Char) (more more' : List Char) : escape c ++ more ≠ '"' :: more' := by
    intro heq
    obtain ⟨d, ds, hcons⟩ := List.exists_cons_of_ne_nil (escape_ne_nil c)
    have hhead := head?_escape_ne_quote c
    rw [hcons] at hhead heq
    exact hhead (congrArg some (List.cons.inj heq).1)
  -- character by character; where one string ends the other one cannot go on
  induction cs generalizing cs' with
  | nil =>
    cases cs' with
    | nil => exact ⟨rfl, (List.cons.inj h).2⟩
    | cons c' cs' =>
      rw [List.flatMap_cons, List.append_assoc] at h
      exact absurd h.symm (no_quote _ _ _)
  | cons c cs ih =>
    cases cs' with
    | nil =>
      rw [List.flatMap_cons, List.append_assoc] at h
      exact absurd h (no_quote _ _ _)
    | cons c' cs' =>
      rw [List.flatMap_cons, List.flatMap_cons, List.append_assoc, List.append_assoc] at h
      obtain ⟨rfl, htail⟩ := escape_append_inj h
      obtain ⟨rfl, hrests⟩ := ih htail
      exact ⟨rfl, hrests⟩

end Quoted

end Text

namespace Binary64

/-- A decimal has a digit before its point. -/
theorem head?_renderDecimal_ne_dot (d : Decimal) : (renderDecimal d).head? ≠ some '.' := by
  obtain ⟨c, cs, hcons, hdigit⟩ := Text.exists_decimal_eq_cons d.digits
  have hdot : some c ≠ some '.' := by
    rintro hc
    cases hc
    cases hdigit
  unfold renderDecimal
  simp only [hcons]
  split
  · unfold pointAfter
    split
    · nofun
    · rename_i hpos
      -- at least one digit stands before the point
      obtain ⟨k, hk⟩ : ∃ k, (d.exponent + (c :: cs).length - 1 + 1).toNat = k + 1 :=
        Nat.exists_eq_add_one.2 (by omega)
      rw [hk]
      split <;> exact hdot
  · exact hdot

/-- A number has a digit before its point. -/
theorem head?_render_ne_dot (x : Binary64) : x.render.head? ≠ some '.' := by
  unfold render
  dsimp only
  generalize hsign : (if x.isNegative = true then ['-'] else []) = sign
  have signed {cs : List Char} (hcs : cs.head? ≠ some '.') : (sign ++ cs).head? ≠ some '.' := by
    subst hsign
    split
    · nofun
    · exact hcs
  split
  · decide
  split
  · exact signed (by decide)
  split
  · exact signed (by decide)
  · exact signed (head?_renderDecimal_ne_dot _)

end Binary64

end Callable
