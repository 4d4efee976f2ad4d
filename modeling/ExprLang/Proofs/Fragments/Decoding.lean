import ExprLang.Proofs.Fragments.Munch
import ExprLang.Proofs.Integers.Widths
import ExprLang.Proofs.Syntax.Failures
import ExprLang.Proofs.Writing.Phrases

/-!
# Literals are decoded

What the lexer cuts as a text or a number, and what the parser decodes, are scanned twice by rules
of their own.  Both agree on the shape of the lexeme.  A text is cut behind a quote that no backslash
takes with it, so the decoder meets no escape without its character and no text without its quote;
it fails exactly at an escape `\u` that no hexadecimal code of a character follows.  A number fails
exactly if it is an integer that does not fit, or if it has a fraction and the letter of an integer
(`Lexer.literals_decoded`).
-/

namespace ExprLang

open Text Decimal

namespace Lexeme.Quotable

variable {quote c : Char} {cs : List Char}

theorem cons_iff (hc : c ≠ '\\') : Quotable quote (c :: cs) ↔ c ≠ quote ∧ Quotable quote cs := by
  constructor
  · intro h
    cases h with
    | plain hquote _ h => exact ⟨hquote, h⟩
    | escape => exact absurd rfl hc
  · rintro ⟨hquote, h⟩
    exact .plain hquote hc h

theorem escape_iff : Quotable quote ('\\' :: c :: cs) ↔ Quotable quote cs := by
  constructor
  · intro h
    cases h with
    | plain _ hbackslash => exact absurd rfl hbackslash
    | escape h => exact h
  · exact .escape

theorem not_backslash : ¬ Quotable quote ['\\'] := by
  intro h
  cases h with
  | plain _ hbackslash => exact hbackslash rfl

end Lexeme.Quotable

namespace Literal

open Lexeme

/-- The character is a hexadecimal digit, of either case, and `n` is its value. -/
def IsHexDigit (c : Char) (n : Nat) : Prop :=
  n < 16 ∧ (c = n.digitChar ∨ c = n.digitChar.toUpper)

/-- Four hexadecimal digits in front are the code of a character. -/
inductive NamesCharacter : List Char → Prop
  | digits {a b c d : Char} {i j k l : Nat} {rest : List Char} (ha : IsHexDigit a i)
      (hb : IsHexDigit b j) (hc : IsHexDigit c k) (hd : IsHexDigit d l)
      (hvalid : (((i * 16 + j) * 16 + k) * 16 + l).isValidChar) :
      NamesCharacter (a :: b :: c :: d :: rest)

/-- Between the quotes there is an escape `\u`, its backslash not taken by another one, without the
code of a character behind it. -/
def Misnames (quote : Char) (inside : List Char) : Prop :=
  ∃ before after, inside = before ++ '\\' :: 'u' :: after ∧ Quotable quote before ∧
    ¬ NamesCharacter after

theorem hexDigit?_digitChar : ∀ n < 16, hexDigit? n.digitChar = some n ∧
    hexDigit? n.digitChar.toUpper = some n := by
  decide

theorem isHexDigit_of_hexDigit? {c : Char} {n : Nat} (h : hexDigit? c = some n) :
    IsHexDigit c n := by
  have hlt : c.toNat < 103 := by
    unfold hexDigit? at h
    split at h
    · rename_i hdigit
      rw [isDigit_iff] at hdigit
      omega
    · split at h
      · rename_i hlower
        exact Nat.lt_succ_of_le hlower.2
      · split at h
        · rename_i hupper
          exact lt_of_le_of_lt hupper.2 (by decide)
        · cases h
  have hall : ∀ k < 103, ∀ m ∈ hexDigit? (Char.ofNat k), m < 16 ∧
      (Char.ofNat k = m.digitChar ∨ Char.ofNat k = m.digitChar.toUpper) := by
    decide +kernel
  have hc := hall c.toNat hlt n
  rw [c.ofNat_toNat] at hc
  exact hc h

theorem hexDigit?_eq_some_iff {c : Char} {n : Nat} : hexDigit? c = some n ↔ IsHexDigit c n := by
  constructor
  · exact isHexDigit_of_hexDigit?
  · rintro ⟨hn, rfl | rfl⟩
    · exact (hexDigit?_digitChar n hn).1
    · exact (hexDigit?_digitChar n hn).2

/-- Hexadecimal digits stand for themselves in a text. -/
theorem IsHexDigit.ne {c : Char} {n : Nat} (h : IsHexDigit c n) : c ≠ '\\' := by
  rintro rfl
  have hdigit := hexDigit?_eq_some_iff.2 h
  cases hdigit

theorem namesCharacter_iff {a b c d : Char} {rest : List Char} :
    NamesCharacter (a :: b :: c :: d :: rest) ↔ ∃ e, (hex4? a b c d).bind charOf? = some e := by
  constructor
  · rintro ⟨ha, hb, hc, hd, hvalid⟩
    rw [← hexDigit?_eq_some_iff] at ha hb hc hd
    simp [hex4?, ha, hb, hc, hd, charOf?, hvalid]
  · rintro ⟨e, h⟩
    obtain ⟨n, hn, hchar⟩ := Option.bind_eq_some_iff.1 h
    simp only [hex4?, Option.bind_eq_bind, Option.pure_def, Option.bind_eq_some_iff] at hn
    obtain ⟨i, hi, j, hj, k, hk, l, hl, hsum⟩ := hn
    obtain rfl := Option.some.inj hsum
    rw [hexDigit?_eq_some_iff] at hi hj hk hl
    refine .digits hi hj hk hl ?_
    by_contra hvalid
    rw [charOf?, if_neg hvalid] at hchar
    cases hchar

section Misnames

variable {quote c : Char} {cs : List Char}

theorem misnames_cons (hquote : c ≠ quote) (hbackslash : c ≠ '\\') :
    Misnames quote (c :: cs) ↔ Misnames quote cs := by
  constructor
  · rintro ⟨before, after, heq, hbefore, hafter⟩
    cases before with
    | nil => exact absurd (List.cons.inj heq).1 hbackslash
    | cons b bs =>
      obtain ⟨rfl, rfl⟩ := List.cons.inj heq
      exact ⟨bs, after, rfl, ((Quotable.cons_iff hbackslash).1 hbefore).2, hafter⟩
  · rintro ⟨before, after, rfl, hbefore, hafter⟩
    exact ⟨c :: before, after, rfl, .plain hquote hbackslash hbefore, hafter⟩

/-- A backslash takes the next character with it. -/
theorem misnames_escape : Misnames quote ('\\' :: c :: cs) ↔
    c = 'u' ∧ ¬ NamesCharacter cs ∨ Misnames quote cs := by
  constructor
  · rintro ⟨before, after, heq, hbefore, hafter⟩
    cases before with
    | nil =>
      obtain ⟨rfl, rfl⟩ := List.cons.inj (List.cons.inj heq).2
      exact .inl ⟨rfl, hafter⟩
    | cons b bs =>
      obtain ⟨hb, heq⟩ := List.cons.inj heq
      rw [← hb] at hbefore
      cases bs with
      | nil => exact absurd hbefore Quotable.not_backslash
      | cons b bs =>
        obtain ⟨rfl, rfl⟩ := List.cons.inj heq
        exact .inr ⟨bs, after, rfl, Quotable.escape_iff.1 hbefore, hafter⟩
  · rintro (⟨rfl, hcs⟩ | ⟨before, after, rfl, hbefore, hafter⟩)
    · exact ⟨[], cs, rfl, .nil, hcs⟩
    · exact ⟨'\\' :: c :: before, after, rfl, .escape hbefore, hafter⟩

end Misnames

/-- Decoding the inside of a text fails for its escapes only. -/
def Decodes (quote : Char) (inside : List Char) (result : Except Fault (List Char)) : Prop :=
  Misnames quote inside ∧ result = .error .invalidEscape ∨
    ¬ Misnames quote inside ∧ ∃ cs, result = .ok cs

theorem Decodes.map {quote : Char} {inside rest : List Char} {result : Except Fault (List Char)}
    (h : Decodes quote rest result) (hiff : Misnames quote inside ↔ Misnames quote rest)
    (f : List Char → List Char) : Decodes quote inside (result.map f) := by
  rcases h with ⟨hrest, rfl⟩ | ⟨hrest, cs, rfl⟩
  · exact .inl ⟨hiff.2 hrest, rfl⟩
  · exact .inr ⟨mt hiff.1 hrest, f cs, rfl⟩

/-- What can stand between quotes is decoded. -/
theorem decodes_unescape {quote : Char} {inside : List Char} (h : Quotable quote inside) :
    Decodes quote inside (unescape inside) := by
  fun_induction unescape inside with
  | case1 =>
    refine .inr ⟨?_, [], rfl⟩
    rintro ⟨before, after, heq, -⟩
    simp at heq
  | case2 a b c d rest e hcode ih =>
    have hnames : NamesCharacter (a :: b :: c :: d :: rest) := namesCharacter_iff.2 ⟨e, hcode⟩
    have hcodes := hnames
    obtain ⟨ha, hb, hc, hd, -⟩ := hcodes
    -- The digits stand for themselves between the quotes, so that no escape begins among them.
    obtain ⟨hqa, h⟩ := (Quotable.cons_iff ha.ne).1 (Quotable.escape_iff.1 h)
    obtain ⟨hqb, h⟩ := (Quotable.cons_iff hb.ne).1 h
    obtain ⟨hqc, h⟩ := (Quotable.cons_iff hc.ne).1 h
    obtain ⟨hqd, h⟩ := (Quotable.cons_iff hd.ne).1 h
    refine (ih h).map ?_ _
    rw [misnames_escape, or_iff_right fun hboth => hboth.2 hnames, misnames_cons hqa ha.ne,
      misnames_cons hqb hb.ne, misnames_cons hqc hc.ne, misnames_cons hqd hd.ne]
  | case3 a b c d rest hcode =>
    refine .inl ⟨misnames_escape.2 (.inl ⟨rfl, ?_⟩), rfl⟩
    rw [namesCharacter_iff, hcode]
    rintro ⟨_, ⟨⟩⟩
  | case4 rest hshort =>
    refine .inl ⟨misnames_escape.2 (.inl ⟨rfl, ?_⟩), rfl⟩
    rintro ⟨⟩
    exact hshort _ _ _ _ _ rfl
  | case5 rest ih | case6 rest ih | case7 rest ih =>
    exact (ih (Quotable.escape_iff.1 h)).map (misnames_escape.trans (or_iff_right (by simp))) _
  | case8 c rest _ hu _ _ _ ih =>
    refine (ih (Quotable.escape_iff.1 h)).map (misnames_escape.trans (or_iff_right ?_)) _
    exact fun hboth => hu hboth.1
  | case9 => exact absurd h Quotable.not_backslash
  | case10 c rest =>
    rename_i hescape hdangling ih
    have hbackslash : c ≠ '\\' := by
      cases rest with
      | nil => exact fun hc => hdangling hc rfl
      | cons d rest => exact fun hc => hescape d rest hc rfl
    obtain ⟨hquote, hrest⟩ := (Quotable.cons_iff hbackslash).1 h
    exact (ih hrest).map (misnames_cons hquote hbackslash) _

/-- A text fails to be decoded exactly if an escape in it names no character, and for no other
reason. -/
structure TextDecoded (quote : Char) (inside : List Char) (result : Except Fault Literal) : Prop where
  fails_iff : (∃ fault, result = .error fault) ↔ Misnames quote inside
  message : ∀ fault, result = .error fault → fault.message = "Invalid unicode escape"
  gives : ∀ value, result = .ok value → ∃ s, value = .str s

theorem textDecoded_ofQuoted {quote : Char} {inside : List Char} (h : Quotable quote inside) :
    TextDecoded quote inside (ofQuoted (quote :: (inside ++ [quote]))) := by
  have hread : ofQuoted (quote :: (inside ++ [quote])) =
      (unescape inside).map fun cs => .str (String.ofList cs) := by
    rw [ofQuoted, List.getLast?_concat, if_pos rfl, List.dropLast_concat]
  rw [hread]
  rcases decodes_unescape h with ⟨hnames, hresult⟩ | ⟨hnames, cs, hresult⟩
  · rw [hresult, Except.map]
    refine ⟨iff_of_true ⟨_, rfl⟩ hnames, ?_, ?_⟩
    · intro fault hfault
      obtain rfl := Except.error.inj hfault
      rfl
    · rintro value ⟨⟩
  · rw [hresult, Except.map]
    have hnone {fault : Fault} : Except.ok (Literal.str (String.ofList cs)) ≠ .error fault := by
      rintro ⟨⟩
    refine ⟨iff_of_false (not_exists.2 fun _ => hnone) hnames,
      fun _ hfault => absurd hfault hnone, ?_⟩
    intro value hvalue
    exact ⟨_, (Except.ok.inj hvalue).symm⟩

/-- A number is decoded by its digits, its fraction and its letter.  It fails if it is an integer
that is too large, or if it is a fraction with the letter of an integer. -/
structure NumberDecoded (whole part : List Char) (letter : Option Char) (result : Option Literal) :
    Prop where
  fails_iff : result = none ↔
    part = [] ∧ letter ≠ some 'D' ∧ letter ≠ some 'd' ∧
        Int64.maxValue.toInt < Nat.ofDigitChars 10 whole 0 ∨
      part ≠ [] ∧ (letter = some 'L' ∨ letter = some 'l')
  gives : ∀ value, result = some value →
    (part = [] ∧ letter = none ∧ ∃ n, value = .int n ∧ n.toInt = Nat.ofDigitChars 10 whole 0) ∨
    (part = [] ∧ (letter = some 'L' ∨ letter = some 'l') ∧
      ∃ n, value = .long n ∧ n.toInt = Nat.ofDigitChars 10 whole 0) ∨
    ((letter = some 'D' ∨ letter = some 'd' ∨ part ≠ [] ∧ letter = none) ∧
      ∃ d, value = .double d ∧ readFloat? (whole ++ part) = some d)

section Numbers

variable {whole part : List Char}

theorem readInt64?_digits (h : IsDigits whole) :
    readInt64? whole = int64? (Nat.ofDigitChars 10 whole 0 : Nat) := by
  obtain ⟨c, cs, rfl⟩ := List.exists_cons_of_ne_nil h.1
  rw [readInt64?, readInt?_of_isDigit (h.2 c List.mem_cons_self), readNat?_digits h, digitsValue_eq]
  rfl

/-- No integer has a point. -/
theorem readInt64?_pointed (h : IsDigits whole) (ds : List Char) :
    readInt64? (whole ++ '.' :: ds) = none := by
  obtain ⟨c, cs, rfl⟩ := List.exists_cons_of_ne_nil h.1
  have hall : (c :: (cs ++ '.' :: ds)).all Char.isDigit = false := by
    rw [List.all_eq_false]
    exact ⟨'.', by simp, by decide⟩
  rw [List.cons_append, readInt64?, readInt?_of_isDigit (h.2 c List.mem_cons_self), readNat?, hall]
  rfl

/-- Digits with or without a fraction are read as a double. -/
theorem exists_readFloat? (hwhole : IsDigits whole) (hpart : IsFraction part) :
    ∃ d, readFloat? (whole ++ part) = some d := by
  cases hpart with
  | none =>
    obtain ⟨c, cs, rfl⟩ := List.exists_cons_of_ne_nil hwhole.1
    have hrun : Lexeme.run Char.isDigit (c :: cs ++ []) = (c :: cs, []) := run_eq hwhole.2 nofun
    obtain ⟨htake, hdrop⟩ := Prod.mk.inj hrun
    rw [List.append_nil] at htake hdrop ⊢
    rw [readFloat?_of_isDigit (hwhole.2 c List.mem_cons_self), readMagnitude?]
    simp only [htake, hdrop, List.isEmpty_cons, Bool.false_and, readExponent?]
    exact ⟨_, rfl⟩
  | digits h => exact ⟨_, readFloat?_pointed hwhole h⟩

namespace NumberDecoded

variable {letter : Option Char}

/-- An integer is decoded if it is not too large. -/
theorem integer {f : Int64 → Literal}
    (hf : letter = none ∧ f = .int ∨ (letter = some 'L' ∨ letter = some 'l') ∧ f = .long) :
    NumberDecoded whole [] letter ((int64? (Nat.ofDigitChars 10 whole 0 : Nat)).map f) where
  fails_iff := by
    have hsuffix : letter ≠ some 'D' ∧ letter ≠ some 'd' := by
      rcases hf with ⟨rfl, -⟩ | ⟨rfl | rfl, -⟩ <;> decide
    rw [Option.map_eq_none_iff, int64?_eq_none_iff, FitsWide, Int64.toInt_maxValue]
    simp only [hsuffix.1, hsuffix.2, ne_eq, not_true_eq_false, not_false_eq_true, true_and,
      false_and, or_false]
    omega
  gives value hvalue := by
    obtain ⟨n, hn, rfl⟩ := Option.map_eq_some_iff.1 hvalue
    have hdigits := int64?_eq_some_iff.1 hn
    rcases hf with ⟨rfl, rfl⟩ | ⟨hwide, rfl⟩
    · exact .inl ⟨rfl, rfl, n, rfl, hdigits⟩
    · exact .inr (.inl ⟨rfl, hwide, n, rfl, hdigits⟩)

/-- A double is always decoded. -/
theorem double {d : Float} (hd : readFloat? (whole ++ part) = some d)
    (hletter : letter = some 'D' ∨ letter = some 'd' ∨ part ≠ [] ∧ letter = none) :
    NumberDecoded whole part letter (some (.double d)) where
  fails_iff := by
    refine iff_of_false nofun ?_
    rintro (⟨hpart, hupper, hlower, -⟩ | ⟨-, hwide⟩)
    · simp [hpart, hupper, hlower] at hletter
    · rcases hwide with rfl | rfl <;> simp at hletter
  gives value hvalue := by
    obtain rfl := Option.some.inj hvalue
    exact .inr (.inr ⟨hletter, d, rfl, hd⟩)

/-- There is no integer with a fraction. -/
theorem mixed (hpart : part ≠ []) (hletter : letter = some 'L' ∨ letter = some 'l') :
    NumberDecoded whole part letter none where
  fails_iff := iff_of_true rfl (.inr ⟨hpart, hletter⟩)
  gives := nofun

end NumberDecoded

/-- The letter of a number decides how its digits are read. -/
theorem ofNumber?_concat (cs : List Char) {c : Char} (hc : isSuffix c = true) :
    ofNumber? (cs ++ [c]) = if c = 'L' ∨ c = 'l' then (readInt64? cs).map .long
      else (readFloat? cs).map .double := by
  simp only [isSuffix, Bool.or_eq_true, beq_iff_eq] at hc
  rw [ofNumber?, List.getLast?_concat, List.dropLast_concat]
  rcases hc with ((rfl | rfl) | rfl) | rfl <;> rfl

theorem numberDecoded_ofNumber? {letter : Option Char} (hwhole : IsDigits whole)
    (hpart : IsFraction part) (hletter : ∀ c ∈ letter, isSuffix c = true) :
    NumberDecoded whole part letter (ofNumber? (whole ++ part ++ letter.toList)) := by
  obtain ⟨d, hd⟩ := exists_readFloat? hwhole hpart
  have hpoint : ¬ (whole.contains '.') = true := by
    rw [List.contains_iff_mem]
    exact fun hmem => absurd (hwhole.2 _ hmem) (by decide)
  cases letter with
  | none =>
    rw [Option.toList_none, List.append_nil]
    cases hpart with
    | none =>
      have hread := ofNumber?_append_digits [] hwhole
      rw [List.nil_append, if_neg hpoint, readInt64?_digits hwhole] at hread
      rw [List.append_nil, hread]
      exact .integer (.inl ⟨rfl, rfl⟩)
    | @digits ds h =>
      have hread := ofNumber?_append_digits (whole ++ ['.']) h
      rw [List.append_assoc, List.singleton_append, if_pos (by simp), hd] at hread
      rw [hread]
      exact .double hd (.inr (.inr ⟨List.cons_ne_nil _ _, rfl⟩))
  | some c =>
    have hc := hletter c rfl
    rw [Option.toList_some, ofNumber?_concat _ hc]
    split
    · rename_i hwide
      have hwide : some c = some 'L' ∨ some c = some 'l' := by simpa using hwide
      cases hpart with
      | none =>
        rw [List.append_nil, readInt64?_digits hwhole]
        exact .integer (.inr ⟨hwide, rfl⟩)
      | digits h =>
        rw [readInt64?_pointed hwhole]
        exact .mixed (List.cons_ne_nil _ _) hwide
    · rename_i hwide
      have hletter : c = 'D' ∨ c = 'd' := by
        simpa [isSuffix, or_assoc, not_or.1 hwide] using hc
      rw [hd]
      rcases hletter with rfl | rfl
      · exact .double hd (.inl rfl)
      · exact .double hd (.inr (.inl rfl))

end Numbers

/-- The characters are a text, which is decoded. -/
def DecodesText (cs : List Char) : Prop :=
  ∃ quote inside, (quote = '\'' ∨ quote = '"') ∧ Quotable quote inside ∧
    cs = quote :: (inside ++ [quote]) ∧ TextDecoded quote inside (ofQuoted cs)

/-- The characters are a number, which is decoded. -/
def DecodesNumber (cs : List Char) : Prop :=
  ∃ whole part letter, IsDigits whole ∧ IsFraction part ∧ (∀ c ∈ letter, isSuffix c = true) ∧
    cs = whole ++ part ++ letter.toList ∧ NumberDecoded whole part letter (ofNumber? cs)

section Cut

variable {symbols : List (List Char)} {c : Char} {rest lexeme after : List Char}

theorem exists_letter_of_width {cs l : List Char} (h : Width cs l) :
    ∃ letter : Option Char, l = letter.toList ∧ ∀ d ∈ letter, isSuffix d = true := by
  cases h with
  | @letter d _ hd => exact ⟨some d, rfl, fun e he => Option.some.inj he ▸ hd⟩
  | none => exact ⟨none, rfl, nofun⟩

theorem decodesText_of_next? (h : next? symbols c rest = some (lexeme, after))
    (hquote : c = '\'' ∨ c = '"') : DecodesText lexeme := by
  have hclass : (decide (c = '\'') || decide (c = '"')) = true := by simpa using hquote
  rw [next?, if_pos hclass] at h
  obtain ⟨⟨_, _⟩, hcut, hpair⟩ := Option.map_eq_some_iff.1 h
  obtain ⟨rfl, rfl⟩ := Prod.mk.inj hpair
  obtain ⟨inside, hinside, rfl, -⟩ := quotable_of_toQuote? hcut
  exact ⟨c, inside, hquote, hinside, rfl, textDecoded_ofQuoted hinside⟩

theorem decodesNumber_of_next? (h : next? symbols c rest = some (lexeme, after))
    (hdigit : c.isDigit = true) : DecodesNumber lexeme := by
  rw [Fragment.next?_of_isDigit symbols rest hdigit] at h
  obtain rfl : (number (c :: rest)).1 = lexeme := congrArg Prod.fst (Option.some.inj h)
  obtain ⟨letter, hletter, hsuffix⟩ := exists_letter_of_width (width_suffix (behind (c :: rest)))
  have hwhole := isDigits_run hdigit rest
  have hpart := isFraction_fraction (run Char.isDigit (c :: rest)).2
  rw [number_fst, numeral, hletter]
  exact ⟨_, _, letter, hwhole, hpart, hsuffix, rfl, numberDecoded_ofNumber? hwhole hpart hsuffix⟩

end Cut

end Literal

namespace Fragment

/-- What is cut off stands in front. -/
theorem next?_of_ofChars {symbols : List (List Char)} {m : Mark} {cs : List Char}
    {fragments : List Fragment} (h : ofChars symbols m cs = .ok fragments) :
    ∀ f ∈ fragments, ∃ c rest after, Lexeme.next? symbols c rest = some (f.text.toList, after) := by
  replace h := cut_of_ofChars h
  induction h with
  | blank => exact fun f hf => absurd hf List.not_mem_nil
  | @fragment m gap rest lexeme after c others _ _ hnext _ ih =>
    refine List.forall_mem_cons.2 ⟨⟨c, rest, after, ?_⟩, ih⟩
    rw [hnext, String.toList_ofList]

/-- A fragment that begins like a text or a number is a whole one. -/
theorem decodes_of_ofChars {symbols : List (List Char)} {m : Mark} {cs : List Char}
    {fragments : List Fragment} (h : ofChars symbols m cs = .ok fragments) {f : Fragment}
    (hf : f ∈ fragments) {c : Char} {tail : List Char} (htext : f.text.toList = c :: tail) :
    (c = '\'' ∨ c = '"' → Literal.DecodesText f.text.toList) ∧
      (c.isDigit = true → Literal.DecodesNumber f.text.toList) := by
  obtain ⟨d, rest, after, hnext⟩ := next?_of_ofChars h f hf
  have happend := (Lexeme.append_of_next? hnext).1
  rw [htext] at happend
  obtain rfl := (List.cons.inj happend).1
  exact ⟨Literal.decodesText_of_next? hnext, Literal.decodesNumber_of_next? hnext⟩

end Fragment

namespace Lexer

/-- Each fragment that is recognized as a text or a number is decoded, whatever symbols are cut, and
so is each token of the core lexer that is a text or a number. -/
theorem literals_decoded :
    (∀ symbols source fragments, Fragment.split symbols source = .ok fragments →
      ∀ f ∈ fragments,
        (Recognizer.string.recognize f = some BasicKind.string →
          Literal.DecodesText f.text.toList) ∧
        (Recognizer.number.recognize f = some BasicKind.number →
          Literal.DecodesNumber f.text.toList)) ∧
    ∀ source tokens, core.tokens source = .ok tokens → ∀ t ∈ tokens,
      (t.kind = BasicKind.string → Literal.DecodesText t.text.toList) ∧
      (t.kind = BasicKind.number → Literal.DecodesNumber t.text.toList) := by
  constructor
  · intro symbols source fragments hsplit f hf
    constructor
    · intro hstring
      simp only [Recognizer.string] at hstring
      split at hstring
      · rename_i c tail htext
        split at hstring
        · rename_i hquote
          exact (Fragment.decodes_of_ofChars hsplit hf htext).1 (by simpa using hquote)
        · cases hstring
      · cases hstring
    · intro hnumber
      simp only [Recognizer.number] at hnumber
      split at hnumber
      · rename_i c tail htext
        split at hnumber
        · rename_i hdigit
          exact (Fragment.decodes_of_ofChars hsplit hf htext).2 hdigit
        · cases hnumber
      · cases hnumber
  · intro source tokens htokens t ht
    obtain ⟨fragments, hsplit, rfl⟩ := tokens_core htokens
    rcases List.mem_append.1 ht with ht | ht
    · obtain ⟨f, hf, rfl⟩ := List.mem_map.1 ht
      constructor
      · intro hkind
        obtain ⟨c, tail, htext, hquote⟩ := exists_quote_of_coreKind hkind
        exact (Fragment.decodes_of_ofChars hsplit hf htext).1 hquote
      · intro hkind
        obtain ⟨c, tail, htext, hdigit⟩ := exists_isDigit_of_coreKind hkind
        exact (Fragment.decodes_of_ofChars hsplit hf htext).2 hdigit
    · obtain rfl := List.mem_singleton.1 ht
      constructor <;> rintro ⟨⟩

/-- A backslash, then an escape of no character; and a fraction with the letter of an integer. -/
theorem literals_decoded_refused :
    ∃ first second stop, core.tokens "\"\\\\\\u00g1\" 1.5L" = .ok [first, second, .eof stop] ∧
      Literal.DecodesText first.text.toList ∧ Literal.DecodesNumber second.text.toList ∧
      Literal.ofQuoted first.text.toList = .error .invalidEscape ∧
      Literal.ofNumber? second.text.toList = none := by
  have htokens : core.tokens "\"\\\\\\u00g1\" 1.5L" = .ok
      [⟨BasicKind.string, "\"\\\\\\u00g1\"", ⟨0, 10, 1, 1⟩⟩, ⟨BasicKind.number, "1.5L", ⟨11, 15, 1, 12⟩⟩,
        .eof ⟨15, 1, 16⟩] := by
    rw [tokens_core_eq, Fragment.coreSymbols_eq]
    cbv
  have hall := literals_decoded.2 _ _ htokens
  exact ⟨_, _, _, htokens, (hall _ (by simp)).1 rfl, (hall _ (by simp)).2 rfl, rfl, rfl⟩

end Lexer

end ExprLang
