import ExprLang.Text.Word
/-!
# Lexemes

The shapes of the pieces that a source is cut into. Each function takes the longest lexeme of its
shape off the front of the characters and returns it with what follows. The main statement is
`append_of_next?`: a lexeme and what follows are the characters that were there, and no lexeme is
empty.
-/

namespace ExprLang.Lexeme

open Text

/-- The longest run of characters in front that satisfy `p`. -/
def run (p : Char → Bool) (cs : List Char) : List Char × List Char :=
  (cs.takeWhile p, cs.dropWhile p)

/-- The longest word in front. -/
def word : List Char → List Char × List Char :=
  run isWordPart

/-- A point with at least one digit behind it, if it is in front. -/
def fraction : List Char → List Char × List Char
  | '.' :: d :: rest =>
    if d.isDigit then
      let (digits, rest) := run Char.isDigit rest
      ('.' :: d :: digits, rest)
    else ([], '.' :: d :: rest)
  | cs => ([], cs)

def isSuffix (c : Char) : Bool :=
  c == 'L' || c == 'l' || c == 'D' || c == 'd'

/-- The letter that gives the width of a number. It belongs to the number only when the word ends
there. -/
def suffix : List Char → List Char × List Char
  | c :: d :: rest =>
    if isSuffix c && !isWordPart d then ([c], d :: rest) else ([], c :: d :: rest)
  | [c] => if isSuffix c then ([c], []) else ([], [c])
  | [] => ([], [])

/-- Digits, then an optional fraction, then an optional suffix. -/
def number (cs : List Char) : List Char × List Char :=
  let (whole, rest) := run Char.isDigit cs
  let (part, rest) := fraction rest
  let (letter, rest) := suffix rest
  (whole ++ part ++ letter, rest)

/-- The characters up to and with the quote that closes a text, if there is one. A backslash takes
the next character with it. -/
def toQuote? (quote : Char) : List Char → Option (List Char × List Char)
  | [] => none
  | [c] => if c = quote then some ([c], []) else none
  | c :: d :: rest =>
    if c = quote then some ([c], d :: rest)
    else if c = '\\' then (toQuote? quote rest).map fun (body, after) => (c :: d :: body, after)
    else (toQuote? quote (d :: rest)).map fun (body, after) => (c :: body, after)

/-- The first of the symbols that stands in front, or else one character. -/
def symbol (symbols : List (List Char)) (c : Char) (rest : List Char) : List Char × List Char :=
  match symbols.find? fun s => !s.isEmpty && s.isPrefixOf (c :: rest) with
  | some s => (s, (c :: rest).drop s.length)
  | none => ([c], rest)

/-- The lexeme that begins with `c`. Only a text without its closing quote has none. -/
def next? (symbols : List (List Char)) (c : Char) (rest : List Char) :
    Option (List Char × List Char) :=
  if c = '\'' || c = '"' then (toQuote? c rest).map fun (body, after) => (c :: body, after)
  else if c.isDigit then some (number (c :: rest))
  else if isWordStart c then some (word (c :: rest))
  else some (symbol symbols c rest)

theorem append_run (p : Char → Bool) (cs : List Char) : (run p cs).1 ++ (run p cs).2 = cs :=
  List.takeWhile_append_dropWhile

theorem append_fraction (cs : List Char) : (fraction cs).1 ++ (fraction cs).2 = cs := by
  unfold fraction
  split
  · split
    · simp [append_run]
    · rfl
  · rfl

theorem append_suffix (cs : List Char) : (suffix cs).1 ++ (suffix cs).2 = cs := by
  unfold suffix
  split <;> first | rfl | (split <;> rfl)

theorem append_number (cs : List Char) : (number cs).1 ++ (number cs).2 = cs := by
  simp only [number, List.append_assoc]
  rw [append_suffix, append_fraction, append_run]

theorem append_of_toQuote? {quote : Char} {cs body after : List Char}
    (h : toQuote? quote cs = some (body, after)) : body ++ after = cs ∧ body ≠ [] := by
  fun_induction toQuote? quote cs generalizing body after with
  | case1 => simp at h
  | case2 => obtain ⟨rfl, rfl⟩ := Prod.mk.inj (Option.some.inj h); simp
  | case3 => simp at h
  | case4 => obtain ⟨rfl, rfl⟩ := Prod.mk.inj (Option.some.inj h); simp
  | case5 d rest _ ih =>
    obtain ⟨⟨b, a⟩, hb, hba⟩ := Option.map_eq_some_iff.1 h
    simp only [Prod.mk.injEq] at hba
    obtain ⟨rfl, rfl⟩ := hba
    simp [(ih hb).1]
  | case6 c d rest _ _ ih =>
    obtain ⟨⟨b, a⟩, hb, hba⟩ := Option.map_eq_some_iff.1 h
    simp only [Prod.mk.injEq] at hba
    obtain ⟨rfl, rfl⟩ := hba
    simp [(ih hb).1]

theorem append_symbol (symbols : List (List Char)) (c : Char) (rest : List Char) :
    (symbol symbols c rest).1 ++ (symbol symbols c rest).2 = c :: rest ∧
      (symbol symbols c rest).1 ≠ [] := by
  unfold symbol
  split
  · rename_i s hs
    have hfound := List.find?_some hs
    simp only [Bool.and_eq_true, Bool.not_eq_true', List.isEmpty_eq_false_iff] at hfound
    obtain ⟨more, hmore⟩ := List.isPrefixOf_iff_prefix.1 hfound.2
    exact ⟨by simp [← hmore], hfound.1⟩
  · simp

theorem append_of_next? {symbols : List (List Char)} {c : Char} {rest lexeme after : List Char}
    (h : next? symbols c rest = some (lexeme, after)) :
    lexeme ++ after = c :: rest ∧ lexeme ≠ [] := by
  unfold next? at h
  split at h
  · obtain ⟨⟨b, a⟩, hb, hba⟩ := Option.map_eq_some_iff.1 h
    simp only [Prod.mk.injEq] at hba
    obtain ⟨rfl, rfl⟩ := hba
    simp [(append_of_toQuote? hb).1]
  · split at h
    · rename_i hdigit
      simp only [Option.some.injEq] at h
      have happend := append_number (c :: rest)
      rw [h] at happend
      refine ⟨happend, ?_⟩
      rintro rfl
      simp [number, run, hdigit] at h
    · split at h
      · rename_i hstart
        simp only [Option.some.injEq] at h
        have happend := append_run isWordPart (c :: rest)
        simp only [word] at h
        rw [h] at happend
        refine ⟨happend, ?_⟩
        rintro rfl
        simp [run, isWordPart_of_isWordStart hstart] at h
      · simp only [Option.some.injEq] at h
        have happend := append_symbol symbols c rest
        rwa [h] at happend

theorem length_of_next? {symbols : List (List Char)} {c : Char} {rest lexeme after : List Char}
    (h : next? symbols c rest = some (lexeme, after)) : after.length ≤ rest.length := by
  obtain ⟨happend, hne⟩ := append_of_next? h
  have hlen := congrArg List.length happend
  have hpos := List.length_pos_iff.2 hne
  simp only [List.length_append, List.length_cons] at hlen
  omega

end ExprLang.Lexeme
