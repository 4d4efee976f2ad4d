import ExprLang.Literal.Reader
import ExprLang.Node.Text
import ExprLang.Proofs.Decimal.Reading
import ExprLang.Proofs.Writing.Cutting

/-!
# Written literals are read back

The text of a literal is cut off as one lexeme, and this lexeme stands for the literal.  This holds
for all literals that a source can have: integers and doubles in a source have no sign, and their
written forms have none either.
-/

namespace ExprLang

open Text Decimal

namespace Fragment

theorem Ends.isDigit_eq {rest : List Char} (h : Ends rest) : ∀ c ∈ rest.head?, c.isDigit = false := by
  intro c hc
  by_contra hdigit
  rw [Bool.not_eq_false] at hdigit
  have hpart := (h c hc).1
  rw [isWordPart_of_isDigit hdigit] at hpart
  cases hpart

end Fragment

namespace Lexeme

open Fragment

/-- The shapes of what stands behind the point of a number. -/
inductive IsFraction : List Char → Prop
  | none : IsFraction []
  | digits {ds : List Char} (h : IsDigits ds) : IsFraction ('.' :: ds)

/-- The letter of a wide integer, or none. -/
inductive IsLetter : List Char → Prop
  | none : IsLetter []
  | wide : IsLetter ['L']

theorem isWordPart_of_isSuffix {c : Char} (h : isSuffix c = true) : isWordPart c = true := by
  simp only [isSuffix, Bool.or_eq_true, beq_iff_eq] at h
  rcases h with ((rfl | rfl) | rfl) | rfl <;> decide

theorem suffix_eq {letter rest : List Char} (hletter : IsLetter letter) (hrest : Ends rest) :
    suffix (letter ++ rest) = (letter, rest) := by
  cases hletter with
  | none =>
    cases rest with
    | nil => rfl
    | cons c rest =>
      have hc : isSuffix c = false := by
        by_contra h
        rw [Bool.not_eq_false] at h
        have hpart := (hrest c rfl).1
        rw [isWordPart_of_isSuffix h] at hpart
        cases hpart
      cases rest <;> simp [suffix, hc]
  | wide =>
    cases rest with
    | nil => rfl
    | cons c rest => simp [suffix, isSuffix, (hrest c rfl).1]

theorem fraction_eq {part rest : List Char} (hpart : IsFraction part)
    (hrest : ∀ c ∈ rest.head?, c.isDigit = false ∧ c ≠ '.') :
    fraction (part ++ rest) = (part, rest) := by
  cases hpart with
  | none =>
    cases rest with
    | nil => rfl
    | cons c rest =>
      rw [List.nil_append, fraction]
      intro d ds heq
      exact absurd (List.cons.inj heq).1 (hrest c rfl).2
  | digits h =>
    obtain ⟨d, ds, rfl⟩ := List.exists_cons_of_ne_nil h.1
    have hds := List.forall_mem_cons.1 h.2
    have hrun := run_eq (p := Char.isDigit) hds.2 (fun c hc => (hrest c hc).1)
    rw [List.cons_append, List.cons_append, fraction, if_pos hds.1, hrun]

/-- A number in front is cut as a whole. -/
theorem number_eq {whole part letter rest : List Char} (hwhole : IsDigits whole)
    (hpart : IsFraction part) (hletter : IsLetter letter) (hrest : Ends rest) :
    number (whole ++ (part ++ (letter ++ rest))) = (whole ++ part ++ letter, rest) := by
  have hdigit := hrest.isDigit_eq
  have hletter' : ∀ c ∈ (letter ++ rest).head?, c.isDigit = false ∧ c ≠ '.' := by
    cases hletter with
    | none => exact fun c hc => ⟨hdigit c hc, (hrest c hc).2⟩
    | wide =>
      intro c hc
      obtain rfl := Option.some.inj hc
      decide
  have hpart' : ∀ c ∈ (part ++ (letter ++ rest)).head?, c.isDigit = false := by
    cases hpart with
    | none => exact fun c hc => (hletter' c hc).1
    | digits h =>
      intro c hc
      obtain rfl := Option.some.inj hc
      rfl
  simp only [number, run_eq hwhole.2 hpart', fraction_eq hpart hletter', suffix_eq hletter hrest]

/-- The inside of a string literal. -/
def escapedAll (cs : List Char) : List Char :=
  cs.flatMap fun c => (escapeInString c).toList

theorem escapedAll_cons (c : Char) (cs : List Char) :
    escapedAll (c :: cs) = (escapeInString c).toList ++ escapedAll cs :=
  List.flatMap_cons

/-- A character stands for itself or has a backslash in front. -/
theorem toList_escapeInString (c : Char) :
    ((escapeInString c).toList = [c] ∧ c ≠ '\'' ∧ c ≠ '\\') ∨
      ∃ d, (escapeInString c).toList = ['\\', d] ∧
        (c, d) ∈ [('\'', '\''), ('\\', '\\'), ('\n', 'n'), ('\t', 't'), ('\r', 'r')] := by
  unfold escapeInString
  split
  · exact .inr ⟨'\'', by simp, by simp⟩
  · exact .inr ⟨'\\', by simp, by simp⟩
  · exact .inr ⟨'n', by simp, by simp⟩
  · exact .inr ⟨'t', by simp, by simp⟩
  · exact .inr ⟨'r', by simp, by simp⟩
  · rename_i hquote hbackslash _ _ _
    exact .inl ⟨String.toList_singleton c, hquote, hbackslash⟩

/-- The quote behind the escaped characters is the one that closes the text. -/
theorem toQuote?_escapedAll (cs rest : List Char) :
    toQuote? '\'' (escapedAll cs ++ '\'' :: rest) = some (escapedAll cs ++ ['\''], rest) := by
  induction cs with
  | nil => cases rest <;> simp [escapedAll, toQuote?]
  | cons c cs ih =>
    rw [escapedAll_cons]
    rcases toList_escapeInString c with ⟨hc, hquote, hbackslash⟩ | ⟨d, hc, -⟩
    · obtain ⟨e, es, hes⟩ : ∃ e es, escapedAll cs ++ '\'' :: rest = e :: es :=
        List.exists_cons_of_ne_nil (by simp)
      rw [hc, List.append_assoc, List.singleton_append, hes, toQuote?, if_neg hquote,
        if_neg hbackslash, ← hes, ih]
      rfl
    · rw [hc, List.append_assoc, List.cons_append, List.singleton_append, toQuote?,
        if_neg (by decide), if_pos rfl, ih]
      rfl

end Lexeme

namespace Literal

open Lexeme

/-- The characters that were escaped are read. -/
theorem unescape_escapedAll (cs : List Char) : unescape (escapedAll cs) = .ok cs := by
  induction cs with
  | nil => rfl
  | cons c cs ih =>
    rw [escapedAll_cons]
    rcases toList_escapeInString c with ⟨hc, -, hbackslash⟩ | ⟨d, hc, hd⟩
    · rw [hc, List.singleton_append, unescape, ih]
      · rfl
      all_goals simp [hbackslash]
    · rw [hc, List.cons_append, List.singleton_append]
      simp only [List.mem_cons, Prod.mk.injEq, List.not_mem_nil, or_false] at hd
      rcases hd with ⟨rfl, rfl⟩ | ⟨rfl, rfl⟩ | ⟨rfl, rfl⟩ | ⟨rfl, rfl⟩ | ⟨rfl, rfl⟩
      all_goals simp [unescape, ih, Except.map]

theorem toList_text_str (s : String) :
    (Literal.str s).text.toList = '\'' :: (escapedAll s.toList ++ ['\'']) := by
  have hjoin (l : List String) : (String.join l).toList = l.flatMap String.toList := by
    induction l with
    | nil => rfl
    | cons s l ih => simp [ih]
  simp only [Literal.text, String.toList_append, hjoin, escapedAll, List.flatMap_map]
  rfl

/-- A written text is read back. -/
theorem ofQuoted_text (s : String) : ofQuoted (Literal.str s).text.toList = .ok (.str s) := by
  rw [toList_text_str, ofQuoted, List.getLast?_concat, if_pos rfl, List.dropLast_concat,
    unescape_escapedAll]
  exact congrArg (Except.ok ∘ Literal.str) String.ofList_toList

theorem readNat?_digits {cs : List Char} (h : IsDigits cs) : readNat? cs = some (digitsValue cs) := by
  have hall : cs.all Char.isDigit = true := List.all_eq_true.2 h.2
  simp [readNat?, hall, h.1]

/-- A digit in front leaves no place for a sign. -/
theorem splitSign_of_isDigit {c : Char} (hc : c.isDigit = true) (cs : List Char) :
    splitSign (c :: cs) = (false, c :: cs) := by
  unfold splitSign
  split
  · rename_i heq
    rw [(List.cons.inj heq).1] at hc
    cases hc
  · rename_i heq
    rw [(List.cons.inj heq).1] at hc
    cases hc
  · rfl

/-- With a digit in front, an integer is a natural number. -/
theorem readInt?_of_isDigit {c : Char} (hc : c.isDigit = true) (cs : List Char) :
    readInt? (c :: cs) = (readNat? (c :: cs)).map Int.ofNat := by
  rw [readInt?, splitSign_of_isDigit hc]
  simp only
  cases readNat? (c :: cs) <;> rfl

/-- A negative integer is written with a sign in front of its magnitude. -/
theorem toList_repr_negSucc (k : Nat) :
    (Int.negSucc k).repr.toList = '-' :: (k + 1).repr.toList := by
  change ("-" ++ (k + 1).repr).toList = _
  rw [String.toList_append]
  rfl

/-- A written integer is read back. -/
theorem readInt?_repr (n : Int) : readInt? n.repr.toList = some n := by
  have hnat (k : Nat) : readNat? k.repr.toList = some k := by
    rw [readNat?_digits (isDigits_repr k), digitsValue_repr]
  cases n with
  | ofNat k =>
    obtain ⟨c, cs, hcs⟩ := List.exists_cons_of_ne_nil (isDigits_repr k).1
    have hc : c.isDigit = true := (isDigits_repr k).2 c (by simp [hcs])
    change readInt? k.repr.toList = _
    rw [hcs, readInt?_of_isDigit hc, ← hcs, hnat]
    rfl
  | negSucc k =>
    rw [toList_repr_negSucc, readInt?]
    simp only [splitSign, hnat, if_true]
    rfl

/-- With a digit in front, a double has neither a sign nor one of the special names. -/
theorem readFloat?_of_isDigit {c : Char} (hc : c.isDigit = true) (cs : List Char) :
    readFloat? (c :: cs) = readMagnitude? false (c :: cs) := by
  have hlower : c.toLower = c := by
    rw [isDigit_iff] at hc
    apply Char.toLower_eq_of_not_isUpper
    have hval : c.val.toNat = c.toNat := rfl
    simp only [Char.isUpper, ge_iff_le, UInt32.le_iff_toNat_le, Bool.decide_and, Bool.and_eq_true,
      decide_eq_true_eq, Char.reduceVal, UInt32.reduceToNat]
    omega
  have hname (name : String) (d : Char) (hhead : name.toList.head? = some d)
      (hd : d.isDigit = false) : String.ofList ((c :: cs).map Char.toLower) ≠ name := by
    rintro rfl
    rw [String.toList_ofList, List.map_cons, hlower] at hhead
    rw [Option.some.inj hhead, hd] at hc
    cases hc
  have hinfinite : ¬ (String.ofList ((c :: cs).map Char.toLower) = "inf" ||
      String.ofList ((c :: cs).map Char.toLower) = "infinity") = true := by
    rw [Bool.or_eq_true, decide_eq_true_eq, decide_eq_true_eq]
    exact not_or.2 ⟨hname "inf" 'i' (by simp) rfl, hname "infinity" 'i' (by simp) rfl⟩
  rw [readFloat?, splitSign_of_isDigit hc]
  simp only
  rw [if_neg hinfinite, if_neg (hname "nan" 'n' (by simp) rfl)]

/-- An integer that is not negative is written without a sign. -/
theorem exists_repr_toInt {n : Int64} (hn : 0 ≤ n.toInt) :
    ∃ k : Nat, n.toInt = k ∧ n.toInt.repr = k.repr := by
  obtain ⟨k, hk⟩ := Int.eq_ofNat_of_zero_le hn
  refine ⟨k, hk, ?_⟩
  rw [hk]
  rfl

theorem isDigits_repr_toInt {n : Int64} (hn : 0 ≤ n.toInt) :
    Decimal.IsDigits n.toInt.repr.toList := by
  obtain ⟨k, -, hrepr⟩ := exists_repr_toInt hn
  rw [hrepr]
  exact Decimal.isDigits_repr k

/-- A written wide integer fits the wide type. -/
theorem readInt64?_repr (n : Int64) : readInt64? n.toInt.repr.toList = some n := by
  rw [readInt64?, readInt?_repr, Option.bind_some]
  exact int64?_eq_some_iff.2 rfl

/-- Digits with a point between them are read as a double. -/
theorem readFloat?_pointed {whole fraction : List Char} (hwhole : IsDigits whole)
    (hfraction : IsDigits fraction) :
    readFloat? (whole ++ '.' :: fraction) =
      some (nearestScaled false (digitsValue (whole ++ fraction)) (-(fraction.length : Int))) := by
  have hpoint : ∀ c ∈ ('.' :: fraction).head?, c.isDigit = false := by
    intro c hc
    obtain rfl := Option.some.inj hc
    rfl
  have hfractionRun : Lexeme.run Char.isDigit (fraction ++ []) = (fraction, []) :=
    Lexeme.run_eq hfraction.2 (by simp)
  rw [List.append_nil] at hfractionRun
  have hmagnitude : readFloat? (whole ++ '.' :: fraction) =
      readMagnitude? false (whole ++ '.' :: fraction) := by
    obtain ⟨c, cs, rfl⟩ := List.exists_cons_of_ne_nil hwhole.1
    exact readFloat?_of_isDigit (hwhole.2 c List.mem_cons_self) _
  obtain ⟨hwholeTake, hwholeDrop⟩ := Prod.mk.inj (Lexeme.run_eq hwhole.2 hpoint)
  obtain ⟨hfractionTake, hfractionDrop⟩ := Prod.mk.inj hfractionRun
  rw [hmagnitude, readMagnitude?]
  simp only [hwholeTake, hwholeDrop, hfractionTake, hfractionDrop]
  have hempty : ¬ (whole.isEmpty && fraction.isEmpty) = true := by simp [hwhole.1]
  rw [if_neg hempty, readExponent?, Option.map_some, zero_sub]

/-- A number without suffix is read by its point. -/
theorem ofNumber?_append_digits (front : List Char) {cs : List Char} (h : IsDigits cs) :
    ofNumber? (front ++ cs) =
      if (front ++ cs).contains '.' then (readFloat? (front ++ cs)).map .double
      else (readInt64? (front ++ cs)).map .int := by
  have hlast : (front ++ cs).getLast? = some (cs.getLast h.1) := by
    rw [List.getLast?_append_of_ne_nil _ h.1, List.getLast?_eq_some_getLast h.1]
  have hdigit := h.2 _ (List.getLast_mem h.1)
  rw [ofNumber?, hlast]
  generalize cs.getLast h.1 = c at *
  split
  all_goals
    rename_i heq
    first
      | rfl
      | (rw [Option.some.inj heq] at hdigit
         cases hdigit)

/-- A written literal that begins with a digit is read back. -/
theorem ofNumber?_int {n : Int64} (hn : 0 ≤ n.toInt) :
    ofNumber? (Literal.int n).text.toList = some (.int n) := by
  obtain ⟨k, -, hrepr⟩ := exists_repr_toInt hn
  have hdigits : IsDigits n.toInt.repr.toList := hrepr ▸ isDigits_repr k
  have hpoint : ¬ n.toInt.repr.toList.contains '.' = true := by
    rw [List.contains_iff_mem]
    intro hmem
    exact absurd (hdigits.2 _ hmem) (by decide)
  have hread := ofNumber?_append_digits [] hdigits
  rw [List.nil_append, if_neg hpoint, readInt64?_repr] at hread
  exact hread

theorem ofNumber?_long (n : Int64) :
    ofNumber? (Literal.long n).text.toList = some (.long n) := by
  rw [Literal.text, String.toList_append, ofNumber?]
  simp only [String.reduceToList, List.getLast?_concat]
  rw [List.dropLast_concat, readInt64?_repr]
  rfl

theorem ofNumber?_double {d : Float} {m : Nat} {e : Int} (hd : decode d = .finite false m e) :
    ofNumber? (Literal.double d).text.toList = some (.double d) := by
  obtain ⟨whole, fraction, htext, hwhole, hfraction, hvalue⟩ := write_plainDouble hd
  have hsplit : whole ++ '.' :: fraction = (whole ++ ['.']) ++ fraction := by simp
  rw [Literal.text, htext, hsplit, ofNumber?_append_digits _ hfraction, if_pos (by simp), ← hsplit,
    readFloat?_pointed hwhole hfraction, hvalue]
  rfl

/-- Whether a source can spell the literal: numbers in a source have no sign. -/
def Readable : Literal → Prop
  | .int n | .long n => 0 ≤ n.toInt
  | .double d => decode d = .infinite false ∨ ∃ m e, decode d = .finite false m e
  | .char _ => False
  | _ => True

theorem toInt_nonneg_of_readInt64? {c : Char} (hc : c.isDigit = true) {cs : List Char} {n : Int64}
    (h : readInt64? (c :: cs) = some n) : 0 ≤ n.toInt := by
  rw [readInt64?, readInt?_of_isDigit hc] at h
  cases hnat : readNat? (c :: cs) with
  | none => simp [hnat] at h
  | some k =>
    rw [hnat] at h
    rw [int64?_eq_some_iff.1 h]
    exact Int.natCast_nonneg k

theorem decode_of_readFloat? {c : Char} (hc : c.isDigit = true) {cs : List Char} {d : Float}
    (h : readFloat? (c :: cs) = some d) :
    decode d = .infinite false ∨ ∃ m e, decode d = .finite false m e := by
  rw [readFloat?_of_isDigit hc, readMagnitude?] at h
  simp only at h
  split at h
  all_goals
    split at h
    · cases h
    · obtain ⟨e, -, rfl⟩ := Option.map_eq_some_iff.1 h
      exact decode_nearestScaled _ _

/-- What a number token stands for has no sign. -/
theorem readable_of_ofNumber? {c : Char} (hc : c.isDigit = true) {cs : List Char} {value : Literal}
    (h : ofNumber? (c :: cs) = some value) : value.Readable := by
  -- A suffix is no digit, so that the digit in front is left when the suffix is dropped.
  have hdrop {d : Char} (hd : d.isDigit = false) (hlast : (c :: cs).getLast? = some d) :
      ∃ ds, (c :: cs).dropLast = c :: ds := by
    cases cs with
    | nil =>
      have hsame : c = d := Option.some.inj hlast
      rw [← hsame, hc] at hd
      cases hd
    | cons e es => exact ⟨_, rfl⟩
  have hlong {d : Char} (hd : d.isDigit = false) (hlast : (c :: cs).getLast? = some d)
      (h : (readInt64? (c :: cs).dropLast).map Literal.long = some value) : value.Readable := by
    obtain ⟨n, hn, rfl⟩ := Option.map_eq_some_iff.1 h
    obtain ⟨ds, hds⟩ := hdrop hd hlast
    rw [hds] at hn
    exact toInt_nonneg_of_readInt64? hc hn
  have hdouble {d : Char} (hd : d.isDigit = false) (hlast : (c :: cs).getLast? = some d)
      (h : (readFloat? (c :: cs).dropLast).map Literal.double = some value) : value.Readable := by
    obtain ⟨x, hx, rfl⟩ := Option.map_eq_some_iff.1 h
    obtain ⟨ds, hds⟩ := hdrop hd hlast
    rw [hds] at hx
    exact decode_of_readFloat? hc hx
  unfold ofNumber? at h
  split at h
  · rename_i hlast
    exact hlong rfl hlast h
  · rename_i hlast
    exact hlong rfl hlast h
  · rename_i hlast
    exact hdouble rfl hlast h
  · rename_i hlast
    exact hdouble rfl hlast h
  · split at h
    · obtain ⟨x, hx, rfl⟩ := Option.map_eq_some_iff.1 h
      exact decode_of_readFloat? hc hx
    · obtain ⟨n, hn, rfl⟩ := Option.map_eq_some_iff.1 h
      exact toInt_nonneg_of_readInt64? hc hn

end Literal

namespace Fragment.Cuts

open Lexeme

/-- A number in front is cut as a whole. -/
theorem number {text : String} {whole part letter rest : List Char} (hwhole : IsDigits whole)
    (hpart : IsFraction part) (hletter : IsLetter letter)
    (htext : text.toList = whole ++ part ++ letter) (hrest : Ends rest) (m : Mark) :
    ∃ fragment m', fragment.text = text ∧ Cuts m (text.toList ++ rest) [fragment] m' rest := by
  have hnumber := number_eq hwhole hpart hletter hrest
  obtain ⟨c, cs, rfl⟩ := List.exists_cons_of_ne_nil hwhole.1
  have hdigit := hwhole.2 c List.mem_cons_self
  have hfront : text.toList ++ rest = c :: (cs ++ (part ++ (letter ++ rest))) := by
    rw [htext]
    simp
  have hnext : Lexeme.next? coreSymbols c (cs ++ (part ++ (letter ++ rest))) =
      some (text.toList, rest) := by
    rw [next?_of_isDigit coreSymbols _ hdigit, htext, ← hnumber]
    rfl
  obtain ⟨fragment, m', hfragment, hcuts⟩ := lexeme (isBlank_of_isDigit hdigit) m hnext
  refine ⟨fragment, m', ?_, ?_⟩
  · rw [hfragment, String.ofList_toList]
  · rwa [hfront]

/-- A written text in front is cut as a whole. -/
theorem string (s : String) (rest : List Char) (m : Mark) :
    ∃ fragment m', fragment.text = (Literal.str s).text ∧
      Cuts m ((Literal.str s).text.toList ++ rest) [fragment] m' rest := by
  have hnext : Lexeme.next? coreSymbols '\'' (escapedAll s.toList ++ '\'' :: rest) =
      some ((Literal.str s).text.toList, rest) := by
    rw [Lexeme.next?, if_pos (by decide), toQuote?_escapedAll, Literal.toList_text_str]
    rfl
  obtain ⟨fragment, m', hfragment, hcuts⟩ := lexeme (by decide) m hnext
  refine ⟨fragment, m', ?_, ?_⟩
  · rw [hfragment, String.ofList_toList]
  · rw [Literal.toList_text_str]
    simpa using hcuts

end Fragment.Cuts

end ExprLang
