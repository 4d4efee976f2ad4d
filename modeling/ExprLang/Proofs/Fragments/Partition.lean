import ExprLang.Proofs.Syntax.Language

/-!
# Fragments partition their source

The fragments of a source come in order and do not overlap.  Each is the part of the source between
the bytes of its span, its line and column are counted off the characters in front of it, and all
characters outside the fragments are blank.  Tokens keep the fragments as they are, and the end
token stands behind the last character (`Fragment.split_partitions`).
-/

namespace ExprLang

open Text

/-- How many bytes the characters take in a source. -/
def byteSize (cs : List Char) : Nat :=
  (String.ofList cs).utf8ByteSize

@[simp]
theorem byteSize_nil : byteSize [] = 0 := rfl

@[simp]
theorem byteSize_append (cs ds : List Char) : byteSize (cs ++ ds) = byteSize cs + byteSize ds := by
  simp only [byteSize, String.ofList_append, String.utf8ByteSize_append]

@[simp]
theorem byteSize_singleton (c : Char) : byteSize [c] = c.utf8Size := by
  simp [byteSize]

theorem byteSize_toList (s : String) : byteSize s.toList = s.utf8ByteSize := by
  rw [byteSize, String.ofList_toList]

theorem byteSize_le_of_prefix {cs ds : List Char} (h : cs <+: ds) : byteSize cs ≤ byteSize ds := by
  obtain ⟨rest, rfl⟩ := h
  rw [byteSize_append]
  omega

theorem byteSize_lt_of_prefix {cs ds : List Char} {c : Char} (h : cs ++ [c] <+: ds) :
    byteSize cs < byteSize ds := by
  have hle := byteSize_le_of_prefix h
  rw [byteSize_append, byteSize_singleton] at hle
  have hpos := c.utf8Size_pos
  omega

namespace Mark

/-- The mark stands behind these characters of a source. -/
structure Follows (m : Mark) (before : List Char) : Prop where
  offset_eq : m.offset = byteSize before
  line_eq : m.line = 1 + before.count '\n'
  /-- what counts is the characters behind the last line feed -/
  col_eq : m.col = 1 + (before.rtakeWhile (· ≠ '\n')).length

theorem follows_start : start.Follows [] where
  offset_eq := rfl
  line_eq := rfl
  col_eq := rfl

theorem Follows.step {m : Mark} {before : List Char} (h : m.Follows before) (c : Char) :
    (m.step c).Follows (before ++ [c]) := by
  by_cases hc : c = '\n'
  · have hstep : m.step c = ⟨m.offset + c.utf8Size, m.line + 1, 1⟩ := if_pos hc
    rw [hstep]
    constructor
    · simp only [h.offset_eq, byteSize_append, byteSize_singleton]
    · simp only [h.line_eq, hc, List.count_append, List.count_singleton_self, Nat.add_assoc]
    · rw [List.rtakeWhile_concat_neg _ _ _ (by simp [hc]), List.length_nil]
  · have hstep : m.step c = ⟨m.offset + c.utf8Size, m.line, m.col + 1⟩ := if_neg hc
    rw [hstep]
    constructor
    · simp only [h.offset_eq, byteSize_append, byteSize_singleton]
    · rw [List.count_append, List.count_singleton, if_neg (by simp [hc]), h.line_eq]
      rfl
    · rw [List.rtakeWhile_concat_pos _ _ _ (by simp [hc]), List.length_append, h.col_eq]
      rfl

theorem Follows.advance {m : Mark} {before : List Char} (h : m.Follows before) (cs : List Char) :
    (m.advance cs).Follows (before ++ cs) := by
  induction cs generalizing m before with
  | nil => simpa using h
  | cons c cs ih => simpa using ih (h.step c)

end Mark

/-- The mark of the first character in a span. -/
def Span.first (s : Span) : Mark :=
  ⟨s.start, s.line, s.col⟩

namespace Fragment

/-- The fragments cover the characters `coming`, which stand behind the characters `before`. -/
inductive Covers : List Char → List Char → List Fragment → Prop
  | blank {before gap : List Char} (hgap : ∀ c ∈ gap, isBlank c = true) : Covers before gap []
  | fragment {before gap lexeme rest : List Char} {first last : Mark} {fragments : List Fragment}
      (hgap : ∀ c ∈ gap, isBlank c = true) (hlexeme : lexeme ≠ [])
      (hfirst : first.Follows (before ++ gap)) (hlast : last.Follows (before ++ gap ++ lexeme))
      (hrest : Covers (before ++ gap ++ lexeme) rest fragments) :
      Covers before (gap ++ lexeme ++ rest)
        (⟨String.ofList lexeme, .between first last⟩ :: fragments)

@[simp]
theorem ofChars_nil (symbols : List (List Char)) (m : Mark) : ofChars symbols m [] = .ok [] := by
  rw [ofChars]
  rfl

/-- How the fragments are cut off the characters, which begin at the mark: what stands in front is
blank, then comes the next lexeme. -/
inductive Cut (symbols : List (List Char)) : Mark → List Char → List Fragment → Prop
  | blank {m : Mark} {gap : List Char} (hgap : ∀ c ∈ gap, isBlank c = true) : Cut symbols m gap []
  | fragment {m : Mark} {gap rest lexeme after : List Char} {c : Char} {others : List Fragment}
      (hgap : ∀ d ∈ gap, isBlank d = true) (hc : isBlank c = false)
      (hnext : Lexeme.next? symbols c rest = some (lexeme, after))
      (hothers : Cut symbols ((m.advance gap).advance lexeme) after others) :
      Cut symbols m (gap ++ lexeme ++ after)
        (⟨String.ofList lexeme, .between (m.advance gap) ((m.advance gap).advance lexeme)⟩ :: others)

/-- What is left behind blank characters begins with another one. -/
theorem isBlank_of_dropWhile {cs rest : List Char} {c : Char}
    (h : cs.dropWhile isBlank = c :: rest) : isBlank c = false := by
  have hhead := List.head?_dropWhile_not isBlank cs
  rwa [h] at hhead

theorem cut_of_ofChars {symbols : List (List Char)} {m : Mark} {cs : List Char}
    {fragments : List Fragment} (h : ofChars symbols m cs = .ok fragments) :
    Cut symbols m cs fragments := by
  fun_induction ofChars symbols m cs generalizing fragments with
  | case1 m cs hrest =>
    obtain rfl := Except.ok.inj h
    exact .blank (List.dropWhile_eq_nil_iff.1 hrest)
  | case2 => cases h
  | case3 m cs start c rest hcs lexeme after hnext =>
    rename_i stop ih
    cases hothers : ofChars symbols stop after with
    | error e =>
      rw [hothers] at h
      cases h
    | ok others =>
      rw [hothers] at h
      obtain rfl := Except.ok.inj h
      have hsplit : cs = cs.takeWhile isBlank ++ lexeme ++ after := by
        rw [List.append_assoc, (Lexeme.append_of_next? hnext).1, ← hcs,
          List.takeWhile_append_dropWhile]
      have hcut : Cut symbols m (cs.takeWhile isBlank ++ lexeme ++ after)
          (⟨String.ofList lexeme, .between start stop⟩ :: others) :=
        .fragment (fun d hd => List.mem_takeWhile_imp hd) (isBlank_of_dropWhile hcs) hnext (ih hothers)
      rwa [← hsplit] at hcut

/-- The fragments that are cut off cover the characters. -/
theorem covers_of_ofChars {symbols : List (List Char)} {m : Mark} {before cs : List Char}
    {fragments : List Fragment} (hm : m.Follows before)
    (h : ofChars symbols m cs = .ok fragments) : Covers before cs fragments := by
  replace h := cut_of_ofChars h
  induction h generalizing before with
  | blank hgap => exact .blank hgap
  | @fragment m gap rest lexeme after c others hgap _ hnext _ ih =>
    have hstart := hm.advance gap
    have hstop := hstart.advance lexeme
    exact .fragment hgap (Lexeme.append_of_next? hnext).2 hstart hstop (ih hstop)

namespace Covers

variable {before coming : List Char} {fragments : List Fragment}

/-- No fragment begins before the characters that are covered. -/
theorem le_start (h : Covers before coming fragments) :
    ∀ f ∈ fragments, byteSize before ≤ f.span.start := by
  induction h with
  | blank => exact fun f hf => absurd hf List.not_mem_nil
  | @fragment before gap lexeme rest first last fragments _ _ hfirst _ _ ih =>
    rw [List.forall_mem_cons]
    constructor
    · change byteSize before ≤ first.offset
      rw [hfirst.offset_eq]
      exact byteSize_le_of_prefix (List.prefix_append _ _)
    · intro f hf
      have hle := ih f hf
      simp only [byteSize_append] at hle
      omega

theorem ordered (h : Covers before coming fragments) :
    fragments.Pairwise fun f g => f.span.stop ≤ g.span.start := by
  induction h with
  | blank => exact List.Pairwise.nil
  | @fragment before gap lexeme rest first last fragments _ _ _ hlast hrest ih =>
    apply List.pairwise_cons.2
    constructor
    · intro g hg
      change last.offset ≤ g.span.start
      rw [hlast.offset_eq]
      exact hrest.le_start g hg
    · exact ih

theorem nonempty (h : Covers before coming fragments) : ∀ f ∈ fragments, f.text ≠ "" := by
  induction h with
  | blank => exact fun f hf => absurd hf List.not_mem_nil
  | fragment _ hlexeme _ _ _ ih =>
    rw [List.forall_mem_cons]
    constructor
    · simpa using hlexeme
    · exact ih

/-- A fragment is a part of the source; its span goes from what is in front to what is behind. -/
theorem placed (h : Covers before coming fragments) :
    ∀ f ∈ fragments, ∃ front back, before ++ coming = front ++ f.text.toList ++ back ∧
      f.span.first.Follows front ∧ f.span.stop = byteSize (front ++ f.text.toList) := by
  induction h with
  | blank => exact fun f hf => absurd hf List.not_mem_nil
  | @fragment before gap lexeme rest first last fragments _ _ hfirst hlast _ ih =>
    rw [List.forall_mem_cons]
    constructor
    · have htext : (String.ofList lexeme).toList = lexeme := String.toList_ofList
      refine ⟨before ++ gap, rest, ?_, hfirst, ?_⟩
      · simp only [htext, List.append_assoc]
      · rw [htext]
        exact hlast.offset_eq
    · simpa only [List.append_assoc] using ih

/-- Of two places in a source, one character wide the second, one is in front of the other. -/
theorem prefix_or_prefix {front cs source : List Char} {c : Char} (hfront : front ++ [c] <+: source)
    (hcs : cs <+: source) : cs <+: front ∨ front ++ [c] <+: cs := by
  by_cases hlength : cs.length ≤ front.length
  · left
    have hprefix : front <+: source := (List.prefix_append front [c]).trans hfront
    exact List.prefix_of_prefix_length_le hcs hprefix hlength
  · right
    apply List.prefix_of_prefix_length_le hfront hcs
    rw [List.length_append, List.length_singleton]
    omega

/-- A character that does not belong to a fragment is blank. -/
theorem blank_or_mem (h : Covers before coming fragments) {front : List Char} {c : Char}
    (hbefore : before <+: front) (hfront : front ++ [c] <+: before ++ coming) :
    isBlank c = true ∨
      ∃ f ∈ fragments, f.span.start ≤ byteSize front ∧ byteSize front < f.span.stop := by
  induction h with
  | @blank before gap hgap =>
    left
    obtain ⟨rest, rfl⟩ := hbefore
    rw [List.append_assoc, List.prefix_append_right_inj] at hfront
    exact hgap c (hfront.subset (by simp))
  | @fragment before gap lexeme rest first last fragments hgap _ hfirst hlast _ ih =>
    have hsource : before ++ (gap ++ lexeme ++ rest) = before ++ gap ++ lexeme ++ rest := by
      simp only [List.append_assoc]
    rw [hsource] at hfront
    have hstop := prefix_or_prefix hfront (List.prefix_append (before ++ gap ++ lexeme) rest)
    cases hstop with
    | inl hbehind =>
      cases ih hbehind hfront with
      | inl hblank => exact Or.inl hblank
      | inr hmem =>
        obtain ⟨f, hf, hspan⟩ := hmem
        exact Or.inr ⟨f, List.mem_cons_of_mem _ hf, hspan⟩
    | inr hinside =>
      have hstart := prefix_or_prefix hinside (List.prefix_append (before ++ gap) lexeme)
      cases hstart with
      | inl hlexeme =>
        right
        refine ⟨_, List.mem_cons_self, ?_, ?_⟩
        · change first.offset ≤ byteSize front
          rw [hfirst.offset_eq]
          exact byteSize_le_of_prefix hlexeme
        · change byteSize front < last.offset
          rw [hlast.offset_eq]
          exact byteSize_lt_of_prefix hinside
      | inr hfrontgap =>
        left
        obtain ⟨inner, rfl⟩ := hbefore
        rw [List.append_assoc, List.prefix_append_right_inj] at hfrontgap
        exact hgap c (hfrontgap.subset (by simp))

end Covers

/-- The fragments are the source without the blank characters around them. -/
structure Partitions (source : String) (fragments : List Fragment) : Prop where
  ordered : fragments.Pairwise fun f g => f.span.stop ≤ g.span.start
  nonempty : ∀ f ∈ fragments, f.text ≠ ""
  stop_eq : ∀ f ∈ fragments, f.span.stop = f.span.start + f.text.utf8ByteSize
  bytes_eq : ∀ f ∈ fragments, source.toUTF8.extract f.span.start f.span.stop = f.text.toUTF8
  /-- offset, line and column are those of the characters in front -/
  placed : ∀ f ∈ fragments, ∃ front, front <+: source.toList ∧ f.span.first.Follows front
  /-- any character `c`, which stands behind the characters `front` -/
  blank : ∀ front c, front ++ [c] <+: source.toList →
    isBlank c = true ∨ ∃ f ∈ fragments, f.span.start ≤ byteSize front ∧ byteSize front < f.span.stop

/-- What covers all characters of a source partitions it. -/
theorem Covers.partitions {source : String} {fragments : List Fragment}
    (h : Covers [] source.toList fragments) : Partitions source fragments where
  ordered := h.ordered
  nonempty := h.nonempty
  stop_eq f hf := by
    obtain ⟨front, back, -, hfirst, hstop⟩ := h.placed f hf
    rw [hstop, byteSize_append, byteSize_toList, ← hfirst.offset_eq]
    rfl
  bytes_eq f hf := by
    obtain ⟨front, back, hsource, hfirst, hstop⟩ := h.placed f hf
    have hbytes : source.toByteArray =
        (String.ofList front).toByteArray ++
          (f.text.toByteArray ++ (String.ofList back).toByteArray) := by
      rw [← String.toByteArray_append, ← String.toByteArray_append,
        ← String.ofList_toList (s := source), ← List.nil_append source.toList, hsource, String.ofList_append, String.ofList_append,
        String.ofList_toList, String.append_assoc]
    have hstart : f.span.start = (String.ofList front).toByteArray.size + 0 := hfirst.offset_eq
    rw [byteSize_append, byteSize_toList] at hstop
    change source.toByteArray.extract f.span.start f.span.stop = f.text.toByteArray
    rw [hbytes, hstart, hstop]
    calc
      _ = (f.text.toByteArray ++ (String.ofList back).toByteArray).extract 0 f.text.utf8ByteSize :=
        ByteArray.extract_append_size_add
      _ = f.text.toByteArray := ByteArray.extract_append_eq_left rfl
  placed f hf := by
    obtain ⟨front, back, hsource, hfirst, -⟩ := h.placed f hf
    refine ⟨front, ?_, hfirst⟩
    rw [List.nil_append] at hsource
    rw [hsource, List.append_assoc]
    exact List.prefix_append _ _
  blank front c hfront := h.blank_or_mem List.nil_prefix hfront

end Fragment

/-- A token without its kind. -/
def Token.fragment (t : Token) : Fragment :=
  ⟨t.text, t.span⟩

theorem Cursor.tokens_ofList {body : List Token} {last : Token}
    (hlast : last.kind = BasicKind.eof) : (ofList (body ++ [last])).tokens = body ++ [last] := by
  rw [ofList_terminated hlast]
  cases body <;> rfl

namespace Lexer

variable (lexer : Lexer) (fragments : List Fragment)

/-- A fragment without a kind, where there is no default kind. -/
def Unrecognized (f : Fragment) (e : Error) : Prop :=
  lexer.chain.recognize f = none ∧ lexer.default = none ∧
    e = .inSpan (.unrecognized f.text) f.span

theorem classify_spec (f : Fragment) :
    match lexer.classify f with
    | .ok t => t.fragment = f
    | .error e => lexer.Unrecognized f e := by
  rw [classify]
  cases hkind : (lexer.chain.recognize f).or lexer.default with
  | some kind => rfl
  | none =>
    rw [Option.or_eq_none_iff] at hkind
    exact ⟨hkind.1, hkind.2, rfl⟩

/-- Giving kinds to fragments keeps them one to one, or it stops at one that gets none. -/
theorem mapM_classify_spec :
    match fragments.mapM lexer.classify with
    | .ok tokens => tokens.map Token.fragment = fragments
    | .error e => ∃ f ∈ fragments, lexer.Unrecognized f e := by
  induction fragments with
  | nil => rfl
  | cons f rest ih =>
    rw [List.mapM_cons]
    have hfirst := lexer.classify_spec f
    cases hf : lexer.classify f with
    | error e =>
      rw [hf] at hfirst
      exact ⟨f, List.mem_cons_self, hfirst⟩
    | ok t =>
      rw [hf] at hfirst
      cases hrest : rest.mapM lexer.classify with
      | error e =>
        rw [hrest] at ih
        obtain ⟨g, hg, hunrecognized⟩ := ih
        exact ⟨g, List.mem_cons_of_mem _ hg, hunrecognized⟩
      | ok tokens =>
        rw [hrest] at ih
        exact congrArg₂ List.cons hfirst ih

theorem map_fragment_of_mapM {body : List Token}
    (h : fragments.mapM lexer.classify = .ok body) : body.map Token.fragment = fragments := by
  have hclassify := lexer.mapM_classify_spec fragments
  rwa [h] at hclassify

end Lexer

namespace Fragment

/-- The fragments of a source partition it, whatever the symbols are.  A lexer that cuts sources
this way makes one token of each fragment and puts one end token at the end of the source behind
them, unless it has no kind for some fragment. -/
theorem split_partitions {symbols : List String} {source : String} {fragments : List Fragment}
    (h : split symbols source = .ok fragments) :
    Partitions source fragments ∧
      ∀ lexer : Lexer, lexer.splitter = split → lexer.symbols = symbols →
        match lexer.cursor source with
        | .ok cursor => ∃ tokens stop, cursor.tokens = tokens ++ [.eof stop] ∧
            tokens.map Token.fragment = fragments ∧ stop.Follows source.toList
        | .error e => ∃ f ∈ fragments, lexer.Unrecognized f e := by
  constructor
  · exact (covers_of_ofChars Mark.follows_start h).partitions
  · intro lexer hsplitter hsymbols
    have hcursor : lexer.cursor source = (fragments.mapM lexer.classify).map fun tokens =>
        Cursor.ofList (tokens ++ [.eof (Mark.start.advance source.toList)]) := by
      rw [Lexer.cursor, Lexer.tokens, hsplitter, hsymbols, h]
      change Except.map _ (fragments.mapM lexer.classify >>= fun tokens => _) = _
      cases fragments.mapM lexer.classify <;> rfl
    have hclassify := lexer.mapM_classify_spec fragments
    rw [hcursor]
    cases htokens : fragments.mapM lexer.classify with
    | error e =>
      rw [htokens] at hclassify
      exact hclassify
    | ok tokens =>
      rw [htokens] at hclassify
      exact ⟨tokens, _, Cursor.tokens_ofList rfl, hclassify, Mark.follows_start.advance _⟩

/-- Three fragments on two lines. -/
def twoLines : List Fragment :=
  [⟨"'é'", ⟨0, 4, 1, 1⟩⟩, ⟨"7", ⟨5, 6, 1, 5⟩⟩, ⟨"8", ⟨8, 9, 2, 2⟩⟩]

/-- A letter of two bytes moves the offsets by two and the columns by one. -/
theorem split_partitions_twoLines :
    Partitions "'é' 7\n 8" twoLines ∧
      ∃ cursor tokens stop, Lexer.bare.cursor "'é' 7\n 8" = .ok cursor ∧
        cursor.tokens = tokens ++ [.eof stop] ∧ tokens.map Token.fragment = twoLines ∧
        stop.Follows "'é' 7\n 8".toList := by
  have hsplit : split Lexer.bare.symbols "'é' 7\n 8" = .ok twoLines := by cbv
  obtain ⟨hpartitions, htokens⟩ := split_partitions hsplit
  have hlexer := htokens Lexer.bare rfl rfl
  cases hcursor : Lexer.bare.cursor "'é' 7\n 8" with
  | error e =>
    rw [hcursor] at hlexer
    obtain ⟨f, -, -, hdefault, -⟩ := hlexer
    cases hdefault
  | ok cursor =>
    rw [hcursor] at hlexer
    obtain ⟨tokens, stop, hcursor⟩ := hlexer
    exact ⟨hpartitions, cursor, tokens, stop, rfl, hcursor⟩

end Fragment

end ExprLang
