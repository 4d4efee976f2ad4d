import ExprLang.Proofs.Extensions.Discretion
import ExprLang.Proofs.Extensions.Independence
import ExprLang.Proofs.Fragments.Munch
import ExprLang.Proofs.Overloads.Resolution
import ExprLang.Proofs.Recognizers.Consultation

/-!
# Extensions that are added twice

A part that is added once more goes behind the one that is there already, or takes the place of an
equal one.  So in every registry the same is found as before, whatever else is there, and an engine
to which an extension is added twice in a row does what it does with the extension added once
(`Engine.extend_twice`).  Only the overloads that the error of a call lists can tell the two apart.
-/

namespace ExprLang

/-! ## Additions of what is there -/

/-- Additions to a registry that can be repeated wherever the part that is added is there already.
`found` is what counts of a registry. -/
structure Repeatable {σ α β : Type} (add : σ → α → σ) (Sound : σ → Prop) (Has : σ → α → Prop)
    (found : σ → β) : Prop where
  sound : ∀ {s} x, Sound s → Sound (add s x)
  added : ∀ s x, Has (add s x) x
  kept : ∀ {s x} y, Has s x → Has (add s y) x
  same : ∀ {s x}, Sound s → Has s x → found (add s x) = found s

section

variable {σ α β : Type} {add : σ → α → σ} {Sound : σ → Prop} {Has : σ → α → Prop} {found : σ → β}

namespace Repeatable

variable (h : Repeatable add Sound Has found)
include h

theorem sound_foldl (xs : List α) {s : σ} (hs : Sound s) : Sound (xs.foldl add s) :=
  List.foldlRecOn xs add hs fun _ ht x _ => h.sound x ht

theorem has_foldl {xs : List α} {s : σ} {x : α} (hx : x ∈ xs ∨ Has s x) :
    Has (xs.foldl add s) x := by
  induction xs generalizing s with
  | nil => exact hx.resolve_left List.not_mem_nil
  | cons y rest ih =>
    rcases hx with hx | hx
    · rcases List.mem_cons.1 hx with rfl | hx
      · exact ih (.inr (h.added s x))
      · exact ih (.inl hx)
    · exact ih (.inr (h.kept y hx))

theorem foldl_same {xs : List α} {s : σ} (hs : Sound s) (hxs : ∀ x ∈ xs, Has s x) :
    found (xs.foldl add s) = found s := by
  induction xs generalizing s with
  | nil => rfl
  | cons y rest ih =>
    obtain ⟨hy, hrest⟩ := List.forall_mem_cons.1 hxs
    have hthere := ih (h.sound y hs) fun x hx => h.kept y (hrest x hx)
    exact hthere.trans (h.same hs hy)

/-- A list of additions can be repeated. -/
theorem foldl_twice (xs : List α) {s : σ} (hs : Sound s) :
    found (xs.foldl add (xs.foldl add s)) = found (xs.foldl add s) :=
  h.foldl_same (h.sound_foldl xs hs) fun _ hx => h.has_foldl (.inl hx)

end Repeatable

theorem find?_append_twice (l xs : List α) (p : α → Bool) :
    (l ++ xs ++ xs).find? p = (l ++ xs).find? p := by
  rw [List.find?_append, List.find?_append, Option.or_assoc, Option.or_self]

end

namespace Ranked

variable {α β κ : Type} {le : α → α → Bool} {x : α}

/-- A member without an answer may be put in anywhere. -/
theorem findSome?_insert_of_none {f : α → Option β} (h : f x = none) (xs : List α) :
    (insert le x xs).findSome? f = xs.findSome? f := by
  induction xs with
  | nil => rw [insert, List.findSome?_cons, h]
  | cons y rest ih =>
    rw [insert]
    split
    · rw [List.findSome?_cons, ih, ← List.findSome?_cons]
    · rw [List.findSome?_cons, h]

variable [LinearOrder κ] {key : α → κ} (hle : ∀ a b, le a b = true ↔ key a ≤ key b)
include hle

/-- A second copy of a member goes behind the first one, which answers before it. -/
theorem findSome?_insert_of_mem {xs : List α} (hxs : xs.Pairwise fun x y => key x ≤ key y)
    (hx : x ∈ xs) (f : α → Option β) : (insert le x xs).findSome? f = xs.findSome? f := by
  induction xs with
  | nil => cases hx
  | cons y rest ih =>
    obtain ⟨hy, hrest⟩ := List.pairwise_cons.1 hxs
    have hyx : key y ≤ key x := by
      rcases List.mem_cons.1 hx with rfl | hx
      · exact le_rfl
      · exact hy x hx
    rw [insert_cons_of_le ((hle y x).2 hyx), List.findSome?_cons, List.findSome?_cons]
    cases hfy : f y with
    | some b => rfl
    | none =>
      rcases List.mem_cons.1 hx with rfl | hx
      · exact findSome?_insert_of_none hfy rest
      · exact ih hrest hx

theorem find?_insert_of_mem {xs : List α} (hxs : xs.Pairwise fun x y => key x ≤ key y)
    (hx : x ∈ xs) (p : α → Bool) : (insert le x xs).find? p = xs.find? p := by
  rw [List.find?_eq_findSome?_guard, List.find?_eq_findSome?_guard]
  exact findSome?_insert_of_mem hle hxs hx _

end Ranked

/-! ## Lexers -/

/-- The symbols of a chain are sorted, so they are determined by what is among them. -/
theorem Chain.symbols_congr {chain other : Chain}
    (h : ∀ s, s ∈ chain.symbols ↔ s ∈ other.symbols) : chain.symbols = other.symbols := by
  have hsorted (chain : Chain) : chain.symbols.Pairwise (· < ·) := Entries.sorted_ofList _
  exact (hsorted chain).eq_of_mem_iff (hsorted other) h

namespace Lexer

/-- The recognizers are asked in the order of their priorities. -/
def Ordered (lexer : Lexer) : Prop :=
  lexer.chain.members.Pairwise fun r q => r.priority ≤ q.priority

variable {lexer : Lexer}

theorem mem_addRecognizer {r q : Recognizer} :
    q ∈ (lexer.addRecognizer r).chain.members ↔ q = r ∨ q ∈ lexer.chain.members :=
  Ranked.mem_insert

/-- A recognizer that is in the chain already can be added once more. -/
theorem tokens_addRecognizer (h : lexer.Ordered) {r : Recognizer}
    (hr : r ∈ lexer.chain.members) : (lexer.addRecognizer r).tokens = lexer.tokens := by
  have hsymbols : (lexer.addRecognizer r).symbols = lexer.symbols := by
    rw [symbols, symbols]
    congr 1
    apply Chain.symbols_congr
    intro s
    simp only [Chain.mem_symbols, mem_addRecognizer]
    constructor
    · rintro ⟨q, rfl | hq, hs⟩
      · exact ⟨q, hr, hs⟩
      · exact ⟨q, hq, hs⟩
    · rintro ⟨q, hq, hs⟩
      exact ⟨q, .inr hq, hs⟩
  have hclassify : (lexer.addRecognizer r).classify = lexer.classify := by
    funext fragment
    have hrecognize : (lexer.addRecognizer r).chain.recognize fragment =
        lexer.chain.recognize fragment :=
      Ranked.findSome?_insert_of_mem Recognizer.notAfter_iff h hr _
    rw [classify, classify, hrecognize]
    rfl
  funext source
  rw [tokens, tokens, hsymbols, hclassify]
  rfl

theorem repeatable : Repeatable addRecognizer Ordered (fun lexer r => r ∈ lexer.chain.members)
    tokens where
  sound _ hs := Ranked.pairwise_insert Recognizer.notAfter_iff hs
  added _ _ := mem_addRecognizer.2 (.inl rfl)
  kept _ hr := mem_addRecognizer.2 (.inr hr)
  same hs hr := tokens_addRecognizer hs hr

theorem Ordered.extend (h : lexer.Ordered) (e : Extension) : (lexer.extend e).Ordered :=
  repeatable.sound_foldl e.recognizers h

theorem Ordered.tokens_extend_twice (h : lexer.Ordered) (e : Extension) :
    ((lexer.extend e).extend e).tokens = (lexer.extend e).tokens :=
  repeatable.foldl_twice e.recognizers h

end Lexer

/-! ## Grammars -/

namespace Grammar

variable (g : Grammar) (entries : List (Construct × ConstructParser))

theorem setParsers_cons (entry : Construct × ConstructParser) :
    g.setParsers (entry :: entries) = (g.setParser entry.1 entry.2).setParsers entries := rfl

/-- The parsers of a list stand before those of the other constructs. -/
theorem parsers_setParsers : (g.setParsers entries).parsers =
    (empty.setParsers entries).parsers ++
      g.parsers.filter fun other => other.1 ∉ entries.map Prod.fst := by
  induction entries generalizing g with
  | nil => simp [setParsers, empty]
  | cons entry rest ih =>
    have hset (k : Grammar) : (k.setParser entry.1 entry.2).parsers =
        [entry] ++ k.parsers.filter fun other => other.1 ≠ entry.1 := rfl
    rw [setParsers_cons, setParsers_cons, ih, ih (empty.setParser _ _), hset, hset,
      List.filter_append, List.filter_append, List.append_assoc, List.append_assoc,
      List.filter_filter]
    congr 3
    funext other
    rw [Bool.eq_iff_iff, Bool.and_eq_true]
    simp only [decide_eq_true_eq, List.map_cons, List.mem_cons, not_or]
    exact and_comm

theorem fst_mem_of_mem_setParsers {other : Construct × ConstructParser}
    (h : other ∈ (empty.setParsers entries).parsers) : other.1 ∈ entries.map Prod.fst := by
  induction entries with
  | nil => cases h
  | cons entry rest ih =>
    rw [setParsers_cons, parsers_setParsers, List.mem_append] at h
    rw [List.map_cons]
    rcases h with h | h
    · exact List.mem_cons_of_mem _ (ih h)
    · have hentry := List.mem_of_mem_filter h
      rw [List.mem_singleton.1 hentry]
      exact List.mem_cons_self

theorem setParsers_twice :
    ((g.setParsers entries).setParsers entries).parsers = (g.setParsers entries).parsers := by
  have hgone : (empty.setParsers entries).parsers.filter
      (fun other => other.1 ∉ entries.map Prod.fst) = [] := by
    apply List.filter_eq_nil_iff.2
    intro other hother
    simpa using fst_mem_of_mem_setParsers entries hother
  rw [parsers_setParsers (g.setParsers entries), parsers_setParsers g, List.filter_append, hgone,
    List.nil_append, List.filter_filter]
  simp only [Bool.and_self]

theorem alike_extend_extend (e : Extension) : ((g.extend e).extend e).Alike (g.extend e) where
  toSameParsers := by
    have hparsers (k : Grammar) : (k.extend e).parsers = (k.setParsers e.parsers).parsers := by
      rw [extend_eq]
    apply SameParsers.of_eq
    rw [hparsers, hparsers, parsers_setParsers (g.extend e), hparsers, ← parsers_setParsers,
      setParsers_twice]
  binary? := by
    funext kind
    simp only [Grammar.binary?, extend_eq]
    exact find?_append_twice _ _ _
  before? := by
    funext kind
    simp only [Grammar.before?, extend_eq]
    exact find?_append_twice _ _ _
  after? := by
    funext kind
    simp only [Grammar.after?, extend_eq]
    exact find?_append_twice _ _ _

end Grammar

/-! ## Semantics -/

namespace Functions

/-- The overloads of each name are tried in the order of their specificities. -/
def Ordered (fs : Functions) : Prop :=
  ∀ name, (fs.overloadsOf name).Pairwise fun f g => f.specificity ≤ g.specificity

/-- The first overload of a name with a property. -/
def first? (fs : Functions) (name : String) (p : Function → Bool) : Option Function :=
  (fs.overloadsOf name).find? p

variable {fs gs : Functions} {f : Function}

theorem Ordered.add (h : fs.Ordered) (f : Function) : (fs.add f).Ordered := by
  intro name
  rw [overloadsOf_add]
  split
  · exact Ranked.pairwise_insert Function.notAfter_iff (h name)
  · exact h name

theorem mem_overloadsOf_add_iff {g : Function} {name : String} :
    g ∈ (fs.add f).overloadsOf name ↔ (name = f.name ∧ g = f) ∨ g ∈ fs.overloadsOf name := by
  rw [overloadsOf_add]
  split
  · rename_i hname
    simp [Ranked.mem_insert, hname]
  · rename_i hname
    simp [hname]

/-- An overload that is there already can be added once more. -/
theorem first?_add (h : fs.Ordered) (hf : f ∈ fs.overloadsOf f.name) :
    (fs.add f).first? = fs.first? := by
  funext name p
  rw [first?, first?, overloadsOf_add]
  split
  · rename_i hname
    subst hname
    exact Ranked.find?_insert_of_mem Function.notAfter_iff (h f.name) hf p
  · rfl

theorem repeatable : Repeatable add Ordered (fun fs f => f ∈ fs.overloadsOf f.name) first? where
  sound f hs := hs.add f
  added _ _ := mem_overloadsOf_add_iff.2 (.inl ⟨rfl, rfl⟩)
  kept _ hf := mem_overloadsOf_add_iff.2 (.inr hf)
  same hs hf := first?_add hs hf

/-- Calls for which the same overload is the first one fail alike as well: only the overloads that
could not be taken may differ. -/
theorem resolve_like (L : Fault.Likeness) (h : fs.first? = gs.first?) (name : String)
    (args : List Value) : SameUpTo L.Like (fs.resolve name args) (gs.resolve name args) := by
  have hany := congrFun₂ h name fun _ => true
  have haccepts := congrFun₂ h name fun f => f.signature.accepts args
  rw [first?, first?] at hany haccepts
  rw [resolve, resolve]
  cases hfs : fs.overloadsOf name with
  | nil =>
    cases hgs : gs.overloadsOf name with
    | nil => exact .refl L.refl _
    | cons g rest => simp [hfs, hgs] at hany
  | cons f others =>
    cases hgs : gs.overloadsOf name with
    | nil => simp [hfs, hgs] at hany
    | cons g rest =>
      rw [hfs, hgs] at haccepts
      simp only [haccepts]
      cases (g :: rest).find? fun f => f.signature.accepts args with
      | some found => exact .ok found
      | none => exact .error (L.candidates name _ _ _)

end Functions

section

variable {L : Fault.Likeness}

variable (L) in
/-- The functions of the extension are discreet. -/
def Extension.Discreet (e : Extension) : Prop :=
  ∀ f ∈ e.functions, f.Discreet L

theorem Extension.core_discreet : Extension.core.Discreet L :=
  fun f hf => (Functions.Library.transparent_all f hf).discreet

namespace Semantics

variable {s : Semantics} {e : Extension}

theorem discreet_extend (hs : s.functions.Discreet L) (he : e.Discreet L) :
    (s.extend e).functions.Discreet L := by
  intro name f hf
  rw [extend_eq] at hf
  rcases Functions.mem_overloadsOf_addAll hf with hf | hf
  · exact he f hf
  · exact hs name f hf

theorem like_extend_extend (hordered : s.functions.Ordered) (hs : s.functions.Discreet L)
    (he : e.Discreet L) : ((s.extend e).extend e).Like L (s.extend e) where
  resolveBinary := by
    funext operation l r
    simp only [Operators.resolveBinary, Operators.binaryHandlers, extend_eq, List.find?_filter,
      find?_append_twice]
  resolveUnary := by
    funext operation v
    simp only [Operators.resolveUnary, Operators.unaryHandlers, extend_eq, List.find?_filter,
      find?_append_twice]
  convert := by
    funext v target
    simp only [Conversion.convert, extend_eq, find?_append_twice]
  maxDepth := by
    simp only [extend_eq, Functions.maxDepth_addAll]
  resolve := by
    apply Functions.resolve_like
    simp only [extend_eq]
    exact Functions.repeatable.foldl_twice e.functions hordered
  discreet := discreet_extend (discreet_extend hs he) he

end Semantics

/-! ## Engines -/

namespace Engine

variable (L) in
/-- An engine that is made of extensions with discreet functions, in any order. -/
inductive Assembled : Engine → Prop
  | bare : Assembled .bare
  | extend {engine : Engine} {e : Extension} (h : Assembled engine) (he : e.Discreet L) :
    Assembled (engine.extend e)

theorem assembled_core : core.Assembled L :=
  .extend .bare Extension.core_discreet

theorem Assembled.lexer_ordered {engine : Engine} (h : engine.Assembled L) :
    engine.lexer.Ordered := by
  induction h with
  | bare => exact .nil
  | @extend engine e h he ih => exact ih.extend e

theorem Assembled.functions_ordered {engine : Engine} (h : engine.Assembled L) :
    engine.semantics.functions.Ordered := by
  induction h with
  | bare => exact fun _ => .nil
  | @extend engine e h he ih =>
    rw [Engine.extend, Semantics.extend_eq]
    exact Functions.repeatable.sound_foldl e.functions ih

theorem Assembled.discreet {engine : Engine} (h : engine.Assembled L) :
    engine.semantics.functions.Discreet L := by
  induction h with
  | bare => exact fun _ _ hf => absurd hf List.not_mem_nil
  | extend h he ih => exact Semantics.discreet_extend ih he

variable (L) in
/-- Two engines that give the same tokens, trees and values, or the same errors, apart from alike
errors of evaluations, and that leave the same variables.  They give the same trees also within any
depth of constructs. -/
structure Like (a b : Engine) : Prop where
  strict : a.strict = b.strict
  tokens : ∀ source, a.lexer.tokens source = b.lexer.tokens source
  parse : ∀ construct source, a.parse construct source = b.parse construct source
  parseWithin : ∀ depth construct source,
    a.parseWithin depth construct source = b.parseWithin depth construct source
  evaluate : ∀ n : Node,
    a.semantics.RunAlike (SameUpTo L.Like) b.semantics n.evaluate n.evaluate
  eval : ∀ source,
    a.semantics.RunAlike (SameUpTo L.LikeError) b.semantics (a.eval source) (b.eval source)
  evalWithin : ∀ depth source,
    a.semantics.RunAlike (SameUpTo L.LikeError) b.semantics (a.evalWithin depth source)
      (b.evalWithin depth source)

theorem Like.of_parts {a b : Engine} (hstrict : a.strict = b.strict)
    (htokens : a.lexer.tokens = b.lexer.tokens) (hgrammar : a.grammar.Alike b.grammar)
    (hsemantics : a.semantics.Like L b.semantics) : a.Like L b := by
  have hparse := parse_congr htokens hgrammar
  have hwithin := parseWithin_congr htokens hgrammar
  have hrun := runAlike_run hsemantics.evaluate (fun h => h.mapError Fault.Likeness.LikeError.of)
    fun e => .error (.refl e)
  refine ⟨hstrict, congrFun htokens, congrFun₂ hparse, congrFun₃ hwithin, hsemantics.evaluate,
    ?eval, ?evalWithin⟩
  case eval =>
    rw [← eval_congr hparse]
    exact fun source => hrun (a.compile source)
  case evalWithin =>
    rw [← evalWithin_congr hwithin]
    exact fun depth source => hrun _

end Engine

end

/-- An overload of `upper` for lists, and the function `shout`, which rewords the errors of `upper`
and puts them where a source begins. -/
def Extension.shouting : Extension where
  name := "shouting"
  functions := [⟨"upper", .fixed [.list], fun _ args => .ok (.list args)⟩,
    ⟨"shout", .fixed [.any], fun services args =>
      reworded (services.call services.view "upper" args)⟩]
where
  reworded : Outcome → Outcome
    | .ok v => .ok v
    | .error fault =>
      .error (.reported fault.kind ("shout: " ++ fault.message) (some 1) (some 1))

/-- What a reworded error says depends on its message, and its kind is kept. -/
theorem Extension.shouting_discreet : Extension.shouting.Discreet .coarsest := by
  have hreworded {x y : Outcome} (h : SameUpTo Fault.Likeness.coarsest.Like x y) :
      SameUpTo Fault.Likeness.coarsest.Like (shouting.reworded x) (shouting.reworded y) := by
    cases h with
    | ok v => exact .ok v
    | error hkind => exact .error hkind
  refine List.forall_mem_cons.2 ⟨?upper, List.forall_mem_singleton.2 ?shout⟩
  case upper => exact fun _ _ _ args => .ok (Value.list args)
  case shout =>
    intro s t hlike args
    have hcall : SameUpTo Fault.Likeness.coarsest.Like (s.call s.view "upper" args)
        (t.call t.view "upper" args) := hlike.view ▸ hlike.call s.view "upper" args
    exact hreworded hcall

/-- The tree of `shout(null)`. -/
def Node.shoutNull : Node :=
  .call "shout" [.literal .null]

end ExprLang
