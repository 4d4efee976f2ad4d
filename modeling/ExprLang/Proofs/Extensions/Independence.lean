import ExprLang.Engine
import ExprLang.Proofs.Extensions.Interchange
import ExprLang.Proofs.Extensions.Replacement
import ExprLang.Proofs.Syntax.Derivation

/-!
# Independent extensions

Two extensions are independent if nothing that they bring is found for the same reason: recognizers
of the same priority, operators of one token, parsers of one construct, handlers of one operation,
functions of one name, or converters to one type.  Whatever engine they are added to, independent
extensions may be added in either order (`Engine.extend_either_order`).
-/

namespace ExprLang

/-- The extensions bring nothing that is found for the same reason. -/
structure Extension.Independent (e f : Extension) : Prop where
  recognizers : ∀ r ∈ e.recognizers, ∀ q ∈ f.recognizers, r.priority ≠ q.priority
  binaryOperators : ∀ op ∈ e.binaryOperators, ∀ oq ∈ f.binaryOperators, op.token ≠ oq.token
  beforeOperators : ∀ op ∈ e.beforeOperators, ∀ oq ∈ f.beforeOperators, op.token ≠ oq.token
  afterOperators : ∀ op ∈ e.afterOperators, ∀ oq ∈ f.afterOperators, op.token ≠ oq.token
  parsers : ∀ entry ∈ e.parsers, ∀ other ∈ f.parsers, entry.1 ≠ other.1
  binaryHandlers : ∀ h ∈ e.binaryHandlers, ∀ k ∈ f.binaryHandlers, h.operation ≠ k.operation
  unaryHandlers : ∀ h ∈ e.unaryHandlers, ∀ k ∈ f.unaryHandlers, h.operation ≠ k.operation
  functions : ∀ fn ∈ e.functions, ∀ gn ∈ f.functions, fn.name ≠ gn.name
  converters : ∀ c ∈ e.converters, ∀ d ∈ f.converters, c.target ≠ d.target

/-! ## Lexers -/

theorem Lexer.extend_comm (lexer : Lexer) {e f : Extension} (h : e.Independent f) :
    (lexer.extend e).extend f = (lexer.extend f).extend e := by
  apply foldl_interchange (R := Eq) ⟨Eq.refl, Eq.symm, Eq.trans⟩
  case hcongr =>
    rintro r s t rfl
    rfl
  case h =>
    intro r hr q hq s
    have hchain : (s.chain.insert r).insert q = (s.chain.insert q).insert r := by
      apply congrArg Chain.mk
      apply Ranked.insert_comm
      case htotal =>
        intro a b hab
        have hlt := of_decide_eq_false hab
        exact decide_eq_true (by omega)
      case htrans =>
        intro a b c hab hbc
        exact decide_eq_true (Int.le_trans (of_decide_eq_true hab) (of_decide_eq_true hbc))
      case hne =>
        intro hle
        apply decide_eq_false
        intro hge
        exact h.recognizers r hr q hq (Int.le_antisymm (of_decide_eq_true hle) hge)
    simp only [addRecognizer, hchain]

/-! ## Grammars -/

namespace Grammar

/-- The grammar with the parsers of a list in place of earlier ones. -/
def setParsers (g : Grammar) (entries : List (Construct × ConstructParser)) : Grammar :=
  entries.foldl (fun g entry => g.setParser entry.1 entry.2) g

theorem foldl_addBinary (g : Grammar) (ops : List BinaryOperator) :
    ops.foldl addBinary g = { g with binary := g.binary ++ ops } :=
  foldl_append (fun binary => { g with binary := binary }) (fun _ _ => rfl) ops g.binary

theorem foldl_addBefore (g : Grammar) (ops : List UnaryOperator) :
    ops.foldl addBefore g = { g with before := g.before ++ ops } :=
  foldl_append (fun before => { g with before := before }) (fun _ _ => rfl) ops g.before

theorem foldl_addAfter (g : Grammar) (ops : List UnaryOperator) :
    ops.foldl addAfter g = { g with after := g.after ++ ops } :=
  foldl_append (fun after => { g with after := after }) (fun _ _ => rfl) ops g.after

theorem setParsers_eq (entries : List (Construct × ConstructParser)) :
    ∀ g : Grammar, g.setParsers entries = { g with parsers := (g.setParsers entries).parsers } := by
  induction entries with
  | nil => exact fun _ => rfl
  | cons entry rest ih => exact fun g => ih (g.setParser entry.1 entry.2)

theorem extend_eq (g : Grammar) (e : Extension) : g.extend e =
    ⟨(g.setParsers e.parsers).parsers, g.binary ++ e.binaryOperators,
      g.before ++ e.beforeOperators, g.after ++ e.afterOperators⟩ := by
  rw [extend, foldl_addBinary, foldl_addBefore, foldl_addAfter]
  have hparsers : e.parsers.foldl (fun g entry => g.setParser entry.1 entry.2) g =
      { g with parsers := (g.setParsers e.parsers).parsers } := setParsers_eq e.parsers g
  rw [hparsers]

/-- Two grammars in which the same is found. -/
structure Alike (g k : Grammar) : Prop extends g.SameParsers k where
  binary? : g.binary? = k.binary?
  before? : g.before? = k.before?
  after? : g.after? = k.after?

theorem extend_alike (g : Grammar) {e f : Extension} (h : e.Independent f) :
    ((g.extend e).extend f).Alike ((g.extend f).extend e) where
  toSameParsers := by
    have hset (g : Grammar) (e f : Extension) : ((g.extend e).extend f).SameParsers
        ((g.setParsers e.parsers).setParsers f.parsers) := by
      have hfirst : (g.extend e).SameParsers (g.setParsers e.parsers) := by
        rw [extend_eq]
        exact .of_eq rfl
      have hsecond : ((g.extend e).extend f).SameParsers ((g.extend e).setParsers f.parsers) := by
        rw [extend_eq]
        exact .of_eq rfl
      apply hsecond.trans
      exact foldl_related (fun entry _ _ h => h.setParser entry.1 entry.2) f.parsers hfirst
    have hinterchange : ((g.setParsers e.parsers).setParsers f.parsers).SameParsers
        ((g.setParsers f.parsers).setParsers e.parsers) := by
      apply foldl_interchange sameParsers_equivalence
      case hcongr => exact fun entry _ _ h => h.setParser entry.1 entry.2
      case h =>
        intro entry hentry other hother g
        exact g.setParser_interchange (h.parsers entry hentry other hother) entry.2 other.2
    exact ((hset g e f).trans hinterchange).trans (hset g f e).symm
  binary? := by
    funext kind
    simp only [Grammar.binary?, extend_eq]
    apply find?_append_interchange
    exact selected_apart (fun _ => of_decide_eq_true) h.binaryOperators
  before? := by
    funext kind
    simp only [Grammar.before?, extend_eq]
    apply find?_append_interchange
    exact selected_apart (fun _ => of_decide_eq_true) h.beforeOperators
  after? := by
    funext kind
    simp only [Grammar.after?, extend_eq]
    apply find?_append_interchange
    exact selected_apart (fun _ => of_decide_eq_true) h.afterOperators

namespace Alike

variable {g k : Grammar} (h : g.Alike k)
include h

theorem rules (parse : Construct → Parse Node) : g.rules parse = k.rules parse := by
  have hbinary : (fun kind => g.binary.find? fun op => op.token = kind) =
      fun kind => k.binary.find? fun op => op.token = kind := h.binary?
  have hbefore : (fun kind => g.before.find? fun op => op.token = kind) =
      fun kind => k.before.find? fun op => op.token = kind := h.before?
  have hafter : (fun kind => g.after.find? fun op => op.token = kind) =
      fun kind => k.after.find? fun op => op.token = kind := h.after?
  rw [Grammar.rules, Grammar.rules, hbinary, hbefore, hafter]

theorem parseWithin (depth : Nat) : g.parseWithin depth = k.parseWithin depth := by
  induction depth with
  | zero =>
    funext construct
    rfl
  | succ depth ih =>
    funext construct
    rw [Grammar.parseWithin, Grammar.parseWithin, ih, h.parser?, h.rules]

theorem parse : g.parse = k.parse := by
  funext construct
  simp only [Grammar.parse, h.perm.length_eq, h.parseWithin]

end Alike

end Grammar

/-! ## Semantics -/

namespace Semantics

theorem foldl_addBinary (s : Semantics) (handlers : List BinaryHandler) :
    handlers.foldl addBinary s =
      { s with operators := { s.operators with binary := s.operators.binary ++ handlers } } :=
  foldl_append (fun binary => { s with operators := { s.operators with binary := binary } })
    (fun _ _ => rfl) handlers s.operators.binary

theorem foldl_addUnary (s : Semantics) (handlers : List UnaryHandler) :
    handlers.foldl addUnary s =
      { s with operators := { s.operators with unary := s.operators.unary ++ handlers } } :=
  foldl_append (fun unary => { s with operators := { s.operators with unary := unary } })
    (fun _ _ => rfl) handlers s.operators.unary

theorem foldl_addConverter (s : Semantics) (converters : List Converter) :
    converters.foldl addConverter s =
      { s with conversion := ⟨s.conversion.converters ++ converters⟩ } :=
  foldl_append (fun converters => { s with conversion := ⟨converters⟩ }) (fun _ _ => rfl) converters
    s.conversion.converters

theorem foldl_addFunction (functions : List Function) :
    ∀ s : Semantics, functions.foldl addFunction s =
      { s with functions := functions.foldl Functions.add s.functions } := by
  induction functions with
  | nil => exact fun _ => rfl
  | cons f rest ih => exact fun s => ih (s.addFunction f)

theorem extend_eq (s : Semantics) (e : Extension) : s.extend e =
    ⟨⟨s.operators.binary ++ e.binaryHandlers, s.operators.unary ++ e.unaryHandlers⟩,
      e.functions.foldl Functions.add s.functions,
      ⟨s.conversion.converters ++ e.converters⟩⟩ := by
  rw [extend, foldl_addConverter, foldl_addFunction, foldl_addUnary, foldl_addBinary]

/-- Two semantics in which the same is found, with room for as many calls. -/
structure Alike (s t : Semantics) : Prop where
  binary : s.operators.binaryHandlers = t.operators.binaryHandlers
  unary : s.operators.unaryHandlers = t.operators.unaryHandlers
  overloads : s.functions.overloadsOf = t.functions.overloadsOf
  converters : ∀ tag target, s.conversion.converters.find? (Converter.serves tag target) =
    t.conversion.converters.find? (Converter.serves tag target)
  maxDepth : s.functions.maxDepth = t.functions.maxDepth

theorem extend_alike (s : Semantics) {e f : Extension} (h : e.Independent f) :
    ((s.extend e).extend f).Alike ((s.extend f).extend e) where
  binary := by
    funext operation
    simp only [Operators.binaryHandlers, extend_eq]
    apply filter_append_interchange
    exact selected_apart (fun _ => of_decide_eq_true) h.binaryHandlers
  unary := by
    funext operation
    simp only [Operators.unaryHandlers, extend_eq]
    apply filter_append_interchange
    exact selected_apart (fun _ => of_decide_eq_true) h.unaryHandlers
  overloads := by
    simp only [extend_eq]
    exact Functions.addAll_interchange s.functions h.functions
  converters := by
    intro tag target
    simp only [extend_eq]
    apply find?_append_interchange
    have hserves (c : Converter) (hc : c.serves tag target = true) : c.target = target :=
      of_decide_eq_true (Bool.and_eq_true_iff.1 hc).1
    exact selected_apart hserves h.converters
  maxDepth := by
    simp only [extend_eq, Functions.maxDepth_addAll]

namespace Alike

variable {s t : Semantics} (h : s.Alike t)
include h

theorem sameDispatch : s.SameDispatch t where
  resolveBinary := by
    funext operation l r
    rw [Operators.resolveBinary, Operators.resolveBinary, h.binary]
  resolveUnary := by
    funext operation v
    rw [Operators.resolveUnary, Operators.resolveUnary, h.unary]
  convert := by
    funext v target
    rw [Conversion.convert, Conversion.convert, h.converters]

theorem resolve : s.functions.resolve = t.functions.resolve := by
  funext name args
  rw [Functions.resolve, Functions.resolve, h.overloads]

theorem callWithin (services : Services) (depth : Nat) :
    s.functions.callWithin services depth = t.functions.callWithin services depth := by
  induction depth generalizing services with
  | zero =>
    funext name args
    rfl
  | succ depth ih =>
    funext name args
    simp only [Functions.callWithin, h.resolve, ih]

/-- Bodies of functions are given the same services. -/
theorem call {c : Context} (hc : c.semantics = s) : c.call = (c.withSemantics t).call := by
  funext name args
  rw [Context.call, Context.call, Functions.call, hc, h.callWithin, h.maxDepth,
    h.sameDispatch.services c hc]
  rfl

/-- What is found does not depend on the room for calls. -/
theorem setMaxDepth (depth : Nat) : (s.setMaxDepth depth).Alike (t.setMaxDepth depth) :=
  { h with maxDepth := rfl }

/-- Nothing that an evaluation asks for differs. -/
theorem replaceable : s.Replaceable (fun _ => False) t where
  step operation v := .inl (congrFun₂ h.sameDispatch.step operation v)
  unary operation v := .inl (congrFun₂ h.sameDispatch.applyUnary operation v)
  binary operation l r := .inl (congrFun₃ h.sameDispatch.applyBinary operation l r)
  call _ hc name args := .inl (congrFun₂ (h.call hc) name args)

theorem evaluate (n : Node) : s.RunAlike Eq t n.evaluate n.evaluate := by
  intro c
  have hsame := h.replaceable.evaluate n (c := c.withSemantics s) rfl
  exact hsame.resolve_right fun ⟨_, _, hfalse⟩ => hfalse

end Alike

end Semantics

/-! ## Engines -/

namespace Engine

/-- The tree of a source for a construct, with at most `depth` constructs inside one another. -/
def parseWithin (engine : Engine) (depth : Nat) (construct : Construct) (source : String) :
    Except Error Node := do
  let cursor ← engine.lexer.cursor source
  ((engine.grammar.parseWithin depth construct).toEnd cursor).1

/-- Compiles a source with at most `depth` constructs inside one another, and evaluates it. -/
def evalWithin (engine : Engine) (depth : Nat) (source : String) (context : Context) :
    Except Error Value × Context :=
  Expression.run ((engine.parseWithin depth .expression source).map (Expression.mk source)) context

/-- Two engines that give the same tokens, trees and values, or the same errors, and that leave the
same variables.  They give the same trees also within any depth of constructs. -/
structure Alike (a b : Engine) : Prop where
  strict : a.strict = b.strict
  tokens : ∀ source, a.lexer.tokens source = b.lexer.tokens source
  parse : ∀ construct source, a.parse construct source = b.parse construct source
  parseWithin : ∀ depth construct source,
    a.parseWithin depth construct source = b.parseWithin depth construct source
  evaluate : ∀ n : Node, a.semantics.RunAlike Eq b.semantics n.evaluate n.evaluate
  eval : ∀ source, a.semantics.RunAlike Eq b.semantics (a.eval source) (b.eval source)
  evalWithin : ∀ depth source,
    a.semantics.RunAlike Eq b.semantics (a.evalWithin depth source) (b.evalWithin depth source)

section

variable {a b : Engine} (htokens : a.lexer.tokens = b.lexer.tokens)
  (hgrammar : a.grammar.Alike b.grammar)
include htokens hgrammar

/-- Trees depend on the tokens of a source and on what is found in the grammar. -/
theorem parse_congr : a.parse = b.parse := by
  funext construct source
  have hat : a.parseAt construct = b.parseAt construct := by
    funext cursor
    rw [parseAt, parseAt, Grammar.parseAll, Grammar.parseAll, hgrammar.parse]
  rw [Engine.parse, Engine.parse, Lexer.cursor, Lexer.cursor, htokens, hat]

theorem parseWithin_congr : a.parseWithin = b.parseWithin := by
  funext depth construct source
  rw [Engine.parseWithin, Engine.parseWithin, Lexer.cursor, Lexer.cursor, htokens,
    hgrammar.parseWithin]

end

/-- A source is evaluated in the given context, whichever engine has compiled it. -/
theorem eval_congr {a b : Engine} (h : a.parse = b.parse) : a.eval = b.eval := by
  funext source c
  rw [eval, eval, compile, compile, h]

theorem evalWithin_congr {a b : Engine} (h : a.parseWithin = b.parseWithin) :
    a.evalWithin = b.evalWithin := by
  funext depth source c
  rw [evalWithin, evalWithin, h]

/-- A source that compiles is evaluated as its tree is, and one that does not has its error. -/
theorem runAlike_run {R : Except Fault Value → Except Fault Value → Prop}
    {S : Except Error Value → Except Error Value → Prop} {s t : Semantics}
    (hevaluate : ∀ n : Node, s.RunAlike R t n.evaluate n.evaluate)
    (hmap : ∀ {x y}, R x y → S (x.mapError Error.of) (y.mapError Error.of))
    (hrefl : ∀ e, S (.error e) (.error e)) (compiled : Except Error Expression) :
    s.RunAlike S t (Expression.run compiled) (Expression.run compiled) := by
  intro c
  cases compiled with
  | error e => exact ⟨hrefl e, rfl⟩
  | ok expression =>
    obtain ⟨hresult, hvariables⟩ := hevaluate expression.node c
    exact ⟨hmap hresult, hvariables⟩

theorem Alike.of_parts {a b : Engine} (hstrict : a.strict = b.strict) (hlexer : a.lexer = b.lexer)
    (hgrammar : a.grammar.Alike b.grammar) (hsemantics : a.semantics.Alike b.semantics) :
    a.Alike b := by
  have htokens := congrArg Lexer.tokens hlexer
  have hparse := parse_congr htokens hgrammar
  have hwithin := parseWithin_congr htokens hgrammar
  have hrun := runAlike_run hsemantics.evaluate (S := Eq) (fun h => congrArg _ h) fun _ => rfl
  refine ⟨hstrict, congrFun htokens, congrFun₂ hparse, congrFun₃ hwithin, hsemantics.evaluate,
    ?eval, ?evalWithin⟩
  case eval =>
    rw [← eval_congr hparse]
    exact fun source => hrun (a.compile source)
  case evalWithin =>
    rw [← evalWithin_congr hwithin]
    exact fun depth source => hrun _

end Engine

/-- The operator `=>`, for lists of two values, and the function `frames`, which counts the frames of
the context that it is called in. -/
def Extension.pairs : Extension where
  name := "pairs"
  recognizers := [⟨60,
    fun fragment => if fragment.text = "=>" then some (.custom "pairs" "Arrow") else none, ["=>"]⟩]
  binaryOperators := [⟨.custom "pairs" "Arrow", .custom "=>", 0, .right⟩]
  binaryHandlers := [⟨.custom "=>", .any, .any, fun l r => .ok (.list [l, r])⟩]
  functions := [⟨"frames", .fixed [],
    fun services _ => .ok (.ofLength (services.view.over .empty).depth)⟩]

/-- The operator `#`, the function `size` and a converter, for the lengths of lists. -/
def Extension.sizes : Extension where
  name := "sizes"
  recognizers := [⟨70,
    fun fragment => if fragment.text = "#" then some (.custom "sizes" "Hash") else none, ["#"]⟩]
  beforeOperators := [⟨.custom "sizes" "Hash", .custom "#"⟩]
  unaryHandlers := [⟨.custom "#", .list, size⟩]
  functions := [⟨"size", .fixed [.list], fun services args => do
    (← services.operateUnary (.custom "#") (.list args))⟩]
  converters := [⟨.list, .int, size⟩]
where
  size : Value → Outcome
    | .list items => .ok (.ofLength items.length)
    | _ => .error (.reported .evaluation "No list" (some 1) (some 1))

/-- The tree of `#l + frames() => x++`. -/
def Node.sizeAndCount : Node :=
  .binary (.custom "=>")
    (.binary .add (.unary (.custom "#") .before (.name "l" none)) (.call "frames" []))
    (.unary .increment .after (.name "x" none))

/-- A list of two values for `l` and 5 for `x`, in strict mode. -/
def Context.twoAndFive (s : Semantics) : Context :=
  ⟨[("l", .list [.null, .null]), ("x", .int 5)], [], true, s⟩

end ExprLang
