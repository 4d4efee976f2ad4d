import ExprLang.Proofs.Dispatch.Arguments
import ExprLang.Proofs.Overloads.Resolution

/-!
# Overloads that accept less

Overloads are sorted by the sum of the ranks of their tags, and a call takes the first one that
accepts its arguments.  The sum agrees with what signatures accept: one that accepts less comes
first (`Signature.specificity_lt_of_narrower`).  There are two exceptions.  `number` and `double`
accept the same values but differ in rank, and parameters in front of any number of further ones
add to the sum although they only narrow what is accepted.  In both cases an overload may be hidden
behind another one that accepts more (`Functions.narrower_shadowed`).
-/

namespace ExprLang

namespace TypeTag

/-- Each value of the one type is accepted where the other one is declared. -/
def Within (s t : TypeTag) : Prop :=
  ∀ v : Value, s.accepts v.tag = true → t.accepts v.tag = true

/-- The tags that values have. -/
def ofValues : List TypeTag := [null, bool, char, int, long, double, string, list, map]

theorem tag_mem_ofValues (v : Value) : v.tag ∈ ofValues := by
  cases v <;> simp [ofValues, Value.tag]

theorem exists_of_mem_ofValues : ∀ t ∈ ofValues, ∃ v : Value, v.tag = t := by
  simp only [ofValues, List.forall_mem_cons]
  exact ⟨⟨.null, rfl⟩, ⟨.bool true, rfl⟩, ⟨.char 'a', rfl⟩, ⟨.int 0, rfl⟩, ⟨.long 0, rfl⟩,
    ⟨.double 0, rfl⟩, ⟨.str "", rfl⟩, ⟨.list [], rfl⟩, ⟨.map [], rfl⟩, nofun⟩

theorem within_iff {s t : TypeTag} :
    s.Within t ↔ ∀ actual ∈ ofValues, s.accepts actual = true → t.accepts actual = true := by
  constructor
  · intro h actual hactual
    obtain ⟨v, rfl⟩ := exists_of_mem_ofValues actual hactual
    exact h v
  · exact fun h v => h v.tag (tag_mem_ofValues v)

instance (s t : TypeTag) : Decidable (s.Within t) :=
  decidable_of_iff' _ within_iff

theorem exists_accepted (t : TypeTag) : ∃ v : Value, t.accepts v.tag = true := by
  have hsome : ∃ actual ∈ ofValues, t.accepts actual = true := by cases t <;> decide
  obtain ⟨actual, hmem, haccepts⟩ := hsome
  obtain ⟨v, rfl⟩ := exists_of_mem_ofValues actual hmem
  exact ⟨v, haccepts⟩

/-- A type within another one has the lower rank, but for `number` and `double`. -/
theorem Within.rank_le {s t : TypeTag} (h : s.Within t) (hne : ¬ (s = number ∧ t = double)) :
    s.rank ≤ t.rank := by
  revert hne h
  cases s <;> cases t <;> decide

/-- Only types that accept the same are of the same rank. -/
theorem Within.of_rank_le {s t : TypeTag} (h : s.Within t) (hrank : t.rank ≤ s.rank) :
    t.Within s := by
  revert hrank h
  cases s <;> cases t <;> decide

end TypeTag

namespace Signature

variable {s t : Signature} {a b : TypeTag} {p q : List TypeTag} {r r' : Option TypeTag}

/-- Whatever `s` accepts is accepted by `t` too. -/
def Within (s t : Signature) : Prop :=
  ∀ args, s.accepts args = true → t.accepts args = true

/-- Whatever `s` accepts is accepted by `t` too, but not the other way round. -/
def Narrower (s t : Signature) : Prop :=
  s.Within t ∧ ¬ t.Within s

/-- How the sum of ranks can be wrong about `s` and `t` if `s` accepts less: `s` has a `number` in
the place of a `double`, or more parameters in front of any number of further ones. -/
inductive Overrated (s t : Signature) : Prop
  | number {i : ℕ} (hsame : s.isVariadic = t.isVariadic) (hs : s.tag? i = some .number)
      (ht : t.tag? i = some .double)
  | params (hs : s.isVariadic = true) (ht : t.isVariadic = true)
      (hlength : t.params.length < s.params.length)

/-! ## Numbers of arguments -/

/-- As many arguments as this are accepted if they are of the right types. -/
def Takes (s : Signature) (n : ℕ) : Prop :=
  s.params.length = n ∨ s.isVariadic = true ∧ s.params.length ≤ n

theorem isVariadic_tail (s : Signature) : s.tail.isVariadic = s.isVariadic := rfl

theorem length_params_tail (s : Signature) : s.tail.params.length = s.params.length - 1 :=
  List.length_tail

theorem takes_of_accepts {args : List Value} (h : s.accepts args = true) :
    s.Takes args.length := by
  induction args generalizing s with
  | nil =>
    left
    obtain ⟨_ | ⟨a, params⟩, rest⟩ := s
    · rfl
    · cases h
  | cons v vs ih =>
    obtain ⟨declared, htag, -, hrest⟩ := accepts_cons.1 h
    have htakes := ih hrest
    rw [Takes, length_params_tail, isVariadic_tail] at htakes
    rw [Takes, List.length_cons]
    obtain ⟨_ | ⟨a, params⟩, _ | rest⟩ := s <;> simp_all [isVariadic, tag?]

theorem exists_accepts {n : ℕ} (h : s.Takes n) :
    ∃ args, args.length = n ∧ s.accepts args = true := by
  induction n generalizing s with
  | zero =>
    refine ⟨[], rfl, ?_⟩
    have hparams : s.params = [] := by
      rcases h with h | ⟨-, h⟩
      · exact List.eq_nil_of_length_eq_zero h
      · exact List.eq_nil_of_length_eq_zero (Nat.le_zero.1 h)
    rw [accepts, hparams]
    rfl
  | succ n ih =>
    have hdeclared : ∃ declared, s.tag? 0 = some declared := by
      obtain ⟨_ | ⟨a, params⟩, _ | rest⟩ := s <;> simp_all [Takes, isVariadic, tag?]
    have htail : s.tail.Takes n := by
      rw [Takes, length_params_tail, isVariadic_tail]
      rcases h with h | ⟨hvariadic, h⟩
      · exact .inl (by omega)
      · exact .inr ⟨hvariadic, by omega⟩
    obtain ⟨declared, htag⟩ := hdeclared
    obtain ⟨vs, hlength, hvs⟩ := ih htail
    obtain ⟨v, hv⟩ := declared.exists_accepted
    exact ⟨v :: vs, congrArg (· + 1) hlength, accepts_cons.2 ⟨declared, htag, hv, hvs⟩⟩

theorem Within.takes (h : s.Within t) {n : ℕ} (hn : s.Takes n) : t.Takes n := by
  obtain ⟨args, rfl, hargs⟩ := exists_accepts hn
  exact takes_of_accepts (h args hargs)

/-- A signature for any number of arguments is within no signature for a fixed one. -/
theorem Within.isVariadic (h : s.Within t) (hs : s.isVariadic = true) : t.isVariadic = true := by
  have hless : t.Takes (s.params.length + t.params.length + 1) :=
    h.takes (.inr ⟨hs, by omega⟩)
  rcases hless with hlength | ⟨ht, -⟩
  · omega
  · exact ht

theorem Within.length_le (h : s.Within t) : t.params.length ≤ s.params.length := by
  rcases h.takes (.inl rfl) with hlength | ⟨-, hlength⟩
  · exact hlength.le
  · exact hlength

theorem Within.length_eq (h : s.Within t) (ht : t.isVariadic = false) :
    t.params.length = s.params.length := by
  rcases h.takes (.inl rfl) with hlength | ⟨htrue, -⟩
  · exact hlength
  · rw [ht] at htrue
    cases htrue

/-! ## Types of arguments -/

theorem within_cons (hab : a.Within b) (h : Within ⟨p, r⟩ ⟨q, r'⟩) :
    Within ⟨a :: p, r⟩ ⟨b :: q, r'⟩ := by
  intro args hargs
  cases args with
  | nil => cases hargs
  | cons v vs =>
    obtain ⟨declared, htag, hv, hvs⟩ := accepts_cons.1 hargs
    obtain rfl := Option.some.inj htag
    exact accepts_cons.2 ⟨b, rfl, hab v hv, h vs hvs⟩

theorem within_rest (hab : a.Within b) : Within ⟨[], some a⟩ ⟨[], some b⟩ := by
  intro args hargs
  induction args with
  | nil => rfl
  | cons v vs ih =>
    obtain ⟨declared, htag, hv, hvs⟩ := accepts_cons.1 hargs
    obtain rfl := Option.some.inj htag
    exact accepts_cons.2 ⟨b, rfl, hab v hv, ih hvs⟩

/-- What accepts less declares narrower types, from the first parameter on. -/
theorem Within.split (h : s.Within t) (hs : s.tag? 0 = some a) (ht : t.tag? 0 = some b) :
    a.Within b ∧ s.tail.Within t.tail := by
  have hcons {v : Value} {vs : List Value} (hv : a.accepts v.tag = true)
      (hvs : s.tail.accepts vs = true) :
      b.accepts v.tag = true ∧ t.tail.accepts vs = true := by
    obtain ⟨declared, htag, hboth⟩ := accepts_cons.1 (h (v :: vs) (accepts_cons.2 ⟨a, hs, hv, hvs⟩))
    obtain rfl := Option.some.inj (ht.symm.trans htag)
    exact hboth
  constructor
  · intro v hv
    obtain ⟨vs, -, hvs⟩ := exists_accepts (s := s.tail) (.inl rfl)
    exact (hcons hv hvs).1
  · intro vs hvs
    obtain ⟨v, hv⟩ := a.exists_accepted
    exact (hcons hv hvs).2

theorem rank_cons (a : TypeTag) (p : List TypeTag) (r : Option TypeTag) :
    rank ⟨a :: p, r⟩ = a.rank + rank ⟨p, r⟩ := rfl

/-- Parameter by parameter, what accepts less has the lower sum of ranks, and equal sums are those
of signatures that accept the same. -/
theorem Within.rank_le (hlength : p.length = q.length) (hrest : r.isSome = r'.isSome)
    (h : Within ⟨p, r⟩ ⟨q, r'⟩)
    (hne : ∀ i, ¬ (tag? ⟨p, r⟩ i = some .number ∧ tag? ⟨q, r'⟩ i = some .double)) :
    rank ⟨p, r⟩ ≤ rank ⟨q, r'⟩ ∧
      (rank ⟨q, r'⟩ ≤ rank ⟨p, r⟩ → Within ⟨q, r'⟩ ⟨p, r⟩) := by
  induction p generalizing q with
  | nil =>
    obtain rfl := List.eq_nil_of_length_eq_zero hlength.symm
    cases r with
    | none =>
      obtain rfl : r' = none := by simpa using hrest.symm
      exact ⟨le_rfl, fun _ => h⟩
    | some a =>
      obtain ⟨b, rfl⟩ := Option.isSome_iff_exists.1 hrest.symm
      obtain ⟨hab, -⟩ := h.split rfl rfl
      have hrank := hab.rank_le (by simpa [tag?] using hne 0)
      exact ⟨hrank, fun hle => within_rest (hab.of_rank_le hle)⟩
  | cons a p ih =>
    obtain ⟨b, q, rfl⟩ := List.exists_cons_of_length_eq_add_one hlength.symm
    obtain ⟨hab, htail⟩ := h.split rfl rfl
    have hrank := hab.rank_le (by simpa [tag?] using hne 0)
    obtain ⟨hle, hback⟩ := ih (Nat.succ.inj hlength) htail fun i => hne (i + 1)
    rw [rank_cons, rank_cons]
    refine ⟨Nat.add_le_add hrank hle, fun hsum => ?_⟩
    exact within_cons (hab.of_rank_le (by omega)) (hback (by omega))

/-- The order of overloads agrees with what they accept, but for the two exceptions. -/
theorem specificity_lt_of_narrower (h : s.Narrower t) (hfair : ¬ s.Overrated t) :
    s.specificity < t.specificity := by
  obtain ⟨hwithin, hmore⟩ := h
  rw [specificity, specificity, Prod.Lex.toLex_lt_toLex]
  -- The sums of ranks count only between two fixed signatures or two variadic ones.
  by_cases hsame : s.isVariadic = t.isVariadic
  · right
    have hlength : s.params.length = t.params.length := by
      cases hvariadic : t.isVariadic with
      | false => exact (hwithin.length_eq hvariadic).symm
      | true =>
        have hle : ¬ t.params.length < s.params.length := fun hlt =>
          hfair (.params (hsame.trans hvariadic) hvariadic hlt)
        exact le_antisymm (not_lt.1 hle) hwithin.length_le
    have hne (i : ℕ) : ¬ (s.tag? i = some .number ∧ t.tag? i = some .double) :=
      fun hboth => hfair (.number hsame hboth.1 hboth.2)
    obtain ⟨-, hback⟩ := Within.rank_le hlength hsame hwithin hne
    exact ⟨hsame, not_le.1 fun hle => hmore (hback hle)⟩
  · left
    cases hs : s.isVariadic with
    | true => exact absurd (hs.trans (hwithin.isVariadic hs).symm) hsame
    | false =>
      rw [hs] at hsame
      rw [Bool.eq_true_of_not_eq_false (Ne.symm hsame)]
      rfl

end Signature

namespace Functions

variable {functions : List Function} {name : String} {args : List Value} {f g : Function} {i j : ℕ}

/-- If two overloads accept the arguments and no third one does, the one that comes first by
specificity and arrival is taken. -/
theorem resolve_of_two (hf : (named name functions)[i]? = some f)
    (hg : (named name functions)[j]? = some g) (hfargs : f.signature.accepts args = true)
    (honly : ∀ (k : ℕ) h, (named name functions)[k]? = some h → h.signature.accepts args = true →
      k = i ∨ k = j)
    (hfirst : toLex (f.specificity, i) ≤ toLex (g.specificity, j)) :
    (ofList functions).resolve name args = .ok f := by
  rw [resolve_eq_ok_iff, overloadsOf_ofList, sorted_eq,
    Ranked.find?_mergeSort_eq_some_iff Function.notAfter_iff]
  refine ⟨i, hf, hfargs, fun k h hh hhargs => ?_⟩
  rcases honly k h hh hhargs with rfl | rfl
  · obtain rfl := Option.some.inj (hf.symm.trans hh)
    exact le_rfl
  · obtain rfl := Option.some.inj (hg.symm.trans hh)
    exact hfirst

/-- Let one overload of a name accept less than another one.  Arguments that both of them and no
third one accept go to the one that is less by its specificity and then by its arrival.  That is the
one that accepts less, whatever the order of arrival, unless it is overrated: has a `number` in the
place of a `double`, or more parameters in front of any number of further ones. -/
theorem resolve_narrower (hf : (named name functions)[i]? = some f)
    (hg : (named name functions)[j]? = some g) (hnarrower : f.signature.Narrower g.signature)
    (hargs : f.signature.accepts args = true)
    (honly : ∀ (k : ℕ) h, (named name functions)[k]? = some h → h.signature.accepts args = true →
      k = i ∨ k = j) :
    (ofList functions).resolve name args =
        .ok (if toLex (f.specificity, i) < toLex (g.specificity, j) then f else g) ∧
      (¬ f.signature.Overrated g.signature → (ofList functions).resolve name args = .ok f) := by
  have htaken : (ofList functions).resolve name args =
      .ok (if toLex (f.specificity, i) < toLex (g.specificity, j) then f else g) := by
    split
    case isTrue hlt => exact resolve_of_two hf hg hargs honly hlt.le
    case isFalse hge =>
      exact resolve_of_two hg hf (hnarrower.1 args hargs)
        (fun k h hh hhargs => (honly k h hh hhargs).symm) (not_lt.1 hge)
  refine ⟨htaken, fun hfair => ?_⟩
  have hlt : toLex (f.specificity, i) < toLex (g.specificity, j) :=
    Prod.Lex.toLex_lt_toLex.2 (.inl (Signature.specificity_lt_of_narrower hnarrower hfair))
  rw [htaken, if_pos hlt]

theorem resolve_narrower_long :
    let wide := labelled (.fixed [.double, .any]) "wide"
    let text := labelled (.atLeast [.string] .any) "text"
    let narrow := labelled (.fixed [.long, .any]) "narrow"
    narrow.signature.Narrower wide.signature ∧
      (ofList [wide, text, narrow]).resolve "f" [.int 1, .null] = .ok narrow := by
  intro wide text narrow
  have hwithin : narrow.signature.Within wide.signature :=
    Signature.within_cons (by decide) fun _ h => h
  have hmore : ¬ wide.signature.Within narrow.signature := fun h => by
    have haccepts := h [.double 0, .null] rfl
    cases haccepts
  have honly : ∀ (k : ℕ) h, (named "f" [wide, text, narrow])[k]? = some h →
      h.signature.accepts [.int 1, .null] = true → k = 2 ∨ k = 0 := by
    intro k h hk haccepts
    match k, hk with
    | 0, _ => exact .inr rfl
    | 1, hk =>
      obtain rfl := Option.some.inj hk
      cases haccepts
    | 2, _ => exact .inl rfl
  have hfair : ¬ narrow.signature.Overrated wide.signature := by
    rintro (⟨-, hs, -⟩ | ⟨hs, -, -⟩)
    · rename_i i
      match i with
      | 0 => cases hs
      | 1 => cases hs
    · cases hs
  exact ⟨⟨hwithin, hmore⟩,
    (resolve_narrower (f := narrow) (g := wide) (i := 2) (j := 0) rfl rfl ⟨hwithin, hmore⟩ rfl
      honly).2 hfair⟩

/-- Arguments that both overloads accept go to `g` in either order of arrival, though `f` accepts
less. -/
structure Shadows (g f : Function) (args : List Value) : Prop where
  narrower : f.signature.Narrower g.signature
  accepts : f.signature.accepts args = true
  behind : (ofList [f, g]).resolve "f" args = .ok g
  front : (ofList [g, f]).resolve "f" args = .ok g

/-- Each of the two exceptions hides an overload: at least one argument behind any number of them,
and numbers behind doubles. -/
theorem narrower_shadowed :
    Shadows (labelled (.atLeast [] .any) "any number")
      (labelled (.atLeast [.any] .any) "at least one") [.int 1] ∧
    Shadows (labelled (.fixed [.double, .double, .long]) "doubles")
      (labelled (.fixed [.number, .number, .int]) "numbers") [.int 1, .int 2, .int 3] := by
  constructor
  case left =>
    refine ⟨⟨fun args hargs => ?_, fun h => ?_⟩, rfl, by cbv, by cbv⟩
    · obtain _ | ⟨v, vs⟩ := args
      · rfl
      · obtain ⟨declared, -, -, hvs⟩ := Signature.accepts_cons.1 hargs
        exact Signature.accepts_cons.2 ⟨.any, rfl, rfl, hvs⟩
    · cases h [] rfl
  case right =>
    refine ⟨⟨?_, fun h => ?_⟩, rfl, by cbv, by cbv⟩
    · refine Signature.within_cons (by decide) (Signature.within_cons (by decide) ?_)
      exact Signature.within_cons (by decide) fun _ h => h
    · cases h [.int 1, .int 2, .long 3] rfl

end Functions

end ExprLang
