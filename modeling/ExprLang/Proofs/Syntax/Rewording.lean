import ExprLang.Proofs.Syntax.Termination

/-!
# Rewording

The grammar reads the texts of names, numbers and strings and those of the tokens directly behind
points.  All other tokens are known by their kinds.  Two sequences of tokens that differ only in the
texts that are not read, and in the places where the tokens stand, are parsed to the same tree with
the same tokens left, or neither is parsed (`Grammar.OnlyCore.parse_reworded`).  So it does not
matter how an operator or a keyword is spelled.
-/

namespace ExprLang

open Parse Cursor

/-- The sequences have the same kinds of tokens, and the same texts where texts are read. -/
structure Reworded (ts us : List Token) : Prop where
  kinds : ts.map Token.kind = us.map Token.kind
  named : ∀ {i : Nat} {t u : Token} {kind : BasicKind}, ts[i]? = some t → us[i]? = some u →
    t.kind = kind → kind ∈ [BasicKind.identifier, .number, .string] → t.text = u.text
  behind : ∀ {i : Nat} {dot t u : Token}, ts[i]? = some dot → dot.kind = BasicKind.dot →
    ts[i + 1]? = some t → us[i + 1]? = some u → t.text = u.text

namespace Reworded

variable {t u : Token} {ts us : List Token}

theorem length_eq (h : Reworded ts us) : ts.length = us.length := by
  simpa using congrArg List.length h.kinds

theorem tail (h : Reworded (t :: ts) (u :: us)) : Reworded ts us where
  kinds := (List.cons.inj h.kinds).2
  named {i} _ _ _ ht hu := h.named (i := i + 1) (by simpa using ht) (by simpa using hu)
  behind {i} _ _ _ hdot hkind ht hu :=
    h.behind (i := i + 1) (by simpa using hdot) hkind (by simpa using ht) (by simpa using hu)

/-- The last tokens are both end tokens, or neither is one. -/
theorem isEof_getLast? (h : Reworded ts us) :
    ts.getLast?.map Token.isEof = us.getLast?.map Token.isEof := by
  have hlast := congrArg List.getLast? h.kinds
  rw [List.getLast?_map, List.getLast?_map] at hlast
  have hkinds (last : Option Token) :
      last.map Token.isEof = (last.map Token.kind).map fun kind => decide (kind = .basic .eof) := by
    cases last <;> rfl
  rw [hkinds, hkinds, hlast]

theorem concat (h : Reworded ts us) (hkind : t.kind = BasicKind.eof) (hkind' : u.kind = BasicKind.eof)
    (htext : t.text = u.text) : Reworded (ts ++ [t]) (us ++ [u]) where
  kinds := by rw [List.map_append, List.map_append, h.kinds, List.map_singleton, hkind,
    List.map_singleton, hkind']
  named {i t' u' kind} ht hu hnamed hmem := by
    rcases Nat.lt_trichotomy i ts.length with hlt | rfl | hgt
    · rw [List.getElem?_append_left hlt] at ht
      rw [List.getElem?_append_left (h.length_eq ▸ hlt)] at hu
      exact h.named ht hu hnamed hmem
    · obtain rfl : t = t' := by simpa using ht
      rw [hkind] at hnamed
      obtain rfl := TokenKind.basic.inj hnamed
      exact absurd hmem (by decide)
    · rw [List.getElem?_eq_none (by simpa using hgt)] at ht
      cases ht
  behind {i dot t' u'} hdot hpoint ht hu := by
    rcases Nat.lt_trichotomy (i + 1) ts.length with hlt | heq | hgt
    · rw [List.getElem?_append_left hlt] at ht
      rw [List.getElem?_append_left (h.length_eq ▸ hlt)] at hu
      rw [List.getElem?_append_left (by omega)] at hdot
      exact h.behind hdot hpoint ht hu
    · obtain rfl : t = t' := by simpa [heq] using ht
      obtain rfl : u = u' := by simpa [heq, h.length_eq] using hu
      exact htext
    · rw [List.getElem?_eq_none (by simpa using hgt)] at ht
      cases ht

theorem text_closing (tokens : List Token) : (closing tokens).text = "" := by
  fun_induction closing tokens with
  | case1 => rfl
  | case2 => rfl
  | case3 _ _ _ ih => exact ih

/-- An end token is added to both sequences, or to neither. -/
theorem closed (h : Reworded ts us) : Reworded (closed ts) (closed us) := by
  rw [Cursor.closed, Cursor.closed, h.isEof_getLast?]
  split
  · exact h
  · exact h.concat (kind_closing ts) (kind_closing us) (by rw [text_closing, text_closing])

end Reworded

/-- The cursors stand at the same place in reworded sequences. -/
structure InStep (c d : Cursor) : Prop where
  position : c.position = d.position
  closed : c.Closed
  ahead : Reworded c.ahead d.ahead

namespace InStep

variable {c d : Cursor}

theorem length_coming (h : InStep c d) : c.coming.length = d.coming.length := by
  simpa [Cursor.ahead] using h.ahead.length_eq

theorem next (h : InStep c d) : InStep c.next d.next where
  position := by
    have hpassed : c.passed.length = d.passed.length := h.position
    rw [position_next, position_next, h.position]
    simp only [size, tokens, List.length_append, List.length_reverse, List.length_cons,
      h.length_coming, hpassed]
  closed := h.closed.next
  ahead := by
    have hahead := h.ahead
    have hlength := h.length_coming
    unfold Cursor.next
    cases hc : c.coming with
    | nil =>
      have hd : d.coming = [] := by simpa [hc] using hlength.symm
      simpa only [hd] using hahead
    | cons t ts =>
      obtain ⟨u, us, hd⟩ : ∃ u us, d.coming = u :: us :=
        List.exists_cons_of_length_pos (by simp [← hlength, hc])
      rw [Cursor.ahead, Cursor.ahead, hc, hd] at hahead
      rw [hd]
      exact hahead.tail

/-- Behind a point the texts are the same. -/
theorem text_next (h : InStep c d) (hdot : c.current.kind = BasicKind.dot) :
    c.next.current.text = d.next.current.text := by
  have hahead := h.ahead
  obtain ⟨t, ts, hc⟩ : ∃ t ts, c.coming = t :: ts := by
    apply List.exists_cons_of_ne_nil
    intro hnil
    rw [h.closed.current_of_coming_nil hnil] at hdot
    cases hdot
  obtain ⟨u, us, hd⟩ : ∃ u us, d.coming = u :: us :=
    List.exists_cons_of_length_pos (by simp [← h.length_coming, hc])
  rw [Cursor.ahead, Cursor.ahead, hc, hd] at hahead
  rw [Cursor.next, Cursor.next, hc, hd]
  exact hahead.behind (i := 0) rfl hdot rfl rfl

theorem text_eq (h : InStep c d) {kind : BasicKind} (hkind : c.current.kind = kind)
    (hmem : kind ∈ [BasicKind.identifier, .number, .string]) : c.current.text = d.current.text :=
  h.ahead.named (i := 0) rfl rfl hkind hmem

end InStep

/-- Cursors at the same place in reworded sequences resemble each other. -/
def Resemblance.rewording : Resemblance where
  Related := InStep
  Alike _ _ := True
  next := InStep.next
  kinds h := h.ahead.kinds
  name h hkind := h.text_eq hkind (by decide)
  number h hkind := h.text_eq hkind (by decide)
  string h hkind := h.text_eq hkind (by decide)
  property := InStep.text_next
  fault _ _ _ := trivial
  unexpected _ _ := trivial
  unclosed _ _ _ _ _ _ := trivial

namespace Grammar

/-- Two parses give the same tree and stop at the same position, or both fail. -/
inductive SameOutcome : Except Error Node × Cursor → Except Error Node × Cursor → Prop
  | parsed {n : Node} {c d : Cursor} (h : c.position = d.position) :
      SameOutcome (.ok n, c) (.ok n, d)
  | failed {e e' : Error} {c d : Cursor} : SameOutcome (.error e, c) (.error e', d)

theorem SameOutcome.of_parallel {p q : Parse Node} {c d : Cursor}
    (h : Resemblance.rewording.Parallel p q c d) : SameOutcome (p.start c) (q.start d) := by
  rw [Resemblance.Parallel] at h
  generalize p.start c = left, q.start d = right at h
  cases h with
  | ok hrelated => exact .parsed hrelated.position
  | error => exact .failed

/-- As many tokens behind the beginning, reworded sequences still resemble each other. -/
theorem related_moveTo {ts us : List Token} (h : Reworded ts us) (position : Nat) :
    Resemblance.rewording.Related ((ofList ts).moveTo position) ((ofList us).moveTo position) := by
  have hstart (tokens : List Token) :
      (ofList tokens).position = 0 ∧ (ofList tokens).ahead = closed tokens := by
    obtain ⟨body, last, hclosed, -⟩ := closed_eq_concat tokens
    rw [ofList, hclosed]
    cases body <;> exact ⟨rfl, rfl⟩
  obtain ⟨hts, hahead⟩ := hstart ts
  obtain ⟨hus, hahead'⟩ := hstart us
  rw [moveTo, moveTo, hts, hus, Nat.zero_sub, Nat.sub_zero]
  induction position with
  | zero =>
    refine ⟨hts.trans hus.symm, closed_of_tokens ts, ?_⟩
    change Reworded (ofList ts).ahead (ofList us).ahead
    rw [hahead, hahead']
    exact h.closed
  | succ n ih => exact Resemblance.rewording.next ih

variable {g : Grammar}

/-- Whatever the operators are, rewording leaves what is parsed as it is, for every construct and
from every position on. -/
theorem OnlyCore.parse_reworded (hg : g.OnlyCore) {ts us : List Token} (h : Reworded ts us)
    (construct : Construct) (position : Nat) :
    SameOutcome ((g.parse construct).start ((ofList ts).moveTo position))
        ((g.parse construct).start ((ofList us).moveTo position)) ∧
      SameOutcome ((g.parseAll construct).start ((ofList ts).moveTo position))
        ((g.parseAll construct).start ((ofList us).moveTo position)) := by
  have hrelated := related_moveTo h position
  constructor
  · exact .of_parallel (Resemblance.parallel_parse hg construct hrelated)
  · exact .of_parallel (Resemblance.parallel_parseAll hg construct hrelated)

/-- The tokens of `- a.mod and b`, but for the places where they stand. -/
def inWords : List Token :=
  [⟨BasicKind.minus, "-", .none⟩, ⟨BasicKind.identifier, "a", .none⟩, ⟨BasicKind.dot, ".", .none⟩,
    ⟨BasicKind.percent, "mod", .none⟩, ⟨BasicKind.andAnd, "and", .none⟩,
    ⟨BasicKind.identifier, "b", .none⟩]

/-- The same with other signs.  The word behind the point stays, although it is an operator. -/
def inSigns : List Token :=
  [⟨BasicKind.minus, "−", ⟨0, 3, 1, 1⟩⟩, ⟨BasicKind.identifier, "a", ⟨3, 4, 1, 2⟩⟩,
    ⟨BasicKind.dot, "::", ⟨4, 6, 1, 3⟩⟩, ⟨BasicKind.percent, "mod", ⟨6, 9, 1, 5⟩⟩,
    ⟨BasicKind.andAnd, "∧", ⟨9, 12, 1, 8⟩⟩, ⟨BasicKind.identifier, "b", ⟨12, 13, 1, 9⟩⟩]

theorem reworded_inSigns : Reworded inWords inSigns where
  kinds := rfl
  named {i t u kind} ht hu hkind hmem := by
    rcases i with _ | _ | _ | _ | _ | _ | i <;> cases ht <;> cases hu <;>
      first | rfl | (cases hkind; exact absurd hmem (by decide))
  behind {i dot t u} hdot hpoint ht hu := by
    rcases i with _ | _ | _ | _ | _ | _ | i <;> cases hdot <;> cases hpoint
    cases ht
    cases hu
    rfl

theorem parse_reworded_signs :
    core.OnlyCore ∧ Reworded inWords inSigns ∧
      ((core.parseAll .expression).start ((ofList inWords).moveTo 1)).1 =
        .ok (.binary .and (.path [.property "a", .property "mod"]) (.name "b" none)) ∧
      ((core.parseAll .expression).start ((ofList inSigns).moveTo 1)).1 =
        .ok (.binary .and (.path [.property "a", .property "mod"]) (.name "b" none)) := by
  have hcore : core.OnlyCore := onlyCore_of_parsers rfl
  have hwords : ((core.parseAll .expression).start ((ofList inWords).moveTo 1)).1 =
      .ok (.binary .and (.path [.property "a", .property "mod"]) (.name "b" none)) := by
    rfl
  refine ⟨hcore, reworded_inSigns, hwords, ?_⟩
  have hsame := (OnlyCore.parse_reworded hcore reworded_inSigns .expression 1).2
  generalize (core.parseAll .expression).start ((ofList inWords).moveTo 1) = left,
    (core.parseAll .expression).start ((ofList inSigns).moveTo 1) = right at hsame hwords
  cases hsame with
  | parsed => exact hwords
  | failed => cases hwords

end Grammar

end ExprLang
