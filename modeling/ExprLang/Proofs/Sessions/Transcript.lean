import ExprLang.Shell.Session
import Mathlib.Data.List.Infix

/-!
# Transcripts of sessions

A session reads one line after another.  A line is a command, is skipped, or is made part of an
input, which is evaluated as soon as it is complete.  What becomes of a line depends on the lines
that are held from before, so the transcript of a session lists its lines with the sessions that
read them.  Each turn accounts for its line (`Shell.Session.act_collects`), and so a session that has
read any lines has lost none of them, taken none of them twice, and has not changed their order
(`Shell.Session.turns_start`).
-/

namespace ExprLang.Shell.Session

open Text

/-! ## What becomes of a line -/

/-- What a session does with a line. -/
inductive Act where
  | command (name rest : String)
  | skip
  /-- holds the lines of an input that is not complete yet -/
  | wait (input : String)
  | evaluate (input : String)
  deriving DecidableEq, Repr

/-- The context after the text of an assignment: the name on its left is declared, if there is a
value on its right. -/
def bound (engine : Engine) (text : String) (context : Context) : Context :=
  match cutAt? ['='] text.toList with
  | none => context
  | some (name, source) =>
    match engine.eval (String.ofList (trim source)) context with
    | (.ok value, context) => context.declare (String.ofList (trim name)) value
    | (.error _, context) => context

namespace Act

def run (s : Session) : Act → Step
  | command name rest => s.command name rest
  | skip => s.still []
  | wait input => ⟨{ s with buffer := input }, [], false⟩
  | evaluate input => s.evaluate input

/-- Whether the line is made part of an input. -/
def keeps : Act → Bool
  | command .. | skip => false
  | wait _ | evaluate _ => true

/-- The input that is evaluated. -/
def source? : Act → Option String
  | evaluate input => some input
  | _ => none

/-- Whether the session ends. -/
def quits : Act → Bool
  | command name _ => name ∈ [":quit", ":q", ":exit"]
  | _ => false

/-- The context after the act, if it is `context` before it. -/
def after (engine : Engine) (context : Context) : Act → Context
  | command name rest =>
    if name = ":reset" then engine.context
    else if name = ":strict" then context.setStrict !context.strict
    else if name = ":let" then bound engine rest context
    else context
  | evaluate input => (engine.eval (trimmedEnd input) context).2
  | skip | wait _ => context

/-- The buffer after the act. -/
def buffer (before : String) : Act → String
  | command .. | skip => before
  | wait input => input
  | evaluate _ => ""

end Act

def act (s : Session) (line : String) : Act :=
  let trimmed := trim line.toList
  if s.buffer.isEmpty && trimmed.head? = some ':' then
    match cutAt? [' '] trimmed with
    | some (name, rest) => .command (String.ofList name) (String.ofList rest)
    | none => .command (String.ofList trimmed) ""
  else if s.buffer.isEmpty && trimmed.isEmpty then .skip
  else if isComplete s.engine (s.buffer ++ line) then .evaluate (s.buffer ++ line)
  else .wait (s.buffer ++ line)

theorem step_eq_run (s : Session) (line : String) : s.step line = (s.act line).run s := by
  rw [step, act]
  cases cutAt? [' '] (trim line.toList) <;> dsimp only <;> split_ifs <;> rfl

theorem bind_eq (s : Session) (text : String) : (s.bind text).isOver = false ∧
    (s.bind text).session = ⟨s.engine, bound s.engine text s.context, s.buffer⟩ := by
  rw [bind, bound]
  cases cutAt? ['='] text.toList with
  | none => exact ⟨rfl, rfl⟩
  | some sides =>
    dsimp only
    generalize s.engine.eval (String.ofList (trim sides.2)) s.context = result
    obtain ⟨_ | _, _⟩ := result <;> exact ⟨rfl, rfl⟩

theorem command_eq (s : Session) (name rest : String) :
    (s.command name rest).isOver = (Act.command name rest).quits ∧ (s.command name rest).session =
      ⟨s.engine, (Act.command name rest).after s.engine s.context, s.buffer⟩ := by
  have hbind := s.bind_eq rest
  rw [command, Act.quits, Act.after]
  split_ifs <;> simp_all [still, or_assoc]

theorem evaluate_eq (s : Session) (input : String) : (s.evaluate input).isOver = false ∧
    (s.evaluate input).session =
      ⟨s.engine, (Act.evaluate input).after s.engine s.context, ""⟩ := by
  rw [evaluate, Act.after]
  generalize s.engine.eval (trimmedEnd input) s.context = result
  obtain ⟨_ | _, _⟩ := result <;> exact ⟨rfl, rfl⟩

/-- An act leaves the engine as it is, and nothing but a command ends the session. -/
theorem run_act (s : Session) (a : Act) : (a.run s).isOver = a.quits ∧
    (a.run s).session = ⟨s.engine, a.after s.engine s.context, a.buffer s.buffer⟩ := by
  cases a with
  | command name rest => exact s.command_eq name rest
  | skip | wait => exact ⟨rfl, rfl⟩
  | evaluate input => exact s.evaluate_eq input

/-- The line is blank or has a colon in front. -/
def Apart (line : String) : Prop :=
  trim line.toList = [] ∨ (trim line.toList).head? = some ':'

/-- Only a line that finds no lines held from before can be taken for a command or be skipped. -/
theorem act_cases (s : Session) (line : String) :
    (s.act line).keeps = false ∧ s.buffer = "" ∧ Apart line ∨
    (s.act line).keeps = true ∧ ¬ (s.buffer = "" ∧ Apart line) ∧
      ((isComplete s.engine (s.buffer ++ line) = true ∧ s.act line = .evaluate (s.buffer ++ line)) ∨
        isComplete s.engine (s.buffer ++ line) = false ∧ s.act line = .wait (s.buffer ++ line)) := by
  rw [act]
  simp only [Bool.and_eq_true, String.isEmpty_iff, decide_eq_true_eq, List.isEmpty_iff]
  by_cases hcommand : s.buffer = "" ∧ (trim line.toList).head? = some ':'
  · left
    rw [if_pos hcommand]
    refine ⟨?_, hcommand.1, .inr hcommand.2⟩
    cases cutAt? [' '] (trim line.toList) <;> rfl
  rw [if_neg hcommand]
  by_cases hskip : s.buffer = "" ∧ trim line.toList = []
  · rw [if_pos hskip]
    exact .inl ⟨rfl, hskip.1, .inl hskip.2⟩
  rw [if_neg hskip]
  have hkept : ¬ (s.buffer = "" ∧ Apart line) := by
    rw [Apart, and_or_left, not_or]
    exact ⟨hskip, hcommand⟩
  right
  cases hcomplete : isComplete s.engine (s.buffer ++ line) with
  | true => exact ⟨rfl, hkept, .inl ⟨rfl, rfl⟩⟩
  | false => exact ⟨rfl, hkept, .inr ⟨rfl, rfl⟩⟩

theorem keeps_act_eq_false_iff {s : Session} {line : String} :
    (s.act line).keeps = false ↔ s.buffer = "" ∧ Apart line := by
  rcases s.act_cases line with ⟨hkeeps, h⟩ | ⟨hkeeps, h, -⟩
  · exact iff_of_true hkeeps h
  · exact iff_of_false (by simp [hkeeps]) h

/-! ## Lines that are held -/

/-- The input of these lines is complete, and it was not before the last one. -/
structure Completes (engine : Engine) (group : List String) : Prop where
  ne_nil : group ≠ []
  complete : isComplete engine (String.join group) = true
  incomplete : ∀ front, front <+: group → front ≠ [] → front ≠ group →
    isComplete engine (String.join front) = false

/-- The buffer consists of these lines, and no input of the first ones has been complete. -/
structure Held (engine : Engine) (buffer : String) (lines : List String) : Prop where
  buffer_eq : buffer = String.join lines
  incomplete : ∀ front, front <+: lines → front ≠ [] →
    isComplete engine (String.join front) = false

/-- The lines that were held and those `kept` after them are the complete inputs `sources`, one
after another, and the lines that are held now. -/
def Collects (engine : Engine) (held kept sources now : List String) : Prop :=
  ∃ groups : List (List String), groups.map String.join = sources ∧
    groups.flatten ++ now = held ++ kept ∧ ∀ group ∈ groups, Completes engine group

section

variable {engine : Engine} {held now later kept kept' sources sources' : List String}
  {buffer line : String}

theorem Held.nil (engine : Engine) : Held engine "" [] where
  buffer_eq := rfl
  incomplete _ hfront hne := absurd (List.prefix_nil.1 hfront) hne

theorem Held.append_eq (h : Held engine buffer held) (line : String) :
    buffer ++ line = String.join (held ++ [line]) := by
  rw [h.buffer_eq, String.join_append, String.join_cons, String.join_nil, String.append_empty]

theorem Held.waits (h : Held engine buffer held)
    (hcomplete : isComplete engine (buffer ++ line) = false) :
    Held engine (buffer ++ line) (held ++ [line]) where
  buffer_eq := h.append_eq line
  incomplete front hfront hne := by
    rcases List.prefix_concat_iff.1 hfront with rfl | hfront
    · rwa [← h.append_eq]
    · exact h.incomplete front hfront hne

theorem Held.completes (h : Held engine buffer held)
    (hcomplete : isComplete engine (buffer ++ line) = true) :
    Completes engine (held ++ [line]) where
  ne_nil := List.concat_ne_nil _ _
  complete := by rwa [← h.append_eq]
  incomplete front hfront hne hproper :=
    h.incomplete front ((List.prefix_concat_iff.1 hfront).resolve_left hproper) hne

theorem Collects.refl (engine : Engine) (held : List String) : Collects engine held [] [] held :=
  ⟨[], rfl, (List.append_nil held).symm, List.forall_mem_nil _⟩

theorem Collects.trans (h : Collects engine held kept sources now)
    (h' : Collects engine now kept' sources' later) :
    Collects engine held (kept ++ kept') (sources ++ sources') later := by
  obtain ⟨groups, hsources, hlines, hgroups⟩ := h
  obtain ⟨groups', hsources', hlines', hgroups'⟩ := h'
  refine ⟨groups ++ groups', ?_, ?_, List.forall_mem_append.2 ⟨hgroups, hgroups'⟩⟩
  · rw [List.map_append, hsources, hsources']
  · rw [List.flatten_append, List.append_assoc, hlines', ← List.append_assoc, hlines,
      List.append_assoc]

end

theorem join_map_join (groups : List (List String)) :
    String.join (groups.map String.join) = String.join groups.flatten := by
  induction groups with
  | nil => rfl
  | cons group groups ih =>
    rw [List.map_cons, String.join_cons, ih, List.flatten_cons, String.join_append]

/-- A session accounts for the line that it reads. -/
theorem act_collects {s : Session} {held : List String} (h : Held s.engine s.buffer held)
    (line : String) : ∃ now, Held s.engine ((s.act line).buffer s.buffer) now ∧
      Collects s.engine held (if (s.act line).keeps then [line] else [])
        (s.act line).source?.toList now := by
  rcases s.act_cases line with ⟨hkeeps, -⟩ | ⟨hkeeps, -, ⟨hcomplete, hact⟩ | ⟨hcomplete, hact⟩⟩
  · -- the line is no part of an input, and all that was held still is
    have hstill : (s.act line).buffer s.buffer = s.buffer ∧ (s.act line).source? = none := by
      cases hact : s.act line <;> rw [hact] at hkeeps <;> cases hkeeps <;> exact ⟨rfl, rfl⟩
    rw [hkeeps, hstill.1, hstill.2]
    exact ⟨held, h, .refl s.engine held⟩
  · -- the line ends an input
    rw [hkeeps, hact]
    refine ⟨[], .nil s.engine, [held ++ [line]], ?_, by simp, ?_⟩
    · exact congrArg ([·]) (h.append_eq line).symm
    · exact List.forall_mem_singleton.2 (h.completes hcomplete)
  · -- the line is held with the others
    rw [hkeeps, hact]
    exact ⟨held ++ [line], h.waits hcomplete, [], rfl, rfl, List.forall_mem_nil _⟩

/-! ## Transcripts -/

/-- A line and the session that reads it. -/
structure Turn where
  session : Session
  line : String

namespace Turn

def act (t : Turn) : Act :=
  t.session.act t.line

/-- The session that reads the next line. -/
def next (t : Turn) : Session :=
  (t.session.step t.line).session

/-- What is printed before the line is read and because of it. -/
def writes (t : Turn) : List Write :=
  t.session.prompt :: (t.act.run t.session).writes

end Turn

/-- The lines that are read, up to one that ends the session or to one that is no text. -/
def turns (s : Session) : List (Option String) → List Turn
  | [] | none :: _ => []
  | some line :: rest =>
    ⟨s, line⟩ :: if (s.step line).isOver then [] else (s.step line).session.turns rest

/-- The session behind the turns. -/
def behind (s : Session) (ts : List Turn) : Session :=
  ts.foldl (fun _ t => t.next) s

/-- The lines that are made part of an input. -/
def kept (ts : List Turn) : List String :=
  (ts.filter fun t => t.act.keeps).map Turn.line

/-- The inputs that are evaluated. -/
def sources (ts : List Turn) : List String :=
  ts.filterMap fun t => t.act.source?

/-- The context after what becomes of all lines, one after another. -/
def contextBehind (engine : Engine) (context : Context) (ts : List Turn) : Context :=
  ts.foldl (fun context t => t.act.after engine context) context

/-- How the turns come to an end: which lines are not read, and what is printed last. -/
inductive Ends (last : Session) : List Turn → List (Option String) → List Write → Prop
  | quit {ts t rest} (hts : ∀ u ∈ ts, u.act.quits = false) (ht : t.act.quits = true) :
    Ends last (ts ++ [t]) rest []
  | noLine {ts} (hts : ∀ u ∈ ts, u.act.quits = false) : Ends last ts [] [last.prompt, farewell]
  | noText {ts rest} (hts : ∀ u ∈ ts, u.act.quits = false) :
    Ends last ts (none :: rest) [last.prompt, .line "<input error>"]

/-- Each turn is one of the session that the turn before it has led to. -/
def Linked : Session → List Turn → Prop
  | _, [] => True
  | s, t :: ts => t.session = s ∧ Linked t.next ts

theorem step_eq (s : Session) (line : String) : (s.step line).isOver = (s.act line).quits ∧
    (s.step line).session =
      ⟨s.engine, (s.act line).after s.engine s.context, (s.act line).buffer s.buffer⟩ := by
  rw [step_eq_run]
  exact s.run_act (s.act line)

theorem linked_turns (s : Session) (lines : List (Option String)) : Linked s (s.turns lines) := by
  induction lines generalizing s with
  | nil => trivial
  | cons line rest ih =>
    cases line with
    | none => trivial
    | some line =>
      refine ⟨rfl, ?_⟩
      cases (s.step line).isOver with
      | true => trivial
      | false => exact ih (s.step line).session

theorem Ends.cons {last : Session} {t : Turn} {ts : List Turn} {rest : List (Option String)}
    {writes : List Write} (h : Ends last ts rest writes) (ht : t.act.quits = false) :
    Ends last (t :: ts) rest writes := by
  cases h with
  | quit hts hquit =>
    rw [← List.cons_append]
    exact .quit (List.forall_mem_cons.2 ⟨ht, hts⟩) hquit
  | noLine hts => exact .noLine (List.forall_mem_cons.2 ⟨ht, hts⟩)
  | noText hts => exact .noText (List.forall_mem_cons.2 ⟨ht, hts⟩)

theorem turns_cons (s : Session) (line : String) (rest : List (Option String)) :
    s.turns (some line :: rest) =
      ⟨s, line⟩ :: if (s.act line).quits then [] else (s.step line).session.turns rest := by
  rw [turns, (s.step_eq line).1]

theorem run_cons (s : Session) (line : String) (rest : List (Option String)) :
    s.run (some line :: rest) = (Turn.mk s line).writes ++
      if (s.act line).quits then [] else (s.step line).session.run rest := by
  rw [run, (s.step_eq line).1, step_eq_run]
  rfl

/-- The turns are those of the first lines, and what is printed is what they write. -/
theorem run_eq (s : Session) (lines : List (Option String)) :
    ∃ rest writes, lines = (s.turns lines).map (fun t => some t.line) ++ rest ∧
      s.run lines = (s.turns lines).flatMap Turn.writes ++ writes ∧
      Ends (s.behind (s.turns lines)) (s.turns lines) rest writes := by
  induction lines generalizing s with
  | nil => exact ⟨[], [s.prompt, farewell], rfl, rfl, .noLine (List.forall_mem_nil _)⟩
  | cons line rest ih =>
    cases line with
    | none =>
      exact ⟨none :: rest, [s.prompt, .line "<input error>"], rfl, rfl,
        .noText (List.forall_mem_nil _)⟩
    | some line =>
      rw [turns_cons, run_cons]
      cases hquits : (s.act line).quits with
      | true =>
        rw [if_pos rfl, if_pos rfl, List.flatMap_singleton]
        have hends : Ends (s.behind [⟨s, line⟩]) ([] ++ [⟨s, line⟩]) rest [] :=
          .quit (List.forall_mem_nil _) hquits
        exact ⟨rest, [], rfl, rfl, hends⟩
      | false =>
        rw [if_neg Bool.false_ne_true, if_neg Bool.false_ne_true]
        obtain ⟨unread, writes, hlines, hrun, hends⟩ := ih (s.step line).session
        refine ⟨unread, writes, ?_, ?_, hends.cons hquits⟩
        · rw [List.map_cons, List.cons_append, ← hlines]
        · rw [List.flatMap_cons, List.append_assoc, ← hrun]

section Linked

variable {s : Session} {ts : List Turn}

theorem linked_append {us : List Turn} :
    Linked s (ts ++ us) ↔ Linked s ts ∧ Linked (s.behind ts) us := by
  induction ts generalizing s with
  | nil => exact (true_and _).to_iff.symm
  | cons t ts ih =>
    rw [List.cons_append, Linked, Linked, ih, and_assoc]
    rfl

theorem Linked.behind_eq (h : Linked s ts) : (s.behind ts).engine = s.engine ∧
    (s.behind ts).context = contextBehind s.engine s.context ts := by
  induction ts generalizing s with
  | nil => exact ⟨rfl, rfl⟩
  | cons t ts ih =>
    obtain ⟨rfl, hnext⟩ := h
    have hsession : t.next = ⟨_, _, _⟩ := (t.session.step_eq t.line).2
    have hbehind := ih hnext
    rw [hsession] at hbehind
    rw [behind, List.foldl_cons, hsession]
    exact hbehind

/-- Turns account for the lines that they read. -/
theorem Linked.collects (h : Linked s ts) {held : List String}
    (hheld : Held s.engine s.buffer held) :
    ∃ now, Held s.engine (s.behind ts).buffer now ∧
      Collects s.engine held (kept ts) (sources ts) now := by
  induction ts generalizing s held with
  | nil => exact ⟨held, hheld, .refl s.engine held⟩
  | cons t ts ih =>
    obtain ⟨rfl, hnext⟩ := h
    have hsession : t.next = ⟨_, _, _⟩ := (t.session.step_eq t.line).2
    obtain ⟨now, hnow, hcollects⟩ := act_collects hheld t.line
    -- the other turns begin with the lines that are held behind the first one
    rw [hsession] at hnext
    obtain ⟨later, hlater, hrest⟩ := ih hnext hnow
    refine ⟨later, ?_, ?_⟩
    · rw [behind, List.foldl_cons, hsession]
      exact hlater
    · have hkept : kept (t :: ts) = (if t.act.keeps then [t.line] else []) ++ kept ts := by
        rw [kept, List.filter_cons]
        split <;> rfl
      have hsources : sources (t :: ts) = t.act.source?.toList ++ sources ts := by
        rw [sources, List.filterMap_cons]
        cases t.act.source? <;> rfl
      rw [hkept, hsources]
      exact hcollects.trans hrest

end Linked

/-- A session reads lines until there is none, until one is no text, or until it is told to quit,
and prints what they lead to.  Only while nothing is held, a line can be taken for a command or be
skipped.  All other lines are, in their order, those of the evaluated inputs, one after another, and
those still held at the end.  An input is evaluated at the first of its lines with which it is
complete.  There is one context, on which evaluations and commands act in turn. -/
theorem turns_start (engine : Engine) (context : Context) (lines : List (Option String)) :
    let s := start engine context
    let ts := s.turns lines
    (∃ rest writes, lines = ts.map (fun t => some t.line) ++ rest ∧
      s.run lines = ts.flatMap Turn.writes ++ writes ∧ Ends (s.behind ts) ts rest writes) ∧
    (∀ t ∈ ts, t.act.keeps = false ↔ t.session.buffer = "" ∧ Apart t.line) ∧
    String.join (sources ts) ++ (s.behind ts).buffer = String.join (kept ts) ∧
    (∃ (groups : List (List String)) (held : List String), groups.map String.join = sources ts ∧
      groups.flatten ++ held = kept ts ∧ (∀ group ∈ groups, Completes engine group) ∧
      Held engine (s.behind ts).buffer held) ∧
    (∀ before t later, ts = before ++ t :: later → t.session.engine = engine ∧
      t.session.context = contextBehind engine context before) ∧
    (s.behind ts).context = contextBehind engine context ts := by
  intro s ts
  have hlinked : Linked s ts := s.linked_turns lines
  obtain ⟨held, hheld, groups, hsources, hlines, hgroups⟩ := hlinked.collects (.nil engine)
  refine ⟨s.run_eq lines, fun t _ => keeps_act_eq_false_iff, ?_,
    ⟨groups, held, hsources, hlines, hgroups, hheld⟩, ?_, hlinked.behind_eq.2⟩
  · rw [← hsources, hheld.buffer_eq, join_map_join, ← String.join_append, hlines, List.nil_append]
  · intro before t later hts
    rw [hts, linked_append] at hlinked
    obtain ⟨hbefore, hsession, -⟩ := hlinked
    rw [hsession]
    exact hbefore.behind_eq

end ExprLang.Shell.Session
