/-!
# Searching in texts

Occurrences of one text in another, and what is built on them: splitting at a separator and
replacing every occurrence. Occurrences are taken from the left and do not overlap.
-/

namespace ExprLang.Text

/-- Cuts the text at the first occurrence of `sep`, into what stands before and after it. -/
def cutAt? (sep : List Char) : List Char → Option (List Char × List Char)
  | [] => if sep.isEmpty then some ([], []) else none
  | c :: rest =>
    if sep.isPrefixOf (c :: rest) then some ([], (c :: rest).drop sep.length)
    else (cutAt? sep rest).map fun (before, after) => (c :: before, after)

theorem length_of_cutAt? {sep cs before after : List Char}
    (h : cutAt? sep cs = some (before, after)) :
    before.length + sep.length + after.length = cs.length := by
  induction cs generalizing before after with
  | nil =>
    simp only [cutAt?] at h
    split at h <;> simp_all
  | cons c rest ih =>
    simp only [cutAt?] at h
    split at h
    · rename_i hp
      have hlen := (List.isPrefixOf_iff_prefix.1 hp).length_le
      simp only [Option.some.injEq, Prod.mk.injEq] at h
      obtain ⟨rfl, rfl⟩ := h
      simp only [List.length_nil, List.length_drop]
      omega
    · simp only [Option.map_eq_some_iff, Prod.mk.injEq, Prod.exists] at h
      obtain ⟨b, a, hcut, rfl, rfl⟩ := h
      have := ih hcut
      simp only [List.length_cons]
      omega

/-- The pieces between occurrences of `sep`. An empty separator separates nothing. -/
def splitAt (sep : List Char) (cs : List Char) : List (List Char) :=
  if _hsep : sep = [] then [cs]
  else
    match _hcut : cutAt? sep cs with
    | none => [cs]
    | some (before, after) => before :: splitAt sep after
termination_by cs.length
decreasing_by
  have hlen := length_of_cutAt? _hcut
  have hpos := List.length_pos_iff.2 _hsep
  omega

theorem splitAt_ne_nil (sep cs : List Char) : splitAt sep cs ≠ [] := by
  rw [splitAt]
  split
  · exact List.cons_ne_nil _ _
  · split <;> exact List.cons_ne_nil _ _

/-- Every occurrence of `old` replaced by `new`. The empty text occurs before every character and
at the end. -/
def replaceAll (old new cs : List Char) : List Char :=
  if _hold : old = [] then new ++ cs.flatMap fun c => c :: new
  else
    match _hcut : cutAt? old cs with
    | none => cs
    | some (before, after) => before ++ new ++ replaceAll old new after
termination_by cs.length
decreasing_by
  have hlen := length_of_cutAt? _hcut
  have hpos := List.length_pos_iff.2 _hold
  omega

/-- Whether `part` occurs anywhere in the text. -/
def occursIn (part cs : List Char) : Bool :=
  (cutAt? part cs).isSome

/-- The lines of a text: cut at line feeds, a carriage return before the feed belongs to the line
end, and a feed at the very end starts no further line. -/
def lines (cs : List Char) : List (List Char) :=
  let pieces := splitAt ['\n'] cs
  let pieces := if pieces.getLast? = some [] then pieces.dropLast else pieces
  let withFeed := if cs.getLast? = some '\n' then pieces.length else pieces.length - 1
  pieces.mapIdx fun i piece =>
    if i < withFeed && piece.getLast? = some '\r' then piece.dropLast else piece

end ExprLang.Text
