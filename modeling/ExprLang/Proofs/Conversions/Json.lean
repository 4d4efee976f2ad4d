import ExprLang.Json.Value
import ExprLang.Proofs.Comparisons.Equality

/-!
# Values in JSON

JSON has one kind of integers and values have two.  So a value that comes back from JSON has each of
its integers in the width that fits, and apart from that it is the same, unless it holds characters
or doubles.  A tree whose numbers are wide integers comes back unchanged
(`Json.conversions_inverse`).
-/

namespace ExprLang

/-- Every number in the tree is an integer of the wide range. -/
inductive Json.Integral : Json → Prop
  | null : Integral .null
  | bool (b : Bool) : Integral (.bool b)
  | integer {n : Int} (hn : FitsWide n) : Integral (.integer n)
  | str (s : String) : Integral (.str s)
  | array {items : List Json} (h : ∀ j ∈ items, Integral j) : Integral (.array items)
  | object {members : List (String × Json)} (h : ∀ member ∈ members, Integral member.2) :
    Integral (.object members)

/-! ## Lists and maps -/

namespace Json

theorem toValues_eq (items : List Json) : toValues items = items.map toValue := by
  induction items with
  | nil => rfl
  | cons j rest ih => rw [toValues, ih, List.map_cons]

theorem toEntries_eq (members : List (String × Json)) :
    toEntries members = members.map (Prod.map id toValue) := by
  induction members with
  | nil => rfl
  | cons member rest ih =>
    rw [toEntries, ih]
    rfl

end Json

namespace Value

theorem toJsons_eq (items : List Value) : toJsons items = items.map toJson := by
  induction items with
  | nil => rfl
  | cons v rest ih => rw [toJsons, ih, List.map_cons]

theorem toMembers_eq (entries : Entries Value) :
    toMembers entries = entries.map (Prod.map id toJson) := by
  induction entries with
  | nil => rfl
  | cons entry rest ih =>
    rw [toMembers, ih]
    rfl

/-- The value that comes back from JSON. -/
def throughJson (v : Value) : Value :=
  v.toJson.toValue

theorem throughJson_list (items : List Value) :
    (list items).throughJson = .list (items.map throughJson) := by
  rw [throughJson, toJson, Json.toValue, toJsons_eq, Json.toValues_eq, List.map_map]
  rfl

theorem throughJson_map (entries : Entries Value) :
    (map entries).throughJson = .map (entries.map (Prod.map id throughJson)) := by
  rw [throughJson, toJson, Json.toValue, toMembers_eq, Json.toEntries_eq, List.map_map]
  rfl

end Value

/-! ## From values to JSON and back -/

theorem Json.toValue_integer (m : Int64) : (Json.integer m.toInt).toValue = .integer m := by
  rw [toValue, int64?_eq_some_iff.2 rfl]

namespace Value

theorem throughJson_int (n : Int32) : (int n).throughJson = .integer n.toInt64 := by
  rw [throughJson, toJson, ← Int32.toInt_toInt64, Json.toValue_integer]

theorem throughJson_long (n : Int64) : (long n).throughJson = .integer n :=
  Json.toValue_integer n

theorem wide_integer (m : Int64) : (integer m).wide = .long m := by
  rw [integer]
  cases hsmall : int32? m.toInt with
  | none => rfl
  | some small =>
    have hwide : small.toInt64 = m := by
      rw [← Int64.toInt_inj, Int32.toInt_toInt64]
      exact int32?_eq_some_iff.1 hsmall
    exact congrArg Value.long hwide

/-- Only the widths of integers change on the way through JSON. -/
theorem wide_throughJson {v : Value} (hchar : v.Lacks .char) (hdouble : v.Lacks .double) :
    v.throughJson.wide = v.wide := by
  induction v using inside_induction with
  | scalar v hscalar =>
    cases v with
    | char c => exact absurd rfl hchar.tag_ne
    | double d => exact absurd rfl hdouble.tag_ne
    | int n => rw [throughJson_int, wide_integer, wide]
    | long n => rw [throughJson_long, wide_integer]; rfl
    | list | map => cases hscalar
    | null | bool | str => rfl
  | list items ih =>
    rw [throughJson_list, wide, wide, wideItems_eq, wideItems_eq, List.map_map]
    congr 1
    exact List.map_congr_left fun v hv => ih v hv (hchar.item hv) (hdouble.item hv)
  | map entries ih =>
    rw [throughJson_map, wide, wide, wideEntries_eq, wideEntries_eq, List.map_map]
    congr 1
    apply List.map_congr_left
    intro entry hentry
    exact Prod.ext rfl (ih entry hentry (hchar.entry hentry) (hdouble.entry hentry))

theorem parts_of_isScalar {v : Value} (h : v.isScalar = true) : v.parts = [v] := by
  cases v with
  | list | map => cases h
  | _ => rfl

theorem isScalar_integer (m : Int64) : (integer m).isScalar = true := by
  rw [integer]
  split <;> rfl

theorem isScalar_throughJson {v : Value} (h : v.isScalar = true) :
    v.throughJson.isScalar = true := by
  cases v with
  | int n =>
    rw [throughJson_int]
    exact isScalar_integer _
  | long n =>
    rw [throughJson_long]
    exact isScalar_integer n
  | double d =>
    rw [throughJson, toJson, Json.ofFloat]
    split <;> rfl
  | list | map => cases h
  | null | bool | char | str => rfl

/-- What is inside a value that comes back is what comes back of what was inside. -/
theorem parts_throughJson (v : Value) : v.throughJson.parts = v.parts.map throughJson := by
  induction v using inside_induction with
  | scalar v hscalar =>
    rw [parts_of_isScalar hscalar, parts_of_isScalar (isScalar_throughJson hscalar)]
    rfl
  | list items ih =>
    rw [throughJson_list, parts, parts, partsOfItems_eq, partsOfItems_eq, List.map_cons,
      throughJson_list, List.flatMap_map, List.map_flatMap]
    congr 1
    exact List.flatMap_congr ih
  | map entries ih =>
    rw [throughJson_map, parts, parts, partsOfEntries_eq, partsOfEntries_eq, List.map_cons,
      throughJson_map, List.flatMap_map, List.map_flatMap]
    congr 1
    exact List.flatMap_congr ih

/-- What comes back as a number is an integer in the width that fits. -/
theorem throughJson_cases {v : Value} (hdouble : v.tag ≠ .double) :
    (∃ m, v.throughJson = .integer m) ∨ v.throughJson.isNumber = false := by
  cases v with
  | int m => exact .inl ⟨_, throughJson_int m⟩
  | long m => exact .inl ⟨m, throughJson_long m⟩
  | double d => exact absurd rfl hdouble
  | list items =>
    rw [throughJson_list]
    exact .inr rfl
  | map entries =>
    rw [throughJson_map]
    exact .inr rfl
  | null | bool | char | str => exact .inr rfl

theorem tag_throughJson {v : Value} (hdouble : v.tag ≠ .double) {n : Int}
    (h : v.throughJson.integer? = some n) : v.throughJson.tag = .int ↔ FitsNarrow n := by
  rcases throughJson_cases hdouble with ⟨m, hm⟩ | hnumber
  · rw [hm] at h ⊢
    obtain ⟨hinteger, htag⟩ := integer_spec m
    obtain rfl := Option.some.inj (hinteger.symm.trans h)
    rw [htag]
    split <;> simp_all
  · cases hback : v.throughJson with
    | int | long | double =>
      rw [hback] at hnumber
      cases hnumber
    | _ =>
      rw [hback] at h
      cases h

theorem tag_throughJson_ne_double {v : Value} (hdouble : v.tag ≠ .double) :
    v.throughJson.tag ≠ .double := by
  rcases throughJson_cases hdouble with ⟨m, hm⟩ | hnumber
  · rw [hm, (integer_spec m).2]
    split <;> decide
  · intro htag
    cases hback : v.throughJson with
    | double =>
      rw [hback] at hnumber
      cases hnumber
    | _ =>
      rw [hback] at htag
      cases htag

theorem Lacks.throughJson {v : Value} (h : v.Lacks .double) : v.throughJson.Lacks .double := by
  rw [Lacks, parts_throughJson, List.forall_mem_map]
  exact fun part hpart => tag_throughJson_ne_double (h part hpart)

theorem toJson_integer (m : Int64) : (integer m).toJson = .integer m.toInt := by
  rw [integer]
  cases hsmall : int32? m.toInt with
  | none => rfl
  | some small => exact congrArg Json.integer (int32?_eq_some_iff.1 hsmall)

end Value

namespace Json

/-- A tree whose numbers are wide integers is the tree of its value. -/
theorem Integral.toJson_toValue {j : Json} (h : j.Integral) : j.toValue.toJson = j := by
  induction h with
  | null | bool | str => rfl
  | @integer n hn =>
    obtain ⟨m, rfl⟩ := fitsWide_iff.1 hn
    rw [toValue_integer, Value.toJson_integer]
  | @array items _ ih =>
    rw [toValue, toValues_eq, Value.toJson, Value.toJsons_eq, List.map_map]
    congr 1
    exact (List.map_congr_left ih).trans (List.map_id items)
  | @object members _ ih =>
    rw [toValue, toEntries_eq, Value.toJson, Value.toMembers_eq, List.map_map]
    congr 1
    refine (List.map_congr_left fun member hmember => ?_).trans (List.map_id members)
    exact Prod.ext rfl (ih member hmember)

/-- A value without characters and doubles goes to JSON and comes back as an equal one, in which
every integer at any depth is narrow exactly if its number fits.  A tree of JSON whose numbers are
wide integers becomes a value and comes back unchanged. -/
theorem conversions_inverse :
    (∀ v : Value, v.Lacks .char → v.Lacks .double →
      v.toJson.toValue.equals v = true ∧
      ∀ part ∈ v.toJson.toValue.parts, ∀ n, part.integer? = some n →
        (part.tag = .int ↔ FitsNarrow n)) ∧
    ∀ j : Json, j.Integral → j.toValue.toJson = j := by
  refine ⟨fun v hchar hdouble => ⟨?_, ?_⟩, fun j hj => hj.toJson_toValue⟩
  · exact (Value.equals_iff_wide hdouble.throughJson hdouble).2
      (Value.wide_throughJson hchar hdouble)
  · change ∀ part ∈ v.throughJson.parts, _
    rw [Value.parts_throughJson]
    intro part hpart n hn
    obtain ⟨inside, hinside, rfl⟩ := List.mem_map.1 hpart
    exact Value.tag_throughJson (hdouble inside hinside) hn

/-- Wide integers come back in the width that fits, at any depth, and their tree comes back as it
is. -/
theorem conversions_inverse_nested :
    let v : Value := .list [.long 5, .map [("k", .long (-1))], .long 4294967296]
    let j : Json := .array [.integer 5, .object [("k", .integer (-1))], .integer 4294967296]
    v.Lacks .char ∧ v.Lacks .double ∧ j.Integral ∧ v.toJson = j ∧
      j.toValue = .list [.int 5, .map [("k", .int (-1))], .long 4294967296] ∧
      j.toValue.equals v = true ∧ j.toValue.toJson = j := by
  intro v j
  obtain ⟨hvalues, htrees⟩ := conversions_inverse
  have hchar : v.Lacks .char := by decide
  have hdouble : v.Lacks .double := by decide
  have hobject : (object [("k", .integer (-1))]).Integral :=
    .object (List.forall_mem_singleton.2 (.integer (by decide)))
  have hj : j.Integral := by
    apply Integral.array
    refine List.forall_mem_cons.2 ⟨.integer (by decide), List.forall_mem_cons.2 ⟨hobject, ?_⟩⟩
    exact List.forall_mem_singleton.2 (.integer (by decide))
  exact ⟨hchar, hdouble, hj, rfl, rfl, (hvalues v hchar hdouble).1, htrees j hj⟩

end Json

end ExprLang
