import PackedTopology.Proofs.IndexRoundTrip

/-!
# The range of constraint values

A list of constraints widens its range with every constraint that comes to it.
An end moves only to a value that lies beyond it in the numerical order, so of
equal numbers the earliest one is kept, and what is not a number is passed over.
The range is therefore the true extent of the numbers in the list as soon as its
first value is a number, and then neither their order nor other values between
them matter to it.  The first value seeds both ends, though, whatever it is, and
no value is beyond an end that is not a number: behind a first value that is
not a number, no number is ever seen.
-/

namespace PackedTopology

namespace Scalar

variable {x y : Scalar}

/-- The numerical order with equality.  It is false as soon as one side is not
a number. -/
def AtMost (x y : Scalar) : Prop :=
  ¬x.IsNaN ∧ ¬y.IsNaN ∧ x.position ≤ y.position

/-- Both are numbers, and the same one, perhaps zeros of different signs. -/
def SameNumber (x y : Scalar) : Prop :=
  ¬x.IsNaN ∧ ¬y.IsNaN ∧ x.position = y.position

theorem atMost_of_not_below (hx : ¬x.IsNaN) (hy : ¬y.IsNaN) (h : ¬y.Below x) :
    x.AtMost y :=
  ⟨hx, hy, Int.not_lt.mp fun hlt => h ⟨hy, hx, hlt⟩⟩

theorem sameNumber_of_atMost (hle : x.AtMost y) (hge : y.AtMost x) :
    x.SameNumber y :=
  ⟨hle.1, hle.2.1, Int.le_antisymm hle.2.2 hge.2.2⟩

/-- What the numerical order and its converse have in common. -/
structure Ranks (Precedes : Scalar → Scalar → Prop) : Prop where
  number : ∀ {x y}, Precedes x y → ¬x.IsNaN ∧ ¬y.IsNaN
  asymm : ∀ {x y}, Precedes x y → ¬Precedes y x
  splits : ∀ {x y} z, Precedes x y → ¬z.IsNaN → Precedes x z ∨ Precedes z y

theorem ranks_below : Ranks Below where
  number h := ⟨h.1, h.2.1⟩
  asymm h hconverse := Int.lt_asymm h.2.2 hconverse.2.2
  splits {x y} z h hz := by
    by_cases hlt : x.position < z.position
    · exact .inl ⟨h.1, hz, hlt⟩
    · exact .inr ⟨hz, h.2.1, Int.lt_of_le_of_lt (Int.not_lt.mp hlt) h.2.2⟩

theorem Ranks.converse {Precedes : Scalar → Scalar → Prop}
    (hranks : Ranks Precedes) : Ranks fun x y => Precedes y x where
  number h := (hranks.number h).symm
  asymm h := hranks.asymm h
  splits z h hz := (hranks.splits z h hz).symm

/-! ## The first of the foremost numbers -/

/-- A number of a list that no other one precedes, and the first such. -/
structure Leads (Precedes : Scalar → Scalar → Prop) (values : List Scalar)
    (value : Scalar) : Prop where
  number : ¬value.IsNaN
  exists_split : ∃ before after, values = before ++ value :: after ∧
    (∀ other ∈ before, ¬other.IsNaN → Precedes value other) ∧
    ∀ other ∈ after, ¬Precedes other value

section

variable {Precedes : Scalar → Scalar → Prop} {values : List Scalar}
  {kept : Scalar}

theorem leads_singleton (hnumber : ¬kept.IsNaN) : Leads Precedes [kept] kept :=
  ⟨hnumber, [], [], rfl, by simp, by simp⟩

theorem Leads.mem (hleads : Leads Precedes values kept) : kept ∈ values := by
  obtain ⟨before, after, rfl, -, -⟩ := hleads.exists_split
  simp

theorem Leads.not_precedes (hleads : Leads Precedes values kept)
    (hranks : Ranks Precedes) {other : Scalar} (hother : other ∈ values) :
    ¬Precedes other kept := by
  obtain ⟨before, after, rfl, hbefore, hafter⟩ := hleads.exists_split
  intro hprecedes
  rcases List.mem_append.mp hother with hother | hother
  · have hnumber := (hranks.number hprecedes).1
    exact hranks.asymm hprecedes (hbefore other hother hnumber)
  · rcases List.mem_cons.mp hother with rfl | hother
    · exact hranks.asymm hprecedes hprecedes
    · exact hafter other hother hprecedes

/-- One more value takes over only if it precedes the one that is kept; it
precedes all the numbers before it then. -/
theorem Leads.append [DecidableRel Precedes]
    (hleads : Leads Precedes values kept) (hranks : Ranks Precedes)
    (value : Scalar) :
    Leads Precedes (values ++ [value])
      (if Precedes value kept then value else kept) := by
  by_cases hprecedes : Precedes value kept
  · rw [if_pos hprecedes]
    refine ⟨(hranks.number hprecedes).1, values, [], rfl, ?_, by simp⟩
    intro other hother hnumber
    have hnot := hleads.not_precedes hranks hother
    exact (hranks.splits other hprecedes hnumber).resolve_right hnot
  · obtain ⟨before, after, rfl, hbefore, hafter⟩ := hleads.exists_split
    rw [if_neg hprecedes]
    refine ⟨hleads.number, before, after ++ [value], by simp, hbefore, ?_⟩
    intro other hother
    rcases List.mem_append.mp hother with hother | hother
    · exact hafter other hother
    · rwa [List.mem_singleton.mp hother]

end

end Scalar

/-! ## Ranges -/

namespace ValueRange

open Scalar

variable {range : ValueRange} {values : List Scalar}

/-- The ends of a range are the first of the smallest and the first of the
largest numbers. -/
structure Spans (range : ValueRange) (values : List Scalar) : Prop where
  min : Leads Below values range.min
  max : Leads (fun x y => y.Below x) values range.max

/-- The ends of a range are numerically the smallest and the largest one of some
values, those that are not numbers left out. -/
structure IsExtent (range : ValueRange) (values : List Scalar) : Prop where
  min_number : ¬range.min.IsNaN
  max_number : ¬range.max.IsNaN
  min_mem : range.min ∈ values
  max_mem : range.max ∈ values
  min_atMost : ∀ value ∈ values, ¬value.IsNaN → range.min.AtMost value
  atMost_max : ∀ value ∈ values, ¬value.IsNaN → value.AtMost range.max

theorem spans_single {value : Scalar} (hnumber : ¬value.IsNaN) :
    (single value).Spans [value] :=
  ⟨leads_singleton hnumber, leads_singleton hnumber⟩

theorem Spans.widen (hspans : range.Spans values) (value : Scalar) :
    (range.widen value).Spans (values ++ [value]) :=
  ⟨hspans.min.append ranks_below value,
    hspans.max.append ranks_below.converse value⟩

theorem Spans.isExtent (hspans : range.Spans values) :
    range.IsExtent values where
  min_number := hspans.min.number
  max_number := hspans.max.number
  min_mem := hspans.min.mem
  max_mem := hspans.max.mem
  min_atMost _ hvalue hnumber :=
    atMost_of_not_below hspans.min.number hnumber
      (hspans.min.not_precedes ranks_below hvalue)
  atMost_max _ hvalue hnumber :=
    atMost_of_not_below hnumber hspans.max.number
      (hspans.max.not_precedes ranks_below.converse hvalue)

/-- Values with the same numbers among them have the same extent. -/
theorem IsExtent.sameNumber {other : ValueRange} {others : List Scalar}
    (hextent : range.IsExtent values) (hother : other.IsExtent others)
    (hsame : ∀ value, ¬value.IsNaN → (value ∈ others ↔ value ∈ values)) :
    other.min.SameNumber range.min ∧ other.max.SameNumber range.max := by
  have hminMem := (hsame _ hother.min_number).mp hother.min_mem
  have hmaxMem := (hsame _ hother.max_number).mp hother.max_mem
  have hminBack := (hsame _ hextent.min_number).mpr hextent.min_mem
  have hmaxBack := (hsame _ hextent.max_number).mpr hextent.max_mem
  constructor
  · exact sameNumber_of_atMost
      (hother.min_atMost _ hminBack hextent.min_number)
      (hextent.min_atMost _ hminMem hother.min_number)
  · exact sameNumber_of_atMost
      (hextent.atMost_max _ hmaxMem hother.max_number)
      (hother.atMost_max _ hmaxBack hextent.max_number)

/-- No value is beyond an end that is not a number. -/
theorem widen_single_of_isNaN {seed : Scalar} (hseed : seed.IsNaN)
    (value : Scalar) : (single seed).widen value = single seed := by
  have hmin : ¬value.Below seed := fun hbelow => hbelow.2.1 hseed
  have hmax : ¬seed.Below value := fun hbelow => hbelow.1 hseed
  simp [widen, single, hmin, hmax]

end ValueRange

/-! ## Lists of constraints -/

namespace Constraints

variable {first : Constraint}

theorem ofList_concat (constraints : List Constraint)
    (constraint : Constraint) :
    ofList (constraints ++ [constraint]) =
      (ofList constraints).push constraint :=
  List.foldl_concat ..

theorem range_push_of_some {constraints : Constraints} {range : ValueRange}
    (hrange : constraints.range = some range) (constraint : Constraint) :
    (constraints.push constraint).range =
      some (range.widen constraint.value) := by
  simp [push, hrange]

theorem exists_range_spans (hnumber : ¬first.value.IsNaN)
    (rest : List Constraint) :
    ∃ range, (ofList (first :: rest)).range = some range ∧
      range.Spans ((first :: rest).map Constraint.value) := by
  induction rest using List.reverseRecOn with
  | nil => exact ⟨_, rfl, ValueRange.spans_single hnumber⟩
  | append_singleton rest constraint ih =>
      obtain ⟨range, hrange, hspans⟩ := ih
      have hwider := hspans.widen constraint.value
      rw [← List.cons_append, ofList_concat, List.map_append]
      exact ⟨_, range_push_of_some hrange constraint, hwider⟩

theorem range_ofList_of_isNaN (hseed : first.value.IsNaN)
    (rest : List Constraint) :
    (ofList (first :: rest)).range = some (.single first.value) := by
  induction rest using List.reverseRecOn with
  | nil => rfl
  | append_singleton rest constraint ih =>
      rw [← List.cons_append, ofList_concat, range_push_of_some ih,
        ValueRange.widen_single_of_isNaN hseed]

/-- The ways in which a list of constraints comes about, with the constraints in
the order in which they came. -/
inductive Gathered : Constraints → List Constraint → Prop
  | empty : Gathered .empty []
  | collected (list : List Constraint) : Gathered (.ofList list) list
  | decoded {reader after : Reader} {index : DecodedIndex}
      (hread : PersistenceIndex.read.step reader = (.ok index, after)) :
      Gathered index.constraints index.constraints.toList
  | pushed {constraints : Constraints} {list : List Constraint}
      (hgathered : Gathered constraints list) (constraint : Constraint) :
      Gathered (constraints.push constraint) (list ++ [constraint])

theorem eq_ofList_of_read {reader after : Reader} {index : DecodedIndex}
    (hread : PersistenceIndex.read.step reader = (.ok index, after)) :
    index.constraints = ofList index.constraints.toList := by
  obtain ⟨⟨⟨mapping, constraints⟩, size⟩, _, -, hindex⟩ :=
    Action.exists_of_step_bind_eq_ok (congrArg Prod.fst hread)
  rw [Action.step_pure] at hindex
  rw [← Except.ok.inj hindex, toList_ofList]

theorem Gathered.eq_ofList {constraints : Constraints} {list : List Constraint}
    (hgathered : Gathered constraints list) : constraints = ofList list := by
  induction hgathered with
  | empty => rfl
  | collected list => rfl
  | decoded hread => exact eq_ofList_of_read hread
  | pushed hgathered constraint ih => rw [ofList_concat, ih]

/-- The constraints whose values are numbers. -/
def numbered (constraints : List Constraint) : List Constraint :=
  constraints.filter fun constraint => ¬constraint.value.IsNaN

theorem mem_values_iff_of_numbered_perm {left right : List Constraint}
    (hperm : (numbered left).Perm (numbered right)) {value : Scalar}
    (hnumber : ¬value.IsNaN) :
    value ∈ left.map Constraint.value ↔ value ∈ right.map Constraint.value := by
  have hnumbered (list : List Constraint) :
      value ∈ list.map Constraint.value ↔
        value ∈ (numbered list).map Constraint.value := by
    simp only [numbered, List.mem_map, List.mem_filter, decide_eq_true_eq]
    constructor
    · rintro ⟨constraint, hmem, rfl⟩
      exact ⟨constraint, ⟨hmem, hnumber⟩, rfl⟩
    · rintro ⟨constraint, ⟨hmem, -⟩, hvalue⟩
      exact ⟨constraint, hmem, hvalue⟩
  rw [hnumbered left, hnumbered right, (hperm.map Constraint.value).mem_iff]

/-- However a list of constraints came about, its range is the extent of the
numbers in it if the first value is a number.  Another list with the same
numbers, in any order and with whatever is not a number between them, has
numerically the same range then, as long as a number comes first there too.  A
first value that is not a number stays at both ends of the range, whatever comes
behind it. -/
theorem range_of_gathered {constraints : Constraints} {first : Constraint}
    {rest : List Constraint} (hgathered : Gathered constraints (first :: rest)) :
    (¬first.value.IsNaN →
      ∃ range, constraints.range = some range ∧
        range.IsExtent ((first :: rest).map Constraint.value) ∧
        ∀ (other : Constraints) (head : Constraint) (tail : List Constraint),
          Gathered other (head :: tail) → ¬head.value.IsNaN →
          (numbered (head :: tail)).Perm (numbered (first :: rest)) →
          ∃ arranged, other.range = some arranged ∧
            arranged.min.SameNumber range.min ∧
            arranged.max.SameNumber range.max) ∧
    (first.value.IsNaN →
      constraints.range = some ⟨first.value, first.value⟩) := by
  obtain rfl := hgathered.eq_ofList
  refine ⟨?_, fun hseed => range_ofList_of_isNaN hseed rest⟩
  intro hnumber
  obtain ⟨range, hrange, hspans⟩ := exists_range_spans hnumber rest
  refine ⟨range, hrange, hspans.isExtent, ?_⟩
  intro other head tail hother hhead hperm
  obtain rfl := hother.eq_ofList
  obtain ⟨arranged, harranged, hspansArranged⟩ := exists_range_spans hhead tail
  have hsame := hspans.isExtent.sameNumber hspansArranged.isExtent
    fun value hvalue => mem_values_iff_of_numbered_perm hperm hvalue
  exact ⟨arranged, harranged, hsame⟩

/-- Three constraints that are read from a record, one of them without a number,
and the two others pushed in the other order; then the one without a number in
front. -/
theorem range_of_gathered_read :
    (∃ index after range arranged,
      PersistenceIndex.read.step (.ofList
          [0, 0, 0, 0, 3, 0, 0, 0,
            1, 0, 0, 0, 0, 0, 0, 0, 0, 0, 240, 63, 0, 0, 0, 0,
            2, 0, 0, 0, 0, 0, 0, 0, 0, 0, 248, 127, 0, 0, 0, 0,
            3, 0, 0, 0, 0, 0, 0, 0, 0, 0, 0, 192, 0, 0, 0, 0]) =
        (.ok index, after) ∧
      index.constraints.range = some range ∧
      range.IsExtent [⟨0x3ff0000000000000⟩, ⟨0x7ff8000000000000⟩,
        ⟨0xc000000000000000⟩] ∧
      ((empty.push ⟨3, ⟨0xc000000000000000⟩, 0⟩).push
        ⟨1, ⟨0x3ff0000000000000⟩, 0⟩).range = some arranged ∧
      arranged.min.SameNumber range.min ∧
      arranged.max.SameNumber range.max) ∧
    ((empty.push ⟨2, ⟨0x7ff8000000000000⟩, 0⟩).push
        ⟨1, ⟨0x3ff0000000000000⟩, 0⟩).range =
      some ⟨⟨0x7ff8000000000000⟩, ⟨0x7ff8000000000000⟩⟩ := by
  refine ⟨?_, ?_⟩
  · have hread := @PersistenceIndex.consumes_read
      ⟨[], [⟨1, ⟨0x3ff0000000000000⟩, 0⟩, ⟨2, ⟨0x7ff8000000000000⟩, 0⟩,
        ⟨3, ⟨0xc000000000000000⟩, 0⟩]⟩ 0 3 rfl rfl [] 0
    obtain ⟨hextent, -⟩ := range_of_gathered (.decoded hread)
    obtain ⟨range, hrange, hisExtent, hsame⟩ := hextent (by decide)
    obtain ⟨arranged, harranged, hends⟩ := hsame _ _ _
      ((Gathered.empty.pushed ⟨3, ⟨0xc000000000000000⟩, 0⟩).pushed
        ⟨1, ⟨0x3ff0000000000000⟩, 0⟩) (by decide) (by decide)
    exact ⟨_, _, range, arranged, hread, hrange, hisExtent, harranged, hends⟩
  · have hgathered := (Gathered.empty.pushed ⟨2, ⟨0x7ff8000000000000⟩, 0⟩).pushed
      ⟨1, ⟨0x3ff0000000000000⟩, 0⟩
    obtain ⟨-, hseeded⟩ := range_of_gathered hgathered
    exact hseeded (by decide)

/-- A number has its place in the range of two constraints if it comes first,
and none if it comes behind a value that is not a number.  It makes no
difference whether the two are pushed, collected or read. -/
theorem range_seeded_by_nan_misses_number :
    let one : Constraint := ⟨1, ⟨0x3ff0000000000000⟩, 0⟩
    let nan : Constraint := ⟨2, ⟨0x7ff8000000000000⟩, 0⟩
    ¬one.value.IsNaN ∧ nan.value.IsNaN ∧ [nan, one].Perm [one, nan] ∧
      (ofList [one, nan]).range = some ⟨one.value, one.value⟩ ∧
      (ofList [nan, one]).range = some ⟨nan.value, nan.value⟩ ∧
      ¬ValueRange.IsExtent ⟨nan.value, nan.value⟩
        ([nan, one].map Constraint.value) ∧
      ((empty.push nan).push one).range = some ⟨nan.value, nan.value⟩ ∧
      ∃ index after,
        PersistenceIndex.read.step (.ofList
            [0, 0, 0, 0, 2, 0, 0, 0,
              2, 0, 0, 0, 0, 0, 0, 0, 0, 0, 248, 127, 0, 0, 0, 0,
              1, 0, 0, 0, 0, 0, 0, 0, 0, 0, 240, 63, 0, 0, 0, 0]) =
          (.ok index, after) ∧
        index.constraints.range = some ⟨nan.value, nan.value⟩ := by
  refine ⟨by decide, by decide, .swap .., by decide, by decide, ?_, by decide, ?_⟩
  · exact fun hextent => hextent.min_number (by decide)
  · have hread := @PersistenceIndex.consumes_read
      ⟨[], [⟨2, ⟨0x7ff8000000000000⟩, 0⟩, ⟨1, ⟨0x3ff0000000000000⟩, 0⟩]⟩ 0 2
      rfl rfl [] 0
    exact ⟨_, _, hread, rfl⟩

end Constraints

end PackedTopology
