import PackedTopology.Proofs.AnySource
import PackedTopology.Proofs.ConstraintRange

/-!
# The values at the ends of a range

A range says more than how far its values reach.  Its ends are bit patterns, and
of values that are equal as numbers it is always the earliest one that stands
there: zero keeps the sign with which it came first.  Values that are not numbers
leave no trace behind a number.  All this depends on the order of the constraints
alone, and not on whether they were collected, pushed one by one or read.
-/

namespace PackedTopology

namespace Scalar

instance (x y : Scalar) : Decidable (x.SameNumber y) :=
  inferInstanceAs (Decidable (_ ∧ _ ∧ _))

/-- The earliest number of a list that no value in it precedes. -/
def earliest? (Precedes : Scalar → Scalar → Prop) [DecidableRel Precedes]
    (values : List Scalar) : Option Scalar :=
  values.find? fun value =>
    ¬value.IsNaN ∧ ∀ other ∈ values, ¬Precedes other value

section

variable {Precedes : Scalar → Scalar → Prop} {values : List Scalar}
  {kept : Scalar}

theorem Leads.earliest?_eq [DecidableRel Precedes]
    (hleads : Leads Precedes values kept) (hranks : Ranks Precedes) :
    earliest? Precedes values = some kept := by
  have hmem := hleads.mem
  have hnone : ∀ other ∈ values, ¬Precedes other kept :=
    fun other hother => hleads.not_precedes hranks hother
  obtain ⟨before, after, hsplit, hbefore, -⟩ := hleads.exists_split
  refine List.find?_eq_some_iff_append.mpr
    ⟨by simpa using ⟨hleads.number, hnone⟩, before, after, hsplit, ?_⟩
  intro other hother
  rw [Bool.not_eq_true', decide_eq_false_iff_not]
  rintro ⟨hnumber, hforemost⟩
  exact hforemost kept hmem (hbefore other hother hnumber)

/-- Whichever number leads, no equal one came before it. -/
theorem Leads.find?_sameNumber (hleads : Leads Precedes values kept)
    (hstrict : ∀ {x y}, Precedes x y → ¬y.SameNumber x) :
    (values.find? fun value => value.SameNumber kept) = some kept := by
  obtain ⟨before, after, hsplit, hbefore, -⟩ := hleads.exists_split
  have hself : kept.SameNumber kept := ⟨hleads.number, hleads.number, rfl⟩
  refine List.find?_eq_some_iff_append.mpr
    ⟨decide_eq_true hself, before, after, hsplit, ?_⟩
  intro other hother
  rw [Bool.not_eq_true', decide_eq_false_iff_not]
  intro hsame
  exact hstrict (hbefore other hother hsame.1) hsame

end

theorem not_sameNumber_of_below {x y : Scalar} (hbelow : x.Below y) :
    ¬x.SameNumber y ∧ ¬y.SameNumber x :=
  ⟨fun hsame => Int.ne_of_lt hbelow.2.2 hsame.2.2,
    fun hsame => Int.ne_of_gt hbelow.2.2 hsame.2.2⟩

end Scalar

open Scalar

theorem ValueRange.widen_of_isNaN (range : ValueRange) {value : Scalar}
    (hvalue : value.IsNaN) : range.widen value = range := by
  have hmin : ¬value.Below range.min := fun hbelow => hbelow.1 hvalue
  have hmax : ¬range.max.Below value := fun hbelow => hbelow.2.1 hvalue
  simp [widen, hmin, hmax]

namespace Constraints

variable {constraints : Constraints} {list : List Constraint}
  {first : Constraint}

theorem range_ofList_eq_none_iff : (ofList list).range = none ↔ list = [] := by
  rcases list.eq_nil_or_concat with rfl | ⟨front, last, rfl⟩
  · exact iff_of_true rfl rfl
  · rw [List.concat_eq_append, ofList_concat]
    simp [push]

theorem numbered_append (left right : List Constraint) :
    numbered (left ++ right) = numbered left ++ numbered right :=
  List.filter_append ..

/-- Behind a number, values that are not numbers might as well not be there. -/
theorem range_ofList_numbered (hnumber : ¬first.value.IsNaN)
    (rest : List Constraint) :
    (ofList (numbered (first :: rest))).range =
      (ofList (first :: rest)).range := by
  have hfirst : ∀ list, numbered (first :: list) = first :: numbered list := by
    intro list
    simp [numbered, hnumber]
  induction rest using List.reverseRecOn with
  | nil => rw [hfirst]; rfl
  | append_singleton rest constraint ih =>
      obtain ⟨range, hrange, -⟩ := exists_range_spans hnumber rest
      rw [hrange] at ih
      rw [← List.cons_append, numbered_append, ofList_concat,
        range_push_of_some hrange]
      by_cases hvalue : constraint.value.IsNaN
      · have hnone : numbered [constraint] = [] := by simp [numbered, hvalue]
        rw [hnone, List.append_nil, ih, ValueRange.widen_of_isNaN range hvalue]
      · have hone : numbered [constraint] = [constraint] := by
          simp [numbered, hvalue]
        rw [hone, ofList_concat, range_push_of_some ih]

/-- What is at the ends of the range of a list that starts with a number. -/
theorem exists_range_earliest (hnumber : ¬first.value.IsNaN)
    (rest : List Constraint) :
    let values := (first :: rest).map Constraint.value
    ∃ range, (ofList (first :: rest)).range = some range ∧
      earliest? Below values = some range.min ∧
      earliest? (fun x y => y.Below x) values = some range.max ∧
      (values.find? fun value => value.SameNumber range.min) =
        some range.min ∧
      (values.find? fun value => value.SameNumber range.max) =
        some range.max := by
  intro values
  obtain ⟨range, hrange, hspans⟩ := exists_range_spans hnumber rest
  exact ⟨range, hrange, hspans.min.earliest?_eq ranks_below,
    hspans.max.earliest?_eq ranks_below.converse,
    hspans.min.find?_sameNumber fun hbelow =>
      (not_sameNumber_of_below hbelow).2,
    hspans.max.find?_sameNumber fun hbelow =>
      (not_sameNumber_of_below hbelow).1⟩

/-- However a list of constraints came about, it holds the constraints in the
order in which they came and has a range unless there are none.  A first value
that is not a number is at both ends for good.  Behind a number, the ends are
the earliest of the smallest and the earliest of the largest numbers, bit for
bit: of equal numbers, the first one that came; and what is not a number could
as well be left out.  The same constraints in the same order always make the
same list, also when they are read from the bytes in which they are stored. -/
theorem range_keeps_earliest (hgathered : Gathered constraints list) :
    constraints.toList = list ∧
    (constraints.range = none ↔ list = []) ∧
    (constraints.min = none ↔ list = []) ∧
    (constraints.max = none ↔ list = []) ∧
    (∀ first rest, list = first :: rest → first.value.IsNaN →
      constraints.min = some first.value ∧
        constraints.max = some first.value) ∧
    (∀ first rest, list = first :: rest → ¬first.value.IsNaN →
      let values := list.map Constraint.value
      ∃ range, constraints.range = some range ∧
        constraints.min = some range.min ∧ constraints.max = some range.max ∧
        earliest? Below values = some range.min ∧
        earliest? (fun x y => y.Below x) values = some range.max ∧
        (values.find? fun value => value.SameNumber range.min) =
          some range.min ∧
        (values.find? fun value => value.SameNumber range.max) =
          some range.max ∧
        (ofList (numbered list)).range = some range) ∧
    constraints = ofList list ∧
    (∀ other, Gathered other list → other = constraints) ∧
    ∀ (reader after : Reader) (decoded : DecodedIndex),
      PersistenceIndex.read.step reader = (.ok decoded, after) →
      ∃ (index : PersistenceIndex) (mappingCount constraintCount : UInt32)
          (more : List UInt8),
        index.mapping.length = mappingCount.toNat ∧
        index.constraints.length = constraintCount.toNat ∧
        reader.unread =
          PersistenceIndex.storedIndex mappingCount constraintCount index ++
            more ∧
        decoded.constraints.toList = index.constraints ∧
        (index.constraints = list → decoded.constraints = constraints) := by
  obtain rfl := hgathered.eq_ofList
  have hnone := @range_ofList_eq_none_iff list
  refine ⟨toList_ofList list, hnone, ?_, ?_, ?_, ?_, rfl, ?_, ?_⟩
  · rw [min, Option.map_eq_none_iff, hnone]
  · rw [max, Option.map_eq_none_iff, hnone]
  · rintro first rest rfl hseed
    simp [min, max, range_ofList_of_isNaN hseed, ValueRange.single]
  · rintro first rest rfl hnumber
    obtain ⟨range, hrange, hmin, hmax, hfirstMin, hfirstMax⟩ :=
      exists_range_earliest hnumber rest
    refine ⟨range, hrange, ?_, ?_, hmin, hmax, hfirstMin, hfirstMax, ?_⟩
    · rw [min, hrange, Option.map_some]
    · rw [max, hrange, Option.map_some]
    · rw [range_ofList_numbered hnumber, hrange]
  · exact fun other hother => hother.eq_ofList
  · intro reader after decoded hread
    obtain ⟨index, mappingCount, constraintCount, more, hmapping, hconstraints,
      hunread, -, hdecoded⟩ := PersistenceIndex.exists_stored_of_read hread
    refine ⟨index, mappingCount, constraintCount, more, hmapping, hconstraints,
      hunread, ?_, ?_⟩
    · rw [hdecoded, toList_ofList]
    · rintro rfl
      exact hdecoded

/-- A negative zero and no number are read, and a positive zero is pushed; and no
number comes first. -/
theorem range_keeps_earliest_zeros :
    let zero : Constraint := ⟨4, ⟨0⟩, 1⟩
    let nan : Constraint := ⟨2, ⟨0x7ff8000000000001⟩, 0⟩
    let negative : Constraint := ⟨1, ⟨0x8000000000000000⟩, 0⟩
    (∃ decoded after,
      PersistenceIndex.read.step (.ofList
          [0, 0, 0, 0, 2, 0, 0, 0,
            1, 0, 0, 0, 0, 0, 0, 0, 0, 0, 0, 128, 0, 0, 0, 0,
            2, 0, 0, 0, 1, 0, 0, 0, 0, 0, 248, 127, 0, 0, 0, 0]) =
        (.ok decoded, after) ∧
      (decoded.constraints.push zero).toList = [negative, nan, zero] ∧
      (decoded.constraints.push zero).min = some negative.value ∧
      (decoded.constraints.push zero).max = some negative.value) ∧
    ((ofList [nan, zero]).push negative).min = some nan.value ∧
    ((ofList [nan, zero]).push negative).max = some nan.value := by
  intro zero nan negative
  constructor
  · have hread := @PersistenceIndex.consumes_read
      ⟨[], [⟨1, ⟨0x8000000000000000⟩, 0⟩, ⟨2, ⟨0x7ff8000000000001⟩, 0⟩]⟩ 0 2
      rfl rfl [] 0
    obtain ⟨htoList, -, -, -, -, hearliest, -⟩ :=
      range_keeps_earliest ((Gathered.decoded hread).pushed zero)
    obtain ⟨range, -, hmin, hmax, hlowest, hhighest, -⟩ :=
      hearliest negative [nan, zero] rfl (by decide)
    have hleast : some negative.value = some range.min :=
      Eq.trans (by decide) hlowest
    have hgreatest : some negative.value = some range.max :=
      Eq.trans (by decide) hhighest
    exact ⟨_, _, hread, htoList, hmin.trans hleast.symm,
      hmax.trans hgreatest.symm⟩
  · obtain ⟨-, -, -, -, hseeded, -⟩ :=
      range_keeps_earliest ((Gathered.collected [nan, zero]).pushed negative)
    exact hseeded nan [zero, negative] rfl (by decide)

end Constraints

end PackedTopology
