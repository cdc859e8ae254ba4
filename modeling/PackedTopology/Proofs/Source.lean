import Mathlib.Data.List.TakeDrop
import PackedTopology.Stream.Source

/-!
# Filling a field call by call

The calls that fill a field may give their bytes in pieces of any size.  All
that matters is what the source would still hand out: the field is taken off
its front, and if there is too little of it, it is used up, and the source
ends or refuses as it does when nothing is left.
-/

namespace PackedTopology.Source

variable {source : Source}

/-- A source that breaks does so before its bytes end. -/
def BreaksInTime (source : Source) : Prop :=
  ∀ credit error, source.breakage = some (credit, error) →
    credit ≤ source.rest.length

/-- How filling ends when nothing is left. -/
def ending (source : Source) : Filled :=
  match source.breakage with
  | none => .ended
  | some (_, error) => .refused error

theorem breaksInTime_of_none (hbreakage : source.breakage = none) :
    source.BreaksInTime := by
  intro credit error hsome
  simp [hbreakage] at hsome

/-! ## Advancing -/

@[simp] theorem skip_steady (chunk : Option ℕ) (calls : ℕ) :
    (Pace.steady chunk).skip calls = .steady chunk := by
  simp [Pace.skip, Pace.steady]

@[simp] theorem advance_zero (source : Source) : source.advance 0 0 = source := by
  rcases source with ⟨rest, pace, _ | ⟨credit, error⟩⟩ <;>
    simp [advance, Pace.skip]

theorem advance_advance (source : Source) (calls more first second : ℕ) :
    (source.advance calls first).advance more second =
      source.advance (calls + more) (first + second) := by
  rcases source with ⟨rest, pace, _ | ⟨credit, error⟩⟩ <;>
    simp [advance, Pace.skip, Nat.sub_sub]

@[simp] theorem unread_advance (source : Source) (calls count : ℕ) :
    (source.advance calls count).unread = source.unread.drop count := by
  rcases source with ⟨rest, pace, _ | ⟨credit, error⟩⟩ <;>
    simp [advance, unread, List.drop_take]

@[simp] theorem ending_advance (source : Source) (calls count : ℕ) :
    (source.advance calls count).ending = source.ending := by
  rcases source with ⟨rest, pace, _ | ⟨credit, error⟩⟩ <;> rfl

theorem BreaksInTime.advance (hbreaks : source.BreaksInTime) (calls count : ℕ) :
    (source.advance calls count).BreaksInTime := by
  rcases source with ⟨rest, pace, _ | ⟨credit, error⟩⟩
  · exact breaksInTime_of_none rfl
  · rintro _ _ ⟨⟩
    have hcredit : credit ≤ rest.length := hbreaks credit error rfl
    simp only [Source.advance, List.length_drop]
    omega

/-! ## One call -/

theorem portion_le (pace : Pace) (wanted : ℕ) : pace.portion wanted ≤ wanted :=
  Nat.min_le_left _ _

theorem portion_pos (pace : Pace) {wanted : ℕ} (hwanted : wanted ≠ 0) :
    0 < pace.portion wanted :=
  Nat.lt_min.mpr ⟨Nat.pos_of_ne_zero hwanted, Nat.le_max_left 1 _⟩

theorem fillAfter_of_unread_nil (hbreaks : source.BreaksInTime)
    (hnil : source.unread = []) {wanted : ℕ} (hwanted : wanted ≠ 0)
    (got : List UInt8) :
    source.fillAfter got wanted = (source.ending, source) := by
  rw [fillAfter, if_neg hwanted]
  rcases source with ⟨rest, pace, _ | ⟨credit, error⟩⟩
  · obtain rfl : rest = [] := hnil
    simp [call, ending]
  · have hcredit : credit ≤ rest.length := hbreaks credit error rfl
    have hlength := congrArg List.length hnil
    simp only [unread, List.length_take, List.length_nil] at hlength
    obtain rfl : credit = 0 := by omega
    rfl

/-- A call gives a piece of the unread bytes that is not empty. -/
theorem exists_call_eq_take (hsome : source.unread ≠ []) {wanted : ℕ}
    (hwanted : wanted ≠ 0) :
    ∃ count, 0 < count ∧ count ≤ wanted ∧ count ≤ source.unread.length ∧
      source.call wanted = .ok (source.unread.take count) := by
  have hpos := List.length_pos_iff.mpr hsome
  have hportion := portion_pos source.pace hwanted
  have hasked := portion_le source.pace wanted
  refine ⟨min (source.share wanted) source.unread.length, ?_, ?_,
    Nat.min_le_right _ _, ?_⟩
  all_goals rcases source with ⟨rest, pace, _ | ⟨credit, error⟩⟩
  all_goals simp only [unread, List.length_take, share] at hpos hportion hasked ⊢
  · omega
  · omega
  · omega
  · omega
  · simp only [call, share]
    rw [← List.take_eq_take_min]
  · obtain ⟨credit, rfl⟩ : ∃ more, credit = more + 1 := ⟨credit - 1, by omega⟩
    simp only [call, share, List.take_take]
    rw [List.take_eq_take_min]
    congr 2
    omega

theorem call_of_unread_nil (hnil : source.unread = []) (wanted : ℕ) :
    source.call wanted = .ok [] ∨ ∃ error, source.call wanted = .error error := by
  rcases source with ⟨rest, pace, _ | ⟨credit, error⟩⟩
  · obtain rfl : rest = [] := hnil
    exact .inl (by simp [call])
  · cases credit with
    | zero => exact .inr ⟨error, rfl⟩
    | succ credit =>
        obtain rfl : rest = [] := by simpa [unread] using hnil
        exact .inl (by simp [call])

/-! ## All calls -/

/-- One call gives a piece of the unread bytes, and the calls behind it fill what
is still wanted. -/
theorem exists_fillAfter_eq (hsome : source.unread ≠ []) {wanted : ℕ}
    (hwanted : wanted ≠ 0) (got : List UInt8) :
    ∃ count, 0 < count ∧ count ≤ wanted ∧ count ≤ source.unread.length ∧
      source.fillAfter got wanted =
        (source.advance 1 count).fillAfter (got ++ source.unread.take count)
          (wanted - count) := by
  obtain ⟨count, hpos, hle, hunread, hcall⟩ := exists_call_eq_take hsome hwanted
  have hlength : (source.unread.take count).length = count := by
    simp [hunread]
  refine ⟨count, hpos, hle, hunread, ?_⟩
  rw [fillAfter, if_neg hwanted, hcall]
  cases hgiven : source.unread.take count with
  | nil =>
      rw [hgiven, List.length_nil] at hlength
      omega
  | cons byte bytes =>
      rw [hgiven] at hlength
      simp only [hlength]

/-- The induction is on the bytes that are still wanted: every call gives some
of them. -/
theorem exists_fillAfter_eq_advance (hbreaks : source.BreaksInTime)
    (got : List UInt8) (wanted : ℕ) :
    ∃ calls, source.fillAfter got wanted =
      if wanted ≤ source.unread.length then
        (.complete (got ++ source.unread.take wanted), source.advance calls wanted)
      else
        (source.ending, source.advance calls source.unread.length) := by
  induction wanted using Nat.strongRecOn generalizing got source with
  | ind wanted ih =>
      by_cases hzero : wanted = 0
      · refine ⟨0, ?_⟩
        rw [fillAfter]
        simp [hzero]
      by_cases hnil : source.unread = []
      · refine ⟨0, ?_⟩
        rw [fillAfter_of_unread_nil hbreaks hnil hzero]
        simp [hnil, hzero]
      obtain ⟨count, hpos, hwanted, hunread, hfill⟩ :=
        exists_fillAfter_eq hnil hzero got
      obtain ⟨calls, hmore⟩ := ih _ (show wanted - count < wanted by omega)
        (hbreaks.advance 1 count) (got ++ source.unread.take count)
      refine ⟨1 + calls, ?_⟩
      rw [hfill, hmore]
      simp only [unread_advance, ending_advance, List.length_drop,
        advance_advance, List.append_assoc]
      by_cases henough : wanted ≤ source.unread.length
      · have hrest : wanted - count ≤ source.unread.length - count := by omega
        have hsum : count + (wanted - count) = wanted := by omega
        have htake := @List.take_add _ source.unread count (wanted - count)
        rw [hsum] at htake
        rw [if_pos hrest, if_pos henough, hsum, htake]
      · have hlack : ¬wanted - count ≤ source.unread.length - count := by omega
        have hsum : count + (source.unread.length - count) =
            source.unread.length := by omega
        rw [if_neg hlack, if_neg henough, hsum]

/-- Whatever a source does at its end, a field that it fills is the front of
what was unread. -/
theorem of_fillAfter_eq_complete {got bytes : List UInt8} {wanted : ℕ}
    {after : Source}
    (hfill : source.fillAfter got wanted = (.complete bytes, after)) :
    wanted ≤ source.unread.length ∧ bytes = got ++ source.unread.take wanted ∧
      ∃ calls, after = source.advance calls wanted := by
  induction wanted using Nat.strongRecOn generalizing got source with
  | ind wanted ih =>
      by_cases hzero : wanted = 0
      · rw [fillAfter, if_pos hzero] at hfill
        cases hfill
        exact ⟨by omega, by simp [hzero], 0, by simp [hzero]⟩
      by_cases hnil : source.unread = []
      · rw [fillAfter, if_neg hzero] at hfill
        rcases call_of_unread_nil hnil wanted with hcall | ⟨error, hcall⟩
        · rw [hcall] at hfill
          cases hfill
        · rw [hcall] at hfill
          cases hfill
      obtain ⟨count, hpos, hwanted, hunread, hmore⟩ :=
        exists_fillAfter_eq hnil hzero got
      rw [hmore] at hfill
      obtain ⟨hle, rfl, calls, rfl⟩ := ih _ (by omega) hfill
      have hsum : count + (wanted - count) = wanted := by omega
      have htake := @List.take_add _ source.unread count (wanted - count)
      rw [unread_advance, List.length_drop] at hle
      rw [hsum] at htake
      refine ⟨by omega, ?_, 1 + calls, ?_⟩
      · rw [unread_advance, List.append_assoc, htake]
      · rw [advance_advance, hsum]

theorem exists_fill_eq_advance (hbreaks : source.BreaksInTime) (wanted : ℕ) :
    ∃ calls, source.fill wanted =
      if wanted ≤ source.unread.length then
        (.complete (source.unread.take wanted), source.advance calls wanted)
      else
        (source.ending, source.advance calls source.unread.length) :=
  exists_fillAfter_eq_advance hbreaks [] wanted

theorem fill_ofList (wanted : ℕ) (rest : List UInt8) :
    (ofList rest).fill wanted =
      if wanted ≤ rest.length then
        (.complete (rest.take wanted), ofList (rest.drop wanted))
      else
        (.ended, ofList []) := by
  have hadvance : ∀ calls count, (ofList rest).advance calls count =
      ofList (rest.drop count) := by
    simp [ofList, advance]
  obtain ⟨calls, hfill⟩ :=
    exists_fill_eq_advance (@breaksInTime_of_none (ofList rest) rfl) wanted
  rw [hadvance, hadvance] at hfill
  rw [hfill, show (ofList rest).unread = rest from rfl, List.drop_length]
  rfl

end PackedTopology.Source
