import PackedTopology.Proofs.Delivery
import PackedTopology.Proofs.IndexGrammar

/-!
# Readings that succeed

A source may give its bytes in pieces, and it may break.  A reading that
succeeds on it has met nothing of that: it is also a success on the bytes that
were unread, with the same value and with the same bytes left behind.  So what
is read from any source at all follows from the grammar of the bytes.
-/

namespace PackedTopology

namespace Reader

variable {α β : Type}

/-- A success on a reader is a success on its bytes at hand. -/
def SucceedsAtHand (action : Action Reader α) : Prop :=
  ∀ (reader : Reader) (value : α) (after : Reader),
    action.step reader = (.ok value, after) →
      action.step reader.atHand = (.ok value, after.atHand)

theorem succeedsAtHand_pure (value : α) :
    SucceedsAtHand (pure value : Action Reader α) := by
  rintro reader _ _ ⟨⟩
  rfl

theorem succeedsAtHand_takeBytes (region : Region) (size : ℕ) :
    SucceedsAtHand (takeBytes region size) := by
  intro reader value after hstep
  simp only [takeBytes, Action.step_of] at hstep
  rcases hfill : reader.source.fill size with ⟨filled, source⟩
  rw [hfill] at hstep
  cases filled with
  | complete bytes =>
      obtain ⟨hsize, rfl, calls, rfl⟩ := Source.of_fillAfter_eq_complete hfill
      cases hstep
      rw [atHand, step_takeBytes_holding, atHand_advance]
      exact if_pos hsize
  | ended => cases hstep
  | refused error => cases hstep

namespace SucceedsAtHand

theorem bind {first : Action Reader α} {next : α → Action Reader β}
    (hfirst : SucceedsAtHand first)
    (hnext : ∀ value, SucceedsAtHand (next value)) :
    SucceedsAtHand (first >>= next) := by
  intro reader result after hstep
  rw [Action.step_bind] at hstep
  rcases hvalue : first.step reader with ⟨fault | value, middle⟩
  · rw [hvalue] at hstep
    cases hstep
  · rw [hvalue] at hstep
    rw [Action.step_bind_of_ok (hfirst reader value middle hvalue)]
    exact hnext value middle result after hstep

theorem times {action : Action Reader α} (haction : SucceedsAtHand action)
    (count : ℕ) : SucceedsAtHand (action.times count) := by
  induction count with
  | zero => exact succeedsAtHand_pure []
  | succ count ih =>
      rw [Action.times_succ]
      exact haction.bind fun value => ih.bind fun values =>
        succeedsAtHand_pure (value :: values)

end SucceedsAtHand

theorem succeedsAtHand_take (α : Type) [Field α] (region : Region) :
    SucceedsAtHand (take α region) :=
  (succeedsAtHand_takeBytes region (Field.size α)).bind fun stored =>
    succeedsAtHand_pure (Field.ofBytes stored)

theorem exists_of_step_measured {action : Action Reader α} {reader : Reader}
    {value : α} {size : ℕ}
    (hstep : ((measured action).step reader).1 = .ok (value, size)) :
    ∃ after, action.step reader = (.ok value, after) := by
  obtain ⟨before, start, hget, hstep⟩ := Action.exists_of_step_bind_eq_ok hstep
  obtain ⟨rfl, rfl⟩ : reader = before ∧ reader = start := by
    cases hget
    exact ⟨rfl, rfl⟩
  obtain ⟨found, after, hfound, hstep⟩ := Action.exists_of_step_bind_eq_ok hstep
  cases hstep
  exact ⟨after, hfound⟩

end Reader

open Reader

namespace PersistenceIndex

theorem succeedsAtHand_takeLists : SucceedsAtHand takeLists := by
  have hentry : SucceedsAtHand takeEntry :=
    (succeedsAtHand_take Int32 .mappingEntries).bind fun vertex =>
      (succeedsAtHand_take Scalar .mappingEntries).bind fun value =>
        succeedsAtHand_pure _
  have hconstraint : SucceedsAtHand takeConstraint :=
    (succeedsAtHand_take Int32 .constraintEntries).bind fun vertex =>
      (succeedsAtHand_take Scalar .constraintEntries).bind fun value =>
        (succeedsAtHand_take Int32 .constraintEntries).bind fun kind =>
          succeedsAtHand_pure _
  exact (succeedsAtHand_take UInt32 .mappingCount).bind fun mappingCount =>
    (hentry.times _).bind fun mapping =>
      (succeedsAtHand_take UInt32 .constraintCount).bind fun constraintCount =>
        (hconstraint.times _).bind fun constraints => succeedsAtHand_pure _

/-- An index that is read from any source was stored in the bytes that were
unread. -/
theorem exists_stored_of_read {reader after : Reader} {decoded : DecodedIndex}
    (hread : read.step reader = (.ok decoded, after)) :
    ∃ (index : PersistenceIndex) (mappingCount constraintCount : UInt32)
        (more : List UInt8),
      index.mapping.length = mappingCount.toNat ∧
        index.constraints.length = constraintCount.toNat ∧
        reader.unread = storedIndex mappingCount constraintCount index ++ more ∧
        decoded.mappings = .ofList index.mapping ∧
        decoded.constraints = .ofList index.constraints := by
  obtain ⟨⟨⟨mapping, constraints⟩, size⟩, _, hmeasured, hdecoded⟩ :=
    Action.exists_of_step_bind_eq_ok (congrArg Prod.fst hread)
  obtain ⟨last, hlists⟩ :=
    exists_of_step_measured (congrArg Prod.fst hmeasured)
  have hhand := succeedsAtHand_takeLists _ _ _ hlists
  rcases takeLists_starts_or_stops reader.unread with
    ⟨index, mappingCount, constraintCount, more, hmapping, hconstraints,
      hunread⟩ | hstop
  · have hconsumes := consumes_takeLists hmapping.symm hconstraints.symm more
      reader.counted
    rw [← hunread] at hconsumes
    have hsame := congrArg Prod.fst (hconsumes.symm.trans hhand)
    cases hsame
    cases hdecoded
    exact ⟨index, mappingCount, constraintCount, more, hmapping, hconstraints,
      hunread, rfl, rfl⟩
  · exact absurd hhand ((hstop reader.counted).ne_ok _ _)

end PersistenceIndex

end PackedTopology
