import PackedTopology.Proofs.MixedStream
import PackedTopology.Proofs.Pouring

/-!
# Runs on a target with bounded room

The same operations are run on a target with bounded room and on one without
bounds, and none of them is stopped by the failure of another.  The bounded
target holds what the other one holds, as far as its room goes: every operation
puts the part of its bytes that fits, so the first one that does not fit fills
the target, and nothing of a later one gets past it.  Up to then both runs
answer alike.
-/

namespace PackedTopology

namespace Writer

/-- A writer with bounded room beside one without bounds: it holds the front of
what the other one holds, and it has counted all of that unless it is full. -/
structure Shadows (capacity : ℕ) (tight wide : Writer) : Prop where
  tight_medium : tight.medium = .bounded capacity
  wide_medium : wide.medium = .unbounded
  content_eq : tight.content = wide.content.take capacity
  counted_le : tight.counted ≤ tight.content.length
  full_of_ne : tight.counted ≠ tight.content.length →
    tight.content.length = capacity

namespace Shadows

variable {capacity : ℕ} {tight wide : Writer}

theorem empty (capacity : ℕ) :
    Shadows capacity (.empty (.bounded capacity)) (.empty .unbounded) where
  tight_medium := rfl
  wide_medium := rfl
  content_eq := by simp
  counted_le := Nat.zero_le _
  full_of_ne hne := absurd rfl hne

theorem length_content (hshadows : Shadows capacity tight wide) :
    tight.content.length = min capacity wide.content.length := by
  rw [hshadows.content_eq, List.length_take]

theorem accepted_eq (hshadows : Shadows capacity tight wide)
    (bytes : List UInt8) :
    tight.accepted bytes = bytes.take (capacity - wide.content.length) := by
  have hroom : tight.medium.room = some capacity := by
    simp [hshadows.tight_medium, Medium.room]
  have hsize : tight.taken.size = min capacity wide.content.length :=
    hshadows.length_content
  have hleft : capacity - min capacity wide.content.length =
      capacity - wide.content.length := by omega
  rw [accepted_of_some hroom, hsize, hleft]

theorem content_append (hshadows : Shadows capacity tight wide)
    (bytes : List UInt8) :
    tight.content ++ tight.accepted bytes =
      (wide.content ++ bytes).take capacity := by
  rw [hshadows.content_eq, hshadows.accepted_eq, List.take_append]

variable {α : Type} {action : Action Writer α} {bytes : List UInt8}
  {result : Except Fault α}

theorem after (hshadows : Shadows capacity tight wide)
    (hfits : tight.Fits bytes) :
    Shadows capacity (tight.after bytes) (wide.after bytes) where
  tight_medium := hshadows.tight_medium
  wide_medium := hshadows.wide_medium
  content_eq := by
    rw [content_after, content_after, ← hshadows.content_append,
      accepted_of_fits hfits]
  counted_le := by
    rw [counted_after, content_after, List.length_append]
    exact Nat.add_le_add_right hshadows.counted_le _
  full_of_ne hne := by
    rw [counted_after, content_after, List.length_append] at hne
    have hfull := hshadows.full_of_ne fun heq => hne (by rw [heq])
    have hnone : capacity - wide.content.length = 0 := by
      have hlength := hshadows.length_content
      omega
    rw [Fits, hshadows.accepted_eq, hnone, List.take_zero] at hfits
    rw [content_after, List.length_append, hfull, ← hfits, List.length_nil,
      Nat.add_zero]

/-- The first write that does not fit fills the target. -/
theorem stopped (hshadows : Shadows capacity tight wide)
    (hfits : ¬tight.Fits bytes) {counted : ℕ}
    (hle : counted ≤ tight.counted + (tight.accepted bytes).length) :
    Shadows capacity (tight.stopped (tight.accepted bytes) counted)
      (wide.after bytes) where
  tight_medium := hshadows.tight_medium
  wide_medium := hshadows.wide_medium
  content_eq := by
    rw [content_stopped, content_after, hshadows.content_append]
  counted_le := by
    rw [counted_stopped, content_stopped, List.length_append]
    exact hle.trans (Nat.add_le_add_right hshadows.counted_le _)
  full_of_ne _ := by
    have hlength := hshadows.length_content
    rw [Fits, hshadows.accepted_eq, List.length_take] at hfits
    rw [content_stopped, hshadows.accepted_eq, List.length_append,
      List.length_take]
    omega

/-- An action keeps one writer in the shadow of the other, and answers alike
unless it has gone past the room. -/
theorem step_of_pours (hshadows : Shadows capacity tight wide)
    (hpours : Pours action bytes result) :
    Shadows capacity (action.step tight).2 (action.step wide).2 ∧
      ((action.step wide).2.content.length ≤ capacity →
        (action.step tight).1 = (action.step wide).1) := by
  have hwide := hpours.step_of_fits wide
    (fits_of_unbounded hshadows.wide_medium bytes)
  rw [hwide]
  by_cases hfits : tight.Fits bytes
  · rw [hpours.step_of_fits tight hfits]
    exact ⟨hshadows.after hfits, fun _ => rfl⟩
  · obtain ⟨counted, -, hle, hstep⟩ := hpours.step_of_not_fits tight hfits
    rw [hstep]
    refine ⟨hshadows.stopped hfits hle, ?_⟩
    intro hroom
    rw [content_after, List.length_append] at hroom
    rw [Fits, hshadows.accepted_eq, List.length_take] at hfits
    omega

end Shadows

end Writer

open Writer

namespace WriteStep

theorem streams {step : WriteStep} (hflush : step ≠ .flush) :
    Streams step.perform := by
  cases step with
  | word value => exact (streams_put value).bind fun _ => streams_pure none
  | integer value => exact (streams_put value).bind fun _ => streams_pure none
  | scalar value => exact (streams_put value).bind fun _ => streams_pure none
  | flush => exact absurd rfl hflush
  | header counts => exact (Segmentation.streams_header counts).map _
  | segmentation ids segments =>
      exact (Segmentation.streams_write ids segments).map _
  | packed ids segments => exact (Segmentation.streams_encode ids segments).map _
  | index content => exact (PersistenceIndex.streams_write content).map _

theorem step_flush {writer : Writer}
    (hmedium : ∀ capacity buffer, writer.medium ≠ .buffered capacity buffer) :
    WriteStep.flush.perform.step writer = (.ok none, writer) := by
  have hflush : Writer.flush.step writer = (.ok (), writer) := by
    rw [Writer.flush, Action.step_of]
    split
    · rename_i capacity buffer hbuffered
      exact absurd hbuffered (hmedium capacity buffer)
    · rfl
  rw [perform, Action.step_bind_of_ok hflush, Action.step_pure]

theorem length_of_pours {step : WriteStep} {bytes : List UInt8} {size : ℕ}
    (hpours : Pours step.perform bytes (.ok (some size))) :
    bytes.length = size := by
  have haccepted : step.Accepted := accepted_of_emits hpours.emits
  have hrecord : ∀ read, Mirrors step read → bytes.length = size := by
    intro read hmirrors
    obtain ⟨emitted, report, _, hemits, -, hlength, -⟩ :=
      hmirrors.exists_emits haccepted
    obtain ⟨rfl, hreport⟩ := hpours.eq_of_emits hemits
    rw [hlength, ← Except.ok.inj hreport]
    cases step <;> rfl
  cases step with
  | word value => exact hrecord _ (.word value .mappingCount)
  | integer value => exact hrecord _ (.integer value .mappingEntries)
  | scalar value => exact hrecord _ (.scalar value .mappingEntries)
  | flush =>
      have hstep := hpours.emits (.empty .unbounded) rfl
      rw [step_flush (by simp [Writer.empty])] at hstep
      cases hstep
  | header counts =>
      obtain ⟨rfl, hreport⟩ :=
        hpours.eq_of_emits ((Segmentation.emits_header counts).map some)
      cases hreport
      exact Segmentation.length_storedHeader counts
  | segmentation ids segments =>
      exact hrecord _ (.segmentation ids segments none (by simp))
  | packed ids segments => exact hrecord _ (.packed ids segments)
  | index content => exact hrecord _ (.index content)

theorem counted_of_step {step : WriteStep} {writer : Writer} {size : ℕ}
    (hmedium : ∀ capacity buffer, writer.medium ≠ .buffered capacity buffer)
    (hstep : (step.perform.step writer).1 = .ok (some size)) :
    (step.perform.step writer).2.counted = writer.counted + size := by
  by_cases hflush : step = .flush
  · subst step
    rw [step_flush hmedium] at hstep
    cases hstep
  · obtain ⟨bytes, result, hpours⟩ := streams hflush
    by_cases hfits : writer.Fits bytes
    · rw [hpours.step_of_fits writer hfits] at hstep ⊢
      obtain rfl : result = .ok (some size) := hstep
      rw [counted_after, length_of_pours hpours]
    · obtain ⟨counted, -, -, hcut⟩ := hpours.step_of_not_fits writer hfits
      rw [hcut] at hstep
      cases hstep

end WriteStep

/-! ## Two runs side by side -/

/-- What an operation answered and left on a target with bounded room, beside
the same on one without bounds. -/
structure Confined (capacity : ℕ)
    (tight wide : Except Fault (Option ℕ) × Writer) : Prop where
  content_eq : tight.2.content = wide.2.content.take capacity
  result_eq : wide.2.content.length ≤ capacity → tight.1 = wide.1
  counted_le : tight.2.counted ≤ tight.2.content.length
  length_le : tight.2.content.length ≤ capacity
  full_of_ne : tight.2.counted ≠ tight.2.content.length →
    tight.2.content.length = capacity

/-- Along a run that starts with a writer, every count that an operation
reports is the growth of the counter. -/
def ReportsGrowth : Writer → List (Except Fault (Option ℕ) × Writer) → Prop
  | _, [] => True
  | before, (result, after) :: outcomes =>
      (∀ size, result = .ok (some size) →
        after.counted = before.counted + size) ∧
      ReportsGrowth after outcomes

def lastWriter : Writer → List (Except Fault (Option ℕ) × Writer) → Writer
  | before, [] => before
  | _, (_, after) :: outcomes => lastWriter after outcomes

namespace Writer.Shadows

variable {capacity : ℕ} {tight wide : Writer}

theorem step_of_perform (hshadows : Shadows capacity tight wide)
    (step : WriteStep) :
    Shadows capacity (step.perform.step tight).2 (step.perform.step wide).2 ∧
      ((step.perform.step wide).2.content.length ≤ capacity →
        (step.perform.step tight).1 = (step.perform.step wide).1) := by
  by_cases hflush : step = .flush
  · subst step
    rw [WriteStep.step_flush (by simp [hshadows.tight_medium]),
      WriteStep.step_flush (by simp [hshadows.wide_medium])]
    exact ⟨hshadows, fun _ => rfl⟩
  · obtain ⟨bytes, result, hpours⟩ := WriteStep.streams hflush
    exact hshadows.step_of_pours hpours

theorem confined (hshadows : Shadows capacity tight wide)
    (step : WriteStep) :
    Confined capacity (step.perform.step tight) (step.perform.step wide) := by
  obtain ⟨hafter, hresult⟩ := hshadows.step_of_perform step
  refine ⟨hafter.content_eq, hresult, hafter.counted_le, ?_, hafter.full_of_ne⟩
  rw [hafter.length_content]
  exact Nat.min_le_left _ _

/-- The run lemma: one writer stays in the shadow of the other. -/
theorem runAll (hshadows : Shadows capacity tight wide)
    (steps : List WriteStep) :
    let tightRun := Action.runAll (steps.map WriteStep.perform) tight
    let wideRun := Action.runAll (steps.map WriteStep.perform) wide
    Shadows capacity (lastWriter tight tightRun) (lastWriter wide wideRun) ∧
      List.Forall₂ (Confined capacity) tightRun wideRun ∧
      ReportsGrowth tight tightRun ∧ ReportsGrowth wide wideRun := by
  induction steps generalizing tight wide with
  | nil => exact ⟨hshadows, .nil, trivial, trivial⟩
  | cons step steps ih =>
      obtain ⟨hafter, -⟩ := hshadows.step_of_perform step
      obtain ⟨hlast, hconfined, htight, hwide⟩ := ih hafter
      refine ⟨hlast, .cons (hshadows.confined step) hconfined, ⟨?_, htight⟩,
        ⟨?_, hwide⟩⟩
      · intro size
        exact WriteStep.counted_of_step (by simp [hshadows.tight_medium])
      · intro size
        exact WriteStep.counted_of_step (by simp [hshadows.wide_medium])

end Writer.Shadows

/-- Any sequence of writing operations, good or bad, on a target with bounded
room and on one without bounds.  The bounded target ends as the front of the
other one.  After every operation it holds the front of what the other one
holds then, it has counted no more than it holds, and less only when it is
full; the operation answers alike in both runs unless it has gone past the
room.  In both runs every reported count is the growth of the counter. -/
theorem bounded_run (capacity : ℕ) (steps : List WriteStep) :
    let tight := Action.runAll (steps.map WriteStep.perform)
      (.empty (.bounded capacity))
    let wide := Action.runAll (steps.map WriteStep.perform) (.empty .unbounded)
    (lastWriter (.empty (.bounded capacity)) tight).content =
        (lastWriter (.empty .unbounded) wide).content.take capacity ∧
      List.Forall₂ (Confined capacity) tight wide ∧
      ReportsGrowth (.empty (.bounded capacity)) tight ∧
      ReportsGrowth (.empty .unbounded) wide := by
  intro tight wide
  obtain ⟨hlast, hconfined, htight, hwide⟩ :=
    (Shadows.empty capacity).runAll steps
  exact ⟨hlast.content_eq, hconfined, htight, hwide⟩

end PackedTopology
