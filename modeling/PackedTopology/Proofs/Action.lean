import Mathlib.Data.Nat.Notation
import PackedTopology.Stream.Words

/-!
# Runs of actions

The effect of an action that is put together from others follows from theirs:
a step goes on from the state that a success leaves, and a fault is final.
Repeating an action lists its values in order.  A sink that takes every word
ends in the state that taking the words one by one leads to.
-/

namespace PackedTopology

namespace Action

variable {σ α β : Type}

theorem step_bind_of_ok {first : Action σ α} {next : α → Action σ β}
    {state after : σ} {value : α}
    (hfirst : first.step state = (.ok value, after)) :
    (first >>= next).step state = (next value).step after := by
  rw [step_bind, hfirst]

theorem step_bind_of_error {first : Action σ α} {next : α → Action σ β}
    {state after : σ} {fault : Fault}
    (hfirst : first.step state = (.error fault, after)) :
    (first >>= next).step state = (.error fault, after) := by
  rw [step_bind, hfirst]

/-- A composed action that succeeds has succeeded at its first part. -/
theorem exists_of_step_bind_eq_ok {first : Action σ α} {next : α → Action σ β}
    {state : σ} {result : β}
    (hbind : ((first >>= next).step state).1 = .ok result) :
    ∃ value after, first.step state = (.ok value, after) ∧
      ((next value).step after).1 = .ok result := by
  rw [step_bind] at hbind
  rcases hfirst : first.step state with ⟨outcome, after⟩
  cases outcome with
  | error fault => simp [hfirst] at hbind
  | ok value =>
      rw [hfirst] at hbind
      exact ⟨value, after, rfl, hbind⟩

theorem check_ok_bind (value : α) (next : α → Action σ β) :
    check (.ok value) >>= next = next value :=
  rfl

theorem step_map (change : α → β) (action : Action σ α) (state : σ) :
    (change <$> action).step state =
      ((action.step state).1.map change, (action.step state).2) := by
  rw [map_eq_pure_bind, step_bind]
  rcases action.step state with ⟨_ | _, after⟩ <;> rfl

theorem exists_of_step_map {change : α → β} {action : Action σ α} {state : σ}
    {result : β} (hmap : ((change <$> action).step state).1 = .ok result) :
    ∃ value, (action.step state).1 = .ok value := by
  rw [map_eq_pure_bind] at hmap
  obtain ⟨value, after, hvalue, -⟩ := exists_of_step_bind_eq_ok hmap
  exact ⟨value, congrArg Prod.fst hvalue⟩

theorem exists_of_step_check_bind {result : Except Fault α}
    {next : α → Action σ β} {state : σ} {value : β}
    (hstep : ((check result >>= next).step state).1 = .ok value) :
    ∃ checked, result = .ok checked ∧
      ((next checked).step state).1 = .ok value := by
  obtain ⟨checked, after, hcheck, hnext⟩ := exists_of_step_bind_eq_ok hstep
  rw [step_check] at hcheck
  cases hcheck
  exact ⟨checked, rfl, hnext⟩

/-! ## Repetition -/

private theorem timesAfter_eq (action : Action σ α) (count : ℕ) (got : Array α) :
    action.timesAfter count got =
      (fun values => got ++ values) <$> action.timesAfter count #[] := by
  induction count generalizing got with
  | zero => simp [timesAfter]
  | succ count ih =>
      simp only [timesAfter, map_bind]
      congr 1
      funext value
      rw [ih (got.push value), ih (#[].push value)]
      simp

@[simp] theorem times_zero (action : Action σ α) : action.times 0 = pure [] :=
  rfl

theorem times_succ (action : Action σ α) (count : ℕ) :
    action.times (count + 1) = do
      let value ← action
      let values ← action.times count
      return value :: values := by
  simp only [times, timesAfter, bind_assoc]
  congr 1
  funext value
  rw [timesAfter_eq action count (#[].push value)]
  simp

/-! ## Sequences -/

/-- The state after a sequence of actions, whether or not they failed. -/
def lastState : List (Action σ α) → σ → σ
  | [], state => state
  | action :: actions, state => lastState actions (action.step state).2

end Action

namespace WordSink

variable {σ : Type} [WordSink σ]

/-- A sink takes every word as long as it is open, and stays open: `after`
tells its state after a word. -/
structure TakesAll (Open : σ → Prop) (after : σ → UInt32 → σ) : Prop where
  step_putWord : ∀ sink word, Open sink →
    (putWord word).step sink = (.ok (), after sink word)
  stays_open : ∀ sink word, Open sink → Open (after sink word)

theorem TakesAll.step_putWords {Open : σ → Prop} {after : σ → UInt32 → σ}
    (htakes : TakesAll Open after) (words : List UInt32) {sink : σ}
    (hopen : Open sink) :
    (putWords words).step sink = (.ok (), words.foldl after sink) := by
  induction words generalizing sink with
  | nil => rfl
  | cons word words ih =>
      have hword := htakes.step_putWord sink word hopen
      rw [putWords, Action.step_bind_of_ok hword,
        ih (htakes.stays_open sink word hopen), List.foldl_cons]

/-- A plain list of words takes every word. -/
theorem takesAll_array :
    TakesAll (fun _ : Array UInt32 => True) Array.push :=
  ⟨fun _ _ _ => rfl, fun _ _ _ => trivial⟩

end WordSink

end PackedTopology
