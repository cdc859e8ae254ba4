import PackedTopology.Fault

/-!
# Actions on a stream

An action runs on the state of a stream and ends with a value or a fault.
The state is kept in both cases: what was written or read before a fault
stays written or read.  Actions are put together by running one after the
other, and the first fault ends the whole.
-/

namespace PackedTopology

/-- A step on a state of type `σ` that may fail, and keeps its state when it
does. -/
abbrev Action (σ α : Type) : Type :=
  ExceptT Fault (StateM σ) α

namespace Action

variable {σ α β : Type}

/-- The action with a given effect. -/
def of (effect : σ → Except Fault α × σ) : Action σ α :=
  ExceptT.mk (fun state => effect state)

/-- The result of an action and the state it leaves behind. -/
def step (action : Action σ α) (state : σ) : Except Fault α × σ :=
  action.run state

@[simp] theorem step_of (effect : σ → Except Fault α × σ) (state : σ) :
    (of effect).step state = effect state :=
  rfl

@[simp] theorem step_pure (value : α) (state : σ) :
    (pure value : Action σ α).step state = (.ok value, state) :=
  rfl

@[simp] theorem step_throw (fault : Fault) (state : σ) :
    (throw fault : Action σ α).step state = (.error fault, state) :=
  rfl

/-- The second action runs on what the first one leaves, unless that failed. -/
theorem step_bind (first : Action σ α) (next : α → Action σ β) (state : σ) :
    (first >>= next).step state =
      match first.step state with
      | (.ok value, after) => (next value).step after
      | (.error fault, after) => (.error fault, after) := by
  have hbind :
      (first >>= next).step state =
        ExceptT.bindCont next (first.step state).1 (first.step state).2 := rfl
  rw [hbind]
  rcases first.step state with ⟨result, after⟩
  cases result <;> rfl

def check (result : Except Fault α) : Action σ α :=
  of fun state => (result, state)

@[simp] theorem step_check (result : Except Fault α) (state : σ) :
    (check result).step state = (result, state) :=
  rfl

/-- Runs an action a number of times, after the values in `got`. -/
def timesAfter (action : Action σ α) : Nat → Array α → Action σ (Array α)
  | 0, got => return got
  | count + 1, got => do
      let value ← action
      timesAfter action count (got.push value)

def times (action : Action σ α) (count : Nat) : Action σ (List α) := do
  let values ← action.timesAfter count #[]
  return values.toList

end Action

end PackedTopology
