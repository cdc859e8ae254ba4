import PackedTopology.Proofs.ByteReader

/-!
# What actions take from a source

An action consumes some bytes if it takes exactly these from the front of
whatever follows them, counts them and returns a certain value.  The stored
form of a field is consumed by taking the field, and consumptions go one
behind the other like the actions do.
-/

namespace PackedTopology

namespace Reader

/-- The action takes these bytes off the front and leaves what is behind. -/
def Consumes {α : Type} (action : Action Reader α) (bytes : List UInt8)
    (value : α) : Prop :=
  ∀ (rest : List UInt8) (counted : ℕ),
    action.step (.holding (bytes ++ rest) counted) =
      (.ok value, .holding rest (counted + bytes.length))

variable {α β : Type} {left right bytes : List UInt8}

theorem consumes_pure (value : α) :
    Consumes (pure value : Action Reader α) [] value := by
  intro rest counted
  rfl

theorem consumes_take [Field α] (region : Region) (value : α) :
    Consumes (take α region) (Field.bytes value) value := by
  intro rest counted
  have hlength : (Field.bytes value).length = Field.size α :=
    Field.length_bytes value
  have hsize : Field.size α ≤ (Field.bytes value ++ rest).length := by
    rw [List.length_append, hlength]
    omega
  rw [step_take_of_le region counted hsize, ← hlength, List.take_left,
    List.drop_left, Field.ofBytes_bytes]

namespace Consumes

theorem bind {first : Action Reader α} {next : α → Action Reader β}
    {value : α} {result : β}
    (hfirst : Consumes first left value)
    (hnext : Consumes (next value) right result) :
    Consumes (first >>= next) (left ++ right) result := by
  intro rest counted
  rw [List.append_assoc, Action.step_bind_of_ok (hfirst _ counted),
    hnext rest, List.length_append, Nat.add_assoc]

theorem bind_pure {first : Action Reader α} {result : α → β} {value : α}
    (hfirst : Consumes first bytes value) :
    Consumes (first >>= fun found => pure (result found)) bytes
      (result value) := by
  have hboth :
      Consumes (first >>= fun found => pure (result found)) (bytes ++ [])
        (result value) :=
    hfirst.bind (consumes_pure (result value))
  rwa [List.append_nil] at hboth

theorem map {action : Action Reader α} {value : α}
    (haction : Consumes action bytes value) (change : α → β) :
    Consumes (change <$> action) bytes (change value) := by
  rw [map_eq_pure_bind]
  exact haction.bind_pure

theorem measured {action : Action Reader α} {value : α}
    (haction : Consumes action bytes value) :
    Consumes (measured action) bytes (value, bytes.length) := by
  intro rest counted
  have hbefore : (get : Action Reader Reader).step (.holding (bytes ++ rest) counted) =
      (.ok (.holding (bytes ++ rest) counted), .holding (bytes ++ rest) counted) :=
    rfl
  have hafter : (get : Action Reader Reader).step
        (.holding rest (counted + bytes.length)) =
      (.ok (.holding rest (counted + bytes.length)),
        .holding rest (counted + bytes.length)) :=
    rfl
  rw [Reader.measured, Action.step_bind_of_ok hbefore,
    Action.step_bind_of_ok (haction rest counted),
    Action.step_bind_of_ok hafter, Action.step_pure]
  simp [holding]

end Consumes

/-- Nothing that an action consumes is the front of something longer that it
consumes. -/
theorem Consumes.eq_nil_of_append {action : Action Reader α} {first second : α}
    (hleft : Consumes action left first)
    (hwhole : Consumes action (left ++ right) second) : right = [] := by
  have hshort := hleft right 0
  have hlong := hwhole [] 0
  rw [List.append_nil, hshort] at hlong
  exact congrArg (fun outcome => outcome.2.unread) hlong

theorem consumes_times {action : Action Reader α} {stored : α → List UInt8}
    (haction : ∀ value, Consumes action (stored value) value)
    (values : List α) :
    Consumes (action.times values.length) (values.flatMap stored) values := by
  induction values with
  | nil => exact consumes_pure []
  | cons value values ih =>
      rw [List.length_cons, Action.times_succ, List.flatMap_cons]
      exact (haction value).bind ih.bind_pure

end Reader

end PackedTopology
