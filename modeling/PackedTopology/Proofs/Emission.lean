import PackedTopology.Proofs.Action

/-!
# What actions put on a target

An action emits some bytes if on every target without bounds it puts exactly
these bytes, counts them and returns a certain value.  Emissions go one behind
the other like the actions do, so the emission of a record is that of its
fields.
-/

namespace PackedTopology

namespace Writer

/-- A writer after it put some bytes and counted them. -/
def after (writer : Writer) (bytes : List UInt8) : Writer :=
  { writer.take bytes with counted := writer.counted + bytes.length }

@[simp] theorem medium_after (writer : Writer) (bytes : List UInt8) :
    (writer.after bytes).medium = writer.medium :=
  rfl

@[simp] theorem counted_after (writer : Writer) (bytes : List UInt8) :
    (writer.after bytes).counted = writer.counted + bytes.length :=
  rfl

@[simp] theorem content_after (writer : Writer) (bytes : List UInt8) :
    (writer.after bytes).content = writer.content ++ bytes :=
  content_take writer bytes

@[simp] theorem content_empty (medium : Medium) : (empty medium).content = [] :=
  rfl

theorem after_nil (writer : Writer) : writer.after [] = writer := by
  simp [after, take]

theorem after_after (writer : Writer) (left right : List UInt8) :
    (writer.after left).after right = writer.after (left ++ right) := by
  have htaken : writer.taken ++ left ++ right =
      writer.taken ++ (left ++ right) := by
    apply Array.toList_inj.mp
    simp
  simp [after, take, Nat.add_assoc, htaken]

/-- On a target without bounds the action puts these bytes and no others. -/
def Emits {α : Type} (action : Action Writer α) (bytes : List UInt8)
    (value : α) : Prop :=
  ∀ writer : Writer, writer.medium = .unbounded →
    action.step writer = (.ok value, writer.after bytes)

variable {α β : Type} {left right bytes : List UInt8}

theorem emits_pure (value : α) :
    Emits (pure value : Action Writer α) [] value := by
  intro writer _
  rw [Action.step_pure, after_nil]

theorem emits_putBytes (bytes : List UInt8) : Emits (putBytes bytes) bytes () := by
  intro writer hmedium
  simp [putBytes, hmedium, Medium.fitting, Medium.room, after]

theorem emits_put [Field α] (value : α) :
    Emits (put value) (Field.bytes value) () :=
  emits_putBytes (Field.bytes value)

namespace Emits

theorem bind {first : Action Writer α} {next : α → Action Writer β}
    {value : α} {result : β}
    (hfirst : Emits first left value)
    (hnext : Emits (next value) right result) :
    Emits (first >>= next) (left ++ right) result := by
  intro writer hmedium
  have hafter : (writer.after left).medium = .unbounded :=
    (medium_after writer left).trans hmedium
  rw [Action.step_bind_of_ok (hfirst writer hmedium), hnext _ hafter,
    after_after]

theorem bind_pure {first : Action Writer α} {result : α → β} {value : α}
    (hfirst : Emits first bytes value) :
    Emits (first >>= fun found => pure (result found)) bytes
      (result value) := by
  have hboth :
      Emits (first >>= fun found => pure (result found)) (bytes ++ [])
        (result value) :=
    hfirst.bind (emits_pure (result value))
  rwa [List.append_nil] at hboth

theorem map {action : Action Writer α} {value : α}
    (haction : Emits action bytes value) (change : α → β) :
    Emits (change <$> action) bytes (change value) := by
  rw [map_eq_pure_bind]
  exact haction.bind_pure

theorem measured {action : Action Writer Unit}
    (haction : Emits action bytes ()) :
    Emits (measured action) bytes bytes.length := by
  intro writer hmedium
  have hbefore : (get : Action Writer Writer).step writer =
      (.ok writer, writer) := rfl
  have hafter : (get : Action Writer Writer).step (writer.after bytes) =
      (.ok (writer.after bytes), writer.after bytes) := rfl
  rw [Writer.measured, Action.step_bind_of_ok hbefore,
    Action.step_bind_of_ok (haction writer hmedium),
    Action.step_bind_of_ok hafter, Action.step_pure, counted_after,
    Nat.add_sub_cancel_left]

end Emits

theorem emits_forM {put : α → Action Writer Unit} {stored : α → List UInt8}
    (hput : ∀ value, Emits (put value) (stored value) ()) (values : List α) :
    Emits (values.forM put) (values.flatMap stored) () := by
  induction values with
  | nil => exact emits_pure ()
  | cons value values ih =>
      rw [List.flatMap_cons]
      exact (hput value).bind ih

theorem emits_putWords (words : List UInt32) :
    Emits (WordSink.putWords words) (words.flatMap Field.bytes) () := by
  induction words with
  | nil => exact emits_pure ()
  | cons word words ih =>
      rw [List.flatMap_cons]
      exact (emits_put word).bind ih

end Writer

end PackedTopology
