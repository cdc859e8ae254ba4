import PackedTopology.Proofs.Packing
import PackedTopology.Proofs.Unpacking

/-!
# Room in the queue of bits

The queue of bits is one 64-bit number, and each step moves at most one word
in or out of it.  That is enough in every round of packing and unpacking:
fewer bits than those of a word are carried from one round to the next, so a
field or a word more never reaches the sixty-fourth bit, one word taken out
makes room again, and one word taken in makes up a field.  No step drops a bit
or takes out more than is held, whatever the width of the fields and however
many rounds there are.
-/

namespace PackedTopology

variable {width : ℕ}

namespace BitQueue

variable {queue : BitQueue}

/-- What is carried from one round to the next: fewer bits than those of a
word and none above them, so that they are a whole word when they are padded. -/
structure CarriesLess (queue : BitQueue) : Prop where
  held_le : queue.held ≤ 31
  bits_lt : queue.bits.toNat < 2 ^ queue.held
  padded_eq : queue.bits.toUInt32.toNat = queue.bits.toNat

/-- A field enters whole: it is shifted by less than the queue is wide, it is
moved above the live bits with all its own, and all of them are live then. -/
structure KeepsAppended (queue : BitQueue) (value : UInt32) (width : ℕ) :
    Prop where
  shift_lt : queue.held < 64
  shifted_eq : (value.toUInt64 <<< UInt64.ofNat queue.held).toNat =
    value.toNat * 2 ^ queue.held
  bits_eq : (queue.append value width).bits.toNat =
    queue.bits.toNat + 2 ^ queue.held * value.toNat
  held_eq : (queue.append value width).held = queue.held + width
  held_le : (queue.append value width).held ≤ 63
  bits_lt : (queue.append value width).bits.toNat <
    2 ^ (queue.append value width).held

/-- A word leaves whole: it is taken out of as many live bits at least, and it
and the bits that stay are those that were there. -/
structure KeepsTaken (queue : BitQueue) (word : UInt32) (rest : BitQueue) :
    Prop where
  taken : queue.takeWord = some (word, rest)
  word_le : 32 ≤ queue.held
  bits_eq : word.toNat + 2 ^ 32 * rest.bits.toNat = queue.bits.toNat
  held_eq : rest.held + 32 = queue.held

/-- A field leaves whole: its width is one the queue can be shifted by and not
more than what is held, and the field and the bits that stay are those that
were there. -/
structure KeepsExtracted (queue : BitQueue) (width : ℕ) : Prop where
  shift_lt : width < 64
  width_le : width ≤ queue.held
  held_le : queue.held ≤ 63
  bits_lt : queue.bits.toNat < 2 ^ queue.held
  bits_eq : (queue.extract width).1.toNat +
    2 ^ width * (queue.extract width).2.bits.toNat = queue.bits.toNat
  held_eq : (queue.extract width).2.held + width = queue.held
  rest_lt : (queue.extract width).2.bits.toNat <
    2 ^ (queue.extract width).2.held

theorem Settled.carriesLess (hsettled : queue.Settled) : queue.CarriesLess := by
  have hheld : queue.held < 32 := hsettled.held_lt
  have hword : queue.bits.toNat < 2 ^ 32 :=
    hsettled.bits_lt.trans (Nat.pow_lt_pow_right (by decide) hheld)
  refine ⟨Nat.le_of_lt_succ hheld, hsettled.bits_lt, ?_⟩
  rw [UInt64.toNat_toUInt32, Nat.mod_eq_of_lt hword]

theorem Settled.keepsAppended (hsettled : queue.Settled) {value : UInt32}
    (hvalue : value.toNat < 2 ^ width) (hwidth : width ≤ 32) :
    queue.KeepsAppended value width := by
  have hheld : queue.held < 32 := hsettled.held_lt
  exact
    { shift_lt := by omega
      shifted_eq := shifted_toNat hsettled hvalue hwidth
      bits_eq := append_bits_toNat hsettled hvalue hwidth
      held_eq := rfl
      held_le := by
        rw [append_held]
        omega
      bits_lt := append_bits_lt hsettled hvalue hwidth }

theorem exists_keepsTaken (hheld : 32 ≤ queue.held) :
    ∃ word rest, queue.KeepsTaken word rest := by
  obtain ⟨word, rest, htaken, hword, hbits, hrest⟩ := takeWord_of_le hheld
  refine ⟨word, rest, htaken, hheld, ?_, ?_⟩
  · rw [hword, hbits, Nat.mod_add_div]
  · rw [hrest, Nat.sub_add_cancel hheld]

theorem keepsExtracted (hwidth : width ≤ 32) (hle : width ≤ queue.held)
    (hheld : queue.held ≤ 63) (hbits : queue.bits.toNat < 2 ^ queue.held) :
    queue.KeepsExtracted width where
  shift_lt := by omega
  width_le := hle
  held_le := hheld
  bits_lt := hbits
  bits_eq := by
    rw [extract_fst_toNat hwidth, extract_snd_bits_toNat hwidth,
      Nat.mod_add_div]
  held_eq := by
    rw [extract_snd_held, Nat.sub_add_cancel hle]
  rest_lt := extract_bits_lt hwidth hle hbits

end BitQueue

namespace Segmentation

/-! ## Rounds of packing -/

theorem Packer.pushAll_settled {segments : ℕ}
    (hwidth : fieldWidth segments = .ok width) {ids : List UInt32}
    (hids : checkIds ids segments = .ok ()) {before : List UInt32}
    (hbefore : before <+: ids) : (pushAll width before).queue.Settled := by
  have hsmall : ∀ id ∈ before, id.toNat < 2 ^ width := fun id hid =>
    (checkIds_eq_ok_iff.mp hids id (hbefore.subset hid)).trans
      (lt_two_pow_fieldWidth hwidth)
  exact (pushAll_holds (fieldWidth_le hwidth) hsmall).settled

/-- A round of packing appends an id and takes out a word if there is one. -/
theorem Packer.queue_push (packer : Packer) (id : UInt32) :
    (packer.queue.append id width).held ≤ 31 ∧
        (packer.push width id).queue = packer.queue.append id width ∨
      ∃ word, (packer.queue.append id width).KeepsTaken word
        (packer.push width id).queue := by
  by_cases hheld : (packer.queue.append id width).held < wordBits
  · refine .inl ⟨Nat.le_of_lt_succ hheld, ?_⟩
    rw [push, BitQueue.takeWord_of_lt hheld]
  · obtain ⟨word, rest, hkeeps⟩ :=
      BitQueue.exists_keepsTaken (Nat.le_of_not_lt hheld)
    have hpush : (packer.push width id).queue = rest := by
      rw [push, hkeeps.taken]
    exact .inr ⟨word, hpush.symm ▸ hkeeps⟩

/-! ## Rounds of unpacking -/

section Source

variable {σ : Type} [WordSource σ]

/-- The rounds of a run come one after the other. -/
theorem Unpacker.run_add (done count : ℕ) (unpacker : Unpacker) :
    (run width (done + count) unpacker : Action σ Unpacker) =
      run width done unpacker >>= run width count := by
  induction done generalizing unpacker with
  | zero => rw [Nat.zero_add, run, pure_bind]
  | succ done ih =>
      rw [Nat.add_right_comm, run, run, bind_assoc]
      exact congrArg _ (funext fun ready => ih (ready.pull width))

/-- A field was at hand, or one word was taken in, and it was enough. -/
theorem Unpacker.queue_refill (hwidth : width ≤ 32) {unpacker ready : Unpacker}
    (hsettled : unpacker.queue.Settled) {source after : σ}
    (hrefill : (unpacker.refill width).step source = (.ok ready, after)) :
    (width ≤ unpacker.queue.held ∧ ready = unpacker ∨
        unpacker.queue.held < width ∧
          ∃ word, ready.queue = unpacker.queue.append word 32 ∧
            unpacker.queue.KeepsAppended word 32) ∧
      ready.queue.KeepsExtracted width ∧ (ready.pull width).queue.Settled := by
  have hless : unpacker.queue.held < 32 := hsettled.held_lt
  by_cases hheld : unpacker.queue.held < width
  · rw [refill, if_pos hheld, Action.step_bind] at hrefill
    rcases hword : (WordSource.nextWord .segmentationWords).step source with
      ⟨word | word, left⟩
    · simp [hword] at hrefill
    · simp only [hword, Action.step_pure, Prod.mk.injEq, Except.ok.injEq]
        at hrefill
      obtain ⟨rfl, -⟩ := hrefill
      have happended := hsettled.keepsAppended word.toNat_lt (le_refl 32)
      have hready : width ≤ unpacker.queue.held + 32 := by omega
      refine ⟨.inr ⟨hheld, word, rfl, happended⟩, ?_, ?_⟩
      · exact BitQueue.keepsExtracted hwidth hready happended.held_le
          happended.bits_lt
      · refine BitQueue.extract_settled hwidth happended.bits_lt hready ?_
        show unpacker.queue.held + 32 - width < 32
        omega
  · have hready : width ≤ unpacker.queue.held := Nat.le_of_not_lt hheld
    rw [refill, if_neg hheld] at hrefill
    obtain rfl := Except.ok.inj (Prod.mk.inj hrefill).1
    refine ⟨.inl ⟨hready, rfl⟩, ?_, ?_⟩
    · exact BitQueue.keepsExtracted hwidth hready (by omega) hsettled.bits_lt
    · exact BitQueue.extract_settled hwidth hsettled.bits_lt hready
        (Nat.sub_lt_of_lt hless)

theorem Unpacker.run_settled (hwidth : width ≤ 32) (done : ℕ)
    {unpacker reached : Unpacker} (hsettled : unpacker.queue.Settled)
    {source after : σ}
    (hrun : (run width done unpacker).step source = (.ok reached, after)) :
    reached.queue.Settled := by
  -- On the rounds: each one ends settled, whatever was taken in.
  induction done generalizing unpacker source with
  | zero =>
      obtain rfl := Except.ok.inj (Prod.mk.inj hrun).1
      exact hsettled
  | succ done ih =>
      rw [run, Action.step_bind] at hrun
      rcases hrefill : (unpacker.refill width).step source with
        ⟨fault | ready, left⟩
      · simp [hrefill] at hrun
      · rw [hrefill] at hrun
        exact ih (queue_refill hwidth hsettled hrefill).2.2 hrun

end Source

/-! ## Every round -/

/-- No round of packing or unpacking loses a bit of the queue, reaches its end
or takes more out of it than is there.  Packing appends every id whole, and at
most one word taken out leaves less than a word to carry on.  Unpacking goes on
from what its first rounds reach; its next round has a field at hand or takes in
one word whole, which is enough for the field that it takes out. -/
theorem queue_keeps_every_bit {segments : ℕ}
    (hwidth : fieldWidth segments = .ok width) :
    (∀ ids, checkIds ids segments = .ok () →
      (∀ before, before <+: ids →
        (Packer.pushAll width before).queue.CarriesLess) ∧
      ∀ before id, before ++ [id] <+: ids →
        (Packer.pushAll width before).queue.KeepsAppended id width ∧
          (((Packer.pushAll width before).queue.append id width).held ≤ 31 ∧
              (Packer.pushAll width (before ++ [id])).queue =
                (Packer.pushAll width before).queue.append id width ∨
            ∃ word,
              ((Packer.pushAll width before).queue.append id width).KeepsTaken
                word (Packer.pushAll width (before ++ [id])).queue)) ∧
    ∀ (σ : Type) [WordSource σ] (source reached : σ) (done : ℕ)
      (unpacker : Unpacker),
      (Unpacker.run width done .start).step source = (.ok unpacker, reached) →
        unpacker.queue.CarriesLess ∧
        (∀ count, (Unpacker.run width (done + count) .start).step source =
          (Unpacker.run width count unpacker).step reached) ∧
        ∀ (ready : Unpacker) (left : σ),
          (unpacker.refill width).step reached = (.ok ready, left) →
            (width ≤ unpacker.queue.held ∧ ready = unpacker ∨
              unpacker.queue.held < width ∧
                ∃ word, ready.queue = unpacker.queue.append word 32 ∧
                  unpacker.queue.KeepsAppended word 32) ∧
            ready.queue.KeepsExtracted width ∧
            ∀ count, (Unpacker.run width (count + 1) unpacker).step reached =
              (Unpacker.run width count (ready.pull width)).step left := by
  have hle := fieldWidth_le hwidth
  refine ⟨fun ids hids => ⟨?carried, ?packed⟩, ?unpacked⟩
  case carried =>
    intro before hbefore
    exact (Packer.pushAll_settled hwidth hids hbefore).carriesLess
  case packed =>
    intro before id hfront
    have hbefore : before <+: ids := (List.prefix_append before [id]).trans hfront
    have hid : id.toNat < segments :=
      checkIds_eq_ok_iff.mp hids id (hfront.subset (by simp))
    refine ⟨(Packer.pushAll_settled hwidth hids hbefore).keepsAppended
      (hid.trans (lt_two_pow_fieldWidth hwidth)) hle, ?_⟩
    rw [Packer.pushAll_append]
    exact Packer.queue_push _ id
  case unpacked =>
    intro σ _ source reached done unpacker hrun
    have hsettled := Unpacker.run_settled hle done BitQueue.empty_settled hrun
    refine ⟨hsettled.carriesLess, fun count => ?_, fun ready left hrefill => ?_⟩
    · rw [Unpacker.run_add, Action.step_bind_of_ok hrun]
    · obtain ⟨hqueue, hextracted, -⟩ :=
        Unpacker.queue_refill hle hsettled hrefill
      refine ⟨hqueue, hextracted, fun count => ?_⟩
      rw [Unpacker.run, Action.step_bind_of_ok hrefill]

/-- The eleventh of eleven fields of three bits straddles two words: packing
takes a word out after it, and unpacking takes one in before it. -/
theorem queue_keeps_every_bit_straddling :
    (checkIds [1, 2, 3, 4, 5, 6, 0, 1, 2, 3, 6] 7 = .ok () ∧
        (Packer.pushAll 3 [1, 2, 3, 4, 5, 6, 0, 1, 2, 3]).queue.held = 30 ∧
        (Packer.pushAll 3 [1, 2, 3, 4, 5, 6, 0, 1, 2, 3]).queue.KeepsAppended
          6 3) ∧
      ∃ unpacker ready : Unpacker,
        ((Unpacker.run 3 10 .start).step
            (WordCursor.mk #[2147483648, 4294967295] 0) =
              (.ok unpacker, ⟨#[2147483648, 4294967295], 1⟩) ∧
          (unpacker.refill 3).step ⟨#[2147483648, 4294967295], 1⟩ =
            (.ok ready, WordCursor.mk #[2147483648, 4294967295] 2)) ∧
        unpacker.queue.CarriesLess ∧ unpacker.queue.held = 2 ∧
        ready.queue.KeepsExtracted 3 ∧ ready.queue.held = 34 := by
  have hwidth : fieldWidth 7 = .ok 3 := by decide
  have hids : checkIds [1, 2, 3, 4, 5, 6, 0, 1, 2, 3, 6] 7 = .ok () := rfl
  have hrun : (Unpacker.run 3 10 .start).step
      (WordCursor.mk #[2147483648, 4294967295] 0) =
        (.ok ⟨#[0, 0, 0, 0, 0, 0, 0, 0, 0, 0], 1, ⟨2, 2⟩⟩,
          ⟨#[2147483648, 4294967295], 1⟩) := rfl
  obtain ⟨hpacking, hunpacking⟩ := queue_keeps_every_bit hwidth
  obtain ⟨hcarries, -, hround⟩ := hunpacking WordCursor _ _ 10 _ hrun
  have hrefill : (Unpacker.refill 3
      ⟨#[0, 0, 0, 0, 0, 0, 0, 0, 0, 0], 1, ⟨2, 2⟩⟩).step
        ⟨#[2147483648, 4294967295], 1⟩ =
      (.ok ⟨#[0, 0, 0, 0, 0, 0, 0, 0, 0, 0], 2, ⟨17179869182, 34⟩⟩,
        WordCursor.mk #[2147483648, 4294967295] 2) := rfl
  exact ⟨⟨hids, rfl, ((hpacking _ hids).2 _ _ (List.prefix_refl _)).1⟩,
    _, _, ⟨hrun, hrefill⟩, hcarries, rfl, (hround _ _ hrefill).2.1, rfl⟩

end Segmentation

end PackedTopology
