import PageVault.Proofs.Cipher.InPlace
import PageVault.Proofs.Keys.Unlocking

/-!
# Decoding to another buffer

A page is decoded to another buffer in three steps: the room for it is tested, the page is
copied to the front of the buffer, and the front is decoded where it stands.  When the last
step fails the second one has been made, and what stands in the buffer then depends on how far
the cipher came.  `Handler.decodeIntoBySteps` is the call with these steps, on a buffer that
keeps what was written to it.

It is what `decodeInto` says (`decodeIntoBySteps_eq`), and to the host it is a call to decode
a copy of the page: the same outcome, the same handler afterwards, and in the front of the
buffer the decoded page or, if it could not be decoded, the page as it was
(`decodeInto_as_decode`).

§1 steps on the front of a buffer · §2 decoding by steps · §3 the two calls.
-/

namespace PageVault

/-! ## §1  Steps on the front of a buffer -/

namespace OnBuffer

/-- A step that is given the first `n` bytes of the buffer alone. -/
def onFront {α : Type} (n : Nat) (m : OnBuffer α) : OnBuffer α :=
  fun b => ((m (b.take n)).1, (m (b.take n)).2 ++ b.drop n)

variable {b : Bytes}

theorem call_onFront (n : Nat) (m : OnBuffer Unit) (b : Bytes) :
    (m.onFront n).call b
      = ⟨(m.call (b.take n)).outcome, (m.call (b.take n)).buffer ++ b.drop n⟩ := rfl

theorem call_write_bind (f : Bytes → Bytes) (k : Unit → OnBuffer Unit) (b : Bytes) :
    (write f >>= k).call b = (k ()).call (f b) := rfl

/-- Bytes copied over a buffer of their own length are all that it holds. -/
theorem overwrite_zero {piece : Bytes} (h : b.length = piece.length) :
    Bytes.overwrite 0 piece b = piece := by
  rw [Bytes.overwrite, List.take_zero, List.nil_append, Nat.zero_add, ← h, List.drop_length,
    List.append_nil]

end OnBuffer

/-! ## §2  Decoding by steps -/

/-- The steps of a transformation. -/
def PageTransform.steps (t : PageTransform) (direction : Direction) (params : PageParams) :
    OnBuffer Unit :=
  match t with
  | stream => .write (Pass.keystream.sweep (Rc4.ofKey params.key))
  | block spec => spec.steps direction params.key params.iv

theorem PageTransform.call_steps (t : PageTransform) (direction : Direction)
    (params : PageParams) (b : Bytes) :
    (t.steps direction params).call b = .ofTransform b (t.apply direction params b) := by
  cases t with
  | stream => exact congrArg (InPlace.mk (.ok ())) (Pass.sweep_keystream _ b)
  | block spec => exact spec.inPlace_eq direction params.key params.iv b

/-- A transformed page has the length that it had. -/
theorem PageTransform.length_of_apply {t : PageTransform} {direction : Direction}
    {params : PageParams} {b out : Bytes} (h : t.apply direction params b = .ok out) :
    out.length = b.length := by
  cases t with
  | stream =>
      cases h
      exact Rc4.length_crypt _ b
  | block spec => exact CipherSpec.length_of_transform_eq_ok h

namespace Handler

/-- The steps that decode a page, and the handler afterwards.  The parameters of the page are
fetched before the buffer is looked at. -/
def decodeSteps (h : Handler) (page : UInt32) : OnBuffer Unit × Handler :=
  match h with
  | plain => (.pure (), h)
  | coded c =>
      if c.isEncoded page then
        let fetched := c.cache.getOrCompute page fun _ => c.keys.params page
        (c.transform.steps .decrypt fetched.value, coded { c with cache := fetched.cache })
      else (.pure (), h)

/-- Decodes a page to the front of another buffer, step by step. -/
def decodeIntoBySteps (h : Handler) (page : UInt32) (input output : Bytes) :
    InPlace × Handler :=
  if output.length < input.length then
    (⟨.error (.format (.outputTooShort output.length input.length)), output⟩, h)
  else
    let (decoding, h') := h.decodeSteps page
    let steps : OnBuffer Unit := do
      .write (Bytes.overwrite 0 input)
      decoding
    ((steps.onFront input.length).call output, h')

variable {h : Handler} {page : UInt32}

/-- **Decoding in place by steps is what `decode` says.** -/
theorem decodeSteps_eq (h : Handler) (page : UInt32) (buffer : Bytes) :
    ((h.decodeSteps page).1.call buffer, (h.decodeSteps page).2) = h.decode page buffer := by
  cases h with
  | plain => rfl
  | coded c =>
      unfold decodeSteps decode
      by_cases he : c.isEncoded page = true
      · simp only [he, if_true]
        rw [PageTransform.call_steps]
        rfl
      · simp only [he]
        rfl

/-- **Decoding to another buffer by steps is what `decodeInto` says.** -/
theorem decodeIntoBySteps_eq (h : Handler) (page : UInt32) (input output : Bytes) :
    h.decodeIntoBySteps page input output = h.decodeInto page input output := by
  unfold decodeIntoBySteps decodeInto
  by_cases hroom : output.length < input.length
  · rw [if_pos hroom, if_pos hroom]
  · have hfront : (output.take input.length).length = input.length :=
      List.length_take_of_le (Nat.not_lt.mp hroom)
    have hdecode := decodeSteps_eq h page input
    rw [if_neg hroom, if_neg hroom, ← hdecode]
    -- The page has been copied over the whole front when decoding begins.
    dsimp only
    rw [OnBuffer.call_onFront, OnBuffer.call_write_bind, OnBuffer.overwrite_zero hfront]

/-! ## §3  The two calls -/

/-- Decoding in place leaves a page as long as the one it met, or that page itself. -/
theorem decode_cases (h : Handler) (page : UInt32) (buffer : Bytes) :
    (∃ plain, plain.length = buffer.length ∧ (h.decode page buffer).1 = ⟨.ok (), plain⟩)
      ∨ ∃ e, (h.decode page buffer).1 = ⟨.error e, buffer⟩ := by
  cases h with
  | plain => exact Or.inl ⟨buffer, rfl, rfl⟩
  | coded c =>
      unfold decode
      by_cases he : c.isEncoded page = true
      · simp only [he, if_true]
        cases hr : (c.apply .decrypt page buffer).1 with
        | error e => exact Or.inr ⟨e, rfl⟩
        | ok plain => exact Or.inl ⟨plain, PageTransform.length_of_apply hr, rfl⟩
      · simp only [he]
        exact Or.inl ⟨buffer, rfl, rfl⟩

theorem decodeInto_of_le {input output : Bytes} (hroom : input.length ≤ output.length) :
    h.decodeInto page input output
      = (⟨(h.decode page input).1.outcome,
          (h.decode page input).1.buffer ++ output.drop input.length⟩,
        (h.decode page input).2) :=
  if_neg (Nat.not_lt.mpr hroom)

/-- **Decoding to another buffer is decoding a copy.**  In whatever state a handler is, and by
the steps that the call takes: if the buffer has no room for the page, the call says so and
changes neither the buffer nor the handler.  Otherwise it ends as decoding a copy of the page
ends, with the same handler, which answers every later call alike.  Behind the page the buffer
is as it was.  Before that it holds the decoded page, or the page as it was given if it could
not be decoded; never a page that is decoded in part. -/
theorem decodeInto_as_decode (s : Handler) (page : UInt32) (input output : Bytes) :
    let into := s.decodeIntoBySteps page input output
    let alone := s.decode page input
    (output.length < input.length →
        into = (⟨.error (.format (.outputTooShort output.length input.length)), output⟩, s))
      ∧ (input.length ≤ output.length →
        into.1.outcome = alone.1.outcome
          ∧ into.2 = alone.2
          ∧ into.1.buffer.drop input.length = output.drop input.length
          ∧ (into.1.outcome = .ok () → into.1.buffer.take input.length = alone.1.buffer)
          ∧ ∀ e, into.1.outcome = .error e → into.1.buffer.take input.length = input)
      ∧ into = s.decodeInto page input output := by
  intro into alone
  have hinto : into = s.decodeInto page input output := decodeIntoBySteps_eq s page input output
  refine ⟨?_, ?_, hinto⟩
  · intro hshort
    rw [hinto]
    exact if_pos hshort
  · intro hroom
    have halone : into = (⟨alone.1.outcome, alone.1.buffer ++ output.drop input.length⟩, alone.2) :=
      hinto.trans (decodeInto_of_le hroom)
    have hlen : alone.1.buffer.length = input.length := by
      rcases s.decode_cases page input with ⟨plain, hl, hd⟩ | ⟨e, hd⟩
      · rw [show alone.1 = _ from hd]
        exact hl
      · rw [show alone.1 = _ from hd]
    rw [halone]
    refine ⟨rfl, rfl, List.drop_left' hlen, fun _ => List.take_left' hlen, ?_⟩
    intro e he
    rcases s.decode_cases page input with ⟨plain, -, hd⟩ | ⟨e', hd⟩
    · rw [show alone.1 = _ from hd] at he
      cases he
    · show (alone.1.buffer ++ output.drop input.length).take input.length = input
      rw [List.take_left' hlen, show alone.1 = _ from hd]

/-- A page that is decoded in the front of a larger buffer, one with a part of a block, which
is copied there and not decoded, and one that there is no room for. -/
theorem decodeInto_as_decode_standard :
    let jet := coded (.fresh .jet (.jet ⟨[1, 2, 3, 4]⟩) .stream lastJetPage)
    let standard := coded (.fresh .officeStandard (.standard (uncheckedLock.keysOf []))
      (.block .aesEcb) lastOfficePage)
    let part : Bytes := List.replicate 15 7
    (jet.decodeIntoBySteps 1 [5, 6] [0, 0, 9]).1.buffer = (jet.decode 1 [5, 6]).1.buffer ++ [9]
      ∧ (standard.decodeIntoBySteps 2 part (List.replicate 17 1)).1.buffer = part ++ [1, 1]
      ∧ (jet.decodeIntoBySteps 1 [5, 6] [0]).2 = jet := by
  intro jet standard part
  refine ⟨?_, ?_, ?_⟩
  · obtain ⟨-, hroom, -⟩ := decodeInto_as_decode jet 1 [5, 6] [0, 0, 9]
    obtain ⟨hout, -, htail, hfront, -⟩ := hroom (by decide)
    rw [← hfront (hout.trans rfl)]
    exact (List.take_append_drop 2 _).symm.trans (congrArg _ htail)
  · obtain ⟨-, hroom, -⟩ := decodeInto_as_decode standard 2 part (List.replicate 17 1)
    obtain ⟨hout, -, htail, -, hfront⟩ := hroom (by decide)
    have hfail : (standard.decode 2 part).1.outcome
        = .error (.format (.partialBlock 15 .aes)) := rfl
    calc (standard.decodeIntoBySteps 2 part (List.replicate 17 1)).1.buffer
        = _ ++ _ := (List.take_append_drop 15 _).symm
      _ = part ++ [1, 1] := congrArg₂ _ (hfront _ (hout.trans hfail)) htail
  · obtain ⟨hshort, -, -⟩ := decodeInto_as_decode jet 1 [5, 6] [0]
    rw [hshort (by decide)]

end Handler

end PageVault
