import PageVault.Page.Calls
import PageVault.Proofs.Opened

/-!
# What a codec remembers cannot be seen

A codec keeps two things between calls: the parameters of the pages used last, and
the buffer it encodes in.  The remembered parameters are always those that would be
derived again (`KeyCache.Remembers`), whatever was requested, found or dropped
before; and the buffer is emptied before it is used.  So the answer to a call is a
function of the parts of the codec that no call changes (`Handler.answer`).

§1 the cache · §2 the codec · §3 what a call answers · §4 what a call leaves ·
§5 sequences of calls · §6 open files.
-/

namespace PageVault

/-! ## §1  The cache -/

namespace KeyCache

variable {α : Type} {cache : KeyCache α} {f : UInt32 → α} {page : UInt32}

/-- Every remembered value is the one that `f` gives for its page. -/
def Remembers (cache : KeyCache α) (f : UInt32 → α) : Prop :=
  ∀ e ∈ cache.entries, e.2 = f e.1

theorem remembers_empty (f : UInt32 → α) : (empty : KeyCache α).Remembers f := by
  intro e he
  cases he

theorem Remembers.eq_of_find? {a : α} (h : cache.Remembers f) (ha : cache.find? page = some a) :
    a = f page := by
  obtain ⟨before, after, he, -⟩ := List.lookup_eq_some_iff.mp ha
  have hm : (page, a) ∈ cache.entries := by
    rw [he]
    exact List.mem_append_right _ List.mem_cons_self
  exact h _ hm

/-- Whether it is found or computed, and whatever is dropped for it, the value put in
front is the one of its page. -/
theorem Remembers.touch (h : cache.Remembers f) (page : UInt32) :
    (cache.touch page (f page)).Remembers f := by
  intro e he
  rcases mem_entries_touch he with rfl | ⟨he, -⟩
  · rfl
  · exact h e he

/-- **A request is answered by the function**, found or computed. -/
theorem Remembers.value_getOrCompute (h : cache.Remembers f) (page : UInt32) :
    (cache.getOrCompute page fun _ => f page).value = f page := by
  unfold getOrCompute
  cases hf : cache.find? page with
  | none => rfl
  | some a => exact h.eq_of_find? hf

theorem Remembers.cache_getOrCompute (h : cache.Remembers f) (page : UInt32) :
    (cache.getOrCompute page fun _ => f page).cache = cache.touch page (f page) := by
  unfold getOrCompute
  cases hf : cache.find? page with
  | none => rfl
  | some a =>
      have ha := h.eq_of_find? hf
      subst ha
      rfl

theorem Remembers.getOrCompute (h : cache.Remembers f) (page : UInt32) :
    (cache.getOrCompute page fun _ => f page).cache.Remembers f := by
  rw [h.cache_getOrCompute]
  exact h.touch page

end KeyCache

/-! ## §2  The codec -/

namespace Codec

variable {c : Codec}

/-- The codec as if no page had been coded with it yet. -/
def forget (c : Codec) : Codec :=
  .fresh c.scheme c.keys c.transform c.lastPage

/-- What a codec remembers is right. -/
def Sound (c : Codec) : Prop :=
  c.cache.Remembers c.keys.params

/-- A transformed page, with parameters that are derived for it. -/
def transformed (c : Codec) (direction : Direction) (page : UInt32) (data : Bytes) :
    Except Error Bytes :=
  c.transform.apply direction (c.keys.params page) data

theorem sound_fresh (scheme : Scheme) (keys : PageKeys) (transform : PageTransform)
    (lastPage : UInt32) : (fresh scheme keys transform lastPage).Sound :=
  KeyCache.remembers_empty _

theorem apply_fst (h : c.Sound) (direction : Direction) (page : UInt32) (data : Bytes) :
    (c.apply direction page data).1 = c.transformed direction page data := by
  show c.transform.apply direction
    (c.cache.getOrCompute page fun _ => c.keys.params page).value data = _
  rw [h.value_getOrCompute]
  rfl

/-- The buffer is emptied first, so it does not matter what was left in it; a page
that is transformed is what the buffer holds afterwards. -/
theorem encodeInScratch_fst (c : Codec) (page : UInt32) (data : Bytes) :
    (c.encodeInScratch page data).1 = (c.apply .encrypt page data).1 := by
  unfold encodeInScratch
  rw [List.take_zero, List.nil_append]
  -- A success is read off the buffer it was just written to.
  show Except.map _ (InPlace.ofTransform data (c.apply .encrypt page data).1).outcome = _
  cases (c.apply .encrypt page data).1 with
  | error e => rfl
  | ok b => rfl

end Codec

/-! ## §3  What a call answers -/

namespace Handler

variable {h : Handler}

/-- The handler as if no call had been put to it yet. -/
def forget : Handler → Handler
  | plain => plain
  | coded c => coded c.forget

/-- What a handler remembers is right. -/
def Sound : Handler → Prop
  | plain => True
  | coded c => c.Sound

/-- The page as it is stored, or as it reads, with parameters that are derived for
it; a page that is not encoded is the same in both. -/
def transformed (h : Handler) (direction : Direction) (page : UInt32) (data : Bytes) :
    Except Error Bytes :=
  match h with
  | plain => .ok data
  | coded c => if c.isEncoded page then c.transformed direction page data else .ok data

theorem transformed_coded (c : Codec) (direction : Direction) (page : UInt32) (data : Bytes) :
    (coded c).transformed direction page data
      = if c.isEncoded page then c.transformed direction page data else .ok data := rfl

/-- What decoding a page leaves behind. -/
def decoded (h : Handler) (page : UInt32) (buffer : Bytes) : InPlace :=
  .ofTransform buffer (h.transformed .decrypt page buffer)

/-- What decoding a page to another buffer leaves behind. -/
def decodedInto (h : Handler) (page : UInt32) (input output : Bytes) : InPlace :=
  if output.length < input.length then
    ⟨.error (.format (.outputTooShort output.length input.length)), output⟩
  else
    ⟨(h.decoded page input).outcome, (h.decoded page input).buffer ++ output.drop input.length⟩

/-- What encoding a page gives. -/
def encoded (h : Handler) (page : UInt32) (data : Bytes) (offset : Nat) : Except Error Bytes :=
  if h.isEncoded page = true ∧ data.length < offset then
    .error (.format (.offsetPastPage offset data.length))
  else h.transformed .encrypt page data

/-- The answer to a call, as it follows from what no call changes. -/
def answer (h : Handler) : Call → Answer
  | .decode page buffer => .decoded (h.decoded page buffer)
  | .decodeInto page input output => .decoded (h.decodedInto page input output)
  | .encode page data offset => .encoded (h.encoded page data offset)

theorem decode_fst (hs : h.Sound) (page : UInt32) (buffer : Bytes) :
    (h.decode page buffer).1 = h.decoded page buffer := by
  cases h with
  | plain => rfl
  | coded c =>
      unfold decode decoded transformed
      by_cases he : c.isEncoded page = true
      · simp only [he, if_true]
        rw [Codec.apply_fst hs]
      · simp only [he]
        rfl

theorem decodeInto_fst (hs : h.Sound) (page : UInt32) (input output : Bytes) :
    (h.decodeInto page input output).1 = h.decodedInto page input output := by
  unfold decodeInto decodedInto
  split
  · rfl
  · rw [← decode_fst hs]

theorem encode_fst (hs : h.Sound) (page : UInt32) (data : Bytes) (offset : Nat) :
    (h.encode page data offset).1 = h.encoded page data offset := by
  cases h with
  | plain => rfl
  | coded c =>
      unfold encode encoded transformed isEncoded
      by_cases he : c.isEncoded page = true
      · by_cases ho : data.length < offset
        · simp [he, ho]
        · simp only [he, ho, and_false, if_true, if_false]
          rw [Codec.encodeInScratch_fst, Codec.apply_fst hs]
      · simp [he]

/-- **A call is answered as if it were the first.** -/
theorem perform_fst (hs : h.Sound) (call : Call) : (h.perform call).1 = h.answer call := by
  cases call with
  | decode page buffer => exact congrArg Answer.decoded (decode_fst hs page buffer)
  | decodeInto page input output =>
      exact congrArg Answer.decoded (decodeInto_fst hs page input output)
  | encode page data offset => exact congrArg Answer.encoded (encode_fst hs page data offset)

/-! ## §4  What a call leaves -/

/-- What a call can do to a handler: nothing, or have it request a page of its cache
and put something else in its buffer. -/
inductive Step : Handler → Handler → Prop
  | stay (h : Handler) : Step h h
  | request (c : Codec) (page : UInt32) (scratch : Bytes) :
      Step (coded c) (coded { c with
        cache := (c.cache.getOrCompute page fun _ => c.keys.params page).cache
        scratch := scratch })

theorem step_decode (h : Handler) (page : UInt32) (buffer : Bytes) :
    h.Step (h.decode page buffer).2 := by
  cases h with
  | plain => exact .stay plain
  | coded c =>
      unfold decode
      by_cases he : c.isEncoded page = true
      · simp only [he, if_true]
        exact .request c page c.scratch
      · simp only [he]
        exact .stay (coded c)

theorem step_encode (h : Handler) (page : UInt32) (data : Bytes) (offset : Nat) :
    h.Step (h.encode page data offset).2 := by
  cases h with
  | plain => exact .stay plain
  | coded c =>
      unfold encode
      by_cases he : c.isEncoded page = true
      · by_cases ho : data.length < offset
        · simp only [he, ho, if_true]
          exact .stay (coded c)
        · simp only [he, ho, if_true, if_false]
          exact .request c page _
      · simp only [he]
        exact .stay (coded c)

theorem step_perform (h : Handler) (call : Call) : h.Step (h.perform call).2 := by
  cases call with
  | decode page buffer => exact step_decode h page buffer
  | decodeInto page input output =>
      show h.Step (h.decodeInto page input output).2
      unfold decodeInto
      split
      · exact .stay h
      · exact step_decode h page input
  | encode page data offset => exact step_encode h page data offset

/-- **What a handler remembers stays right**, also when the call fails. -/
theorem Step.sound {h' : Handler} (step : h.Step h') (hs : h.Sound) : h'.Sound := by
  cases step with
  | stay => exact hs
  | request c page scratch => exact KeyCache.Remembers.getOrCompute hs page

/-- **A call changes nothing but what is remembered.** -/
theorem Step.forget {h' : Handler} (step : h.Step h') : h'.forget = h.forget := by
  cases step with
  | stay => rfl
  | request c page scratch => rfl

/-! ## §5  Sequences of calls -/

/-- An answer depends on nothing but what no call changes. -/
theorem answer_forget (h : Handler) : h.forget.answer = h.answer := by
  cases h with
  | plain => rfl
  | coded c => rfl

theorem sound_after (hs : h.Sound) (calls : List Call) : (h.after calls).Sound := by
  induction calls generalizing h with
  | nil => exact hs
  | cons call calls ih => exact ih ((step_perform h call).sound hs)

theorem forget_after (h : Handler) (calls : List Call) : (h.after calls).forget = h.forget := by
  induction calls generalizing h with
  | nil => rfl
  | cons call calls ih =>
      rw [after_cons, ih]
      exact (step_perform h call).forget

/-- Calls put earlier do not change the answer to a later one. -/
theorem answer_after (h : Handler) (calls : List Call) : (h.after calls).answer = h.answer := by
  rw [← answer_forget, forget_after, answer_forget]

theorem decode_after (hs : h.Sound) (calls : List Call) (page : UInt32) (buffer : Bytes) :
    ((h.after calls).decode page buffer).1 = h.decoded page buffer := by
  rw [decode_fst (sound_after hs calls)]
  exact Answer.decoded.inj (congrFun (answer_after h calls) (.decode page buffer))

theorem decodeInto_after (hs : h.Sound) (calls : List Call) (page : UInt32)
    (input output : Bytes) :
    ((h.after calls).decodeInto page input output).1 = h.decodedInto page input output := by
  rw [decodeInto_fst (sound_after hs calls)]
  exact Answer.decoded.inj (congrFun (answer_after h calls) (.decodeInto page input output))

theorem encode_after (hs : h.Sound) (calls : List Call) (page : UInt32) (data : Bytes)
    (offset : Nat) : ((h.after calls).encode page data offset).1 = h.encoded page data offset := by
  rw [encode_fst (sound_after hs calls)]
  exact Answer.encoded.inj (congrFun (answer_after h calls) (.encode page data offset))

/-- **Every call of a sequence is answered as if it were the first.** -/
theorem run_fst (hs : h.Sound) (calls : List Call) : (h.run calls).1 = calls.map h.answer := by
  induction calls generalizing h with
  | nil => rfl
  | cons call calls ih =>
      -- `Sound` carries the induction; the rest is put to another handler, but one that
      -- answers as `h` does.
      have hrest : (h.perform call).2.answer = h.answer := answer_after h [call]
      rw [run_cons, ih ((step_perform h call).sound hs), perform_fst hs call, hrest, List.map_cons]

/-! ## §6  Open files -/

theorem Opened.sound (ho : h.Opened) : h.Sound := by
  rcases ho.issued with rfl | ⟨c, rfl, hc⟩
  · trivial
  · show c.Sound
    rw [hc.eq_fresh]
    exact Codec.sound_fresh _ _ _ _

/-- **History independence.**  Whatever calls are put to the handler of a file that
was just opened, in any order and whether they succeed or fail, each of them is
answered as the same call is if it is the first. -/
theorem Opened.run_eq_map_perform (ho : h.Opened) (calls : List Call) :
    (h.run calls).1 = calls.map fun call => (h.perform call).1 := by
  have hfirst : (fun call => (h.perform call).1) = h.answer := by
    funext call
    exact perform_fst ho.sound call
  rw [hfirst]
  exact run_fst ho.sound calls

/-- Six pages, one more than the cache holds, with a call that fails, then the page
that was dropped. -/
theorem Opened.run_eq_map_perform_jet :
    let h := coded (.fresh .jet (.jet ⟨[1, 2, 3, 4]⟩) .stream lastJetPage)
    let calls : List Call :=
      [.decode 1 [5, 6], .encode 2 [7] 0, .encode 3 [] 1, .decodeInto 4 [8, 9] [0, 0, 0],
        .decode 5 [], .encode 6 [1, 2, 3] 3, .decodeInto 7 [1] [], .decode 8 [4], .encode 1 [5] 0]
    h.Opened ∧ (h.run calls).1 = calls.map fun call => (h.perform call).1 := by
  intro h calls
  have ho : h.Opened := opened_jet rfl rfl
  exact ⟨ho, ho.run_eq_map_perform calls⟩

end Handler

end PageVault
