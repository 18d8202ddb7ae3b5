import PageVault.Page.Calls
import PageVault.Proofs.Checked.Office

/-!
# Page calls within bounds

A call takes the parameters of its page from the cache or makes them, and transforms the
page.  Nothing is asked of the handler, of what it remembers or of the buffers: a call
refines `Handler.perform` for all of them, and so do calls in a row.

§1 parameters · §2 the codec · §3 calls.
-/

namespace PageVault.Checked

/-! ## §1  Parameters -/

/-- The parameters of a page.  The keys of all schemes take the page number in four bytes
of a string that is made long enough for them. -/
def params (keys : PageKeys) (page : UInt32) : Checked PageParams :=
  match keys with
  | .jet keys => do
      let key ← withPageNumber 0 page keys.encodingKey
      return .ofKey key
  | .msisam keys => do
      let key ← withPageNumber Msisam.passwordDigestLength page keys.baseHash
      return .ofKey key
  | .standard keys => do
      let block ← withPageNumber 0 page keys.encodingKey
      let key ← standardKey keys.stretched block keys.keyLength
      return .ofKey key
  | .cryptoApi keys => do
      let block ← withPageNumber 0 page keys.encodingKey
      return .ofKey (keys.derive block)
  | .binaryDocument keys => do
      let block ← withPageNumber 0 page keys.encodingKey
      return .ofKey (keys.derive block)
  | .agile keys => do
      let block ← withPageNumber 0 page keys.encodingKey
      return ⟨keys.keyValue, some (keys.suite.vectorOf (keys.salt ++ block))⟩

theorem params_eq (keys : PageKeys) (page : UInt32) :
    params keys page = .ok (keys.params page) := by
  have hfront : 0 + 4 < 2 ^ 64 := by decide
  have hsalt : Msisam.passwordDigestLength + 4 < 2 ^ 64 := by decide
  cases keys with
  | jet keys | cryptoApi keys | binaryDocument keys | agile keys =>
      rw [params, withPageNumber_eq hfront, ok_bind]
      rfl
  | msisam keys =>
      rw [params, withPageNumber_eq hsalt, ok_bind]
      rfl
  | standard keys =>
      rw [params, withPageNumber_eq hfront, ok_bind, standardKey_eq, ok_bind]
      rfl

/-! ## §2  The codec -/

/-- The remembered value of a page, or else the one that a computation comes to. -/
def getOrCompute {α : Type} (cache : KeyCache α) (page : UInt32) (compute : Checked α) :
    Checked (KeyCache.Fetched α) :=
  match cache.find? page with
  | some a => .ok ⟨a, false, cache.touch page a⟩
  | none => do
      let a ← compute
      return ⟨a, true, cache.touch page a⟩

def transformPage (t : PageTransform) (direction : Direction) (params : PageParams)
    (page : Bytes) : Checked Bytes :=
  match t with
  | .stream => rc4Crypt params.key page
  | .block spec => transform spec direction params.key params.iv page

def apply (c : Codec) (direction : Direction) (page : UInt32) (data : Bytes) :
    Checked (Except Error Bytes × Codec) := do
  let fetched ← getOrCompute c.cache page (params c.keys page)
  let result ← outcome (transformPage c.transform direction fetched.value data)
  return (result, { c with cache := fetched.cache })

def encodeInScratch (c : Codec) (page : UInt32) (data : Bytes) :
    Checked (Except Error Bytes × Codec) := do
  let filled := c.scratch.take 0 ++ data
  let (result, c') ← apply c .encrypt page filled
  let written := InPlace.ofTransform filled result
  let c'' := { c' with scratch := written.buffer }
  return (written.outcome.map fun _ => c''.scratch, c'')

theorem getOrCompute_eq {α : Type} {compute : Checked α} {a : α} (h : compute = .ok a)
    (cache : KeyCache α) (page : UInt32) :
    getOrCompute cache page compute = .ok (cache.getOrCompute page fun _ => a) := by
  unfold getOrCompute KeyCache.getOrCompute
  cases cache.find? page with
  | some a' => rfl
  | none =>
      rw [h]
      rfl

theorem refines_transformPage (t : PageTransform) (direction : Direction) (params : PageParams)
    (page : Bytes) :
    Refines (transformPage t direction params page) (t.apply direction params page) := by
  cases t with
  | stream => exact rc4Crypt_eq _ _
  | block spec => exact refines_transform spec direction _ _ _

theorem apply_eq (c : Codec) (direction : Direction) (page : UInt32) (data : Bytes) :
    apply c direction page data = .ok (c.apply direction page data) := by
  unfold apply
  rw [getOrCompute_eq (params_eq c.keys page), ok_bind, (refines_transformPage _ _ _ _).outcome_eq,
    ok_bind]
  rfl

theorem encodeInScratch_eq (c : Codec) (page : UInt32) (data : Bytes) :
    encodeInScratch c page data = .ok (c.encodeInScratch page data) := by
  unfold encodeInScratch
  dsimp only
  rw [apply_eq, ok_bind]
  rfl

/-! ## §3  Calls -/

def decode (h : Handler) (page : UInt32) (buffer : Bytes) : Checked (InPlace × Handler) :=
  match h with
  | .plain => .ok (⟨.ok (), buffer⟩, .plain)
  | .coded c =>
      if c.isEncoded page then do
        let (result, c') ← apply c .decrypt page buffer
        return (.ofTransform buffer result, .coded c')
      else .ok (⟨.ok (), buffer⟩, .coded c)

/-- The front of the other buffer is cut off, if there is as much of it, and the page is
copied there. -/
def decodeInto (h : Handler) (page : UInt32) (input output : Bytes) :
    Checked (InPlace × Handler) :=
  match range? output 0 input.length with
  | none =>
      .ok (⟨.error (.format (.outputTooShort output.length input.length)), output⟩, h)
  | some front => do
      let copied ← copy front input
      let (decoded, h') ← decode h page copied
      return (⟨decoded.outcome, decoded.buffer ++ output.drop input.length⟩, h')

def encode (h : Handler) (page : UInt32) (data : Bytes) (offset : Nat) :
    Checked (Except Error Bytes × Handler) :=
  match h with
  | .plain => .ok (.ok data, .plain)
  | .coded c =>
      if c.isEncoded page then
        if data.length < offset then
          .ok (.error (.format (.offsetPastPage offset data.length)), .coded c)
        else do
          let (result, c') ← encodeInScratch c page data
          return (result, .coded c')
      else .ok (.ok data, .coded c)

def perform (h : Handler) : Call → Checked (Answer × Handler)
  | .decode page buffer => do
      let (result, h') ← decode h page buffer
      return (.decoded result, h')
  | .decodeInto page input output => do
      let (result, h') ← decodeInto h page input output
      return (.decoded result, h')
  | .encode page data offset => do
      let (result, h') ← encode h page data offset
      return (.encoded result, h')

def run (h : Handler) : List Call → Checked (List Answer × Handler)
  | [] => .ok ([], h)
  | call :: calls => do
      let (answer, h') ← perform h call
      let (answers, h'') ← run h' calls
      return (answer :: answers, h'')

theorem decode_eq (h : Handler) (page : UInt32) (buffer : Bytes) :
    decode h page buffer = .ok (h.decode page buffer) := by
  cases h with
  | plain => rfl
  | coded c =>
      unfold decode Handler.decode
      by_cases he : c.isEncoded page = true
      · simp only [he, if_true]
        rw [apply_eq, ok_bind]
        rfl
      · simp only [he]
        rfl

theorem decodeInto_eq (h : Handler) (page : UInt32) (input output : Bytes) :
    decodeInto h page input output = .ok (h.decodeInto page input output) := by
  unfold decodeInto Handler.decodeInto range?
  rcases Nat.lt_or_ge output.length input.length with hlt | hle
  · rw [if_neg (by omega), if_pos hlt]
  · have hcopy : (List.take (input.length - 0) (List.drop 0 output)).length = input.length :=
      List.length_take_of_le hle
    rw [if_pos ⟨Nat.zero_le _, hle⟩, if_neg (Nat.not_lt.mpr hle)]
    dsimp only
    rw [copy_eq hcopy, ok_bind, decode_eq, ok_bind]
    rfl

theorem encode_eq (h : Handler) (page : UInt32) (data : Bytes) (offset : Nat) :
    encode h page data offset = .ok (h.encode page data offset) := by
  cases h with
  | plain => rfl
  | coded c =>
      unfold encode Handler.encode
      by_cases he : c.isEncoded page = true
      · by_cases ho : data.length < offset
        · simp only [he, ho, if_true]
        · simp only [he, ho, if_true, if_false]
          rw [encodeInScratch_eq, ok_bind]
          rfl
      · simp only [he]
        rfl

/-- **A call keeps within its bounds.** -/
theorem perform_eq (h : Handler) (call : Call) : perform h call = .ok (h.perform call) := by
  cases call with
  | decode page buffer =>
      rw [perform, decode_eq, ok_bind]
      rfl
  | decodeInto page input output =>
      rw [perform, decodeInto_eq, ok_bind]
      rfl
  | encode page data offset =>
      rw [perform, encode_eq, ok_bind]
      rfl

/-- **Calls in a row keep within their bounds**, whatever handler they are put to. -/
theorem run_eq (h : Handler) (calls : List Call) : run h calls = .ok (h.run calls) := by
  induction calls generalizing h with
  | nil => rfl
  | cons call calls ih =>
      rw [run, perform_eq, ok_bind]
      dsimp only
      rw [ih, ok_bind]
      rfl

end PageVault.Checked
