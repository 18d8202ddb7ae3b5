import PageVault.Proofs.Checked.Step

/-!
# Fields within bounds

All that is known of a header has been read from a cursor, field after field, or cut from a
page at an offset.  How far a field reaches is a sum, and on a machine a sum that does not fit
its word is cut to the greatest number there is.  No buffer is that long, so what is cut lies
past the end either way, and the machine refuses just the fields that are not there
(`saturatingAdd_le_iff`).

A `Cursor` cannot stand past the end of its bytes; that is part of its type.  Here the steps of
the machine are taken with a position that nothing bounds (`FreeCursor`), so that staying within
the bytes is a fact about the steps.  They are what the readings of `Cursor` say, request by
request and in any sequence of requests, those that fail included.

§1 requests · §2 one request · §3 steps with a free position · §4 sequences · §5 the law of bounds.
-/

namespace PageVault

/-! ## §1  Requests -/

/-- What can be asked of a cursor. -/
inductive FieldRequest where
  | take (n : Nat) (field : String)
  | word16 (field : String)
  | word32 (field : String)
  | seek (position : Nat)
deriving DecidableEq

/-- What a request gives that succeeds. -/
inductive FieldAnswer where
  | bytes (b : Bytes)
  | word16 (n : UInt16)
  | word32 (n : UInt32)
  | moved
deriving DecidableEq

/-- The bytes that an answer stands for, as they were in the buffer. -/
def FieldAnswer.written : FieldAnswer → Bytes
  | bytes b => b
  | word16 n => Bytes.le16 n
  | word32 n => Bytes.le32 n
  | moved => []

namespace FieldRequest

def perform : FieldRequest → Reading FieldAnswer
  | take n field => do
      let b ← Reading.take n field
      return .bytes b
  | word16 field => do
      let n ← Reading.word16 field
      return .word16 n
  | word32 field => do
      let n ← Reading.word32 field
      return .word32 n
  | seek position => do
      Reading.seek position
      return .moved

/-- How many bytes are asked for. -/
def width : FieldRequest → Nat
  | take n _ => n
  | word16 _ => 2
  | word32 _ => 4
  | seek _ => 0

/-- Where the cursor has to stand afterwards. -/
def stop (r : FieldRequest) (position : Nat) : Nat :=
  match r with
  | seek position' => position'
  | _ => position + r.width

/-- Why a request is refused, in a buffer of this size. -/
def fault (r : FieldRequest) (size : Nat) : FormatFault :=
  match r with
  | take _ field => .truncated field
  | word16 field => .truncated field
  | word32 field => .truncated field
  | seek position => .seekPastEnd position size

/-- The answer that a request has where it finds these bytes: the bytes themselves, or the
number that is written there with its low byte first. -/
def Gives (r : FieldRequest) (found : Bytes) (a : FieldAnswer) : Prop :=
  match r with
  | take _ _ => a = .bytes found
  | word16 _ => ∃ n, a = .word16 n ∧ found = Bytes.le16 n
  | word32 _ => ∃ n, a = .word32 n ∧ found = Bytes.le32 n
  | seek _ => a = .moved

def isSeek : FieldRequest → Bool
  | seek _ => true
  | _ => false

/-! ## §2  One request -/

variable {c : Cursor} {r : FieldRequest}

/-- **A request that reaches past the end is refused**, and the cursor stays. -/
theorem perform_of_lt (h : c.data.length < r.stop c.position) :
    r.perform c = (.error (.format (r.fault c.data.length)), c) := by
  cases r with
  | take n field => exact Reading.bind_of_error (Reading.take_eq_error h)
  | word16 field =>
      exact Reading.bind_of_error (Reading.bind_of_error (Reading.take_eq_error h))
  | word32 field =>
      exact Reading.bind_of_error (Reading.bind_of_error (Reading.take_eq_error h))
  | seek position => exact Reading.bind_of_error (dif_neg (Nat.not_le.mpr h))

theorem length_take_remaining {n : Nat} (h : c.position + n ≤ c.data.length) :
    (c.remaining.take n).length = n := by
  rw [List.length_take, Cursor.length_remaining]
  omega

/-- **A request that does not reach past the end succeeds** with what it finds, and the cursor
stands behind that. -/
theorem perform_of_le (h : r.stop c.position ≤ c.data.length) :
    ∃ a, r.perform c = (.ok a, ⟨c.data, r.stop c.position, h⟩)
      ∧ r.Gives (c.remaining.take r.width) a := by
  cases r with
  | take n field =>
      exact ⟨_, Reading.bind_of_ok (Reading.take_eq_ok h), rfl⟩
  | word16 field =>
      refine ⟨_, Reading.bind_of_ok (Reading.bind_of_ok (Reading.take_eq_ok h)), _, rfl, ?_⟩
      exact (Bytes.le16_ofNat_toNatLE (length_take_remaining h)).symm
  | word32 field =>
      refine ⟨_, Reading.bind_of_ok (Reading.bind_of_ok (Reading.take_eq_ok h)), _, rfl, ?_⟩
      exact (Bytes.le32_ofNat_toNatLE (length_take_remaining h)).symm
  | seek position => exact ⟨_, Reading.bind_of_ok (dif_pos h), rfl⟩

/-- What was read stands for the bytes that were found. -/
theorem Gives.written_eq {found : Bytes} {a : FieldAnswer} (h : r.Gives found a)
    (hr : r.isSeek = false) : a.written = found := by
  cases r with
  | take n field =>
      cases h
      rfl
  | word16 field | word32 field =>
      obtain ⟨n, rfl, rfl⟩ := h
      rfl
  | seek position => cases hr

end FieldRequest

/-! ## §3  Steps with a free position -/

namespace Checked

/-- A byte string and a position that may be anywhere. -/
structure FreeCursor where
  data : Bytes
  position : Nat
deriving DecidableEq

namespace FreeCursor

def take (n : Nat) (field : String) (c : FreeCursor) : Checked Bytes × FreeCursor :=
  let stop := saturatingAdd c.position n
  if c.data.length < stop then (refuse (.truncated field), c)
  else (range c.data c.position stop, ⟨c.data, stop⟩)

def word16 (field : String) (c : FreeCursor) : Checked UInt16 × FreeCursor :=
  let (taken, c') := c.take 2 field
  (do
    let b ← taken
    let low ← byte b 0
    let high ← byte b 1
    return UInt16.ofNat (Bytes.toNatLE [low, high]), c')

def word32 (field : String) (c : FreeCursor) : Checked UInt32 × FreeCursor :=
  let (taken, c') := c.take 4 field
  (do
    let b ← taken
    let b₀ ← byte b 0
    let b₁ ← byte b 1
    let b₂ ← byte b 2
    let b₃ ← byte b 3
    return UInt32.ofNat (Bytes.toNatLE [b₀, b₁, b₂, b₃]), c')

def seek (position : Nat) (c : FreeCursor) : Checked Unit × FreeCursor :=
  if c.data.length < position then
    (refuse (.format (.seekPastEnd position c.data.length)), c)
  else (.ok (), ⟨c.data, position⟩)

def rest (c : FreeCursor) : Checked Bytes :=
  range c.data c.position c.data.length

end FreeCursor

end Checked

/-- Where a cursor stands. -/
def Cursor.free (c : Cursor) : Checked.FreeCursor :=
  ⟨c.data, c.position⟩

namespace Checked.FreeCursor

variable {α : Type} {c : Cursor}

theorem take_free (hdata : c.data.length < 2 ^ wordBits - 1) (n : Nat) (field : String) :
    take n field c.free
      = (settled (Reading.take n field c).1, (Reading.take n field c).2.free) := by
  have hstop : saturatingAdd c.position n ≤ c.data.length ↔ c.position + n ≤ c.data.length :=
    saturatingAdd_le_iff hdata
  unfold take Cursor.free
  dsimp only
  rcases Nat.lt_or_ge c.data.length (c.position + n) with hlt | hle
  · rw [Reading.take_eq_error hlt, if_pos (by omega)]
    rfl
  · rw [Reading.take_eq_ok hle, saturatingAdd_eq hdata hle, if_neg (Nat.not_lt.mpr hle),
      range_eq (Nat.le_add_right _ _) hle, Nat.add_sub_cancel_left]
    rfl

/-- A number that is made of the bytes that were taken. -/
theorem take_bind_free (hdata : c.data.length < 2 ^ wordBits - 1) {n : Nat} (field : String)
    {f : Bytes → α} {g : Bytes → Checked α} (hg : ∀ b, b.length = n → g b = .ok (f b)) :
    ((take n field c.free).1 >>= g, (take n field c.free).2)
      = (settled ((Reading.take n field >>= fun b => Pure.pure (f b)) c).1,
        ((Reading.take n field >>= fun b => Pure.pure (f b)) c).2.free) := by
  rw [take_free hdata]
  rcases hr : Reading.take n field c with ⟨e | b, c'⟩
  · rw [Reading.bind_of_error hr]
    rfl
  · rw [Reading.bind_of_ok hr]
    refine Prod.ext ?_ rfl
    exact hg b (Reading.length_of_take_eq_ok hr)

theorem word16_free (hdata : c.data.length < 2 ^ wordBits - 1) (field : String) :
    word16 field c.free
      = (settled (Reading.word16 field c).1, (Reading.word16 field c).2.free) := by
  refine take_bind_free hdata field ?_
  intro b hb
  obtain ⟨low, high, rfl⟩ := List.length_eq_two.mp hb
  rfl

theorem word32_free (hdata : c.data.length < 2 ^ wordBits - 1) (field : String) :
    word32 field c.free
      = (settled (Reading.word32 field c).1, (Reading.word32 field c).2.free) := by
  refine take_bind_free hdata field ?_
  intro b hb
  obtain ⟨b₀, b₁, b₂, b₃, rfl⟩ := List.length_eq_four.mp hb
  rfl

theorem seek_free (position : Nat) (c : Cursor) :
    seek position c.free
      = (settled (Reading.seek position c).1, (Reading.seek position c).2.free) := by
  unfold seek Reading.seek Cursor.free
  dsimp only
  rcases Nat.lt_or_ge c.data.length position with hlt | hle
  · rw [if_pos hlt, dif_neg (Nat.not_le.mpr hlt)]
    rfl
  · rw [if_neg (Nat.not_lt.mpr hle), dif_pos hle]
    rfl

theorem rest_free (c : Cursor) : c.free.rest = .ok c.remaining :=
  range_to_end c.position_le

end Checked.FreeCursor

namespace FieldRequest

open Checked (FreeCursor settled wordBits)

/-- A request by the steps of the machine. -/
def steps : FieldRequest → FreeCursor → Checked FieldAnswer × FreeCursor
  | take n field, c => ((c.take n field).1.map .bytes, (c.take n field).2)
  | word16 field, c => ((c.word16 field).1.map .word16, (c.word16 field).2)
  | word32 field, c => ((c.word32 field).1.map .word32, (c.word32 field).2)
  | seek position, c => ((c.seek position).1.map fun _ => .moved, (c.seek position).2)

/-- Steps that come to what a reading says do so when the result is wrapped up, too. -/
theorem map_free {α : Type} {c : Cursor} {m : Reading α} {stepped : Checked α × FreeCursor}
    (h : stepped = (settled (m c).1, (m c).2.free)) (g : α → FieldAnswer) :
    (stepped.1.map g, stepped.2)
      = (settled ((m >>= fun a => Pure.pure (g a)) c).1,
        ((m >>= fun a => Pure.pure (g a)) c).2.free) := by
  rw [h]
  rcases hm : m c with ⟨e | a, c'⟩
  · rw [Reading.bind_of_error hm]
    rfl
  · rw [Reading.bind_of_ok hm]
    rfl

/-- **Step by step, a request comes to what it comes to at the cursor**, and nothing is
trapped. -/
theorem steps_free {c : Cursor} (hdata : c.data.length < 2 ^ wordBits - 1) (r : FieldRequest) :
    r.steps c.free = (settled (r.perform c).1, (r.perform c).2.free) := by
  cases r with
  | take n field => exact map_free (FreeCursor.take_free hdata n field) .bytes
  | word16 field => exact map_free (FreeCursor.word16_free hdata field) .word16
  | word32 field => exact map_free (FreeCursor.word32_free hdata field) .word32
  | seek position => exact map_free (FreeCursor.seek_free position c) fun _ => .moved

/-! ## §4  Sequences -/

/-- Requests one after another.  One that fails does not keep the next from being made. -/
def run : List FieldRequest → Cursor → List (Except Error FieldAnswer) × Cursor
  | [], c => ([], c)
  | r :: requests, c =>
      let (answer, c') := r.perform c
      let (answers, c'') := run requests c'
      (answer :: answers, c'')

@[inherit_doc run]
def runSteps : List FieldRequest → FreeCursor → List (Checked FieldAnswer) × FreeCursor
  | [], c => ([], c)
  | r :: requests, c =>
      let (answer, c') := r.steps c
      let (answers, c'') := runSteps requests c'
      (answer :: answers, c'')

theorem data_perform (r : FieldRequest) (c : Cursor) : (r.perform c).2.data = c.data := by
  rcases Nat.lt_or_ge c.data.length (r.stop c.position) with hlt | hle
  · rw [perform_of_lt hlt]
  · obtain ⟨a, hperform, -⟩ := perform_of_le hle
    rw [hperform]

theorem data_run (requests : List FieldRequest) (c : Cursor) :
    (run requests c).2.data = c.data := by
  induction requests generalizing c with
  | nil => rfl
  | cons r requests ih => exact (ih (r.perform c).2).trans (data_perform r c)

theorem runSteps_free (requests : List FieldRequest) {c : Cursor}
    (hdata : c.data.length < 2 ^ wordBits - 1) :
    runSteps requests c.free
      = ((run requests c).1.map settled, (run requests c).2.free) := by
  induction requests generalizing c with
  | nil => rfl
  | cons r requests ih =>
      have hnext : (r.perform c).2.data.length < 2 ^ wordBits - 1 := by
        rwa [data_perform]
      unfold runSteps run
      rw [steps_free hdata]
      dsimp only
      rw [ih hnext]
      rfl

/-- The bytes that answers stand for, one after another. -/
def taken (answers : List (Except Error FieldAnswer)) : Bytes :=
  answers.flatMap fun
    | .ok a => a.written
    | .error _ => []

theorem taken_append (answers answers' : List (Except Error FieldAnswer)) :
    taken (answers ++ answers') = taken answers ++ taken answers' :=
  List.flatMap_append

/-- What a request takes is what is missing in front of the cursor afterwards. -/
theorem taken_perform {r : FieldRequest} (hr : r.isSeek = false) (c : Cursor) :
    taken [(r.perform c).1] ++ (r.perform c).2.remaining = c.remaining := by
  have hstop : r.stop c.position = c.position + r.width := by
    cases r with
    | take n field | word16 field | word32 field => rfl
    | seek position => cases hr
  rcases Nat.lt_or_ge c.data.length (r.stop c.position) with hlt | hle
  · rw [perform_of_lt hlt]
    rfl
  · obtain ⟨a, hperform, hgives⟩ := perform_of_le hle
    rw [hperform]
    show a.written ++ [] ++ c.data.drop (r.stop c.position) = c.remaining
    rw [hgives.written_eq hr, hstop, List.append_nil, ← List.drop_drop]
    exact List.take_append_drop r.width c.remaining

/-- **No byte is lost and none is read twice**, as long as the cursor is not moved by hand. -/
theorem taken_run {requests : List FieldRequest} (hs : ∀ r ∈ requests, r.isSeek = false)
    (c : Cursor) : taken (run requests c).1 ++ (run requests c).2.remaining = c.remaining := by
  induction requests generalizing c with
  | nil => rfl
  | cons r requests ih =>
      rw [List.forall_mem_cons] at hs
      have hfirst := taken_perform hs.1 c
      have hrest := ih hs.2 (r.perform c).2
      have hsplit : taken (run (r :: requests) c).1
          = taken [(r.perform c).1] ++ taken (run requests (r.perform c).2).1 :=
        taken_append [(r.perform c).1] _
      show taken (run (r :: requests) c).1 ++ (run requests (r.perform c).2).2.remaining = _
      rw [hsplit, List.append_assoc, hrest, hfirst]

/-! ## §5  The law of bounds -/

/-- **The law of bounds**, for every buffer that is shorter than the greatest number of a
machine word, and every sequence of requests.

The steps of the machine give, one by one, the answers that are given at the cursor, trap
nothing, and leave their position where the cursor is, within the buffer.  At whatever place has
been reached, a request fails exactly if it reaches past the end, as a number without bounds:
then the format is at fault and the cursor stays.  Otherwise its answer is what stands between
its two places, and the cursor stands at the second one.  Without moves by hand, what was read
and what is left are the buffer.  Fields at an offset of a page are there exactly if they end
within it, and are cut out as they stand. -/
theorem requests_within_bounds {data : Bytes} (hdata : data.length < 2 ^ 64 - 1)
    (requests : List FieldRequest) :
    let answers := (run requests (.start data)).1
    let c := (run requests (.start data)).2
    let reached : FreeCursor := ⟨data, c.position⟩
    runSteps requests ⟨data, 0⟩ = (answers.map settled, reached)
      ∧ (∀ r : FieldRequest, r.steps reached = (settled (r.perform c).1, (r.perform c).2.free))
      ∧ reached.position ≤ data.length
      ∧ (∀ r : FieldRequest, data.length < r.stop c.position →
        r.perform c = (.error (.format (r.fault data.length)), c))
      ∧ (∀ r : FieldRequest, r.stop c.position ≤ data.length →
        ∃ a c', r.perform c = (.ok a, c')
          ∧ r.Gives ((data.drop c.position).take r.width) a
          ∧ c'.data = data ∧ c'.position = r.stop c.position)
      ∧ reached.rest = .ok (data.drop c.position)
      ∧ ((∀ r ∈ requests, r.isSeek = false) → taken answers ++ data.drop c.position = data)
      ∧ ∀ offset len name,
        Checked.field offset len name data = settled (Bytes.field offset len name data)
          ∧ (offset + len ≤ data.length →
            Bytes.field offset len name data = .ok ((data.drop offset).take len))
          ∧ (data.length < offset + len →
            Bytes.field offset len name data = .error (.truncated name)) := by
  intro answers c reached
  have hc : c.data = data := data_run requests (.start data)
  have hfree : c.free = reached := by
    rw [Cursor.free, hc]
  have hremaining : c.remaining = data.drop c.position := by
    rw [Cursor.remaining, hc]
  have hbound : c.data.length < 2 ^ wordBits - 1 := by
    rwa [hc]
  refine ⟨?_, ?_, ?_, ?_, ?_, ?_, ?_, ?_⟩
  · rw [← hfree]
    exact runSteps_free requests (show (Cursor.start data).data.length < _ from hdata)
  · intro r
    rw [← hfree]
    exact steps_free hbound r
  · exact hc ▸ c.position_le
  · intro r hr
    rw [← hc] at hr
    have hfail := perform_of_lt hr
    rwa [hc] at hfail
  · intro r hr
    rw [← hc] at hr
    obtain ⟨a, hperform, hgives⟩ := perform_of_le hr
    rw [hremaining] at hgives
    exact ⟨a, _, hperform, hgives, hc, rfl⟩
  · rw [← hfree, ← hremaining]
    exact FreeCursor.rest_free c
  · intro hs
    rw [← hremaining]
    exact taken_run hs (.start data)
  · intro offset len name
    exact ⟨Checked.field_eq hdata offset len name, Bytes.field_eq_ok, Bytes.field_eq_error⟩

/-- Three bytes: a number that is there, another one that is not, and as many bytes as a machine
can count. -/
theorem requests_within_bounds_threeBytes :
    let data : Bytes := [1, 0, 2]
    let requests : List FieldRequest := [word16 "a", word32 "b", take (2 ^ 64 - 1) "c"]
    let c := (run requests (.start data)).2
    data.length < 2 ^ 64 - 1
      ∧ runSteps requests ⟨data, 0⟩
        = ([.ok (.word16 1), Checked.refuse (.truncated "b"), Checked.refuse (.truncated "c")],
          ⟨data, 2⟩)
      ∧ (seek 4).perform c = (.error (.format (.seekPastEnd 4 3)), c)
      ∧ (∃ c', (take 1 "d").perform c = (.ok (.bytes [2]), c') ∧ c'.position = 3)
      ∧ taken (run requests (.start data)).1 ++ [2] = data
      ∧ Bytes.field 1 2 "e" data = .ok [0, 2]
      ∧ Bytes.field 1 (2 ^ 64 - 1) "f" data = .error (.truncated "f") := by
  intro data requests c
  have hdata : data.length < 2 ^ 64 - 1 := by decide
  obtain ⟨hsteps, -, -, hfails, hsucceeds, -, htaken, hfield⟩ :=
    requests_within_bounds hdata requests
  refine ⟨hdata, hsteps, hfails (seek 4) (by decide), ?_, htaken (by decide),
    (hfield 1 2 "e").2.1 (by decide), (hfield 1 (2 ^ 64 - 1) "f").2.2 (by decide)⟩
  obtain ⟨a, c', hperform, rfl, -, hposition⟩ := hsucceeds (take 1 "d") (by decide)
  exact ⟨c', hperform, hposition⟩

end FieldRequest

end PageVault
