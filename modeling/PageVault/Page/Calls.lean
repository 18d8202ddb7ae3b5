import PageVault.Page.Codec

/-!
# Calls in a row

What a host asks of the handler of an open file is a sequence of calls.  A call has
an answer, which is all the host sees of it, and a handler that the next call is put
to; a call that fails leaves a handler behind too.
-/

namespace PageVault

inductive Call where
  | decode (page : UInt32) (buffer : Bytes)
  | decodeInto (page : UInt32) (input output : Bytes)
  | encode (page : UInt32) (data : Bytes) (offset : Nat)
deriving DecidableEq

/-- What a call shows the host. -/
inductive Answer where
  /-- The outcome of decoding, and the bytes in the buffer that was passed for it. -/
  | decoded (result : InPlace)
  | encoded (result : Except Error Bytes)

namespace Handler

/-- The answer to a call, and the handler after it. -/
def perform (h : Handler) : Call → Answer × Handler
  | .decode page buffer =>
      let (result, h') := h.decode page buffer
      (.decoded result, h')
  | .decodeInto page input output =>
      let (result, h') := h.decodeInto page input output
      (.decoded result, h')
  | .encode page data offset =>
      let (result, h') := h.encode page data offset
      (.encoded result, h')

def run (h : Handler) : List Call → List Answer × Handler
  | [] => ([], h)
  | call :: calls =>
      let (answer, h') := h.perform call
      let (answers, h'') := h'.run calls
      (answer :: answers, h'')

def after (h : Handler) (calls : List Call) : Handler :=
  (h.run calls).2

@[simp] theorem after_nil (h : Handler) : h.after [] = h := rfl

@[simp] theorem after_cons (h : Handler) (call : Call) (calls : List Call) :
    h.after (call :: calls) = (h.perform call).2.after calls := rfl

theorem run_cons (h : Handler) (call : Call) (calls : List Call) :
    h.run (call :: calls)
      = ((h.perform call).1 :: ((h.perform call).2.run calls).1,
          (h.perform call).2.after calls) := rfl

/-- Calls put in two turns leave the handler that they leave put in one. -/
theorem after_append (h : Handler) (first second : List Call) :
    h.after (first ++ second) = (h.after first).after second := by
  induction first generalizing h with
  | nil => rfl
  | cons call first ih =>
      rw [List.cons_append, after_cons, after_cons]
      exact ih _

end Handler

end PageVault
