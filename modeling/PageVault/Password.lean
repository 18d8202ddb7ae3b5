/-!
# The password source

A password is asked for only when a file turns out to need one, and at most
once: the first answer is kept, whether it is a password or none.  A question
may have a different answer each time it is put, so the answer is a function of
how often the question was put before; that it is put only once is then a fact
about `get`, not an assumption.
-/

namespace PageVault

/-- Whether the question has been answered. -/
inductive PasswordState where
  /-- Not asked yet; `ask n` is the answer to the question put for the `n`-th time. -/
  | pending (ask : Nat → Option String)
  | resolved (answer : Option String)

structure PasswordSource where
  state : PasswordState
  /-- How often the question has been put. -/
  asked : Nat

namespace PasswordSource

def known (password : String) : PasswordSource :=
  ⟨.resolved (some password), 0⟩

def absent : PasswordSource :=
  ⟨.resolved none, 0⟩

def ofOption (password : Option String) : PasswordSource :=
  ⟨.resolved password, 0⟩

/-- A question to be put when a password is needed. -/
def asking (ask : Nat → Option String) : PasswordSource :=
  ⟨.pending ask, 0⟩

instance : Inhabited PasswordSource := ⟨absent⟩

/-- The password, and the source that remembers it. -/
def get (s : PasswordSource) : Option String × PasswordSource :=
  match s.state with
  | .resolved answer => (answer, s)
  | .pending ask => (ask s.asked, ⟨.resolved (ask s.asked), s.asked + 1⟩)

/-- The word for what is known about the password, never the password itself. -/
def status (s : PasswordSource) : String :=
  match s.state with
  | .pending _ => "pending"
  | .resolved (some _) => "resolved"
  | .resolved none => "absent"

def describe (s : PasswordSource) : String :=
  "PasswordSource \x7b state: \"" ++ s.status ++ "\" \x7d"

/-- Asking again gives the same answer and changes nothing. -/
theorem get_get (s : PasswordSource) : s.get.2.get = s.get := by
  rcases s with ⟨_ | _, _⟩ <;> rfl

end PasswordSource

end PageVault
