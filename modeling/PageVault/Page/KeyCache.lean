/-!
# The key cache

Keys are derived per page, and hosts return to the same few pages.  The cache
keeps the values of the `capacity` most recently requested pages, most recent
first: a hit moves its entry to the front, a miss puts the new entry there and
drops what no longer fits.
-/

namespace PageVault

structure KeyCache (α : Type) where
  entries : List (UInt32 × α)

namespace KeyCache

variable {α : Type}

def capacity : Nat := 5

def empty : KeyCache α := ⟨[]⟩

def find? (cache : KeyCache α) (page : UInt32) : Option α :=
  cache.entries.lookup page

/-- The cache after `page` was requested and found to have the value `a`.  This and
`getOrCompute` state what the `lru` library documents of `get_or_insert`: a requested entry
becomes the most recent one, and the least recent one is dropped where a new one does not fit. -/
def touch (cache : KeyCache α) (page : UInt32) (a : α) : KeyCache α :=
  ⟨((page, a) :: cache.entries.filter fun e => e.1 != page).take capacity⟩

structure Fetched (α : Type) where
  value : α
  computed : Bool
  cache : KeyCache α

/-- The remembered value of `page`, or else the one that `compute` gives, which is not asked
for otherwise. -/
def getOrCompute (cache : KeyCache α) (page : UInt32) (compute : Unit → α) : Fetched α :=
  match cache.find? page with
  | some a => ⟨a, false, cache.touch page a⟩
  | none =>
      let a := compute ()
      ⟨a, true, cache.touch page a⟩

@[simp] theorem find?_empty (page : UInt32) : (empty : KeyCache α).find? page = none := rfl

/-- The page that was requested last is remembered. -/
@[simp] theorem find?_touch_self (cache : KeyCache α) (page : UInt32) (a : α) :
    (cache.touch page a).find? page = some a := by
  simp [find?, touch, capacity]

/-- An entry after a request is the requested one, or was there before and is of
another page. -/
theorem mem_entries_touch {cache : KeyCache α} {page : UInt32} {a : α} {e : UInt32 × α}
    (h : e ∈ (cache.touch page a).entries) :
    e = (page, a) ∨ (e ∈ cache.entries ∧ e.1 ≠ page) := by
  rcases List.mem_cons.mp (List.mem_of_mem_take h) with h | h
  · exact Or.inl h
  · obtain ⟨he, hp⟩ := List.mem_filter.mp h
    exact Or.inr ⟨he, by simpa using hp⟩

end KeyCache

end PageVault
