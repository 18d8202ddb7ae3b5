import PageVault.Proofs.Descriptor.Nesting

/-!
# Places in a document

Elements of a document may look the same, so they are told apart by their places: the numbers
of their events.  What a tag means and what is inside what is decided by the events in front of
it, and does not change when more of the document is read.

A place is inside an element if nothing between them ends the element (`Inside`).  The walk
keeps a stack of what is open; the places on such a stack are those of the elements around
(`mem_openPlaces_iff`).

§1 tags · §2 what is left open · §3 elements around a place.
-/

namespace PageVault.Descriptor

open Markup

variable {es fs : List Event} {i j k : Nat}

/-! ## §1  Tags -/

/-- The tag of an event; a closing one counts as none. -/
def tag? : Event → Option Element
  | .start e => some e
  | .empty e => some e
  | .close => none

/-- What the tag at a place means. -/
def meaningAt (es : List Event) (i : Nat) : Option Meaning :=
  (es[i]?.bind tag?).map (Meaning.of (Scopes.after [] (es.take i)))

/-- The tag at a place has the name. -/
def NamedAt (es : List Event) (uri name : String) (i : Nat) : Prop :=
  ∃ m ∈ meaningAt es i, m.uri = uri ∧ m.localName = name

instance (es : List Event) (uri name : String) (i : Nat) : Decidable (NamedAt es uri name i) :=
  inferInstanceAs (Decidable (∃ m ∈ meaningAt es i, m.uri = uri ∧ m.localName = name))

theorem meaningAt_append (h : i < es.length) (fs : List Event) :
    meaningAt (es ++ fs) i = meaningAt es i := by
  unfold meaningAt
  rw [List.getElem?_append_left h, List.take_append_of_le_length (Nat.le_of_lt h)]

theorem meaningAt_length (es : List Event) (x : Event) :
    meaningAt (es ++ [x]) es.length = (tag? x).map (Meaning.of (Scopes.after [] es)) := by
  simp [meaningAt]

theorem NamedAt.lt_length {uri name : String} (h : NamedAt es uri name i) : i < es.length := by
  obtain ⟨m, hm, -⟩ := h
  by_contra hle
  rw [meaningAt, List.getElem?_eq_none (Nat.not_lt.mp hle)] at hm
  cases hm

theorem namedAt_append {uri name : String} (h : i < es.length) (fs : List Event) :
    NamedAt (es ++ fs) uri name i ↔ NamedAt es uri name i := by
  rw [NamedAt, meaningAt_append h, NamedAt]

/-- A tag with the name is one of those before, or the new one. -/
theorem exists_namedAt_append_singleton {x : Event} {uri name : String} :
    (∃ i, NamedAt (es ++ [x]) uri name i)
      ↔ (∃ i, NamedAt es uri name i) ∨ NamedAt (es ++ [x]) uri name es.length := by
  constructor
  · rintro ⟨i, hi⟩
    have hlt := hi.lt_length
    rw [List.length_append, List.length_singleton] at hlt
    rcases Nat.lt_or_eq_of_le (Nat.le_of_lt_succ hlt) with hlt | rfl
    · exact Or.inl ⟨i, (namedAt_append hlt [x]).mp hi⟩
    · exact Or.inr hi
  · rintro (⟨i, hi⟩ | hi)
    · exact ⟨i, (namedAt_append hi.lt_length [x]).mpr hi⟩
    · exact ⟨_, hi⟩

/-- A tag has one name. -/
theorem NamedAt.unique {uri uri' name name' : String} (h : NamedAt es uri name i)
    (h' : NamedAt es uri' name' i) : uri = uri' ∧ name = name' := by
  obtain ⟨m, hm, rfl, rfl⟩ := h
  obtain ⟨m', hm', rfl, rfl⟩ := h'
  rw [Option.mem_unique hm hm']
  exact ⟨rfl, rfl⟩

/-! ## §2  What is left open -/

/-- An element that begins behind matched events can hold matched events. -/
theorem Matched.append_start {e : Element} (h : Matched es) (hf : Matched fs) :
    Matched (es ++ .start e :: fs) := by
  intro part hp
  rcases List.prefix_or_prefix_of_prefix hp (List.prefix_append es _) with hp' | ⟨rest, rfl⟩
  · exact h part hp'
  · have hes := h es (List.prefix_refl _)
    rcases List.prefix_cons_iff.mp (List.prefix_append_right_inj es |>.mp hp) with
      rfl | ⟨rest, rfl, hrest⟩
    · rwa [List.append_nil]
    · have hle := hf rest hrest
      simp
      omega

/-- The events end nothing that was open before them, and leave as many elements open. -/
def Leaves (es : List Event) (k : Nat) : Prop :=
  Matched es ∧ starts es = es.count .close + k

theorem matched_append_singleton {x : Event} :
    Matched (es ++ [x]) ↔ Matched es ∧ (es ++ [x]).count .close ≤ starts (es ++ [x]) := by
  constructor
  · intro h
    exact ⟨h.of_prefix (List.prefix_append es [x]), h _ (List.prefix_refl _)⟩
  · rintro ⟨h, hall⟩ part hp
    rcases List.prefix_concat_iff.mp hp with rfl | hp
    · exact hall
    · exact h part hp

theorem leaves_nil : Leaves [] k ↔ k = 0 := by
  have hm : Matched [] := by
    intro part hp
    rw [List.prefix_nil.mp hp]
    exact Nat.zero_le _
  simp [Leaves, hm]
  omega

theorem leaves_append_start (e : Element) :
    Leaves (es ++ [.start e]) (k + 1) ↔ Leaves es k := by
  simp only [Leaves, matched_append_singleton, starts_append, starts_start, starts_nil,
    List.count_append, List.count_singleton]
  constructor
  · rintro ⟨⟨hm, -⟩, hcount⟩
    exact ⟨hm, by simpa [← Nat.add_assoc] using hcount⟩
  · rintro ⟨hm, hcount⟩
    simp [hm, hcount]
    omega

theorem not_leaves_append_start_zero (e : Element) : ¬ Leaves (es ++ [.start e]) 0 := by
  rintro ⟨hm, hcount⟩
  have hle := hm es (List.prefix_append es _)
  simp at hcount
  omega

theorem leaves_append_empty (e : Element) : Leaves (es ++ [.empty e]) k ↔ Leaves es k := by
  simp only [Leaves, matched_append_singleton, starts_append, starts_empty, starts_nil,
    List.count_append, List.count_singleton]
  constructor
  · rintro ⟨⟨hm, -⟩, hcount⟩
    exact ⟨hm, by simpa using hcount⟩
  · rintro ⟨hm, hcount⟩
    simp [hm, hcount]

theorem leaves_append_close : Leaves (es ++ [.close]) k ↔ Leaves es (k + 1) := by
  simp only [Leaves, matched_append_singleton, starts_append, starts_close, starts_nil,
    List.count_append, List.count_singleton]
  constructor
  · rintro ⟨⟨hm, -⟩, hcount⟩
    simp at hcount
    exact ⟨hm, by omega⟩
  · rintro ⟨hm, hcount⟩
    simp [hm, hcount]
    omega

/-! ## §3  Elements around a place -/

/-- The place is inside the element that begins at the other place: nothing between them ends
it. -/
def Inside (es : List Event) (i j : Nat) : Prop :=
  (∃ e, es[i]? = some (.start e)) ∧ i < j ∧ Matched ((es.take j).drop (i + 1))

theorem Inside.lt (h : Inside es i j) : i < j :=
  h.2.1

/-- What is inside at a place was so in front of it. -/
theorem Inside.of_le (h : Inside es i j) (hik : i < k) (hkj : k ≤ j) : Inside es i k := by
  refine ⟨h.1, hik, Matched.of_prefix h.2.2 ?_⟩
  rw [List.drop_take, List.drop_take]
  exact List.take_prefix_take_left (Nat.sub_le_sub_right hkj _)

/-- **What is inside an element is inside those around it.** -/
theorem Inside.trans (h : Inside es i j) (h' : Inside es j k) : Inside es i k := by
  obtain ⟨⟨e, he⟩, hjk, hm'⟩ := h'
  have hlt := (List.getElem?_eq_some_iff.mp he).1
  have hget : es[j] = .start e := (List.getElem?_eq_some_iff.mp he).2
  have hback : (es.take k).drop j = .start e :: (es.take k).drop (j + 1) := by
    rw [List.drop_eq_getElem_cons (by rw [List.length_take]; omega), List.getElem_take, hget]
  have hfront : (es.take k).take j = es.take j := by
    rw [List.take_take, Nat.min_eq_left (Nat.le_of_lt hjk)]
  have hwhole := List.take_append_drop j (es.take k)
  rw [hfront, hback] at hwhole
  have hle : i + 1 ≤ (es.take j).length := by
    rw [List.length_take_of_le (Nat.le_of_lt hlt)]
    exact h.lt
  refine ⟨h.1, Nat.lt_trans h.lt hjk, ?_⟩
  rw [← hwhole, List.drop_append_of_le_length hle]
  exact h.2.2.append_start hm'

theorem inside_append (h : j ≤ es.length) (fs : List Event) :
    Inside (es ++ fs) i j ↔ Inside es i j := by
  unfold Inside
  rw [List.take_append_of_le_length h]
  constructor
  · rintro ⟨hstart, hlt, hm⟩
    rw [List.getElem?_append_left (by omega)] at hstart
    exact ⟨hstart, hlt, hm⟩
  · rintro ⟨hstart, hlt, hm⟩
    refine ⟨?_, hlt, hm⟩
    rwa [List.getElem?_append_left (by omega)]

/-- The places of the elements that are open after the events, innermost first. -/
def openPlaces (es : List Event) : List Nat :=
  es.zipIdx.foldl
    (fun places x =>
      match x.1 with
      | .start _ => x.2 :: places
      | .empty _ => places
      | .close => places.tail) []

theorem openPlaces_append_singleton (es : List Event) (x : Event) :
    openPlaces (es ++ [x])
      = match x with
        | .start _ => es.length :: openPlaces es
        | .empty _ => openPlaces es
        | .close => (openPlaces es).tail := by
  unfold openPlaces
  rw [List.zipIdx_append, List.foldl_append]
  simp

theorem lt_length_of_mem_openPlaces (h : i ∈ openPlaces es) : i < es.length := by
  induction es using List.reverseRecOn with
  | nil => simp [openPlaces] at h
  | append_singleton es x ih =>
      rw [openPlaces_append_singleton] at h
      rw [List.length_append, List.length_singleton]
      cases x with
      | start e =>
          rcases List.mem_cons.mp h with rfl | h
          · exact Nat.lt_succ_self _
          · exact Nat.lt_succ_of_lt (ih h)
      | empty e => exact Nat.lt_succ_of_lt (ih h)
      | close => exact Nat.lt_succ_of_lt (ih (List.mem_of_mem_tail h))

/-- A place that is still to come is not on the stack. -/
theorem getElem?_ne_some_length {places : List Nat} (h : ∀ j ∈ places, j ∈ openPlaces es)
    (k : Nat) : places[k]? ≠ some es.length := by
  intro hget
  exact Nat.lt_irrefl _ (lt_length_of_mem_openPlaces (h _ (List.mem_of_getElem? hget)))

/-- **Behind an open element as many are left open as stand above it.** -/
theorem getElem?_openPlaces :
    (openPlaces es)[k]? = some i
      ↔ (∃ e, es[i]? = some (.start e)) ∧ Leaves (es.drop (i + 1)) k := by
  induction es using List.reverseRecOn generalizing k with
  | nil => simp [openPlaces]
  | append_singleton es x ih =>
      rcases Nat.lt_trichotomy i es.length with hlt | rfl | hgt
      · -- In front of the new event nothing has changed.
        rw [openPlaces_append_singleton, List.getElem?_append_left hlt,
          List.drop_append_of_le_length hlt]
        cases x with
        | start e =>
            cases k with
            | zero => simp [not_leaves_append_start_zero, Nat.ne_of_gt hlt]
            | succ k =>
                rw [leaves_append_start, ← ih]
                rfl
        | empty e => rw [leaves_append_empty, ← ih]
        | close =>
            rw [leaves_append_close, ← ih]
            exact Iff.of_eq (congrArg (· = some i) List.getElem?_tail)
      · -- The new event has nothing behind it, and is on top if it is there at all.
        have hdrop : (es ++ [x]).drop (es.length + 1) = [] := by simp
        rw [openPlaces_append_singleton, hdrop, leaves_nil, List.getElem?_concat_length]
        cases x with
        | start e =>
            cases k with
            | zero => simp
            | succ k => simpa using getElem?_ne_some_length (fun _ h => h) k
        | empty e => simpa using getElem?_ne_some_length (fun _ h => h) k
        | close => simpa using getElem?_ne_some_length (fun _ => List.mem_of_mem_tail) k
      · refine iff_of_false ?_ ?_
        · intro hget
          have hlt := lt_length_of_mem_openPlaces (List.mem_of_getElem? hget)
          simp at hlt
          omega
        · rintro ⟨⟨e, he⟩, -⟩
          have hlt := (List.getElem?_eq_some_iff.mp he).1
          simp at hlt
          omega

/-- **The places on the stack are those of the elements around.** -/
theorem mem_openPlaces_take_iff : i ∈ openPlaces (es.take j) ↔ Inside es i j := by
  rw [List.mem_iff_getElem?, Inside]
  simp only [getElem?_openPlaces, exists_and_left, List.getElem?_take]
  by_cases hij : i < j
  · rw [if_pos hij]
    refine and_congr_right fun _ => ⟨?_, ?_⟩
    · rintro ⟨k, hm, -⟩
      exact ⟨hij, hm⟩
    · rintro ⟨-, hm⟩
      have hle := hm _ (List.prefix_refl _)
      exact ⟨_, hm, (Nat.add_sub_of_le hle).symm⟩
  · rw [if_neg hij]
    exact iff_of_false (by rintro ⟨⟨e, ⟨⟩⟩, -⟩) (fun h => hij h.2.1)

theorem mem_openPlaces_iff : i ∈ openPlaces es ↔ Inside es i es.length := by
  rw [← mem_openPlaces_take_iff, List.take_length]

instance (es : List Event) (i j : Nat) : Decidable (Inside es i j) :=
  decidable_of_iff (i ∈ openPlaces (es.take j)) mem_openPlaces_take_iff

end PageVault.Descriptor
