import Mathlib.Data.Finset.Card
import Mathlib.Data.List.Dedup
import Mathlib.Data.List.Induction
import PageVault.Page.KeyCache

/-!
# What the key cache holds

After any requests the cache holds the pages that were requested last, as many as it has room
for, each once and the latest in front (`map_fst_after`).  This is said by the requests alone:
a page is held if it was requested and fewer other pages than there is room for have been
requested since (`Recent`).

What is held of a page was computed at some request, and at none behind that one
(`Supplied`).  So the answer to a request is the value that was computed for its page last.

§1 requests · §2 pages by their last request · §3 the pages held · §4 the values held ·
§5 answers.
-/

namespace PageVault

/-! ## §1  Requests -/

/-- A request for the value of a page, with what computes it if it is not held. -/
structure Request (α : Type) where
  page : UInt32
  compute : Unit → α

namespace KeyCache

variable {α : Type} {before : List (Request α)} {r : Request α} {page : UInt32} {a : α}

/-- A new cache behind requests. -/
def after (requests : List (Request α)) : KeyCache α :=
  requests.foldl (fun cache r => (cache.getOrCompute r.page r.compute).cache) empty

/-- How a request behind others is answered. -/
def answer (before : List (Request α)) (r : Request α) : Fetched α :=
  (after before).getOrCompute r.page r.compute

theorem after_append_singleton (before : List (Request α)) (r : Request α) :
    after (before ++ [r]) = (answer before r).cache :=
  List.foldl_concat _ _ _ _

/-- Found or computed, the page is put in front with the value of the answer. -/
theorem cache_answer (before : List (Request α)) (r : Request α) :
    (answer before r).cache = (after before).touch r.page (answer before r).value := by
  unfold answer getOrCompute
  cases (after before).find? r.page with
  | none => rfl
  | some a => rfl

/-- A value is computed for a page that is not held, and then it is the answer. -/
theorem answer_cases (before : List (Request α)) (r : Request α) :
    ((∀ e ∈ (after before).entries, e.1 ≠ r.page) ∧ (answer before r).computed = true
        ∧ (answer before r).value = r.compute ())
      ∨ ((r.page, (answer before r).value) ∈ (after before).entries
        ∧ (answer before r).computed = false) := by
  unfold answer getOrCompute find?
  cases hfind : (after before).entries.lookup r.page with
  | none =>
      left
      refine ⟨?_, rfl, rfl⟩
      intro e he
      exact (bne_iff_ne.mp (List.lookup_eq_none_iff.mp hfind e he)).symm
  | some a =>
      right
      obtain ⟨earlier, later, hentries, -⟩ := List.lookup_eq_some_iff.mp hfind
      refine ⟨?_, rfl⟩
      rw [hentries]
      exact List.mem_append_right _ List.mem_cons_self

/-! ## §2  Pages by their last request -/

/-- The pages of requests, each once, the one requested last in front. -/
def recency (requests : List (Request α)) : List UInt32 :=
  (requests.map Request.page).dedup.reverse

theorem nodup_recency (requests : List (Request α)) : (recency requests).Nodup :=
  List.nodup_reverse.mpr (List.nodup_dedup _)

theorem length_recency (requests : List (Request α)) :
    (recency requests).length = (requests.map Request.page).toFinset.card := by
  rw [recency, List.length_reverse, List.card_toFinset]

theorem mem_recency {requests : List (Request α)} :
    page ∈ recency requests ↔ ∃ r ∈ requests, r.page = page := by
  rw [recency, List.mem_reverse, List.mem_dedup, List.mem_map]

/-- Of a list without repetition and another one behind it, what is in the other one goes. -/
theorem dedup_append_eq_filter (as bs : List UInt32) :
    (as ++ bs).dedup = (as.dedup.filter fun a => a ∉ bs) ++ bs.dedup := by
  induction as with
  | nil => rfl
  | cons a as ih =>
      by_cases ha : a ∈ as
      · rw [List.cons_append, List.dedup_cons_of_mem ha,
          List.dedup_cons_of_mem (List.mem_append_left _ ha), ih]
      · rw [List.cons_append, List.dedup_cons_of_notMem ha]
        by_cases hb : a ∈ bs
        · rw [List.dedup_cons_of_mem (List.mem_append_right _ hb), ih,
            List.filter_cons_of_neg (by simpa using hb)]
        · rw [List.dedup_cons_of_notMem (by simp [ha, hb]), ih,
            List.filter_cons_of_pos (by simpa using hb), List.cons_append]

/-- Pages that are requested again move in front of the others. -/
theorem recency_append (earlier later : List (Request α)) :
    recency (earlier ++ later)
      = recency later ++ (recency earlier).filter fun p => p ∉ later.map Request.page := by
  unfold recency
  rw [List.map_append, dedup_append_eq_filter, List.reverse_append, List.filter_reverse]

theorem recency_append_singleton (before : List (Request α)) (r : Request α) :
    recency (before ++ [r]) = r.page :: (recency before).filter (· != r.page) := by
  have hone : recency [r] = [r.page] := rfl
  rw [recency_append, hone, List.singleton_append]
  congr 2
  funext p
  by_cases hp : p = r.page <;> simp [hp]

/-- What was requested was requested for the last time at some place. -/
theorem exists_last_request {requests : List (Request α)} (h : ∃ r ∈ requests, r.page = page) :
    ∃ earlier r later, requests = earlier ++ r :: later ∧ r.page = page
      ∧ ∀ t ∈ later, t.page ≠ page := by
  induction requests with
  | nil => simp at h
  | cons s requests ih =>
      by_cases hlater : ∃ r ∈ requests, r.page = page
      · obtain ⟨earlier, r, later, rfl, hr, hl⟩ := ih hlater
        exact ⟨s :: earlier, r, later, rfl, hr, hl⟩
      · obtain ⟨r, hr, hpage⟩ := h
        rcases List.mem_cons.mp hr with rfl | hr
        · refine ⟨[], r, requests, rfl, hpage, ?_⟩
          intro t ht hp
          exact hlater ⟨t, ht, hp⟩
        · exact absurd ⟨r, hr, hpage⟩ hlater

/-- In front of a page stand those that were requested since its last request. -/
theorem exists_recency_eq (earlier : List (Request α)) {later : List (Request α)}
    (hr : r.page = page) (hl : ∀ t ∈ later, t.page ≠ page) :
    ∃ rest, recency (earlier ++ r :: later) = recency later ++ page :: rest := by
  have hshape : earlier ++ r :: later = (earlier ++ [r]) ++ later := by simp
  have hnot : page ∉ later.map Request.page := by
    rw [List.mem_map]
    rintro ⟨t, ht, hp⟩
    exact hl t ht hp
  rw [hshape, recency_append, recency_append_singleton, hr,
    List.filter_cons_of_pos (by simpa using hnot)]
  exact ⟨_, rfl⟩

/-! ## §3  The pages held -/

/-- The page was requested, and since then fewer other pages than the cache has room for. -/
def Recent (requests : List (Request α)) (page : UInt32) : Prop :=
  ∃ earlier r later, requests = earlier ++ r :: later ∧ r.page = page
    ∧ (∀ t ∈ later, t.page ≠ page) ∧ (later.map Request.page).toFinset.card < capacity

theorem mem_take_append_cons_iff {front rest : List UInt32} {n : Nat} (h : page ∉ front) :
    page ∈ (front ++ page :: rest).take n ↔ front.length < n := by
  have hfront : page ∉ front.take n := fun hm => h (List.mem_of_mem_take hm)
  rw [List.take_append, List.mem_append, or_iff_right hfront]
  cases hn : n - front.length with
  | zero =>
      simp
      omega
  | succ k =>
      simp
      omega

theorem mem_take_recency_append_cons_iff {earlier later : List (Request α)} (hr : r.page = page)
    (hl : ∀ t ∈ later, t.page ≠ page) :
    page ∈ (recency (earlier ++ r :: later)).take capacity
      ↔ (later.map Request.page).toFinset.card < capacity := by
  obtain ⟨rest, hrest⟩ := exists_recency_eq earlier hr hl
  have hnot : page ∉ recency later := by
    rw [mem_recency]
    rintro ⟨t, ht, hp⟩
    exact hl t ht hp
  rw [hrest, mem_take_append_cons_iff hnot, length_recency]

/-- **The pages requested last are those with few others requested since.** -/
theorem mem_take_recency_iff {requests : List (Request α)} :
    page ∈ (recency requests).take capacity ↔ Recent requests page := by
  constructor
  · intro h
    obtain ⟨earlier, r, later, rfl, hr, hl⟩ :=
      exists_last_request (mem_recency.mp (List.mem_of_mem_take h))
    exact ⟨earlier, r, later, rfl, hr, hl, (mem_take_recency_append_cons_iff hr hl).mp h⟩
  · rintro ⟨earlier, r, later, rfl, hr, hl, hcard⟩
    exact (mem_take_recency_append_cons_iff hr hl).mpr hcard

/-- Pages that are cut to one more than needed before one of them is dropped are as many as
needed behind it. -/
theorem take_filter_take {pages : List UInt32} (h : pages.Nodup) (p : UInt32) (n : Nat) :
    ((pages.take (n + 1)).filter (· != p)).take n = (pages.filter (· != p)).take n := by
  rcases Nat.lt_or_ge (n + 1) pages.length with hlt | hle
  · -- One of the `n + 1` pages is dropped at most.
    have hlen : n ≤ ((pages.take (n + 1)).filter (· != p)).length := by
      have hnodup : (pages.take (n + 1)).Nodup := h.sublist (List.take_sublist _ _)
      rw [← hnodup.erase_eq_filter, List.length_erase, List.length_take]
      split <;> omega
    conv_rhs => rw [← List.take_append_drop (n + 1) pages, List.filter_append]
    rw [List.take_append_of_le_length hlen]
  · rw [List.take_of_length_le hle]

theorem map_fst_touch (cache : KeyCache α) (page : UInt32) (a : α) :
    (cache.touch page a).entries.map Prod.fst
      = (page :: (cache.entries.map Prod.fst).filter (· != page)).take capacity := by
  rw [touch, List.map_take, List.map_cons, List.filter_map]
  rfl

/-- **A cache holds the pages that were requested last**, the latest in front. -/
theorem map_fst_after (requests : List (Request α)) :
    (after requests).entries.map Prod.fst = (recency requests).take capacity := by
  induction requests using List.reverseRecOn with
  | nil => rfl
  | append_singleton before r ih =>
      rw [after_append_singleton, cache_answer, map_fst_touch, ih, recency_append_singleton]
      show List.take (4 + 1) _ = List.take (4 + 1) _
      rw [List.take_succ_cons, List.take_succ_cons]
      exact congrArg (r.page :: ·) (take_filter_take (nodup_recency before) r.page 4)

/-- The second of seven pages is asked for again, and the third is dropped for the last. -/
example : (after ([1, 2, 3, 4, 5, 2, 6, 7].map fun page =>
    (⟨page, fun _ => ()⟩ : Request Unit))).entries.map Prod.fst = [7, 6, 2, 5, 4] := by
  decide

theorem held_iff_recent {requests : List (Request α)} :
    page ∈ (after requests).entries.map Prod.fst ↔ Recent requests page := by
  rw [map_fst_after, mem_take_recency_iff]

/-! ## §4  The values held -/

/-- The value was computed at a request for the page, and none was at any request for it behind
that one. -/
def Supplied (requests : List (Request α)) (page : UInt32) (a : α) : Prop :=
  ∃ earlier r later, requests = earlier ++ r :: later ∧ r.page = page
    ∧ (answer earlier r).computed = true ∧ a = r.compute ()
    ∧ ∀ between t rest, later = between ++ t :: rest → t.page = page →
      (answer (earlier ++ r :: between) t).computed = false

/-- A request at which nothing is computed for the page changes nothing. -/
theorem Supplied.append_singleton (h : Supplied before page a)
    (hr : r.page = page → (answer before r).computed = false) :
    Supplied (before ++ [r]) page a := by
  obtain ⟨earlier, s, later, rfl, hs, hcomputed, ha, hl⟩ := h
  refine ⟨earlier, s, later ++ [r], by simp, hs, hcomputed, ha, ?_⟩
  intro between t rest hsplit ht
  rcases List.eq_nil_or_concat rest with rfl | ⟨rest, x, rfl⟩
  · -- It is the new request.
    obtain ⟨rfl, htr⟩ := List.append_inj' hsplit rfl
    cases htr
    exact hr ht
  · have hsplit' : later ++ [r] = (between ++ t :: rest) ++ [x] := by
      rw [hsplit]
      simp
    exact hl between t rest (List.append_inj' hsplit' rfl).1 ht

theorem supplied_of_computed (hcomputed : (answer before r).computed = true) :
    Supplied (before ++ [r]) r.page (r.compute ()) := by
  refine ⟨before, r, [], rfl, rfl, hcomputed, rfl, ?_⟩
  intro between t rest hsplit
  simp at hsplit

/-- **Every value held was computed last for its page.** -/
theorem supplied_of_mem {requests : List (Request α)}
    (h : (page, a) ∈ (after requests).entries) : Supplied requests page a := by
  induction requests using List.reverseRecOn generalizing page a with
  | nil => cases h
  | append_singleton before r ih =>
      rw [after_append_singleton, cache_answer] at h
      rcases mem_entries_touch h with hnew | ⟨hold, hne⟩
      · cases hnew
        rcases answer_cases before r with ⟨-, hcomputed, hvalue⟩ | ⟨hmem, hcomputed⟩
        · rw [hvalue]
          exact supplied_of_computed hcomputed
        · exact (ih hmem).append_singleton fun _ => hcomputed
      · exact (ih hold).append_singleton fun hr => absurd hr.symm hne

/-! ## §5  Answers -/

theorem computed_answer_iff (before : List (Request α)) (r : Request α) :
    (answer before r).computed = true ↔ ¬ Recent before r.page := by
  rw [← held_iff_recent, List.mem_map]
  rcases answer_cases before r with ⟨hnone, hcomputed, -⟩ | ⟨hmem, hcomputed⟩
  · rw [hcomputed]
    refine iff_of_true rfl ?_
    rintro ⟨e, he, hp⟩
    exact hnone e he hp
  · rw [hcomputed]
    refine iff_of_false nofun ?_
    intro h
    exact h ⟨_, hmem, rfl⟩

theorem supplied_answer (before : List (Request α)) (r : Request α) :
    Supplied (before ++ [r]) r.page (answer before r).value := by
  refine supplied_of_mem ?_
  rw [after_append_singleton, cache_answer]
  exact List.mem_cons_self

/-- **The cache drops the page that was requested longest ago, and nothing else.**  However many
requests were put to a new cache and whatever they compute, behind each of them the cache holds
the pages requested last, each once and five at most: those since whose last request fewer than
five others were requested.  A request computes its value if its page was not among these
before it, and only then.  And it is answered with the value that was computed at the latest
request for its page at which one was. -/
theorem answer_by_recency (before : List (Request α)) (r : Request α) :
    (answer before r).cache.entries.map Prod.fst = (recency (before ++ [r])).take 5
      ∧ ((answer before r).cache.entries.map Prod.fst).Nodup
      ∧ (∀ page, page ∈ (answer before r).cache.entries.map Prod.fst
        ↔ Recent (before ++ [r]) page)
      ∧ ((answer before r).computed = true ↔ ¬ Recent before r.page)
      ∧ Supplied (before ++ [r]) r.page (answer before r).value := by
  have hpages := map_fst_after (before ++ [r])
  rw [after_append_singleton] at hpages
  refine ⟨hpages, ?_, ?_, computed_answer_iff before r, supplied_answer before r⟩
  · rw [hpages]
    exact (nodup_recency _).sublist (List.take_sublist _ _)
  · intro page
    rw [← after_append_singleton, held_iff_recent]

end KeyCache

end PageVault
