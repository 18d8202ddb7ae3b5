import Mathlib.Data.List.TakeWhile
import PageVault.Descriptor.Basic
import PageVault.Proofs.Text.Base64

/-!
# Binary values of attributes

A binary value is written in Base64, and producers of descriptors take liberties with it: they
wrap it, indent it, leave white space around it and drop its padding.  All of this is undone,
and nothing more (`Entries.bytes_reads_written`): a value is read exactly if what is left of it
is one of the two written forms of some bytes, and then as these bytes.  The empty text would
be read as no bytes, but a value without text counts as missing.

§1 white space · §2 layout put in · §3 values.
-/

namespace PageVault

namespace Text

/-! ## §1  White space -/

/-- What counts of a value that may be wrapped: no white space at its ends, and no layout
between them. -/
def compact (cs : List Char) : List Char :=
  (trimChars cs).filter fun c => !isLayout c

variable {cs : List Char} {c : Char}

/-- What is dropped in front of a list can just as well be filtered out of it. -/
theorem filter_dropWhile {p q : Char → Bool} (h : ∀ c ∈ cs, p c = true → q c = false) :
    (cs.dropWhile p).filter q = cs.filter q := by
  have hfront : (cs.takeWhile p).filter q = [] := by
    rw [List.filter_eq_nil_iff]
    intro c hc
    rw [h c ((List.takeWhile_prefix p).subset hc) (List.mem_takeWhile_imp hc)]
    nofun
  calc (cs.dropWhile p).filter q
      = (cs.takeWhile p ++ cs.dropWhile p).filter q := by
        rw [List.filter_append, hfront, List.nil_append]
    _ = cs.filter q := by rw [List.takeWhile_append_dropWhile]

theorem mem_dropWhile_of_not {p : Char → Bool} (hc : c ∈ cs) (hp : p c = false) :
    c ∈ cs.dropWhile p := by
  rw [← List.takeWhile_append_dropWhile (p := p) (l := cs), List.mem_append] at hc
  rcases hc with hc | hc
  · rw [List.mem_takeWhile_imp hc] at hp
    cases hp
  · exact hc

/-- Text is not trimmed away. -/
theorem mem_trimChars_of_not_isBlank (hc : c ∈ cs) (hb : isBlank c = false) :
    c ∈ trimChars cs := by
  have hfront : c ∈ (cs.dropWhile isBlank).reverse :=
    List.mem_reverse.mpr (mem_dropWhile_of_not hc hb)
  exact List.mem_reverse.mpr (mem_dropWhile_of_not hfront hb)

theorem trimChars_of_forall_isBlank (h : ∀ c ∈ cs, isBlank c = true) : trimChars cs = [] := by
  rw [trimChars, List.dropWhile_eq_nil_iff.mpr h]
  rfl

theorem isLayout_of_not_isBlank (h : isBlank c = false) : isLayout c = false := by
  cases hl : isLayout c with
  | false => rfl
  | true =>
      rw [isBlank_of_isLayout hl] at h
      cases h

theorem mem_compact_of_not_isBlank (hc : c ∈ cs) (hb : isBlank c = false) : c ∈ compact cs := by
  refine List.mem_filter.mpr ⟨mem_trimChars_of_not_isBlank hc hb, ?_⟩
  rw [isLayout_of_not_isBlank hb]
  rfl

/-! ## §2  Layout put in -/

/-- The value is the text with layout put in anywhere. -/
inductive Wrapped : (text value : List Char) → Prop
  | nil : Wrapped [] []
  | layout {text value : List Char} {c : Char} (hc : isLayout c = true)
      (h : Wrapped text value) : Wrapped text (c :: value)
  | char {text value : List Char} (c : Char) (h : Wrapped text value) :
      Wrapped (c :: text) (c :: value)

variable {text value : List Char}

theorem Wrapped.mem (h : Wrapped text value) (hc : c ∈ value) :
    isLayout c = true ∨ c ∈ text := by
  induction h with
  | nil => cases hc
  | layout hl h ih =>
      rcases List.mem_cons.mp hc with rfl | hc
      · exact Or.inl hl
      · exact ih hc
  | char c h ih =>
      rcases List.mem_cons.mp hc with rfl | hc
      · exact Or.inr List.mem_cons_self
      · exact (ih hc).imp id (List.mem_cons_of_mem _)

theorem Wrapped.filter_eq (h : Wrapped text value) (ht : ∀ c ∈ text, isBlank c = false) :
    value.filter (fun c => !isLayout c) = text := by
  induction h with
  | nil => rfl
  | layout hl h ih =>
      rw [List.filter_cons_of_neg (by rw [hl]; nofun)]
      exact ih ht
  | char c h ih =>
      have hl : isLayout c = false := isLayout_of_not_isBlank (ht c List.mem_cons_self)
      rw [List.filter_cons_of_pos (by rw [hl]; rfl)]
      exact congrArg (c :: ·) (ih fun c hc => ht c (List.mem_cons_of_mem _ hc))

/-- **Layout that was put in is taken out again**, at the ends and between them, if the text
has no white space of its own. -/
theorem Wrapped.compact_eq (h : Wrapped text value) (ht : ∀ c ∈ text, isBlank c = false) :
    compact value = text := by
  -- All white space of the value is layout, so that trimming drops nothing else.
  have hblank : ∀ c ∈ value, isBlank c = true → (!isLayout c) = false := by
    intro c hc hb
    rcases h.mem hc with hl | hm
    · rw [hl]
      rfl
    · rw [ht c hm] at hb
      cases hb
  have hback : ∀ c ∈ (value.dropWhile isBlank).reverse, isBlank c = true →
      (!isLayout c) = false := by
    intro c hc
    exact hblank c ((List.dropWhile_suffix _).subset (List.mem_reverse.mp hc))
  calc compact value
      = ((value.dropWhile isBlank).reverse.filter fun c => !isLayout c).reverse := by
        rw [compact, trimChars, List.filter_reverse, filter_dropWhile hback]
    _ = value.filter fun c => !isLayout c := by
        rw [List.filter_reverse, List.reverse_reverse, filter_dropWhile hblank]
    _ = text := h.filter_eq ht

namespace Base64

theorem isBlank_symbol (n : Nat) : isBlank (symbol n) = false := by
  rcases Nat.lt_or_ge n 64 with hlt | hge
  · have hall : ∀ n < 64, isBlank (symbol n) = false := by
      decide +kernel
    exact hall n hlt
  · rw [symbol, if_neg (by omega), if_neg (by omega), if_neg (by omega), if_neg (by omega)]
    rfl

/-- A written form has no white space. -/
theorem Writes.not_isBlank {b : Bytes} (h : Writes text b) : ∀ c ∈ text, isBlank c = false := by
  intro c hc
  rcases h.mem hc with rfl | ⟨n, rfl⟩
  · decide
  · exact isBlank_symbol n

end Base64

end Text

/-! ## §3  Values -/

namespace Descriptor.Entries

open Text (compact Wrapped isBlank)
open Text.Base64 (Writes)

variable {e : Entries} {name v : String} {b : Bytes}

/-- The element has no such attribute, or one with nothing but white space in it. -/
def LacksText (e : Entries) (name : String) : Prop :=
  ∀ v, e.values.lookup name = some v → ∀ c ∈ v.toList, isBlank c = true

theorem bytes_of_lacksText (h : e.LacksText name) :
    e.bytes name = .error (.configuration (.missingEntry name e.element)) := by
  have hget : e.get? name = none := by
    unfold get?
    cases hl : e.values.lookup name with
    | none => rfl
    | some v =>
        have hempty : (Text.trim v).isEmpty = true := by
          rw [Text.trim, Text.trimChars_of_forall_isBlank (h v hl)]
          rfl
        exact if_pos hempty
  unfold bytes string
  rw [hget]
  rfl

/-- Of a value with text in it, what counts is decoded. -/
theorem bytes_of_text (h : e.values.lookup name = some v)
    (ht : ∃ c ∈ v.toList, isBlank c = false) :
    e.bytes name
      = (Text.Base64.decode (compact v.toList)).elim
          (.error (.configuration (.notBase64 e.element name))) .ok := by
  have hget : e.get? name = some (Text.trim v) := by
    have hempty : ¬ (Text.trim v).isEmpty = true := by
      obtain ⟨c, hc, hb⟩ := ht
      intro hnil
      have hmem := Text.mem_trimChars_of_not_isBlank hc hb
      rw [String.isEmpty_iff, Text.trim] at hnil
      rw [← String.toList_ofList (l := Text.trimChars v.toList), hnil] at hmem
      cases hmem
    unfold get?
    rw [h]
    exact if_neg hempty
  have hcompact : (Text.trim v).toList.filter (fun c => !Text.isLayout c) = compact v.toList := by
    rw [Text.trim, String.toList_ofList]
    rfl
  unfold bytes string
  rw [hget]
  dsimp only [bind, Except.bind]
  rw [hcompact]
  cases Text.Base64.decode (compact v.toList) with
  | none => rfl
  | some b => rfl

/-- A value without text lacks it, and any other value has some. -/
theorem lacksText_or (e : Entries) (name : String) :
    e.LacksText name
      ∨ ∃ v, e.values.lookup name = some v ∧ ∃ c ∈ v.toList, isBlank c = false := by
  cases hl : e.values.lookup name with
  | none =>
      left
      intro v hv
      rw [hl] at hv
      cases hv
  | some v =>
      by_cases hb : ∀ c ∈ v.toList, isBlank c = true
      · left
        intro v' hv
        rw [hl] at hv
        cases hv
        exact hb
      · right
        simp only [Classical.not_forall, Bool.not_eq_true] at hb
        obtain ⟨c, hc, hb⟩ := hb
        exact ⟨v, rfl, c, hc, hb⟩

/-- **The bytes of a value are those that it is a written form of.** -/
theorem bytes_eq_ok_iff :
    e.bytes name = .ok b
      ↔ b ≠ [] ∧ ∃ v, e.values.lookup name = some v ∧ Writes (compact v.toList) b := by
  rcases e.lacksText_or name with hlacks | ⟨v, hv, c, hc, hb⟩
  · -- Nothing is left of the value, and nothing is the written form of no bytes.
    rw [bytes_of_lacksText hlacks]
    refine iff_of_false nofun ?_
    rintro ⟨hne, v, hv, hw⟩
    refine hne (hw.eq_nil_iff.mp ?_)
    rw [compact, Text.trimChars_of_forall_isBlank (hlacks v hv)]
    rfl
  · have hsome : compact v.toList ≠ [] :=
      List.ne_nil_of_mem (Text.mem_compact_of_not_isBlank hc hb)
    rw [bytes_of_text hv ⟨c, hc, hb⟩]
    constructor
    · intro h
      cases hd : Text.Base64.decode (compact v.toList) with
      | none =>
          rw [hd] at h
          cases h
      | some b' =>
          rw [hd] at h
          cases h
          have hw := Text.Base64.decode_eq_some_iff.mp hd
          exact ⟨mt hw.eq_nil_iff.mpr hsome, v, hv, hw⟩
    · rintro ⟨-, v', hv', hw⟩
      rw [hv] at hv'
      cases hv'
      rw [Text.Base64.decode_eq_some_iff.mpr hw]
      rfl

/-- What is not read is missing, or is no written form. -/
theorem bytes_eq_error_cases {error : Error} (h : e.bytes name = .error error) :
    (e.LacksText name ∧ error = .configuration (.missingEntry name e.element))
      ∨ (¬ e.LacksText name ∧ error = .configuration (.notBase64 e.element name)) := by
  rcases e.lacksText_or name with hlacks | ⟨v, hv, c, hc, hb⟩
  · rw [bytes_of_lacksText hlacks] at h
    cases h
    exact Or.inl ⟨hlacks, rfl⟩
  · refine Or.inr ⟨?_, ?_⟩
    · intro hlacks
      rw [hlacks v hv c hc] at hb
      cases hb
    · rw [bytes_of_text hv ⟨c, hc, hb⟩] at h
      cases hd : Text.Base64.decode (compact v.toList) with
      | none =>
          rw [hd] at h
          cases h
          rfl
      | some b =>
          rw [hd] at h
          cases h

/-- **Binary values are read exactly as they are written.**  A value is read as some bytes if
these are not none and what counts of it is their written form, with all the padding that is
due or without any, and only then.  Any other value is a fault of the configuration: it is
missing, if it is not there or has no text in it, and else it is no Base64.  So the written
forms of any bytes but none are read wherever layout is put in, and no value is the written
form of two things. -/
theorem bytes_reads_written (e : Entries) (name : String) :
    (∀ b, e.bytes name = .ok b
        ↔ b ≠ [] ∧ ∃ v, e.values.lookup name = some v ∧ Writes (compact v.toList) b)
      ∧ (∀ error, e.bytes name = .error error →
          (e.LacksText name ∧ error = .configuration (.missingEntry name e.element))
            ∨ (¬ e.LacksText name ∧ error = .configuration (.notBase64 e.element name)))
      ∧ (∀ v b text, e.values.lookup name = some v → b ≠ [] → Writes text b →
          Wrapped text v.toList → e.bytes name = .ok b)
      ∧ ∀ v b b', Writes (compact v) b → Writes (compact v) b' → b = b' := by
  refine ⟨fun b => bytes_eq_ok_iff, fun error => bytes_eq_error_cases, ?_, ?_⟩
  · intro v b text hv hb hw hwrapped
    refine bytes_eq_ok_iff.mpr ⟨hb, v, hv, ?_⟩
    rw [hwrapped.compact_eq hw.not_isBlank]
    exact hw
  · intro v b b' hw hw'
    exact hw.unique hw'

/-- A value that is wrapped and has lost its padding, one with a bit too many, and one that is
not there. -/
theorem bytes_reads_written_wrapped :
    let e : Entries := ⟨"keyData", [("saltValue", " AQID\r\n\tBA"), ("verifier", "AQIDBB==")]⟩
    e.bytes "saltValue" = .ok [1, 2, 3, 4]
      ∧ e.bytes "verifier" = .error (.configuration (.notBase64 "keyData" "verifier"))
      ∧ e.bytes "certificate"
          = .error (.configuration (.missingEntry "certificate" "keyData")) := by
  intro e
  refine ⟨?_, ?_, ?_⟩
  · obtain ⟨-, -, hread, -⟩ := bytes_reads_written e "saltValue"
    have hwrapped : Wrapped ['A', 'Q', 'I', 'D', 'B', 'A'] (" AQID\r\n\tBA".toList) :=
      .layout rfl (.char _ (.char _ (.char _ (.char _ (.layout rfl (.layout rfl (.layout rfl
        (.char _ (.char _ .nil)))))))))
    exact hread _ [1, 2, 3, 4] _ rfl (by decide) (Or.inr (by decide)) hwrapped
  · obtain ⟨hok, herror, -, -⟩ := bytes_reads_written e "verifier"
    cases h : e.bytes "verifier" with
    | ok b =>
        obtain ⟨-, v, hv, hw⟩ := (hok b).mp h
        cases hv
        have hnone : Text.Base64.decode (compact "AQIDBB==".toList) = none := by
          decide
        rw [Text.Base64.decode_eq_some_iff.mpr hw] at hnone
        cases hnone
    | error error =>
        rcases herror error h with ⟨hlacks, -⟩ | ⟨-, rfl⟩
        · exact absurd (hlacks "AQIDBB==" rfl 'A' (by decide)) nofun
        · rfl
  · obtain ⟨hok, herror, -, -⟩ := bytes_reads_written e "certificate"
    cases h : e.bytes "certificate" with
    | ok b =>
        obtain ⟨-, v, hv, -⟩ := (hok b).mp h
        cases hv
    | error error =>
        rcases herror error h with ⟨-, rfl⟩ | ⟨htext, -⟩
        · rfl
        · refine absurd ?_ htext
          intro v hv
          cases hv

end Descriptor.Entries

end PageVault
