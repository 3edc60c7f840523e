/-
  THE CONTENT OF A RECORD (`src/cdr/types.rs`): `with_content`, which keeps the text of a message, or the start of
  it and three dots.

  The limit is a number of BYTES, and so is the offset at which the text is cut: `&content[..max]`.  A text cannot
  be cut in the middle of a character, and the slice PANICS there.  The length is cast to `u32` on the way, and
  wraps from four gigabytes on.  `withContent_iff` says that these are the only two ways in which the record is
  not what it is meant to be.

  A text is its characters, of one to four bytes each.
-/
import Mathlib.Algebra.Ring.Nat
import Smppd.Cdr.Types

set_option linter.unusedVariables false

namespace Smppd

/-! ## Slices -/

/-- The characters that fill a number of bytes, if they do. -/
def takeBytes : Nat → List Char → Option (List Char)
  | 0, _ => some []
  | _ + 1, [] => none
  | n + 1, c :: chars =>
    if c.utf8Size ≤ n + 1 then (takeBytes (n + 1 - c.utf8Size) chars).map fun head => c :: head else none

/-- `&content[..max]`, which panics in the middle of a character and beyond the end. -/
def sliceTo (content : String) (max : Nat) : Option String := (takeBytes max content.toList).map String.ofList

/-- `is_char_boundary`: a start of the text has so many bytes. -/
def Boundary (content : String) (max : Nat) : Prop :=
  ∃ head tail, content = head ++ tail ∧ head.utf8ByteSize = max

theorem utf8ByteSize_cons (c : Char) (chars : List Char) :
    (String.ofList (c :: chars)).utf8ByteSize = c.utf8Size + (String.ofList chars).utf8ByteSize := by
  rw [String.ofList_cons, String.utf8ByteSize_append, String.utf8ByteSize_singleton]

/-- **What fills the bytes** is the start of the text that has so many. -/
theorem takeBytes_eq_some_iff {n : Nat} {chars head : List Char} :
    takeBytes n chars = some head ↔ head <+: chars ∧ (String.ofList head).utf8ByteSize = n := by
  induction chars generalizing n head with
  | nil =>
    rw [List.prefix_nil]
    cases n with
    | zero =>
      rw [takeBytes, Option.some.injEq, eq_comm]
      refine (and_iff_left_of_imp ?_).symm
      rintro rfl
      exact String.utf8ByteSize_empty
    | succ n =>
      refine iff_of_false (by simp [takeBytes]) ?_
      rintro ⟨rfl, hsize⟩
      exact absurd hsize (by simp)
  | cons c chars ih =>
    have hpos := c.utf8Size_pos
    cases n with
    | zero =>
      rw [takeBytes, Option.some.injEq]
      constructor
      · rintro rfl
        exact ⟨List.nil_prefix, String.utf8ByteSize_empty⟩
      · rintro ⟨-, hsize⟩
        cases head with
        | nil => rfl
        | cons d head =>
          have hd := d.utf8Size_pos
          rw [utf8ByteSize_cons] at hsize
          omega
    | succ n =>
      rw [takeBytes]
      constructor
      · intro htake
        split at htake
        · rename_i hfits
          obtain ⟨rest, hrest, rfl⟩ := Option.map_eq_some_iff.mp htake
          obtain ⟨hbegins, hsize⟩ := ih.mp hrest
          refine ⟨List.cons_prefix_cons.mpr ⟨rfl, hbegins⟩, ?_⟩
          rw [utf8ByteSize_cons, hsize]
          omega
        · exact absurd htake (by simp)
      · rintro ⟨hbegins, hsize⟩
        cases head with
        | nil => exact absurd hsize (by simp)
        | cons d head =>
          obtain ⟨rfl, hheads⟩ := List.cons_prefix_cons.mp hbegins
          rw [utf8ByteSize_cons] at hsize
          have hrest : takeBytes (n + 1 - d.utf8Size) chars = some head := ih.mpr ⟨hheads, by omega⟩
          rw [if_pos (by omega), hrest]
          rfl

theorem sliceTo_eq_some_iff {content head : String} {max : Nat} :
    sliceTo content max = some head ↔ (∃ tail, content = head ++ tail) ∧ head.utf8ByteSize = max := by
  rw [sliceTo, Option.map_eq_some_iff]
  constructor
  · rintro ⟨chars, htake, rfl⟩
    obtain ⟨⟨rest, hrest⟩, hsize⟩ := takeBytes_eq_some_iff.mp htake
    refine ⟨⟨String.ofList rest, ?_⟩, hsize⟩
    rw [← String.ofList_append, hrest, String.ofList_toList]
  · rintro ⟨⟨tail, rfl⟩, hsize⟩
    refine ⟨head.toList, takeBytes_eq_some_iff.mpr ⟨⟨tail.toList, String.toList_append.symm⟩, ?_⟩, String.ofList_toList⟩
    rw [String.ofList_toList]
    exact hsize

/-- **Where a text can be cut.** -/
theorem isSome_sliceTo_iff {content : String} {max : Nat} : (sliceTo content max).isSome ↔ Boundary content max := by
  rw [Option.isSome_iff_exists]
  constructor
  · rintro ⟨head, hhead⟩
    obtain ⟨⟨tail, htail⟩, hsize⟩ := sliceTo_eq_some_iff.mp hhead
    exact ⟨head, tail, htail, hsize⟩
  · rintro ⟨head, tail, htail, hsize⟩
    exact ⟨head, sliceTo_eq_some_iff.mpr ⟨⟨tail, htail⟩, hsize⟩⟩

/-! ## The content -/

/-- A call detail record with its content. -/
structure ContentCdr extends Cdr where
  /-- Message content (may be truncated/hashed for privacy). -/
  content : Option String := none

/-- `with_content`: set content (with optional truncation); nothing where it panics. -/
def ContentCdr.withContent (content : String) (maxLen : Option Nat) (self : ContentCdr) : Option ContentCdr :=
  let self := { self with messageLength := UInt32.ofNat content.utf8ByteSize }
  match maxLen with
  | some max =>
    if max < content.utf8ByteSize then
      (sliceTo content max).map fun head => { self with content := some (head ++ "...") }
    else some { self with content := some content }
  | none => some { self with content := some content }

/-- **What a record says of a text**: its length in bytes, and the text itself where it fits, else a start of it of
    at most the limit and three dots. -/
structure Carries (content : String) (maxLen : Option Nat) (cdr : ContentCdr) : Prop where
  length : cdr.messageLength.toNat = content.utf8ByteSize
  whole : (∀ max, maxLen = some max → content.utf8ByteSize ≤ max) → cdr.content = some content
  cut : ∀ max, maxLen = some max → max < content.utf8ByteSize →
    ∃ head tail, content = head ++ tail ∧ head.utf8ByteSize ≤ max ∧ cdr.content = some (head ++ "...")

theorem toNat_length_iff {n : Nat} : (UInt32.ofNat n).toNat = n ↔ n < 2 ^ 32 := by
  rw [UInt32.toNat_ofNat']
  exact Nat.mod_eq_iff_lt (by decide)

/-- The record with a length and a text. -/
def ContentCdr.holding (length : Nat) (text : String) (self : ContentCdr) : ContentCdr :=
  { self with messageLength := UInt32.ofNat length, content := some text }

/-- A text that fits is kept. -/
theorem withContent_whole {content : String} {maxLen : Option Nat} (cdr : ContentCdr)
    (h : ∀ max, maxLen = some max → content.utf8ByteSize ≤ max) :
    cdr.withContent content maxLen = some (cdr.holding content.utf8ByteSize content) := by
  cases maxLen with
  | none => rfl
  | some max =>
    rw [ContentCdr.withContent]
    exact if_neg (Nat.not_lt.mpr (h max rfl))

/-- One that does not is cut, where that can be. -/
theorem withContent_cut {content : String} {max : Nat} (cdr : ContentCdr) (h : max < content.utf8ByteSize) :
    cdr.withContent content (some max) =
      (sliceTo content max).map fun head => cdr.holding content.utf8ByteSize (head ++ "...") := by
  rw [ContentCdr.withContent]
  exact if_pos h

/-- A text is cut or not. -/
theorem whole_or_cut (content : String) (maxLen : Option Nat) :
    (∀ max, maxLen = some max → content.utf8ByteSize ≤ max) ∨ ∃ max, maxLen = some max ∧ max < content.utf8ByteSize := by
  cases maxLen with
  | none => exact Or.inl nofun
  | some max =>
    rcases Nat.lt_or_ge max content.utf8ByteSize with hlt | hge
    · exact Or.inr ⟨max, rfl, hlt⟩
    · refine Or.inl ?_
      rintro _ ⟨rfl⟩
      exact hge

/-- **The content is cut safely** exactly when its length fits into `u32` and the limit, if it is cut, does not
    fall into a character. -/
theorem withContent_iff (cdr : ContentCdr) (content : String) (maxLen : Option Nat) :
    (∃ after, cdr.withContent content maxLen = some after ∧ Carries content maxLen after) ↔
      content.utf8ByteSize < 2 ^ 32 ∧
        ∀ max, maxLen = some max → max < content.utf8ByteSize → Boundary content max := by
  rcases whole_or_cut content maxLen with hwhole | ⟨max, rfl, hcut⟩
  · rw [withContent_whole cdr hwhole]
    constructor
    · rintro ⟨_, ⟨rfl⟩, hcarries⟩
      refine ⟨toNat_length_iff.mp hcarries.length, fun max hmax hlt => ?_⟩
      exact absurd (hwhole max hmax) (Nat.not_le.mpr hlt)
    · rintro ⟨hlength, -⟩
      refine ⟨_, rfl, toNat_length_iff.mpr hlength, fun _ => rfl, fun max hmax hlt => ?_⟩
      exact absurd (hwhole max hmax) (Nat.not_le.mpr hlt)
  · rw [withContent_cut cdr hcut]
    constructor
    · rintro ⟨after, hafter, hcarries⟩
      obtain ⟨head, hhead, rfl⟩ := Option.map_eq_some_iff.mp hafter
      refine ⟨toNat_length_iff.mp hcarries.length, ?_⟩
      rintro _ ⟨rfl⟩ -
      exact isSome_sliceTo_iff.mp (by rw [hhead]; rfl)
    · rintro ⟨hlength, hboundary⟩
      obtain ⟨head, tail, htail, hsize⟩ := hboundary max rfl hcut
      have hhead : sliceTo content max = some head := sliceTo_eq_some_iff.mpr ⟨⟨tail, htail⟩, hsize⟩
      refine ⟨_, Option.map_eq_some_iff.mpr ⟨head, hhead, rfl⟩, toNat_length_iff.mpr hlength, ?_, ?_⟩
      · intro hfits
        exact absurd (hfits max rfl) (Nat.not_le.mpr hcut)
      · rintro _ ⟨rfl⟩ -
        exact ⟨head, tail, htail, Nat.le_of_eq hsize, rfl⟩

/-- A greeting of four bytes, cut after three of them: in the middle of its last character. -/
theorem withContent_panics :
    (ContentCdr.mk (.submit "" "m1" "c1" "a" "b") none).withContent "Olá" (some 3) = none ∧
      ¬ ∃ after, (ContentCdr.mk (.submit "" "m1" "c1" "a" "b") none).withContent "Olá" (some 3) = some after ∧
        Carries "Olá" (some 3) after := by
  have hpanic : (ContentCdr.mk (.submit "" "m1" "c1" "a" "b") none).withContent "Olá" (some 3) = none := by
    decide +kernel
  refine ⟨hpanic, ?_⟩
  rintro ⟨after, hafter, -⟩
  rw [hpanic] at hafter
  exact absurd hafter (by simp)

end Smppd
