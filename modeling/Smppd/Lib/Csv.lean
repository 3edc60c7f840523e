/-
  SEPARATED VALUES, over any alphabet: records of fields as one text.

  A separator stands between the fields of a record and a terminator ends it.  A field may stand between quotes,
  and a quote in it is doubled then.  `decode` reads a text with three registers: the records it has read, the
  fields of the record it is in, and the field it is in.  `decode_encode` is the round trip, whatever the fields
  are made of: `escape` quotes those that would be misread.

  The reader is lenient where the writer never goes: a quote within a field that did not begin with one stands for
  itself.
-/
import Mathlib.Data.List.Basic

namespace Csv

variable {α : Type*}

/-- The three marks, which are distinct. -/
structure Dialect (α : Type*) where
  separator : α
  quote : α
  terminator : α
  separator_ne_quote : separator ≠ quote
  terminator_ne_quote : terminator ≠ quote
  terminator_ne_separator : terminator ≠ separator

variable [DecidableEq α] (d : Dialect α)

/-! ## Writing -/

/-- A field that may be misread: it has a mark in it. -/
def Marked (field : List α) : Prop := d.separator ∈ field ∨ d.quote ∈ field ∨ d.terminator ∈ field

instance (field : List α) : Decidable (Marked d field) := inferInstanceAs (Decidable (_ ∨ _ ∨ _))

/-- A field with its quotes doubled. -/
def double (field : List α) : List α := field.flatMap fun c => if c = d.quote then [d.quote, d.quote] else [c]

/-- A field, between quotes if it has a mark in it. -/
def escape (field : List α) : List α :=
  if Marked d field then d.quote :: (double d field ++ [d.quote]) else field

/-- The fields of a record, with the separator between them. -/
def encodeRecord (fields : List (List α)) : List α := [d.separator].intercalate (fields.map (escape d))

/-- Records, each with the terminator after it. -/
def encode (records : List (List (List α))) : List α := records.flatMap fun fields => encodeRecord d fields ++ [d.terminator]

/-! ## Reading -/

/-- Where the reader is in a field. -/
inductive State where
  /-- Before it. -/
  | start
  /-- In a field that did not begin with a quote. -/
  | plain
  /-- Between quotes. -/
  | quoted
  /-- After a quote that ends the field, or is one of two. -/
  | quoteSeen
  deriving DecidableEq

/-- A reader. -/
structure Reader (α : Type*) where
  state : State
  field : List α
  fields : List (List α)
  records : List (List (List α))

namespace Reader

/-- At the beginning of a record. -/
def atRecord (records : List (List (List α))) : Reader α := ⟨.start, [], [], records⟩

/-- The field is over. -/
def endField (r : Reader α) : Reader α := { r with state := .start, field := [], fields := r.fields ++ [r.field] }

/-- The record is over. -/
def endRecord (r : Reader α) : Reader α := atRecord (r.records ++ [r.fields ++ [r.field]])

/-- One more letter of the field. -/
def push (state : State) (c : α) (r : Reader α) : Reader α := { r with state, field := r.field ++ [c] }

/-- A letter outside quotes. -/
def outside (r : Reader α) (c : α) : Reader α :=
  if c = d.separator then r.endField
  else if c = d.terminator then r.endRecord
  else r.push .plain c

/-- A letter. -/
def step (r : Reader α) (c : α) : Reader α :=
  match r.state with
  | .start => if c = d.quote then { r with state := .quoted } else r.outside d c
  | .plain => r.outside d c
  | .quoted => if c = d.quote then { r with state := .quoteSeen } else r.push .quoted c
  | .quoteSeen => if c = d.quote then r.push .quoted c else r.outside d c

end Reader

/-- The records of a text, if it ends with a record. -/
def decode (text : List α) : Option (List (List (List α))) :=
  let r := text.foldl (Reader.step d) (.atRecord [])
  if r.state = .start ∧ r.fields = [] then some r.records else none

/-! ## The round trip -/

namespace Reader

variable {d} {r : Reader α}

theorem step_separator (hstate : r.state ≠ .quoted) : r.step d d.separator = r.endField := by
  obtain ⟨state, field, fields, records⟩ := r
  have hout : outside d ⟨state, field, fields, records⟩ d.separator = endField ⟨state, field, fields, records⟩ := if_pos rfl
  cases state with
  | quoted => exact absurd rfl hstate
  | plain => exact hout
  | start | quoteSeen => exact (if_neg d.separator_ne_quote).trans hout

theorem step_terminator (hstate : r.state ≠ .quoted) : r.step d d.terminator = r.endRecord := by
  obtain ⟨state, field, fields, records⟩ := r
  have hout : outside d ⟨state, field, fields, records⟩ d.terminator = endRecord ⟨state, field, fields, records⟩ :=
    (if_neg d.terminator_ne_separator).trans (if_pos rfl)
  cases state with
  | quoted => exact absurd rfl hstate
  | plain => exact hout
  | start | quoteSeen => exact (if_neg d.terminator_ne_quote).trans hout

/-- A letter that is no mark, outside quotes. -/
theorem step_plain {c : α} (hseparator : c ≠ d.separator) (hquote : c ≠ d.quote) (hterminator : c ≠ d.terminator)
    (hstate : r.state = .start ∨ r.state = .plain) : r.step d c = r.push .plain c := by
  have hout : r.outside d c = r.push .plain c := (if_neg hseparator).trans (if_neg hterminator)
  unfold step
  rcases hstate with hstate | hstate
  · rw [hstate]
    exact (if_neg hquote).trans hout
  · rw [hstate]
    exact hout

/-- A field without marks. -/
theorem foldl_plain {field : List α} (hfield : ¬ Marked d field) (hstate : r.state = .start ∨ r.state = .plain) :
    (field.foldl (step d) r).state ≠ .quoted ∧
      field.foldl (step d) r = { r with state := (field.foldl (step d) r).state, field := r.field ++ field } := by
  induction field generalizing r with
  | nil =>
    refine ⟨?_, ?_⟩
    · rw [List.foldl_nil]
      rcases hstate with hstate | hstate
      · rw [hstate]
        exact nofun
      · rw [hstate]
        exact nofun
    · rw [List.foldl_nil, List.append_nil]
  | cons c field ih =>
    simp only [Marked, List.mem_cons, not_or] at hfield
    obtain ⟨⟨hseparator, hs⟩, ⟨hquote, hq⟩, hterminator, ht⟩ := hfield
    have hstep : r.step d c = r.push .plain c :=
      step_plain (Ne.symm hseparator) (Ne.symm hquote) (Ne.symm hterminator) hstate
    obtain ⟨hend, heq⟩ := ih (r := r.push .plain c) (by simp only [Marked, hs, hq, ht, or_self, not_false_eq_true])
      (.inr rfl)
    rw [List.foldl_cons, hstep]
    refine ⟨hend, heq.trans ?_⟩
    simp only [push, List.append_assoc, List.singleton_append]

/-- The letters between the quotes. -/
theorem foldl_double (field : List α) (hstate : r.state = .quoted) :
    (double d field).foldl (step d) r = { r with field := r.field ++ field } := by
  induction field generalizing r with
  | nil => rw [double, List.flatMap_nil, List.foldl_nil, List.append_nil]
  | cons c field ih =>
    have hpush : (if c = d.quote then [d.quote, d.quote] else [c]).foldl (step d) r = r.push .quoted c := by
      by_cases hc : c = d.quote
      · subst hc
        rw [if_pos rfl, List.foldl_cons, List.foldl_cons, List.foldl_nil]
        simp only [step, hstate, if_true, push]
      · rw [if_neg hc, List.foldl_cons, List.foldl_nil]
        simp only [step, hstate, hc, if_false]
    rw [double, List.flatMap_cons, List.foldl_append, hpush]
    refine (ih (r := r.push .quoted c) rfl).trans ?_
    simp only [push, List.append_assoc, List.singleton_append, hstate]

/-- **A field is read as it was written**, up to the mark that ends it. -/
theorem foldl_escape (field : List α) (hstart : r.state = .start) (hempty : r.field = []) :
    ((escape d field).foldl (step d) r).state ≠ .quoted ∧
      (escape d field).foldl (step d) r = { r with state := ((escape d field).foldl (step d) r).state, field } := by
  by_cases hmarked : Marked d field
  · have hopen : r.step d d.quote = { r with state := .quoted } := by
      unfold step
      rw [hstart]
      exact if_pos rfl
    have hread : (escape d field).foldl (step d) r = { r with state := .quoteSeen, field } := by
      rw [escape, if_pos hmarked, List.foldl_cons, hopen, List.foldl_append, foldl_double field rfl, hempty,
        List.nil_append, List.foldl_cons, List.foldl_nil]
      exact if_pos rfl
    rw [hread]
    exact ⟨nofun, rfl⟩
  · obtain ⟨hstate, heq⟩ := foldl_plain hmarked (.inl hstart)
    rw [escape, if_neg hmarked]
    refine ⟨hstate, heq.trans ?_⟩
    rw [hempty, List.nil_append]

/-- A field and the separator after it. -/
theorem foldl_escape_separator (field : List α) (hstart : r.state = .start) (hempty : r.field = []) :
    (escape d field ++ [d.separator]).foldl (step d) r = ⟨.start, [], r.fields ++ [field], r.records⟩ := by
  obtain ⟨hstate, heq⟩ := foldl_escape (d := d) field hstart hempty
  rw [List.foldl_append, List.foldl_cons, List.foldl_nil, step_separator hstate, heq]
  rfl

/-- A field and the terminator after it. -/
theorem foldl_escape_terminator (field : List α) (hstart : r.state = .start) (hempty : r.field = []) :
    (escape d field ++ [d.terminator]).foldl (step d) r = atRecord (r.records ++ [r.fields ++ [field]]) := by
  obtain ⟨hstate, heq⟩ := foldl_escape (d := d) field hstart hempty
  rw [List.foldl_append, List.foldl_cons, List.foldl_nil, step_terminator hstate, heq]
  rfl

/-- The rest of a record. -/
theorem foldl_encodeRecord (field : List α) (rest : List (List α)) (hstart : r.state = .start) (hempty : r.field = []) :
    (encodeRecord d (field :: rest) ++ [d.terminator]).foldl (step d) r =
      atRecord (r.records ++ [r.fields ++ field :: rest]) := by
  induction rest generalizing field r with
  | nil =>
    rw [encodeRecord, List.map_cons, List.map_nil, List.intercalate_singleton]
    exact foldl_escape_terminator field hstart hempty
  | cons next rest ih =>
    have hcons : encodeRecord d (field :: next :: rest) =
        escape d field ++ [d.separator] ++ encodeRecord d (next :: rest) := by
      simp only [encodeRecord, List.map_cons, List.intercalate_cons_cons]
    rw [hcons, List.append_assoc, List.foldl_append, foldl_escape_separator field hstart hempty, ih next rfl rfl,
      List.append_assoc, List.singleton_append]

/-- Whole records. -/
theorem foldl_encode (records : List (List (List α))) (hsome : ∀ fields ∈ records, fields ≠ [])
    (before : List (List (List α))) :
    (encode d records).foldl (step d) (atRecord before) = atRecord (before ++ records) := by
  induction records generalizing before with
  | nil => rw [encode, List.flatMap_nil, List.foldl_nil, List.append_nil]
  | cons fields records ih =>
    obtain ⟨hfields, hrest⟩ := List.forall_mem_cons.mp hsome
    obtain ⟨field, rest, rfl⟩ := List.exists_cons_of_ne_nil hfields
    rw [encode, List.flatMap_cons, List.foldl_append, foldl_encodeRecord field rest rfl rfl]
    refine (ih hrest _).trans ?_
    rw [atRecord, List.append_assoc]
    rfl

end Reader

/-- **The round trip.**  Records that have fields are read back as they were written. -/
theorem decode_encode (records : List (List (List α))) (hsome : ∀ fields ∈ records, fields ≠ []) :
    decode d (encode d records) = some records := by
  unfold decode
  rw [Reader.foldl_encode records hsome []]
  exact if_pos ⟨rfl, rfl⟩

end Csv
