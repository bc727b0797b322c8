import DiceNotation.Proofs.Yaml.Composing
import DiceNotation.Proofs.Yaml.Numeral
import DiceNotation.Settings.File
import Mathlib.Data.Set.List

/-!
# What the settings need of a format

Settings are written as a dictionary of natural numbers, one of which may be missing, and read from a document
that was written so. `DocumentFormat.Spec` says what both ways have to do for that, each by itself: a
dictionary is written as a block, an entry to a line in the order of the keys, and a block is read as a
dictionary whose values are what their words look like. The format of the files is such a one
(`Yaml.format_spec`).
-/

namespace DiceNotation

open Yaml

/-- A block: an entry to a line, as a key, a colon, a space and a word. -/
def Yaml.block : List (String × String) → String
  | [] => ""
  | (key, word) :: rows => key ++ ": " ++ word ++ "\n" ++ block rows

/-- A natural number or nothing as data. -/
def Data.ofNat? (value : Option Nat) : Data :=
  value.elim .null fun n => .int n

/-- How a natural number is written, or nothing. -/
def Yaml.wordOf (value : Option Nat) : String :=
  value.elim "null" fun n => toString n

/-- What the settings need of a format of documents. -/
structure DocumentFormat.Spec {ε : Type} (F : DocumentFormat ε) : Prop where
  /-- A dictionary of natural numbers of no more digits than are converted is written as a block in the order
  of its keys, with the numbers in decimal and nothing as `null`. -/
  write : ∀ rows : List (String × Option Nat), rows ≠ [] → (rows.map Prod.fst).Nodup →
    (∀ row ∈ rows, IsKey row.1 ∧ ∀ n ∈ row.2, (toString n).length ≤ maxDigits) →
    F.write (rows.map fun row => (.text row.1, .ofNat? row.2)) =
      .ok (block ((rows.map fun row => (row.1, wordOf row.2)).mergeSort fun a b => a.1 ≤ b.1))
  /-- A block with different keys is read as a dictionary with its entries in their order. The keys are texts,
  and each word denotes the value of the kind that it looks like. -/
  read : ∀ rows : List (String × String × Data), rows ≠ [] → (rows.map Prod.fst).Nodup →
    (∀ row ∈ rows, IsKey row.1 ∧ IsWord row.2.1.toList ∧
      scalarData (Tag.ofPlain row.2.1) row.2.1 = .ok row.2.2) →
    F.read (block (rows.map fun row => (row.1, row.2.1))) =
      .ok (.dict (rows.map fun row => (.text row.1, row.2.2)))

namespace Yaml

/-! ## Blocks -/

/-- The lines of entries are their block. -/
theorem Entry.ofList_lines (es : List Entry) :
    String.ofList (es.flatMap line) = block (es.map fun e => (e.key, e.text)) := by
  induction es with
  | nil => rfl
  | cons e es ih =>
    refine String.toList_injective ?_
    rw [List.map_cons, block, ← ih]
    simp [line]

/-- Rows with a key and a word for a value are those of entries. -/
theorem exists_entries {rows : List (String × String × Data)}
    (h : ∀ row ∈ rows, IsKey row.1 ∧ Denotes row.2.1 row.2.2) :
    ∃ es : List Entry, (es.map fun e => (e.key, e.text, e.value)) = rows := by
  have hrange : rows ∈ Set.range (List.map fun e : Entry => (e.key, e.text, e.value)) := by
    rw [Set.range_list_map]
    rintro ⟨key, text, value⟩ hrow
    obtain ⟨hkey, hdenotes⟩ := h _ hrow
    exact ⟨⟨key, value, text, hkey, hdenotes⟩, rfl⟩
  exact hrange

/-! ## Numbers -/

/-- A number has no more digits than so many if it is below that power of ten. -/
theorem length_toString_le_iff {n k : Nat} (hk : 0 < k) : (toString n).length ≤ k ↔ n < Number.tenTo k := by
  rw [Nat.toString_eq_ofList_toDigits, String.length_ofList, Nat.length_toDigits_le_iff (by decide) hk]
  rfl

/-- A number of no more digits than are converted is not a long one. -/
theorem hasLong_ofNat? {value : Option Nat} (h : ∀ n ∈ value, (toString n).length ≤ maxDigits) :
    (Data.ofNat? value).hasLong = false := by
  cases value with
  | none => rfl
  | some n =>
    have hlt := (length_toString_le_iff (by decide)).1 (h n rfl)
    rw [Data.ofNat?, Option.elim_some, Data.hasLong, Int.natAbs_natCast, decide_eq_false_iff_not, Nat.not_le]
    exact hlt

/-- Nor is there one among such numbers. -/
theorem anyLongEntry_ofNat? {rows : List (String × Option Nat)}
    (h : ∀ row ∈ rows, ∀ n ∈ row.2, (toString n).length ≤ maxDigits) :
    Data.anyLongEntry (rows.map fun row => (.text row.1, .ofNat? row.2)) = false := by
  induction rows with
  | nil => rfl
  | cons row rows ih =>
    obtain ⟨hrow, hrows⟩ := List.forall_mem_cons.1 h
    rw [List.map_cons, Data.anyLongEntry, hasLong_ofNat? hrow, ih hrows]
    rfl

/-- A number denotes itself by how it is written, if its digits are converted, and so does nothing. -/
theorem denotes_ofNat? {value : Option Nat} (h : ∀ n ∈ value, (toString n).length ≤ maxDigits) :
    Denotes (wordOf value) (.ofNat? value) := by
  cases value with
  | none => exact denotes_null
  | some n =>
    have hlength := h n rfl
    have hword : wordOf (some n) = String.ofList (numeral n) := Nat.toString_eq_ofList_toDigits
    rw [Nat.toString_eq_ofList_toDigits, String.length_ofList] at hlength
    rw [hword]
    exact denotes_numeral hlength

/-- A number is written as its decimal digits, and nothing as `null`. -/
theorem isWritten_ofNat? {e : Entry} {value : Option Nat} (htext : e.text = wordOf value)
    (hvalue : e.value = .ofNat? value) : e.IsWritten := by
  refine ⟨?_, ?_⟩ <;> rw [htext, hvalue] <;> cases value <;> rfl

/-- Rows of natural numbers whose digits are converted are entries that are written as they should. -/
theorem exists_entries_ofNat? {rows : List (String × Option Nat)}
    (h : ∀ row ∈ rows, IsKey row.1 ∧ ∀ n ∈ row.2, (toString n).length ≤ maxDigits) :
    ∃ es : List Entry, (∀ e ∈ es, e.IsWritten) ∧
      es.map Entry.pair = (rows.map fun row => (.text row.1, .ofNat? row.2)) ∧
      (es.map fun e => (e.key, e.text)) = rows.map fun row => (row.1, wordOf row.2) := by
  induction rows with
  | nil => exact ⟨[], List.forall_mem_nil _, rfl, rfl⟩
  | cons row rows ih =>
    obtain ⟨⟨hkey, hdigits⟩, hrows⟩ := List.forall_mem_cons.1 h
    obtain ⟨es, hwritten, hpairs, hwords⟩ := ih hrows
    let e : Entry := ⟨row.1, .ofNat? row.2, wordOf row.2, hkey, denotes_ofNat? hdigits⟩
    have he : e.IsWritten := isWritten_ofNat? rfl rfl
    refine ⟨e :: es, List.forall_mem_cons.2 ⟨he, hwritten⟩, ?_, ?_⟩
    · rw [List.map_cons, hpairs]
      rfl
    · rw [List.map_cons, hwords]
      rfl

/-! ## The format of the files -/

/-- The format of the files does what the settings need. -/
theorem format_spec : format.Spec where
  write rows _ _ hrows := by
    obtain ⟨es, hwritten, hpairs, hwords⟩ := exists_entries_ofNat? hrows
    have hsorted : (Entry.byKey es).map (fun e => (e.key, e.text)) =
        (es.map fun e => (e.key, e.text)).mergeSort fun a b => a.1 ≤ b.1 :=
      List.map_mergeSort fun _ _ _ _ => rfl
    show (if Data.anyLongEntry _ = true then _ else _) = _
    rw [anyLongEntry_ofNat? fun row hrow => (hrows row hrow).2, if_neg Bool.false_ne_true, ← hpairs,
      Entry.write_pairs hwritten, Entry.ofList_lines, hsorted, hwords]
  read rows hne hkeys hrows := by
    obtain ⟨es, rfl⟩ := exists_entries fun row hrow =>
      ⟨(hrows row hrow).1, (hrows row hrow).2.1, (hrows row hrow).2.2⟩
    have hsome : es ≠ [] := fun hnil => hne (by rw [hnil]; rfl)
    have hnodup : (es.map Entry.key).Nodup := by
      rwa [List.map_map] at hkeys
    have hload := Entry.load_lines hsome hnodup
    rw [Entry.ofList_lines] at hload
    rw [List.map_map, List.map_map]
    exact hload

end Yaml

end DiceNotation
