import AddressLookup.Proofs.Address.Groups
import AddressLookup.Proofs.Report.Lossless

/-! What the lines of text on a dataset keep. They are read from the last line up: a field waits for the key
above it, and a line belongs to a key exactly if it is indented. The dataset is had back so, provided that no
key, name or value breaks a line and no name has the mark that ends it. -/

namespace AddressLookup

namespace Text

def linesOf (s : List Char) : List (List Char) :=
  (splitOn '\n' s).dropLast

theorem linesOf_rows {rows : List (List Char)} (h : ∀ row ∈ rows, '\n' ∉ row) :
    linesOf (rows.flatMap (· ++ ['\n'])) = rows := by
  rw [linesOf, splitOn_flatMap_concat h, List.dropLast_concat]

def leadingNumber? (s : List Char) : Option Nat :=
  let digits := s.takeWhile Char.isDigit
  if digits.isEmpty then none else some (Nat.ofDigitChars 10 digits 0)

theorem leadingNumber?_toDigits_append (n : Nat) {rest : List Char} (hrest : StopsRun Char.isDigit rest) :
    leadingNumber? (Nat.toDigits 10 n ++ rest) = some n := by
  have hdigits := takeWhile_run (fun c hc => isDigit_of_mem_toDigits (n := n) hc) hrest
  have hne : (Nat.toDigits 10 n).isEmpty = false := by
    obtain ⟨c, cs, heq, -⟩ := toDigits_eq_cons n
    rw [heq, List.isEmpty_cons]
  rw [leadingNumber?, hdigits, hne, if_neg Bool.false_ne_true, Nat.ofDigitChars_ten_toDigits]

end Text

namespace Report

open Text

def mark : List Char := [':', ' ']

theorem borderless_mark : Borderless mark := by decide

theorem mark_ne_nil : mark ≠ [] := List.cons_ne_nil _ _

structure Legible (field : String × String) : Prop where
  name_line : '\n' ∉ field.1.toList
  name_mark : ¬ mark <:+: field.1.toList
  value_line : '\n' ∉ field.2.toList

theorem legible_iff {field : String × String} : Legible field ↔
    '\n' ∉ field.1.toList ∧ ¬ mark <:+: field.1.toList ∧ '\n' ∉ field.2.toList :=
  ⟨fun h => ⟨h.1, h.2, h.3⟩, fun h => ⟨h.1, h.2.1, h.2.2⟩⟩

instance (field : String × String) : Decidable (Legible field) :=
  decidable_of_iff _ legible_iff.symm

/-- The line of every key and of every field can be told for what it is. -/
def Lined (d : Dataset) : Prop :=
  ∀ e ∈ d.entries, Address.isValid e.1 = true ∧ ∀ field ∈ e.2.entries, Legible field

instance (d : Dataset) : Decidable (Lined d) :=
  inferInstanceAs (Decidable (∀ e ∈ d.entries, Address.isValid e.1 = true ∧ ∀ field ∈ e.2.entries, Legible field))

def fieldRow (field : String × String) : List Char :=
  ' ' :: ' ' :: (field.1.toList ++ (mark ++ field.2.toList))

def placeholder : List Char := ' ' :: ' ' :: "(no fields)".toList

def recordRows (r : Record) : List (List Char) :=
  if r.isEmpty then [placeholder] else r.entries.map fieldRow

def entryRows (e : String × Record) : List (List Char) :=
  e.1.toList :: recordRows e.2

def countRow (n : Nat) : List Char :=
  Nat.toDigits 10 n ++ (if n = 1 then " record" else " records").toList

def datasetRows (d : Dataset) : List (List Char) :=
  d.entries.flatMap entryRows ++ [countRow d.size]

section

variable {field : String × String} {d : Dataset}

theorem recordLines_eq (r : Record) : recordLines false r = (recordRows r).flatMap (· ++ ['\n']) := by
  rw [recordLines, recordRows]
  split
  · rfl
  · rw [List.flatMap_map]
    refine List.flatMap_congr fun field _ => ?_
    simp [fieldLine, fieldRow, mark, paint]

theorem entryLines_eq (e : String × Record) : entryLines false e = (entryRows e).flatMap (· ++ ['\n']) := by
  rw [entryLines, entryRows, List.flatMap_cons, recordLines_eq]
  rfl

theorem countLine_eq (n : Nat) : countLine n = countRow n ++ ['\n'] := by
  rw [countLine, countRow, List.append_assoc]
  split <;> rfl

theorem datasetLines_eq (d : Dataset) : datasetLines false d = (datasetRows d).flatMap (· ++ ['\n']) := by
  rw [datasetLines, datasetRows, List.flatMap_append, List.flatMap_assoc, List.flatMap_singleton, countLine_eq]
  exact congrArg (· ++ _) (List.flatMap_congr fun e _ => entryLines_eq e)

theorem Legible.not_mem_fieldRow (h : Legible field) : '\n' ∉ fieldRow field := by
  simp [fieldRow, mark, h.name_line, h.value_line]

theorem not_mem_countRow (n : Nat) : '\n' ∉ countRow n := by
  rw [countRow, List.mem_append, not_or]
  refine ⟨fun hc => absurd (isDigit_of_mem_toDigits hc) (by decide), ?_⟩
  split <;> decide

theorem Lined.not_mem (h : Lined d) : ∀ row ∈ datasetRows d, '\n' ∉ row := by
  intro row hrow
  rcases List.mem_append.1 hrow with hrow | hrow
  · obtain ⟨e, he, hrow⟩ := List.mem_flatMap.1 hrow
    obtain ⟨hkey, hfields⟩ := h e he
    rcases List.mem_cons.1 hrow with rfl | hrow
    · exact Address.not_mem_of_isValid hkey (by decide) (by decide)
    · rw [recordRows] at hrow
      split at hrow
      · rw [List.mem_singleton.1 hrow]
        decide
      · obtain ⟨field, hfield, rfl⟩ := List.mem_map.1 hrow
        exact (hfields field hfield).not_mem_fieldRow
  · rw [List.mem_singleton.1 hrow]
    exact not_mem_countRow d.size

theorem Lined.linesOf_ofDataset (h : Lined d) :
    linesOf (ofDataset .text false d).toList = datasetRows d := by
  rw [ofDataset, String.toList_ofList, datasetLines_eq, linesOf_rows h.not_mem]

end

/-- What has been read of the lines below a line: the fields that still want a key, and the records. -/
structure Below where
  fields : List (String × String)
  records : List (String × Record)

def readField? (s : List Char) : Option (String × String) :=
  match splitWord mark s with
  | name :: value :: more => some (String.ofList name, String.ofList (joinWith mark (value :: more)))
  | _ => none

def readRow (row : List Char) (below : Below) : Below :=
  match row with
  | ' ' :: ' ' :: s => { below with fields := (readField? s).toList ++ below.fields }
  | _ => ⟨[], (String.ofList row, KeyMap.ofList below.fields) :: below.records⟩

def readRows (rows : List (List Char)) : Below :=
  rows.foldr readRow ⟨[], []⟩

def readDataset (text : String) : Dataset :=
  KeyMap.ofList (readRows (linesOf text.toList).dropLast).records

section

variable {below : Below} {field : String × String} {d : Dataset}

theorem Legible.readField?_append (h : Legible field) :
    readField? (field.1.toList ++ (mark ++ field.2.toList)) = some field := by
  obtain ⟨value, more, hvalue⟩ := List.exists_cons_of_ne_nil (splitWord_ne_nil mark field.2.toList)
  have hjoin := joinWith_splitWord borderless_mark mark_ne_nil field.2.toList
  rw [readField?, splitWord_append borderless_mark mark_ne_nil h.name_mark, hvalue]
  rw [hvalue] at hjoin
  simp only [hjoin, String.ofList_toList]

theorem Legible.readRow_fieldRow (h : Legible field) :
    readRow (fieldRow field) below = { below with fields := field :: below.fields } := by
  simp only [fieldRow, readRow, h.readField?_append, Option.toList_some, List.singleton_append]

theorem readRow_placeholder : readRow placeholder below = below := by
  have hnone : readField? "(no fields)".toList = none := by decide
  simp only [placeholder, readRow, hnone, Option.toList_none, List.nil_append]

theorem readRow_key {key : String} (hkey : Address.isValid key = true) :
    readRow key.toList below = ⟨[], (key, KeyMap.ofList below.fields) :: below.records⟩ := by
  have hblank : ' ' ∉ key.toList := Address.not_mem_of_isValid hkey (by decide) (by decide)
  have hother : ∀ s, key.toList ≠ ' ' :: ' ' :: s := fun s hs => hblank (hs ▸ List.mem_cons_self)
  rw [readRow, String.ofList_toList]
  exact hother

theorem foldr_fieldRow {fields : List (String × String)} (h : ∀ field ∈ fields, Legible field) :
    (fields.map fieldRow).foldr readRow below = { below with fields := fields ++ below.fields } := by
  induction fields with
  | nil => rfl
  | cons field fields ih =>
    obtain ⟨hfield, hfields⟩ := List.forall_mem_cons.1 h
    rw [List.map_cons, List.foldr_cons, ih hfields, hfield.readRow_fieldRow, List.cons_append]

theorem foldr_recordRows {r : Record} (h : ∀ field ∈ r.entries, Legible field) :
    (recordRows r).foldr readRow below = { below with fields := r.entries ++ below.fields } := by
  rw [recordRows]
  split
  · next hempty =>
    rw [List.foldr_cons, List.foldr_nil, readRow_placeholder, List.isEmpty_iff.1 hempty, List.nil_append]
  · exact foldr_fieldRow h

theorem foldr_entryRows {e : String × Record} (hkey : Address.isValid e.1 = true)
    (hfields : ∀ field ∈ e.2.entries, Legible field) (records : List (String × Record)) :
    (entryRows e).foldr readRow ⟨[], records⟩ = ⟨[], e :: records⟩ := by
  rw [entryRows, List.foldr_cons, foldr_recordRows hfields, readRow_key hkey, List.append_nil,
    Json.ofList_of_sorted e.2.sorted]

theorem readRows_entries {entries : List (String × Record)}
    (h : ∀ e ∈ entries, Address.isValid e.1 = true ∧ ∀ field ∈ e.2.entries, Legible field) :
    readRows (entries.flatMap entryRows) = ⟨[], entries⟩ := by
  induction entries with
  | nil => rfl
  | cons e entries ih =>
    obtain ⟨⟨hkey, hfields⟩, hentries⟩ := List.forall_mem_cons.1 h
    have hbelow := ih hentries
    rw [readRows] at hbelow ⊢
    rw [List.flatMap_cons, List.foldr_append, hbelow, foldr_entryRows hkey hfields]

theorem Lined.readDataset_ofDataset (h : Lined d) : readDataset (ofDataset .text false d) = d := by
  rw [readDataset, h.linesOf_ofDataset, datasetRows, List.dropLast_concat, readRows_entries h,
    Json.ofList_of_sorted d.sorted]

theorem leadingNumber?_countRow (n : Nat) : leadingNumber? (countRow n) = some n := by
  refine leadingNumber?_toDigits_append n ?_
  split <;> exact stopsRun_cons.2 rfl

end

/-- Two datasets with the same text are the same, the dataset can be read from its text, and the number on the
last line is that of the records. -/
theorem ofDataset_text_decodable {d e : Dataset} (hd : Lined d) (he : Lined e) :
    (ofDataset .text false d = ofDataset .text false e ↔ d = e) ∧
      readDataset (ofDataset .text false d) = d ∧
      (linesOf (ofDataset .text false d).toList).getLast?.bind leadingNumber? = some d.size := by
  refine ⟨⟨fun h => ?_, fun h => h ▸ rfl⟩, hd.readDataset_ofDataset, ?_⟩
  · have hread := hd.readDataset_ofDataset
    rw [h, he.readDataset_ofDataset] at hread
    exact hread.symm
  · rw [hd.linesOf_ofDataset, datasetRows, List.getLast?_concat, Option.bind_some, leadingNumber?_countRow]

/-- A record without fields is told from one whose only field has the name that stands for none, and a value
from a count, a name that ends in a colon from the mark behind it. -/
theorem ofDataset_text_decodable_of_lookalikes :
    let tricky : Record := KeyMap.ofList [("", "2 records"), ("a:", " b: c"), ("1.2.3.4", "")]
    let d : Dataset := KeyMap.ofList [("1.2.3.4", tricky), ("8.8.8.8", ∅)]
    let e : Dataset := KeyMap.ofList [("1.2.3.4", tricky), ("8.8.8.8", KeyMap.ofList [("(no fields)", "")])]
    Lined d ∧ Lined e ∧ ofDataset .text false d ≠ ofDataset .text false e ∧
      readDataset (ofDataset .text false d) = d ∧ ofDataset .text false d =
        "1.2.3.4\n  : 2 records\n  1.2.3.4: \n  a::  b: c\n8.8.8.8\n  (no fields)\n2 records\n" := by
  intro tricky d e
  have hd : Lined d := by decide +kernel
  have he : Lined e := by decide +kernel
  have hne : d ≠ e := by decide +kernel
  obtain ⟨hinj, hread, -⟩ := ofDataset_text_decodable hd he
  exact ⟨hd, he, fun h => hne (hinj.1 h), hread, by decide +kernel⟩

/-- With the mark in a name, it cannot be seen where the name ends. -/
example : ofDataset .text false (KeyMap.ofList [("1.2.3.4", KeyMap.ofList [("a: b", "c")])]) =
    ofDataset .text false (KeyMap.ofList [("1.2.3.4", KeyMap.ofList [("a", "b: c")])]) := by
  decide +kernel

end Report

end AddressLookup
