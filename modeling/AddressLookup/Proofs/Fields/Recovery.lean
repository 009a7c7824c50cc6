import AddressLookup.Fields
import AddressLookup.Proofs.Json.Reading
import AddressLookup.Proofs.Json.Spelling

/-! What the fields keep of a document. Every member has its field, a string is kept as it is, and the text of an
array or object reads back as that array or object. Two such texts are the same exactly if the values are, however
the documents were written. -/

namespace AddressLookup

namespace Json

def IsNested : Json → Prop
  | array _ | object _ => True
  | _ => False

/-- A text that is accepted as an object in which every number, at every level, is an integer of 64 bits. -/
structure IsObjectText (text : String) (members : List (String × Json)) : Prop where
  parse_eq : parse text = some (object members)
  regular : Regular JsonNumber.Integral (object members)

theorem fieldText_of_isNested {v : Json} (h : v.IsNested) : v.fieldText = v.compact := by
  cases v with
  | array items => rfl
  | object members => rfl
  | null | bool | number | string => exact h.elim

theorem parse_fieldText {v : Json} (h : v.IsNested) (hv : Regular JsonNumber.Integral v)
    (hnesting : v.nesting ≤ depthLimit) : parse v.fieldText = some v := by
  rw [fieldText_of_isNested h, parse_compact (hv.mono fun _ hn => hn.legible) hnesting, hv.reread_eq]

theorem fieldText_eq_iff {v w : Json} (hv : parse v.fieldText = some v) (hw : parse w.fieldText = some w)
    (hordered : Ordered v) (hordered' : Ordered w) : v.fieldText = w.fieldText ↔ v.Alike w := by
  constructor
  · intro htext
    rw [htext, hw] at hv
    obtain rfl := Option.some.inj hv
    exact hordered.alike_self
  · intro halike
    rw [halike.eq hordered hordered']

namespace IsObjectText

variable {text : String} {members : List (String × Json)}

theorem sorted (h : IsObjectText text members) : members.Pairwise fun a b => a.1 < b.1 := by
  cases h.regular with
  | object hsorted _ => exact hsorted

theorem regular_of_mem (h : IsObjectText text members) {m : String × Json} (hm : m ∈ members) :
    Regular JsonNumber.Integral m.2 := by
  cases h.regular with
  | object _ hmembers => exact hmembers m hm

theorem parse_fieldText_of_mem (h : IsObjectText text members) {m : String × Json} (hm : m ∈ members)
    (hnested : m.2.IsNested) : parse m.2.fieldText = some m.2 := by
  have hdocument : (object members).nesting ≤ 126 + 1 := (admissible_of_parse h.parse_eq).nesting_le
  have hmember : m.2.nesting ≤ 126 := nesting_object_le_iff.1 hdocument m hm
  exact parse_fieldText hnested (h.regular_of_mem hm) (Nat.le_succ_of_le hmember)

theorem entries_ofDocument (h : IsObjectText text members) :
    (Record.ofDocument (object members)).entries = members.map fun m => (m.1, m.2.fieldText) := by
  have hsorted : (members.map fun m => (m.1, m.2.fieldText)).Pairwise fun a b => a.1 < b.1 :=
    h.sorted.map _ fun _ _ hlt => hlt
  exact congrArg KeyMap.entries (ofList_of_sorted hsorted)

theorem get?_ofDocument (h : IsObjectText text members) {m : String × Json} (hm : m ∈ members) :
    (Record.ofDocument (object members)).get? m.1 = some m.2.fieldText := by
  have hmem : (m.1, m.2.fieldText) ∈ (Record.ofDocument (object members)).entries := by
    rw [h.entries_ofDocument]
    exact List.mem_map_of_mem hm
  exact KeyMap.get?_of_mem hmem

end IsObjectText

theorem isObjectText_of_spells {text : String} {members : List (String × Json)}
    (h : Spells depthLimit text.toList (object members)) : IsObjectText text members :=
  ⟨parse_of_spells h, h.regular⟩

end Json

open Json

/-- A document that is accepted has one field for each member and no other; a string is its own field, and the
field of an array or object is a text that is accepted and read as exactly this array or object. In documents
however they are spelled, with any white space, any escapes and any order of members, arrays and objects have
the same field exactly if they are the same but for the order of members. -/
theorem Record.ofDocument_recoverable {text : String} {members : List (String × Json)}
    (h : IsObjectText text members) :
    let fields := Record.ofDocument (.object members)
    (members.map Prod.fst).Nodup ∧ fields.entries = members.map (fun m => (m.1, m.2.fieldText)) ∧
    (∀ name s, (name, .string s) ∈ members → fields.get? name = some s) ∧
    (∀ m ∈ members, m.2.IsNested → ∃ field, fields.get? m.1 = some field ∧ parse field = some m.2) ∧
    ∀ other members', IsObjectText other members' ∨ Spells depthLimit other.toList (.object members') →
      parse other = some (.object members') ∧
      ∀ m ∈ members, ∀ m' ∈ members', m.2.IsNested → m'.2.IsNested →
        (fields.get? m.1 = (Record.ofDocument (.object members')).get? m'.1 ↔ m.2.Alike m'.2) := by
  intro fields
  refine ⟨?_, h.entries_ofDocument, fun name s hm => h.get?_ofDocument hm, fun m hm hnested =>
    ⟨m.2.fieldText, h.get?_ofDocument hm, h.parse_fieldText_of_mem hm hnested⟩, ?_⟩
  · exact List.pairwise_map.2 (h.sorted.imp String.ne_of_lt)
  · intro other members' hother
    have h' : IsObjectText other members' := hother.elim id isObjectText_of_spells
    refine ⟨h'.parse_eq, fun m hm m' hm' hnested hnested' => ?_⟩
    rw [h.get?_ofDocument hm, h'.get?_ofDocument hm', Option.some_inj]
    exact fieldText_eq_iff (h.parse_fieldText_of_mem hm hnested) (h'.parse_fieldText_of_mem hm' hnested')
      (h.regular_of_mem hm).ordered (h'.regular_of_mem hm').ordered

/-- One array in an object twice: with its members in either order, one of them given twice, and with a line break
and an accented letter as themselves and escaped. -/
theorem Record.ofDocument_recoverable_spellings :
    let text :=
      " \x7b\"c\" : \x7b\"y\":[\"\\u00e9\\u000A\"],\"x\":0, \"x\":1\x7d,\"b\":\x7b\"x\":1,\"y\":[ \"é\\n\"]\x7d,\"a\":\"\\/\"\x7d"
    let nested : Json := .object [("x", .number (.integer 1)), ("y", .array [.string "é\n"])]
    let fields := Record.ofDocument (.object [("a", .string "/"), ("b", nested), ("c", nested)])
    parse text = some (.object [("a", .string "/"), ("b", nested), ("c", nested)]) ∧
      fields.get? "a" = some "/" ∧ fields.get? "b" = fields.get? "c" ∧
      ∃ field, fields.get? "b" = some field ∧ parse field = some nested := by
  intro text nested fields
  have hparse : parse text = some (.object [("a", .string "/"), ("b", nested), ("c", nested)]) := by
    simp only [text, nested]
    cbv
  have hnested : Regular JsonNumber.Integral nested := by
    refine .object (by decide) fun m hm => ?_
    simp only [List.mem_cons, List.not_mem_nil, or_false] at hm
    rcases hm with rfl | rfl
    · exact .number ⟨by decide, by decide⟩
    · refine .array fun v hv => ?_
      rw [List.mem_singleton.1 hv]
      exact .string _
  have hregular : Regular JsonNumber.Integral (.object [("a", .string "/"), ("b", nested), ("c", nested)]) := by
    refine .object (by decide) fun m hm => ?_
    simp only [List.mem_cons, List.not_mem_nil, or_false] at hm
    rcases hm with rfl | rfl | rfl
    · exact .string _
    · exact hnested
    · exact hnested
  have htext : IsObjectText text [("a", .string "/"), ("b", nested), ("c", nested)] := ⟨hparse, hregular⟩
  obtain ⟨-, -, hstring, hrecover, hsame⟩ := Record.ofDocument_recoverable htext
  exact ⟨hparse, hstring "a" "/" (by simp),
    ((hsame text _ (.inl htext)).2 ("b", nested) (by simp) ("c", nested) (by simp) trivial trivial).2
      hnested.alike_self,
    hrecover ("b", nested) (by simp) trivial⟩

end AddressLookup
