import AddressLookup.Proofs.Json.Alike
import AddressLookup.Proofs.Json.Value

/-! The texts of a value. White space may stand around every value and every name, a string may be spelled in any
way, and the members of an object may be listed in any order and more than once, of which the last counts.
Whatever the text, the reader finds the value. -/

namespace AddressLookup.Json

open Text

structure SpelledMember where
  nameText : List Char
  name : String
  valueText : List Char
  value : Json

def SpelledMember.text (m : SpelledMember) : List Char :=
  m.nameText ++ ':' :: m.valueText

def SpelledMember.member (m : SpelledMember) : String × Json :=
  (m.name, m.value)

/-- The texts of a value whose arrays and objects are nested at most so deep, those included that are given up
for a later member of the same name. -/
inductive Spells : Nat → List Char → Json → Prop
  | null (d : Nat) : Spells d nullChars null
  | bool (d : Nat) (b : Bool) : Spells d (boolChars b) (bool b)
  | number (d : Nat) {n : JsonNumber} (h : n.Integral) : Spells d n.chars (number n)
  | string (d : Nat) {body : List Char} {s : String} (h : Quoted.Spells body s.toList) :
      Spells d ('"' :: (body ++ ['"'])) (string s)
  | array {d : Nat} {items : List (List Char × Json)} {gap : List Char}
      (h : ∀ i ∈ items, Spells d i.1 i.2) (hgap : Gap gap) :
      Spells (d + 1) ('[' :: (joinWith [','] (items.map Prod.fst) ++ (gap ++ [']']))) (array (items.map Prod.snd))
  | object {d : Nat} {written : List SpelledMember} {members : List (String × Json)} {gap : List Char}
      (hnames : ∀ m ∈ written, SpellsName m.nameText m.name)
      (h : ∀ m ∈ written, Spells d m.valueText m.value)
      (hsorted : members.Pairwise fun a b => a.1 < b.1)
      (hlast : ∀ name, members.lookup name = (written.map SpelledMember.member).reverse.lookup name)
      (hgap : Gap gap) :
      Spells (d + 1) ('\x7b' :: (joinWith [','] (written.map SpelledMember.text) ++ (gap ++ ['\x7d'])))
        (object members)
  | space {d : Nat} {before text after : List Char} {v : Json} (hbefore : Gap before) (h : Spells d text v)
      (hafter : Gap after) : Spells d (before ++ (text ++ after)) v

theorem Spells.opensBefore {d : Nat} {text : List Char} {v : Json} (h : Spells d text v) {close : Char}
    (hclose : Closing close) : OpensBefore close text := by
  induction h with
  | null d => exact Regular.null.opensBefore hclose rfl
  | bool d b => exact (Regular.bool b).opensBefore hclose rfl
  | number d h => exact (Regular.number h.legible).opensBefore hclose rfl
  | string d h => exact opensBefore_cons rfl (by rcases hclose with rfl | rfl <;> decide) _
  | array h hgap ih => exact opensBefore_cons rfl (by rcases hclose with rfl | rfl <;> decide) _
  | object hnames h hsorted hlast hgap ih =>
    exact opensBefore_cons rfl (by rcases hclose with rfl | rfl <;> decide) _
  | space hbefore h hafter ih => exact (ih.append_right _).append hbefore

theorem get?_ofList {α : Type} (es : List (String × α)) (key : String) :
    (KeyMap.ofList es).get? key = es.reverse.lookup key := by
  induction es using List.reverseRecOn with
  | nil => rfl
  | append_singleton es e ih =>
    have hstep : KeyMap.ofList (es ++ [e]) = (KeyMap.ofList es).insert e.1 e.2 := List.foldl_append
    rw [hstep, KeyMap.get?_insert, ih, List.reverse_append, List.reverse_singleton, List.singleton_append,
      KeyMap.lookup_cons]

theorem arrange_eq {α : Type} {written members : List (String × α)}
    (hsorted : members.Pairwise fun a b => a.1 < b.1)
    (hlast : ∀ name, members.lookup name = written.reverse.lookup name) : arrange written = members :=
  KeyMap.entries_ext (sorted_arrange written) hsorted fun name =>
    (get?_ofList written name).trans (hlast name).symm

theorem Spells.readsUpToSpace {d : Nat} {text : List Char} {v : Json} (h : Spells d text v) :
    ReadsUpToSpace (readValue d) text (some v) := by
  induction h with
  | null d => exact (readValue_compactChars .null d).upToSpace
  | bool d b => exact (readValue_compactChars (.bool b) d).upToSpace
  | @number d n h =>
    have hread := readValue_number h.legible d
    rw [h.reread_eq] at hread
    exact hread.upToSpace
  | string d h => exact (readValue_quoted h d).upToSpace
  | @array d items gap h hgap ih =>
    refine fun rest _ => ⟨[], gap_nil, ?_⟩
    have hitems := readSequence_join (.inl rfl) hgap (ignoresSpace_readValue d)
      (fun i hi => (h i hi).opensBefore (.inl rfl)) ih rest
    have htext : '[' :: (joinWith [','] (items.map Prod.fst) ++ (gap ++ [']'])) ++ rest =
        '[' :: (joinWith [','] (items.map Prod.fst) ++ (gap ++ ']' :: rest)) := by simp
    rw [htext]
    have hall : (items.mapM fun i => some i.2) = some (items.map Prod.snd) := List.mapM_pure
    show ((readSequence (readValue d) ']' _).map _) = _
    rw [hitems, hall]
    rfl
  | @object d written members gap hnames h hsorted hlast hgap ih =>
    refine fun rest _ => ⟨[], gap_nil, ?_⟩
    have hmembers : readSequence (readMember (readValue d)) '\x7d'
        (joinWith [','] (written.map SpelledMember.text) ++ (gap ++ '\x7d' :: rest)) =
          (written.mapM fun m => (some m.value).map (m.name, ·)).map (·, rest) :=
      readSequence_join (.inr rfl) hgap (ignoresSpace_readMember (readValue d))
        (fun m hm => (hnames m hm).opensBefore (.inr rfl) _) (fun m hm => (hnames m hm).readMember (ih m hm)) rest
    have htext : '\x7b' :: (joinWith [','] (written.map SpelledMember.text) ++ (gap ++ ['\x7d'])) ++ rest =
        '\x7b' :: (joinWith [','] (written.map SpelledMember.text) ++ (gap ++ '\x7d' :: rest)) := by simp
    rw [htext]
    have hall : (written.mapM fun m => (some m.value).map (m.name, ·)) = some (written.map SpelledMember.member) :=
      List.mapM_pure
    show ((readSequence (readMember (readValue d)) '\x7d' _).map _) = _
    rw [hmembers, hall]
    show some (Json.object (arrange (written.map SpelledMember.member)), rest) = some (Json.object members, rest)
    rw [arrange_eq hsorted hlast]
  | @space d before text after v hbefore h hafter ih =>
    intro rest hrest
    obtain ⟨gap, hgap, hread⟩ := ih (after ++ rest) (hafter.ends_append hrest)
    refine ⟨gap ++ after, hgap.append hafter, ?_⟩
    rw [List.append_assoc, List.append_assoc, ← ignoresSpace_readValue, hbefore.skipSpace_append,
      ignoresSpace_readValue, hread, List.append_assoc]

theorem parse_of_spells {text : String} {v : Json} (h : Spells depthLimit text.toList v) :
    parse text = some v := by
  obtain ⟨gap, hgap, hread⟩ := h.readsUpToSpace [] (stopsRun_nil _)
  rw [List.append_nil] at hread
  have hend : skipSpace (gap ++ []) = [] := hgap.skipSpace_append []
  unfold parse parseChars
  simp only [hread, Option.map_some, hend]
  rfl

theorem Spells.regular {d : Nat} {text : List Char} {v : Json} (h : Spells d text v) :
    Regular JsonNumber.Integral v := by
  induction h with
  | null d => exact .null
  | bool d b => exact .bool b
  | number d h => exact .number h
  | @string d body s h => exact .string s
  | @array d items gap h hgap ih =>
    refine .array fun v hv => ?_
    obtain ⟨i, hi, rfl⟩ := List.mem_map.1 hv
    exact ih i hi
  | @object d written members gap hnames h hsorted hlast hgap ih =>
    refine .object hsorted fun m hm => ?_
    have hlookup := KeyMap.lookup_of_mem (hsorted.imp KeyMap.ne_of_key_lt) hm
    rw [hlast] at hlookup
    obtain ⟨w, hw, hmember⟩ := List.mem_map.1 (List.mem_reverse.1 (KeyMap.mem_of_lookup hlookup))
    rw [← congrArg Prod.snd hmember]
    exact ih w hw
  | space hbefore h hafter ih => exact ih

end AddressLookup.Json
