import AddressLookup.Proofs.Address.Groups
import Mathlib.Data.List.Basic

/-! A list of texts, written with separators between them, is what the search finds in the whole exactly when
each text is a valid address. So the search and the test of a single text agree on what an address is. -/

namespace AddressLookup.Address

open Text

theorem candidatesAfter_length (s : List Char) : candidatesAfter s.length s = [] := by
  induction s with
  | nil => rfl
  | cons c s ih => exact ih

theorem extractChars_of_isValidChars {s : List Char} (h : isValidChars s = true) : extractChars s = [s] := by
  have hdotted := (isValidChars_iff.1 h).1
  rw [← List.take_length (l := s)] at hdotted
  have hlength : groupsLength? 4 s = some s.length :=
    groupsLength?_eq_some_iff.2 ⟨⟨Nat.le_refl _, hdotted⟩, fun m hm _ => hm⟩
  rcases s with _ | ⟨c, s⟩
  · cases h
  · rw [extractChars, candidates, candidatesAfter_of_some hlength, List.take_length, List.length_cons,
      Nat.add_sub_cancel, candidatesAfter_length]
    exact List.filter_cons_of_pos h

theorem isValid_of_mem_extract {text key : String} (h : key ∈ extract text) : isValid key = true := by
  obtain ⟨s, hs, rfl⟩ := List.mem_map.1 h
  rw [isValid, String.toList_ofList]
  exact (List.mem_filter.1 hs).2

theorem infix_of_mem_candidatesAfter {skip : Nat} {s found : List Char}
    (h : found ∈ candidatesAfter skip s) : found <:+: s := by
  fun_induction candidatesAfter skip s with
  | case1 => exact absurd h List.not_mem_nil
  | case2 _ c rest ih => exact List.infix_cons (ih h)
  | case3 c rest n _ ih =>
    rcases List.mem_cons.1 h with rfl | h
    · exact (List.take_prefix n (c :: rest)).isInfix
    · exact List.infix_cons (ih h)
  | case4 c rest _ ih => exact List.infix_cons (ih h)

theorem infix_of_mem_extract {text key : String} (h : key ∈ extract text) : key.toList <:+: text.toList := by
  obtain ⟨s, hs, rfl⟩ := List.mem_map.1 h
  rw [String.toList_ofList]
  exact infix_of_mem_candidatesAfter (List.mem_filter.1 hs).1

theorem extract_eq_singleton_iff {key : String} : extract key = [key] ↔ isValid key = true := by
  constructor
  · intro h
    exact isValid_of_mem_extract (h ▸ List.mem_singleton_self key)
  · intro h
    rw [extract, extractChars_of_isValidChars h, List.map_singleton, String.ofList_toList]

def IsGap (s : String) : Prop :=
  ∀ c ∈ s.toList, IsSeparator c

instance (s : String) : Decidable (IsGap s) :=
  List.decidableBAll IsSeparator s.toList

section

variable {gap : List Char} (hgap : ∀ c ∈ gap, IsSeparator c)
include hgap

theorem extractChars_gap_append (t : List Char) : extractChars (gap ++ t) = extractChars t := by
  induction gap with
  | nil => rfl
  | cons c gap ih =>
    obtain ⟨hc, hrest⟩ := List.forall_mem_cons.1 hgap
    have hsplit := extractChars_append hc [] (gap ++ t)
    rw [ih hrest] at hsplit
    exact hsplit

theorem extractChars_append_gap (s : List Char) {t : List Char} (hparted : gap = [] → t = []) :
    extractChars (s ++ (gap ++ t)) = extractChars s ++ extractChars t := by
  rcases gap with _ | ⟨c, gap⟩
  · rw [hparted rfl]
    simp [extractChars, candidates, candidatesAfter]
  · obtain ⟨hc, hrest⟩ := List.forall_mem_cons.1 hgap
    rw [List.cons_append, extractChars_append hc, extractChars_gap_append hrest]

end

/-- Texts one after the other, each with what stands behind it, and what stands in front of the first. -/
def listing (lead : String) (items : List (String × String)) : String :=
  lead ++ String.join (items.map fun item => item.1 ++ item.2)

theorem extractChars_items {items : List (String × String)} (hgaps : ∀ item ∈ items, IsGap item.2)
    (hparted : ∀ item ∈ items.dropLast, item.2 ≠ "") :
    extractChars (items.flatMap fun item => item.1.toList ++ item.2.toList) =
      items.flatMap fun item => extractChars item.1.toList := by
  induction items with
  | nil => rfl
  | cons item items ih =>
    obtain ⟨hgap, hrest⟩ := List.forall_mem_cons.1 hgaps
    rcases items with _ | ⟨next, items⟩
    · simpa [extractChars, candidates, candidatesAfter] using
        extractChars_append_gap hgap item.1.toList (t := []) fun _ => rfl
    · rw [List.dropLast_cons_cons, List.forall_mem_cons] at hparted
      have hne : item.2.toList ≠ [] := fun hnil => hparted.1 (String.toList_eq_nil_iff.1 hnil)
      rw [List.flatMap_cons, List.append_assoc,
        extractChars_append_gap hgap item.1.toList fun hnil => absurd hnil hne, ih hrest hparted.2]
      rfl

theorem extract_listing {lead : String} {items : List (String × String)} (hlead : IsGap lead)
    (hgaps : ∀ item ∈ items, IsGap item.2) (hparted : ∀ item ∈ items.dropLast, item.2 ≠ "") :
    extract (listing lead items) = items.flatMap fun item => extract item.1 := by
  have htext : (listing lead items).toList =
      lead.toList ++ items.flatMap fun item => item.1.toList ++ item.2.toList := by
    simp [listing, List.flatMap_map]
  rw [extract, htext, extractChars_gap_append hlead, extractChars_items hgaps hparted, List.map_flatMap]
  rfl

/-- What is found in a listing is the list itself exactly when the list holds valid addresses only. -/
theorem extract_listing_eq_iff {lead : String} {items : List (String × String)} (hlead : IsGap lead)
    (hgaps : ∀ item ∈ items, IsGap item.2) (hparted : ∀ item ∈ items.dropLast, item.2 ≠ "") :
    extract (listing lead items) = items.map Prod.fst ↔ ∀ item ∈ items, isValid item.1 = true := by
  constructor
  · intro h item hitem
    have hfound : item.1 ∈ extract (listing lead items) := by
      rw [h]
      exact List.mem_map_of_mem hitem
    exact isValid_of_mem_extract hfound
  · intro h
    have hsingle : ∀ item ∈ items, extract item.1 = [item.1] :=
      fun item hitem => extract_eq_singleton_iff.2 (h item hitem)
    rw [extract_listing hlead hgaps hparted, List.map_eq_flatMap]
    exact List.flatMap_congr hsingle

/-- Octets with leading zeros and separators that are digits elsewhere do no harm; a fifth octet does. -/
theorem extract_listing_of_two :
    let items := [("010.0.0.255", "\u0663x"), ("8.8.8.8", "")]
    let longer := [("8.8.8.8", "-"), ("1.2.3.4.5", ">")]
    IsGap "<" ∧ (∀ item ∈ items, IsGap item.2) ∧ (∀ item ∈ items.dropLast, item.2 ≠ "") ∧
      extract (listing "<" items) = ["010.0.0.255", "8.8.8.8"] ∧
      extract (listing "<" longer) ≠ ["8.8.8.8", "1.2.3.4.5"] := by
  intro items longer
  have hlead : IsGap "<" := by decide
  have hgaps : ∀ item ∈ items, IsGap item.2 := by decide
  have hparted : ∀ item ∈ items.dropLast, item.2 ≠ "" := by decide
  have hlonger : ¬ ∀ item ∈ longer, isValid item.1 = true := by decide
  refine ⟨hlead, hgaps, hparted, (extract_listing_eq_iff hlead hgaps hparted).2 (by decide), fun h => ?_⟩
  exact hlonger ((extract_listing_eq_iff hlead (by decide) (by decide)).1 h)

end AddressLookup.Address
