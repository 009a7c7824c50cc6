import AddressLookup.Config
import AddressLookup.Proofs.Text.Lossy

/-! The directory that the environment gives for the caches. Only a text of white space counts as none; all other
bytes, whether they are a text or not, are the path as they stand. -/

namespace AddressLookup.Config

open Text

/-- Bytes of a text that is all white space. -/
def BlankBytes (value : List UInt8) : Prop :=
  ∃ s : String, Blank s.toList ∧ value = s.toUTF8.data.toList

theorem isBlankSetting_iff {value : List UInt8} : isBlankSetting value = true ↔ BlankBytes value := by
  rw [isBlankSetting, List.isEmpty_iff, trim_eq_nil_iff, blank_lossy_iff]
  constructor
  · rintro ⟨s, hs, hvalue⟩
    exact ⟨String.ofList s, by rwa [String.toList_ofList], by rw [bytes_toUTF8, String.toList_ofList, hvalue]⟩
  · rintro ⟨s, hs, hvalue⟩
    exact ⟨s.toList, hs, by rw [hvalue, bytes_toUTF8]⟩

theorem not_blankBytes_of_not_text {value : List UInt8} (h : String.fromUTF8? value.toByteArray = none) :
    ¬ BlankBytes value := by
  rintro ⟨s, -, rfl⟩
  rw [bytes_toUTF8, toByteArray_encoded, fromUTF8?_toUTF8] at h
  cases h

theorem override_of_not_blank {value : List UInt8} (h : ¬ BlankBytes value) (c : Config) :
    c.override (some value) = { c with cacheDirectory := ⟨value⟩ } :=
  if_neg fun hblank => h (isBlankSetting_iff.1 hblank)

/-- A setting leaves the configuration as it is if it is the bytes of a text that is all white space, or empty. Any
other bytes become the directory of the caches, to the last of them, and nothing else changes; such are all bytes
that are no text, and a text with a character after it of which not all bytes are there. -/
theorem override_setting (c : Config) (value : List UInt8) :
    (BlankBytes value → c.override (some value) = c) ∧
      (¬ BlankBytes value → c.override (some value) = { c with cacheDirectory := ⟨value⟩ }) ∧
      c.override (some []) = c ∧
      (String.fromUTF8? value.toByteArray = none →
        c.override (some value) = { c with cacheDirectory := ⟨value⟩ }) ∧
      ∀ (s : String) (last : Char) (n : Nat), 0 < n → n < last.utf8Size →
        let cut := s.toUTF8.data.toList ++ (String.utf8EncodeChar last).take n
        c.override (some cut) = { c with cacheDirectory := ⟨cut⟩ } := by
  refine ⟨fun h => if_pos (isBlankSetting_iff.2 h), fun h => override_of_not_blank h c, rfl,
    fun h => override_of_not_blank (not_blankBytes_of_not_text h) c, ?_⟩
  intro s last n hpos hn cut
  refine override_of_not_blank ?_ c
  rintro ⟨t, -, ht⟩
  have hcut : cut = encoded s.toList ++ (String.utf8EncodeChar last).take n := by rw [← bytes_toUTF8]
  exact encoded_ne_truncated s.toList t.toList last hpos hn (by rw [← bytes_toUTF8, ← ht, hcut])

/-- White space of one, two and three bytes, and the last of it without its last byte. -/
theorem override_setting_ideographic_space :
    let spaces := " \u0085\u2003\u3000"
    let cut := "\u2003".toUTF8.data.toList ++ [0xE3, 0x80]
    BlankBytes spaces.toUTF8.data.toList ∧ standard.override (some spaces.toUTF8.data.toList) = standard ∧
      String.fromUTF8? cut.toByteArray = none ∧ ¬ BlankBytes cut ∧
      standard.override (some cut) = { standard with cacheDirectory := ⟨cut⟩ } ∧
      standard.override (some cut) ≠ standard := by
  intro spaces cut
  have hblank : BlankBytes spaces.toUTF8.data.toList := ⟨spaces, by decide +kernel, rfl⟩
  have htext : String.fromUTF8? cut.toByteArray = none := by decide +kernel
  have hcut := (override_setting standard cut).2.2.2.1 htext
  exact ⟨hblank, (override_setting standard _).1 hblank, htext, not_blankBytes_of_not_text htext, hcut,
    by decide +kernel⟩

end AddressLookup.Config
