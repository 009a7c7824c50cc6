import AddressLookup.Proofs.Text.Trimming
import AddressLookup.Text.Lossy

/-! What the lossy reading of bytes tells of them. The bytes of a text are read as that text; bytes that are no
UTF-8 are read with a replacement character somewhere, and that is no white space. -/

namespace AddressLookup

theorem fromUTF8?_toUTF8 (s : String) : String.fromUTF8? s.toUTF8 = some s := by
  rw [String.fromUTF8?, String.toUTF8_eq_toByteArray, dif_pos s.isValidUTF8]
  rfl

namespace Text

def encoded (s : List Char) : List UInt8 :=
  s.flatMap String.utf8EncodeChar

section

variable {c : Char} {bytes : List UInt8}

theorem encoded_cons (c : Char) (s : List Char) : encoded (c :: s) = String.utf8EncodeChar c ++ encoded s :=
  List.flatMap_cons

theorem encoded_append (s t : List Char) : encoded (s ++ t) = encoded s ++ encoded t :=
  List.flatMap_append

theorem toByteArray_encoded (s : String) : (encoded s.toList).toByteArray = s.toUTF8 := by
  rw [String.toUTF8_eq_toByteArray, ← String.utf8Encode_toList]
  rfl

theorem bytes_toUTF8 (s : String) : s.toUTF8.data.toList = encoded s.toList := by
  rw [← toByteArray_encoded, List.toList_data_toByteArray]

theorem firstChar?_encoded (c : Char) (bytes : List UInt8) :
    firstChar? (String.utf8EncodeChar c ++ bytes) = some c := by
  have hlength : (String.utf8EncodeChar c).length ≤ 4 := by
    rw [String.length_utf8EncodeChar]
    exact c.utf8Size_le_four
  rw [firstChar?, List.take_append, List.take_of_length_le hlength, List.toByteArray_append]
  exact ByteArray.utf8DecodeChar?_utf8EncodeChar_append

theorem firstChar?_eq_some (h : firstChar? bytes = some c) :
    ∃ rest, bytes = String.utf8EncodeChar c ++ rest := by
  obtain ⟨l, hl⟩ := ByteArray.exists_of_utf8DecodeChar?_eq_some h
  have htake : bytes.take 4 = String.utf8EncodeChar c ++ l.data.toList := by
    rw [← List.toList_data_toByteArray (l := bytes.take 4), hl, ByteArray.data_append, Array.toList_append,
      List.toList_data_toByteArray]
  refine ⟨l.data.toList ++ bytes.drop 4, ?_⟩
  rw [← List.append_assoc, ← htake, List.take_append_drop]

theorem lossyFrom_append (before bytes : List UInt8) :
    lossyFrom before.length (before ++ bytes) = lossy bytes := by
  induction before with
  | nil => rfl
  | cons b before ih => exact ih

theorem lossy_append_char (c : Char) (bytes : List UInt8) :
    lossy (String.utf8EncodeChar c ++ bytes) = c :: lossy bytes := by
  obtain ⟨b, rest, hchar⟩ := List.exists_cons_of_ne_nil (String.utf8EncodeChar_ne_nil (c := c))
  have hlength : c.utf8Size - 1 = rest.length := by
    rw [← String.length_utf8EncodeChar, hchar, List.length_cons, Nat.add_sub_cancel]
  have hread : readChar b (rest ++ bytes) = (c, rest.length) := by
    rw [readChar, ← List.cons_append, ← hchar, firstChar?_encoded, ← hlength]
  rw [hchar, List.cons_append, lossy, lossyFrom, hread, lossyFrom_append]

theorem lossy_append (s : List Char) (bytes : List UInt8) : lossy (encoded s ++ bytes) = s ++ lossy bytes := by
  induction s with
  | nil => rfl
  | cons c s ih => rw [encoded_cons, List.append_assoc, lossy_append_char, ih, List.cons_append]

theorem lossy_encoded (s : List Char) : lossy (encoded s) = s := by
  have h := lossy_append s []
  rwa [List.append_nil, show lossy [] = [] from rfl, List.append_nil] at h

theorem encoded_lossy (h : replacement ∉ lossy bytes) : encoded (lossy bytes) = bytes := by
  induction hlength : bytes.length using Nat.strongRecOn generalizing bytes with
  | ind n ih =>
    rcases bytes with _ | ⟨b, bytes⟩
    · rfl
    rcases hfirst : firstChar? (b :: bytes) with _ | c
    · have hread : readChar b bytes = (replacement, following (followers b) bytes) := by rw [readChar, hfirst]
      rw [lossy, lossyFrom, hread] at h
      exact absurd List.mem_cons_self h
    · obtain ⟨rest, hrest⟩ := firstChar?_eq_some hfirst
      rw [hrest, lossy_append_char] at h ⊢
      have hshorter : rest.length < n := by
        have hsize := congrArg List.length hrest
        have hpos := c.utf8Size_pos
        rw [List.length_append, String.length_utf8EncodeChar] at hsize
        omega
      rw [encoded_cons, ih rest.length hshorter (List.not_mem_of_not_mem_cons h) rfl]

example : lossy [0x41, 0xE3, 0x80, 0xED, 0xA0] = ['A', replacement, replacement, replacement] := by
  decide +kernel

theorem encoded_ne_truncated (s t : List Char) (c : Char) {n : Nat} (hpos : 0 < n) (hn : n < c.utf8Size) :
    encoded t ≠ encoded s ++ (String.utf8EncodeChar c).take n := by
  intro heq
  have hlength : ((String.utf8EncodeChar c).take n).length = n := by
    rw [List.length_take, String.length_utf8EncodeChar]
    omega
  obtain ⟨more, rfl⟩ : ∃ more, t = s ++ more := by
    have hread := lossy_encoded t
    rw [heq, lossy_append] at hread
    exact ⟨_, hread.symm⟩
  rw [encoded_append, List.append_cancel_left_eq] at heq
  rcases more with _ | ⟨d, more⟩
  · rw [← heq] at hlength
    exact absurd hlength (Nat.ne_of_lt hpos)
  -- The bytes begin with a whole character, which can be no other than the one that is cut.
  have hwhole : String.utf8EncodeChar c =
      String.utf8EncodeChar d ++ (encoded more ++ (String.utf8EncodeChar c).drop n) := by
    rw [← List.append_assoc, ← encoded_cons, heq, List.take_append_drop]
  have hsame : c = d := by
    have hc := firstChar?_encoded c []
    rw [List.append_nil, hwhole, firstChar?_encoded] at hc
    exact (Option.some.inj hc).symm
  rw [← heq, encoded_cons, List.length_append, String.length_utf8EncodeChar, ← hsame] at hlength
  omega

theorem not_isBlank_replacement : isBlank replacement = false := by
  decide

theorem blank_lossy_iff : Blank (lossy bytes) ↔ ∃ s, Blank s ∧ bytes = encoded s := by
  constructor
  · intro h
    refine ⟨lossy bytes, h, (encoded_lossy fun hmem => ?_).symm⟩
    exact absurd (h _ hmem) (by simp [not_isBlank_replacement])
  · rintro ⟨s, hs, rfl⟩
    rwa [lossy_encoded]

end

end Text

end AddressLookup
