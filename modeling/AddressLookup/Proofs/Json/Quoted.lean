import AddressLookup.Json.Quoted

/-! How a text is spelled between quotes. The reader takes exactly what stands for one character before it goes
on, in every way in which a character may be written. The writer's way is one of them, so what is written reads
back. -/

namespace AddressLookup.Json.Quoted

theorem hexValue?_hexDigit : ∀ d : Nat, d < 16 → hexValue? (hexDigit d) = some d := by
  decide

theorem unit?_hexDigit {n : Nat} (h : n < 256) :
    unit? '0' '0' (hexDigit (n / 16)) (hexDigit (n % 16)) = some n := by
  have hzero : hexValue? '0' = some 0 := rfl
  have hhigh := hexValue?_hexDigit (n / 16) (by omega)
  have hlow := hexValue?_hexDigit (n % 16) (by omega)
  unfold unit?
  rw [hzero, hhigh, hlow]
  show some (((0 * 16 + 0) * 16 + n / 16) * 16 + n % 16) = some n
  congr 1
  omega

def shortEscapes : List (Char × Char) :=
  [('"', '"'), ('\\', '\\'), ('/', '/'), ('b', '\x08'), ('f', '\x0c'), ('n', '\n'), ('r', '\r'), ('t', '\t')]

/-- What may stand between the quotes for a text: each character as itself, by a letter, by its number in four
hexadecimal digits of either case, or by the numbers of a surrogate pair. -/
inductive Spells : List Char → List Char → Prop
  | nil : Spells [] []
  | plain {c : Char} {text chars : List Char} (hquote : c ≠ '"') (hslash : c ≠ '\\')
      (hcontrol : 0x20 ≤ c.toNat) (h : Spells text chars) : Spells (c :: text) (c :: chars)
  | short {e c : Char} {text chars : List Char} (hescape : (e, c) ∈ shortEscapes) (h : Spells text chars) :
      Spells ('\\' :: e :: text) (c :: chars)
  | unit {p q r s c : Char} {text chars : List Char} (hunit : unit? p q r s = some c.toNat)
      (h : Spells text chars) : Spells ('\\' :: 'u' :: p :: q :: r :: s :: text) (c :: chars)
  | pair {p q r s p' q' r' s' c : Char} {high low : Nat} {text chars : List Char}
      (hhigh : unit? p q r s = some (0xD800 + high)) (hlow : unit? p' q' r' s' = some (0xDC00 + low))
      (hhigh_lt : high < 0x400) (hlow_lt : low < 0x400) (hc : c.toNat = 0x10000 + high * 0x400 + low)
      (h : Spells text chars) :
      Spells ('\\' :: 'u' :: p :: q :: r :: s :: '\\' :: 'u' :: p' :: q' :: r' :: s' :: text) (c :: chars)

theorem readChars_short {e c : Char} (h : (e, c) ∈ shortEscapes) (rest : List Char) :
    readChars ('\\' :: e :: rest) = push c (readChars rest) := by
  simp only [shortEscapes, List.mem_cons, Prod.mk.injEq, List.not_mem_nil, or_false] at h
  rcases h with ⟨rfl, rfl⟩ | ⟨rfl, rfl⟩ | ⟨rfl, rfl⟩ | ⟨rfl, rfl⟩ | ⟨rfl, rfl⟩ | ⟨rfl, rfl⟩ |
    ⟨rfl, rfl⟩ | ⟨rfl, rfl⟩ <;> rfl

theorem readChars_unit {p q r s c : Char} (h : unit? p q r s = some c.toNat) (rest : List Char) :
    readChars ('\\' :: 'u' :: p :: q :: r :: s :: rest) = push c (readChars rest) := by
  -- A character is no half of a surrogate pair.
  have hvalid : c.toNat < 0xD800 ∨ 0xDFFF < c.toNat ∧ c.toNat < 0x110000 := c.valid
  have hlow : isLowHalf c.toNat = false := by simp [isLowHalf]; omega
  have hhigh : isHighHalf c.toNat = false := by simp [isHighHalf]; omega
  rw [readChars]
  simp only [Char.reduceEq, ↓reduceIte, h, hlow, hhigh, Bool.false_eq_true, Char.ofNat_toNat]

theorem readChars_pair {p q r s p' q' r' s' c : Char} {high low : Nat}
    (hhigh : unit? p q r s = some (0xD800 + high)) (hlow : unit? p' q' r' s' = some (0xDC00 + low))
    (hhigh_lt : high < 0x400) (hlow_lt : low < 0x400) (hc : c.toNat = 0x10000 + high * 0x400 + low)
    (rest : List Char) :
    readChars ('\\' :: 'u' :: p :: q :: r :: s :: '\\' :: 'u' :: p' :: q' :: r' :: s' :: rest) =
      push c (readChars rest) := by
  have hfirst : isLowHalf (0xD800 + high) = false ∧ isHighHalf (0xD800 + high) = true := by
    simp [isLowHalf, isHighHalf]; omega
  have hsecond : isLowHalf (0xDC00 + low) = true := by simp [isLowHalf]; omega
  have hchar : Char.ofNat (0x10000 + (0xD800 + high - 0xD800) * 0x400 + (0xDC00 + low - 0xDC00)) = c := by
    rw [Nat.add_sub_cancel_left, Nat.add_sub_cancel_left, ← hc, Char.ofNat_toNat]
  rw [readChars]
  simp only [Char.reduceEq, ↓reduceIte, hhigh, hlow, hfirst, hsecond, Bool.false_eq_true, hchar]

theorem Spells.readChars_append {text chars : List Char} (h : Spells text chars) (rest : List Char) :
    readChars (text ++ '"' :: rest) = some (chars, rest) := by
  induction h with
  | nil =>
    show readChars ('"' :: rest) = some ([], rest)
    rw [readChars.eq_def]
    rfl
  | @plain c text chars hquote hslash hcontrol h ih =>
    rw [List.cons_append, readChars.eq_def]
    simp only [if_neg hquote, if_neg hslash, if_neg (Nat.not_lt.2 hcontrol), ih]
    rfl
  | short hescape h ih =>
    rw [List.cons_append, List.cons_append, readChars_short hescape, ih]
    rfl
  | unit hunit h ih =>
    simp only [List.cons_append]
    rw [readChars_unit hunit, ih]
    rfl
  | pair hhigh hlow hhigh_lt hlow_lt hc h ih =>
    simp only [List.cons_append]
    rw [readChars_pair hhigh hlow hhigh_lt hlow_lt hc, ih]
    rfl

theorem Spells.read_append {text : List Char} {s : String} (h : Spells text s.toList) (rest : List Char) :
    read (text ++ '"' :: rest) = some (s, rest) := by
  rw [read, h.readChars_append]
  show some (String.ofList s.toList, rest) = some (s, rest)
  rw [String.ofList_toList]

theorem Spells.escape_append {text chars : List Char} (h : Spells text chars) (c : Char) :
    Spells (escape c ++ text) (c :: chars) := by
  unfold escape
  -- the seven characters with an escape of their own
  iterate 7
    split
    · next hc =>
      subst hc
      exact .short (by decide) h
  split
  · next hcontrol => exact .unit (unit?_hexDigit (Nat.lt_trans hcontrol (by decide))) h
  · next hquote hslash _ _ _ _ _ hcontrol => exact .plain hquote hslash (Nat.not_lt.1 hcontrol) h

theorem spells_escapeAll (s : List Char) : Spells (escapeAll s) s := by
  induction s with
  | nil => exact .nil
  | cons c s ih => exact ih.escape_append c

theorem write_eq_cons (s : String) (rest : List Char) :
    write s ++ rest = '"' :: (escapeAll s.toList ++ '"' :: rest) := by
  simp [write]

theorem read_escapeAll (s : String) (rest : List Char) :
    read (escapeAll s.toList ++ '"' :: rest) = some (s, rest) :=
  (spells_escapeAll s.toList).read_append rest

end AddressLookup.Json.Quoted
