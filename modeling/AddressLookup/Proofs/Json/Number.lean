import AddressLookup.Proofs.Json.Scaling

/-! Numbers that come from a text can be read again from the text that is written for them. What a reader
makes of a text is an integer of 64 bits or a finite double, and the shortest decimal of a finite double
is read whole, in each of the four forms in which it is written. -/

namespace AddressLookup.JsonNumber

open Text Decimal

theorem readScale_of_ends {rest : List Char} (hrest : Ends rest) (negative : Bool) (n : ℕ) (e : ℤ) :
    readScale negative n e rest = (scale negative n e).map (·, rest) := by
  unfold readScale
  split
  · exact absurd (hrest 'e' rfl) (by decide)
  · exact absurd (hrest 'E' rfl) (by decide)
  · rfl

theorem readFraction_append {n : ℕ} {e : ℤ} {digits rest : List Char} (hne : digits ≠ [])
    (hdigits : ∀ c ∈ digits, c.isDigit = true) (hrest : StopsRun Char.isDigit rest)
    (hlimit : Nat.ofDigitChars 10 digits n ≤ significandLimit) (negative : Bool) :
    readFraction negative n e (digits ++ rest) =
      readScale negative (Nat.ofDigitChars 10 digits n) (e - digits.length) rest := by
  obtain ⟨c, cs, rfl⟩ := List.exists_cons_of_ne_nil hne
  have hc : c.isDigit = true := hdigits c List.mem_cons_self
  have htake := takeDigits_append hdigits hrest hlimit
  have hkept : rest.dropWhile Char.isDigit = rest := dropWhile_stop hrest
  have htaken : (c :: cs ++ rest).length - rest.length = (c :: cs).length := by
    rw [List.length_append, Nat.add_sub_cancel]
  unfold readFraction
  rw [htake]
  simp only [htaken, hkept]
  rw [List.cons_append]
  simp only [hc, ↓reduceIte]

def readShifted (negative down : Bool) (n shift : ℕ) (e : ℤ) : Option JsonNumber :=
  if exponentLimit < shift then
    if n ≠ 0 && !down then none
    else some (float (if negative then (-(0 : Float)).toBits else (0 : Float).toBits))
  else scale negative n (if down then e - shift else e + shift)

def readUnsigned (negative down : Bool) (n : ℕ) (e : ℤ) (s : List Char) :
    Option (JsonNumber × List Char) :=
  if (s.takeWhile Char.isDigit).isEmpty then none
  else
    (readShifted negative down n (Nat.ofDigitChars 10 (s.takeWhile Char.isDigit) 0) e).map
      (·, s.dropWhile Char.isDigit)

theorem readUnsigned_eq (negative down : Bool) (n : ℕ) (e : ℤ) (s : List Char) :
    readUnsigned negative down n e s =
      let shift := Nat.ofDigitChars 10 (s.takeWhile Char.isDigit) 0
      if (s.takeWhile Char.isDigit).isEmpty then none
      else if exponentLimit < shift then
        if n ≠ 0 && !down then none
        else some (float (if negative then (-(0 : Float)).toBits else (0 : Float).toBits),
          s.dropWhile Char.isDigit)
      else (scale negative n (if down then e - shift else e + shift)).map
        (·, s.dropWhile Char.isDigit) := by
  unfold readUnsigned readShifted
  simp only []
  split
  · rfl
  · split
    · split <;> rfl
    · rfl

theorem readExponent_sign (negative down : Bool) (n : ℕ) (e : ℤ) (s : List Char) :
    readExponent negative n e ((if down then '-' else '+') :: s) = readUnsigned negative down n e s := by
  rw [readUnsigned_eq]
  cases down <;> rfl

theorem exists_readExponent_eq (negative : Bool) (n : ℕ) (e : ℤ) (s : List Char) :
    ∃ (down : Bool) (t : List Char), readExponent negative n e s = readUnsigned negative down n e t := by
  by_cases hplus : ∃ t, s = '+' :: t
  · obtain ⟨t, rfl⟩ := hplus
    exact ⟨false, t, readExponent_sign negative false n e t⟩
  · by_cases hminus : ∃ t, s = '-' :: t
    · obtain ⟨t, rfl⟩ := hminus
      exact ⟨true, t, readExponent_sign negative true n e t⟩
    · refine ⟨false, s, ?_⟩
      rw [readUnsigned_eq]
      unfold readExponent
      split
      next heq =>
        split at heq
        · exact absurd ⟨_, rfl⟩ hplus
        · exact absurd ⟨_, rfl⟩ hminus
        · obtain ⟨rfl, rfl⟩ := Prod.mk.inj heq
          rfl

theorem readExponent_append {n shift : ℕ} {e : ℤ} {rest : List Char} (hrest : Ends rest)
    (negative down : Bool) :
    readExponent negative n e ((if down then '-' else '+') :: (Nat.toDigits 10 shift ++ rest)) =
      (readShifted negative down n shift e).map (·, rest) := by
  have hall : ∀ c ∈ Nat.toDigits 10 shift, c.isDigit = true := fun _ => isDigit_of_mem_toDigits
  have hstop := hrest.stopsRun_isDigit
  have hsome : (Nat.toDigits 10 shift).isEmpty = false := by
    rw [List.isEmpty_eq_false_iff]
    exact Nat.toDigits_ne_nil
  rw [readExponent_sign, readUnsigned, takeWhile_run hall hstop, dropWhile_run hall hstop,
    Nat.ofDigitChars_ten_toDigits, hsome]
  rfl

theorem exists_readShifted {n : ℕ} {e x : ℤ} {negative : Bool} (hx : x ≤ exponentLimit)
    (hscale : ∃ m, scale negative n (e + x) = some m) :
    ∃ m, readShifted negative (decide (x < 0)) n x.natAbs e = some m := by
  unfold readShifted
  split
  · next hbeyond =>
    have hneg : x < 0 := by omega
    rw [decide_eq_true hneg, Bool.not_true, Bool.and_false]
    exact ⟨_, rfl⟩
  · obtain ⟨m, hm⟩ := hscale
    refine ⟨m, ?_⟩
    have hshift : (if decide (x < 0) = true then e - x.natAbs else e + x.natAbs) = e + x := by
      split
      · next h =>
        have hneg : x < 0 := of_decide_eq_true h
        omega
      · next h =>
        have hpos : ¬ x < 0 := of_decide_eq_false (Bool.eq_false_of_not_eq_true h)
        omega
    rw [hshift]
    exact hm

/-- Decimals that can be read: the digits fit the significand and the value is in range. -/
structure Scalable (s : Scientific) : Prop where
  digits_ne_zero : s.digits ≠ 0
  digits_le : s.digits ≤ 10 ^ 18
  scale : ∀ negative, ∃ m, scale negative s.digits s.exponent = some m

theorem Scalable.exponent_le {s : Scientific} (h : Scalable s) : s.exponent ≤ 308 := by
  obtain ⟨m, hm⟩ := h.scale false
  unfold JsonNumber.scale at hm
  simp only [if_neg h.digits_ne_zero] at hm
  split at hm
  · omega
  · split at hm
    · next hle => exact hle
    · cases hm

theorem readMagnitude_point {c : Char} {cs fraction rest : List Char} (hc : c ≠ '0')
    (hwhole : ∀ d ∈ c :: cs, d.isDigit = true) (hfraction : ∀ d ∈ fraction, d.isDigit = true)
    (hne : fraction ≠ []) (hrest : StopsRun Char.isDigit rest)
    (hlimit : Nat.ofDigitChars 10 (c :: cs ++ fraction) 0 ≤ significandLimit) (negative : Bool) :
    readMagnitude negative (c :: cs ++ '.' :: (fraction ++ rest)) =
      readScale negative (Nat.ofDigitChars 10 (c :: cs ++ fraction) 0) (-fraction.length) rest := by
  rw [Nat.ofDigitChars_append] at hlimit ⊢
  have hstop : StopsRun Char.isDigit ('.' :: (fraction ++ rest)) := stopsRun_cons.2 (by decide)
  have hwholelimit : Nat.ofDigitChars 10 (c :: cs) 0 ≤ significandLimit :=
    Nat.le_trans (le_ofDigitChars fraction _) hlimit
  rw [readMagnitude_append hc hwhole hstop hwholelimit]
  show readFraction negative _ (0 : ℕ) (fraction ++ rest) = _
  rw [readFraction_append hne hfraction hrest hlimit, Nat.cast_zero, zero_sub]

theorem readMagnitude_zero_point {fraction rest : List Char}
    (hfraction : ∀ d ∈ fraction, d.isDigit = true) (hne : fraction ≠ [])
    (hrest : StopsRun Char.isDigit rest)
    (hlimit : Nat.ofDigitChars 10 fraction 0 ≤ significandLimit) (negative : Bool) :
    readMagnitude negative ('0' :: '.' :: (fraction ++ rest)) =
      readScale negative (Nat.ofDigitChars 10 fraction 0) (-fraction.length) rest := by
  show readFraction negative 0 (0 : ℕ) (fraction ++ rest) = _
  rw [readFraction_append hne hfraction hrest hlimit, Nat.cast_zero, zero_sub]

theorem readMagnitude_whole {c : Char} {cs rest : List Char} {k : ℕ} (hc : c ≠ '0')
    (hall : ∀ d ∈ c :: cs, d.isDigit = true) (hrest : Ends rest)
    (hlimit : 10 ^ (k + 1) * Nat.ofDigitChars 10 (c :: cs) 0 ≤ significandLimit) (negative : Bool) :
    readMagnitude negative (c :: cs ++ zeros k ++ ['.', '0'] ++ rest) =
      (scale negative (10 ^ (k + 1) * Nat.ofDigitChars 10 (c :: cs) 0) (-1)).map (·, rest) := by
  have hzeros : ∀ d ∈ c :: (cs ++ zeros k), d.isDigit = true :=
    isDigit_of_mem_append hall fun _ => isDigit_of_mem_zeros
  have hvalue : Nat.ofDigitChars 10 (c :: (cs ++ zeros k) ++ ['0']) 0 =
      10 ^ (k + 1) * Nat.ofDigitChars 10 (c :: cs) 0 := by
    have hsplit : c :: (cs ++ zeros k) ++ ['0'] = c :: cs ++ List.replicate (k + 1) '0' := by
      rw [List.replicate_succ']
      simp [zeros]
    rw [hsplit, Nat.ofDigitChars_append, Nat.ofDigitChars_replicate_zero]
  have hsplit : c :: cs ++ zeros k ++ ['.', '0'] ++ rest =
      c :: (cs ++ zeros k) ++ '.' :: (['0'] ++ rest) := by simp
  rw [hsplit, readMagnitude_point hc hzeros (by simp) (List.cons_ne_nil _ _) hrest.stopsRun_isDigit
    (by rwa [hvalue]), hvalue]
  exact readScale_of_ends hrest negative _ _

theorem readMagnitude_split {c : Char} {cs rest : List Char} {k : ℕ} (hc : c ≠ '0')
    (hall : ∀ d ∈ c :: cs, d.isDigit = true) (hk : k < cs.length) (hrest : Ends rest)
    (hlimit : Nat.ofDigitChars 10 (c :: cs) 0 ≤ significandLimit) (negative : Bool) :
    readMagnitude negative ((c :: cs).take (k + 1) ++ '.' :: (c :: cs).drop (k + 1) ++ rest) =
      (scale negative (Nat.ofDigitChars 10 (c :: cs) 0) (k - cs.length)).map (·, rest) := by
  have hwhole : ∀ d ∈ c :: cs.take k, d.isDigit = true :=
    fun d hd => hall d (List.cons_subset_cons c (List.take_subset k cs) hd)
  have hfraction : ∀ d ∈ cs.drop k, d.isDigit = true :=
    fun d hd => hall d (List.mem_cons_of_mem c (List.drop_subset k cs hd))
  have hne : cs.drop k ≠ [] := by
    rw [ne_eq, List.drop_eq_nil_iff]
    omega
  have hjoin : c :: cs.take k ++ cs.drop k = c :: cs := by
    rw [List.cons_append, List.take_append_drop]
  have hlength : (-((cs.drop k).length : ℕ) : ℤ) = k - cs.length := by
    rw [List.length_drop]
    omega
  rw [List.take_succ_cons, List.drop_succ_cons, List.append_assoc, List.cons_append (a := '.'),
    readMagnitude_point hc hwhole hfraction hne hrest.stopsRun_isDigit (by rwa [hjoin]), hjoin, hlength]
  exact readScale_of_ends hrest negative _ _

theorem readMagnitude_small {digits rest : List Char} {k : ℕ}
    (hall : ∀ d ∈ digits, d.isDigit = true) (hne : digits ≠ []) (hrest : Ends rest)
    (hlimit : Nat.ofDigitChars 10 digits 0 ≤ significandLimit) (negative : Bool) :
    readMagnitude negative ('0' :: '.' :: zeros k ++ digits ++ rest) =
      (scale negative (Nat.ofDigitChars 10 digits 0) (-(k + digits.length : ℕ))).map (·, rest) := by
  have hzeros : ∀ d ∈ zeros k ++ digits, d.isDigit = true :=
    isDigit_of_mem_append (fun _ => isDigit_of_mem_zeros) hall
  have hvalue : Nat.ofDigitChars 10 (zeros k ++ digits) 0 = Nat.ofDigitChars 10 digits 0 :=
    ofDigitChars_zeros k digits
  have hlength : (zeros k ++ digits).length = k + digits.length := by
    rw [List.length_append, zeros, List.length_replicate]
  show readMagnitude negative ('0' :: '.' :: (zeros k ++ digits ++ rest)) = _
  rw [readMagnitude_zero_point hzeros (List.append_ne_nil_of_right_ne_nil _ hne)
    hrest.stopsRun_isDigit (by rwa [hvalue]), hvalue, hlength]
  exact readScale_of_ends hrest negative _ _

theorem readMagnitude_exponent {c : Char} {cs rest : List Char} (hc : c ≠ '0')
    (hall : ∀ d ∈ c :: cs, d.isDigit = true)
    (hlimit : Nat.ofDigitChars 10 (c :: cs) 0 ≤ significandLimit) (negative : Bool) :
    readMagnitude negative ((c :: cs).take 1 ++
        (if ((c :: cs).drop 1).isEmpty then [] else '.' :: (c :: cs).drop 1) ++ 'e' :: rest) =
      readExponent negative (Nat.ofDigitChars 10 (c :: cs) 0) (-cs.length) rest := by
  have hstop : StopsRun Char.isDigit ('e' :: rest) := stopsRun_cons.2 (by decide)
  cases cs with
  | nil =>
    show readMagnitude negative ([c] ++ 'e' :: rest) = _
    rw [readMagnitude_append hc hall hstop hlimit]
    rfl
  | cons d ds =>
    have hwhole : ∀ x ∈ [c], x.isDigit = true :=
      fun x hx => hall x (List.mem_cons.2 (Or.inl (List.mem_singleton.1 hx)))
    have hfraction : ∀ x ∈ d :: ds, x.isDigit = true := fun x hx => hall x (List.mem_cons_of_mem c hx)
    show readMagnitude negative ([c] ++ '.' :: (d :: ds ++ 'e' :: rest)) = _
    rw [readMagnitude_point hc hwhole hfraction (List.cons_ne_nil d ds) hstop hlimit]
    rfl

theorem exists_readMagnitude_scientific {c : Char} {cs : List Char} {x : ℤ} {m : JsonNumber}
    {negative : Bool} (hc : c ≠ '0') (hall : ∀ d ∈ c :: cs, d.isDigit = true)
    (hlimit : Nat.ofDigitChars 10 (c :: cs) 0 ≤ significandLimit) (hx : x ≤ exponentLimit)
    (hm : JsonNumber.scale negative (Nat.ofDigitChars 10 (c :: cs) 0) (-cs.length + x) = some m) :
    ∃ m, ∀ rest, Ends rest →
      readMagnitude negative ((c :: cs).take 1 ++
        (if ((c :: cs).drop 1).isEmpty then [] else '.' :: (c :: cs).drop 1) ++
          'e' :: (if x < 0 then '-' else '+') :: Nat.toDigits 10 x.natAbs ++ rest) = some (m, rest) := by
  obtain ⟨m, hm⟩ := exists_readShifted hx ⟨m, hm⟩
  refine ⟨m, fun rest hrest => ?_⟩
  have hsign : (if x < 0 then '-' else '+') = if decide (x < 0) then '-' else '+' := by
    by_cases hneg : x < 0 <;> simp [hneg]
  rw [List.append_assoc, List.cons_append, List.cons_append, hsign,
    readMagnitude_exponent hc hall hlimit, readExponent_append hrest, hm]
  rfl

theorem pow_mul_le_significandLimit {n k l : ℕ} (hn : n < 10 ^ l) (hkl : k + l ≤ 17) :
    10 ^ k * n ≤ significandLimit :=
  calc 10 ^ k * n ≤ 10 ^ k * 10 ^ l := Nat.mul_le_mul_left _ hn.le
    _ = 10 ^ (k + l) := (pow_add _ _ _).symm
    _ ≤ 10 ^ 17 := Nat.pow_le_pow_right (by decide) hkl
    _ ≤ significandLimit := by decide

theorem Scalable.exists_readMagnitude {s : Scientific} (h : Scalable s) (negative : Bool) :
    ∃ m, ∀ rest, Ends rest → readMagnitude negative (decimalChars s ++ rest) = some (m, rest) := by
  have hlimit : s.digits ≤ significandLimit := h.digits_le.trans (by decide)
  have hall : ∀ c ∈ Nat.toDigits 10 s.digits, c.isDigit = true := fun _ => isDigit_of_mem_toDigits
  have hvalue : Nat.ofDigitChars 10 (Nat.toDigits 10 s.digits) 0 = s.digits :=
    Nat.ofDigitChars_ten_toDigits
  have hsize : s.digits < 10 ^ (Nat.toDigits 10 s.digits).length :=
    (Nat.length_toDigits_le_iff (by decide) Nat.length_toDigits_pos).1 le_rfl
  obtain ⟨m, hm⟩ := h.scale negative
  obtain ⟨c, cs, heq, hhead⟩ := toDigits_eq_cons s.digits
  have hc : c ≠ '0' := fun hzero => h.digits_ne_zero (hhead.1 hzero)
  obtain ⟨x, hx⟩ : ∃ x : ℤ, s.exponent + (c :: cs).length - 1 = x := ⟨_, rfl⟩
  rw [heq] at hall hvalue hsize
  rw [List.length_cons] at hsize
  have hexponent : s.exponent = x - cs.length := by
    rw [List.length_cons] at hx
    omega
  unfold decimalChars
  simp only [heq, hx]
  split
  · next hpositional =>
    obtain ⟨hlow, hhigh⟩ := Bool.and_eq_true_iff.1 hpositional
    have hbelow : x < 16 := of_decide_eq_true hhigh
    split
    · -- Digits and zeros before the point, as in `12300.0`.
      obtain ⟨k, hk⟩ := Int.eq_ofNat_of_zero_le (a := s.exponent) ‹_›
      have hpow : 10 ^ (k + 1) * s.digits ≤ significandLimit :=
        pow_mul_le_significandLimit hsize (by omega)
      obtain ⟨m, hm⟩ := scale_of_neg negative (10 ^ (k + 1) * s.digits) (by decide : (-1 : ℤ) < 0)
      refine ⟨m, fun rest hrest => ?_⟩
      rw [hk, Int.toNat_natCast, readMagnitude_whole hc hall hrest (by rwa [hvalue]), hvalue, hm]
      rfl
    · split
      · next hneg hpos =>
        -- The point among the digits, as in `12.3`.
        obtain ⟨k, rfl⟩ := Int.eq_ofNat_of_zero_le hpos
        refine ⟨m, fun rest hrest => ?_⟩
        have hk : ((k : ℤ) + 1).toNat = k + 1 := by omega
        rw [hk, readMagnitude_split hc hall (by omega) hrest (by rwa [hvalue]), hvalue, ← hexponent, hm]
        rfl
      · next hneg hpos =>
        -- Zeros between the point and the digits, as in `0.00123`.
        refine ⟨m, fun rest hrest => ?_⟩
        have hk : (-((-x - 1).toNat + (c :: cs).length : ℕ) : ℤ) = s.exponent := by
          rw [List.length_cons]
          omega
        rw [readMagnitude_small hall (List.cons_ne_nil c cs) hrest (by rwa [hvalue]), hvalue, hk, hm]
        rfl
  · -- An exponent, as in `1.23e45`.
    have hle := h.exponent_le
    have hlength : (Nat.toDigits 10 s.digits).length ≤ 19 :=
      (Nat.length_toDigits_le_iff (by decide) (by decide)).2 (h.digits_le.trans_lt (by decide))
    rw [heq, List.length_cons] at hlength
    have hshift : JsonNumber.scale negative s.digits (-cs.length + x) = some m := by
      rw [show (-cs.length + x : ℤ) = s.exponent by omega]
      exact hm
    exact exists_readMagnitude_scientific hc hall (by rwa [hvalue]) (by unfold exponentLimit; omega)
      (by rwa [hvalue])

theorem scalable_shortest {b : Binary} (hne : b.significand ≠ 0) (hsignificand : b.significand < 2 ^ 53)
    (hexponent : b.exponent ≤ 971) : Scalable (shortest b) := by
  obtain ⟨hdigits, hlimit, -⟩ := shortest_bounds hne (by omega)
  exact ⟨hdigits, hlimit, exists_scale_shortest hne hsignificand hexponent⟩

def magnitudeChars (b : Binary) : List Char :=
  if b.significand = 0 then ['0', '.', '0'] else decimalChars (shortest b)

theorem exists_read_magnitudeChars {b : Binary} (hsignificand : b.significand < 2 ^ 53)
    (hexponent : b.exponent ≤ 971) (negative : Bool) :
    ∃ m, ∀ rest, Ends rest →
      readMagnitude negative (magnitudeChars b ++ rest) = some (m, rest) := by
  unfold magnitudeChars
  split
  · obtain ⟨m, hm⟩ := scale_of_neg negative 0 (by decide : (-1 : ℤ) < 0)
    refine ⟨m, fun rest hrest => ?_⟩
    show readMagnitude negative ('0' :: '.' :: (['0'] ++ rest)) = _
    rw [readMagnitude_zero_point (by simp) (List.cons_ne_nil _ _) hrest.stopsRun_isDigit (by decide),
      readScale_of_ends hrest]
    show (scale negative 0 (-1)).map (·, rest) = _
    rw [hm]
    rfl
  · next hne => exact (scalable_shortest hne hsignificand hexponent).exists_readMagnitude negative

theorem read_of_readMagnitude {s : List Char} {r : JsonNumber × List Char}
    (h : readMagnitude false s = some r) : read s = some r := by
  cases s with
  | nil => cases h
  | cons c s =>
    have hc : c.isDigit = true := by
      by_cases hzero : c = '0'
      · rw [hzero]
        rfl
      · rw [readMagnitude, if_neg hzero] at h
        split at h
        · assumption
        · cases h
    rw [read_of_isDigit hc, h]

theorem InRange.legible {n : JsonNumber} (h : n.InRange) : n.Legible := by
  cases n with
  | integer n => exact Integral.legible h
  | float bits =>
    obtain ⟨hsignificand, hexponent⟩ := ofBits_bounds h
    have htext : floatChars bits = if bits.toNat / 0x8000000000000000 = 1
        then '-' :: magnitudeChars (Binary.ofBits bits) else magnitudeChars (Binary.ofBits bits) := rfl
    unfold Legible
    rw [chars, htext]
    split
    · exact exists_read_magnitudeChars hsignificand hexponent true
    · obtain ⟨m, hm⟩ := exists_read_magnitudeChars hsignificand hexponent false
      exact ⟨m, fun rest hrest => read_of_readMagnitude (hm rest hrest)⟩

theorem takeDigits_le {n : ℕ} (hn : n ≤ significandLimit) (s : List Char) :
    (takeDigits n s).1 ≤ significandLimit := by
  induction s generalizing n with
  | nil => exact hn
  | cons c s ih =>
    unfold takeDigits
    split
    · next h => exact ih (of_decide_eq_true (Bool.and_eq_true_iff.1 h).2)
    · exact hn

theorem inRange_of_map_scale {negative : Bool} {n : ℕ} {e : ℤ} {s rest : List Char} {m : JsonNumber}
    (h : (scale negative n e).map (·, s) = some (m, rest)) : InRange m := by
  obtain ⟨k, hk, heq⟩ := Option.map_eq_some_iff.1 h
  obtain ⟨rfl, -⟩ := Prod.mk.inj heq
  exact inRange_of_scale hk

theorem inRange_of_readShifted {negative down : Bool} {n shift : ℕ} {e : ℤ} {m : JsonNumber}
    (h : readShifted negative down n shift e = some m) : InRange m := by
  unfold readShifted at h
  split at h
  · split at h
    · cases h
    · obtain rfl := Option.some.inj h
      have hzero : AtMost largest (0 : Float) := Within.zero .positive
      cases negative with
      | false => exact inRange_of_atMost hzero
      | true => exact inRange_of_atMost (hzero.neg le_rfl)
  · exact inRange_of_scale h

theorem inRange_of_readExponent {negative : Bool} {n : ℕ} {e : ℤ} {s rest : List Char} {m : JsonNumber}
    (h : readExponent negative n e s = some (m, rest)) : InRange m := by
  obtain ⟨down, t, heq⟩ := exists_readExponent_eq negative n e s
  rw [heq, readUnsigned] at h
  split at h
  · cases h
  · obtain ⟨k, hk, hpair⟩ := Option.map_eq_some_iff.1 h
    obtain ⟨rfl, -⟩ := Prod.mk.inj hpair
    exact inRange_of_readShifted hk

theorem inRange_of_readScale {negative : Bool} {n : ℕ} {e : ℤ} {s rest : List Char} {m : JsonNumber}
    (h : readScale negative n e s = some (m, rest)) : InRange m := by
  unfold readScale at h
  split at h
  · exact inRange_of_readExponent h
  · exact inRange_of_readExponent h
  · exact inRange_of_map_scale h

theorem inRange_of_readFraction {negative : Bool} {n : ℕ} {e : ℤ} {s rest : List Char} {m : JsonNumber}
    (h : readFraction negative n e s = some (m, rest)) : InRange m := by
  unfold readFraction at h
  simp only [] at h
  split at h
  · split at h
    · exact inRange_of_readScale h
    · cases h
  · cases h

theorem inRange_whole {n : ℕ} (hn : n ≤ significandLimit) (negative : Bool) :
    InRange (whole negative n) := by
  have hlimit : significandLimit = 0xFFFFFFFFFFFFFFFF := rfl
  unfold whole
  split
  · show -0x8000000000000000 ≤ (n : ℤ) ∧ (n : ℤ) ≤ 0xFFFFFFFFFFFFFFFF
    omega
  · split
    · exact inRange_of_atMost (((atMost_toFloat_pow_64 _).mono pow_64_le_largest).neg le_rfl)
    · next h =>
      simp only [Bool.or_eq_true, decide_eq_true_eq, not_or] at h
      show -0x8000000000000000 ≤ -(n : ℤ) ∧ -(n : ℤ) ≤ 0xFFFFFFFFFFFFFFFF
      omega

theorem inRange_of_readAfterWhole {negative : Bool} {n dropped : ℕ} {s rest : List Char}
    {m : JsonNumber} (hn : n ≤ significandLimit)
    (h : readAfterWhole negative n dropped s = some (m, rest)) : InRange m := by
  unfold readAfterWhole at h
  split at h
  · exact inRange_of_readFraction h
  · exact inRange_of_readExponent h
  · exact inRange_of_readExponent h
  · split at h
    · obtain ⟨rfl, -⟩ := Prod.mk.inj (Option.some.inj h)
      exact inRange_whole hn negative
    · exact inRange_of_map_scale h

theorem inRange_of_readMagnitude {negative : Bool} {s rest : List Char} {m : JsonNumber}
    (h : readMagnitude negative s = some (m, rest)) : InRange m := by
  cases s with
  | nil => cases h
  | cons c s =>
    unfold readMagnitude at h
    simp only [] at h
    split at h
    · split at h
      · cases h
      · exact inRange_of_readAfterWhole (Nat.zero_le _) h
    · split at h
      · exact inRange_of_readAfterWhole (takeDigits_le (Nat.zero_le _) _) h
      · cases h

theorem inRange_of_read {s rest : List Char} {n : JsonNumber} (h : read s = some (n, rest)) :
    InRange n := by
  unfold read at h
  split at h
  · exact inRange_of_readMagnitude h
  · exact inRange_of_readMagnitude h

end AddressLookup.JsonNumber
