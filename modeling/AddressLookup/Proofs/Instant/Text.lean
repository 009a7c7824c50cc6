import AddressLookup.Instant.Text
import AddressLookup.Proofs.Instant.Calendar
import AddressLookup.Proofs.Text.Digits
import AddressLookup.Proofs.Text.Trimming

/-! Reading the text of an instant gives the instant back, to the nanosecond, in every year of the range
and in leap seconds too. -/

namespace AddressLookup.Instant

open Text

theorem valueOfDigits_eq (digits : List Char) :
    valueOfDigits digits = Nat.ofDigitChars 10 digits 0 := by
  rw [Nat.ofDigitChars_eq_foldl]
  rfl

theorem isDigit_of_mem_padded (width n : Nat) : ∀ c ∈ padded width n, c.isDigit = true :=
  isDigit_of_mem_append (fun _ => isDigit_of_mem_zeros) (fun _ => isDigit_of_mem_toDigits)

theorem valueOfDigits_padded (width n : Nat) : valueOfDigits (padded width n) = n := by
  rw [valueOfDigits_eq, padded, ofDigitChars_zeros, Nat.ofDigitChars_ten_toDigits]

theorem padded_ne_nil (width n : Nat) : padded width n ≠ [] := by
  rw [padded]
  exact List.append_ne_nil_of_right_ne_nil _ Nat.toDigits_ne_nil

theorem length_padded {width n : Nat} (hwidth : 0 < width) (hn : n < 10 ^ width) :
    (padded width n).length = width := by
  have hlength := (Nat.length_toDigits_le_iff (b := 10) (by decide) hwidth).2 hn
  rw [padded, List.length_append, List.length_replicate]
  omega

theorem isBlank_of_isDigit {c : Char} (h : c.isDigit = true) : isBlank c = false := by
  obtain ⟨hlow, hhigh⟩ := Char.isDigit_iff_toNat.1 h
  have hzero : '0'.toNat = 48 := rfl
  have hnine : '9'.toNat = 57 := rfl
  simp [isBlank]
  omega

theorem trimStart_digits {digits : List Char} (hne : digits ≠ [])
    (hall : ∀ c ∈ digits, c.isDigit = true) (rest : List Char) :
    trimStart (digits ++ rest) = digits ++ rest := by
  refine trimStart_of_head fun c hc => ?_
  rcases digits with _ | ⟨d, digits⟩
  · exact absurd rfl hne
  · obtain rfl : d = c := by simpa using hc
    exact isBlank_of_isDigit (hall d List.mem_cons_self)

theorem readNumber_padded (width n : Nat) (hwidth : 0 < width) (hn : n < 10 ^ width)
    (rest : List Char) : readNumber width (padded width n ++ rest) = some (n, rest) := by
  have hall := isDigit_of_mem_padded width n
  have hlength := length_padded hwidth hn
  have hdigits : ((padded width n ++ rest).take width).takeWhile Char.isDigit = padded width n := by
    have hrun := takeWhile_run hall (stopsRun_nil Char.isDigit)
    rw [List.append_nil] at hrun
    rw [List.take_left' hlength, hrun]
  have hne : (padded width n).isEmpty = false := List.isEmpty_eq_false_iff.2 (padded_ne_nil width n)
  unfold readNumber
  simp only [trimStart_digits (padded_ne_nil width n) hall, hdigits, hne, Bool.false_eq_true, ↓reduceIte,
    valueOfDigits_padded, List.drop_left]

theorem readAfter_padded (separator : Char) (hblank : isBlank separator = false) (n : Nat)
    (hn : n < 100) (rest : List Char) :
    readAfter separator (separator :: (padded 2 n ++ rest)) = some (n, rest) := by
  have hstart : trimStart (separator :: (padded 2 n ++ rest)) = separator :: (padded 2 n ++ rest) :=
    trimStart_of_head fun c hc => by
      obtain rfl : separator = c := by simpa using hc
      exact hblank
  rw [readAfter, hstart]
  simp only [↓reduceIte]
  exact readNumber_padded 2 n (by decide) hn rest

theorem readSigned_padded (sign : Int) (n : Nat) {rest : List Char} (hrest : StopsRun Char.isDigit rest) :
    readYear.readSigned sign (padded 4 n ++ rest) = some (sign * n, rest) := by
  have hall := isDigit_of_mem_padded 4 n
  have hne : (padded 4 n).isEmpty = false := List.isEmpty_eq_false_iff.2 (padded_ne_nil 4 n)
  unfold readYear.readSigned
  simp only [takeWhile_run hall hrest, dropWhile_run hall hrest, hne, Bool.false_eq_true, ↓reduceIte,
    valueOfDigits_padded]

theorem readYear_yearChars (year : Int) (rest : List Char) (hrest : StopsRun Char.isDigit rest) :
    readYear (yearChars year ++ rest) = some (year, rest) := by
  unfold yearChars
  split
  · next h =>
    simp only [Bool.and_eq_true, decide_eq_true_eq] at h
    have hall := isDigit_of_mem_padded 4 year.toNat
    have hread := readNumber_padded 4 year.toNat (by decide) (by omega) rest
    have hstart := trimStart_digits (padded_ne_nil 4 year.toNat) hall rest
    have hyear : (year.toNat : Int) = year := by omega
    obtain ⟨c, cs, hcons⟩ := List.exists_cons_of_ne_nil (padded_ne_nil 4 year.toNat)
    have hc : c.isDigit = true := hall c (by simp [hcons])
    rw [readYear, hstart]
    split
    · next heq =>
      rw [hcons] at heq
      exact absurd hc (by rw [(List.cons.inj heq).1]; decide)
    · next heq =>
      rw [hcons] at heq
      exact absurd hc (by rw [(List.cons.inj heq).1]; decide)
    · simp only [hread, Option.map_some, hyear]
  · next h =>
    split
    · next hneg =>
      have hyear : -1 * (year.natAbs : Int) = year := by omega
      show readYear.readSigned (-1) (padded 4 year.natAbs ++ rest) = some (year, rest)
      rw [readSigned_padded (-1) year.natAbs hrest, hyear]
    · next hneg =>
      have hyear : 1 * (year.natAbs : Int) = year := by omega
      show readYear.readSigned 1 (padded 4 year.natAbs ++ rest) = some (year, rest)
      rw [readSigned_padded 1 year.natAbs hrest, hyear]

theorem readFraction_digits (width nanos : Nat) (hwidth : 0 < width) (hnine : width ≤ 9)
    (hdivides : 10 ^ (9 - width) ∣ nanos) (hnanos : nanos < nanosPerSecond) {rest : List Char}
    (hrest : StopsRun Char.isDigit rest) :
    readFraction ('.' :: (padded width (nanos / 10 ^ (9 - width)) ++ rest)) = some (nanos, rest) := by
  have hpower : 10 ^ width * 10 ^ (9 - width) = nanosPerSecond := by
    rw [← Nat.pow_add, Nat.add_sub_cancel' hnine]
    rfl
  have hpart : nanos / 10 ^ (9 - width) < 10 ^ width :=
    Nat.div_lt_of_lt_mul (by rwa [Nat.mul_comm, hpower])
  have hall := isDigit_of_mem_padded width (nanos / 10 ^ (9 - width))
  have hlength := length_padded hwidth hpart
  have hdigits : ((padded width (nanos / 10 ^ (9 - width)) ++ rest).take 9).takeWhile Char.isDigit =
      padded width (nanos / 10 ^ (9 - width)) := by
    rw [List.take_append, hlength, List.take_of_length_le (by omega)]
    refine takeWhile_run hall fun c hc => hrest c ?_
    cases h : 9 - width with
    | zero => simp [h] at hc
    | succ k =>
      cases rest with
      | nil => simp at hc
      | cons d rest => simpa [h] using hc
  have hne : (padded width (nanos / 10 ^ (9 - width))).isEmpty = false :=
    List.isEmpty_eq_false_iff.2 (padded_ne_nil _ _)
  unfold readFraction
  simp only [hdigits, hne, Bool.false_eq_true, ↓reduceIte, valueOfDigits_padded, hlength,
    dropWhile_run hall hrest]
  rw [show Nat.pow 10 (9 - width) = 10 ^ (9 - width) from rfl, Nat.div_mul_cancel hdivides]

theorem readFraction_fractionChars {nanos : Nat} (hnanos : nanos < nanosPerSecond) (rest : List Char) :
    readFraction (fractionChars nanos ++ 'Z' :: rest) = some (nanos, 'Z' :: rest) := by
  have hstop : StopsRun Char.isDigit ('Z' :: rest) := stopsRun_cons.2 rfl
  unfold fractionChars
  split
  · next h =>
    subst h
    rfl
  split
  · exact readFraction_digits 3 nanos (by decide) (by decide) (by omega) hnanos hstop
  split
  · exact readFraction_digits 6 nanos (by decide) (by decide) (by omega) hnanos hstop
  · have hread := readFraction_digits 9 nanos (by decide) (by decide) (by omega)
      hnanos hstop
    rwa [Nat.sub_self, Nat.pow_zero, Nat.div_one] at hread

theorem readDate_chars {date : Date} (hvalid : date.isValid = true) (rest : List Char) :
    readDate (yearChars date.year ++ '-' :: (padded 2 date.month ++ '-' :: (padded 2 date.day ++ rest))) =
      some (date, rest) := by
  have hmonth : date.month < 100 := by
    have := (Date.isValid_iff date).1 hvalid
    omega
  have hday : date.day < 100 := by
    have hbound : Date.daysInMonth date.year date.month ≤ 31 := by
      unfold Date.daysInMonth
      split <;> split <;> decide
    have := (Date.isValid_iff date).1 hvalid
    omega
  have hyear := readYear_yearChars date.year
    ('-' :: (padded 2 date.month ++ '-' :: (padded 2 date.day ++ rest))) (stopsRun_cons.2 rfl)
  unfold readDate
  simp only [hyear, readAfter_padded '-' rfl date.month hmonth,
    readAfter_padded '-' rfl date.day hday, Option.bind_eq_bind, Option.bind_some, hvalid, ↓reduceIte]

theorem readTime_chars (second nanos : Nat) (hsecond : second < 86400)
    (hnanos : nanos < nanosPerSecond ∨ second % 60 = 59 ∧ nanos < 2 * nanosPerSecond) (rest : List Char) :
    readTime (padded 2 (second / 3600) ++ ':' :: (padded 2 (second / 60 % 60) ++ ':' ::
      (padded 2 (second % 60 + nanos / nanosPerSecond) ++ (fractionChars (nanos % nanosPerSecond) ++
        'Z' :: rest)))) = some ((second, nanos), 'Z' :: rest) := by
  -- A leap second is written as second 60, with what its nanoseconds exceed a second by.
  have hcarry : nanos / nanosPerSecond = 0 ∧ nanos % nanosPerSecond = nanos ∨
      second % 60 = 59 ∧ nanos / nanosPerSecond = 1 ∧ nanosPerSecond + nanos % nanosPerSecond = nanos := by
    unfold nanosPerSecond at *
    omega
  have hleap : second % 60 + nanos / nanosPerSecond < 100 := by omega
  have hrest : nanos % nanosPerSecond < nanosPerSecond := Nat.mod_lt _ (by decide)
  have hhour := readNumber_padded 2 (second / 3600) (by decide) (by omega)
    (':' :: (padded 2 (second / 60 % 60) ++ ':' :: (padded 2 (second % 60 + nanos / nanosPerSecond) ++
      (fractionChars (nanos % nanosPerSecond) ++ 'Z' :: rest))))
  have hclock : (second / 3600 < 24 && second / 60 % 60 < 60 &&
      second % 60 + nanos / nanosPerSecond ≤ 60) = true := by
    simp only [Bool.and_eq_true, decide_eq_true_eq]
    omega
  unfold readTime
  simp only [hhour, readAfter_padded ':' rfl (second / 60 % 60) (by omega),
    readAfter_padded ':' rfl _ hleap, readFraction_fractionChars hrest, Option.bind_eq_bind,
    Option.bind_some, hclock, ↓reduceIte]
  split
  · next h =>
    have hs : second / 3600 * 3600 + second / 60 % 60 * 60 + 59 = second := by omega
    have hn : nanosPerSecond + nanos % nanosPerSecond = nanos := by omega
    rw [hs, hn]
  · next h =>
    have hs : second / 3600 * 3600 + second / 60 % 60 * 60 + (second % 60 + nanos / nanosPerSecond) =
      second := by omega
    have hn : nanos % nanosPerSecond = nanos := by omega
    rw [hs, hn]

theorem readOffset_utc : readOffset ['Z'] = some (0, []) := rfl

theorem text_toList (t : Instant) : t.text.toList = t.chars := String.toList_ofList

theorem parse_text (t : Instant) : parse t.text = some t := by
  obtain ⟨seconds, nanos, hrange, hnanos⟩ := t
  have hday : Date.firstDay ≤ seconds / secondsPerDay ∧ seconds / secondsPerDay ≤ Date.lastDay := by
    unfold firstSecond lastSecond at hrange
    unfold Date.firstDay Date.lastDay secondsPerDay
    omega
  have hvalid := Date.isValid_ofDayNumber hday.1 hday.2
  have hsecond : (seconds % secondsPerDay).toNat < 86400 ∧
      ((seconds % secondsPerDay).toNat % 60 : Nat) = (seconds % 60).toNat ∧
      seconds / secondsPerDay * secondsPerDay + (seconds % secondsPerDay).toNat - 0 = seconds := by
    unfold secondsPerDay
    omega
  have htime := readTime_chars _ nanos hsecond.1 (by rw [hsecond.2.1]; omega) []
  rw [parse, text_toList, parseChars, chars]
  simp only [List.append_assoc, List.cons_append]
  rw [readDate_chars hvalid]
  simp only [Option.bind_eq_bind, Option.bind_some, readSeparator, decide_true, Bool.true_or, ↓reduceIte,
    htime, readOffset_utc, Date.dayNumber_ofDayNumber, hsecond.2.2]
  show ofParts? seconds nanos = _
  rw [ofParts?, dif_pos hrange, dif_pos hnanos]

end AddressLookup.Instant
