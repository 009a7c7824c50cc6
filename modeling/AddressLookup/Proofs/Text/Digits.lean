import AddressLookup.Text.Blank

/-! Runs of decimal digits. A reader that takes digits while they last gets a whole number back when
nothing that follows it is a digit, also from a number that is filled up with zeros in front. -/

namespace AddressLookup.Text

def StopsRun (p : Char → Bool) (s : List Char) : Prop :=
  ∀ c ∈ s.head?, p c = false

theorem stopsRun_nil (p : Char → Bool) : StopsRun p [] := fun _ h => by simp at h

theorem stopsRun_cons {p : Char → Bool} {c : Char} {s : List Char} :
    StopsRun p (c :: s) ↔ p c = false := by
  simp [StopsRun]

theorem takeWhile_stop {p : Char → Bool} {s : List Char} (hs : StopsRun p s) :
    s.takeWhile p = [] := by
  cases s with
  | nil => rfl
  | cons c s => exact List.takeWhile_cons_of_neg (by simp [hs c rfl])

theorem dropWhile_stop {p : Char → Bool} {s : List Char} (hs : StopsRun p s) :
    s.dropWhile p = s := by
  cases s with
  | nil => rfl
  | cons c s => exact List.dropWhile_cons_of_neg (by simp [hs c rfl])

theorem takeWhile_run {p : Char → Bool} {run s : List Char} (hrun : ∀ c ∈ run, p c = true)
    (hs : StopsRun p s) : (run ++ s).takeWhile p = run := by
  rw [List.takeWhile_append_of_pos hrun, takeWhile_stop hs, List.append_nil]

theorem dropWhile_run {p : Char → Bool} {run s : List Char} (hrun : ∀ c ∈ run, p c = true)
    (hs : StopsRun p s) : (run ++ s).dropWhile p = s := by
  rw [List.dropWhile_append_of_pos hrun, dropWhile_stop hs]

theorem isDigit_of_mem_toDigits {n : Nat} {c : Char} (h : c ∈ Nat.toDigits 10 n) :
    c.isDigit = true :=
  Nat.isDigit_of_mem_toDigits (by decide) (by decide) h

theorem isDigit_of_mem_zeros {n : Nat} {c : Char} (h : c ∈ List.replicate n '0') :
    c.isDigit = true := by
  rw [List.eq_of_mem_replicate h]
  rfl

theorem isDigit_of_mem_append {s t : List Char} (hs : ∀ c ∈ s, c.isDigit = true)
    (ht : ∀ c ∈ t, c.isDigit = true) : ∀ c ∈ s ++ t, c.isDigit = true := by
  intro c hc
  rcases List.mem_append.1 hc with h | h
  · exact hs c h
  · exact ht c h

theorem toDigits_eq_cons (n : Nat) : ∃ c cs, Nat.toDigits 10 n = c :: cs ∧ (c = '0' ↔ n = 0) := by
  induction n using Nat.strongRecOn with
  | _ n ih =>
    by_cases hn : n < 10
    · exact ⟨n.digitChar, [], Nat.toDigits_of_lt_base hn, Nat.digitChar_eq_zero⟩
    · obtain ⟨c, cs, heq, hzero⟩ := ih (n / 10) (by omega)
      refine ⟨c, cs ++ [(n % 10).digitChar], ?_, ?_⟩
      · rw [Nat.toDigits_of_base_le (by decide) (by omega), heq]
        simp
      · rw [hzero]
        omega

theorem ofDigitChars_zeros (k : Nat) (s : List Char) :
    Nat.ofDigitChars 10 (List.replicate k '0' ++ s) 0 = Nat.ofDigitChars 10 s 0 := by
  rw [Nat.ofDigitChars_append, Nat.ofDigitChars_replicate_zero, Nat.mul_zero]

theorem le_ofDigitChars (s : List Char) (n : Nat) : n ≤ Nat.ofDigitChars 10 s n := by
  have hpos : 0 < 10 ^ s.length := Nat.pow_pos (by decide)
  rw [Nat.ofDigitChars_eq_ofDigitChars_zero]
  exact Nat.le_trans (Nat.le_mul_of_pos_left n hpos) (Nat.le_add_right _ _)

end AddressLookup.Text
