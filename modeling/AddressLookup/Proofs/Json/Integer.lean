import AddressLookup.Json.Number
import AddressLookup.Proofs.Text.Digits

/-! Numbers read back from their own texts. An integer of 64 bits reads back as itself; of other numbers
it is only asked here that their text is read whole, whatever number comes out of it. -/

namespace AddressLookup.JsonNumber

open Text

def continues (c : Char) : Bool :=
  c.isDigit || c = '.' || c = 'e' || c = 'E'

def Ends (rest : List Char) : Prop :=
  StopsRun continues rest

theorem Ends.stopsRun_isDigit {rest : List Char} (h : Ends rest) : StopsRun Char.isDigit rest := by
  intro c hc
  have hstop := h c hc
  simp only [continues, Bool.or_eq_false_iff] at hstop
  exact hstop.1.1.1

theorem ends_cons_of_not_continues {c : Char} (h : continues c = false) (rest : List Char) :
    Ends (c :: rest) :=
  stopsRun_cons.2 h

theorem takeDigits_append {digits rest : List Char} {n : Nat}
    (hdigits : ∀ c ∈ digits, c.isDigit = true) (hrest : StopsRun Char.isDigit rest)
    (hlimit : Nat.ofDigitChars 10 digits n ≤ significandLimit) :
    takeDigits n (digits ++ rest) = (Nat.ofDigitChars 10 digits n, rest) := by
  induction digits generalizing n with
  | nil =>
    cases rest with
    | nil => rfl
    | cons c rest =>
      have hc : c.isDigit = false := hrest c rfl
      show takeDigits n (c :: rest) = (n, c :: rest)
      rw [takeDigits, hc]
      rfl
  | cons c digits ih =>
    have hc : c.isDigit = true := hdigits c List.mem_cons_self
    rw [Nat.ofDigitChars_cons] at hlimit ⊢
    have hfits : 10 * n + digitValue c ≤ significandLimit :=
      Nat.le_trans (le_ofDigitChars digits _) hlimit
    rw [List.cons_append, takeDigits, hc]
    simp only [hfits, decide_true, Bool.and_self, ↓reduceIte]
    exact ih (fun d hd => hdigits d (List.mem_cons_of_mem c hd)) hlimit

theorem readAfterWhole_of_ends {rest : List Char} (hrest : Ends rest) (negative : Bool) (n : Nat) :
    readAfterWhole negative n 0 rest = some (whole negative n, rest) := by
  unfold readAfterWhole
  split
  · exact absurd (hrest '.' rfl) (by decide)
  · exact absurd (hrest 'e' rfl) (by decide)
  · exact absurd (hrest 'E' rfl) (by decide)
  · rfl

theorem readMagnitude_append {c : Char} {cs rest : List Char} (hc : c ≠ '0')
    (hdigits : ∀ d ∈ c :: cs, d.isDigit = true) (hrest : StopsRun Char.isDigit rest)
    (hlimit : Nat.ofDigitChars 10 (c :: cs) 0 ≤ significandLimit) (negative : Bool) :
    readMagnitude negative (c :: cs ++ rest) =
      readAfterWhole negative (Nat.ofDigitChars 10 (c :: cs) 0) 0 rest := by
  have hdigit : c.isDigit = true := hdigits c List.mem_cons_self
  have htake := takeDigits_append hdigits hrest hlimit
  have hdropped : rest.takeWhile Char.isDigit = [] := takeWhile_stop hrest
  have hkept : rest.dropWhile Char.isDigit = rest := dropWhile_stop hrest
  rw [List.cons_append] at htake ⊢
  simp only [readMagnitude, if_neg hc, hdigit, ↓reduceIte, htake, hdropped, hkept]
  rfl

theorem readMagnitude_toDigits {n : Nat} {rest : List Char} (hn : n ≤ significandLimit)
    (hrest : Ends rest) (negative : Bool) :
    readMagnitude negative (Nat.toDigits 10 n ++ rest) = some (whole negative n, rest) := by
  have hall : ∀ c ∈ Nat.toDigits 10 n, c.isDigit = true := fun _ => isDigit_of_mem_toDigits
  have hstop := hrest.stopsRun_isDigit
  by_cases hzero : n = 0
  · subst hzero
    have hhead : (rest.head?.map Char.isDigit).getD false = false := by
      cases rest with
      | nil => rfl
      | cons c rest => exact hstop c rfl
    show readMagnitude negative ('0' :: rest) = _
    simp only [readMagnitude, ↓reduceIte, hhead, Bool.false_eq_true]
    exact readAfterWhole_of_ends hrest negative 0
  · have hvalue : Nat.ofDigitChars 10 (Nat.toDigits 10 n) 0 = n := Nat.ofDigitChars_ten_toDigits
    obtain ⟨c, cs, heq, hhead⟩ := toDigits_eq_cons n
    have hne : c ≠ '0' := fun hc => hzero (hhead.1 hc)
    rw [heq] at hall hvalue ⊢
    rw [readMagnitude_append hne hall hstop (by rwa [hvalue]), hvalue]
    exact readAfterWhole_of_ends hrest negative n

theorem read_of_isDigit {c : Char} (hc : c.isDigit = true) (s : List Char) :
    read (c :: s) = readMagnitude false (c :: s) := by
  have hminus : c ≠ '-' := by
    rintro rfl
    exact absurd hc (by decide)
  rw [read.eq_def]
  split
  · next h => exact absurd (List.cons.inj h).1 hminus
  · rfl

def Integral : JsonNumber → Prop
  | integer n => -0x8000000000000000 ≤ n ∧ n ≤ 0xFFFFFFFFFFFFFFFF
  | float _ => False

/-- Whatever may follow it, the text of the number is read to its end. -/
def Legible (n : JsonNumber) : Prop :=
  ∃ m, ∀ rest, Ends rest → read (n.chars ++ rest) = some (m, rest)

def reread (n : JsonNumber) : JsonNumber :=
  ((read n.chars).map (·.1)).getD n

theorem read_of_reads {n m : JsonNumber}
    (h : ∀ rest, Ends rest → read (n.chars ++ rest) = some (m, rest)) : n.reread = m := by
  have hread := h [] (stopsRun_nil _)
  rw [List.append_nil] at hread
  rw [reread, hread]
  rfl

theorem Legible.read_chars {n : JsonNumber} (h : n.Legible) {rest : List Char} (hrest : Ends rest) :
    read (n.chars ++ rest) = some (n.reread, rest) := by
  obtain ⟨m, hm⟩ := h
  rw [read_of_reads hm]
  exact hm rest hrest

theorem read_integerChars {n : Int} (h : (integer n).Integral) {rest : List Char}
    (hrest : Ends rest) : read ((integer n).chars ++ rest) = some (integer n, rest) := by
  obtain ⟨hlow, hhigh⟩ := h
  have hlimit : significandLimit = 0xFFFFFFFFFFFFFFFF := rfl
  have hread := readMagnitude_toDigits (n := n.natAbs) (by omega) hrest
  show read (integerChars n ++ rest) = _
  unfold integerChars
  split
  · next hneg =>
    have hwhole : whole true n.natAbs = integer n := by
      have hinside : ¬ (n.natAbs = 0 || 0x8000000000000000 < n.natAbs) = true := by
        simp only [Bool.or_eq_true, decide_eq_true_eq]
        omega
      have heq : -(n.natAbs : Int) = n := by omega
      rw [whole, if_neg (by decide), if_neg hinside, heq]
    rw [List.cons_append, read, hread true, hwhole]
  · next hpos =>
    have hwhole : whole false n.natAbs = integer n := by
      have heq : (n.natAbs : Int) = n := by omega
      rw [whole, if_pos (by decide), heq]
    obtain ⟨c, cs, heq, -⟩ := toDigits_eq_cons n.natAbs
    have hc : c.isDigit = true := isDigit_of_mem_toDigits (n := n.natAbs) (by simp [heq])
    have hsame : read (Nat.toDigits 10 n.natAbs ++ rest) =
        readMagnitude false (Nat.toDigits 10 n.natAbs ++ rest) := by
      rw [heq, List.cons_append]
      exact read_of_isDigit hc _
    rw [hsame, hread false, hwhole]

theorem Integral.legible {n : JsonNumber} (h : n.Integral) : n.Legible := by
  cases n with
  | integer n => exact ⟨integer n, fun _ hrest => read_integerChars h hrest⟩
  | float bits => exact h.elim

theorem Integral.reread_eq {n : JsonNumber} (h : n.Integral) : n.reread = n := by
  cases n with
  | integer n => exact read_of_reads fun _ hrest => read_integerChars h hrest
  | float bits => exact h.elim

end AddressLookup.JsonNumber
