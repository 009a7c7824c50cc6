import AddressLookup.Decimal.Shortest
import AddressLookup.Proofs.Decimal.Rounding

/-! The shortest decimal of a double is no more than half a unit above the double and has at most
eighteen digits, so that it fits the significand with which numbers are read. -/

namespace AddressLookup.Decimal

def ratio (a : ℕ × ℕ) : ℚ :=
  a.1 / a.2

theorem scaled_snd_pos (n : ℕ) {base : ℕ} (hbase : 0 < base) (e : ℤ) : 0 < (scaled n base e).2 := by
  unfold scaled
  split
  · exact Nat.one_pos
  · exact Nat.pow_pos hbase

theorem ratio_scaled (n : ℕ) {base : ℕ} (hbase : 0 < base) (e : ℤ) :
    ratio (scaled n base e) = n * (base : ℚ) ^ e := by
  have hne : (base : ℚ) ≠ 0 := by exact_mod_cast hbase.ne'
  unfold scaled ratio
  split
  · next hpos =>
    obtain ⟨k, rfl⟩ := Int.eq_ofNat_of_zero_le hpos
    show ((n * base ^ k : ℕ) : ℚ) / (1 : ℕ) = n * (base : ℚ) ^ (k : ℤ)
    rw [zpow_natCast]
    push_cast
    rw [div_one]
  · next hneg =>
    obtain ⟨k, hk⟩ := Int.eq_ofNat_of_zero_le (a := -e) (by omega)
    obtain rfl : e = -(k : ℤ) := by omega
    show (n : ℚ) / ((base ^ (-(-(k : ℤ))).toNat : ℕ) : ℚ) = n * (base : ℚ) ^ (-(k : ℤ))
    rw [neg_neg, Int.toNat_natCast, zpow_neg, zpow_natCast]
    push_cast
    rw [div_eq_mul_inv]

theorem fractionLe_iff {a b : ℕ × ℕ} (ha : 0 < a.2) (hb : 0 < b.2) :
    fractionLe a b = true ↔ ratio a ≤ ratio b := by
  have hapos : (0 : ℚ) < a.2 := by exact_mod_cast ha
  have hbpos : (0 : ℚ) < b.2 := by exact_mod_cast hb
  unfold fractionLe ratio
  rw [decide_eq_true_eq, div_le_div_iff₀ hapos hbpos]
  exact_mod_cast Iff.rfl

namespace Binary

def value (b : Binary) : ℚ :=
  magnitude b.significand b.exponent

def upper (b : Binary) : ℚ :=
  magnitude (4 * b.significand + 2) (b.exponent - 2)

theorem ratio_scaled_significand (b : Binary) :
    ratio (scaled b.significand 2 b.exponent) = b.value :=
  ratio_scaled b.significand (by decide) b.exponent

end Binary

def Scientific.value (s : Scientific) : ℚ :=
  s.digits * 10 ^ s.exponent

theorem Scientific.dropZeros_value (fuel : ℕ) (s : Scientific) :
    (Scientific.dropZeros fuel s).value = s.value := by
  induction fuel generalizing s with
  | zero => rfl
  | succ fuel ih =>
    unfold Scientific.dropZeros
    split
    · next h =>
      obtain ⟨hzero, -⟩ := Bool.and_eq_true_iff.1 h
      have hten : s.digits % 10 = 0 := of_decide_eq_true hzero
      have hdigits : (s.digits : ℚ) = 10 * (s.digits / 10 : ℕ) := by
        exact_mod_cast (Nat.mul_div_cancel' (Nat.dvd_of_mod_eq_zero hten)).symm
      rw [ih, Scientific.value, Scientific.value, zpow_add₀ (by norm_num), zpow_one, hdigits]
      ring
    · rfl

theorem Scientific.dropZeros_digits (fuel : ℕ) (s : Scientific) :
    (Scientific.dropZeros fuel s).digits ≤ s.digits ∧
      (s.digits ≠ 0 → (Scientific.dropZeros fuel s).digits ≠ 0) := by
  induction fuel generalizing s with
  | zero => exact ⟨le_rfl, id⟩
  | succ fuel ih =>
    unfold Scientific.dropZeros
    split
    · next h =>
      obtain ⟨hzero, hne⟩ := Bool.and_eq_true_iff.1 h
      have hten : s.digits % 10 = 0 := of_decide_eq_true hzero
      have hpos : s.digits ≠ 0 := of_decide_eq_true hne
      obtain ⟨hle, hkeep⟩ := ih ⟨s.digits / 10, s.exponent + 1⟩
      refine ⟨hle.trans (Nat.div_le_self _ _), fun _ => hkeep ?_⟩
      show s.digits / 10 ≠ 0
      omega
    · exact ⟨le_rfl, id⟩

theorem ratio_lt_of_length_toDigits {n d j k : ℕ} (hd : 0 < d)
    (h : (Nat.toDigits 10 (n * Nat.pow 10 j / d)).length = k) :
    ratio (n, d) < 10 ^ ((k : ℤ) - j) := by
  have hlt : n * 10 ^ j / d < 10 ^ k := by
    have hpos : 0 < k := h ▸ Nat.length_toDigits_pos
    exact (Nat.length_toDigits_le_iff (by decide) hpos).1 (le_of_eq h)
  have hprod : n * 10 ^ j < 10 ^ k * d := (Nat.div_lt_iff_lt_mul hd).1 hlt
  have hcast : (n : ℚ) * 10 ^ j < 10 ^ k * d := by exact_mod_cast hprod
  have hdpos : (0 : ℚ) < d := by exact_mod_cast hd
  unfold ratio
  rw [zpow_sub₀ (by norm_num), zpow_natCast, zpow_natCast, div_lt_div_iff₀ hdpos (by positivity)]
  exact hcast

theorem value_lt_pow_leadingExponent (b : Binary) :
    b.value < 10 ^ (leadingExponent b + 1) := by
  obtain ⟨n, d, hnd⟩ : ∃ n d, scaled b.significand 2 b.exponent = (n, d) := ⟨_, _, rfl⟩
  have hd : 0 < d := by
    have hpos := scaled_snd_pos b.significand (by decide : 0 < 2) b.exponent
    rwa [hnd] at hpos
  -- The shift of the point as a variable: its power is not to be computed.
  obtain ⟨j, hj⟩ : ∃ j : ℕ, 400 = j := ⟨_, rfl⟩
  have hshift : ∀ x : ℤ, x - 401 + 1 = x - j := by
    intro x
    omega
  have hlead : leadingExponent b + 1 = ((Nat.toDigits 10 (n * Nat.pow 10 j / d)).length : ℤ) - j := by
    unfold leadingExponent
    rw [hnd, hj, hshift]
  rw [← b.ratio_scaled_significand, hnd, hlead]
  exact ratio_lt_of_length_toDigits hd rfl

/-- What makes a decimal a candidate: it is a positive multiple of the grid's step, no larger than the
upper bound, and at most the first multiple above the number. -/
structure Candidate (b : Binary) (e : ℤ) (s : Scientific) : Prop where
  digits_ne_zero : s.digits ≠ 0
  value_le : s.value ≤ b.upper
  exponent_eq : s.exponent = e
  digits_le : ∀ k : ℕ, b.value < k * 10 ^ e → s.digits ≤ k

theorem quotient_lt_of_value_lt {b : Binary} {e : ℤ} {n d p q l : ℕ}
    (hnd : scaled b.significand 2 b.exponent = (n, d)) (hpq : scaled 1 10 e = (p, q))
    (hl : b.value < l * 10 ^ e) : n * q / (d * p) < l := by
  have hd : 0 < d := by
    have hpos := scaled_snd_pos b.significand (by decide : 0 < 2) b.exponent
    rwa [hnd] at hpos
  have hq : 0 < q := by
    have hpos := scaled_snd_pos 1 (by decide : 0 < 10) e
    rwa [hpq] at hpos
  have hvalue : b.value = n / d := by
    rw [← b.ratio_scaled_significand, hnd]
    rfl
  have hstep : (10 : ℚ) ^ e = p / q := by
    have hratio := ratio_scaled 1 (by decide : 0 < 10) e
    rw [hpq, Nat.cast_one, one_mul] at hratio
    exact_mod_cast hratio.symm
  have hdpos : (0 : ℚ) < d := by exact_mod_cast hd
  have hqpos : (0 : ℚ) < q := by exact_mod_cast hq
  have hppos : 0 < p := by
    have hquotient : (0 : ℚ) < p / q := by
      rw [← hstep]
      positivity
    exact_mod_cast (div_pos_iff_of_pos_right hqpos).1 hquotient
  rw [Nat.div_lt_iff_lt_mul (Nat.mul_pos hd hppos)]
  rw [hvalue, hstep, ← mul_div_assoc, div_lt_div_iff₀ hdpos hqpos] at hl
  have hcast : n * q < l * p * d := by exact_mod_cast hl
  calc n * q < l * p * d := hcast
    _ = l * (d * p) := by ring

theorem candidate_of_mem {b : Binary} {e : ℤ} {s : Scientific} (h : s ∈ candidatesAt b e) :
    Candidate b e s := by
  obtain ⟨n, d, hnd⟩ : ∃ n d, scaled b.significand 2 b.exponent = (n, d) := ⟨_, _, rfl⟩
  obtain ⟨p, q, hpq⟩ : ∃ p q, scaled 1 10 e = (p, q) := ⟨_, _, rfl⟩
  unfold candidatesAt at h
  simp only [hnd, hpq] at h
  obtain ⟨k, hfilter, rfl⟩ := List.mem_map.1 h
  obtain ⟨hk, hinside⟩ := List.mem_filter.1 hfilter
  obtain ⟨hne, hinside⟩ := Bool.and_eq_true_iff.1 hinside
  refine ⟨of_decide_eq_true hne, ?_, rfl, ?_⟩
  · have hle : fractionLe (scaled k 10 e) (scaled (4 * b.significand + 2) 2 (b.exponent - 2)) = true := by
      split at hinside
      · exact (Bool.and_eq_true_iff.1 hinside).2
      · simp only [Bool.and_eq_true] at hinside
        exact hinside.1.2
    rw [fractionLe_iff (scaled_snd_pos _ (by decide) _) (scaled_snd_pos _ (by decide) _),
      ratio_scaled _ (by decide), ratio_scaled _ (by decide)] at hle
    exact hle
  · intro l hl
    have hfloor := quotient_lt_of_value_lt hnd hpq hl
    rcases List.mem_cons.1 hk with rfl | hk
    · exact hfloor.le
    · obtain rfl := List.mem_singleton.1 hk
      exact hfloor

theorem nearer_eq (b : Binary) (low high : Scientific) :
    nearer b low high = low ∨ nearer b low high = high := by
  unfold nearer
  simp only []
  split
  · exact Or.inl rfl
  · split
    · exact Or.inr rfl
    · split
      · exact Or.inl rfl
      · exact Or.inr rfl

theorem searchFrom_cases (b : Binary) (first : ℤ) (left count : ℕ) :
    searchFrom b first left count = ⟨b.significand, 0⟩ ∨
      ∃ c < count + left, Candidate b (first - c) (searchFrom b first left count) := by
  induction left generalizing count with
  | zero => exact Or.inl rfl
  | succ left ih =>
    unfold searchFrom
    split
    · next s hs =>
      have hmem : s ∈ candidatesAt b (first - count) := by simp [hs]
      exact Or.inr ⟨count, by omega, candidate_of_mem hmem⟩
    · next s t hst =>
      have hmem : nearer b s t ∈ candidatesAt b (first - count) := by
        obtain h | h := nearer_eq b s t <;> simp [hst, h]
      exact Or.inr ⟨count, by omega, candidate_of_mem hmem⟩
    · obtain h | ⟨c, hc, h⟩ := ih (count + 1)
      · exact Or.inl h
      · exact Or.inr ⟨c, by omega, h⟩

theorem Candidate.digits_le_pow {b : Binary} {c : ℕ} {s : Scientific}
    (h : Candidate b (leadingExponent b - c) s) : s.digits ≤ 10 ^ (c + 1) := by
  refine h.digits_le (10 ^ (c + 1)) ?_
  have hpow : ((10 ^ (c + 1) : ℕ) : ℚ) * 10 ^ (leadingExponent b - c) = 10 ^ (leadingExponent b + 1) := by
    push_cast
    rw [← zpow_natCast, ← zpow_add₀ (by norm_num)]
    congr 1
    push_cast
    ring
  rw [hpow]
  exact value_lt_pow_leadingExponent b

theorem shortest_bounds {b : Binary} (hne : b.significand ≠ 0) (hlimit : b.significand ≤ 10 ^ 18) :
    (shortest b).digits ≠ 0 ∧ (shortest b).digits ≤ 10 ^ 18 ∧
      ((shortest b).value ≤ b.upper ∨ (shortest b).value = b.significand) := by
  obtain ⟨s, hs⟩ : ∃ s, s = searchFrom b (leadingExponent b) 18 0 := ⟨_, rfl⟩
  have hshort : shortest b = Scientific.dropZeros 20 s := by
    rw [shortest, if_neg hne, hs]
  obtain ⟨hle, hkeep⟩ := Scientific.dropZeros_digits 20 s
  rw [hshort, Scientific.dropZeros_value]
  obtain h | ⟨c, hc, h⟩ := searchFrom_cases b (leadingExponent b) 18 0
  · rw [← hs] at h
    subst h
    refine ⟨hkeep hne, hle.trans hlimit, Or.inr ?_⟩
    rw [Scientific.value, zpow_zero, mul_one]
  · rw [← hs] at h
    have hpow : 10 ^ (c + 1) ≤ 10 ^ 18 := Nat.pow_le_pow_right (by decide) (by omega)
    exact ⟨hkeep h.digits_ne_zero, hle.trans (h.digits_le_pow.trans hpow), Or.inl h.value_le⟩

end AddressLookup.Decimal
