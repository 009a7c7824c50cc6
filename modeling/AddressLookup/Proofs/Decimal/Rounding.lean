import Mathlib

/-! Rounding to double precision, read as exact rational arithmetic. A number that lies less than half a
unit above a double is rounded to that double or to a smaller one, so a bound on the exact result of an
operation is a bound on the double that comes out of it. -/

namespace AddressLookup.Decimal

open Float.Model Float.Model.UnpackedFloat

def magnitude (m : ℕ) (e : ℤ) : ℚ :=
  m * 2 ^ e

/-- The pairs that double precision stores, were its exponents not limited above. -/
structure Canonical (m : ℕ) (e : ℤ) : Prop where
  small : m < 2 ^ 53
  floor : -1074 ≤ e
  full : 2 ^ 52 ≤ m ∨ e = -1074

/-- A mantissa that is long enough to be rounded, or that reaches below the least exponent. -/
def Ready (m : ℕ) (e : ℤ) : Prop :=
  2 ^ 52 ≤ m ∨ e ≤ -1074

/-- The extended mantissa says no more than the number, in units of the last place, amounts to. -/
structure Under (em : ExtendedMantissa) (x : ℚ) : Prop where
  whole : (em.mantissa : ℚ) ≤ x
  half : em.roundBit = true → (em.mantissa : ℚ) + 1 / 2 ≤ x

theorem magnitude_nonneg (m : ℕ) (e : ℤ) : 0 ≤ magnitude m e := by
  unfold magnitude
  positivity

theorem magnitude_add (m : ℕ) (e : ℤ) (k : ℕ) : magnitude m (e + k) = magnitude (m * 2 ^ k) e := by
  unfold magnitude
  rw [zpow_add₀ (by norm_num), zpow_natCast]
  push_cast
  ring

theorem magnitude_natCast (m k : ℕ) : magnitude m k = (m * Nat.pow 2 k : ℕ) := by
  unfold magnitude
  rw [zpow_natCast, Nat.cast_mul, Nat.pow_eq, Nat.cast_pow, Nat.cast_ofNat]

theorem magnitude_mul (m n : ℕ) (a b : ℤ) :
    magnitude m a * magnitude n b = magnitude (m * n) (a + b) := by
  unfold magnitude
  rw [zpow_add₀ (by norm_num)]
  push_cast
  ring

theorem magnitude_le_magnitude {m n : ℕ} {e : ℤ} : magnitude m e ≤ magnitude n e ↔ m ≤ n := by
  unfold magnitude
  rw [mul_le_mul_iff_of_pos_right (by positivity)]
  exact Nat.cast_le

theorem magnitude_mono {m n : ℕ} {e a : ℤ} (hm : m ≤ n) (he : e ≤ a) :
    magnitude m e ≤ magnitude n a := by
  unfold magnitude
  have hpow : (2 : ℚ) ^ e ≤ 2 ^ a := zpow_le_zpow_right₀ (by norm_num) he
  exact mul_le_mul (Nat.cast_le.2 hm) hpow (by positivity) (Nat.cast_nonneg n)

theorem Under.shiftRightOne {em : ExtendedMantissa} {x : ℚ} (h : Under em x) :
    Under em.shiftRightOne (x / 2) := by
  have hsplit : (em.mantissa : ℚ) = 2 * (em.mantissa / 2 : ℕ) + (em.mantissa % 2 : ℕ) := by
    exact_mod_cast (Nat.div_add_mod em.mantissa 2).symm
  have hwhole := h.whole
  refine ⟨?_, fun hround => ?_⟩
  · have hrest : (0 : ℚ) ≤ (em.mantissa % 2 : ℕ) := Nat.cast_nonneg _
    show ((em.mantissa / 2 : ℕ) : ℚ) ≤ x / 2
    linarith
  · have hodd : em.mantissa % 2 = 1 := by
      have hne : em.mantissa % 2 ≠ 0 := bne_iff_ne.1 hround
      omega
    rw [hodd, Nat.cast_one] at hsplit
    show ((em.mantissa / 2 : ℕ) : ℚ) + 1 / 2 ≤ x / 2
    linarith

theorem shiftRight_succ (em : ExtendedMantissa) (k : ℕ) :
    em >>> (k + 1) = (em >>> k).shiftRightOne :=
  rfl

theorem Under.shiftRight {em : ExtendedMantissa} {x : ℚ} (h : Under em x) (k : ℕ) :
    Under (em >>> k) (x / 2 ^ k) := by
  induction k with
  | zero =>
    rw [pow_zero, div_one]
    exact h
  | succ k ih =>
    rw [shiftRight_succ, pow_succ, ← div_div]
    exact ih.shiftRightOne

theorem mantissa_shiftRight (em : ExtendedMantissa) (k : ℕ) :
    (em >>> k).mantissa = em.mantissa / 2 ^ k := by
  induction k with
  | zero => exact (Nat.div_one _).symm
  | succ k ih =>
    rw [shiftRight_succ, pow_succ, ← Nat.div_div_eq_div_mul, ← ih]
    rfl

theorem Under.roundedMantissa_le {em : ExtendedMantissa} {x : ℚ} {n : ℕ} (h : Under em x)
    (hx : x < n + 1 / 2) : em.roundedMantissa ≤ n := by
  obtain ⟨m, round, sticky⟩ := em
  obtain ⟨hwhole, hhalf⟩ := h
  cases round with
  | false =>
    have hlt : (m : ℚ) < n + 1 := by
      have hm : (m : ℚ) ≤ x := hwhole
      linarith
    have hle : m < n + 1 := by exact_mod_cast hlt
    cases sticky <;> exact Nat.lt_succ_iff.1 hle
  | true =>
    have hlt : (m : ℚ) < n := by
      have hm : (m : ℚ) + 1 / 2 ≤ x := hhalf rfl
      linarith
    have hle : m < n := by exact_mod_cast hlt
    cases sticky with
    | false =>
      show m + m % 2 ≤ n
      omega
    | true => exact hle

theorem roundedMantissa_bounds (em : ExtendedMantissa) :
    em.mantissa ≤ em.roundedMantissa ∧ em.roundedMantissa ≤ em.mantissa + 1 := by
  obtain ⟨m, round, sticky⟩ := em
  cases round
  · cases sticky <;> exact ⟨Nat.le_refl m, Nat.le_succ m⟩
  · cases sticky with
    | false =>
      show m ≤ m + m % 2 ∧ m + m % 2 ≤ m + 1
      omega
    | true => exact ⟨Nat.le_succ m, Nat.le_refl (m + 1)⟩

theorem targetExponent_binary64 (x : ℤ) :
    Format.binary64.targetExponent x = max (x - 53) (-1074) := by
  have hleast : Format.binary64.minExponent = -1074 := by decide
  have hbits : (Format.binary64.mantissaBits : ℤ) = 53 := by decide
  rw [Format.targetExponent, hleast, hbits]

theorem targetExponent_eq (m : ℕ) (e : ℤ) :
    Format.binary64.targetExponent (totalExponent m e) = max ((m.log2 : ℤ) + e - 52) (-1074) := by
  rw [targetExponent_binary64, totalExponent]
  omega

theorem mantissa_ofMantissaAndAccuracy (m : ℕ) (accuracy : Accuracy) :
    (ExtendedMantissa.ofMantissaAndAccuracy m accuracy).mantissa = m := by
  rcases accuracy with _ | ⟨_ | _ | _⟩ <;> rfl

theorem shiftToTargetExponent_of_ready {m : ℕ} {e : ℤ} (h : Ready m e) (accuracy : Accuracy) :
    ∃ k : ℕ, shiftToTargetExponent Format.binary64 m e accuracy =
        (ExtendedMantissa.ofMantissaAndAccuracy m accuracy >>> k, e + k) ∧
      Canonical (m / 2 ^ k) (e + k) := by
  obtain ⟨t, ht⟩ : ∃ t, t = Format.binary64.targetExponent (totalExponent m e) := ⟨_, rfl⟩
  have hmax := ht
  rw [targetExponent_eq] at hmax
  have hlog : 2 ^ 52 ≤ m → 52 ≤ m.log2 := fun hm => (Nat.le_log2 (by omega)).2 hm
  have hle : e ≤ t := by
    obtain hm | he := h
    · have := hlog hm
      omega
    · omega
  have hk : e + ((t - e).toNat : ℤ) = t := by omega
  refine ⟨(t - e).toNat, ?_, ?_, ?_, ?_⟩
  · rw [shiftToTargetExponent, ← ht]
    rfl
  · have hlt : m < 2 ^ (m.log2 + 1) := Nat.lt_log2_self
    rw [Nat.div_lt_iff_lt_mul (by positivity), ← pow_add]
    exact hlt.trans_le (Nat.pow_le_pow_right (by norm_num) (by omega))
  · omega
  · -- Where the exponent is not held at the least one, exactly 53 bits are left.
    by_cases hleast : t = -1074
    · right
      omega
    · left
      have hm : m ≠ 0 := by
        rintro rfl
        obtain hzero | he := h
        · omega
        · rw [show Nat.log2 0 = 0 by decide] at hmax
          omega
      have hpow : 2 ^ m.log2 ≤ m := Nat.log2_self_le hm
      have hlogk : m.log2 = 52 + (t - e).toNat := by
        obtain hlong | he := h
        · have := hlog hlong
          omega
        · omega
      rw [Nat.le_div_iff_mul_le (by positivity), ← pow_add, ← hlogk]
      exact hpow

theorem shiftToTargetExponent_of_carry {r : ℕ} {e : ℤ} (hr : r ≤ 2 ^ 53) (he : -1074 ≤ e)
    (hfull : 2 ^ 52 ≤ r ∨ e = -1074) :
    ∃ m a, shiftToTargetExponent Format.binary64 r e .exact = (⟨m, false, false⟩, a) ∧
      Canonical m a ∧ magnitude m a = magnitude r e := by
  have hready : Ready r e := hfull.imp_right Int.le_of_eq
  obtain ⟨t, ht⟩ : ∃ t, t = Format.binary64.targetExponent (totalExponent r e) := ⟨_, rfl⟩
  have hmax := ht
  rw [targetExponent_eq] at hmax
  obtain hlt | rfl := Nat.lt_or_eq_of_le hr
  · have hlog : r.log2 ≤ 52 := by
      by_cases hzero : r = 0
      · rw [hzero]
        decide
      · exact Nat.le_of_lt_succ ((Nat.log2_lt hzero).2 hlt)
    have hk : (t - e).toNat = 0 := by omega
    refine ⟨r, e, ?_, ⟨hlt, he, hfull⟩, rfl⟩
    rw [shiftToTargetExponent, ← ht, shiftToExponent, hk]
    exact Prod.ext rfl (Int.add_zero e)
  · have hlog : Nat.log2 (2 ^ 53) = 53 := Nat.log2_two_pow
    rw [hlog] at hmax
    have hk : (t - e).toNat = 1 := by omega
    refine ⟨2 ^ 52, e + 1, ?_, ⟨by norm_num, by omega, Or.inl le_rfl⟩, ?_⟩
    · rw [shiftToTargetExponent, ← ht, shiftToExponent, hk]
      rfl
    · exact magnitude_add (2 ^ 52) e 1

theorem Under.magnitude_roundedMantissa_le {em : ExtendedMantissa} {x : ℚ} {e : ℤ} {m : ℕ} {a : ℤ}
    (h : Under em x) (hem : Canonical em.mantissa e) (hm : Canonical m a)
    (hx : x * 2 ^ e < (m + 1 / 2) * 2 ^ a) :
    magnitude em.roundedMantissa e ≤ magnitude m a := by
  obtain hlow | rfl | hhigh := lt_trichotomy e a
  · -- With the smaller exponent even a full mantissa that carries stays below the bound.
    obtain ⟨d, hd⟩ := Int.le.dest (Int.add_one_le_of_lt hlow)
    have ha : a = e + (d + 1 : ℕ) := by
      push_cast
      omega
    have hfull : 2 ^ 52 ≤ m := hm.full.resolve_right (by have := hem.floor; omega)
    have hround := (roundedMantissa_bounds em).2
    rw [ha, magnitude_add, magnitude_le_magnitude]
    calc em.roundedMantissa ≤ 2 ^ 52 * 2 := by have := hem.small; omega
      _ ≤ m * 2 ^ (d + 1) := Nat.mul_le_mul hfull (Nat.le_self_pow (Nat.succ_ne_zero d) 2)
  · rw [magnitude_le_magnitude]
    exact h.roundedMantissa_le (lt_of_mul_lt_mul_of_nonneg_right hx (by positivity))
  · -- a larger exponent means a full mantissa, which no bound with the smaller exponent reaches
    obtain ⟨d, hd⟩ := Int.le.dest (Int.add_one_le_of_lt hhigh)
    have he : e = a + (d + 1 : ℕ) := by
      push_cast
      omega
    have hfull : 2 ^ 52 ≤ em.mantissa := hem.full.resolve_right (by have := hm.floor; omega)
    have hwide : m + 1 ≤ em.mantissa * 2 ^ (d + 1) :=
      calc m + 1 ≤ 2 ^ 52 * 2 := hm.small
        _ ≤ em.mantissa * 2 ^ (d + 1) := Nat.mul_le_mul hfull (Nat.le_self_pow (Nat.succ_ne_zero d) 2)
    have hle : magnitude (m + 1) a ≤ magnitude em.mantissa e := by
      rw [he, magnitude_add, magnitude_le_magnitude]
      exact hwide
    have hbelow : magnitude em.mantissa e ≤ x * 2 ^ e :=
      mul_le_mul_of_nonneg_right h.whole (by positivity)
    have habove : ((m : ℚ) + 1 / 2) * 2 ^ a ≤ magnitude (m + 1) a := by
      unfold magnitude
      push_cast
      exact mul_le_mul_of_nonneg_right (by linarith) (by positivity)
    linarith

inductive Within (bound : ℚ) : UnpackedFloat → Prop
  | zero (s : Sign) : Within bound (.zero s)
  | finite (s : Sign) {m : ℕ} {e : ℤ} (hm : 0 < m) :
      Canonical m e → magnitude m e ≤ bound → Within bound (.finite s m e hm)

inductive Reaches (bound : ℚ) : UnpackedFloat → Prop
  | finite (s : Sign) {m : ℕ} {e : ℤ} (hm : 0 < m) :
      bound ≤ magnitude m e → Reaches bound (.finite s m e hm)

theorem Within.mono {a b : ℚ} {u : UnpackedFloat} (h : Within a u) (hle : a ≤ b) : Within b u := by
  cases h with
  | zero s => exact .zero s
  | finite s hm hcanonical hbound => exact .finite s hm hcanonical (hbound.trans hle)

theorem Reaches.mono {a b : ℚ} {u : UnpackedFloat} (h : Reaches a u) (hle : b ≤ a) : Reaches b u := by
  cases h with
  | finite s hm hbound => exact .finite s hm (hle.trans hbound)

theorem exists_roundWithAccuracy_eq {m : ℕ} {e : ℤ} (hready : Ready m e) (accuracy : Accuracy) :
    ∃ (k r : ℕ) (a : ℤ), Canonical (m / 2 ^ k) (e + k) ∧ Canonical r a ∧
      magnitude r a = magnitude
        (ExtendedMantissa.ofMantissaAndAccuracy m accuracy >>> k).roundedMantissa (e + k) ∧
      ∀ sign, roundWithAccuracy Format.binary64 sign m e accuracy =
        if h : r = 0 then .zero sign else .finite sign r a (Nat.pos_of_ne_zero h) := by
  obtain ⟨k, hfirst, hcanonical⟩ := shiftToTargetExponent_of_ready hready accuracy
  have hmantissa : (ExtendedMantissa.ofMantissaAndAccuracy m accuracy >>> k).mantissa = m / 2 ^ k := by
    rw [mantissa_shiftRight, mantissa_ofMantissaAndAccuracy]
  -- Rounding adds one at most, so the second shift has at most the carry to take away.
  have hround := roundedMantissa_bounds (ExtendedMantissa.ofMantissaAndAccuracy m accuracy >>> k)
  rw [hmantissa] at hround
  obtain ⟨r, a, hsecond, hresult, hvalue⟩ := shiftToTargetExponent_of_carry
    (hround.2.trans hcanonical.small) hcanonical.floor
    (hcanonical.full.imp_left fun h => h.trans hround.1)
  refine ⟨k, r, a, hcanonical, hresult, hvalue, fun sign => ?_⟩
  unfold roundWithAccuracy
  rw [hfirst]
  simp only [hsecond]

theorem roundWithAccuracy_within {m : ℕ} {e : ℤ} {accuracy : Accuracy} {x : ℚ} {n : ℕ} {a : ℤ}
    (hready : Ready m e) (hx : Under (ExtendedMantissa.ofMantissaAndAccuracy m accuracy) x)
    (hn : Canonical n a) (hlt : x * 2 ^ e < (n + 1 / 2) * 2 ^ a) (sign : Sign) :
    Within (magnitude n a) (roundWithAccuracy Format.binary64 sign m e accuracy) := by
  obtain ⟨k, r, b, hcanonical, hresult, hvalue, heq⟩ := exists_roundWithAccuracy_eq hready accuracy
  have hmantissa : (ExtendedMantissa.ofMantissaAndAccuracy m accuracy >>> k).mantissa = m / 2 ^ k := by
    rw [mantissa_shiftRight, mantissa_ofMantissaAndAccuracy]
  have hsame : x / 2 ^ k * 2 ^ (e + (k : ℤ)) = x * 2 ^ e := by
    rw [zpow_add₀ (by norm_num), zpow_natCast]
    field_simp
  have hle : magnitude r b ≤ magnitude n a := by
    rw [hvalue]
    exact (hx.shiftRight k).magnitude_roundedMantissa_le (by rwa [hmantissa]) hn (by rwa [hsame])
  rw [heq]
  split
  · exact .zero sign
  · exact .finite sign _ hresult hle

theorem roundWithAccuracy_reaches {m : ℕ} {e : ℤ} (hm : 2 ^ 52 ≤ m) (he : -1074 ≤ e)
    (accuracy : Accuracy) (sign : Sign) :
    Reaches (magnitude (2 ^ m.log2) e) (roundWithAccuracy Format.binary64 sign m e accuracy) := by
  obtain ⟨k, r, a, hcanonical, -, hvalue, heq⟩ :=
    exists_roundWithAccuracy_eq (e := e) (Or.inl hm) accuracy
  have hlog : 2 ^ m.log2 ≤ m := Nat.log2_self_le (by omega)
  have hk : k ≤ m.log2 := by
    obtain hfull | hleast := hcanonical.full
    · have hpow : 2 ^ (52 + k) ≤ m := by
        rw [pow_add]
        exact (Nat.le_div_iff_mul_le (by positivity)).1 hfull
      have hle := (Nat.le_log2 (by omega)).2 hpow
      omega
    · omega
  have hround : 2 ^ (m.log2 - k) ≤
      (ExtendedMantissa.ofMantissaAndAccuracy m accuracy >>> k).roundedMantissa := by
    refine le_trans ?_ (roundedMantissa_bounds _).1
    rw [mantissa_shiftRight, mantissa_ofMantissaAndAccuracy, Nat.le_div_iff_mul_le (by positivity),
      ← pow_add, Nat.sub_add_cancel hk]
    exact hlog
  have hle : magnitude (2 ^ m.log2) e ≤ magnitude r a := by
    have hsplit : 2 ^ m.log2 = 2 ^ (m.log2 - k) * 2 ^ k := by
      rw [← pow_add, Nat.sub_add_cancel hk]
    rw [hvalue, hsplit, ← magnitude_add, magnitude_le_magnitude]
    exact hround
  rw [heq]
  split
  · next hzero =>
    have hpos : 0 < magnitude (2 ^ m.log2) e := by
      unfold magnitude
      positivity
    rw [hzero] at hle
    unfold magnitude at hle hpos
    rw [Nat.cast_zero, zero_mul] at hle
    exact absurd hpos (not_lt.2 hle)
  · exact .finite sign _ hle

end AddressLookup.Decimal
