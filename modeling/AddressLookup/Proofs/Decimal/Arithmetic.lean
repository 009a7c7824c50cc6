import AddressLookup.Json.Number
import AddressLookup.Proofs.Decimal.Packing

/-! Bounds on the doubles that come out of conversions, products and quotients. Each operation rounds its
exact result, so a bound on the operands is carried to the result as long as it stays in range. -/

namespace AddressLookup.Decimal

open Float.Model Float.Model.UnpackedFloat

theorem under_exact (m : ℕ) : Under (ExtendedMantissa.ofMantissaAndAccuracy m .exact) m :=
  ⟨le_rfl, fun h => absurd h Bool.false_ne_true⟩

theorem under_quotient (n : ℕ) {d : ℕ} (hd : 0 < d) :
    Under (ExtendedMantissa.ofMantissaAndAccuracy (n / d) (accuracyOfFraction (n % d) d))
      ((n : ℚ) / d) := by
  have hpos : (0 : ℚ) < d := by exact_mod_cast hd
  have hsplit : (n : ℚ) = d * (n / d : ℕ) + (n % d : ℕ) := by
    exact_mod_cast (Nat.div_add_mod n d).symm
  have hrest : (0 : ℚ) ≤ (n % d : ℕ) := Nat.cast_nonneg _
  refine ⟨?_, fun hround => ?_⟩
  · rw [mantissa_ofMantissaAndAccuracy, le_div_iff₀ hpos]
    linarith
  · have hhalf : d ≤ 2 * (n % d) := by
      unfold accuracyOfFraction at hround
      split at hround
      · exact absurd hround Bool.false_ne_true
      · rcases horder : compare (2 * (n % d)) d with _ | _ | _
        · rw [horder] at hround
          exact absurd hround Bool.false_ne_true
        · exact (Nat.compare_eq_eq.1 horder).ge
        · exact (Nat.compare_eq_gt.1 horder).le
    have hcast : (d : ℚ) ≤ 2 * (n % d : ℕ) := by exact_mod_cast hhalf
    rw [mantissa_ofMantissaAndAccuracy, le_div_iff₀ hpos]
    linarith

/-- The double that a positive whole number is rounded to, but for ties, which go up here. -/
def nearest (n : ℕ) : Binary :=
  let k := n.log2 + 1
  let m := (n * Nat.pow 2 53 + Nat.pow 2 n.log2) / Nat.pow 2 k
  if m < Nat.pow 2 53 then ⟨m, k - 53⟩ else ⟨Nat.pow 2 52, k - 52⟩

theorem nearest_spec {n : ℕ} (hn : n ≠ 0) :
    Canonical (nearest n).significand (nearest n).exponent ∧
      (n : ℚ) < ((nearest n).significand + 1 / 2) * 2 ^ (nearest n).exponent := by
  obtain ⟨k, hk⟩ : ∃ k, k = n.log2 := ⟨_, rfl⟩
  obtain ⟨m, hm⟩ : ∃ m, m = (n * 2 ^ 53 + 2 ^ k) / 2 ^ (k + 1) := ⟨_, rfl⟩
  have hlow : 2 ^ k ≤ n := hk ▸ Nat.log2_self_le hn
  have hhigh : n < 2 ^ (k + 1) := hk ▸ Nat.lt_log2_self
  have hdouble : 2 ^ (k + 1) = 2 * 2 ^ k := pow_succ' 2 k
  have hpos : 0 < 2 ^ (k + 1) := by positivity
  have hfull : 2 ^ 52 ≤ m := by
    rw [hm, Nat.le_div_iff_mul_le hpos]
    omega
  have hle : m ≤ 2 ^ 53 := by
    rw [hm]
    refine Nat.lt_succ_iff.1 ((Nat.div_lt_iff_lt_mul hpos).2 ?_)
    omega
  have hnext : n * 2 ^ 53 + 2 ^ k < (m + 1) * 2 ^ (k + 1) := by
    rw [hm]
    exact Nat.lt_mul_of_div_lt (Nat.lt_succ_self _) hpos
  have hcast : (n : ℚ) * 2 ^ 53 + 2 ^ k < (m + 1) * (2 * 2 ^ k) := by
    rw [hdouble] at hnext
    exact_mod_cast hnext
  have hnear : nearest n = if m < 2 ^ 53 then ⟨m, (k + 1 : ℕ) - 53⟩ else ⟨2 ^ 52, (k + 1 : ℕ) - 52⟩ := by
    rw [hm, hk]
    rfl
  -- the bound in units of the last place, before the carry is looked at
  have hbelow : (n : ℚ) < (m + 1 / 2) * 2 ^ (((k + 1 : ℕ) : ℤ) - 53) := by
    rw [zpow_sub₀ (by norm_num), zpow_natCast, zpow_ofNat, pow_succ, ← mul_div_assoc,
      lt_div_iff₀ (by positivity)]
    linarith
  rw [hnear]
  split
  · next hlt =>
    have hleast : (-1074 : ℤ) ≤ ((k + 1 : ℕ) : ℤ) - 53 := by omega
    exact ⟨⟨hlt, hleast, Or.inl hfull⟩, hbelow⟩
  · next hcarry =>
    obtain rfl : m = 2 ^ 53 := le_antisymm hle (not_lt.1 hcarry)
    have hleast : (-1074 : ℤ) ≤ ((k + 1 : ℕ) : ℤ) - 52 := by omega
    refine ⟨⟨by norm_num, hleast, Or.inl le_rfl⟩, hbelow.trans_le ?_⟩
    have hstep : (2 : ℚ) ^ (((k + 1 : ℕ) : ℤ) - 52) = 2 * 2 ^ (((k + 1 : ℕ) : ℤ) - 53) := by
      rw [← zpow_one_add₀ (by norm_num)]
      congr 1
      ring
    show _ ≤ (((2 ^ 52 : ℕ) : ℚ) + 1 / 2) * 2 ^ (((k + 1 : ℕ) : ℤ) - 52)
    rw [hstep, ← mul_assoc]
    exact mul_le_mul_of_nonneg_right (by norm_num) (by positivity)

theorem ready_decreaseExponent {n : ℕ} (hn : n ≠ 0) :
    let t := Format.binary64.targetExponent (totalExponent n 0)
    Ready (n <<< ((0 : ℤ) - t).toNat) (0 - ((0 : ℤ) - t).toNat) := by
  intro t
  have hmax : t = max ((n.log2 : ℤ) + 0 - 52) (-1074) := targetExponent_eq n 0
  by_cases hleast : t = -1074
  · right
    omega
  · left
    have hpow : 2 ^ n.log2 ≤ n := Nat.log2_self_le hn
    rw [Nat.shiftLeft_eq]
    calc 2 ^ 52 ≤ 2 ^ (n.log2 + ((0 : ℤ) - t).toNat) := Nat.pow_le_pow_right (by norm_num) (by omega)
      _ = 2 ^ n.log2 * 2 ^ ((0 : ℤ) - t).toNat := pow_add _ _ _
      _ ≤ n * 2 ^ ((0 : ℤ) - t).toNat := Nat.mul_le_mul_right _ hpow

theorem ofNat_within {n m : ℕ} {a : ℤ} (hm : Canonical m a) (h : (n : ℚ) < (m + 1 / 2) * 2 ^ a) :
    Within (magnitude m a) (UnpackedFloat.ofNat Format.binary64 n) := by
  by_cases hn : n = 0
  · subst hn
    exact .zero _
  · have hgt : compare (n : ℤ) 0 = .gt := by
      rw [Int.compare_eq_gt]
      omega
    have hready := ready_decreaseExponent hn
    unfold UnpackedFloat.ofNat UnpackedFloat.ofInt UnpackedFloat.normalize
    rw [hgt]
    unfold UnpackedFloat.round decreaseExponent
    refine roundWithAccuracy_within hready (under_exact _) hm ?_ _
    obtain ⟨k, hk⟩ : ∃ k : ℕ,
      k = ((0 : ℤ) - Format.binary64.targetExponent (totalExponent n 0)).toNat := ⟨_, rfl⟩
    have hsame : magnitude n 0 = magnitude (n * 2 ^ k) (0 - k) := by
      rw [← magnitude_add, sub_add_cancel]
    unfold magnitude at hsame
    show ((n <<< _ : ℕ) : ℚ) * 2 ^ ((0 : ℤ) - _) < _
    rw [← hk, Nat.shiftLeft_eq, ← hsame, zpow_zero, mul_one]
    exact h

theorem mul_within {p q : ℚ} {u v : UnpackedFloat} {m : ℕ} {a : ℤ} (hu : Within p u)
    (hv : Within q v) (hm : Canonical m a) (h : p * q < (m + 1 / 2) * 2 ^ a) :
    Within (magnitude m a) (UnpackedFloat.mul Format.binary64 u v) := by
  cases hu with
  | zero s => cases hv <;> exact .zero _
  | @finite s k e hk hcanonical hp =>
    cases hv with
    | zero t => exact .zero _
    | @finite t l b hl hcanonical' hq =>
      have hready : Ready (k * l) (e + b) := by
        obtain hfull | he := hcanonical.full
        · exact Or.inl (hfull.trans (Nat.le_mul_of_pos_right k hl))
        · obtain hfull | hb := hcanonical'.full
          · exact Or.inl (hfull.trans (Nat.le_mul_of_pos_left l hk))
          · right
            omega
      refine roundWithAccuracy_within hready (under_exact _) hm ?_ _
      calc ((k * l : ℕ) : ℚ) * 2 ^ (e + b) = magnitude k e * magnitude l b :=
            (magnitude_mul k l e b).symm
        _ ≤ p * q := mul_le_mul hp hq (magnitude_nonneg l b) ((magnitude_nonneg k e).trans hp)
        _ < (m + 1 / 2) * 2 ^ a := h

theorem ready_divCore {k l : ℕ} (hk : 0 < k) (hl : 0 < l) (e b : ℤ) {t : ℤ}
    (ht : t = min (e - b) (Format.binary64.targetExponent (totalExponent k e - totalExponent l b))) :
    Ready (k <<< (e - b - t).toNat / l) t := by
  rw [targetExponent_binary64, totalExponent, totalExponent] at ht
  by_cases hleast : t ≤ -1074
  · exact Or.inr hleast
  · left
    have hlow : 2 ^ k.log2 ≤ k := Nat.log2_self_le hk.ne'
    have hhigh : l < 2 ^ (l.log2 + 1) := Nat.lt_log2_self
    rw [Nat.shiftLeft_eq, Nat.le_div_iff_mul_le hl]
    calc 2 ^ 52 * l ≤ 2 ^ 52 * 2 ^ (l.log2 + 1) := Nat.mul_le_mul_left _ hhigh.le
      _ = 2 ^ (52 + (l.log2 + 1)) := (pow_add _ _ _).symm
      _ ≤ 2 ^ (k.log2 + (e - b - t).toNat) := Nat.pow_le_pow_right (by norm_num) (by omega)
      _ = 2 ^ k.log2 * 2 ^ (e - b - t).toNat := pow_add _ _ _
      _ ≤ k * 2 ^ (e - b - t).toNat := Nat.mul_le_mul_right _ hlow

theorem div_within {u v : UnpackedFloat} {m : ℕ} {a : ℤ} (hm : Canonical m a)
    (hu : Within (magnitude m a) u) (hv : Reaches 1 v) :
    Within (magnitude m a) (UnpackedFloat.div Format.binary64 u v) := by
  cases hv with
  | @finite t l b hl hone =>
    cases hu with
    | zero s => exact .zero _
    | @finite s k e hk hcanonical hle =>
      obtain ⟨t', ht⟩ : ∃ t, t = min (e - b)
        (Format.binary64.targetExponent (totalExponent k e - totalExponent l b)) := ⟨_, rfl⟩
      unfold UnpackedFloat.div divCore
      simp only [← ht]
      refine roundWithAccuracy_within (ready_divCore hk hl e b ht) (under_quotient _ hl) hm ?_ _
      have hshift : e - b = t' + ((e - b - t').toNat : ℤ) := by omega
      have hdivisor : (0 : ℚ) < l := by exact_mod_cast hl
      have hexact : ((k <<< (e - b - t').toNat : ℕ) : ℚ) / l * 2 ^ t' * magnitude l b = magnitude k e := by
        have hpow : (2 : ℚ) ^ e = 2 ^ t' * 2 ^ (e - b - t').toNat * 2 ^ b := by
          rw [← zpow_natCast, ← zpow_add₀ (by norm_num), ← hshift, ← zpow_add₀ (by norm_num),
            sub_add_cancel]
        unfold magnitude
        rw [Nat.shiftLeft_eq, hpow]
        push_cast
        field_simp
      have hquotient : (0 : ℚ) ≤ ((k <<< (e - b - t').toNat : ℕ) : ℚ) / l * 2 ^ t' := by positivity
      calc ((k <<< (e - b - t').toNat : ℕ) : ℚ) / l * 2 ^ t'
          ≤ ((k <<< (e - b - t').toNat : ℕ) : ℚ) / l * 2 ^ t' * magnitude l b :=
            le_mul_of_one_le_right hquotient hone
        _ = magnitude k e := hexact
        _ ≤ magnitude m a := hle
        _ < (m + 1 / 2) * 2 ^ a := by
          unfold magnitude
          exact mul_lt_mul_of_pos_right (by linarith) (by positivity)

def AtMost (bound : ℚ) (x : Float) : Prop :=
  Within bound x.toModel.unpack

theorem atMost_pack {bound : ℚ} {u : UnpackedFloat} (h : Within bound u) (hb : bound ≤ largest) :
    AtMost bound (Float.ofModel (Float.Model.pack u)) := by
  have hread := unpack_pack (h.mono hb)
  show Within bound (UnpackedFloat.unpack _ (UnpackedFloat.pack _ u))
  rw [hread]
  exact h

theorem AtMost.mono {a b : ℚ} {x : Float} (h : AtMost a x) (hle : a ≤ b) : AtMost b x :=
  Within.mono h hle

theorem Within.isInf_eq_false {bound : ℚ} {u : UnpackedFloat} (h : Within bound u) :
    u.isInf = false := by
  cases h <;> rfl

theorem atMost_toFloat {n : UInt64} {m : ℕ} {a : ℤ} (hm : Canonical m a) (ha : a ≤ 971)
    (h : (n.toNat : ℚ) < (m + 1 / 2) * 2 ^ a) : AtMost (magnitude m a) n.toFloat :=
  atMost_pack (ofNat_within hm h) (hm.magnitude_le_largest ha)

theorem AtMost.mul {p q : ℚ} {x y : Float} {m : ℕ} {a : ℤ} (hx : AtMost p x) (hy : AtMost q y)
    (hm : Canonical m a) (ha : a ≤ 971) (h : p * q < (m + 1 / 2) * 2 ^ a) :
    AtMost (magnitude m a) (x * y) :=
  atMost_pack (mul_within hx hy hm h) (hm.magnitude_le_largest ha)

theorem AtMost.div {x y : Float} {m : ℕ} {a : ℤ} (hm : Canonical m a) (ha : a ≤ 971)
    (hx : AtMost (magnitude m a) x) (hy : Reaches 1 y.toModel.unpack) :
    AtMost (magnitude m a) (x / y) :=
  atMost_pack (div_within hm hx hy) (hm.magnitude_le_largest ha)

theorem Within.neg {bound : ℚ} {u : UnpackedFloat} (h : Within bound u) : Within bound u.neg := by
  cases h with
  | zero s => exact .zero (-s)
  | finite s hm hcanonical hle => exact .finite (-s) hm hcanonical hle

theorem AtMost.neg {bound : ℚ} {x : Float} (h : AtMost bound x) (hb : bound ≤ largest) :
    AtMost bound (-x) :=
  atMost_pack (Within.neg h) hb

theorem AtMost.mul_of_not_isInf {x y : Float} (hx : AtMost largest x) (hy : AtMost largest y)
    (hfinite : (x * y).isInf = false) : AtMost largest (x * y) := by
  obtain ⟨u, hu⟩ : ∃ u, u = UnpackedFloat.mul Format.binary64 x.toModel.unpack y.toModel.unpack :=
    ⟨_, rfl⟩
  have hproduct : x * y = Float.ofModel (Float.Model.pack u) := by
    rw [hu]
    rfl
  have hroom : largest * largest < ((2 ^ 52 : ℕ) + 1 / 2) * 2 ^ (2000 : ℤ) := by
    have hsplit : (2 : ℚ) ^ (2000 : ℤ) = 2 ^ (58 : ℕ) * 2 ^ ((971 : ℤ) + 971) := by
      rw [← zpow_natCast, ← zpow_add₀ (by norm_num)]
      rfl
    rw [largest, magnitude_mul, hsplit, ← mul_assoc]
    exact mul_lt_mul_of_pos_right (by norm_num) (by positivity)
  have hwithin : Within (magnitude (2 ^ 52) 2000) u := by
    rw [hu]
    exact mul_within hx hy ⟨by norm_num, by norm_num, Or.inl le_rfl⟩ hroom
  rw [hproduct] at hfinite ⊢
  cases hwithin with
  | zero s => exact atMost_pack (.zero s) le_rfl
  | @finite s m e hm hcanonical hle =>
    by_cases he : e ≤ 971
    · exact atMost_pack (hcanonical.within he s hm) le_rfl
    · have hinf := isInf_unpack_pack s hm (not_le.1 he)
      exact absurd (hinf.symm.trans hfinite) (by decide)

end AddressLookup.Decimal
