import AddressLookup.Proofs.Decimal.Arithmetic
import AddressLookup.Proofs.Decimal.Shortest
import AddressLookup.Proofs.Json.Integer

/-! Scaling by powers of ten. Whatever digits and exponent a text gives, the double that comes out of the
scaling is finite, and the shortest decimal of a finite double is never scaled beyond the range. -/

namespace AddressLookup.JsonNumber

open Decimal Float.Model Float.Model.UnpackedFloat

def isExact (e : ℕ) : Bool :=
  match (powerOfTen e).toModel.unpack with
  | .finite _ m a _ =>
    fractionLe (scaled m 2 a) (Nat.pow 10 e, 1) && fractionLe (Nat.pow 10 e, 1) (scaled m 2 a)
  | _ => false

theorem isExact_of_le {e : ℕ} (he : e ≤ 22) : isExact e = true := by
  have hall : ∀ k < 23, isExact k = true := by decide +kernel
  exact hall e (by omega)

theorem powerOfTen_of_isExact {e : ℕ} (h : isExact e = true) :
    ∃ s m a hm, (powerOfTen e).toModel.unpack = .finite s m a hm ∧ Canonical m a ∧
      magnitude m a = 10 ^ e := by
  unfold isExact at h
  split at h
  · next s m a hm heq =>
    have hwithin : Within largest (powerOfTen e).toModel.unpack := within_unpack (by
      show (powerOfTen e).toModel.unpack.isFinite = true
      rw [heq]
      rfl)
    rw [heq] at hwithin
    obtain ⟨hle, hge⟩ := Bool.and_eq_true_iff.1 h
    have hcanonical : Canonical m a := by
      cases hwithin with
      | finite _ _ hcanonical _ => exact hcanonical
    have hpos := scaled_snd_pos m (by decide : 0 < 2) a
    have hpow : ratio (Nat.pow 10 e, 1) = 10 ^ e := by
      unfold ratio
      rw [Nat.pow_eq]
      push_cast
      exact div_one _
    rw [fractionLe_iff hpos Nat.one_pos, hpow, ratio_scaled _ (by decide)] at hle
    rw [fractionLe_iff Nat.one_pos hpos, hpow, ratio_scaled _ (by decide)] at hge
    exact ⟨s, m, a, hm, heq, hcanonical, le_antisymm hle hge⟩
  · exact absurd h Bool.false_ne_true

theorem powerOfTen_of_lt {e : ℕ} (hlow : 22 < e) (hhigh : e ≤ 308) :
    powerOfTen e = Float.ofModel (Float.Model.pack (roundWithAccuracy Format.binary64 .positive
      (2 ^ 53 * 10 ^ e) (-53) .exact)) := by
  have hscale : ¬ ((e : ℤ) > 2 ^ Format.binary64.exponentBits) := by
    show ¬ ((e : ℤ) > 2 ^ 11)
    omega
  have hfloor : ¬ ((e : ℤ) < -((2 ^ Format.binary64.exponentBits : ℤ) + Nat.log2 1)) := by
    show ¬ ((e : ℤ) < -((2 ^ 11 : ℤ) + (0 : ℕ)))
    omega
  unfold powerOfTen Float.ofScientific
  rw [dif_neg (by omega)]
  show Float.ofModel (Float.Model.pack (UnpackedFloat.ofScientific Format.binary64 1 (e : ℤ))) = _
  unfold UnpackedFloat.ofScientific
  rw [dif_neg (by decide), if_neg hscale, if_neg hfloor, if_pos (by omega)]
  rfl

theorem magnitude_le_of_lt_half {m n : ℕ} {a b : ℤ} (hm : Canonical m a) (hn : Canonical n b)
    (h : magnitude m a < (n + 1 / 2) * 2 ^ b) : magnitude m a ≤ magnitude n b :=
  (under_exact m).magnitude_roundedMantissa_le hm hn h

theorem rounded_power_within {e m : ℕ} {a : ℤ} (hm : Canonical m a)
    (h : (10 : ℚ) ^ e < (m + 1 / 2) * 2 ^ a) :
    Within (magnitude m a)
      (roundWithAccuracy Format.binary64 .positive (2 ^ 53 * 10 ^ e) (-53) .exact) := by
  have hready : Ready (2 ^ 53 * 10 ^ e) (-53) := by
    have hpow : 1 ≤ 10 ^ e := Nat.one_le_pow _ _ (by decide)
    left
    omega
  have hvalue : ((2 ^ 53 * 10 ^ e : ℕ) : ℚ) * 2 ^ (-53 : ℤ) = 10 ^ e := by
    push_cast
    rw [zpow_neg, zpow_ofNat]
    field_simp
    norm_num
  exact roundWithAccuracy_within hready (under_exact _) hm (by rwa [hvalue]) _

theorem atMost_powerOfTen {e m : ℕ} {a : ℤ} (he : e ≤ 308) (hm : Canonical m a) (ha : a ≤ 971)
    (h : (10 : ℚ) ^ e < (m + 1 / 2) * 2 ^ a) : AtMost (magnitude m a) (powerOfTen e) := by
  by_cases hlow : e ≤ 22
  · obtain ⟨s, n, b, hn, heq, hcanonical, hvalue⟩ := powerOfTen_of_isExact (isExact_of_le hlow)
    unfold AtMost
    rw [heq]
    exact .finite s hn hcanonical (magnitude_le_of_lt_half hcanonical hm (by rwa [hvalue]))
  · rw [powerOfTen_of_lt (not_le.1 hlow) he]
    exact atMost_pack (rounded_power_within hm h) (hm.magnitude_le_largest ha)

theorem pow_lt_largest {e : ℕ} (he : e ≤ 308) :
    (10 : ℚ) ^ e < ((2 ^ 53 - 1 : ℕ) + 1 / 2) * 2 ^ (971 : ℤ) := by
  have hall : ∀ k < 309, 10 ^ k ≤ (2 ^ 53 - 1) * 2 ^ 971 := by decide +kernel
  have hle : 10 ^ e ≤ (2 ^ 53 - 1) * 2 ^ 971 := hall e (by omega)
  have hcast : (10 : ℚ) ^ e ≤ (2 ^ 53 - 1 : ℕ) * 2 ^ 971 := by exact_mod_cast hle
  rw [zpow_ofNat]
  refine hcast.trans_lt (mul_lt_mul_of_pos_right (by linarith) (by positivity))

theorem reaches_powerOfTen {e : ℕ} (he : e ≤ 308) : Reaches 1 (powerOfTen e).toModel.unpack := by
  by_cases hlow : e ≤ 22
  · obtain ⟨s, n, b, hn, heq, -, hvalue⟩ := powerOfTen_of_isExact (isExact_of_le hlow)
    rw [heq]
    refine .finite s hn ?_
    rw [hvalue]
    exact one_le_pow₀ (by norm_num)
  · have hpow : 1 ≤ 10 ^ e := Nat.one_le_pow _ _ (by decide)
    have hlog : 53 ≤ (2 ^ 53 * 10 ^ e).log2 := (Nat.le_log2 (by omega)).2 (by omega)
    have hone : 1 ≤ magnitude (2 ^ (2 ^ 53 * 10 ^ e).log2) (-53) := by
      have hle : magnitude (2 ^ 53) (-53) ≤ magnitude (2 ^ (2 ^ 53 * 10 ^ e).log2) (-53) :=
        magnitude_le_magnitude.2 (Nat.pow_le_pow_right (by decide) hlog)
      have hsame : magnitude (2 ^ 53) (-53) = 1 := by
        unfold magnitude
        norm_num
      rwa [hsame] at hle
    have hreaches := roundWithAccuracy_reaches (e := -53) (by omega : 2 ^ 52 ≤ 2 ^ 53 * 10 ^ e)
      (by norm_num) .exact .positive
    have hread : (powerOfTen e).toModel.unpack =
        roundWithAccuracy Format.binary64 .positive (2 ^ 53 * 10 ^ e) (-53) .exact := by
      rw [powerOfTen_of_lt (not_le.1 hlow) he]
      exact unpack_pack (rounded_power_within canonical_largest (pow_lt_largest he))
    rw [hread]
    exact hreaches.mono hone

theorem canonical_pow_64 : Canonical (2 ^ 52) 12 :=
  ⟨by norm_num, by norm_num, Or.inl le_rfl⟩

theorem atMost_toFloat_pow_64 (n : UInt64) : AtMost (magnitude (2 ^ 52) 12) n.toFloat := by
  refine atMost_toFloat canonical_pow_64 (by norm_num) ?_
  have hlt : (n.toNat : ℚ) < (2 ^ 64 : ℕ) := by exact_mod_cast n.toNat_lt
  refine hlt.trans ?_
  norm_num

theorem atMost_scaleDown {x : Float} {m : ℕ} {a : ℤ} (hm : Canonical m a) (ha : a ≤ 971)
    (hx : AtMost (magnitude m a) x) (e : ℕ) : AtMost (magnitude m a) (scaleDown x e) := by
  induction e using Nat.strongRecOn generalizing x with
  | _ e ih =>
    unfold scaleDown
    split
    · next he => exact AtMost.div hm ha hx (reaches_powerOfTen he)
    · next he =>
      split
      · exact hx
      · exact ih (e - 308) (by omega) (AtMost.div hm ha hx (reaches_powerOfTen le_rfl))

/-- An integer of 64 bits or a finite double: what a text can hold. -/
def InRange : JsonNumber → Prop
  | integer n => (integer n).Integral
  | float bits => bits.toNat / 0x10000000000000 % 2048 ≠ 2047

theorem inRange_of_atMost {x : Float} (h : AtMost largest x) : InRange (float x.toBits) := by
  intro hfield
  have hexponent : @unpackExponent Format.binary64 x.toModel.toBits.toBitVec = -1#11 := by
    apply BitVec.eq_of_toNat_eq
    unfold unpackExponent
    rw [BitVec.toNat_cast, BitVec.extractLsb_toNat, Nat.shiftRight_eq_div_pow]
    exact hfield
  unfold AtMost Float.Model.unpack UnpackedFloat.unpack at h
  simp only [hexponent] at h
  rw [if_pos trivial] at h
  split at h <;> cases h

theorem pow_64_le_largest : magnitude (2 ^ 52) 12 ≤ largest :=
  canonical_pow_64.magnitude_le_largest (by norm_num)

theorem inRange_of_scale {negative : Bool} {n : ℕ} {e : ℤ} {m : JsonNumber}
    (h : scale negative n e = some m) : InRange m := by
  have hx := atMost_toFloat_pow_64 n.toUInt64
  have hsigned : ∀ {y : Float}, AtMost largest y →
      InRange (float (if negative then (-y).toBits else y.toBits)) := by
    intro y hy
    cases negative with
    | false => exact inRange_of_atMost hy
    | true => exact inRange_of_atMost (hy.neg le_rfl)
  unfold scale at h
  simp only [] at h
  split at h
  · obtain rfl := Option.some.inj h
    exact hsigned ((atMost_scaleDown canonical_pow_64 (by norm_num) hx _).mono pow_64_le_largest)
  · split at h
    · next hnonneg he =>
      split at h
      · cases h
      · next hfinite =>
        obtain rfl := Option.some.inj h
        have hpower : AtMost largest (powerOfTen e.natAbs) :=
          atMost_powerOfTen (by omega) canonical_largest le_rfl (pow_lt_largest (by omega))
        exact hsigned ((hx.mono pow_64_le_largest).mul_of_not_isInf hpower
          (Bool.eq_false_of_not_eq_true hfinite))
    · split at h
      · obtain rfl := Option.some.inj h
        exact hsigned (hx.mono pow_64_le_largest)
      · cases h

theorem scale_of_neg (negative : Bool) (n : ℕ) {e : ℤ} (he : e < 0) :
    ∃ m, scale negative n e = some m :=
  ⟨_, if_pos he⟩

def roomLimit : ℕ :=
  (2 ^ 54 - 3) * Nat.pow 2 970

def hasRoom (d q : ℕ) : Bool :=
  let x := nearest d
  let y := nearest q
  decide (x.exponent ≤ 971) && decide (y.exponent ≤ 971) &&
    !fractionLe (scaled (Nat.pow 2 54 - 1) 2 970)
      (scaled (x.significand * y.significand) 2 (x.exponent + y.exponent))

theorem magnitude_mul_lt_of_hasRoom {d q : ℕ} (hroom : hasRoom d q = true) :
    magnitude (nearest d).significand (nearest d).exponent *
      magnitude (nearest q).significand (nearest q).exponent <
        ((2 ^ 53 - 1 : ℕ) + 1 / 2) * 2 ^ (971 : ℤ) := by
  have hproduct := (Bool.and_eq_true_iff.1 hroom).2
  have hnot : ¬ fractionLe (scaled (Nat.pow 2 54 - 1) 2 970)
      (scaled ((nearest d).significand * (nearest q).significand) 2
        ((nearest d).exponent + (nearest q).exponent)) = true := by
    rw [Bool.eq_false_of_not_eq_true' hproduct]
    exact Bool.false_ne_true
  have hlimit : ((Nat.pow 2 54 - 1 : ℕ) : ℚ) * 2 ^ (970 : ℤ) =
      ((2 ^ 53 - 1 : ℕ) + 1 / 2) * 2 ^ (971 : ℤ) := by
    have hstep : (2 : ℚ) ^ (971 : ℤ) = 2 * 2 ^ (970 : ℤ) := (zpow_one_add₀ (by norm_num) 970)
    have hfactor : ((Nat.pow 2 54 - 1 : ℕ) : ℚ) = ((2 ^ 53 - 1 : ℕ) + 1 / 2) * 2 := by norm_num
    rw [hstep, ← mul_assoc, ← hfactor]
  rw [fractionLe_iff (scaled_snd_pos _ (by decide) _) (scaled_snd_pos _ (by decide) _),
    ratio_scaled _ (by decide), ratio_scaled _ (by decide), not_le] at hnot
  simp only [Nat.cast_ofNat] at hnot
  rw [hlimit] at hnot
  rw [magnitude_mul, magnitude]
  exact hnot

theorem not_isInf_of_hasRoom {n d e q : ℕ} (hroom : hasRoom d q = true) (hd : d ≠ 0)
    (hlimit : d ≤ 10 ^ 18) (hn : n ≤ d) (he : e ≤ 308) (hq : 10 ^ e ≤ q) :
    (n.toUInt64.toFloat * powerOfTen e).isInf = false := by
  have hqne : q ≠ 0 := by
    have hpos : 0 < 10 ^ e := by positivity
    omega
  obtain ⟨hx, hxlt⟩ := nearest_spec hd
  obtain ⟨hy, hylt⟩ := nearest_spec hqne
  obtain ⟨hxexponent, hyexponent⟩ := Bool.and_eq_true_iff.1 (Bool.and_eq_true_iff.1 hroom).1
  have hdigits : (n.toUInt64.toNat : ℚ) < ((nearest d).significand + 1 / 2) * 2 ^ (nearest d).exponent := by
    have hsize : UInt64.size = 0x10000000000000000 := rfl
    have hmod : n.toUInt64.toNat = n := UInt64.toNat_ofNat_of_lt' (by omega)
    have hcast : (n : ℚ) ≤ d := by exact_mod_cast hn
    rw [hmod]
    exact hcast.trans_lt hxlt
  have hpower : (10 : ℚ) ^ e < ((nearest q).significand + 1 / 2) * 2 ^ (nearest q).exponent := by
    have hcast : (10 : ℚ) ^ e ≤ q := by exact_mod_cast hq
    exact hcast.trans_lt hylt
  exact ((atMost_toFloat hx (of_decide_eq_true hxexponent) hdigits).mul
    (atMost_powerOfTen he hy (of_decide_eq_true hyexponent) hpower) canonical_largest le_rfl
    (magnitude_mul_lt_of_hasRoom hroom)).isInf_eq_false

theorem upper_le_roomLimit {b : Binary} (hsignificand : b.significand < 2 ^ 53)
    (hexponent : b.exponent ≤ 971) (hne : b ≠ ⟨2 ^ 53 - 1, 971⟩) : b.upper ≤ roomLimit := by
  have hupper : b.upper = magnitude (2 * b.significand + 1) (b.exponent - 1) := by
    have hcarry := magnitude_add (2 * b.significand + 1) (b.exponent - 2) 1
    rw [show b.exponent - 2 + (1 : ℕ) = b.exponent - 1 by omega,
      show (2 * b.significand + 1) * 2 ^ 1 = 4 * b.significand + 2 by omega] at hcarry
    exact hcarry.symm
  have hlimit : (roomLimit : ℚ) = magnitude (2 ^ 54 - 3) (970 : ℕ) := by
    obtain ⟨k, hk⟩ : ∃ k : ℕ, 970 = k := ⟨_, rfl⟩
    unfold roomLimit
    rw [hk, magnitude_natCast]
  rw [hupper, hlimit]
  obtain hlow | htop := lt_or_eq_of_le hexponent
  · have hcarry : magnitude (2 ^ 54 - 3) (970 : ℕ) = magnitude ((2 ^ 54 - 3) * 2 ^ 1) 969 :=
      magnitude_add (2 ^ 54 - 3) 969 1
    rw [hcarry]
    exact magnitude_mono (by omega) (by omega)
  · have hsmaller : b.significand ≠ 2 ^ 53 - 1 := by
      intro heq
      obtain ⟨m, e⟩ := b
      exact hne (congrArg₂ Binary.mk heq htop)
    exact magnitude_mono (by omega) (by omega)

/-- For every large power of ten, the digits that stay below the middle between the two largest doubles
leave room for the product with that power. -/
theorem hasRoom_of_lt {k : ℕ} (hk : k < 20) :
    hasRoom (min (10 ^ 18) (roomLimit / 10 ^ (289 + k))) (10 ^ (289 + k)) = true := by
  have hall : ∀ j < 20,
      hasRoom (min (10 ^ 18) (roomLimit / 10 ^ (289 + j))) (10 ^ (289 + j)) = true := by
    decide +kernel
  exact hall k hk

theorem mul_pow_le_roomLimit {n k : ℕ} (hn : n ≤ 10 ^ 18) (hk : k ≤ 289) : n * 10 ^ k ≤ roomLimit := by
  have hall : ∀ j < 290, 10 ^ 18 * 10 ^ j ≤ roomLimit := by decide +kernel
  exact (Nat.mul_le_mul_right _ hn).trans (hall k (by omega))

theorem exponent_lt_of_le_roomLimit {e : ℕ} (h : 10 ^ e ≤ roomLimit) : e < 309 := by
  have hlimit : ∃ k, k = 309 ∧ roomLimit < 10 ^ k := ⟨309, rfl, by decide +kernel⟩
  obtain ⟨k, hk, hlt⟩ := hlimit
  rw [← hk]
  exact (Nat.pow_lt_pow_iff_right (by decide : 1 < 10)).1 (h.trans_lt hlt)

theorem not_isInf_of_le_roomLimit {n e : ℕ} (hn : n ≠ 0) (hlimit : n ≤ 10 ^ 18)
    (hvalue : n * 10 ^ e ≤ roomLimit) :
    e ≤ 308 ∧ (n.toUInt64.toFloat * powerOfTen e).isInf = false := by
  have hpow : 10 ^ e ≤ roomLimit := (Nat.le_mul_of_pos_left _ (Nat.pos_of_ne_zero hn)).trans hvalue
  have he := exponent_lt_of_le_roomLimit hpow
  have hfits : ∀ k < 20, e ≤ 289 + k → n * 10 ^ (289 + k) ≤ roomLimit →
      (n.toUInt64.toFloat * powerOfTen e).isInf = false := by
    intro k hk hek hle
    have hquotient : n ≤ roomLimit / 10 ^ (289 + k) :=
      (Nat.le_div_iff_mul_le (by positivity)).2 hle
    have hdigits : n ≤ min (10 ^ 18) (roomLimit / 10 ^ (289 + k)) := le_min hlimit hquotient
    exact not_isInf_of_hasRoom (hasRoom_of_lt hk) (by omega) (min_le_left _ _) hdigits (by omega)
      (Nat.pow_le_pow_right (by decide) hek)
  refine ⟨by omega, ?_⟩
  by_cases hsmall : e ≤ 289
  · exact hfits 0 (by decide) hsmall (mul_pow_le_roomLimit hlimit le_rfl)
  · obtain ⟨k, rfl⟩ := Nat.exists_eq_add_of_le (not_le.1 hsmall).le
    exact hfits k (by omega) le_rfl hvalue

theorem ofBits_bounds {bits : UInt64} (h : InRange (float bits)) :
    (Binary.ofBits bits).significand < 2 ^ 53 ∧ (Binary.ofBits bits).exponent ≤ 971 := by
  have hfield : bits.toNat / 0x10000000000000 % 2048 ≠ 2047 := h
  unfold Binary.ofBits Binary.hiddenBit
  simp only []
  split
  · refine ⟨?_, by norm_num⟩
    show bits.toNat % 0x10000000000000 < 2 ^ 53
    omega
  · show 0x10000000000000 + bits.toNat % 0x10000000000000 < 2 ^ 53 ∧
      ((bits.toNat / 0x10000000000000 % 2048 : ℕ) : ℤ) - 1075 ≤ 971
    omega

theorem shortest_largest : shortest ⟨2 ^ 53 - 1, 971⟩ = ⟨17976931348623157, 292⟩ := by
  decide +kernel

theorem isSome_scale_largest (negative : Bool) :
    (scale negative 17976931348623157 292).isSome = true := by
  cases negative <;> decide +kernel

theorem exists_scale_shortest {b : Binary} (hne : b.significand ≠ 0)
    (hsignificand : b.significand < 2 ^ 53) (hexponent : b.exponent ≤ 971) (negative : Bool) :
    ∃ m, scale negative (shortest b).digits (shortest b).exponent = some m := by
  by_cases hlargest : b = ⟨2 ^ 53 - 1, 971⟩
  · rw [hlargest, shortest_largest]
    exact Option.isSome_iff_exists.1 (isSome_scale_largest negative)
  · obtain hneg | hpos := lt_or_ge (shortest b).exponent 0
    · exact scale_of_neg negative _ hneg
    · obtain ⟨hdigits, hlimit, hvalue⟩ := shortest_bounds hne (by omega)
      obtain ⟨e, he⟩ := Int.eq_ofNat_of_zero_le hpos
      have hroom : (shortest b).digits * 10 ^ e ≤ roomLimit := by
        have hsame : (shortest b).value = ((shortest b).digits * 10 ^ e : ℕ) := by
          rw [Scientific.value, he, zpow_natCast]
          push_cast
          rfl
        rw [hsame] at hvalue
        obtain hupper | hbare := hvalue
        · exact_mod_cast hupper.trans (upper_le_roomLimit hsignificand hexponent hlargest)
        · have hdigits : (shortest b).digits * 10 ^ e = b.significand := by exact_mod_cast hbare
          have hsmall := mul_pow_le_roomLimit (n := b.significand) (k := 0) (by omega) (by decide)
          rw [hdigits]
          rwa [pow_zero, mul_one] at hsmall
      obtain ⟨hle, hfinite⟩ := not_isInf_of_le_roomLimit hdigits hlimit hroom
      rw [he]
      unfold scale
      rw [if_neg (by omega), if_pos (by omega)]
      simp only [Int.natAbs_natCast, hfinite]
      exact ⟨_, rfl⟩

end AddressLookup.JsonNumber
