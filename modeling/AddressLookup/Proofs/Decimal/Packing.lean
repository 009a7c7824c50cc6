import AddressLookup.Proofs.Decimal.Rounding

/-! Doubles and their bits. A canonical pair whose exponent is in range is stored as it is; a larger one
is stored as an infinity, and no finite double is read from bits that is not canonical and in range. -/

namespace AddressLookup.Decimal

open Float.Model Float.Model.UnpackedFloat

def largest : ℚ :=
  magnitude (2 ^ 53 - 1) 971

theorem canonical_largest : Canonical (2 ^ 53 - 1) 971 :=
  ⟨by norm_num, by norm_num, Or.inl (by norm_num)⟩

theorem Canonical.magnitude_le_largest {m : ℕ} {e : ℤ} (h : Canonical m e) (he : e ≤ 971) :
    magnitude m e ≤ largest := by
  obtain ⟨d, hd⟩ := Int.le.dest he
  have hsmall : m ≤ 2 ^ 53 - 1 := Nat.le_sub_one_of_lt h.small
  rw [largest, ← hd, magnitude_add, magnitude_le_magnitude]
  calc m ≤ 2 ^ 53 - 1 := hsmall
    _ ≤ (2 ^ 53 - 1) * 2 ^ d := Nat.le_mul_of_pos_right _ (by positivity)

theorem Canonical.exponent_le {m : ℕ} {e : ℤ} (h : Canonical m e) (hle : magnitude m e ≤ largest) :
    e ≤ 971 := by
  by_cases hlow : e ≤ 971
  · exact hlow
  · obtain ⟨d, hd⟩ := Int.le.dest (Int.add_one_le_of_lt (not_le.1 hlow))
    have he : e = 971 + (d + 1 : ℕ) := by
      push_cast
      omega
    have hfull : 2 ^ 52 ≤ m := h.full.resolve_right (by omega)
    rw [largest, he, magnitude_add, magnitude_le_magnitude] at hle
    have hwide : 2 ^ 52 * 2 ≤ m * 2 ^ (d + 1) :=
      Nat.mul_le_mul hfull (Nat.le_self_pow (Nat.succ_ne_zero d) 2)
    omega

theorem Canonical.within {m : ℕ} {e : ℤ} (h : Canonical m e) (he : e ≤ 971) (sign : Sign)
    (hm : 0 < m) : Within largest (.finite sign m e hm) :=
  .finite sign hm h (h.magnitude_le_largest he)

theorem toNat_implicit_append (m : BitVec Format.binary64.mantissaBitsWithoutImplicit) :
    (1#1 ++ m).toNat = 2 ^ 52 + m.toNat := by
  rw [BitVec.toNat_append, ← Nat.shiftLeft_add_eq_or_of_lt m.isLt]
  rfl

theorem exponentBias_binary64 : Format.binary64.exponentBias = 1023 := by
  decide

theorem within_unpack {b : BitVec Format.binary64.numBits}
    (h : (UnpackedFloat.unpack Format.binary64 b).isFinite = true) :
    Within largest (UnpackedFloat.unpack Format.binary64 b) := by
  have hbias := exponentBias_binary64
  have hmantissa : (unpackMantissa b).toNat < 2 ^ 52 := (unpackMantissa b).isLt
  have hexponent : (unpackExponent b).toNat < 2 ^ 11 := (unpackExponent b).isLt
  unfold UnpackedFloat.unpack at h ⊢
  simp only [] at h ⊢
  split at h
  · split at h <;> exact absurd h Bool.false_ne_true
  · next hinfinite =>
    rw [if_neg hinfinite]
    have hne : (unpackExponent b).toNat ≠ 2047 := by
      intro heq
      exact hinfinite (BitVec.eq_of_toNat_eq heq)
    split
    · next hleast =>
      have hzero : (unpackExponent b).toNat = 0 := by
        rw [hleast]
        rfl
      split
      · exact .zero _
      · exact Canonical.within ⟨by omega, by omega, Or.inr (by omega)⟩ (by omega) _ _
    · next hnormal =>
      have hpos : (unpackExponent b).toNat ≠ 0 := by
        intro heq
        exact hnormal (BitVec.eq_of_toNat_eq heq)
      have hfull := toNat_implicit_append (unpackMantissa b)
      exact Canonical.within ⟨by omega, by omega, Or.inl (by omega)⟩ (by omega) _ _

theorem unpack_packComponents_normal (s : Sign) {m b : ℕ} {e : ℤ} (hm : 0 < m) (hfull : 2 ^ 52 ≤ m)
    (hsmall : m < 2 ^ 53) (hb : e + Format.binary64.exponentBias + 52 = b) (hpos : 0 < b)
    (hlt : b < 2047) :
    UnpackedFloat.unpack Format.binary64
      (packComponents Format.binary64 s (BitVec.ofNat 11 b) (BitVec.ofNat 52 m)) =
        .finite s m e hm := by
  have hfield : (BitVec.ofNat 11 b).toNat = b := by
    rw [BitVec.toNat_ofNat, Nat.mod_eq_of_lt (by omega)]
  have hfinite : BitVec.ofNat 11 b ≠ -1#11 := by
    intro heq
    have hmax : b = 2047 := by rw [← hfield, heq]; rfl
    omega
  have hnormal : BitVec.ofNat 11 b ≠ 0#11 := by
    intro heq
    have hzero : b = 0 := by rw [← hfield, heq]; rfl
    omega
  have hmantissa : (1#1 ++ BitVec.ofNat 52 m).toNat = m := by
    -- The leading bit is not stored; it is what separates `m` from its low bits.
    have hbits : m % 2 ^ 52 = m - 2 ^ 52 := by omega
    rw [toNat_implicit_append, BitVec.toNat_ofNat]
    exact (congrArg (2 ^ 52 + ·) hbits).trans (Nat.add_sub_cancel' hfull)
  unfold UnpackedFloat.unpack
  simp only [unpackExponent_packComponents, unpackMantissa_packComponents, unpackSign_packComponents,
    Sign.ofBitVec_toBitVec, if_neg hfinite, if_neg hnormal, hmantissa, hfield]
  congr 1
  omega

theorem unpack_packComponents_subnormal (s : Sign) {m : ℕ} (hm : 0 < m) (hsmall : m < 2 ^ 52) :
    UnpackedFloat.unpack Format.binary64
      (packComponents Format.binary64 s 0#11 (BitVec.ofNat 52 m)) = .finite s m (-1074) hm := by
  have hmantissa : (BitVec.ofNat 52 m).toNat = m := by
    rw [BitVec.toNat_ofNat, Nat.mod_eq_of_lt hsmall]
  have hnonzero : BitVec.ofNat 52 m ≠ 0#52 := by
    intro heq
    have hzero : m = 0 := by rw [← hmantissa, heq]; rfl
    omega
  unfold UnpackedFloat.unpack
  simp only [unpackExponent_packComponents, unpackMantissa_packComponents, unpackSign_packComponents,
    Sign.ofBitVec_toBitVec, hmantissa]
  rw [if_neg (by decide), if_pos trivial, dif_neg hnonzero]
  congr 1

theorem unpack_pack {u : UnpackedFloat} (h : Within largest u) :
    UnpackedFloat.unpack Format.binary64 (UnpackedFloat.pack Format.binary64 u) = u := by
  have hbias := exponentBias_binary64
  cases h with
  | zero s => cases s <;> rfl
  | @finite s m e hm hcanonical hle =>
    have hhigh := hcanonical.exponent_le hle
    have hlow := hcanonical.floor
    have hsmall := hcanonical.small
    obtain ⟨b, hb⟩ : ∃ b, b = (e + Format.binary64.exponentBias + (52 : ℕ)).toNat := ⟨_, rfl⟩
    have hinrange : ¬ 2 ^ 11 ≤ b + 1 := by omega
    unfold UnpackedFloat.pack
    simp only [← hb, if_neg hinrange]
    by_cases hfull : 2 ^ 52 ≤ m
    · have hlog : m.log2 + 1 = Format.binary64.mantissaBits := by
        rw [(Nat.log2_eq_iff hm.ne').2 ⟨hfull, hsmall⟩]
        rfl
      rw [if_pos hlog]
      exact unpack_packComponents_normal s hm hfull hsmall (by omega) (by omega) (by omega)
    · have hlog : m.log2 + 1 ≠ Format.binary64.mantissaBits := by
        have hlt := (Nat.log2_lt hm.ne').2 (not_le.1 hfull)
        have hbits : Format.binary64.mantissaBits = 53 := rfl
        omega
      obtain rfl := hcanonical.full.resolve_left hfull
      rw [if_neg hlog]
      exact unpack_packComponents_subnormal s hm (not_le.1 hfull)

theorem isInf_unpack_pack (s : Sign) {m : ℕ} {e : ℤ} (hm : 0 < m) (he : 971 < e) :
    (UnpackedFloat.unpack Format.binary64
      (UnpackedFloat.pack Format.binary64 (.finite s m e hm))).isInf = true := by
  have hbias := exponentBias_binary64
  have hout : 2 ^ 11 ≤ (e + Format.binary64.exponentBias + (52 : ℕ)).toNat + 1 := by omega
  unfold UnpackedFloat.pack
  simp only [if_pos hout]
  cases s <;> decide

end AddressLookup.Decimal
