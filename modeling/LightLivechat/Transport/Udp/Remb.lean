import LightLivechat.Lib.Float
import LightLivechat.Transport.Udp.Rtcp

/-! The bitrate in a REMB packet is the greatest one that a mantissa of 18 bits can say
and that is not above the one asked for. -/

namespace LightLivechat.Transport.Udp

open LightLivechat.Lib LightLivechat.Lib.Bytes

structure RembFields where
  exp : BitVec 6
  mantissa : BitVec 18
  ssrcs : List U32

def decodeRemb (fields : Bytes) : RembFields where
  exp := (byteAt fields 1).extractLsb' 2 6
  mantissa := (byteAt fields 1).extractLsb' 0 2 ++ byteAt fields 2 ++ byteAt fields 3
  ssrcs := (List.range (byteAt fields 0).toNat).map fun i => be32 fields (4 + 4 * i)

def RembFields.bitrate (r : RembFields) : Nat := r.mantissa.toNat * 2 ^ r.exp.toNat

def sentRemb (bitrateBps : BitVec 64) (mediaSsrc : U32) : RembFields :=
  decodeRemb (slice (buildRemb bitrateBps mediaSsrc) 16 8)

theorem shrink_eq (fuel : Nat) (exp : U8) (mantissa : BitVec 64)
    (h : Float.exponent 18 mantissa.toNat ≤ fuel) :
    encodeRembBitrate.shrink fuel exp mantissa =
      (exp + BitVec.ofNat 8 (Float.exponent 18 mantissa.toNat),
        BitVec.ofNat 64 (Float.significand 18 mantissa.toNat)) := by
  have hdone : ∀ m : BitVec 64, m.toNat < 2 ^ 18 → Float.exponent 18 m.toNat = 0 ∧
      Float.significand 18 m.toNat = m.toNat := fun m hm => by
    have hzero := Float.exponent_eq_zero_iff.mpr hm
    exact ⟨hzero, by rw [Float.significand, hzero, Nat.pow_zero, Nat.div_one]⟩
  induction fuel generalizing exp mantissa with
  | zero =>
    obtain ⟨he, hm⟩ := hdone mantissa (Float.exponent_eq_zero_iff.mp (Nat.le_zero.mp h))
    simp [encodeRembBitrate.shrink, he, hm]
  | succ fuel ih =>
    rw [encodeRembBitrate.shrink]
    split
    · rename_i hguard
      have hlarge : 2 ^ 18 ≤ mantissa.toNat := hguard
      have hhalf : (mantissa >>> 1).toNat = mantissa.toNat / 2 := by
        rw [BitVec.toNat_ushiftRight, Nat.shiftRight_eq_div_pow, Nat.pow_one]
      have he := Float.exponent_half hlarge
      rw [ih _ _ (by rw [hhalf]; omega), hhalf, Float.significand_half hlarge, he,
        BitVec.add_assoc, Nat.add_comm, BitVec.ofNat_add]
      rfl
    · rename_i hguard
      obtain ⟨he, hm⟩ := hdone mantissa (Nat.lt_of_not_le hguard)
      simp [he, hm]

section

variable (bps : BitVec 64)

theorem exponent_le_46 : Float.exponent 18 bps.toNat ≤ 46 := Float.exponent_le bps.isLt

theorem encodeRembBitrate_eq : encodeRembBitrate bps =
    (BitVec.ofNat 8 (Float.exponent 18 bps.toNat),
      BitVec.ofNat 32 (Float.significand 18 bps.toNat)) := by
  have hexp := exponent_le_46 bps
  rw [encodeRembBitrate, shrink_eq 64 0 bps (by omega)]
  simp

end

section

variable (exp b : U8)

theorem exp_bits : (exp <<< 2 ||| (b &&& 0x03)).extractLsb' 2 6 = exp.setWidth 6 := by
  have hmask : (b &&& 0x03).extractLsb' 2 6 = 0 := by
    rw [BitVec.extractLsb'_and]
    exact BitVec.and_zero
  rw [BitVec.extractLsb'_or, hmask]
  apply BitVec.eq_of_getLsbD_eq
  intro i hi
  simp [show 2 + i < 8 by omega, show ¬ 2 + i < 2 by omega, hi,
    BitVec.getLsbD_eq_getElem (show i < 8 by omega)]

theorem mantissa_bits : (exp <<< 2 ||| (b &&& 0x03)).extractLsb' 0 2 = b.extractLsb' 0 2 := by
  have hshift : (exp <<< 2).extractLsb' 0 2 = 0 := by
    apply BitVec.eq_of_getLsbD_eq
    intro i hi
    simp [hi]
  have hmask : (0x03 : U8).extractLsb' 0 2 = BitVec.allOnes 2 := rfl
  rw [BitVec.extractLsb'_or, hshift, BitVec.extractLsb'_and, hmask, BitVec.and_allOnes]
  exact BitVec.zero_or

end

def rembFields (exp : U8) (mantissa mediaSsrc : U32) : Bytes :=
  1 :: (exp <<< 2 ||| ((mantissa >>> 16).setWidth 8 &&& 0x03)) ::
    (mantissa >>> 8).setWidth 8 :: mantissa.setWidth 8 :: toBe32 mediaSsrc

theorem decodeRemb_fields (exp : U8) (mantissa mediaSsrc : U32) :
    decodeRemb (rembFields exp mantissa mediaSsrc) =
      ⟨exp.setWidth 6, mantissa.setWidth 18, [mediaSsrc]⟩ := by
  have hhigh : ((mantissa >>> 16).setWidth 8).extractLsb' 0 2 = mantissa.extractLsb' 16 2 := by
    rw [BitVec.extractLsb'_setWidth_of_le (by decide), ← BitVec.setWidth_eq_extractLsb' (by decide),
      BitVec.setWidth_ushiftRight_eq_extractLsb]
  have hmantissa : ((mantissa >>> 16).setWidth 8).extractLsb' 0 2 ++
      (mantissa >>> 8).setWidth 8 ++ mantissa.setWidth 8 = mantissa.setWidth 18 := by
    rw [hhigh, BitVec.setWidth_ushiftRight_eq_extractLsb,
      BitVec.setWidth_eq_extractLsb' (by decide), BitVec.setWidth_eq_extractLsb' (by decide),
      BitVec.extractLsb'_append_extractLsb'_eq_extractLsb' (show 16 = 8 + 8 from rfl),
      BitVec.extractLsb'_append_extractLsb'_eq_extractLsb' (show 8 = 0 + 8 from rfl)]
  have hbytes : byteAt (rembFields exp mantissa mediaSsrc) 0 = 1 ∧
      byteAt (rembFields exp mantissa mediaSsrc) 1 =
        exp <<< 2 ||| ((mantissa >>> 16).setWidth 8 &&& 0x03) ∧
      byteAt (rembFields exp mantissa mediaSsrc) 2 = (mantissa >>> 8).setWidth 8 ∧
      byteAt (rembFields exp mantissa mediaSsrc) 3 = mantissa.setWidth 8 := ⟨rfl, rfl, rfl, rfl⟩
  have hssrc : be32 (rembFields exp mantissa mediaSsrc) 4 = mediaSsrc :=
    (be32_drop _ 4 0).symm.trans (be32_toBe32 mediaSsrc)
  obtain ⟨hcount, hfirst, hsecond, hthird⟩ := hbytes
  rw [decodeRemb, hcount, hfirst, hsecond, hthird, exp_bits, mantissa_bits, hmantissa]
  simp [List.range_succ, hssrc]

theorem toNat_ofNat_of_lt {w n : Nat} (h : n < 2 ^ w) : (BitVec.ofNat w n).toNat = n := by
  rw [BitVec.toNat_ofNat, Nat.mod_eq_of_lt h]

section

variable (bps : BitVec 64) (mediaSsrc : U32)

theorem sentRemb_eq : sentRemb bps mediaSsrc =
    ⟨BitVec.ofNat 6 (Float.exponent 18 bps.toNat), BitVec.ofNat 18 (Float.significand 18 bps.toNat),
      [mediaSsrc]⟩ := by
  have hpacket : slice (buildRemb bps mediaSsrc) 16 8 =
      rembFields (encodeRembBitrate bps).1 (encodeRembBitrate bps).2 mediaSsrc := rfl
  rw [sentRemb, hpacket, decodeRemb_fields, encodeRembBitrate_eq,
    BitVec.setWidth_ofNat_of_le (by decide), BitVec.setWidth_ofNat_of_le (by decide)]

theorem sentRemb_exp : (sentRemb bps mediaSsrc).exp.toNat = Float.exponent 18 bps.toNat := by
  have hexp := exponent_le_46 bps
  rw [sentRemb_eq]
  exact toNat_ofNat_of_lt (by omega)

theorem sentRemb_mantissa :
    (sentRemb bps mediaSsrc).mantissa.toNat = Float.significand 18 bps.toNat := by
  rw [sentRemb_eq]
  exact toNat_ofNat_of_lt (Float.significand_lt 18 _)

theorem sentRemb_bitrate : (sentRemb bps mediaSsrc).bitrate = Float.truncate 18 bps.toNat := by
  rw [RembFields.bitrate, sentRemb_exp, sentRemb_mantissa, Float.truncate]

end

/-- No fuel beyond 46 shifts changes what the loop ends with, and the packet says just that:
the greatest bitrate that fits and is not above the one given. -/
theorem remb_rounds_down :
    (∀ bps, ∃ exp mantissa,
      (∀ fuel, 46 ≤ fuel → encodeRembBitrate.shrink fuel 0 bps = (exp, mantissa)) ∧
      encodeRembBitrate bps = (exp, mantissa.setWidth 32) ∧
      mantissa.toNat < 2 ^ 18 ∧ exp.toNat ≤ 46 ∧
      ∀ mediaSsrc, (sentRemb bps mediaSsrc).mantissa.toNat = mantissa.toNat ∧
        (sentRemb bps mediaSsrc).exp.toNat = exp.toNat) ∧
    (∀ bps mediaSsrc, (sentRemb bps mediaSsrc).ssrcs = [mediaSsrc] ∧
      (sentRemb bps mediaSsrc).bitrate ≤ bps.toNat ∧
      bps.toNat < (sentRemb bps mediaSsrc).bitrate + 2 ^ (sentRemb bps mediaSsrc).exp.toNat ∧
      (bps.toNat < 2 ^ 18 → (sentRemb bps mediaSsrc).bitrate = bps.toNat)) ∧
    ∀ bps bps' mediaSsrc mediaSsrc', bps ≤ bps' →
      (sentRemb bps mediaSsrc).bitrate ≤ (sentRemb bps' mediaSsrc').bitrate := by
  refine ⟨fun bps => ?_, fun bps mediaSsrc => ?_, fun bps bps' mediaSsrc mediaSsrc' hle => ?_⟩
  · have hexp := exponent_le_46 bps
    have hlt := Float.significand_lt 18 bps.toNat
    have hexp8 : (BitVec.ofNat 8 (Float.exponent 18 bps.toNat)).toNat =
        Float.exponent 18 bps.toNat := toNat_ofNat_of_lt (by omega)
    have hmantissa64 : (BitVec.ofNat 64 (Float.significand 18 bps.toNat)).toNat =
        Float.significand 18 bps.toNat := toNat_ofNat_of_lt (by omega)
    refine ⟨_, _, fun fuel hfuel => ?_, ?_, hmantissa64 ▸ hlt, hexp8 ▸ hexp, fun mediaSsrc => ?_⟩
    · rw [shrink_eq fuel 0 bps (by omega)]
      exact congrArg (·, _) (BitVec.zero_add _)
    · rw [encodeRembBitrate_eq, BitVec.setWidth_ofNat_of_le (by decide)]
    · rw [sentRemb_mantissa, sentRemb_exp, hmantissa64, hexp8]
      exact ⟨rfl, rfl⟩
  · rw [sentRemb_bitrate, sentRemb_exp, sentRemb_eq]
    exact ⟨rfl, Float.truncate_le 18 _, Float.lt_truncate_add 18 _, Float.truncate_of_lt⟩
  · rw [sentRemb_bitrate, sentRemb_bitrate]
    exact Float.truncate_mono hle

example : (sentRemb 500000 7).bitrate = 500000 ∧ (sentRemb 500001 7).bitrate = 500000 := by decide

end LightLivechat.Transport.Udp
