import Mathlib.Algebra.Group.Nat.Defs
import Raster.Proofs.Samples.Kernel

/-!
# Taps that stay inside

The taps of an axis follow a position in 32-bit floating point. It is kept from passing the last
source index, but as 32 bits hold that index: a whole number of more than 24 bits may be rounded up,
and then the lower tap of the last target samples names one sample too many.

Rounding does not change the order of numbers, and a larger number has no smaller whole part. So the
last index decides, and where 24 bits hold it no tap leaves the axis.

* `wholePart` — the whole part of a mantissa with an exponent.
* `Canonical` — the mantissas and exponents that a 32-bit number has.

Results: `toUInt64_le_of_not_lt` (whole parts are in the order of the numbers), `toUInt64_binary32`
(whole numbers of up to 24 bits are exact), `Tap.centred_inside` (no tap leaves a shorter axis) and
`Tap.centred_lower_long` (a longer one may be left).
-/

namespace Raster

open Float.Model Float.Model.UnpackedFloat

/-! ## Whole parts -/

theorem mantissa_shiftRight (m : ExtendedMantissa) (k : Nat) :
    (m >>> k).mantissa = m.mantissa / 2 ^ k := by
  induction k generalizing m with
  | zero => exact (Nat.div_one _).symm
  | succ k ih =>
    show (m >>> k).mantissa / 2 = _
    rw [ih, Nat.div_div_eq_div_mul, Nat.pow_succ]

/-- The whole part of `m * 2 ^ e`. -/
def wholePart (m : Nat) (e : Int) : Nat := m * 2 ^ e.toNat / 2 ^ (-e).toNat

theorem roundToInt_eq (s : Sign) (m : Nat) (e : Int) :
    roundToInt s m e = s.apply (wholePart m e) := by
  have shift : ((0 : Int) - (e - (e - 0).toNat)).toNat = (-e).toNat := by omega
  show s.apply ((ExtendedMantissa.ofMantissaAndAccuracy (m <<< (e - 0).toNat) .exact >>>
    ((0 : Int) - (e - (e - 0).toNat)).toNat).mantissa : Nat) = _
  rw [mantissa_shiftRight, shift, Int.sub_zero]
  show s.apply (m <<< e.toNat / 2 ^ (-e).toNat : Nat) = _
  rw [Nat.shiftLeft_eq, wholePart]

theorem wholePart_mono {m m' : Nat} (le : m ≤ m') (e : Int) : wholePart m e ≤ wholePart m' e :=
  Nat.div_le_div_right (Nat.mul_le_mul_right _ le)

theorem wholePart_double (m : Nat) (e : Int) : wholePart (m * 2) e = wholePart m (e + 1) := by
  unfold wholePart
  by_cases whole : 0 ≤ e
  · have up : (e + 1).toNat = e.toNat + 1 := by omega
    have down : (-(e + 1)).toNat = (-e).toNat := by omega
    rw [up, down, Nat.pow_succ, Nat.mul_assoc, Nat.mul_comm 2]
  · have up : (e + 1).toNat = e.toNat := by omega
    have down : (-e).toNat = (-(e + 1)).toNat + 1 := by omega
    have zero : e.toNat = 0 := by omega
    rw [up, down, zero, Nat.pow_succ, Nat.pow_zero, Nat.mul_one, Nat.mul_one,
      Nat.mul_div_mul_right _ _ (by decide)]

theorem wholePart_shift (m k : Nat) (e : Int) :
    wholePart (m * 2 ^ k) e = wholePart m (e + k) := by
  induction k generalizing e with
  | zero => rw [Nat.pow_zero, Nat.mul_one, Int.natCast_zero, Int.add_zero]
  | succ k ih =>
    rw [Nat.pow_succ, ← Nat.mul_assoc, wholePart_double, ih]
    congr 1
    omega

/-! ## Unpacked numbers -/

/-- A mantissa of 24 bits, the first of them set unless the exponent is the least one. -/
structure Canonical (m : Nat) (e : Int) : Prop where
  lt : m < 2 ^ 24
  exponent_le : -149 ≤ e
  normal : e = -149 ∨ 2 ^ 23 ≤ m

theorem exponentBias_binary32 : ((Format.binary32.exponentBias : Int) +
    Format.binary32.mantissaBitsWithoutImplicit) = 150 := by decide

theorem toNat_hidden_append (v : BitVec 23) : (1#1 ++ v).toNat = 2 ^ 23 + v.toNat := by
  rw [BitVec.toNat_append, ← Nat.shiftLeft_add_eq_or_of_lt v.isLt]
  rfl

theorem canonical_unpack {b : BitVec (Format.numBits .binary32)} {s : Sign} {m : Nat} {e : Int}
    {positive : 0 < m} (h : UnpackedFloat.unpack .binary32 b = .finite s m e positive) :
    Canonical m e := by
  unfold UnpackedFloat.unpack at h
  dsimp only at h
  by_cases ones : unpackExponent b = -1#(Format.exponentBits .binary32)
  · rw [if_pos ones] at h
    by_cases empty : unpackMantissa b = 0#(Format.mantissaBitsWithoutImplicit .binary32)
    · rw [if_pos empty] at h
      cases h
    · rw [if_neg empty] at h
      cases h
  · rw [if_neg ones] at h
    by_cases least : unpackExponent b = 0#(Format.exponentBits .binary32)
    · rw [if_pos least] at h
      by_cases empty : unpackMantissa b = 0#(Format.mantissaBitsWithoutImplicit .binary32)
      · rw [dif_pos empty] at h
        cases h
      · rw [dif_neg empty] at h
        cases h
        rw [least]
        exact ⟨Nat.lt_trans (BitVec.isLt _) (by decide), by decide, .inl (by decide)⟩
    · rw [if_neg least] at h
      cases h
      have exponent : (unpackExponent b).toNat ≠ 0 := fun zero =>
        least (BitVec.eq_of_toNat_eq zero)
      refine ⟨BitVec.isLt _, ?_, .inr ?_⟩
      · rw [exponentBias_binary32]
        omega
      · rw [toNat_hidden_append (unpackMantissa b)]
        exact Nat.le_add_right _ _

/-! ## Order -/

/-- Numbers in order have whole parts in order. -/
theorem Canonical.wholePart_le {m m' : Nat} {e e' : Int} (canonical : Canonical m e)
    (canonical' : Canonical m' e') (ordered : (compare e' e).then (compare m' m) ≠ .lt) :
    wholePart m e ≤ wholePart m' e' := by
  rcases Int.lt_trichotomy e e' with below | rfl | above
  · -- the larger exponent is not the least one, so its mantissa has all of its bits
    obtain ⟨k, rfl⟩ : ∃ k : Nat, e' = e + k := ⟨(e' - e).toNat, by omega⟩
    have least := canonical.exponent_le
    have full := canonical'.normal.resolve_left (by omega)
    have doubled : 2 ^ 1 ≤ 2 ^ k := Nat.pow_le_pow_right (by decide) (by omega)
    rw [← wholePart_shift]
    refine wholePart_mono ?_ e
    calc m ≤ 2 ^ 23 * 2 ^ 1 := Nat.le_of_lt canonical.lt
      _ ≤ m' * 2 ^ k := Nat.mul_le_mul full doubled
  · rw [Int.compare_eq_eq.2 rfl] at ordered
    exact wholePart_mono (Nat.not_lt.1 fun less => ordered (Nat.compare_eq_lt.2 less)) e
  · rw [Int.compare_eq_lt.2 above] at ordered
    exact absurd rfl ordered

/-- What is negative or NaN has no whole part. -/
theorem toInt_le_of_not_lt {u w : UnpackedFloat}
    (canonical : ∀ s m e p, u = .finite s m e p → Canonical m e)
    (canonical' : ∀ s m e p, w = .finite s m e p → Canonical m e)
    (finite : w.isFinite = true) (ordered : w.lt u = false) (top : Int) :
    (u.toInt 0 top).toNat ≤ (w.toInt 0 top).toNat := by
  cases u with
  | notANumber => exact Nat.zero_le _
  | zero sign => exact Nat.zero_le _
  | infinity sign =>
    cases sign with
    | negative => exact Nat.zero_le _
    | positive =>
      cases w with
      | notANumber => cases finite
      | infinity sign => cases finite
      | zero sign => cases ordered
      | finite sign m e positive => cases sign <;> cases ordered
  | finite sign m e positive =>
    cases sign with
    | negative =>
      show (roundToInt .negative m e).toNat ≤ _
      rw [roundToInt_eq]
      show (-(wholePart m e : Int)).toNat ≤ _
      omega
    | positive =>
      cases w with
      | notANumber => cases finite
      | infinity sign => cases finite
      | zero sign => cases ordered
      | finite sign m' e' positive' =>
        cases sign with
        | negative => cases ordered
        | positive =>
          show (roundToInt .positive m e).toNat ≤ (roundToInt .positive m' e').toNat
          rw [roundToInt_eq, roundToInt_eq]
          refine (canonical _ _ _ _ rfl).wholePart_le (canonical' _ _ _ _ rfl) fun less => ?_
          have below : (some ((compare e' e).then (compare m' m)) == some .lt) = false := ordered
          rw [less] at below
          cases below

theorem toNat_ofNatClamp (n : Nat) : (UInt64.ofNatClamp n).toNat = min n (UInt64.size - 1) := by
  unfold UInt64.ofNatClamp
  split
  · rw [UInt64.toNat_ofNatLT]
    omega
  · rw [UInt64.toNat_ofNatLT]
    omega

/-- The whole part of an unpacked number, kept in the range of a word. -/
theorem toNat_toUInt64 (u : UnpackedFloat) :
    u.toUInt64.toNat = min (u.toInt 0 (UInt64.size - 1)).toNat (UInt64.size - 1) :=
  toNat_ofNatClamp _

/-- A number that is not above another has no larger whole part. -/
theorem toUInt64_le_of_not_lt {f g : Float32} (finite : g.isFinite = true) (ordered : ¬g < f) :
    f.toUInt64.toNat ≤ g.toUInt64.toNat := by
  have ordered : g.toModel.unpack.lt f.toModel.unpack = false := by
    rw [Bool.eq_false_iff]
    exact fun less => ordered (decide_eq_true_iff.2 less)
  show f.toModel.unpack.toUInt64.toNat ≤ g.toModel.unpack.toUInt64.toNat
  have whole := toInt_le_of_not_lt (u := f.toModel.unpack) (w := g.toModel.unpack)
    (fun _ _ _ _ => canonical_unpack) (fun _ _ _ _ => canonical_unpack) finite ordered
    (UInt64.size - 1)
  rw [toNat_toUInt64, toNat_toUInt64]
  omega

/-! ## Whole numbers in 32 bits -/

theorem unpackSign_packComponents (spec : Float.Model.Format) (s : Sign)
    (e : BitVec spec.exponentBits) (m : BitVec spec.mantissaBitsWithoutImplicit) :
    unpackSign (packComponents spec s e m) = s.toBitVec := by
  show BitVec.cast _ (BitVec.extractLsb _ _ _) = _
  ext i hi
  have first : i = 0 := by omega
  have past : ¬spec.mantissaBitsWithoutImplicit + spec.exponentBits <
    spec.mantissaBitsWithoutImplicit := by omega
  simp [packComponents, BitVec.getLsbD_eq_getElem, BitVec.getLsbD_append, first, past,
    BitVec.getElem_append]

theorem log2_of_full {m : Nat} (full : 2 ^ 23 ≤ m) (lt : m < 2 ^ 24) : m.log2 = 23 := by
  have positive : m ≠ 0 := by omega
  have low := (Nat.le_log2 positive).2 full
  have high := (Nat.log2_lt positive).2 lt
  omega

/-- The exponent at which the mantissa of a number has 24 bits, if it is not below the least one. -/
theorem targetExponent_binary32 (m : Nat) (e : Int) :
    Format.binary32.targetExponent (totalExponent m e) = max (m.log2 + 1 + e - 24) (-149) := by
  have bits : (Format.binary32.mantissaBits : Int) = 24 := by decide
  have least : Format.binary32.minExponent = -149 := by decide
  rw [Format.targetExponent, totalExponent, bits, least]

theorem shiftToTargetExponent_full {m : Nat} {e : Int} (full : 2 ^ 23 ≤ m) (lt : m < 2 ^ 24)
    (least : -149 ≤ e) :
    shiftToTargetExponent .binary32 m e .exact = (⟨m, false, false⟩, e) := by
  have target : Format.binary32.targetExponent (totalExponent m e) = e := by
    rw [targetExponent_binary32, log2_of_full full lt]
    omega
  unfold shiftToTargetExponent shiftToExponent
  dsimp only
  rw [target, Int.sub_self]
  simp [HShiftRight.hShiftRight, Nat.repeat, ExtendedMantissa.ofMantissaAndAccuracy]

theorem roundWithAccuracy_full (s : Sign) {m : Nat} {e : Int} (full : 2 ^ 23 ≤ m)
    (lt : m < 2 ^ 24) (least : -149 ≤ e) :
    roundWithAccuracy .binary32 s m e .exact = .finite s m e (by omega) := by
  have kept := shiftToTargetExponent_full full lt least
  have again : shiftToTargetExponent .binary32 (ExtendedMantissa.roundedMantissa ⟨m, false, false⟩)
    e .exact = (⟨m, false, false⟩, e) := kept
  unfold roundWithAccuracy
  rw [kept]
  dsimp only
  rw [again]
  exact dif_neg (show ¬m = 0 by omega)

theorem unpack_pack_full {m : Nat} {e : Int} (full : 2 ^ 23 ≤ m)
    (lt : m < 2 ^ 24) (least : -149 ≤ e) (most : e ≤ 104) :
    UnpackedFloat.unpack .binary32
        (UnpackedFloat.pack .binary32 (.finite .positive m e (by omega))) =
      .finite .positive m e (by omega) := by
  have bits : ((1#1 : BitVec 1) ++ BitVec.ofNat 23 m).toNat = m := by
    rw [toNat_hidden_append, BitVec.toNat_ofNat]
    omega
  have biased : (BitVec.ofNat 8 (e + 150).toNat).toNat = (e + 150).toNat := by
    rw [BitVec.toNat_ofNat]
    omega
  have packed : UnpackedFloat.pack .binary32 (.finite .positive m e (by omega)) =
      packComponents .binary32 .positive (BitVec.ofNat 8 (e + 150).toNat) (BitVec.ofNat 23 m) := by
    unfold UnpackedFloat.pack
    dsimp only
    rw [Int.add_assoc, exponentBias_binary32, log2_of_full full lt, if_neg]
    · rfl
    · show ¬2 ^ 8 ≤ (e + 150).toNat + 1
      omega
  have ones : ¬BitVec.ofNat 8 (e + 150).toNat = -1#8 := by
    intro ones
    have ones : _ = 255 := congrArg BitVec.toNat ones
    rw [biased] at ones
    omega
  have zero : ¬BitVec.ofNat 8 (e + 150).toNat = 0#8 := by
    intro zero
    have zero : _ = 0 := congrArg BitVec.toNat zero
    rw [biased] at zero
    omega
  have exponent : ((BitVec.ofNat 8 (e + 150).toNat).toNat : Int) - 150 = e := by
    rw [biased]
    omega
  rw [packed]
  unfold UnpackedFloat.unpack
  dsimp only
  rw [unpackExponent_packComponents, if_neg ones, if_neg zero, exponentBias_binary32,
    UnpackedFloat.finite.injEq, unpackSign_packComponents, unpackMantissa_packComponents]
  exact ⟨rfl, bits, exponent⟩

/-- A whole number of at most 24 bits is a number whose mantissa has all of its bits. -/
theorem unpack_binary32 {k : Nat} (positive : 0 < k) (lt : k < 2 ^ 24) :
    ∃ (d : Nat) (p : 0 < k * 2 ^ d), Canonical (k * 2 ^ d) (-d) ∧
      (binary32 k).toModel.unpack = .finite .positive (k * 2 ^ d) (-d) p := by
  have nonzero : k ≠ 0 := by omega
  have low := Nat.log2_self_le nonzero
  have high := Nat.lt_log2_self (n := k)
  have short : k.log2 < 24 := (Nat.log2_lt nonzero).2 lt
  obtain ⟨d, top⟩ : ∃ d, 23 = k.log2 + d := ⟨23 - k.log2, by omega⟩
  have full : 2 ^ 23 ≤ k * 2 ^ d := by
    rw [top, Nat.pow_add]
    exact Nat.mul_le_mul_right _ low
  have below : k * 2 ^ d < 2 ^ 24 := by
    have : 24 = k.log2 + 1 + d := by omega
    rw [this, Nat.pow_add]
    exact Nat.mul_lt_mul_of_pos_right high (Nat.two_pow_pos d)
  have word : k.toUInt64.toNat = k := UInt64.toNat_ofNat_of_lt' (Nat.lt_trans lt (by decide))
  have rounded : UnpackedFloat.ofUInt64 .binary32 k.toUInt64 =
      .finite .positive (k * 2 ^ d) (-d) (by omega) := by
    have target : Format.binary32.targetExponent (totalExponent k 0) = -d := by
      rw [targetExponent_binary32]
      omega
    have above : compare (k : Int) 0 = .gt := Int.compare_eq_gt.2 (by omega)
    rw [UnpackedFloat.ofUInt64, word, UnpackedFloat.ofNat, UnpackedFloat.ofInt,
      UnpackedFloat.normalize, above]
    show UnpackedFloat.round .binary32 .positive k 0 = _
    rw [UnpackedFloat.round, decreaseExponent, target]
    have shift : ((0 : Int) - -(d : Int)).toNat = d := by omega
    dsimp only
    rw [shift, Int.zero_sub, Nat.shiftLeft_eq]
    exact roundWithAccuracy_full .positive full below (by omega)
  refine ⟨d, by omega, ⟨below, by omega, .inr full⟩, ?_⟩
  show UnpackedFloat.unpack .binary32
    (UnpackedFloat.pack .binary32 (UnpackedFloat.ofUInt64 .binary32 k.toUInt64)) = _
  rw [rounded]
  exact unpack_pack_full full below (by omega) (by omega)

/-- Whole numbers of up to 24 bits are exact in 32 bits. -/
theorem toUInt64_binary32 {k : Nat} (short : k ≤ 2 ^ 24) :
    (binary32 k).isFinite = true ∧ (binary32 k).toUInt64.toNat = k := by
  rcases Nat.eq_or_lt_of_le short with rfl | lt
  · decide
  rcases Nat.eq_zero_or_pos k with rfl | positive
  · decide
  obtain ⟨d, p, -, unpacked⟩ := unpack_binary32 positive lt
  have whole : wholePart (k * 2 ^ d) (-d) = k := by
    have shift : wholePart (k * 2 ^ d) (-d) = wholePart k 0 := by
      rw [wholePart_shift]
      congr 1
      omega
    rw [shift, wholePart]
    exact (Nat.div_one _).trans (Nat.mul_one k)
  constructor
  · show (binary32 k).toModel.unpack.isFinite = true
    rw [unpacked]
    rfl
  · show (binary32 k).toModel.unpack.toUInt64.toNat = k
    rw [unpacked, toNat_toUInt64]
    show min (roundToInt .positive (k * 2 ^ d) (-d)).toNat _ = k
    rw [roundToInt_eq, whole]
    show min k (UInt64.size - 1) = k
    unfold UInt64.size
    omega

/-! ## Reach of a tap -/

/-- The position of a target sample has no larger whole part than the last source index, as this is
rounded. -/
theorem toUInt64_tapPosition_le {n : Nat} (finite : (binary32 (n - 1)).isFinite = true)
    (m i : Nat) :
    (tapPosition n m i).toUInt64.toNat ≤ (binary32 (n - 1)).toUInt64.toNat := by
  unfold tapPosition
  dsimp only
  split
  · exact Nat.zero_le _
  · split
    · exact Nat.le_refl _
    · next ordered => exact toUInt64_le_of_not_lt finite ordered

/-- No tap leaves an axis of up to `2 ^ 24 + 1` samples. -/
theorem Tap.centred_inside {n : Nat} (positive : 0 < n) (short : n ≤ 2 ^ 24 + 1) (m : Nat) :
    Tap.centred.Inside n m := by
  intro i _
  obtain ⟨finite, whole⟩ := toUInt64_binary32 (k := n - 1) (by omega)
  have lower := toUInt64_tapPosition_le finite m i
  show (tapPosition n m i).toUInt64.toNat < n ∧
    min ((tapPosition n m i).toUInt64.toNat + 1) (n - 1) < n
  omega

theorem Tap.centred_spans {r : Region} (width_pos : 0 < r.width) (height_pos : 0 < r.height)
    (width : r.width ≤ 2 ^ 24 + 1) (height : r.height ≤ 2 ^ 24 + 1) (target : Size) :
    Tap.centred.Spans r.size target :=
  .inr ⟨centred_inside width_pos width target.width,
    centred_inside height_pos height target.height⟩

/-- A longer axis may be left: the index of its last sample can be rounded up. -/
theorem Tap.centred_lower_long : (Tap.centred 16777220 16777221 16777220).lower = 16777220 := by decide

end Raster
