import Shading.Decimal.Numeral
import Shading.Decimal.Style
import Shading.Proofs.Loops

namespace Shading

/-!
# Floats as text

A finite float is written with the digits of a decimal that is nearest to it, and a numeral is read as
the float nearest to it, so what is written is read back.

* `Float32.ofBits_toBits` — a float is given by its bits;
* `Decimal.nearest_shortest` — the decimal of a magnitude rounds back to it;
* `Numeral.scan_positionalChars` — the digits of a decimal, read as a numeral;
* `scan_floatText` — the text of a finite float.
-/

/-! ### Bits -/

namespace Binary32

open Float.Model

variable (b : BitVec Format.binary32.numBits)

theorem toBitVec_ofBitVec (sign : BitVec 1) :
    (UnpackedFloat.Sign.ofBitVec sign).toBitVec = sign := by
  revert sign
  decide

/-- Sign, exponent and mantissa make up a bit pattern. -/
theorem packComponents_unpack :
    UnpackedFloat.packComponents .binary32 (.ofBitVec (UnpackedFloat.unpackSign b))
      (UnpackedFloat.unpackExponent b) (UnpackedFloat.unpackMantissa b) = b := by
  rw [UnpackedFloat.packComponents, toBitVec_ofBitVec]
  apply BitVec.eq_of_getLsbD_eq
  intro i hi
  have hbits : i < 32 := hi
  simp only [BitVec.getLsbD_append, UnpackedFloat.unpackSign, UnpackedFloat.unpackExponent,
    UnpackedFloat.unpackMantissa, BitVec.getLsbD_cast, BitVec.getLsbD_extractLsb]
  split
  next hmantissa => simp [hmantissa]
  next hmantissa =>
    split
    next hexponent =>
      have hplace : 23 + (i - 23) = i := by omega
      simp [hplace, hexponent]
    next hexponent =>
      have hplace : 31 + (i - 23 - 8) = i := by omega
      have hlast : i - 23 - 8 < 1 := by omega
      rw [hplace]
      simp [hlast]

theorem toNat_unpackExponent :
    (UnpackedFloat.unpackExponent b).toNat = b.toNat / 0x800000 % 256 := by
  simp [UnpackedFloat.unpackExponent, BitVec.extractLsb, Nat.shiftRight_eq_div_pow]

/-- A mantissa is packed with its exponent if it has the implicit bit, with zero otherwise. -/
theorem pack_finite {sign : UnpackedFloat.Sign} {mantissa biased : Nat} {exponent : Int}
    (hpos : 0 < mantissa) (hbiased : exponent + 150 = biased) (hlt : biased < 255) :
    UnpackedFloat.pack .binary32 (.finite sign mantissa exponent hpos)
      = UnpackedFloat.packComponents .binary32 sign
          (if mantissa.log2 = 23 then BitVec.ofNat 8 biased else 0) (BitVec.ofNat 23 mantissa) := by
  have hexponent : (exponent + (Format.binary32.exponentBias : Int)
      + (Format.binary32.mantissaBitsWithoutImplicit : Int)).toNat = biased := by
    have hbias : (Format.binary32.exponentBias : Int) = 127 := rfl
    have hwidth : (Format.binary32.mantissaBitsWithoutImplicit : Int) = 23 := rfl
    omega
  have hfits : ¬ 2 ^ Format.binary32.exponentBits ≤ biased + 1 := by
    rw [show (2 : Nat) ^ Format.binary32.exponentBits = 256 from rfl]
    omega
  have hbits : mantissa.log2 + 1 = Format.binary32.mantissaBits ↔ mantissa.log2 = 23 := by
    rw [show Format.binary32.mantissaBits = 24 from rfl]
    omega
  unfold UnpackedFloat.pack
  simp only [hexponent, if_neg hfits, hbits]
  split <;> rfl

/-- Without the implicit bit, the fraction is packed with exponent zero. -/
theorem pack_subnormal {exponent : Int} (hsmall : UnpackedFloat.unpackExponent b = 0)
    (hpos : 0 < (UnpackedFloat.unpackMantissa b).toNat) (hbiased : exponent + 150 = (1 : Nat)) :
    UnpackedFloat.pack .binary32 (.finite (.ofBitVec (UnpackedFloat.unpackSign b))
      (UnpackedFloat.unpackMantissa b).toNat exponent hpos) = b := by
  have hb := packComponents_unpack b
  have hlog : (UnpackedFloat.unpackMantissa b).toNat.log2 < 23 :=
    (Nat.log2_lt (by omega)).mpr (UnpackedFloat.unpackMantissa b).isLt
  rw [pack_finite hpos hbiased (by decide), if_neg (by omega), BitVec.ofNat_toNat,
    BitVec.setWidth_eq]
  rw [hsmall] at hb
  exact hb

/-- With the implicit bit, the fraction behind it is packed. -/
theorem pack_normal {exponent : Int} (hmax : (UnpackedFloat.unpackExponent b).toNat ≠ 255)
    (hpos : 0 < (1#1 ++ UnpackedFloat.unpackMantissa b).toNat)
    (hbiased : exponent + 150 = (UnpackedFloat.unpackExponent b).toNat) :
    UnpackedFloat.pack .binary32 (.finite (.ofBitVec (UnpackedFloat.unpackSign b))
      (1#1 ++ UnpackedFloat.unpackMantissa b).toNat exponent hpos) = b := by
  have hmantissa : (UnpackedFloat.unpackMantissa b).toNat < 0x800000 :=
    (UnpackedFloat.unpackMantissa b).isLt
  have hexponent : (UnpackedFloat.unpackExponent b).toNat < 256 :=
    (UnpackedFloat.unpackExponent b).isLt
  have happend : (1#1 ++ UnpackedFloat.unpackMantissa b).toNat
      = 0x800000 + (UnpackedFloat.unpackMantissa b).toNat := by
    rw [BitVec.toNat_append, ← Nat.shiftLeft_add_eq_or_of_lt (UnpackedFloat.unpackMantissa b).isLt]
    rfl
  have hlog : (1#1 ++ UnpackedFloat.unpackMantissa b).toNat.log2 = 23 := by
    rw [happend, Nat.log2_eq_iff (by omega)]
    exact ⟨Nat.le_add_right _ _, Nat.add_lt_add_left hmantissa _⟩
  have hfraction : BitVec.ofNat 23 (1#1 ++ UnpackedFloat.unpackMantissa b).toNat
      = UnpackedFloat.unpackMantissa b := by
    apply BitVec.eq_of_toNat_eq
    rw [happend, BitVec.toNat_ofNat, Nat.add_mod_left, Nat.mod_eq_of_lt hmantissa]
  rw [pack_finite hpos hbiased (by omega), if_pos hlog, hfraction, BitVec.ofNat_toNat,
    BitVec.setWidth_eq]
  exact packComponents_unpack b

/-- **Packing.**  A valid bit pattern is packed as it was unpacked. -/
theorem pack_unpack (h : Format.binary32.Valid b) :
    UnpackedFloat.pack .binary32 (UnpackedFloat.unpack .binary32 b) = b := by
  have hb := packComponents_unpack b
  have hbias : (Format.binary32.exponentBias : Int) = 127 := rfl
  unfold UnpackedFloat.unpack
  dsimp only
  split
  next hmax =>
    split
    next hzero =>
      rw [hmax, hzero] at hb
      exact hb
    next hzero => exact (h.eq_packedNaN hmax hzero).symm
  next hmax =>
    split
    next hsmall =>
      split
      next hzero =>
        rw [hsmall, hzero] at hb
        exact hb
      next hzero =>
        refine pack_subnormal b hsmall (Nat.pos_of_ne_zero fun hnat =>
          hzero (BitVec.eq_of_toNat_eq hnat)) ?_
        rw [hsmall, hbias]
        rfl
    next hsmall =>
      refine pack_normal b (fun hnat => hmax (BitVec.eq_of_toNat_eq hnat)) _ ?_
      rw [hbias]
      omega

theorem ofBits_toBits (x : Float32) : Float32.ofBits x.toBits = x := by
  obtain ⟨⟨bits, hvalid⟩⟩ := x
  have hpack := pack_unpack bits.toBitVec hvalid
  simp only [Float32.ofBits, Float32.toBits, Float32.Model.ofBits, Float32.Model.pack, hpack]

theorem exponent_ne_of_isFinite (h : (UnpackedFloat.unpack .binary32 b).isFinite = true) :
    (UnpackedFloat.unpackExponent b).toNat ≠ 255 := by
  intro hnat
  have hmax : UnpackedFloat.unpackExponent b = -1#8 := BitVec.eq_of_toNat_eq hnat
  unfold UnpackedFloat.unpack at h
  dsimp only at h
  rw [if_pos hmax] at h
  split at h <;> cases h

/-- The magnitude of a finite float is below infinity. -/
theorem magnitude_lt_infinity {x : Float32} (h : x.isFinite = true) :
    x.toBits.toNat % 0x80000000 < infinity := by
  have hexponent := toNat_unpackExponent x.toBits.toBitVec
  have hne := exponent_ne_of_isFinite x.toBits.toBitVec h
  have hbits : x.toBits.toBitVec.toNat = x.toBits.toNat := rfl
  rw [hexponent, hbits] at hne
  unfold infinity
  omega

/-! ### Rounding -/

theorem significand_add_scale (bits : Nat) :
    significand bits + scale bits * 0x800000 = bits := by
  unfold significand scale
  split <;> omega

theorem log2_units {bits : Nat} (h : bits ≠ 0) : Nat.log2 (units bits) - 23 = scale bits := by
  unfold units significand
  split
  next hsmall =>
    have hscale : scale bits = 0 := by
      unfold scale
      omega
    have hlog : bits.log2 < 23 := (Nat.log2_lt h).mpr hsmall
    rw [hscale, Nat.shiftLeft_zero]
    omega
  next hlarge =>
    -- the significand has its leading bit at place 23
    have hlt : bits % 0x800000 < 0x800000 := Nat.mod_lt _ (by decide)
    have hpow : 0 < 2 ^ scale bits := Nat.two_pow_pos _
    have hlog : Nat.log2 ((0x800000 + bits % 0x800000) <<< scale bits) = 23 + scale bits := by
      rw [Nat.shiftLeft_eq, Nat.log2_eq_iff (Nat.mul_ne_zero (by omega) (by omega))]
      constructor
      · rw [Nat.pow_add]
        exact Nat.mul_le_mul_right _ (by omega)
      · rw [Nat.add_right_comm, Nat.pow_add]
        exact Nat.mul_lt_mul_of_pos_right (by omega) hpow
    omega

theorem units_pos {bits : Nat} (h : bits ≠ 0) : 0 < units bits := by
  unfold units significand
  rw [Nat.shiftLeft_eq]
  exact Nat.mul_pos (by split <;> omega) (Nat.two_pow_pos _)

theorem roundDiv_mul (q : Nat) {d : Nat} (hd : 0 < d) : roundDiv (q * d) d = q := by
  have hmod : q * d % d = 0 := Nat.mul_mod_left _ _
  have hnot : ¬ (d < 2 * 0 ∨ d = 2 * 0 ∧ q % 2 = 1) := by omega
  simp only [roundDiv, hmod, Nat.mul_div_cancel _ hd, if_neg hnot]

/-- A ratio that is a finite magnitude is nearest to it. -/
theorem nearest_eq_of_units {n d bits : Nat} (hd : 0 < d) (hbits : bits ≠ 0) (hlt : bits < infinity)
    (h : n <<< 149 = units bits * d) : nearest n d = bits := by
  have hscale : Nat.log2 (n <<< 149 / d) - 23 = scale bits := by
    rw [h, Nat.mul_div_cancel _ hd, log2_units hbits]
  have hround : roundDiv (n <<< 149) (d <<< scale bits) = significand bits := by
    have hexact : n <<< 149 = significand bits * (d <<< scale bits) := by
      rw [h, units, Nat.shiftLeft_eq, Nat.shiftLeft_eq, Nat.mul_assoc, Nat.mul_comm d]
    rw [hexact]
    exact roundDiv_mul _ (by rw [Nat.shiftLeft_eq]; exact Nat.mul_pos hd (Nat.two_pow_pos _))
  simp only [nearest, hscale, hround, significand_add_scale]
  omega

end Binary32

namespace Decimal

variable {bits : Nat} {x : Decimal}

theorem powerOfTen_zero : powerOfTen 0 = 1 := rfl

theorem nearest_of_onGrid? {e : Int} (h : onGrid? bits e = some x) :
    x.nearest = bits ∧ x.exponent = e := by
  unfold onGrid? at h
  dsimp only at h
  split at h
  next hlower hupper =>
    obtain rfl := Option.some.inj h
    split
    · exact ⟨of_decide_eq_true hupper, rfl⟩
    · exact ⟨of_decide_eq_true hlower, rfl⟩
  next hlower _ =>
    obtain rfl := Option.some.inj h
    exact ⟨of_decide_eq_true hlower, rfl⟩
  next _ hupper =>
    obtain rfl := Option.some.inj h
    exact ⟨of_decide_eq_true hupper, rfl⟩
  next => cases h

theorem nearest_exact (hbits : bits ≠ 0) (hlt : bits < Binary32.infinity) :
    (exact bits).nearest = bits := by
  have hunits := Binary32.units_pos hbits
  have hdigits : (exact bits).digits ≠ 0 :=
    Nat.mul_ne_zero (by omega) (Nat.pos_iff_ne_zero.mp (Nat.pow_pos (by decide)))
  -- `5 ^ 149` alone has too many digits for the decimal to be settled by its exponent
  have hlog : 298 ≤ (exact bits).digits.log2 := by
    rw [Nat.le_log2 hdigits]
    calc 2 ^ 298 ≤ Nat.pow 5 149 := by decide +kernel
      _ ≤ Binary32.units bits * Nat.pow 5 149 := Nat.le_mul_of_pos_left _ hunits
  have hexact : (exact bits).numerator <<< 149 = Binary32.units bits * (exact bits).denominator := by
    have htens : Nat.pow 5 149 * (powerOfTen 0 * 2 ^ 149) = powerOfTen 149 := by decide +kernel
    have hwhole : (-149 : Int).toNat = 0 := rfl
    have hplaces : (- -149 : Int).toNat = 149 := rfl
    rw [numerator, denominator, exact, hwhole, hplaces, Nat.shiftLeft_eq, Nat.mul_assoc,
      Nat.mul_assoc, htens]
  have hplaces : (-(exact bits).exponent).toNat = 149 := rfl
  have hexponent : ¬ 40 < (exact bits).exponent := by
    show ¬ (40 : Int) < -149
    decide
  unfold nearest
  rw [if_neg hdigits, if_neg hexponent, if_neg (by omega)]
  exact Binary32.nearest_eq_of_units (Nat.pow_pos (by decide)) hbits hlt hexact

/-- **Shortest decimals.**  The decimal of a finite magnitude rounds to it. -/
theorem nearest_shortest (hlt : bits < Binary32.infinity) :
    (shortest bits).nearest = bits ∧ (shortest bits).exponent ≤ 40 := by
  unfold shortest
  split
  next hzero =>
    subst hzero
    decide
  next hbits =>
    cases hfound : (List.range 100).findSome? fun (i : Nat) => onGrid? bits (39 - i) with
    | none => exact ⟨nearest_exact hbits hlt, by show (-149 : Int) ≤ 40; decide⟩
    | some x =>
      obtain ⟨i, -, hi⟩ := List.exists_of_findSome?_eq_some hfound
      obtain ⟨hnearest, hexponent⟩ := nearest_of_onGrid? hi
      refine ⟨hnearest, ?_⟩
      show x.exponent ≤ 40
      omega

/-- Writing out the zeros of a whole number does not change what it rounds to. -/
theorem nearest_numerator (h : x.exponent ≤ 40) :
    (⟨x.numerator, min x.exponent 0⟩ : Decimal).nearest = x.nearest := by
  obtain ⟨digits, exponent⟩ := x
  obtain hneg | hwhole : exponent < 0 ∨ 0 ≤ exponent := by omega
  · have hzeros : exponent.toNat = 0 := by omega
    have hmin : min exponent 0 = exponent := by omega
    simp only [numerator, hzeros, hmin, powerOfTen_zero, Nat.mul_one]
  · have hmin : min exponent 0 = 0 := by omega
    have hplaces : (-exponent).toNat = 0 := by omega
    have hlarge : ¬ 40 < exponent := Int.not_lt.mpr h
    have hpower : 0 < powerOfTen exponent.toNat := Nat.pow_pos (by decide)
    have hzero : digits * powerOfTen exponent.toNat = 0 ↔ digits = 0 := by
      rw [Nat.mul_eq_zero]
      omega
    simp [nearest, numerator, denominator, hmin, hplaces, hlarge, hzero, powerOfTen_zero]

end Decimal

/-! ### Reading numerals -/

/-- The text after an item of a list: nothing, or a separator. -/
inductive EndsItem : List Char → Prop
  | nil : EndsItem []
  | space (rest : List Char) : EndsItem (' ' :: rest)
  | tab (rest : List Char) : EndsItem ('\t' :: rest)
  | comma (rest : List Char) : EndsItem (',' :: rest)

/-- What is taken from a text up to the first character of another kind. -/
theorem span_append {p : Char → Bool} {text rest : List Char} (htext : ∀ c ∈ text, p c = true)
    (hrest : ∀ c ∈ rest.head?, p c = false) :
    (text ++ rest).takeWhile p = text ∧ (text ++ rest).dropWhile p = rest := by
  rw [List.takeWhile_append_of_pos htext, List.dropWhile_append_of_pos htext]
  cases rest with
  | nil => simp
  | cons c rest =>
    have hc : p c = false := hrest c (by simp)
    simp [hc]

theorem EndsItem.not_isDigit {rest : List Char} (h : EndsItem rest) :
    ∀ c ∈ rest.head?, c.isDigit = false := by
  cases h <;> simp

theorem EndsItem.ne_point {rest : List Char} (h : EndsItem rest) : ∀ c ∈ rest.head?, c ≠ '.' := by
  cases h <;> simp

namespace Numeral

variable {whole fraction rest : List Char}

theorem mantissa?_whole (hne : whole ≠ []) (hwhole : ∀ c ∈ whole, c.isDigit = true)
    (hrest : ∀ c ∈ rest.head?, c.isDigit = false) (hpoint : ∀ c ∈ rest.head?, c ≠ '.') :
    mantissa? (whole ++ rest) = some (whole, [], rest) := by
  obtain ⟨htake, hdrop⟩ := span_append hwhole hrest
  have hempty : whole.isEmpty = false := by simpa using hne
  unfold mantissa?
  rw [htake, hdrop]
  dsimp only
  split
  next => exact absurd rfl (hpoint '.' rfl)
  next => simp [hempty]

theorem mantissa?_point (hne : whole ≠ [] ∨ fraction ≠ []) (hwhole : ∀ c ∈ whole, c.isDigit = true)
    (hfraction : ∀ c ∈ fraction, c.isDigit = true) (hrest : ∀ c ∈ rest.head?, c.isDigit = false) :
    mantissa? (whole ++ '.' :: (fraction ++ rest)) = some (whole, fraction, rest) := by
  have hpoint : ∀ c ∈ ('.' :: (fraction ++ rest)).head?, c.isDigit = false := by simp
  obtain ⟨htake, hdrop⟩ := span_append hwhole hpoint
  obtain ⟨htake', hdrop'⟩ := span_append hfraction hrest
  have hempty : ¬ (whole = [] ∧ fraction = []) := fun h => hne.elim (· h.1) (· h.2)
  simp [mantissa?, htake, hdrop, htake', hdrop', hempty]

theorem exponent_eq (hrest : EndsItem rest) : exponent rest = .found 0 rest := by
  cases hrest <;> rfl

/-- Digits do not begin with a sign. -/
theorem sign_eq {text : List Char} {parts : List Char × List Char × List Char}
    (h : mantissa? text = some parts) (negative : Bool) :
    sign ((if negative then ['-'] else []) ++ text) = (negative, text) := by
  cases negative with
  | true => rfl
  | false =>
    show sign text = _
    unfold sign
    split
    next => simp [mantissa?] at h
    next => simp [mantissa?] at h
    next => rfl

/-- The digits of a decimal on both sides of the point make up its numerator. -/
theorem mantissa?_positionalChars (x : Decimal) (hrest : EndsItem rest) :
    ∃ whole fraction, mantissa? (x.positionalChars false ++ rest) = some (whole, fraction, rest) ∧
      Nat.ofDigitChars 10 (whole ++ fraction) 0 = x.numerator ∧
      (fraction.length : Int) = -min x.exponent 0 := by
  have hdigits : ∀ c ∈ Nat.toDigits 10 x.digits, c.isDigit = true :=
    fun c hc => Nat.isDigit_of_mem_toDigits (by decide) (by decide) hc
  have hzeros : ∀ n, ∀ c ∈ List.replicate n '0', c.isDigit = true := by
    intro n c hc
    rw [(List.mem_replicate.mp hc).2]
    rfl
  have hvalue : Nat.ofDigitChars 10 (Nat.toDigits 10 x.digits) 0 = x.digits :=
    Nat.ofDigitChars_ten_toDigits
  have hne : Nat.toDigits 10 x.digits ≠ [] := Nat.toDigits_ne_nil
  unfold Decimal.positionalChars
  dsimp only
  generalize Nat.toDigits 10 x.digits = digits at *
  split
  next hplaces =>
    -- a whole number
    refine ⟨digits ++ List.replicate x.exponent.toNat '0', [], ?_, ?_, ?_⟩
    · rw [if_neg (by decide), List.append_nil]
      refine mantissa?_whole (by simp [hne]) ?_ hrest.not_isDigit hrest.ne_point
      exact List.forall_mem_append.mpr ⟨hdigits, hzeros _⟩
    · rw [List.append_nil, Nat.ofDigitChars_append, hvalue, Nat.ofDigitChars_replicate_zero,
        Nat.mul_comm]
      rfl
    · rw [List.length_nil]
      omega
  next hplaces =>
    have hexponent : -min x.exponent 0 = ((-x.exponent).toNat : Int) := by omega
    have hnumerator : x.numerator = x.digits := by
      have hwhole : x.exponent.toNat = 0 := by omega
      rw [Decimal.numerator, hwhole, Decimal.powerOfTen_zero, Nat.mul_one]
    rw [hexponent, hnumerator]
    split
    next hshort =>
      -- the point stands among the digits
      refine ⟨digits.take (digits.length - (-x.exponent).toNat),
        digits.drop (digits.length - (-x.exponent).toNat), ?_, ?_, ?_⟩
      · rw [List.append_assoc, List.cons_append]
        refine mantissa?_point (.inl ?_) (fun c hc => hdigits c (List.mem_of_mem_take hc))
          (fun c hc => hdigits c (List.mem_of_mem_drop hc)) hrest.not_isDigit
        intro hnil
        have hlength := congrArg List.length hnil
        rw [List.length_take, List.length_nil] at hlength
        omega
      · rw [List.take_append_drop, hvalue]
      · rw [List.length_drop]
        omega
    next hlong =>
      -- the digits begin after the point
      refine ⟨['0'], List.replicate ((-x.exponent).toNat - digits.length) '0' ++ digits, ?_, ?_, ?_⟩
      · show mantissa? (['0'] ++ '.' :: (_ ++ digits ++ rest)) = _
        exact mantissa?_point (.inl (List.cons_ne_nil _ _)) (hzeros 1)
          (List.forall_mem_append.mpr ⟨hzeros _, hdigits⟩) hrest.not_isDigit
      · rw [List.singleton_append, Nat.ofDigitChars_cons, Nat.ofDigitChars_append,
          Nat.ofDigitChars_replicate_zero]
        simp [hvalue]
      · rw [List.length_append, List.length_replicate]
        omega

theorem scan_positionalChars (negative : Bool) (x : Decimal) (hrest : EndsItem rest) :
    scan ((if negative then ['-'] else []) ++ (x.positionalChars false ++ rest))
      = .found ⟨negative, ⟨x.numerator, min x.exponent 0⟩⟩ rest := by
  obtain ⟨whole, fraction, hmantissa, hvalue, hlength⟩ := mantissa?_positionalChars x hrest
  have hpower : (0 : Int) - fraction.length = min x.exponent 0 := by omega
  simp only [scan, sign_eq hmantissa, hmantissa, exponent_eq hrest, hvalue, hpower]

end Numeral

/-- A float is given by its sign and its magnitude. -/
theorem Binary32.toFloat32_magnitude (x : Float32) :
    toFloat32 (decide (0x80000000 ≤ x.toBits.toNat)) (x.toBits.toNat % 0x80000000) = x := by
  have hlt : x.toBits.toNat < 0x100000000 := x.toBits.toNat_lt
  have hbits : (if decide (0x80000000 ≤ x.toBits.toNat) = true
      then 0x80000000 + x.toBits.toNat % 0x80000000 else x.toBits.toNat % 0x80000000)
      = x.toBits.toNat := by
    simp only [decide_eq_true_iff]
    split <;> omega
  rw [toFloat32, hbits, UInt32.ofNat_toNat, ofBits_toBits]

theorem toList_floatText {x : Float32}
    (hlt : x.toBits.toNat % 0x80000000 < Binary32.infinity) :
    (floatText x).toList = (if decide (0x80000000 ≤ x.toBits.toNat) then ['-'] else [])
      ++ (Decimal.shortest (x.toBits.toNat % 0x80000000)).positionalChars false := by
  have hnumber : ¬ Binary32.infinity < x.toBits.toNat % 0x80000000 := by omega
  have hfinite : ¬ x.toBits.toNat % 0x80000000 = Binary32.infinity := by omega
  simp [floatText, NumberStyle.text, NumberStyle.plain, hnumber, hfinite]

/-- **Floats as text.**  The text of a finite float is read as a numeral that stands for it. -/
theorem scan_floatText {x : Float32} {rest : List Char} (hfinite : x.isFinite = true)
    (hrest : EndsItem rest) :
    ∃ numeral, Numeral.scan ((floatText x).toList ++ rest) = .found numeral rest ∧
      numeral.toFloat32 = x := by
  have hlt := Binary32.magnitude_lt_infinity hfinite
  obtain ⟨hnearest, hexponent⟩ := Decimal.nearest_shortest hlt
  rw [toList_floatText hlt, List.append_assoc]
  refine ⟨_, Numeral.scan_positionalChars _ _ hrest, ?_⟩
  rw [Numeral.toFloat32, Decimal.nearest_numerator hexponent, hnearest]
  exact Binary32.toFloat32_magnitude x

end Shading
