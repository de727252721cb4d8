import EsModule.Proofs.Lexis.Quoted
import EsModule.Syntax.Print.Role
import Mathlib.Algebra.Group.Nat.Defs

/-!
# Numbers are printed exactly, up to a bound

A number without a spelling of its own is printed with the digits of its shortest decimal, and whole
numbers by their digits alone. What is printed for a finite number without a sign is one number
token (`tokens_numberText`). Its value is the number again (`printedNumber_eq_iff`), unless the
number is whole, greater than 2 ^ 63 and below the limit for whole numbers: for all of these the
digits of the greatest integer of 64 bits with a sign are printed.

A fraction that is a whole number of units is rounded to itself (`Binary64.ofRatio_exact`). So the
exact decimal expansion of a number reads back, and with it the shortest decimal does
(`Binary64.ofDecimal_shortest`), whichever of the two `Binary64.shortest` ends with. Writing a
decimal without an exponent keeps what it reads back as (`Decimal.positional_reads`).
-/

namespace EsModule.Number

/-! ## Numbers that are known exactly -/

/-- A quotient without remainder needs no rounding. -/
theorem roundDiv_mul (n : Nat) {den : Nat} (h : 0 < den) : roundDiv (n * den) den = n := by
  unfold roundDiv
  dsimp only
  rw [Nat.mul_mod_left, Nat.mul_div_cancel n h, if_pos (by omega)]

namespace Binary64

theorem toNat_ofIndex {index : Nat} (h : index ≤ infinityIndex) :
    (ofIndex false index).bits.toNat = index := by
  have hlt : index < 2 ^ 64 := Nat.lt_of_le_of_lt h (by decide)
  simp only [ofIndex, Bool.false_eq_true, if_false, Nat.zero_add]
  rw [UInt64.toNat_ofNat', Nat.mod_eq_of_lt hlt]

theorem index_ofIndex {index : Nat} (h : index ≤ infinityIndex) :
    (ofIndex false index).index = index := by
  have hlt : index < Nat.pow 2 63 := Nat.lt_of_le_of_lt h (by decide)
  unfold Binary64.index
  rw [toNat_ofIndex h, Nat.mod_eq_of_lt hlt]

/-- A number without a sign is known by the index of its magnitude. -/
theorem ofIndex_index {x : Binary64} (h : x.isNegative = false) : ofIndex false x.index = x := by
  have hlt : x.bits.toNat < Nat.pow 2 63 := by simpa [isNegative] using h
  have hword : UInt64.ofNat x.bits.toNat = x.bits := UInt64.ofNat_toNat
  simp only [ofIndex, Binary64.index, Nat.mod_eq_of_lt hlt, Bool.false_eq_true, if_false,
    Nat.zero_add, hword]

/-- The magnitude of an index as a significand that a power of two scales. -/
structure Scaled (index shift significand : Nat) : Prop where
  /-- The index is put together from the two. -/
  index_eq : shift * 2 ^ 52 + significand = index
  /-- The significand counts units before it is scaled. -/
  units_eq : unitsOfIndex index = significand * 2 ^ shift
  /-- It has at most 53 bits. -/
  lt : significand < 2 ^ 53
  /-- It has no fewer, unless it is not scaled. -/
  normal : shift = 0 ∨ 2 ^ 52 ≤ significand

theorem exists_scaled (index : Nat) : ∃ shift significand, Scaled index shift significand := by
  have hone : Nat.pow 2 fractionBits = 2 ^ 52 := rfl
  have hsplit := Nat.div_add_mod index (2 ^ 52)
  have hfraction := Nat.mod_lt index (Nat.two_pow_pos 52)
  have hunits : unitsOfIndex index = if index / 2 ^ 52 = 0 then index % 2 ^ 52
      else (2 ^ 52 + index % 2 ^ 52) * 2 ^ (index / 2 ^ 52 - 1) := rfl
  generalize index / 2 ^ 52 = exponent at hsplit hunits
  generalize index % 2 ^ 52 = fraction at hsplit hfraction hunits
  cases exponent with
  | zero => exact ⟨0, fraction, by omega, by simpa using hunits, by omega, .inl rfl⟩
  | succ exponent =>
    exact ⟨exponent, 2 ^ 52 + fraction, by omega, by simpa using hunits, by omega, .inr (by omega)⟩

theorem log2_mul_two_pow {n : Nat} (h : n ≠ 0) (k : Nat) : (n * 2 ^ k).log2 = n.log2 + k := by
  induction k with
  | zero => simp
  | succ k ih =>
    have hne : n * 2 ^ k ≠ 0 := Nat.mul_ne_zero h (Nat.ne_of_gt (Nat.two_pow_pos k))
    rw [Nat.pow_succ, ← Nat.mul_assoc, Nat.mul_comm, Nat.log2_two_mul hne, ih, Nat.add_assoc]

/-- The number of bits tells by which power of two a significand was scaled. -/
theorem Scaled.log2_units {index shift significand : Nat} (h : Scaled index shift significand) :
    (unitsOfIndex index).log2 - fractionBits = shift := by
  unfold fractionBits
  by_cases hzero : significand = 0
  · have hshift : shift = 0 := h.normal.resolve_right (by omega)
    rw [h.units_eq, hzero, hshift]
    rfl
  · have hlog : (unitsOfIndex index).log2 = significand.log2 + shift := by
      rw [h.units_eq, log2_mul_two_pow hzero]
    have hlt : significand.log2 < 53 := (Nat.log2_lt hzero).mpr h.lt
    rcases h.normal with hshift | hnormal
    · omega
    · have hle : 52 ≤ significand.log2 := (Nat.le_log2 hzero).mpr hnormal
      omega

/-- A fraction that is a whole number of units below infinity is a number itself. -/
theorem ofRatio_exact {num den index : Nat} (hden : 0 < den) (hindex : index < infinityIndex)
    (h : num * Nat.pow 2 unitExponent = unitsOfIndex index * den) :
    ofRatio num den = ofIndex false index := by
  obtain ⟨shift, significand, hscaled⟩ := exists_scaled index
  have hquot : num * Nat.pow 2 unitExponent / den = unitsOfIndex index := by
    rw [h, Nat.mul_div_cancel _ hden]
  have hround : roundDiv (num * Nat.pow 2 unitExponent) (den * Nat.pow 2 shift) = significand := by
    have hpower : Nat.pow 2 shift = 2 ^ shift := rfl
    rw [h, hscaled.units_eq, hpower, Nat.mul_assoc, Nat.mul_comm (2 ^ shift)]
    exact roundDiv_mul significand (Nat.mul_pos hden (Nat.two_pow_pos shift))
  unfold ofRatio
  dsimp only
  rw [hquot, hscaled.log2_units, hround, show Nat.pow 2 fractionBits = 2 ^ 52 from rfl,
    hscaled.index_eq, Nat.min_eq_right (Nat.le_of_lt hindex)]

theorem isFinite_iff {x : Binary64} : x.isFinite = true ↔ x.index < infinityIndex := by
  simp [isFinite]

/-- A whole number without a sign is known by its magnitude. -/
theorem ofNat_truncated {x : Binary64} (hwhole : x.isInteger = true) (hsign : x.isNegative = false) :
    ofNat x.truncated = x := by
  simp only [isInteger, Bool.and_eq_true, beq_iff_eq] at hwhole
  obtain ⟨hfin, hrem⟩ := hwhole
  have hunits : x.truncated * Nat.pow 2 unitExponent = unitsOfIndex x.index * 1 := by
    rw [Nat.mul_one]
    exact Nat.div_mul_cancel (Nat.dvd_of_mod_eq_zero hrem)
  exact (ofRatio_exact Nat.one_pos (isFinite_iff.mp hfin) hunits).trans (ofIndex_index hsign)

end Binary64

/-! ## Digits -/

theorem readDigits_append (radix : Nat) (cs ds : List Char) :
    readDigits radix (cs ++ ds) = readDigits radix cs * radix ^ ds.length + readDigits radix ds := by
  have hfold : ∀ n, ds.foldl (fun n c => n * radix + (digitValue? c).getD 0) n =
      n * radix ^ ds.length + readDigits radix ds := by
    unfold readDigits
    induction ds with
    | nil => simp
    | cons d ds ih =>
      intro n
      rw [List.foldl_cons, List.foldl_cons, ih, ih (0 * radix + _), List.length_cons, Nat.pow_succ,
        Nat.zero_mul, Nat.zero_add, Nat.add_mul, Nat.add_assoc, Nat.mul_assoc,
        Nat.mul_comm (radix ^ _)]
  rw [readDigits, List.foldl_append, hfold]
  rfl

theorem readDigits_zeros (radix count : Nat) : readDigits radix (List.replicate count '0') = 0 := by
  induction count with
  | zero => rfl
  | succ count ih =>
    have hzero : readDigits radix ['0'] = 0 := by simp [readDigits, digitValue?]
    rw [List.replicate_succ, ← List.singleton_append, readDigits_append, hzero, ih, Nat.zero_mul]

theorem digitValue?_of_isDigit {c : Char} (h : c.isDigit = true) :
    digitValue? c = some (c.toNat - '0'.toNat) := by
  have hrange := Char.isDigit_iff_toNat.mp h
  have h0 : '0'.toNat = 48 := rfl
  have h9 : '9'.toNat = 57 := rfl
  rw [h0, h9] at hrange
  rw [h0]
  simp [digitValue?, hrange]

/-- The decimal digits of a number are read as that number. -/
theorem readDigits_toDigits (n : Nat) : readDigits 10 (Nat.toDigits 10 n) = n := by
  have hfold : ∀ cs : List Char, (∀ c ∈ cs, c.isDigit = true) →
      ∀ m, cs.foldl (fun n c => n * 10 + (digitValue? c).getD 0) m = Nat.ofDigitChars 10 cs m := by
    intro cs
    unfold Nat.ofDigitChars
    induction cs with
    | nil => exact fun _ _ => rfl
    | cons c cs ih =>
      intro hcs m
      rw [List.foldl_cons, List.foldl_cons, ih (fun d hd => hcs d (List.mem_cons_of_mem c hd)),
        digitValue?_of_isDigit (hcs c List.mem_cons_self), Option.getD_some, Nat.mul_comm m]
  have hdigits : ∀ c ∈ Nat.toDigits 10 n, c.isDigit = true := fun c hc =>
    Nat.isDigit_of_mem_toDigits (by decide) (by decide) hc
  exact (hfold _ hdigits 0).trans Nat.ofDigitChars_ten_toDigits

theorem decimalWidth_le_iff {n k : Nat} (hk : 0 < k) : decimalWidth n ≤ k ↔ n < 10 ^ k :=
  Nat.length_toDigits_le_iff (by decide) hk

/-- A power of ten adds as many digits. -/
theorem decimalWidth_mul_pow {n : Nat} (hn : n ≠ 0) (k : Nat) :
    decimalWidth (n * 10 ^ k) = decimalWidth n + k := by
  induction k with
  | zero => simp
  | succ k ih =>
    have hpos : 0 < n * 10 ^ k := Nat.mul_pos (Nat.pos_of_ne_zero hn) (Nat.pow_pos (by decide))
    have happend := Nat.toDigits_append_toDigits (b := 10) (by decide) hpos (by decide : 0 < 10)
    rw [Nat.add_zero] at happend
    have hlength := congrArg List.length happend
    rw [List.length_append] at hlength
    have hmul : n * 10 ^ (k + 1) = 10 * (n * 10 ^ k) := by
      rw [Nat.pow_succ, ← Nat.mul_assoc, Nat.mul_comm]
    have hone : (Nat.toDigits 10 0).length = 1 := rfl
    unfold decimalWidth at ih ⊢
    rw [hmul]
    omega

/-- Digits that are shifted to the left give the same number. -/
theorem Binary64.ofDecimal_shift (digits k : Nat) :
    ofDecimal ⟨digits * 10 ^ k, 0⟩ = ofDecimal ⟨digits, k⟩ := by
  by_cases hzero : digits = 0
  · subst hzero
    simp [ofDecimal]
  · have hne : digits * 10 ^ k ≠ 0 :=
      Nat.ne_of_gt (Nat.mul_pos (Nat.pos_of_ne_zero hzero) (Nat.pow_pos (by decide)))
    simp [ofDecimal, hzero, hne, decimalWidth_mul_pow hzero, Int.toNat_natCast]

/-! ## Decimals without an exponent -/

/-- Digits, and perhaps a point with digits behind it. -/
def IsPlain (text : List Char) : Prop :=
  ∃ whole fraction, whole ≠ [] ∧ (∀ c ∈ whole, c.isDigit = true) ∧
    (∀ c ∈ fraction, c.isDigit = true) ∧ (text = whole ∨ text = whole ++ '.' :: fraction)

namespace Decimal

theorem takeWhile_digits {whole : List Char} (h : ∀ c ∈ whole, c.isDigit = true)
    (tail : List Char) (htail : tail.head? = some '.' ∨ tail = []) :
    (whole ++ tail).takeWhile Char.isDigit = whole ∧ (whole ++ tail).dropWhile Char.isDigit = tail := by
  have hstop : tail.takeWhile Char.isDigit = [] ∧ tail.dropWhile Char.isDigit = tail := by
    rcases htail with hpoint | rfl
    · obtain ⟨r, rfl⟩ := List.head?_eq_some_iff.mp hpoint
      exact ⟨rfl, rfl⟩
    · exact ⟨rfl, rfl⟩
  rw [List.takeWhile_append_of_pos h, List.dropWhile_append_of_pos h, hstop.1, hstop.2]
  exact ⟨List.append_nil _, rfl⟩

theorem read?_whole {whole : List Char} (hne : whole ≠ []) (h : ∀ c ∈ whole, c.isDigit = true) :
    read? whole = some ⟨readDigits 10 whole, 0⟩ := by
  obtain ⟨htake, hdrop⟩ := takeWhile_digits h [] (.inr rfl)
  rw [List.append_nil] at htake hdrop
  unfold read?
  dsimp only
  rw [htake, hdrop]
  simp [hne]

theorem read?_point {whole fraction : List Char} (hne : whole ≠ [])
    (h : ∀ c ∈ whole, c.isDigit = true) (hfraction : ∀ c ∈ fraction, c.isDigit = true) :
    read? (whole ++ '.' :: fraction) =
      some ⟨readDigits 10 (whole ++ fraction), -fraction.length⟩ := by
  obtain ⟨htake, hdrop⟩ := takeWhile_digits h ('.' :: fraction) (.inl rfl)
  obtain ⟨hall, hnone⟩ := takeWhile_digits hfraction [] (.inr rfl)
  rw [List.append_nil] at hall hnone
  unfold read?
  dsimp only
  rw [htake, hdrop]
  simp [hne, hall, hnone]

theorem zeros_isDigit (count : Nat) : ∀ c ∈ List.replicate count '0', c.isDigit = true := by
  intro c hc
  rw [(List.mem_replicate.mp hc).2]
  rfl

/-- Digits with zeros behind them. -/
theorem read?_raised {digits : List Char} (hne : digits ≠ []) (h : ∀ c ∈ digits, c.isDigit = true)
    (count : Nat) : IsPlain (digits ++ List.replicate count '0') ∧
      read? (digits ++ List.replicate count '0') = some ⟨readDigits 10 digits * 10 ^ count, 0⟩ := by
  have hwhole : ∀ c ∈ digits ++ List.replicate count '0', c.isDigit = true := by
    intro c hc
    exact (List.mem_append.mp hc).elim (h c) (zeros_isDigit count c)
  have hnil := List.append_ne_nil_of_left_ne_nil hne (List.replicate count '0')
  have hread := read?_whole hnil hwhole
  rw [readDigits_append, readDigits_zeros, List.length_replicate, Nat.add_zero] at hread
  exact ⟨⟨_, [], hnil, hwhole, nofun, .inl rfl⟩, hread⟩

/-- A point and zeros in front of digits. -/
theorem read?_lowered {digits : List Char} (h : ∀ c ∈ digits, c.isDigit = true) {places : Nat}
    (hfew : digits.length ≤ places) :
    IsPlain (['0', '.'] ++ List.replicate (places - digits.length) '0' ++ digits) ∧
      read? (['0', '.'] ++ List.replicate (places - digits.length) '0' ++ digits) =
        some ⟨readDigits 10 digits, -places⟩ := by
  have htext : ['0', '.'] ++ List.replicate (places - digits.length) '0' ++ digits =
      ['0'] ++ '.' :: (List.replicate (places - digits.length) '0' ++ digits) :=
    List.append_assoc ..
  have hfraction : ∀ c ∈ List.replicate (places - digits.length) '0' ++ digits,
      c.isDigit = true := by
    intro c hc
    exact (List.mem_append.mp hc).elim (zeros_isDigit _ c) (h c)
  have hzero : readDigits 10 ['0'] = 0 := readDigits_zeros 10 1
  have hread := read?_point (List.cons_ne_nil '0' []) (zeros_isDigit 1) hfraction
  rw [readDigits_append, readDigits_append, readDigits_zeros, hzero, List.length_append,
    List.length_replicate, Nat.sub_add_cancel hfew, Nat.zero_mul, Nat.zero_mul, Nat.zero_add,
    Nat.zero_add] at hread
  rw [htext]
  exact ⟨⟨['0'], _, List.cons_ne_nil _ _, zeros_isDigit 1, hfraction, .inr rfl⟩, hread⟩

/-- A point among digits, with so many of them behind it. -/
theorem read?_parted {digits : List Char} (h : ∀ c ∈ digits, c.isDigit = true) {places : Nat}
    (hmany : places < digits.length) :
    IsPlain (digits.take (digits.length - places) ++ '.' :: digits.drop (digits.length - places)) ∧
      read? (digits.take (digits.length - places) ++ '.' :: digits.drop (digits.length - places)) =
        some ⟨readDigits 10 digits, -places⟩ := by
  have hplace : (digits.drop (digits.length - places)).length = places := by
    rw [List.length_drop]
    omega
  have hsplit := List.take_append_drop (digits.length - places) digits
  generalize digits.drop (digits.length - places) = fraction at hplace hsplit
  have hnil : digits.take (digits.length - places) ≠ [] := by
    rw [← List.length_pos_iff, List.length_take]
    omega
  generalize digits.take (digits.length - places) = whole at hsplit hnil
  subst hsplit hplace
  have hwhole := fun c hc => h c (List.mem_append_left fraction hc)
  have hfraction := fun c hc => h c (List.mem_append_right whole hc)
  exact ⟨⟨whole, fraction, hnil, hwhole, hfraction, .inr rfl⟩, read?_point hnil hwhole hfraction⟩

/-- A decimal that is written without an exponent is plain, and reads back as the number nearest to
it. -/
theorem positional_reads (d : Decimal) : IsPlain d.positional ∧
    ∃ d', read? d.positional = some d' ∧ Binary64.ofDecimal d' = .ofDecimal d := by
  have hdigits : ∀ c ∈ Nat.toDigits 10 d.digits, c.isDigit = true := fun c hc =>
    Nat.isDigit_of_mem_toDigits (by decide) (by decide) hc
  have hread := readDigits_toDigits d.digits
  unfold positional
  dsimp only
  by_cases hexp : 0 ≤ d.exponent
  · rw [if_pos hexp]
    obtain ⟨hplain, hraised⟩ := read?_raised Nat.toDigits_ne_nil hdigits d.exponent.toNat
    refine ⟨hplain, _, hraised, ?_⟩
    rw [hread, Binary64.ofDecimal_shift, Int.toNat_of_nonneg hexp]
  · rw [if_neg hexp]
    have hplaces : -((-d.exponent).toNat : Int) = d.exponent := by omega
    generalize (-d.exponent).toNat = places at hplaces ⊢
    by_cases hfew : (Nat.toDigits 10 d.digits).length ≤ places
    · rw [if_pos hfew]
      obtain ⟨hplain, hlowered⟩ := read?_lowered hdigits hfew
      rw [hread, hplaces] at hlowered
      exact ⟨hplain, d, hlowered, rfl⟩
    · rw [if_neg hfew]
      obtain ⟨hplain, hparted⟩ := read?_parted hdigits (Nat.not_le.mp hfew)
      rw [hread, hplaces] at hparted
      exact ⟨hplain, d, hparted, rfl⟩

end Decimal

/-! ## The shortest decimal -/

namespace Binary64

/-- Finite magnitudes are below the power of two in whose place infinity stands. -/
theorem units_lt {x : Binary64} (h : x.isFinite = true) {bits : Nat} (hbits : 2098 ≤ bits) :
    x.units < 2 ^ bits := by
  obtain ⟨shift, significand, hscaled⟩ := exists_scaled x.index
  have hindex : shift * 2 ^ 52 + significand < 2047 * 2 ^ 52 :=
    hscaled.index_eq.symm ▸ isFinite_iff.mp h
  have hshift : 53 + shift ≤ bits := by
    rcases hscaled.normal with hzero | hnormal <;> omega
  have hlt : significand * 2 ^ shift < 2 ^ (53 + shift) := by
    rw [Nat.pow_add]
    exact Nat.mul_lt_mul_of_pos_right hscaled.lt (Nat.two_pow_pos shift)
  rw [units, hscaled.units_eq]
  exact Nat.lt_of_lt_of_le hlt (Nat.pow_le_pow_right Nat.two_pos hshift)

theorem units_ne_zero {x : Binary64} (h : x.index ≠ 0) : x.units ≠ 0 := by
  obtain ⟨shift, significand, hscaled⟩ := exists_scaled x.index
  have hindex := hscaled.index_eq
  have hsignificand : significand ≠ 0 := by
    rcases hscaled.normal with hzero | hnormal <;> omega
  rw [units, hscaled.units_eq]
  exact Nat.mul_ne_zero hsignificand (Nat.ne_of_gt (Nat.two_pow_pos shift))

/-- A whole number of ordinary magnitude is rounded as it is. -/
theorem ofDecimal_whole {n : Nat} (h : n < 10 ^ 310) : ofDecimal ⟨n, 0⟩ = ofNat n := by
  by_cases hzero : n = 0
  · subst hzero
    decide +kernel
  · have hwidth : decimalWidth n ≤ 310 := (decimalWidth_le_iff (by decide)).mpr h
    have h1 : ¬ greatestMagnitude < (decimalWidth n : Int) + 0 := by
      unfold greatestMagnitude
      omega
    have h2 : ¬ (decimalWidth n : Int) + 0 < leastMagnitude := by
      unfold leastMagnitude
      omega
    unfold ofDecimal
    dsimp only
    rw [if_neg hzero, if_neg h1, if_neg h2, if_pos (Int.le_refl 0)]
    exact congrArg (ofRatio · 1) (Nat.mul_one n)

/-- A decimal of ordinary magnitude is rounded as a fraction. -/
theorem ofDecimal_places {digits places : Nat} (hdigits : digits ≠ 0) (hplaces : places ≠ 0)
    (hgreat : decimalWidth digits ≤ 310 + places) (hleast : places ≤ 330 + decimalWidth digits) :
    ofDecimal ⟨digits, -places⟩ = ofRatio digits (10 ^ places) := by
  have h1 : ¬ greatestMagnitude < (decimalWidth digits : Int) + -places := by
    unfold greatestMagnitude
    omega
  have h2 : ¬ (decimalWidth digits : Int) + -places < leastMagnitude := by
    unfold leastMagnitude
    omega
  have h3 : ¬ (0 : Int) ≤ -places := by omega
  unfold ofDecimal
  dsimp only
  rw [if_neg hdigits, if_neg h1, if_neg h2, if_neg h3, Int.neg_neg, Int.toNat_natCast]
  rfl

/-- The exact decimal expansion of a positive finite number reads back. -/
theorem ofDecimal_exactDecimal {x : Binary64} (hfin : x.isFinite = true) (hpos : x.index ≠ 0) :
    ofDecimal x.exactDecimal = ofIndex false x.index := by
  have hunits := units_ne_zero hpos
  have hleast : 10 ^ 744 ≤ Nat.pow 5 unitExponent := by decide +kernel
  have hbound := units_lt hfin (Nat.le_refl 2098)
  have hgreat : 2 ^ 2098 * Nat.pow 5 unitExponent ≤ 10 ^ 1384 := by decide +kernel
  have hratio : Nat.pow 5 unitExponent * Nat.pow 2 unitExponent = 10 ^ unitExponent := by
    decide +kernel
  unfold exactDecimal
  generalize Nat.pow 5 unitExponent = scale at hleast hgreat hratio ⊢
  have hden : 0 < 10 ^ unitExponent := Nat.pow_pos (by decide)
  have hscale : 0 < scale := Nat.lt_of_lt_of_le (Nat.pow_pos (by decide)) hleast
  have hwide : ¬ decimalWidth (x.units * scale) ≤ 744 := by
    rw [decimalWidth_le_iff (by decide), Nat.not_lt]
    exact Nat.le_trans hleast (Nat.le_mul_of_pos_left scale (Nat.pos_of_ne_zero hunits))
  have hnarrow : decimalWidth (x.units * scale) ≤ 1384 := by
    rw [decimalWidth_le_iff (by decide)]
    exact Nat.lt_of_lt_of_le (Nat.mul_lt_mul_of_pos_right hbound hscale) hgreat
  rw [ofDecimal_places (Nat.mul_ne_zero hunits (Nat.ne_of_gt hscale)) (by decide)
    (Nat.le_trans hnarrow (by decide)) ?_]
  · have hexact : x.units * scale * Nat.pow 2 unitExponent =
        unitsOfIndex x.index * 10 ^ unitExponent := by
      rw [Nat.mul_assoc, hratio, units]
    exact ofRatio_exact hden (isFinite_iff.mp hfin) hexact
  · unfold unitExponent
    omega

theorem neighbour?_reads {reads : Decimal → Bool} {count num den : Nat} {exponent : Int}
    {d : Decimal} (h : neighbour? reads count exponent num den = some d) : reads d = true := by
  unfold neighbour? at h
  dsimp only at h
  split at h
  · rename_i hlower hupper
    obtain rfl := Option.some.inj h
    split
    · exact hlower
    · exact hupper
  · rename_i hlower _
    obtain rfl := Option.some.inj h
    exact hlower
  · rename_i _ hupper
    obtain rfl := Option.some.inj h
    exact hupper
  · cases h

theorem index_nearestWith {x : Binary64} {count : Nat} {d : Decimal}
    (h : x.nearestWith count = some d) : (ofDecimal d).index = x.index := by
  unfold nearestWith at h
  exact eq_of_beq (neighbour?_reads h)

/-- Reading a decimal gives no sign and nothing beyond infinity. -/
theorem exists_ofDecimal (d : Decimal) :
    ∃ index ≤ infinityIndex, ofDecimal d = ofIndex false index := by
  have hratio : ∀ num den, ∃ index ≤ infinityIndex, ofRatio num den = ofIndex false index :=
    fun num den => ⟨_, Nat.min_le_left .., rfl⟩
  have hzero : ∃ index ≤ infinityIndex, zero = ofIndex false index := ⟨0, Nat.zero_le _, rfl⟩
  unfold ofDecimal
  dsimp only
  split
  · exact hzero
  split
  · exact ⟨_, Nat.le_refl _, rfl⟩
  split
  · exact hzero
  split
  · exact hratio ..
  · exact hratio ..

/-- The shortest decimal of a finite number reads back as its magnitude. -/
theorem ofDecimal_shortest {x : Binary64} (h : x.isFinite = true) :
    ofDecimal x.shortest = ofIndex false x.index := by
  unfold shortest
  split
  · rename_i hzero
    rw [hzero]
    rfl
  rename_i hpos
  cases hfound : (List.range 17).findSome? fun k => x.nearestWith (k + 1) with
  | none => exact ofDecimal_exactDecimal h hpos
  | some d =>
    obtain ⟨k, -, hk⟩ := List.exists_of_findSome?_eq_some hfound
    obtain ⟨index, hindex, hd⟩ := exists_ofDecimal d
    have hreads := index_nearestWith hk
    rw [hd, index_ofIndex hindex] at hreads
    rw [Option.getD_some, hd, hreads]

end Binary64

end EsModule.Number

namespace EsModule.Syntax

open EsModule.Text EsModule.Number Binary64

/-! ## What is printed -/

theorem isNumeral_of_isDigit {ch : Char} (h : ch.isDigit = true) : isNumeral ch = true := by
  simp [isNumeral, h]

theorem isDigit_ne_underscore {ch : Char} (h : ch.isDigit = true) : (ch != '_') = true := by
  rw [bne_iff_ne]
  rintro rfl
  exact absurd h (by decide)

/-- A plain decimal is the text of a decimal number without an exponent and without underscores. -/
theorem exists_decimalText {text : List Char} (h : IsPlain text) :
    ∃ first numerals fraction, text = first :: (numerals ++ fraction) ∧ first.isDigit = true ∧
      DecimalText first numerals fraction [] ∧ dropUnderscores text = text := by
  obtain ⟨whole, fraction, hne, hwhole, hfraction, htext⟩ := h
  obtain ⟨first, numerals, rfl⟩ := List.exists_cons_of_ne_nil hne
  have hfirst := hwhole first List.mem_cons_self
  have hnumerals : ∀ ch ∈ numerals, isNumeral ch = true := fun ch hch =>
    isNumeral_of_isDigit (hwhole ch (List.mem_cons_of_mem first hch))
  have hplain : dropUnderscores (first :: numerals) = first :: numerals :=
    List.filter_eq_self.mpr fun ch hch => isDigit_ne_underscore (hwhole ch hch)
  rcases htext with rfl | rfl
  · exact ⟨first, numerals, [], by simp, hfirst, ⟨hnumerals, .inl rfl, .inl rfl⟩, hplain⟩
  · have hpoint : first ≠ '.' := by
      rintro rfl
      exact absurd hfirst (by decide)
    have hdigits : ∀ ch ∈ fraction, isNumeral ch = true := fun ch hch =>
      isNumeral_of_isDigit (hfraction ch hch)
    refine ⟨first, numerals, '.' :: fraction, rfl, hfirst,
      ⟨hnumerals, .inr ⟨hpoint, fraction, rfl, hdigits⟩, .inl rfl⟩, ?_⟩
    refine List.filter_eq_self.mpr fun ch hch => ?_
    rcases List.mem_append.mp hch with hmem | hmem
    · exact isDigit_ne_underscore (hwhole ch hmem)
    · rcases List.mem_cons.mp hmem with rfl | hmem
      · decide
      · exact isDigit_ne_underscore (hfraction ch hmem)

/-- A plain decimal is read as one number in front of whatever ends a number. -/
theorem spells_plain {text : List Char} {d : Decimal} (h : IsPlain text)
    (hd : Decimal.read? text = some d) : Spells text (.number (.ofDecimal d)) := by
  obtain ⟨first, numerals, fraction, rfl, hfirst, htext, hdrop⟩ := exists_decimalText h
  have hends : DecimalEnds first fraction [] [] := ⟨by simp, by simp, by simp, by simp⟩
  have hread := decimalNumber_text htext hends 0
  simp only [List.append_nil] at hread
  rw [hdrop, decimalToken, hd, ← number_eq_decimalNumber ?_] at hread
  · obtain ⟨w, hmoves, hhead, htake⟩ := number_takes (.inl hfirst) hread
    have hw : numerals ++ fraction = w := hmoves.rest.trans (List.append_nil w)
    subst hw
    exact fun r hr => isToken_of_number (.inl hfirst) hhead (htake r hr)
  · intro ch hch
    rw [← List.append_nil (numerals ++ fraction)] at hch
    exact htext.radixOf?_head hch

/-- The decimal of a number is printed as one number token with its value. -/
theorem spells_positional (d : Decimal) : Spells d.positional (.number (.ofDecimal d)) := by
  obtain ⟨hplain, d', hread, hvalue⟩ := d.positional_reads
  rw [← hvalue]
  exact spells_plain hplain hread

/-- The number that the printed digits of a number without a sign stand for. -/
def printedNumber (x : Binary64) : Binary64 :=
  if x.isInteger && x.truncated < wholeLimit then .ofNat (min x.truncated (Nat.pow 2 63 - 1)) else x

/-- A finite number without a sign is printed as one number token. -/
theorem spells_numberText {x : Binary64} (hfin : x.isFinite = true) (hsign : x.isNegative = false) :
    Spells (numberText x).toList (.number (printedNumber x)) := by
  have hindex := isFinite_iff.mp hfin
  have hnan : x.isNan = false := decide_eq_false (Nat.lt_asymm hindex)
  have hinf : x.isInfinite = false := beq_false_of_ne (Nat.ne_of_lt hindex)
  unfold numberText printedNumber
  rw [hnan, hinf]
  simp only [Bool.false_eq_true, if_false]
  split
  · have hbound : min x.truncated (Nat.pow 2 63 - 1) < 10 ^ 310 :=
      Nat.lt_of_le_of_lt (Nat.min_le_right ..) (by decide +kernel)
    have hdigits := spells_positional ⟨min x.truncated (Nat.pow 2 63 - 1), 0⟩
    rw [ofDecimal_whole hbound] at hdigits
    rw [String.toList_ofList, wholeDigits, hsign]
    simpa [Decimal.positional] using hdigits
  · have hshort := spells_positional x.shortest
    rw [ofDecimal_shortest hfin, ofIndex_index hsign] at hshort
    rw [String.toList_ofList, Binary64.positional, hsign]
    exact hshort

/-- No number starts with the sign of a first line that is passed over. -/
theorem firstCursor_of_number {text : List Char} {v : Binary64}
    (h : IsToken text (.number v) []) : firstCursor text = ⟨0, text⟩ := by
  have htake := h.takes 0
  rw [List.append_nil] at htake
  obtain ⟨first, cs, hc, hby⟩ := tokenHere_by htake nofun
  obtain rfl : text = first :: cs := hc
  cases hby with
  | number hf _ =>
    unfold firstCursor
    split
    · rename_i heq
      obtain ⟨rfl, -⟩ := List.cons.inj heq
      rcases hf with hdigit | ⟨hpoint, -⟩
      · exact absurd hdigit (by decide)
      · exact absurd hpoint (by decide)
    · rfl

/-- All of the text is that token. -/
theorem tokens_numberText {x : Binary64} (hfin : x.isFinite = true) (hsign : x.isNegative = false) :
    tokens (numberText x).toList =
      [⟨.number (printedNumber x), ⟨0, byteSize (numberText x).toList⟩, false⟩,
        ⟨.eof, ⟨byteSize (numberText x).toList, byteSize (numberText x).toList⟩, false⟩] := by
  have htoken := spells_numberText hfin hsign [] nofun
  exact htoken.tokens nofun (firstCursor_of_number htoken)

/-- The greatest integer of 64 bits with a sign is no number; the nearest one is the next integer. -/
theorem ofNat_last : ofNat (2 ^ 63 - 1) = ofNat (2 ^ 63) := by
  decide +kernel

/-- The value that is printed for a number is the number itself, unless it is whole, greater than
2 ^ 63 and below the limit for whole numbers. -/
theorem printedNumber_eq_iff {x : Binary64} (hsign : x.isNegative = false) :
    printedNumber x = x ↔
      ¬ (x.isInteger = true ∧ 2 ^ 63 < x.truncated ∧ x.truncated < wholeLimit) := by
  have htruncated : (ofNat (2 ^ 63)).truncated = 2 ^ 63 := by decide +kernel
  by_cases hwhole : x.isInteger = true ∧ x.truncated < wholeLimit
  · have hprinted : printedNumber x = ofNat (min x.truncated (2 ^ 63 - 1)) := by
      unfold printedNumber
      rw [hwhole.1, decide_eq_true hwhole.2]
      rfl
    rw [hprinted]
    rcases Nat.lt_trichotomy x.truncated (2 ^ 63) with hlt | heq | hgt
    · rw [Nat.min_eq_left (by omega), ofNat_truncated hwhole.1 hsign]
      exact iff_of_true rfl fun h => Nat.lt_asymm hlt h.2.1
    · rw [heq, Nat.min_eq_right (by omega), ofNat_last, ← heq, ofNat_truncated hwhole.1 hsign]
      exact iff_of_true rfl fun h => Nat.lt_irrefl _ h.2.1
    · rw [Nat.min_eq_right (by omega), ofNat_last]
      refine iff_of_false ?_ fun h => h ⟨hwhole.1, hgt, hwhole.2⟩
      intro heq
      rw [← heq, htruncated] at hgt
      exact Nat.lt_irrefl _ hgt
  · have hprinted : printedNumber x = x := by
      unfold printedNumber
      rw [if_neg (by simpa using hwhole)]
    exact iff_of_true hprinted fun h => hwhole ⟨h.1, h.2.2⟩

/-- All whole numbers in between are printed as one and the same number. -/
theorem printedNumber_of_large {x : Binary64} (hwhole : x.isInteger = true)
    (hlarge : 2 ^ 63 ≤ x.truncated) (hlimit : x.truncated < wholeLimit) :
    printedNumber x = ofNat (2 ^ 63) := by
  unfold printedNumber
  rw [hwhole, decide_eq_true hlimit, Bool.true_and, if_pos rfl, ← ofNat_last]
  exact congrArg ofNat (Nat.min_eq_right (Nat.le_trans (Nat.sub_le ..) hlarge))

example : numberText (ofNat (10 ^ 19)) = "9223372036854775807" := by
  decide +kernel

end EsModule.Syntax
