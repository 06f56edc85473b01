import NodeProbe.Number.Decimal
import NodeProbe.Proofs.Numerals
import NodeProbe.Proofs.Rounding
import NodeProbe.Value.Duration

/-!
# Durations in text

A whole number of units is read in two steps that both round to double precision: the number
itself, and its product with the nanoseconds of the unit. Neither step changes what double
precision holds, and this is all that a duration that was read before needs to be read again.
-/
namespace NodeProbe

open Number Text

/-! ## Whole numbers as floating-point numbers -/

namespace Number

/-- A numeral is no name of infinity or of what is not a number. -/
theorem Numeral.not_sameLetters {cs : List Char} {n : Nat} (h : Numeral 10 cs n)
    (word : List Char) (hword : 'n' ∈ word.map Char.toLower) : sameLetters cs word = false := by
  rw [← Bool.not_eq_true, sameLetters_iff]
  intro hsame
  rw [← hsame] at hword
  obtain ⟨c, hc, hlower⟩ := List.mem_map.mp hword
  obtain ⟨-, ds, hds, -⟩ := h
  obtain ⟨d, hd⟩ := Option.isSome_iff_exists.mp (hds.digit?_isSome (by omega) c hc)
  obtain ⟨hlt, hchar⟩ := (digit?_eq_some (by omega)).mp hd
  rw [hlower] at hchar
  have hdigits : ∀ d < 10, 'n' ≠ d.digitChar := by decide
  exact hdigits d hlt hchar

theorem Format.nearestDecimal_whole {f : Format} (hp : 0 < f.precision) (n : Nat) :
    f.nearestDecimal n 0 = f.nearest n 1 := by
  by_cases hn : n = 0
  · have hexponent : 1 - f.precision = 0 := by omega
    subst hn
    simp [nearestDecimal, nearest, divideToEven, hexponent]
  · simp [nearestDecimal, hn]

/-- A numeral is read as its number, rounded to the precision of the format. -/
theorem Binary.read_numeral {f : Format} (hp : 2 ≤ f.precision) {digits : List Char} {n : Nat}
    (h : Numeral 10 digits n) : ∃ x : Binary f, Binary.read f digits = .ok x ∧
      x.StandsFor (roundBits f.precision n) := by
  have hsplit : splitSign digits = (false, digits) := splitSign_append .none (h.unsigned (by omega))
  have hwhole : digits.takeWhile Char.isDigit = digits := List.takeWhile_eq_self_iff.mpr h.isDigit
  have hrest : digits.dropWhile Char.isDigit = [] := List.dropWhile_eq_nil_iff.mpr h.isDigit
  have hmagnitude : readMagnitude f digits = some (f.nearest n 1) := by
    unfold readMagnitude
    simp [hwhole, hrest, readExponent, h.1, h.ofDigitChars, f.nearestDecimal_whole (by omega)]
  have hnan := h.not_sameLetters ['n', 'a', 'n'] (by decide)
  have hinf := h.not_sameLetters ['i', 'n', 'f'] (by decide)
  have hinfinity := h.not_sameLetters ['i', 'n', 'f', 'i', 'n', 'i', 't', 'y'] (by decide)
  refine ⟨ofNat n, ?_, ofNat_standsFor hp n⟩
  have hrank : min (f.nearest n 1) f.infinity = f.nearest n 1 := Nat.min_eq_left (f.nearest_le n 1)
  unfold Binary.read
  simp [hsplit, h.1, hnan, hinf, hinfinity, hmagnitude, hrank, ofNat, ofRatio]

end Number

/-! ## Reading -/

namespace Duration

/-- The units of a duration and their nanoseconds; a bare number counts milliseconds. -/
def units : List (String × Nat) :=
  [("ns", 1), ("us", 10 ^ 3), ("", 10 ^ 6), ("ms", 10 ^ 6), ("s", 10 ^ 9), ("m", 60 * 10 ^ 9),
    ("h", 3600 * 10 ^ 9)]

/-- The nanoseconds of `n` units after both roundings. -/
def wholeNanos (n factor : Nat) : Nat := roundBits 53 (roundBits 53 n * factor)

theorem wholeNanos_mono {m n : Nat} (h : m ≤ n) (factor : Nat) :
    wholeNanos m factor ≤ wholeNanos n factor :=
  roundBits_mono (by decide) (Nat.mul_le_mul_right _ (roundBits_mono (by decide) h))

/-- Nothing is rounded when the number and its product have no more bits than double precision. -/
theorem wholeNanos_of_fits {n factor : Nat} (hn : FitsBits 53 n) (h : FitsBits 53 (n * factor)) :
    wholeNanos n factor = n * factor := by
  unfold wholeNanos
  rw [roundBits_of_fits (by decide) hn, roundBits_of_fits (by decide) h]

theorem lt_infinity {n : Nat} (h : n ≤ maxUInt64 + 1) :
    n * Format.double.one < Format.double.units Format.double.infinity := by
  have hlimit : (maxUInt64 + 1) * Format.double.one < Format.double.units Format.double.infinity := by
    decide +kernel
  exact (Nat.mul_le_mul_right _ h).trans_lt hlimit

/-- A natural number of no more bits than double precision has is held as it is. -/
theorem ofNat_standsFor_of_fits {n : Nat} (h : FitsBits 53 n) :
    (Binary.ofNat n : Binary64).StandsFor n := by
  have hround : (Binary.ofNat n : Binary64).StandsFor (roundBits 53 n) :=
    Binary.ofNat_standsFor (by decide) n
  rwa [roundBits_of_fits (by decide) h] at hround

/-- A number past `2 ^ 64` is refused, and `2 ^ 64` is cut. -/
theorem ofBinary?_standsFor {x : Binary64} {w : Nat} (h : x.StandsFor w) :
    ofBinary? x = if maxUInt64 + 1 < w then none else some ⟨min w maxUInt64⟩ := by
  have hsmall := lt_infinity (Nat.le_refl (maxUInt64 + 1))
  have hlimit : (Binary.ofNat (maxUInt64 + 1) : Binary64).StandsFor (maxUInt64 + 1) :=
    ofNat_standsFor_of_fits ⟨1, 64, by decide, by decide⟩
  have hrank : (Binary.ofNat (maxUInt64 + 1) : Binary64).rank < x.rank ↔
      (maxUInt64 + 1) * Format.double.one < x.units := by
    rw [← hlimit.units_of_finite hsmall]
    exact Format.double.units_strictMono.lt_iff_lt.symm
  unfold ofBinary?
  by_cases hlarge : maxUInt64 + 1 < w
  · have hbeyond : (Binary.ofNat (maxUInt64 + 1) : Binary64).rank < x.rank := by
      rw [hrank, h.units_eq]
      exact Nat.lt_min.mpr ⟨Nat.mul_lt_mul_of_pos_right hlarge Format.double.one_pos, hsmall⟩
    simp [hlarge, hbeyond]
  · have hfinite := lt_infinity (Nat.not_lt.mp hlarge)
    have hwithin : ¬ (Binary.ofNat (maxUInt64 + 1) : Binary64).rank < x.rank := by
      rw [hrank, h.units_of_finite hfinite]
      exact Nat.not_lt.mpr (Nat.mul_le_mul_right _ (Nat.not_lt.mp hlarge))
    simp [hlarge, hwithin, h.isFinite hfinite, h.roundAway hfinite]

theorem units_spec : ∀ unit factor, (unit, factor) ∈ units → unitNanos? unit = some factor ∧
    trim unit.toList = unit.toList ∧
    unit.toList.takeWhile (fun c => c.isDigit || c == '.') = [] ∧ 0 < factor ∧ factor ≤ 2 ^ 53 := by
  have htable : ∀ u ∈ units, unitNanos? u.1 = some u.2 ∧ trim u.1.toList = u.1.toList ∧
      u.1.toList.takeWhile (fun c => c.isDigit || c == '.') = [] ∧ 0 < u.2 ∧ u.2 ≤ 2 ^ 53 := by
    decide
  exact fun unit factor hunit => htable (unit, factor) hunit

/-- A whole number of units is read with both roundings. -/
theorem read?_whole {digits : List Char} {n : Nat} (hdigits : Numeral 10 digits n) {unit : String}
    {factor : Nat} (hunit : (unit, factor) ∈ units) :
    read? (digits ++ unit.toList) = if maxUInt64 + 1 < wholeNanos n factor then none
      else some ⟨min (wholeNanos n factor) maxUInt64⟩ := by
  obtain ⟨hfactor, htrim, hnumeric, hpos, hsize⟩ := units_spec _ _ hunit
  have hnumber : ∀ c ∈ digits, (c.isDigit || c == '.') = true :=
    fun c hc => by rw [hdigits.isDigit c hc, Bool.true_or]
  have hrest : (unit.toList.dropWhile fun c => c.isDigit || c == '.') = unit.toList := by
    have hwhole := List.takeWhile_append_dropWhile (p := fun c : Char => c.isDigit || c == '.')
      (l := unit.toList)
    rwa [hnumeric] at hwhole
  obtain ⟨amount, hread, hamount⟩ := Binary.read_numeral (f := .double) (by decide) hdigits
  have hproduct : (amount * Binary.ofNat factor).StandsFor (wholeNanos n factor) :=
    Binary.mul_standsFor (by decide) hamount
      (ofNat_standsFor_of_fits (fitsBits_of_le (by decide) hsize))
      (roundsTo_roundBits (by decide) n).fits hpos (lt_infinity (hsize.trans (by decide)))
  unfold read?
  simp only [List.takeWhile_append_of_pos hnumber, List.dropWhile_append_of_pos hnumber, hnumeric,
    hrest, List.append_nil, hread, htrim, String.ofList_toList, hfactor, Option.bind_some]
  exact ofBinary?_standsFor hproduct

/-! ## Writing and reading again -/

/-- What is read is the longest duration, or has no more bits than double precision. -/
theorem fits_of_ofBinary? {x : Binary64} {d : Duration} (h : ofBinary? x = some d) :
    d.nanos ≤ maxUInt64 ∧ (d.nanos = maxUInt64 ∨ FitsBits 53 d.nanos) := by
  unfold ofBinary? at h
  split at h
  · cases h
  · cases h
    dsimp only
    refine ⟨Nat.min_le_right _ _, ?_⟩
    rcases Nat.le_total x.roundAway.toNat maxUInt64 with hle | hge
    · rw [Nat.min_eq_left hle]
      exact .inr (x.roundAway_fits (by decide))
    · exact .inl (Nat.min_eq_right hge)

theorem fits_of_read? {cs : List Char} {d : Duration} (h : read? cs = some d) :
    d.nanos ≤ maxUInt64 ∧ (d.nanos = maxUInt64 ∨ FitsBits 53 d.nanos) := by
  unfold read? at h
  dsimp only at h
  split at h
  · cases h
  · obtain ⟨factor, -, hproduct⟩ := Option.bind_eq_some_iff.mp h
    exact fits_of_ofBinary? hproduct

/-- A duration is written as a whole number of a unit. -/
theorem text_whole (d : Duration) : ∃ n unit factor, (unit, factor) ∈ units ∧
    d.text.toList = Nat.toDigits 10 n ++ unit.toList ∧ n * factor = d.nanos := by
  unfold text
  dsimp only
  split
  · refine ⟨d.nanos, "ns", 1, by decide, ?_, Nat.mul_one _⟩
    rw [String.toList_append, Nat.toList_repr]
  · split
    · refine ⟨d.nanos / 1000000 / 1000, "s", 10 ^ 9, by decide, ?_, by omega⟩
      rw [String.toList_append, Nat.toList_repr]
    · refine ⟨d.nanos / 1000000, "ms", 10 ^ 6, by decide, ?_, by omega⟩
      rw [String.toList_append, Nat.toList_repr]

theorem read?_text_of_fits {d : Duration} (hmost : d.nanos ≤ maxUInt64) (hfits : FitsBits 53 d.nanos) :
    read? d.text.toList = some d := by
  obtain ⟨n, unit, factor, hunit, htext, hnanos⟩ := d.text_whole
  obtain ⟨-, -, -, hpos, -⟩ := units_spec _ _ hunit
  rw [← hnanos] at hfits
  rw [htext, read?_whole (numeral_toDigits (by decide) (by decide) n) hunit,
    wholeNanos_of_fits (hfits.of_mul hpos) hfits, hnanos, if_neg (by omega), Nat.min_eq_left hmost]

/-- The text of a duration that was read is read as the same duration. -/
theorem accepted_duration_reads_back {cs : List Char} {d : Duration} (h : read? cs = some d) :
    read? d.text.toList = some d ∧ d.nanos ≤ maxUInt64 := by
  obtain ⟨hmost, hlongest | hfits⟩ := fits_of_read? h
  · obtain ⟨nanos⟩ := d
    cases hlongest
    exact ⟨by decide +kernel, Nat.le_refl _⟩
  · exact ⟨read?_text_of_fits hmost hfits, hmost⟩

theorem fraction_of_hour_reads_back :
    read? "5124095.57603h".toList = some ⟨18446744073708001280⟩ ∧
      read? (Duration.text ⟨18446744073708001280⟩).toList = some ⟨18446744073708001280⟩ ∧
      18446744073708001280 ≤ maxUInt64 := by
  have hread : read? "5124095.57603h".toList = some ⟨18446744073708001280⟩ := by decide +kernel
  exact ⟨hread, accepted_duration_reads_back hread⟩

/-! ## Whole numbers of a unit -/

section

variable {unit : String} {factor : Nat} (hunit : (unit, factor) ∈ units)
include hunit

/-- Both roundings together lead no further than to `2 ^ 64`, nor back from there. -/
theorem wholeNanos_limit (n : Nat) :
    (n * factor ≤ maxUInt64 → wholeNanos n factor ≤ maxUInt64 + 1) ∧
      (maxUInt64 < n * factor → maxUInt64 < wholeNanos n factor) := by
  obtain ⟨-, -, -, hpos, -⟩ := units_spec _ _ hunit
  have hlimits : ∀ u ∈ units, wholeNanos (maxUInt64 / u.2) u.2 ≤ maxUInt64 + 1 ∧
      maxUInt64 < wholeNanos (maxUInt64 / u.2 + 1) u.2 := by
    decide +kernel
  obtain ⟨hlast, hfirst⟩ := hlimits _ hunit
  refine ⟨fun hle => ?_, fun hlt => ?_⟩
  · exact (wholeNanos_mono ((Nat.le_div_iff_mul_le hpos).mpr hle) factor).trans hlast
  · exact hfirst.trans_le (wholeNanos_mono ((Nat.div_lt_iff_lt_mul hpos).mpr hlt) factor)

/-- A whole number of a unit is rounded to double precision, and the product with the nanoseconds of
the unit is rounded once more. A duration in range is accepted, cut to the longest one if it was
rounded beyond it, and exact when double precision holds both numbers, as it does up to `2 ^ 53`
nanoseconds. -/
theorem whole_number_of_units_rounds_twice {digits : List Char} {n : Nat}
    (hdigits : Numeral 10 digits n) :
    ∃ amount nanos, (∀ w, RoundsTo 53 n w ↔ w = amount) ∧
      (∀ w, RoundsTo 53 (amount * factor) w ↔ w = nanos) ∧
      (nanos ≤ maxUInt64 → read? (digits ++ unit.toList) = some ⟨nanos⟩) ∧
      (maxUInt64 + 1 < nanos → read? (digits ++ unit.toList) = none) ∧
      (n * factor ≤ maxUInt64 → read? (digits ++ unit.toList) = some ⟨min nanos maxUInt64⟩) ∧
      (maxUInt64 < n * factor → maxUInt64 < nanos) ∧
      (FitsBits 53 n → FitsBits 53 (n * factor) → nanos = n * factor) ∧
      (n * factor ≤ 2 ^ 53 → nanos = n * factor) := by
  obtain ⟨-, -, -, hpos, -⟩ := units_spec _ _ hunit
  obtain ⟨haccepted, hbeyond⟩ := wholeNanos_limit hunit n
  refine ⟨roundBits 53 n, wholeNanos n factor, fun w => roundsTo_iff (by decide),
    fun w => roundsTo_iff (by decide), ?_⟩
  rw [read?_whole hdigits hunit]
  refine ⟨fun hle => ?_, fun hlt => if_pos hlt, fun hle => ?_, hbeyond, wholeNanos_of_fits,
    fun hle => ?_⟩
  · rw [if_neg (by omega), Nat.min_eq_left hle]
  · rw [if_neg (Nat.not_lt.mpr (haccepted hle))]
  · have hfits := fitsBits_of_le (by decide) hle
    exact wholeNanos_of_fits (hfits.of_mul hpos) hfits

end

/-- The first odd number beyond double precision is rounded down, and the longest duration is
rounded up and cut. -/
theorem odd_number_of_nanoseconds_rounds_twice :
    Numeral 10 "9007199254740993".toList 9007199254740993 ∧
    Numeral 10 "18446744073709551615".toList 18446744073709551615 ∧ ("ns", 1) ∈ units ∧
    read? ("9007199254740993".toList ++ "ns".toList) = some ⟨9007199254740992⟩ ∧
    read? ("18446744073709551615".toList ++ "ns".toList) = some ⟨18446744073709551615⟩ := by
  have hodd : Numeral 10 "9007199254740993".toList 9007199254740993 :=
    numeral_toDigits (by decide) (by decide) 9007199254740993
  have hlongest : Numeral 10 "18446744073709551615".toList 18446744073709551615 :=
    numeral_toDigits (by decide) (by decide) 18446744073709551615
  have hunit : ("ns", 1) ∈ units := by decide
  refine ⟨hodd, hlongest, hunit, ?_, ?_⟩
  · obtain ⟨amount, nanos, hamount, hnanos, hread, -⟩ :=
      whole_number_of_units_rounds_twice hunit hodd
    obtain rfl := (hamount 9007199254740992).mp ((roundsTo_iff (by decide)).mpr (by decide))
    obtain rfl := (hnanos 9007199254740992).mp ((roundsTo_iff (by decide)).mpr (by decide))
    exact hread (by decide)
  · obtain ⟨amount, nanos, hamount, hnanos, -, -, hread, -⟩ :=
      whole_number_of_units_rounds_twice hunit hlongest
    obtain rfl := (hamount 18446744073709551616).mp ((roundsTo_iff (by decide)).mpr (by decide))
    obtain rfl := (hnanos 18446744073709551616).mp ((roundsTo_iff (by decide)).mpr (by decide))
    exact hread (by decide)

theorem odd_number_past_double_precision_is_rounded :
    Numeral 10 "9007199254740993".toList 9007199254740993 ∧ ("ns", 1) ∈ units ∧
      9007199254740993 * 1 ≤ maxUInt64 ∧
      read? ("9007199254740993".toList ++ "ns".toList) = some ⟨9007199254740992⟩ :=
  ⟨numeral_toDigits (by decide) (by decide) 9007199254740993, by decide, by decide,
    by decide +kernel⟩

end Duration

end NodeProbe
