import Mathlib.Data.Nat.Dist
import Mathlib.Data.Nat.Prime.Basic
import Mathlib.Order.Monotone.Basic
import Mathlib.Tactic.Ring
import NodeProbe.Number.Binary

/-!
# Rounding to significant bits

A natural number that is rounded to some significant bits becomes the nearest number that has no
more, and the even one of two that are equally near. The ranks of a floating-point format ascend
with their magnitudes, and the rank nearest to a natural number holds the number rounded to the
precision of the format.
-/
namespace NodeProbe.Number

/-! ## Quotients -/

/-- The rounded quotient is off by half the divisor at most, and is even where it is off by just
that. -/
theorem divideToEven_spec {b : Nat} (hb : 0 < b) (a : Nat) :
    2 * (divideToEven a b * b) ≤ 2 * a + b ∧ 2 * a ≤ 2 * (divideToEven a b * b) + b ∧
      (2 * (divideToEven a b * b) = 2 * a + b ∨ 2 * a = 2 * (divideToEven a b * b) + b →
        divideToEven a b % 2 = 0) := by
  have ha : a / b * b + a % b = a := Nat.div_add_mod' a b
  have hrest : a % b < b := Nat.mod_lt a hb
  have hnext : (a / b + 1) * b = a / b * b + b := Nat.succ_mul _ _
  unfold divideToEven
  dsimp only
  split
  · omega
  · split
    · omega
    · rcases Nat.mod_two_eq_zero_or_one (a / b) with heven | hodd
      · rw [heven, Nat.add_zero]
        omega
      · rw [hodd]
        omega

/-- No other multiple is nearer, and another one is as near only when the quotient is even. -/
theorem divideToEven_nearest {b : Nat} (hb : 0 < b) (a k : Nat) :
    Nat.dist a (divideToEven a b * b) ≤ Nat.dist a (k * b) ∧
      (k ≠ divideToEven a b → Nat.dist a (k * b) = Nat.dist a (divideToEven a b * b) →
        divideToEven a b % 2 = 0) := by
  obtain ⟨hlow, hhigh, heven⟩ := divideToEven_spec hb a
  generalize divideToEven a b = q at *
  unfold Nat.dist
  rcases Nat.lt_trichotomy k q with hlt | rfl | hgt
  · have hstep : (k + 1) * b ≤ q * b := Nat.mul_le_mul_right b hlt
    rw [Nat.succ_mul] at hstep
    omega
  · exact ⟨Nat.le_refl _, fun hne => absurd rfl hne⟩
  · have hstep : (q + 1) * b ≤ k * b := Nat.mul_le_mul_right b hgt
    rw [Nat.succ_mul] at hstep
    omega

theorem divideToEven_one (a : Nat) : divideToEven a 1 = a := by
  simp [divideToEven, Nat.mod_one]

theorem divideToEven_mul {k : Nat} (hk : 0 < k) (a b : Nat) :
    divideToEven (a * k) (b * k) = divideToEven a b := by
  have hless : ∀ x y : Nat, x * k < y * k ↔ x < y := fun x y => Nat.mul_lt_mul_right hk
  unfold divideToEven
  simp only [Nat.mul_div_mul_right _ _ hk, Nat.mul_mod_mul_right, ← Nat.mul_assoc, hless]

theorem divideToEven_le {a b k : Nat} (hb : 0 < b) (h : a ≤ k * b) : divideToEven a b ≤ k := by
  obtain ⟨hlow, -, -⟩ := divideToEven_spec hb a
  by_contra hlt
  have hstep : (k + 1) * b ≤ divideToEven a b * b := Nat.mul_le_mul_right b (by omega)
  rw [Nat.succ_mul] at hstep
  omega

theorem le_divideToEven {a b k : Nat} (hb : 0 < b) (h : k * b ≤ a) : k ≤ divideToEven a b := by
  obtain ⟨-, hhigh, -⟩ := divideToEven_spec hb a
  by_contra hlt
  have hstep : (divideToEven a b + 1) * b ≤ k * b := Nat.mul_le_mul_right b (by omega)
  rw [Nat.succ_mul] at hstep
  omega

/-! ## Significant bits -/

/-- A number of at most `p` significant bits. -/
def FitsBits (p n : Nat) : Prop := ∃ m e, m < 2 ^ p ∧ n = m * 2 ^ e

/-- A number of `p` significant bits that is nearest to `n`. When another one is as near, the last
of its bits is zero, so that it has at most `p - 1`. -/
structure RoundsTo (p n w : Nat) : Prop where
  fits : FitsBits p w
  nearest : ∀ w', FitsBits p w' → Nat.dist n w ≤ Nat.dist n w'
  even : ∀ w', FitsBits p w' → w' ≠ w → Nat.dist n w' = Nat.dist n w → FitsBits (p - 1) w

/-- How many bits a number has beyond the first `p`. -/
def lostBits (p n : Nat) : Nat := n.log2 + 1 - p

def roundBits (p n : Nat) : Nat := divideToEven n (2 ^ lostBits p n) * 2 ^ lostBits p n

section

variable {p : Nat}

theorem lt_two_pow_lostBits (p n : Nat) : n < 2 ^ (p + lostBits p n) := by
  have hexponent : n.log2 + 1 ≤ p + lostBits p n := by
    unfold lostBits
    omega
  exact Nat.lt_log2_self.trans_le (Nat.pow_le_pow_right (by omega) hexponent)

theorem two_pow_lostBits_le (hp : 0 < p) {n : Nat} (h : lostBits p n ≠ 0) :
    2 ^ (p - 1 + lostBits p n) ≤ n := by
  have hn : n ≠ 0 := by
    rintro rfl
    simp only [lostBits, Nat.log2_zero] at h
    omega
  have hexponent : p - 1 + lostBits p n = n.log2 := by
    unfold lostBits at h ⊢
    omega
  rw [hexponent]
  exact Nat.log2_self_le hn

theorem fitsBits_of_le (hp : 0 < p) {n : Nat} (h : n ≤ 2 ^ p) : FitsBits p n := by
  rcases Nat.lt_or_eq_of_le h with hlt | rfl
  · exact ⟨n, 0, hlt, by simp⟩
  · exact ⟨1, p, Nat.one_lt_two_pow (by omega), by simp⟩

theorem FitsBits.shift {n : Nat} (h : FitsBits p n) (s : Nat) : FitsBits p (n * 2 ^ s) := by
  obtain ⟨m, e, hm, rfl⟩ := h
  exact ⟨m, e + s, hm, by rw [Nat.pow_add, Nat.mul_assoc]⟩

/-- A divisor has no more significant bits. -/
theorem FitsBits.of_mul {n k : Nat} (hk : 0 < k) (h : FitsBits p (n * k)) : FitsBits p n := by
  obtain ⟨m, e, hm, hvalue⟩ := h
  -- a factor of two comes from one side of the product
  induction e generalizing n k with
  | zero =>
    rw [Nat.pow_zero, Nat.mul_one] at hvalue
    have hle : n ≤ n * k := Nat.le_mul_of_pos_right n hk
    exact ⟨n, 0, by omega, by simp⟩
  | succ e ih =>
    have htwice : n * k = m * 2 ^ e * 2 := by rw [hvalue, Nat.pow_succ, Nat.mul_assoc]
    have heven : 2 ∣ n * k := ⟨m * 2 ^ e, by rw [htwice, Nat.mul_comm]⟩
    rcases Nat.prime_two.dvd_mul.mp heven with ⟨n, rfl⟩ | ⟨k, rfl⟩
    · have hhalf : n * k = m * 2 ^ e := by
        rw [Nat.mul_assoc] at htwice
        omega
      have hfits := (ih hk hhalf).shift 1
      rwa [Nat.pow_one, Nat.mul_comm] at hfits
    · have hhalf : n * k = m * 2 ^ e := by
        rw [Nat.mul_left_comm] at htwice
        omega
      exact ih (by omega) hhalf

/-- In the power of two that the last kept bit counts, another number of the precision is whole too,
or it is too small to be near. -/
theorem FitsBits.whole_or_small (hp : 0 < p) {w : Nat} (h : FitsBits p w) (s : Nat) :
    (∃ k, w = k * 2 ^ s) ∨ w < 2 ^ (p - 1) * 2 ^ s := by
  obtain ⟨m, e, hm, rfl⟩ := h
  by_cases he : s ≤ e
  · refine .inl ⟨m * 2 ^ (e - s), ?_⟩
    rw [Nat.mul_assoc, ← Nat.pow_add, Nat.sub_add_cancel he]
  · right
    calc m * 2 ^ e
      _ < 2 ^ p * 2 ^ e := Nat.mul_lt_mul_of_pos_right hm (Nat.two_pow_pos e)
      _ = 2 ^ (p + e) := (Nat.pow_add ..).symm
      _ ≤ 2 ^ (p - 1 + s) := Nat.pow_le_pow_right (by omega) (by omega)
      _ = 2 ^ (p - 1) * 2 ^ s := Nat.pow_add ..

/-- A product with an even factor of at most `p` bits has one bit less. -/
theorem fitsBits_of_even (hp : 2 ≤ p) {q : Nat} (hq : q ≤ 2 ^ p) (heven : q % 2 = 0) (s : Nat) :
    FitsBits (p - 1) (q * 2 ^ s) := by
  have hpow : 2 ^ (p - 1) + 2 ^ (p - 1) = 2 ^ p := Nat.two_pow_pred_add_two_pow_pred (by omega)
  have hdouble : q * 2 ^ s = q / 2 * 2 ^ (1 + s) := by
    rw [Nat.pow_add, ← Nat.mul_assoc]
    congr 1
    omega
  rw [hdouble]
  exact (fitsBits_of_le (by omega) (by omega)).shift _

/-- Without a lost bit nothing is rounded. -/
theorem roundBits_of_lostBits {n : Nat} (h : lostBits p n = 0) : roundBits p n = n := by
  simp [roundBits, h, divideToEven_one]

/-- Cutting the lost bits with a half to even gives a nearest number of `p` bits. -/
theorem roundsTo_roundBits (hp : 2 ≤ p) (n : Nat) : RoundsTo p n (roundBits p n) := by
  have hpos : 0 < 2 ^ lostBits p n := Nat.two_pow_pos _
  have hhigh := (lt_two_pow_lostBits p n).le
  rw [Nat.pow_add] at hhigh
  have hquotient := divideToEven_le hpos hhigh
  have hfits : FitsBits p (roundBits p n) := (fitsBits_of_le (by omega) hquotient).shift _
  by_cases hexact : lostBits p n = 0
  · rw [roundBits_of_lostBits hexact] at hfits ⊢
    refine ⟨hfits, fun w' _ => ?_, fun w' _ hne hdist => ?_⟩
    · rw [Nat.dist_self]
      exact Nat.zero_le _
    · rw [Nat.dist_self] at hdist
      exact absurd (Nat.eq_of_dist_eq_zero hdist).symm hne
  · -- the number begins at the first of `p` bits in front of the lost ones
    have hlow := two_pow_lostBits_le (by omega) hexact
    rw [Nat.pow_add] at hlow
    have hnearest := divideToEven_nearest hpos n
    have hfirst := (hnearest (2 ^ (p - 1))).1
    refine ⟨hfits, fun w' hw' => ?_, fun w' hw' hne hdist => ?_⟩
    · rcases hw'.whole_or_small (by omega) (lostBits p n) with ⟨k, rfl⟩ | hsmall
      · exact (hnearest k).1
      · refine hfirst.trans ?_
        unfold Nat.dist
        omega
    · rcases hw'.whole_or_small (by omega) (lostBits p n) with ⟨k, rfl⟩ | hsmall
      · have heven := (hnearest k).2 (fun heq => hne (by rw [heq]; rfl)) hdist
        exact fitsBits_of_even hp hquotient heven _
      · exfalso
        unfold roundBits Nat.dist at hdist
        unfold Nat.dist at hfirst
        omega

/-- Between two numbers of one bit less stands a number of the precision. -/
theorem FitsBits.exists_between (hp : 2 ≤ p) {w w' : Nat} (h : FitsBits (p - 1) w)
    (h' : FitsBits (p - 1) w') (hgap : w + 1 < w') : ∃ v, FitsBits p v ∧ w < v ∧ v < w' := by
  -- both are whole in the smaller of the two powers of two
  obtain ⟨k, k', s, hk, rfl, rfl⟩ :
      ∃ k k' s, k < 2 ^ (p - 1) ∧ w = k * 2 ^ s ∧ w' = k' * 2 ^ s := by
    obtain ⟨m, e, hm, rfl⟩ := h
    obtain ⟨m', e', hm', rfl⟩ := h'
    have hwhole : ∀ i a b, b ≤ a → i * 2 ^ a = i * 2 ^ (a - b) * 2 ^ b := fun i a b hle => by
      rw [Nat.mul_assoc, ← Nat.pow_add, Nat.sub_add_cancel hle]
    rcases Nat.le_total e e' with hle | hle
    · exact ⟨m, m' * 2 ^ (e' - e), e, hm, rfl, hwhole _ _ _ hle⟩
    · refine ⟨m * 2 ^ (e - e'), m', e', ?_, hwhole _ _ _ hle, rfl⟩
      rw [hwhole _ _ _ hle] at hgap
      exact (Nat.lt_of_mul_lt_mul_right (Nat.lt_of_succ_lt hgap)).trans hm'
  have hpow : 2 ^ (p - 1) + 2 ^ (p - 1) = 2 ^ p := Nat.two_pow_pred_add_two_pow_pred (by omega)
  cases s with
  | zero =>
    simp only [Nat.pow_zero, Nat.mul_one] at hgap ⊢
    exact ⟨k + 1, fitsBits_of_le (by omega) (by omega), Nat.lt_succ_self k, hgap⟩
  | succ s =>
    have hlt : k < k' := Nat.lt_of_mul_lt_mul_right (Nat.lt_of_succ_lt hgap)
    have hdouble : ∀ i, i * 2 ^ (s + 1) = 2 * i * 2 ^ s := fun i => by
      rw [Nat.pow_succ, ← Nat.mul_assoc, Nat.mul_comm _ 2, Nat.mul_assoc]
    refine ⟨(2 * k + 1) * 2 ^ s, ⟨2 * k + 1, s, by omega, rfl⟩, ?_, ?_⟩
    · rw [hdouble]
      exact Nat.mul_lt_mul_of_pos_right (by omega) (Nat.two_pow_pos s)
    · rw [hdouble]
      exact Nat.mul_lt_mul_of_pos_right (by omega) (Nat.two_pow_pos s)

/-- There is one way to round: of two nearest numbers, only one ends in a zero bit. -/
theorem RoundsTo.not_lt (hp : 2 ≤ p) {n w w' : Nat} (h : RoundsTo p n w) (h' : RoundsTo p n w') :
    ¬ w < w' := by
  intro hlt
  have hdist : Nat.dist n w = Nat.dist n w' :=
    Nat.le_antisymm (h.nearest w' h'.fits) (h'.nearest w h.fits)
  have hgap : w + 1 < w' := by
    unfold Nat.dist at hdist
    omega
  obtain ⟨v, hv, hlow, hhigh⟩ := (h.even w' h'.fits hlt.ne' hdist.symm).exists_between hp
    (h'.even w h.fits hlt.ne hdist) hgap
  have hnearest := h.nearest v hv
  unfold Nat.dist at hdist hnearest
  omega

/-- Rounding gives the one number that is nearest, and the even one of two. -/
theorem roundsTo_iff (hp : 2 ≤ p) {n w : Nat} : RoundsTo p n w ↔ w = roundBits p n := by
  constructor
  · intro h
    have hlow := h.not_lt hp (roundsTo_roundBits hp n)
    have hhigh := (roundsTo_roundBits hp n).not_lt hp h
    omega
  · rintro rfl
    exact roundsTo_roundBits hp n

variable (hp : 2 ≤ p)
include hp

theorem roundBits_of_fits {n : Nat} (h : FitsBits p n) : roundBits p n = n := by
  have hnearest := (roundsTo_roundBits hp n).nearest n h
  rw [Nat.dist_self, Nat.le_zero] at hnearest
  exact (Nat.eq_of_dist_eq_zero hnearest).symm

/-- Rounding keeps the order: the results could not be nearest the other way round. -/
theorem roundBits_mono {m n : Nat} (h : m ≤ n) : roundBits p m ≤ roundBits p n := by
  rcases Nat.lt_or_eq_of_le h with hlt | rfl
  · have hm := (roundsTo_roundBits hp m).nearest _ (roundsTo_roundBits hp n).fits
    have hn := (roundsTo_roundBits hp n).nearest _ (roundsTo_roundBits hp m).fits
    unfold Nat.dist at hm hn
    omega
  · exact Nat.le_refl _

/-- A shifted number is rounded like the number itself. -/
theorem roundBits_shift (n s : Nat) : roundBits p (n * 2 ^ s) = roundBits p n * 2 ^ s := by
  by_cases hexact : lostBits p n = 0
  · have hfits : FitsBits p n := by
      have hlt := lt_two_pow_lostBits p n
      rw [hexact] at hlt
      exact fitsBits_of_le (by omega) hlt.le
    rw [roundBits_of_fits hp hfits, roundBits_of_fits hp (hfits.shift s)]
  · have hn : n ≠ 0 := by
      rintro rfl
      simp only [lostBits, Nat.log2_zero] at hexact
      omega
    have hlog : (n * 2 ^ s).log2 = n.log2 + s := by
      rw [Nat.log2_eq_iff (Nat.mul_ne_zero hn (Nat.two_pow_pos s).ne')]
      constructor
      · rw [Nat.pow_add]
        exact Nat.mul_le_mul_right _ (Nat.log2_self_le hn)
      · rw [Nat.add_right_comm, Nat.pow_add]
        exact Nat.mul_lt_mul_of_pos_right Nat.lt_log2_self (Nat.two_pow_pos s)
    have hlost : lostBits p (n * 2 ^ s) = lostBits p n + s := by
      unfold lostBits at hexact ⊢
      omega
    unfold roundBits
    rw [hlost, Nat.pow_add, divideToEven_mul (Nat.two_pow_pos s), Nat.mul_assoc]

end

/-! ## Ranks -/

namespace Format

variable {f : Format}

theorem blockSize_pos (f : Format) : 0 < f.blockSize := Nat.two_pow_pos _

theorem one_pos (f : Format) : 0 < f.one := Nat.two_pow_pos _

theorem two_mul_blockSize (hp : 0 < f.precision) : 2 * f.blockSize = 2 ^ f.precision := by
  rw [Nat.two_mul]
  exact Nat.two_pow_pred_add_two_pow_pred hp

/-- A rank lies in the first two blocks, or in the second of two further on. -/
theorem exists_rank_parts (f : Format) (rank : Nat) : ∃ e q, rank = e * f.blockSize + q ∧
    q < 2 * f.blockSize ∧ (e = 0 ∨ f.blockSize ≤ q) := by
  have hparts := Nat.div_add_mod' rank f.blockSize
  have hrest := Nat.mod_lt rank f.blockSize_pos
  cases hblock : rank / f.blockSize with
  | zero => exact ⟨0, rank % f.blockSize, by rw [hblock] at hparts; omega, by omega, .inl rfl⟩
  | succ e =>
    rw [hblock, Nat.succ_mul] at hparts
    exact ⟨e, f.blockSize + rank % f.blockSize, by omega, by omega, .inr (Nat.le_add_right _ _)⟩

/-- In the parts of a rank the first is an exponent and the second a significand. -/
theorem units_parts {e q : Nat} (hq : q ≤ 2 * f.blockSize) (hnormal : e = 0 ∨ f.blockSize ≤ q) :
    f.units (e * f.blockSize + q) = q * 2 ^ e := by
  have hpos := f.blockSize_pos
  -- the quotient decides the block, and the rest the place in it
  have hblock : ∀ k r, r < f.blockSize → f.units ((k + 1) * f.blockSize + r) =
      (f.blockSize + r) * 2 ^ k := by
    intro k r hr
    have hdiv : ((k + 1) * f.blockSize + r) / f.blockSize = k + 1 := by
      rw [Nat.mul_comm, Nat.mul_add_div hpos, Nat.div_eq_of_lt hr, Nat.add_zero]
    have hmod : ((k + 1) * f.blockSize + r) % f.blockSize = r := by
      rw [Nat.mul_comm, Nat.mul_add_mod, Nat.mod_eq_of_lt hr]
    unfold units
    simp only [hdiv, hmod, Nat.pow_eq]
    rfl
  by_cases hlow : q < f.blockSize
  · have he : e = 0 := hnormal.resolve_right (by omega)
    subst he
    simp [units, Nat.div_eq_of_lt hlow]
  · by_cases htop : q = 2 * f.blockSize
    · have hrank : e * f.blockSize + q = (e + 1 + 1) * f.blockSize + 0 := by
        rw [htop]
        ring
      rw [hrank, hblock _ _ hpos, htop, Nat.pow_succ]
      ring
    · have hrank : e * f.blockSize + q = (e + 1) * f.blockSize + (q - f.blockSize) := by
        rw [Nat.succ_mul]
        omega
      have hback : f.blockSize + (q - f.blockSize) = q := by omega
      rw [hrank, hblock _ _ (by omega), hback]

theorem units_strictMono (f : Format) : StrictMono f.units := by
  refine strictMono_nat_of_lt_succ fun rank => ?_
  obtain ⟨e, q, rfl, hq, hnormal⟩ := f.exists_rank_parts rank
  have hnext : e = 0 ∨ f.blockSize ≤ q + 1 := hnormal.imp_right fun h => by omega
  rw [Nat.add_assoc, units_parts hq.le hnormal, units_parts hq hnext]
  exact Nat.mul_lt_mul_of_pos_right (Nat.lt_succ_self q) (Nat.two_pow_pos e)

/-- The rank nearest to a natural number holds the number rounded to the precision, or is
infinite. -/
theorem units_nearest (hp : 2 ≤ f.precision) (n : Nat) :
    f.units (f.nearest n 1) = min (roundBits f.precision n * f.one) (f.units f.infinity) := by
  have hpos := Nat.two_pow_pos (lostBits f.precision (n * f.one))
  have hsize := two_mul_blockSize (f := f) (by omega)
  have hquotient : divideToEven (n * f.one) (2 ^ lostBits f.precision (n * f.one)) ≤
      2 * f.blockSize := by
    refine divideToEven_le hpos ?_
    rw [hsize, ← Nat.pow_add]
    exact (lt_two_pow_lostBits _ _).le
  have hnormal : lostBits f.precision (n * f.one) = 0 ∨ f.blockSize ≤
      divideToEven (n * f.one) (2 ^ lostBits f.precision (n * f.one)) := by
    by_cases hexact : lostBits f.precision (n * f.one) = 0
    · exact .inl hexact
    · refine .inr (le_divideToEven hpos ?_)
      have hlow := two_pow_lostBits_le (by omega) hexact
      rwa [Nat.pow_add] at hlow
  have hrank : f.nearest n 1 = min (lostBits f.precision (n * f.one) * f.blockSize +
      divideToEven (n * f.one) (2 ^ lostBits f.precision (n * f.one))) f.infinity := by
    unfold nearest lostBits
    simp only [Nat.div_one, Nat.one_mul, Nat.pow_eq]
  have hshift : roundBits f.precision n * f.one = roundBits f.precision (n * f.one) :=
    (roundBits_shift hp n f.scale).symm
  rw [hrank, f.units_strictMono.monotone.map_min, units_parts hquotient hnormal, hshift]
  rfl

/-- A fraction is nearest to the same rank in every form. -/
theorem nearest_mul {k : Nat} (hk : 0 < k) (f : Format) (num den : Nat) :
    f.nearest (num * k) (den * k) = f.nearest num den := by
  have hnum : num * k * f.one = num * f.one * k := Nat.mul_right_comm _ _ _
  have hden : ∀ e, den * k * Nat.pow 2 e = den * Nat.pow 2 e * k :=
    fun _ => Nat.mul_right_comm _ _ _
  unfold nearest
  simp only [hnum, hden, Nat.mul_div_mul_right _ _ hk, divideToEven_mul hk]

/-- A whole number is not changed by rounding to a whole number. -/
theorem roundAway_whole (f : Format) (n : Nat) : (2 * (n * f.one) + f.one) / (2 * f.one) = n := by
  have hone := f.one_pos
  have hlow : n * (2 * f.one) = 2 * (n * f.one) := Nat.mul_left_comm _ _ _
  have hhigh : (n + 1) * (2 * f.one) = 2 * (n * f.one) + 2 * f.one := by ring
  exact Nat.div_eq_of_lt_le (by omega) (by omega)

end Format

/-! ## Whole numbers in a format -/

namespace Binary

variable {f : Format}

/-- A floating-point number is a natural number, or infinite because the number is too large. -/
structure StandsFor (x : Binary f) (n : Nat) : Prop where
  positive : x.negative = false
  units_eq : x.units = min (n * f.one) (f.units f.infinity)

theorem StandsFor.not_nan {x : Binary f} {n : Nat} (h : x.StandsFor n) : x.isNaN = false := by
  have hle : x.units ≤ f.units f.infinity := by
    rw [h.units_eq]
    exact Nat.min_le_right _ _
  exact decide_eq_false (Nat.not_lt.mpr (f.units_strictMono.le_iff_le.mp hle))

theorem isZero_iff {x : Binary f} : x.isZero = true ↔ x.units = 0 := by
  have hzero : f.units 0 = 0 := by simp [Format.units]
  unfold isZero units
  rw [beq_iff_eq, ← f.units_strictMono.injective.eq_iff, hzero]

theorem StandsFor.isInfinite_iff {x : Binary f} {n : Nat} (h : x.StandsFor n) :
    x.isInfinite = true ↔ f.units f.infinity ≤ n * f.one := by
  have hunits := h.units_eq
  unfold isInfinite
  rw [beq_iff_eq, ← f.units_strictMono.injective.eq_iff]
  unfold units at hunits
  omega

section

variable {x : Binary f} {n : Nat} (h : x.StandsFor n) (hfinite : n * f.one < f.units f.infinity)
include h hfinite

theorem StandsFor.units_of_finite : x.units = n * f.one := by
  rw [h.units_eq]
  omega

theorem StandsFor.not_infinite : x.isInfinite = false := by
  rw [← Bool.not_eq_true, h.isInfinite_iff]
  omega

theorem StandsFor.isFinite : x.isFinite = true := by
  have hunits := h.units_of_finite hfinite
  unfold Binary.isFinite
  rw [decide_eq_true_eq, ← f.units_strictMono.lt_iff_lt]
  exact hunits.trans_lt hfinite

theorem StandsFor.roundAway : x.roundAway = n := by
  unfold Binary.roundAway
  rw [h.positive, h.units_of_finite hfinite, f.roundAway_whole]
  rfl

end

/-- A number of the format has no more significant bits when it is rounded to a whole one. -/
theorem roundAway_fits (hp : 0 < f.precision) (x : Binary f) :
    FitsBits f.precision x.roundAway.toNat := by
  obtain ⟨e, q, hrank, hq, hnormal⟩ := f.exists_rank_parts x.rank
  have hunits : x.units = q * 2 ^ e := by
    unfold units
    rw [hrank, Format.units_parts hq.le hnormal]
  rw [Format.two_mul_blockSize hp] at hq
  have hmagnitude : FitsBits f.precision ((2 * x.units + f.one) / (2 * f.one)) := by
    rw [hunits]
    by_cases he : f.scale ≤ e
    · -- the number is whole already
      have hwhole : q * 2 ^ e = q * 2 ^ (e - f.scale) * f.one := by
        rw [Format.one, Nat.pow_eq, Nat.mul_assoc, ← Nat.pow_add, Nat.sub_add_cancel he]
      rw [hwhole, f.roundAway_whole]
      exact ⟨q, e - f.scale, hq, rfl⟩
    · have hsmall : q * 2 ^ e ≤ 2 ^ f.precision * f.one :=
        Nat.mul_le_mul hq.le (Nat.pow_le_pow_right (by decide) (by omega))
      refine fitsBits_of_le hp ?_
      rw [← f.roundAway_whole (2 ^ f.precision)]
      exact Nat.div_le_div_right (by omega)
  unfold roundAway
  dsimp only
  split
  · rw [Int.toNat_neg_natCast]
    exact fitsBits_of_le hp (Nat.zero_le _)
  · exact hmagnitude

theorem ofNat_standsFor (hp : 2 ≤ f.precision) (n : Nat) :
    (ofNat n : Binary f).StandsFor (roundBits f.precision n) :=
  ⟨rfl, f.units_nearest hp n⟩

/-- The product with a finite number is the product of the numbers, rounded. -/
theorem mul_standsFor (hp : 2 ≤ f.precision) {x y : Binary f} {a b : Nat} (hx : x.StandsFor a)
    (hy : y.StandsFor b) (ha : FitsBits f.precision a) (hb : 0 < b)
    (hfinite : b * f.one < f.units f.infinity) :
    (x * y).StandsFor (roundBits f.precision (a * b)) := by
  have hone := f.one_pos
  have hyunits := hy.units_of_finite hfinite
  change (mul x y).StandsFor _
  unfold mul
  simp only [hx.not_nan, hy.not_nan, hy.not_infinite hfinite, hx.positive, hy.positive,
    Bool.or_false, Bool.false_eq_true, if_false, bne_self_eq_false]
  by_cases hxfinite : a * f.one < f.units f.infinity
  · have hproduct : x.units * y.units = a * b * (f.one * f.one) := by
      rw [hx.units_of_finite hxfinite, hyunits]
      ring
    rw [hx.not_infinite hxfinite, if_neg Bool.false_ne_true, hproduct]
    refine ⟨rfl, ?_⟩
    have hrank := f.nearest_mul (Nat.mul_pos hone hone) (a * b) 1
    rw [Nat.one_mul] at hrank
    unfold units ofRatio
    dsimp only
    rw [hrank, f.units_nearest hp]
  · -- a product with a number that is not zero is no smaller
    have hlarge : a * f.one ≤ roundBits f.precision (a * b) * f.one := by
      refine Nat.mul_le_mul_right _ ?_
      have hmono := roundBits_mono hp (Nat.le_mul_of_pos_right a hb)
      rwa [roundBits_of_fits hp ha] at hmono
    have hxunits := hx.units_eq
    have hxzero : x.isZero = false := by
      rw [← Bool.not_eq_true, isZero_iff]
      omega
    have hyzero : y.isZero = false := by
      rw [← Bool.not_eq_true, isZero_iff, hyunits]
      exact (Nat.mul_pos hb hone).ne'
    rw [hx.isInfinite_iff.mpr (by omega), hxzero, hyzero]
    refine ⟨rfl, ?_⟩
    change f.units f.infinity = _
    omega

end Binary

end NodeProbe.Number
