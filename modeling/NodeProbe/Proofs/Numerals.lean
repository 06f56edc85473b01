import Mathlib.Data.Nat.Digits.Defs
import Mathlib.Tactic.IntervalCases
import Mathlib.Tactic.Ring
import NodeProbe.Number.Integer
import NodeProbe.Proofs.Padding

/-!
# Signs and digits

A numeral is one or more digits of a base. The readers of whole numbers accept a numeral behind at
most one sign, and give the number that its digits and the sign stand for.
-/
namespace NodeProbe.Number

open Text

/-! ## Digits -/

def Digits (base : Nat) (cs : List Char) (ds : List Nat) : Prop :=
  List.Forall₂ (fun c d => d < base ∧ c.toLower = Nat.digitChar d) cs ds

/-- One or more digits of a base, in either case, the first of which counts most. -/
def Numeral (base : Nat) (cs : List Char) (n : Nat) : Prop :=
  cs ≠ [] ∧ ∃ ds, Digits base cs ds ∧ Nat.ofDigits base ds.reverse = n

theorem digit?_eq_some_of_lt {base : Nat} (hbase : base ≤ 16) {c : Char} {d : Nat} :
    digit? base c = some d ↔ d < base ∧ digit? 16 c = some d := by
  unfold digit?
  simp only [Option.filter_eq_some_iff, decide_eq_true_eq]
  constructor
  · rintro ⟨hvalue, hd⟩
    exact ⟨hd, hvalue, by omega⟩
  · rintro ⟨hd, hvalue, -⟩
    exact ⟨hvalue, hd⟩

theorem digit?_ascii : ∀ n < 128, ∀ d < 16,
    digit? 16 (Char.ofNat n) = some d ↔ (Char.ofNat n).toLower = d.digitChar := by
  decide +kernel

theorem digit?_not_ascii {base : Nat} {c : Char} (h : 128 ≤ c.toNat) : digit? base c = none := by
  have habove : ∀ x : Char, x.toNat < 128 → ¬ c ≤ x := by
    intro x hx hle
    have hnat : c.toNat ≤ x.toNat := hle
    omega
  unfold digit?
  rw [if_neg fun hc => habove '9' (by decide) hc.2, if_neg fun hc => habove 'f' (by decide) hc.2,
    if_neg fun hc => habove 'F' (by decide) hc.2]
  rfl

theorem toNat_digitChar_lt {d : Nat} (h : d < 16) : d.digitChar.toNat < 128 := by
  interval_cases d <;> decide

/-- The digits of a base up to sixteen are those that numbers are shown with, in either case. -/
theorem digit?_eq_some {base : Nat} (hbase : base ≤ 16) {c : Char} {d : Nat} :
    digit? base c = some d ↔ d < base ∧ c.toLower = d.digitChar := by
  rw [digit?_eq_some_of_lt hbase]
  refine and_congr_right fun hd => ?_
  have hd16 : d < 16 := by omega
  rcases Nat.lt_or_ge c.toNat 128 with hlt | hge
  · have hc := digit?_ascii c.toNat hlt d hd16
    rwa [Char.ofNat_toNat] at hc
  · rw [digit?_not_ascii hge, toLower_of_not_ascii hge]
    refine iff_of_false (fun hnone => nomatch hnone) fun heq => ?_
    have hsmall := toNat_digitChar_lt hd16
    rw [← heq] at hsmall
    omega

/-- One more digit in front, behind what was read already. -/
theorem ofDigits_push (base value d : Nat) (ds : List Nat) :
    value * base ^ (d :: ds).length + Nat.ofDigits base (d :: ds).reverse =
      (value * base + d) * base ^ ds.length + Nat.ofDigits base ds.reverse := by
  rw [Nat.ofDigits_reverse_cons, List.length_cons]
  ring

/-- Digits are read as what they are worth, unless that passes the limit. -/
theorem readDigits_eq_ok {base limit : Nat} (hpos : 0 < base) (hbase : base ≤ 16)
    {fault : IntegerFault} {value : Nat} {cs : List Char} {n : Nat} (hvalue : value ≤ limit) :
    readDigits base limit fault value cs = .ok n ↔ n ≤ limit ∧ ∃ ds, Digits base cs ds ∧
      value * base ^ ds.length + Nat.ofDigits base ds.reverse = n := by
  induction cs generalizing value with
  | nil =>
    constructor
    · intro h
      cases h
      exact ⟨hvalue, [], .nil, by simp⟩
    · rintro ⟨-, ds, hds, rfl⟩
      cases hds
      simp [readDigits]
  | cons c cs ih =>
    unfold readDigits
    split
    · next hnone =>
      refine iff_of_false (fun h => nomatch h) ?_
      rintro ⟨-, ds, hds, -⟩
      cases hds with
      | cons hd _ =>
        rw [(digit?_eq_some hbase).mpr hd] at hnone
        cases hnone
    · next d hd =>
      have hcons : (∃ ds, Digits base (c :: cs) ds ∧
            value * base ^ ds.length + Nat.ofDigits base ds.reverse = n) ↔
          ∃ ds, Digits base cs ds ∧
            (value * base + d) * base ^ ds.length + Nat.ofDigits base ds.reverse = n := by
        constructor
        · rintro ⟨ds, hds, hn⟩
          cases hds with
          | cons hd' hrest =>
            cases hd.symm.trans ((digit?_eq_some hbase).mpr hd')
            exact ⟨_, hrest, by rw [← ofDigits_push]; exact hn⟩
        · rintro ⟨ds, hrest, hn⟩
          exact ⟨d :: ds, .cons ((digit?_eq_some hbase).mp hd) hrest, by rw [ofDigits_push]; exact hn⟩
      rw [hcons]
      split
      · next hle => exact ih hle
      · next hgt =>
        refine iff_of_false (fun h => nomatch h) ?_
        rintro ⟨hn, ds, -, rfl⟩
        have hgrows : value * base + d ≤ (value * base + d) * base ^ ds.length :=
          Nat.le_mul_of_pos_right _ (Nat.pow_pos hpos)
        omega

theorem digits_of_map {base : Nat} {ds : List Nat} (hds : ∀ d ∈ ds, d < base) {cs : List Char}
    (h : cs.map Char.toLower = ds.map Nat.digitChar) : Digits base cs ds := by
  induction ds generalizing cs with
  | nil =>
    cases List.map_eq_nil_iff.mp h
    exact .nil
  | cons d ds ih =>
    obtain ⟨hd, hrest⟩ := List.forall_mem_cons.mp hds
    obtain ⟨c, cs, rfl, hc, hcs⟩ := List.map_eq_cons_iff.mp h
    exact .cons ⟨hd, hc⟩ (ih hrest hcs)

theorem exists_digits_of_toDigits {base : Nat} (hbase : 1 < base) (n : Nat) :
    ∃ ds : List Nat, (∀ d ∈ ds, d < base) ∧ Nat.toDigits base n = ds.map Nat.digitChar ∧
      Nat.ofDigits base ds.reverse = n := by
  -- the last digit comes off the end
  induction n using Nat.strongRecOn with
  | ind n ih =>
    by_cases hsmall : n < base
    · exact ⟨[n], by simpa using hsmall, Nat.toDigits_of_lt_base hsmall, by simp⟩
    · have hdiv : n / base < n := Nat.div_lt_self (by omega) hbase
      obtain ⟨ds, hds, hchars, hvalue⟩ := ih (n / base) hdiv
      refine ⟨ds ++ [n % base], ?_, ?_, ?_⟩
      · intro d hd
        rcases List.mem_append.mp hd with hd | hd
        · exact hds d hd
        · rw [List.mem_singleton.mp hd]
          exact Nat.mod_lt n (by omega)
      · rw [Nat.toDigits_of_base_le hbase (by omega), hchars, List.map_append]
        rfl
      · rw [List.reverse_append, List.reverse_singleton, List.singleton_append, Nat.ofDigits_cons,
          hvalue]
        exact Nat.mod_add_div n base

/-- The digits of a number spell it, in either case and behind any zeros. -/
theorem numeral_of_toDigits {base : Nat} (hbase : 1 < base) {n : Nat} {cs : List Char}
    (h : cs.map Char.toLower = Nat.toDigits base n) (zeros : Nat) :
    Numeral base (List.replicate zeros '0' ++ cs) n := by
  obtain ⟨ds, hds, hchars, hvalue⟩ := exists_digits_of_toDigits hbase n
  have hne : cs ≠ [] := by
    rintro rfl
    exact Nat.toDigits_ne_nil h.symm
  refine ⟨List.append_ne_nil_of_right_ne_nil _ hne, List.replicate zeros 0 ++ ds, ?_, ?_⟩
  · refine digits_of_map (fun d hd => ?_) ?_
    · rcases List.mem_append.mp hd with hd | hd
      · rw [List.eq_of_mem_replicate hd]
        omega
      · exact hds d hd
    · rw [List.map_append, List.map_append, List.map_replicate, List.map_replicate, h, hchars]
      rfl
  · rw [List.reverse_append, List.reverse_replicate, Nat.ofDigits_append_replicate_zero, hvalue]

theorem toDigits_toLower {base : Nat} (hbase : 1 < base) (hmost : base ≤ 16) (n : Nat) :
    (Nat.toDigits base n).map Char.toLower = Nat.toDigits base n := by
  have hlower : ∀ d < 16, d.digitChar.toLower = d.digitChar := by decide
  obtain ⟨ds, hds, hchars, -⟩ := exists_digits_of_toDigits hbase n
  rw [hchars, List.map_map]
  exact List.map_congr_left fun d hd => hlower d ((hds d hd).trans_le hmost)

theorem numeral_toDigits {base : Nat} (hbase : 1 < base) (hmost : base ≤ 16) (n : Nat) :
    Numeral base (Nat.toDigits base n) n :=
  numeral_of_toDigits hbase (toDigits_toLower hbase hmost n) 0

/-- The decimal text of an integer. -/
theorem toList_repr (n : Int) : n.repr.toList =
    if n < 0 then '-' :: Nat.toDigits 10 n.natAbs else Nat.toDigits 10 n.natAbs := by
  cases n with
  | ofNat m =>
    rw [if_neg (by simp)]
    exact Nat.toList_repr
  | negSucc m =>
    rw [if_pos (Int.negSucc_lt_zero m)]
    change ("-" ++ (m + 1).repr).toList = _
    rw [String.toList_append, Nat.toList_repr]
    rfl

theorem Digits.digit?_isSome {base : Nat} (hbase : base ≤ 16) {cs : List Char} {ds : List Nat}
    (h : Digits base cs ds) : ∀ c ∈ cs, (digit? base c).isSome := by
  induction h with
  | nil => exact List.forall_mem_nil _
  | cons hd _ ih =>
    refine List.forall_mem_cons.mpr ⟨?_, ih⟩
    rw [(digit?_eq_some hbase).mpr hd]
    rfl

theorem Numeral.notMem {base : Nat} (hbase : base ≤ 16) {cs : List Char} {n : Nat}
    (h : Numeral base cs n) {x : Char} (hx : digit? base x = none) : x ∉ cs := by
  obtain ⟨-, ds, hds, -⟩ := h
  intro hmem
  have hsome := hds.digit?_isSome hbase x hmem
  rw [hx] at hsome
  cases hsome

theorem Numeral.digit?_isSome {base : Nat} (hbase : base ≤ 16) {cs : List Char} {n : Nat}
    (h : Numeral base cs n) : ∀ c ∈ cs, (digit? 16 c).isSome := by
  intro c hc
  obtain ⟨-, ds, hds, -⟩ := h
  obtain ⟨d, hd⟩ := Option.isSome_iff_exists.mp (hds.digit?_isSome hbase c hc)
  rw [((digit?_eq_some_of_lt hbase).mp hd).2]
  rfl

/-! ## Decimal digits -/

theorem toDigits_isDigit {n : Nat} {c : Char} (h : c ∈ Nat.toDigits 10 n) : c.isDigit = true :=
  Nat.isDigit_of_mem_toDigits (by decide) (by decide) h

theorem digit?_ten {c : Char} {d : Nat} (h : digit? 10 c = some d) :
    c.isDigit = true ∧ c.toNat - '0'.toNat = d := by
  unfold digit? at h
  rw [Option.filter_eq_some_iff, decide_eq_true_eq] at h
  obtain ⟨hvalue, hd⟩ := h
  split at hvalue
  · next hdigit =>
    cases hvalue
    exact ⟨by simpa [Char.isDigit, Char.le_def] using hdigit, rfl⟩
  · split at hvalue
    · cases hvalue
      omega
    · split at hvalue
      · cases hvalue
        omega
      · cases hvalue

theorem Numeral.isDigit {cs : List Char} {n : Nat} (h : Numeral 10 cs n) :
    ∀ c ∈ cs, c.isDigit = true := by
  obtain ⟨-, ds, hds, -⟩ := h
  intro c hc
  obtain ⟨d, hd⟩ := Option.isSome_iff_exists.mp (hds.digit?_isSome (by omega) c hc)
  exact (digit?_ten hd).1

theorem ofDigitChars_digits {cs : List Char} {ds : List Nat} (h : Digits 10 cs ds) (value : Nat) :
    Nat.ofDigitChars 10 cs value = value * 10 ^ ds.length + Nat.ofDigits 10 ds.reverse := by
  induction h generalizing value with
  | nil => simp
  | cons hd _ ih =>
    have hchar := (digit?_ten ((digit?_eq_some (by omega)).mpr hd)).2
    rw [Nat.ofDigitChars_cons, hchar, ih, ofDigits_push, Nat.mul_comm 10 value]

theorem Numeral.ofDigitChars {cs : List Char} {n : Nat} (h : Numeral 10 cs n) :
    Nat.ofDigitChars 10 cs 0 = n := by
  obtain ⟨-, ds, hds, hvalue⟩ := h
  rw [ofDigitChars_digits hds, Nat.zero_mul, Nat.zero_add, hvalue]

/-! ## Signs -/

inductive Sign : List Char → Int → Prop where
  | none : Sign [] 1
  | plus : Sign ['+'] 1
  | minus : Sign ['-'] (-1)

/-- A sign changes no magnitude. -/
theorem Sign.signed {sign : List Char} {s : Int} (h : Sign sign s) (n : Nat) :
    (s * n).natAbs = n ∧ (if decide (s = -1) = true then -(n : Int) else n) = s * n := by
  cases h <;> simp

theorem splitSign_spec (cs : List Char) : ∃ sign,
    Sign sign (if (splitSign cs).1 then -1 else 1) ∧ cs = sign ++ (splitSign cs).2 := by
  unfold splitSign
  split
  · exact ⟨['-'], .minus, rfl⟩
  · exact ⟨['+'], .plus, rfl⟩
  · exact ⟨[], .none, rfl⟩

def Unsigned (cs : List Char) : Prop := cs.head? ≠ some '+' ∧ cs.head? ≠ some '-'

theorem splitSign_append {sign body : List Char} {s : Int} (hsign : Sign sign s)
    (hbody : Unsigned body) : splitSign (sign ++ body) = (decide (s = -1), body) := by
  cases hsign with
  | none =>
    rw [List.nil_append]
    unfold splitSign
    split
    · exact absurd rfl hbody.2
    · exact absurd rfl hbody.1
    · rfl
  | plus => rfl
  | minus => rfl

theorem Numeral.unsigned {base : Nat} (hbase : base ≤ 16) {cs : List Char} {n : Nat}
    (h : Numeral base cs n) : Unsigned cs := by
  have hnone : ∀ x, digit? 16 x = none → cs.head? ≠ some x := by
    intro x hx hhead
    refine h.notMem hbase (Option.eq_none_iff_forall_ne_some.mpr fun d hd => ?_)
      (List.mem_of_head? hhead)
    rw [((digit?_eq_some_of_lt hbase).mp hd).2] at hx
    cases hx
  exact ⟨hnone '+' (by decide), hnone '-' (by decide)⟩

theorem readDigits_numeral {base limit : Nat} (hpos : 0 < base) (hbase : base ≤ 16)
    {fault : IntegerFault} {cs : List Char} (hne : cs ≠ []) {n : Nat} :
    readDigits base limit fault 0 cs = .ok n ↔ n ≤ limit ∧ Numeral base cs n := by
  rw [readDigits_eq_ok hpos hbase (Nat.zero_le limit)]
  simp only [Numeral, Nat.zero_mul, Nat.zero_add, ne_eq, hne, not_false_eq_true, true_and]

/-- A natural number is read from its digits, with or without a plus sign, up to the limit. -/
theorem readNatural_eq_ok {base limit : Nat} (hpos : 0 < base) (hbase : base ≤ 16) {cs : List Char}
    {n : Nat} : readNatural base limit cs = .ok n ↔
      n ≤ limit ∧ ∃ sign digits, Sign sign 1 ∧ cs = sign ++ digits ∧ Numeral base digits n := by
  unfold readNatural
  split
  · refine iff_of_false (fun h => nomatch h) ?_
    rintro ⟨-, sign, digits, -, hcs, hdigits⟩
    exact hdigits.1 (List.append_eq_nil_iff.mp hcs.symm).2
  · refine iff_of_false (fun h => nomatch h) ?_
    rintro ⟨-, sign, digits, hsign, hcs, hdigits⟩
    cases hsign with
    | none =>
      refine (hdigits.unsigned hbase).1 ?_
      rw [List.nil_append] at hcs
      rw [← hcs]
      rfl
    | plus => exact hdigits.1 (List.cons.inj hcs).2.symm
  · next digits hne =>
    rw [readDigits_numeral hpos hbase fun hnil => hne (by rw [hnil])]
    refine and_congr_right fun _ => ⟨fun h => ⟨['+'], digits, .plus, rfl, h⟩, ?_⟩
    rintro ⟨sign, digits', hsign, hcs, hdigits⟩
    cases hsign with
    | none =>
      refine absurd ?_ (hdigits.unsigned hbase).1
      rw [List.nil_append] at hcs
      rw [← hcs]
      rfl
    | plus => rwa [(List.cons.inj hcs).2]
  · next hne _ hplus =>
    rw [readDigits_numeral hpos hbase hne]
    refine and_congr_right fun _ => ⟨fun h => ⟨[], cs, .none, rfl, h⟩, ?_⟩
    rintro ⟨sign, digits, hsign, rfl, hdigits⟩
    cases hsign with
    | none => exact hdigits
    | plus => exact absurd rfl (hplus digits)

theorem readNatural_numeral {base limit : Nat} (hpos : 0 < base) (hbase : base ≤ 16)
    {cs : List Char} {n : Nat} (h : Numeral base cs n) (hlimit : n ≤ limit) :
    readNatural base limit cs = .ok n :=
  (readNatural_eq_ok hpos hbase).mpr ⟨hlimit, [], cs, .none, rfl, h⟩

/-- What is read has at most one sign, and digits behind it. -/
theorem readInteger_sound {base limit : Nat} (hpos : 0 < base) (hbase : base ≤ 16) {cs : List Char}
    {n : Int} (h : readInteger base limit cs = .ok n) :
    ∃ sign s digits m, Sign sign s ∧ cs = sign ++ digits ∧ Numeral base digits m ∧ n = s * m := by
  unfold readInteger at h
  split at h
  · cases h
  · next digits hne =>
    cases hread : readDigits base (limit + 1) .tooSmall 0 digits with
    | error e => rw [hread] at h; cases h
    | ok m =>
      rw [hread] at h
      cases h
      have hdigits := ((readDigits_numeral hpos hbase fun hnil => hne (by rw [hnil])).mp hread).2
      exact ⟨['-'], -1, digits, m, .minus, rfl, hdigits, by simp⟩
  · cases hread : readNatural base limit cs with
    | error e => rw [hread] at h; cases h
    | ok m =>
      rw [hread] at h
      cases h
      obtain ⟨-, sign, digits, hsign, hcs, hdigits⟩ := (readNatural_eq_ok hpos hbase).mp hread
      exact ⟨sign, 1, digits, m, hsign, hcs, hdigits, by simp⟩

/-- Digits without a sign are read as the number they are worth. -/
theorem readInteger_numeral {base limit : Nat} (hpos : 0 < base) (hbase : base ≤ 16)
    {cs : List Char} {n : Nat} (h : Numeral base cs n) (hlimit : n ≤ limit) :
    readInteger base limit cs = .ok (n : Int) := by
  have hunsigned := h.unsigned hbase
  unfold readInteger
  split
  · exact absurd rfl hunsigned.2
  · exact absurd rfl hunsigned.2
  · rw [readNatural_numeral hpos hbase h hlimit]
    rfl

end NodeProbe.Number
