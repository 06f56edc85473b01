/-!
# Numbers of 64 bits

The bounds of the numbers that 64 bits hold, with and without a sign.
-/
namespace NodeProbe.Number

def maxUInt64 : Nat := 18446744073709551615

def maxInt64 : Nat := 9223372036854775807

def minInt64 : Int := -9223372036854775808

/-- The signed number of 64 bits that is nearest to an integer. -/
def clampInt64 (n : Int) : Int64 := Int64.ofInt (max minInt64 (min maxInt64 n))

/-- A number without a sign, taken as a signed one, keeps its value in the lower half of its range
and loses `2 ^ 64` in the upper half. -/
theorem toInt_toInt64 (n : UInt64) :
    n.toInt64.toInt = if n.toNat ≤ maxInt64 then (n.toNat : Int) else n.toNat - (maxUInt64 + 1) := by
  have hval : n.toInt64.toInt = n.toBitVec.toInt := rfl
  have hnat : n.toBitVec.toNat = n.toNat := rfl
  rw [hval, BitVec.toInt_eq_toNat_cond, hnat]
  unfold maxInt64 maxUInt64
  split <;> split <;> omega

end NodeProbe.Number
