import FluxPmix.Jansson

/-! Counts in an `int`, which none of them may exceed. -/
namespace FluxPmix

/-- Addition of two `int`s, where the sum is one. -/
def intAdd (a b : Int32) : Except Fault Int32 :=
  if (a + b).toInt = a.toInt + b.toInt then .ok (a + b) else .error .undefined

theorem toInt_ofNat_counted (counted : n ≤ intMax) : (Int32.ofNat n).toInt = n :=
  Int32.toInt_ofNat_of_lt (Nat.lt_of_le_of_lt counted (by decide))

theorem toNat_ofNat_counted (counted : n ≤ intMax) : (Int32.ofNat n).toNatClampNeg = n :=
  Int32.toNatClampNeg_ofNat_of_lt (Nat.lt_of_le_of_lt counted (by decide))

theorem ofNat_nonneg_counted (counted : n ≤ intMax) : 0 ≤ Int32.ofNat n := by
  rw [Int32.le_iff_toInt_le, toInt_ofNat_counted counted]
  exact Int.natCast_nonneg n

theorem ofNat_inj_counted (one : n ≤ intMax) (other : m ≤ intMax)
    (same : Int32.ofNat n = Int32.ofNat m) : n = m := by
  have values := congrArg Int32.toNatClampNeg same
  rwa [toNat_ofNat_counted one, toNat_ofNat_counted other] at values

theorem intAdd_ofNat (counted : a + b ≤ intMax) :
    intAdd (Int32.ofNat a) (Int32.ofNat b) = .ok (Int32.ofNat (a + b)) := by
  have sum : Int32.ofNat a + Int32.ofNat b = Int32.ofNat (a + b) := (Int32.ofNat_add a b).symm
  rw [intAdd, sum, toInt_ofNat_counted counted, toInt_ofNat_counted (n := a) (by omega),
    toInt_ofNat_counted (n := b) (by omega)]
  exact if_pos (Int.natCast_add a b)

theorem intAdd_overflow (one : a ≤ intMax) (other : b ≤ intMax) (beyond : intMax < a + b) :
    intAdd (Int32.ofNat a) (Int32.ofNat b) = .error .undefined := by
  have bound := Int32.toInt_lt (Int32.ofNat a + Int32.ofNat b)
  rw [intAdd, toInt_ofNat_counted one, toInt_ofNat_counted other, if_neg]
  rw [intMax] at beyond
  omega

end FluxPmix
