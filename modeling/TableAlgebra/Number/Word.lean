namespace TableAlgebra

def wordCount : Nat := 0x10000000000000000

/-- The signed word of 64 bits that is this integer, if there is one. -/
def int64? (i : Int) : Option Int64 :=
  if Int64.minValue.toInt ≤ i ∧ i ≤ Int64.maxValue.toInt then some (Int64.ofInt i) else none

theorem int64?_toInt (w : Int64) : int64? w.toInt = some w := by
  have least := Int64.le_iff_toInt_le.mp (Int64.minValue_le w)
  have greatest := Int64.le_iff_toInt_le.mp (Int64.le_maxValue w)
  rw [int64?, if_pos ⟨least, greatest⟩, Int64.ofInt_toInt]

theorem toInt_of_int64? {i : Int} {w : Int64} (found : int64? i = some w) : w.toInt = i := by
  unfold int64? at found
  split at found
  · rename_i fits
    rw [Int64.toInt_minValue, Int64.toInt_maxValue] at fits
    cases found
    exact Int64.toInt_ofInt_of_le fits.1 (by omega)
  · cases found

theorem int64?_eq_some_iff {i : Int} {w : Int64} : int64? i = some w ↔ w.toInt = i :=
  ⟨toInt_of_int64?, fun same => same ▸ int64?_toInt w⟩

end TableAlgebra
