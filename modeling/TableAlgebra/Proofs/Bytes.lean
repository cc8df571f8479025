import Mathlib.Algebra.Ring.Nat
import TableAlgebra.Proofs.Pairs
import TableAlgebra.Value.Encoding

namespace TableAlgebra

theorem little_endian_split {count m n : Nat} {s t : List UInt8} (hm : m < 256 ^ count)
    (hn : n < 256 ^ count) (same : littleEndian count m ++ s = littleEndian count n ++ t) :
    m = n ∧ s = t := by
  induction count generalizing m n with
  | zero =>
    simp only [littleEndian, List.nil_append, Nat.pow_zero] at hm hn same
    exact ⟨by omega, same⟩
  | succ count ih =>
    simp only [littleEndian, List.cons_append, List.cons.injEq] at same
    obtain ⟨lowest, others⟩ := same
    have low : m % 256 = n % 256 := by
      have bytes := congrArg UInt8.toNat lowest
      simpa [UInt8.toNat_ofNat'] using bytes
    rw [Nat.pow_succ] at hm hn
    obtain ⟨high, rest⟩ := ih (by omega) (by omega) others
    exact ⟨by omega, rest⟩

theorem word_split {m n : Nat} {s t : List UInt8} (hm : m < wordCount) (hn : n < wordCount)
    (same : wordBytes m ++ s = wordBytes n ++ t) : m = n ∧ s = t :=
  little_endian_split hm hn same

theorem utf8_inj {s t : String} : utf8Bytes s = utf8Bytes t ↔ s = t := by
  constructor
  · intro same
    have data := Array.toList_inj.mp same
    exact String.toByteArray_inj.mp (ByteArray.ext data)
  · exact congrArg utf8Bytes

theorem text_split {a b : String} {s t : List UInt8} (ha : (utf8Bytes a).length < wordCount)
    (hb : (utf8Bytes b).length < wordCount)
    (same : Value.textBytes a ++ s = Value.textBytes b ++ t) : a = b ∧ s = t := by
  simp only [Value.textBytes, List.append_assoc] at same
  obtain ⟨size, rest⟩ := word_split ha hb same
  obtain ⟨bytes, tails⟩ := List.append_inj rest size
  exact ⟨utf8_inj.mp bytes, tails⟩

end TableAlgebra
