import DesiredState.Version

/-!
Printed versions. A version reads back from its own text, so a text that was sent is the version that is seen next;
texts that differ may still be one version. -/
namespace DesiredState

namespace Text.Numeral

theorem isDigitAscii (c : Char) : isDigit c = c.isDigit := by
  unfold isDigit Char.isDigit
  rfl

theorem digitsPrinted (n : Nat) : digits? (Nat.toDigits 10 n) = some n := by
  have digits : (Nat.toDigits 10 n).all isDigit = true := by
    rw [List.all_eq_true]
    intro c member
    rw [isDigitAscii]
    exact Nat.isDigit_of_mem_toDigits (by decide) (by decide) member
  have value : value (Nat.toDigits 10 n) = n := Nat.ofDigitChars_eq_foldl.symm.trans Nat.ofDigitChars_ten_toDigits
  unfold digits?
  rw [if_pos ⟨Nat.toDigits_ne_nil, digits⟩, value]

end Text.Numeral

namespace MinorVersion
open Text

def printed (n : UInt32) : List Char := Nat.toDigits 10 n.toNat

theorem componentPrinted (n : UInt32) : component (printed n) = .ok n := by
  unfold component printed
  rw [Numeral.digitsPrinted]
  dsimp only
  rw [if_pos n.toNat_lt, UInt32.ofNat_toNat]

theorem dotUnprinted (n : UInt32) : '.' ∉ printed n := by
  intro member
  have digit := Nat.isDigit_of_mem_toDigits (by decide) (by decide) member
  revert digit
  decide

theorem charactersOfText (v : MinorVersion) : v.text.toList = printed v.major ++ '.' :: printed v.minor := by
  change (toString v.major.toNat ++ "." ++ toString v.minor.toNat).toList = _
  rw [Nat.toString_eq_ofList_toDigits, Nat.toString_eq_ofList_toDigits]
  simp only [String.toList_append, String.toList_ofList, List.append_assoc]
  rfl

theorem parseText (v : MinorVersion) : parse v.text = .ok v := by
  have parts : v.text.toList.splitOn '.' = [printed v.major, printed v.minor] := by
    rw [charactersOfText, List.splitOn_append_cons_self_of_not_mem (dotUnprinted _),
      List.splitOn_eq_singleton (dotUnprinted _)]
  unfold parse
  rw [parts]
  dsimp only
  unfold ofComponents
  rw [componentPrinted, componentPrinted]
  rfl

end MinorVersion
end DesiredState
