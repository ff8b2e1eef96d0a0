import Mathlib.Algebra.Group.Nat.Defs
import Mathlib.Data.List.Lex

/-!
The order of texts by their bytes. A character is written as a number in base 64 behind a leading byte, and of two
characters the later one has the later bytes whatever follows, so texts in code point order are in byte order. -/
namespace DesiredState.Text

def bytes (s : String) : List UInt8 := s.toUTF8.data.toList

def BytesBefore (s t : String) : Prop := bytes s < bytes t

/- A number in base 64: the leading byte, then one byte for each further digit. -/
def digits (lead : Nat) : Nat → Nat → List UInt8
  | 0, n => [UInt8.ofNat (lead + n)]
  | k + 1, n => digits lead k (n / 64) ++ [UInt8.ofNat (n % 64 + 128)]

section
variable {lead lead' k l m n : Nat} {left right : List UInt8}

theorem laterByte (small : n < 256) (less : m < n) : UInt8.ofNat m :: left < UInt8.ofNat n :: right := by
  refine List.cons_lt_cons_iff.mpr (.inl ?_)
  rw [UInt8.lt_iff_toNat_lt, UInt8.toNat_ofNat_of_lt' small, UInt8.toNat_ofNat_of_lt' (Nat.lt_trans less small)]
  exact less

theorem digitsLead (lead k n : Nat) : ∃ rest, digits lead k n = UInt8.ofNat (lead + n / 64 ^ k) :: rest := by
  induction k generalizing n with
  | zero => exact ⟨[], by rw [digits, Nat.pow_zero, Nat.div_one]⟩
  | succ k ih =>
    obtain ⟨rest, first⟩ := ih (n / 64)
    rw [Nat.div_div_eq_div_mul, ← Nat.pow_succ'] at first
    exact ⟨rest ++ [UInt8.ofNat (n % 64 + 128)], by rw [digits, first, List.cons_append]⟩

theorem leadsBefore (fits : lead' + n / 64 ^ l < 256) (less : lead + m / 64 ^ k < lead' + n / 64 ^ l) :
    digits lead k m ++ left < digits lead' l n ++ right := by
  obtain ⟨rest, first⟩ := digitsLead lead k m
  obtain ⟨rest', second⟩ := digitsLead lead' l n
  rw [first, second]
  exact laterByte fits less

theorem digitsBefore (fits : lead + n / 64 ^ k < 256) (less : m < n) :
    digits lead k m ++ left < digits lead k n ++ right := by
  induction k generalizing m n left right with
  | zero =>
    rw [Nat.pow_zero, Nat.div_one] at fits
    exact laterByte fits (Nat.add_lt_add_left less lead)
  | succ k ih =>
    rw [digits, digits, List.append_assoc, List.append_assoc]
    rcases Nat.lt_or_eq_of_le (Nat.div_le_div_right (c := 64) (Nat.le_of_lt less)) with upper | same
    · refine ih ?_ upper
      rwa [Nat.div_div_eq_div_mul, ← Nat.pow_succ']
    · rw [same]
      exact List.append_left_lt (laterByte (by omega) (by omega))

inductive Encoded (n : Nat) : Nat → Nat → Prop where
  | one (fits : n < 128) : Encoded n 0 0
  | two (large : 128 ≤ n) (fits : n < 2048) : Encoded n 192 1
  | three (large : 2048 ≤ n) (fits : n < 65536) : Encoded n 224 2
  | four (large : 65536 ≤ n) (fits : n < 1114112) : Encoded n 240 3

theorem Encoded.fits (encoded : Encoded n lead k) : lead + n / 64 ^ k < 256 := by
  cases encoded <;> omega

theorem Encoded.leads (first : Encoded m lead k) (second : Encoded n lead' l) (less : m < n) :
    (lead = lead' ∧ k = l) ∨ lead + m / 64 ^ k < lead' + n / 64 ^ l := by
  cases first <;> cases second <;> omega

end

theorem characterEncoded (c : Char) :
    ∃ lead k, Encoded c.val.toNat lead k ∧ String.utf8EncodeChar c = digits lead k c.val.toNat := by
  have bound : c.val.toNat < 1114112 := by
    rcases c.valid with low | high
    · exact Nat.lt_trans low (by decide)
    · exact high.2
  unfold String.utf8EncodeChar
  generalize c.val.toNat = n at bound
  dsimp only
  split
  · exact ⟨0, 0, .one (by omega), by simp [digits]⟩
  · split
    · refine ⟨192, 1, .two (by omega) (by omega), ?_⟩
      have lead : n / 64 % 32 = n / 64 := Nat.mod_eq_of_lt (by omega)
      simp [digits, lead, Nat.add_comm]
    · split
      · refine ⟨224, 2, .three (by omega) (by omega), ?_⟩
        have lead : n / 4096 % 16 = n / 4096 := Nat.mod_eq_of_lt (by omega)
        simp [digits, lead, Nat.add_comm, Nat.div_div_eq_div_mul]
      · refine ⟨240, 3, .four (by omega) (by omega), ?_⟩
        have lead : n / 262144 % 8 = n / 262144 := Nat.mod_eq_of_lt (by omega)
        simp [digits, lead, Nat.add_comm, Nat.div_div_eq_div_mul]

theorem characterBefore {c d : Char} (less : c < d) (left right : List UInt8) :
    String.utf8EncodeChar c ++ left < String.utf8EncodeChar d ++ right := by
  have below : c.val.toNat < d.val.toNat := UInt32.lt_iff_toNat_lt.mp less
  obtain ⟨lead, k, first, shown⟩ := characterEncoded c
  obtain ⟨lead', l, second, shown'⟩ := characterEncoded d
  rw [shown, shown']
  rcases first.leads second below with ⟨rfl, rfl⟩ | apart
  · exact digitsBefore second.fits below
  · exact leadsBefore second.fits apart

theorem bytesOfCharacters (s : String) : bytes s = s.toList.flatMap String.utf8EncodeChar := by
  have encoded : s.toUTF8 = s.toList.utf8Encode := by
    rw [← String.toByteArray_ofList, String.ofList_toList]
    rfl
  rw [bytes, encoded, List.utf8Encode, List.toList_data_toByteArray]

theorem bytesAscend {s t : String} (less : compare s t = .lt) : BytesBefore s t := by
  have characters (cs ds : List Char) (less : List.Lex (· < ·) cs ds) :
      cs.flatMap String.utf8EncodeChar < ds.flatMap String.utf8EncodeChar := by
    induction less with
    | @nil d ds =>
      obtain ⟨lead, k, _, shown⟩ := characterEncoded d
      obtain ⟨rest, first⟩ := digitsLead lead k d.val.toNat
      rw [List.flatMap_cons, shown, first]
      exact .nil
    | rel here => exact characterBefore here _ _
    | cons _ ih => exact List.append_left_lt ih
  unfold BytesBefore
  rw [bytesOfCharacters, bytesOfCharacters]
  exact characters _ _ (compareOfLessAndEq_eq_lt.mp less)

end DesiredState.Text
