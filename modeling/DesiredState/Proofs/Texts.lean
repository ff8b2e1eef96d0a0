import DesiredState.Text.Blank
import DesiredState.Text.Numeral
import Mathlib.Data.List.TakeWhile
import Mathlib.Data.Nat.Digits.Defs

/-!
Texts as they are written, and how they are read step by step: numerals, the pieces between separators, and what is left
when white space is taken off the ends. Each reader is told by what it accepts. -/
namespace DesiredState

section
variable {ε α β : Type} {x : Except ε α} {f : α → Except ε β}

theorem boundOk {b : β} : x >>= f = .ok b ↔ ∃ a, x = .ok a ∧ f a = .ok b := by
  cases x with
  | error e => exact iff_of_false nofun nofun
  | ok a =>
    refine ⟨fun ok => ⟨a, rfl, ok⟩, ?_⟩
    rintro ⟨_, same, ok⟩
    cases same
    exact ok

theorem relabeledOk {ε ε' α : Type} {x : Except ε α} {f : ε → ε'} {a : α} : x.mapError f = .ok a ↔ x = .ok a := by
  cases x with
  | error e => exact iff_of_false nofun nofun
  | ok b =>
    change Except.ok b = Except.ok a ↔ _
    rw [Except.ok.injEq, Except.ok.injEq]

theorem boundError {e : ε} : x >>= f = .error e ↔ x = .error e ∨ ∃ a, x = .ok a ∧ f a = .error e := by
  cases x with
  | error e' =>
    constructor
    · rintro ⟨⟩
      exact .inl rfl
    · rintro (⟨⟨⟩⟩ | ⟨_, ok, _⟩)
      · rfl
      · cases ok
  | ok a =>
    refine ⟨fun failed => .inr ⟨a, rfl, failed⟩, ?_⟩
    rintro (failed | ⟨_, ok, failed⟩)
    · cases failed
    · cases ok
      exact failed

end

/-- A numeral: ASCII digits, at least one, the highest first. Zeros in front count for nothing. -/
structure Denotes (s : String) (n : Nat) : Prop where
  nonempty : s.toList ≠ []
  digits : ∀ c ∈ s.toList, '0' ≤ c ∧ c ≤ '9'
  value : Nat.ofDigits 10 (s.toList.reverse.map fun c => c.toNat - '0'.toNat) = n

theorem Denotes.without {s : String} {n : Nat} (denotes : Denotes s n) {c : Char} (other : ¬('0' ≤ c ∧ c ≤ '9')) :
    c ∉ s.toList := fun inside => other (denotes.digits c inside)

theorem pieceFree {α : Type} [BEq α] [LawfulBEq α] {x : α} {xs piece : List α} (cut : piece ∈ xs.splitOn x) :
    x ∉ piece := by
  induction xs generalizing piece with
  | nil =>
    rw [List.mem_singleton.mp cut]
    exact List.not_mem_nil
  | cons y xs ih =>
    rw [List.splitOn_cons_eq_if_modifyHead] at cut
    split at cut
    · rcases List.mem_cons.mp cut with rfl | later
      · exact List.not_mem_nil
      · exact ih later
    · rename_i other
      obtain ⟨first, rest, pieces⟩ := List.exists_cons_of_ne_nil (List.splitOn_ne_nil x xs)
      rw [pieces, List.modifyHead_cons] at cut
      rw [pieces] at ih
      rcases List.mem_cons.mp cut with rfl | later
      · rw [List.mem_cons, not_or]
        exact ⟨fun same => other (beq_iff_eq.mpr same.symm), ih List.mem_cons_self⟩
      · exact ih (List.mem_cons_of_mem _ later)

theorem cutIff {α : Type} [BEq α] [LawfulBEq α] {x : α} {xs : List α} {pieces : List (List α)} :
    xs.splitOn x = pieces ↔ pieces ≠ [] ∧ [x].intercalate pieces = xs ∧ ∀ piece ∈ pieces, x ∉ piece := by
  constructor
  · rintro rfl
    exact ⟨List.splitOn_ne_nil x xs, List.intercalate_splitOn x, fun _ => pieceFree⟩
  · rintro ⟨nonempty, rfl, free⟩
    exact List.splitOn_intercalate x free nonempty

theorem joinPieces {separator : String} {c : Char} (one : separator.toList = [c]) (s : String) :
    separator.intercalate ((s.toList.splitOn c).map String.ofList) = s := by
  have back : String.toList ∘ String.ofList = id := funext fun _ => String.toList_ofList
  rw [← String.toList_inj, String.toList_intercalate, one, List.map_map, back, List.map_id]
  exact List.intercalate_splitOn c

namespace Text.Numeral

theorem valueIsPositional (cs : List Char) : value cs = Nat.ofDigits 10 (cs.reverse.map digit) := by
  rw [Nat.ofDigits_eq_foldr, List.foldr_map, List.foldr_reverse]
  unfold value
  congr 1
  funext n c
  rw [Nat.add_comm]
  rfl

theorem digitsIff {cs : List Char} {n : Nat} : digits? cs = some n ↔ Denotes (String.ofList cs) n := by
  have digital : cs.all isDigit = true ↔ ∀ c ∈ cs, '0' ≤ c ∧ c ≤ '9' := by
    simp [isDigit]
  unfold digits?
  constructor
  · intro read
    split at read
    · rename_i numeral
      cases read
      exact ⟨by simpa using numeral.1, by simpa using digital.mp numeral.2, by
        rw [String.toList_ofList, valueIsPositional]
        rfl⟩
    · cases read
  · rintro ⟨nonempty, digits, rfl⟩
    rw [String.toList_ofList] at nonempty digits ⊢
    rw [if_pos ⟨nonempty, digital.mpr digits⟩, valueIsPositional]
    rfl

theorem valueGrows (n : Nat) (cs : List Char) : n ≤ cs.foldl (fun n c => 10 * n + digit c) n := by
  induction cs generalizing n with
  | nil => exact Nat.le_refl n
  | cons c cs ih => exact Nat.le_trans (by omega) (ih (10 * n + digit c))

theorem readFromIff {bound n m : Nat} {cs : List Char} (small : n < bound) : readFrom bound n cs = .ok m ↔
    cs.all isDigit = true ∧ cs.foldl (fun n c => 10 * n + digit c) n = m ∧ m < bound := by
  induction cs generalizing n with
  | nil =>
    unfold readFrom
    constructor
    · rintro ⟨⟩
      exact ⟨rfl, rfl, small⟩
    · rintro ⟨-, rfl, -⟩
      rfl
  | cons c cs ih =>
    unfold readFrom
    rw [List.all_cons, List.foldl_cons]
    cases digital : isDigit c with
    | false => simp
    | true =>
      rw [Bool.true_and, if_neg (by simp)]
      split
      · -- The value only grows, so it does not come back below the bound.
        rename_i large
        refine iff_of_false nofun ?_
        rintro ⟨-, rfl, below⟩
        have grown := valueGrows (10 * n + digit c) cs
        omega
      · exact ih (by omega)

def Signed (text : String) (n : Nat) : Prop := ∃ digits, (text = digits ∨ text = "+" ++ digits) ∧ Denotes digits n

section
variable {bound n : Nat} (positive : 0 < bound)
include positive

theorem readDigitsIff {cs : List Char} (nonempty : cs ≠ []) :
    readFrom bound 0 cs = .ok n ↔ Denotes (String.ofList cs) n ∧ n < bound := by
  rw [readFromIff positive, ← digitsIff]
  unfold digits?
  constructor
  · rintro ⟨digital, same, small⟩
    exact ⟨by rw [if_pos ⟨nonempty, digital⟩]; exact congrArg some same, small⟩
  · rintro ⟨numeral, small⟩
    split at numeral
    · rename_i digital
      exact ⟨digital.2, Option.some.inj numeral, small⟩
    · cases numeral

theorem readIff {text : String} : read bound text.toList = .ok n ↔ Signed text n ∧ n < bound := by
  constructor
  · intro ok
    unfold read at ok
    split at ok
    · cases ok
    · rename_i c cs written
      obtain ⟨denotes, small⟩ := (readDigitsIff positive (List.cons_ne_nil c cs)).mp ok
      refine ⟨⟨String.ofList (c :: cs), .inr ?_, denotes⟩, small⟩
      rw [← String.toList_inj, written]
      simp
    · rename_i nonempty _
      obtain ⟨denotes, small⟩ := (readDigitsIff positive nonempty).mp ok
      rw [String.ofList_toList] at denotes
      exact ⟨⟨text, .inl rfl, denotes⟩, small⟩
  · rintro ⟨⟨digits, form, denotes⟩, small⟩
    have ok := (readDigitsIff positive denotes.nonempty).mpr ⟨by rwa [String.ofList_toList], small⟩
    obtain ⟨c, rest, cut⟩ := List.exists_cons_of_ne_nil denotes.nonempty
    rcases form with rfl | rfl
    · -- The first character is a digit, so it is not taken for a plus.
      unfold read
      split
      · rename_i empty
        exact absurd empty denotes.nonempty
      · rename_i signed
        exact absurd (denotes.digits '+' (by simp [signed])) (by decide)
      · exact ok
    · have signed : ("+" ++ digits).toList = '+' :: c :: rest := by simp [cut]
      rw [cut] at ok
      rw [signed]
      exact ok

end

end Text.Numeral

namespace Text
variable {cs core before after : List Char}

def Trimmed (cs : List Char) : Prop := cs.head?.any isBlank = false ∧ cs.getLast?.any isBlank = false

theorem dropBlank (blank : before.all isBlank = true) (stops : core.head?.any isBlank = false) :
    (before ++ core).dropWhile isBlank = core := by
  rw [List.dropWhile_append_of_pos (List.all_eq_true.mp blank)]
  cases core with
  | nil => rfl
  | cons c core =>
    have kept : ¬isBlank c = true := Bool.eq_false_iff.mp stops
    rw [List.dropWhile_cons_of_neg kept]

theorem dropStops (cs : List Char) : (cs.dropWhile isBlank).head?.any isBlank = false := by
  have stops := List.head?_dropWhile_not isBlank cs
  cases first : (cs.dropWhile isBlank).head? with
  | none => rfl
  | some c =>
    rw [first] at stops
    exact stops

theorem trimPadded (trimmed : Trimmed core) (front : before.all isBlank = true) (back : after.all isBlank = true) :
    trim (before ++ core ++ after) = core := by
  obtain ⟨first, last⟩ := trimmed
  unfold trim
  cases core with
  | nil =>
    have blank : (before ++ after).all isBlank = true := by rw [List.all_append, front, back]; rfl
    have nothing : (before ++ after ++ []).dropWhile isBlank = [] := dropBlank blank rfl
    rw [List.append_nil] at nothing ⊢
    rw [nothing]
    rfl
  | cons c core =>
    have fromFront : (before ++ (c :: core ++ after)).dropWhile isBlank = c :: core ++ after := dropBlank front first
    have fromBack : (after.reverse ++ (c :: core).reverse).dropWhile isBlank = (c :: core).reverse :=
      dropBlank (by rwa [List.all_reverse]) (by rwa [List.head?_reverse])
    rw [List.append_assoc, fromFront, List.reverse_append, fromBack, List.reverse_reverse]

def leading (cs : List Char) : List Char := cs.takeWhile isBlank

def trailing (cs : List Char) : List Char := ((cs.dropWhile isBlank).reverse.takeWhile isBlank).reverse

theorem leadingBlank (cs : List Char) : (leading cs).all isBlank = true := List.all_takeWhile

theorem trailingBlank (cs : List Char) : (trailing cs).all isBlank = true := by
  unfold trailing
  rw [List.all_reverse]
  exact List.all_takeWhile

theorem trimTrailing (cs : List Char) : trim cs ++ trailing cs = cs.dropWhile isBlank := by
  unfold trim trailing
  rw [← List.reverse_append, List.takeWhile_append_dropWhile, List.reverse_reverse]

theorem trimAround (cs : List Char) : leading cs ++ trim cs ++ trailing cs = cs := by
  rw [List.append_assoc, trimTrailing]
  exact List.takeWhile_append_dropWhile

theorem trimTrimmed (cs : List Char) : Trimmed (trim cs) := by
  constructor
  · have stops := dropStops cs
    rw [← trimTrailing, List.head?_append] at stops
    cases first : (trim cs).head? with
    | none => rfl
    | some c =>
      rw [first] at stops
      exact stops
  · unfold trim
    rw [List.getLast?_reverse]
    exact dropStops _

def Padded (raw core : String) : Prop :=
  ∃ before after : String,
    before.toList.all isBlank = true ∧ after.toList.all isBlank = true ∧ raw = before ++ core ++ after

theorem trimIff {raw core : String} : trim raw.toList = core.toList ↔ Trimmed core.toList ∧ Padded raw core := by
  constructor
  · intro same
    refine ⟨same ▸ trimTrimmed _, String.ofList (leading raw.toList), String.ofList (trailing raw.toList), ?_, ?_, ?_⟩
    · rw [String.toList_ofList]
      exact leadingBlank _
    · rw [String.toList_ofList]
      exact trailingBlank _
    · rw [← String.toList_inj, String.toList_append, String.toList_append, String.toList_ofList, String.toList_ofList,
        ← same, trimAround]
  · rintro ⟨trimmed, before, after, front, back, rfl⟩
    rw [String.toList_append, String.toList_append]
    exact trimPadded trimmed front back

theorem trimPads (raw : String) : Trimmed (trim raw.toList) ∧ Padded raw (String.ofList (trim raw.toList)) := by
  have left := (String.toList_ofList (l := trim raw.toList)).symm
  obtain ⟨trimmed, padded⟩ := trimIff.mp left
  rw [← left] at trimmed
  exact ⟨trimmed, padded⟩

end Text

end DesiredState
