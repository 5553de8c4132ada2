import Mathlib.Algebra.Group.Nat.Defs
import Mathlib.Data.List.DropRight
import Mathlib.Tactic.Common

set_option autoImplicit false

namespace ProxySwitch.RuntimeStrings

/-- A .NET string or a C++ `std::string`, by its characters. -/
abbrev Text := List Char

/-- .NET `Char.IsWhiteSpace`: the Unicode separators and the control characters
    U+0009 to U+000D and U+0085. -/
def isWhiteSpace (c : Char) : Bool :=
  let n := c.toNat
  (9 ≤ n && n ≤ 13) || n == 0x20 || n == 0x85 || n == 0xA0 || n == 0x1680 ||
    (0x2000 ≤ n && n ≤ 0x200A) || n == 0x2028 || n == 0x2029 || n == 0x202F ||
    n == 0x205F || n == 0x3000

/-- .NET `String.IsNullOrWhiteSpace`; a null string is read as the empty one. -/
def isNullOrWhiteSpace (s : Text) : Bool := s.all isWhiteSpace

def trimBy (p : Char → Bool) (s : Text) : Text := (s.dropWhile p).rdropWhile p

def trimWhiteSpace (s : Text) : Text := trimBy isWhiteSpace s

def isDigit (c : Char) : Bool := '0' ≤ c && c ≤ '9'

def digitsValue (s : Text) : ℕ := s.foldl (fun n c => 10 * n + (c.toNat - '0'.toNat)) 0

/-- `std::from_chars` into an unsigned type: the value of the longest run of digits and what
    follows it, or nothing if there is no digit or the value does not fit. -/
def fromCharsUnsigned (max : ℕ) (s : Text) : Option (ℕ × Text) :=
  let digits := s.takeWhile isDigit
  if digits = [] then none
  else if max < digitsValue digits then none
  else some (digitsValue digits, s.dropWhile isDigit)

/-- `std::from_chars` into an `int`, which also takes a minus sign. -/
def fromCharsInt (s : Text) : Option (ℤ × Text) :=
  match s with
  | '-' :: s => (fromCharsUnsigned (2 ^ 31) s).map fun (n, rest) => (-n, rest)
  | s => (fromCharsUnsigned (2 ^ 31 - 1) s).map fun (n, rest) => (n, rest)

def decimal (s : Text) : Option ℕ := if s ≠ [] ∧ s.all isDigit then some (digitsValue s) else none

section Trimming
variable {p : Char → Bool} {front s back : Text}

theorem trimBy_split (p : Char → Bool) (s : Text) : ∃ front back, s = front ++ trimBy p s ++ back ∧
    (∀ c ∈ front, p c = true) ∧ ∀ c ∈ back, p c = true := by
  refine ⟨s.takeWhile p, (s.dropWhile p).rtakeWhile p, ?_, fun c => List.mem_takeWhile_imp,
    fun c => List.mem_rtakeWhile_imp⟩
  rw [trimBy, List.append_assoc, List.rdropWhile_append_rtakeWhile, List.takeWhile_append_dropWhile]

theorem trimBy_append (hfront : ∀ c ∈ front, p c = true) (hback : ∀ c ∈ back, p c = true) :
    trimBy p (front ++ s ++ back) = trimBy p s := by
  have hreverse : ∀ c ∈ back.reverse, p c = true := fun c hc => hback c (List.mem_reverse.mp hc)
  rw [trimBy, List.append_assoc, List.dropWhile_append_of_pos hfront, List.dropWhile_append]
  split_ifs with hblank
  · rw [trimBy, List.isEmpty_iff.mp hblank, List.dropWhile_eq_nil_iff.mpr hback]
  · rw [List.rdropWhile, List.reverse_append, List.dropWhile_append_of_pos hreverse]
    rfl

theorem trimBy_head {c : Char} (h : (trimBy p s).head? = some c) : p c = false := by
  obtain ⟨rest, hrest⟩ := List.rdropWhile_prefix p (s.dropWhile p)
  have hdropped := List.head?_dropWhile_not p s
  rw [trimBy] at h
  rw [← hrest, List.head?_append, h] at hdropped
  exact hdropped

theorem trimBy_eq_self (hhead : ∀ c, s.head? = some c → p c = false)
    (hlast : ∀ c, s.getLast? = some c → p c = false) : trimBy p s = s := by
  have hdrop : s.dropWhile p = s := by
    cases s with
    | nil => rfl
    | cons c s => exact List.dropWhile_cons_of_neg (by rw [hhead c rfl]; exact Bool.false_ne_true)
  rw [trimBy, hdrop, List.rdropWhile_eq_self_iff]
  intro hne
  rw [hlast _ (List.getLast?_eq_getLast_of_ne_nil hne)]
  exact Bool.false_ne_true

theorem trimBy_idem (p : Char → Bool) (s : Text) : trimBy p (trimBy p s) = trimBy p s := by
  obtain ⟨front, back, hs, hfront, hback⟩ := trimBy_split p s
  conv_rhs => rw [hs]
  exact (trimBy_append hfront hback).symm

end Trimming

theorem decimal_eq_some {s : Text} {n : ℕ} (h : decimal s = some n) :
    s ≠ [] ∧ s.all isDigit ∧ digitsValue s = n := by
  unfold decimal at h
  split at h
  · rename_i hs
    exact ⟨hs.1, hs.2, Option.some.inj h⟩
  · cases h

theorem fromCharsUnsigned_of_decimal {s : Text} {n max : ℕ} (h : decimal s = some n)
    (hmax : n ≤ max) : fromCharsUnsigned max s = some (n, []) := by
  obtain ⟨hne, hdigits, rfl⟩ := decimal_eq_some h
  rw [List.all_eq_true] at hdigits
  have htake : s.takeWhile isDigit = s := List.takeWhile_eq_self_iff.mpr hdigits
  have hdrop : s.dropWhile isDigit = [] := List.dropWhile_eq_nil_iff.mpr hdigits
  simp [fromCharsUnsigned, htake, hdrop, hne, hmax]

theorem fromCharsUnsigned_eq_some {s rest : Text} {n max : ℕ}
    (h : fromCharsUnsigned max s = some (n, rest)) :
    ∃ digits, s = digits ++ rest ∧ decimal digits = some n ∧ n ≤ max := by
  unfold fromCharsUnsigned at h
  dsimp only at h
  split_ifs at h with hnil hmax
  obtain ⟨rfl, rfl⟩ := Prod.mk.inj (Option.some.inj h)
  have hdigits : (s.takeWhile isDigit).all isDigit = true := List.all_takeWhile
  exact ⟨s.takeWhile isDigit, List.takeWhile_append_dropWhile.symm, if_pos ⟨hnil, hdigits⟩,
    Nat.le_of_not_lt hmax⟩

theorem fromCharsInt_of_decimal {s : Text} {n : ℕ} (h : decimal s = some n)
    (hmax : n ≤ 2 ^ 31 - 1) : fromCharsInt s = some ((n : ℤ), []) := by
  unfold fromCharsInt
  split
  · -- a sign is no digit
    obtain ⟨_, hdigits, _⟩ := decimal_eq_some h
    simp [isDigit] at hdigits
  · rw [fromCharsUnsigned_of_decimal h hmax]
    rfl

end ProxySwitch.RuntimeStrings
