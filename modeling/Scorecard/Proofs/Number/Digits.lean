import Scorecard.Json.Token
import Scorecard.Number.Text
import Scorecard.Proofs.Number.Layout
import Scorecard.Text.Quoted

/-!
# Digits

The digits of a number are read as that number, in base ten and in base sixteen, and zeros in front
of them do not matter.
-/

namespace Scorecard.Number

/-! ## Decimal digits -/

theorem ofDigits_eq (ds : List Char) : ofDigits ds = Nat.ofDigitChars 10 ds 0 :=
  Nat.ofDigitChars_eq_foldl.symm

@[simp] theorem ofDigits_natDigits (n : Nat) : ofDigits (natDigits n) = n := by
  rw [ofDigits_eq]
  exact Nat.ofDigitChars_ten_toDigits

theorem ofDigits_append (ds es : List Char) :
    ofDigits (ds ++ es) = 10 ^ es.length * ofDigits ds + ofDigits es := by
  rw [ofDigits_eq, Nat.ofDigitChars_append, Nat.ofDigitChars_eq_ofDigitChars_zero, ofDigits_eq,
    ofDigits_eq]

@[simp] theorem ofDigits_zeros (k : Nat) : ofDigits (List.replicate k '0') = 0 := by
  rw [ofDigits_eq, Nat.ofDigitChars_replicate_zero, Nat.mul_zero]

@[simp] theorem ofDigits_zeros_append (k : Nat) (ds : List Char) :
    ofDigits (List.replicate k '0' ++ ds) = ofDigits ds := by
  rw [ofDigits_append, ofDigits_zeros, Nat.mul_zero, Nat.zero_add]

theorem natDigits_zero : natDigits 0 = ['0'] := Nat.toDigits_zero 10

/-- The first digit of a number other than zero is no zero. -/
theorem head?_natDigits {n : Nat} (h : n ≠ 0) : (natDigits n).head? ≠ some '0' := by
  induction n using Nat.strong_induction_on with
  | h n ih =>
    rw [natDigits, Nat.toDigits_eq_if (by decide)]
    split
    · next hsmall =>
      have hall : ∀ n < 10, n ≠ 0 → Nat.digitChar n ≠ '0' := by decide
      simpa using hall n hsmall h
    · next hlarge =>
      rw [List.head?_append_of_ne_nil _ Nat.toDigits_ne_nil]
      exact ih (n / 10) (by omega) (by omega)

theorem length_natDigits_le_iff {n k : Nat} (h : 0 < k) : (natDigits n).length ≤ k ↔ n < 10 ^ k :=
  Nat.length_toDigits_le_iff (by decide) h

/-! ## Hexadecimal digits -/

open Json (hexDigit? ofHexDigits?)

theorem ofHexDigits?_append (ds es : List Char) : ofHexDigits? (ds ++ es) =
    (ofHexDigits? ds).bind fun n => es.foldlM (fun n c => (hexDigit? c).map (16 * n + ·)) n :=
  List.foldlM_append

@[simp] theorem ofHexDigits?_hexDigits (n : Nat) : ofHexDigits? (Text.hexDigits n) = some n := by
  have hall : ∀ n < 16, hexDigit? (Nat.digitChar n) = some n := by decide
  induction n using Nat.strong_induction_on with
  | h n ih =>
    rw [Text.hexDigits, Nat.toDigits_eq_if (by decide)]
    split
    · next hsmall => simp [ofHexDigits?, hall n hsmall]
    · next hlarge =>
      have hinit : ofHexDigits? (Nat.toDigits 16 (n / 16)) = some (n / 16) := ih _ (by omega)
      have hlast := hall (n % 16) (by omega)
      simp [ofHexDigits?_append, hinit, hlast]
      omega

theorem ofHexDigits?_zeros_append (k : Nat) (ds : List Char) :
    ofHexDigits? (List.replicate k '0' ++ ds) = ofHexDigits? ds := by
  have hzeros : ofHexDigits? (List.replicate k '0') = some 0 := by
    have hzero : hexDigit? '0' = some 0 := by decide
    induction k with
    | zero => rfl
    | succ k ih =>
      rw [List.replicate_succ, ofHexDigits?, List.foldlM_cons, hzero]
      exact ih
  rw [ofHexDigits?_append, hzeros]
  rfl

end Scorecard.Number
