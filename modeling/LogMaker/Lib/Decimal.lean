import Mathlib.Logic.Function.Basic
/-!
# Decimal — a signed integer as printed, and what it can be mistaken for

`signed z` is `z` in decimal with a leading minus for the negative ones and no leading zeros, and `parse` reads it back.
Appended to free text it is ambiguous in exactly one way (`append_signed_eq_iff`): one text is the other one followed by
the characters that lead the other's number.
-/
namespace Decimal

def signed : Int → List Char
  | .ofNat n => Nat.toDigits 10 n
  | .negSucc n => '-' :: Nat.toDigits 10 (n + 1)

/-- The integer that a text prints, if it prints one. -/
def parse : List Char → Int
  | '-' :: cs => -(Nat.ofDigitChars 10 cs 0)
  | cs => Nat.ofDigitChars 10 cs 0

theorem minus_not_mem_toDigits (n : Nat) : '-' ∉ Nat.toDigits 10 n := by
  intro h
  have hd := Nat.isDigit_of_mem_toDigits (by decide) (by decide) h
  exact absurd hd (by decide)

theorem parse_of_no_minus {cs : List Char} (h : '-' ∉ cs) : parse cs = Nat.ofDigitChars 10 cs 0 := by
  unfold parse
  split
  · exact absurd List.mem_cons_self h
  · rfl

/-- **The printing reads back.** -/
theorem parse_signed (z : Int) : parse (signed z) = z := by
  cases z with
  | ofNat n =>
    rw [signed, parse_of_no_minus (minus_not_mem_toDigits n), Nat.ofDigitChars_ten_toDigits]
    rfl
  | negSucc n =>
    rw [signed, parse, Nat.ofDigitChars_ten_toDigits]
    rfl

theorem signed_injective : Function.Injective signed := Function.LeftInverse.injective parse_signed

theorem signed_ne_nil (z : Int) : signed z ≠ [] := by
  cases z with
  | ofNat n => exact Nat.toDigits_ne_nil
  | negSucc n => exact List.cons_ne_nil _ _

/-- The first text is the second one followed by characters that lead the second one's number, and the rest of that
number is the first one's: both then read the same with their numbers appended. -/
def Absorbs (t₁ : List Char) (z₁ : Int) (t₂ : List Char) (z₂ : Int) : Prop :=
  ∃ d, d ≠ [] ∧ t₁ = t₂ ++ d ∧ signed z₂ = d ++ signed z₁

/-- **Where two appended numbers collide**: numbers that differ, after texts, read the same exactly when one text
absorbed leading characters of the other's number. -/
theorem append_signed_eq_iff (t₁ t₂ : List Char) {z₁ z₂ : Int} (hz : z₁ ≠ z₂) :
    t₁ ++ signed z₁ = t₂ ++ signed z₂ ↔ Absorbs t₁ z₁ t₂ z₂ ∨ Absorbs t₂ z₂ t₁ z₁ := by
  constructor
  · intro h
    rcases List.append_eq_append_iff.1 h with ⟨d, hd₂, hd₁⟩ | ⟨d, hd₁, hd₂⟩
    · refine .inr ⟨d, ?_, hd₂, hd₁⟩
      rintro rfl
      exact hz (signed_injective hd₁)
    · refine .inl ⟨d, ?_, hd₁, hd₂⟩
      rintro rfl
      exact hz (signed_injective hd₂.symm)
  · rintro (⟨d, -, rfl, hd⟩ | ⟨d, -, rfl, hd⟩)
    · rw [hd, List.append_assoc]
    · rw [hd, List.append_assoc]

end Decimal
