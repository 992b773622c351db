import Mathlib.Data.List.Lex
import Uncalled.Text.Utf8
/-! Names are compared character by character, and that is the order of their bytes. A character
with a greater code has the greater encoding: more bytes come with a greater lead byte, and among as
many bytes the higher bits come first. -/
namespace Uncalled.Text

theorem byteLt {m n : Nat} (left : m < 256) (right : n < 256) :
    UInt8.ofNat m < UInt8.ofNat n ↔ m < n := by
  rw [UInt8.lt_iff_toNat_lt, UInt8.toNat_ofNat', UInt8.toNat_ofNat']
  omega

theorem byteEq {m n : Nat} (left : m < 256) (right : n < 256) :
    UInt8.ofNat m = UInt8.ofNat n ↔ m = n := by
  rw [← UInt8.toNat_inj, UInt8.toNat_ofNat', UInt8.toNat_ofNat']
  omega

theorem codeBound (c : Char) : c.val.toNat < 1114112 := by
  rcases c.valid with low | ⟨_, high⟩
  · exact Nat.lt_trans low (by decide)
  · exact high

theorem encodeCharLt {c d : Char} (less : c < d) (xs ys : Bytes) :
    String.utf8EncodeChar c ++ xs < String.utf8EncodeChar d ++ ys := by
  have codes : c.val.toNat < d.val.toNat := less
  have bound := codeBound d
  unfold String.utf8EncodeChar
  generalize c.val.toNat = m at codes
  generalize d.val.toNat = n at codes bound
  -- the bits of each following byte are what the byte before it leaves over
  have left : m / 64 / 64 = m / 4096 ∧ m / 4096 / 64 = m / 262144 := by omega
  have right : n / 64 / 64 = n / 4096 ∧ n / 4096 / 64 = n / 262144 := by omega
  have upTo : m / 64 ≤ n / 64 ∧ m / 4096 ≤ n / 4096 ∧ m / 262144 ≤ n / 262144 := by omega
  have lead : m / 262144 % 8 = m / 262144 ∧ n / 262144 % 8 = n / 262144 := by omega
  dsimp only
  split_ifs <;> try omega
  all_goals
    simp (disch := omega) only [List.cons_append, List.nil_append, List.cons_lt_cons_iff, byteLt,
      byteEq]
    omega

theorem encodeCharsLt {cs ds : List Char} (less : cs < ds) :
    cs.flatMap String.utf8EncodeChar < ds.flatMap String.utf8EncodeChar := by
  induction cs generalizing ds with
  | nil =>
    cases ds with
    | nil => exact absurd less (List.lt_irrefl _)
    | cons d ds =>
      cases bytes : (d :: ds).flatMap String.utf8EncodeChar with
      | nil => simp [String.utf8EncodeChar_ne_nil] at bytes
      | cons b bs => exact List.nil_lt_cons b bs
  | cons c cs ih =>
    cases ds with
    | nil => exact absurd less (List.not_lt_nil _)
    | cons d ds =>
      rw [List.flatMap_cons, List.flatMap_cons]
      rcases List.cons_lt_cons_iff.mp less with first | ⟨rfl, rest⟩
      · exact encodeCharLt first _ _
      · exact List.append_left_lt (ih rest)

@[simp] theorem encodeLt (s t : String) : encode s < encode t ↔ s < t := by
  constructor
  · intro less
    refine String.not_le.mp fun greater => ?_
    by_cases smaller : t < s
    · exact List.lt_asymm less (encodeCharsLt smaller)
    · have same : s = t := String.le_antisymm (String.not_lt.mp smaller) greater
      exact List.lt_irrefl _ (same ▸ less)
  · exact encodeCharsLt

end Uncalled.Text
