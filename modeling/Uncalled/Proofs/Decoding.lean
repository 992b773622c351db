import Mathlib.Tactic.SplitIfs
import Uncalled.Proofs.ByteOrder
/-! Decoding bytes that need not be text. What was encoded comes back as it was, whatever follows
it. A byte below 128 stands for its character in every context: it ends a character that is not
complete, and no longer character looks like it. -/
namespace Uncalled.Text

def lossy (bs : Bytes) : List Char := lossyChars bs.length bs

def Head.shown : Head → Char
  | .char c _ => c
  | .broken _ => '�'

theorem lossyStep (n : Nat) (b : UInt8) (bs : Bytes) :
    lossyChars (n + 1) (b :: bs) =
      (head b bs).shown :: lossyChars n (bs.drop (head b bs).more) := by
  rw [lossyChars]
  cases head b bs <;> rfl

theorem lossyEnough {m n : Nat} {bs : Bytes} (left : bs.length ≤ m) (right : bs.length ≤ n) :
    lossyChars m bs = lossyChars n bs := by
  induction m generalizing n bs with
  | zero =>
    obtain rfl := List.eq_nil_of_length_eq_zero (Nat.le_zero.mp left)
    cases n <;> rfl
  | succ m ih =>
    cases bs with
    | nil => cases n <;> rfl
    | cons b bs =>
      cases n with
      | zero => cases right
      | succ n =>
        rw [List.length_cons] at left right
        have shorter : (bs.drop (head b bs).more).length ≤ bs.length := by simp
        rw [lossyStep, lossyStep, ih (n := n) (by omega) (by omega)]

theorem lossyCons (b : UInt8) (bs : Bytes) :
    lossy (b :: bs) = (head b bs).shown :: lossy (bs.drop (head b bs).more) := by
  rw [lossy, List.length_cons, lossyStep, lossyEnough (by simp) (Nat.le_refl _), lossy]

/- All that decoding needs to know of a lead byte: it is the whole character, or the bytes after it
give the character more than seven bits. -/
theorem leadCases {b : UInt8} {l : Lead} (lead : lead? b = some l) :
    (b < 0x80 ∧ l = ⟨0x80, 0xbf, 0, b.toNat⟩) ∨
      (0x80 ≤ l.low ∧ ((l.follow = 1 ∧ 2 ≤ l.bits) ∨
        (2 ≤ l.follow ∧ (1 ≤ l.bits ∨ 0x90 ≤ l.low)))) := by
  unfold lead? at lead
  simp only [UInt8.lt_iff_toNat_lt, ← UInt8.toNat_inj, UInt8.reduceToNat] at lead ⊢
  split_ifs at lead <;> cases lead <;> simp <;> omega

theorem leadLow {b : UInt8} {l : Lead} (lead : lead? b = some l) : 0x80 ≤ l.low := by
  rcases leadCases lead with ⟨_, rfl⟩ | ⟨low, _⟩
  · exact UInt8.le_refl _
  · exact low

theorem followStops {low high a : UInt8} (above : 0x80 ≤ low) (ascii : a < 0x80) (n bits : Nat)
    (bs rest : Bytes) : follow low high n bits (bs ++ a :: rest) = follow low high n bits bs := by
  induction bs generalizing low high n bits with
  | nil =>
    cases n with
    | zero => rfl
    | succ n =>
      have outside : ¬ (low ≤ a ∧ a ≤ high) := fun inside =>
        absurd (UInt8.lt_of_lt_of_le ascii above) (UInt8.not_lt.mpr inside.1)
      simp [follow, outside]
  | cons b bs ih =>
    cases n with
    | zero => rfl
    | succ n =>
      rw [List.cons_append, follow, follow]
      split
      · exact ih (by decide) n _
      · rfl

theorem followTakes (low high : UInt8) (n bits : Nat) (bs : Bytes) :
    n ≤ (follow low high n bits bs).2 + bs.length := by
  induction bs generalizing low high n bits with
  | nil => cases n <;> simp [follow]
  | cons b bs ih =>
    cases n with
    | zero => simp
    | succ n =>
      rw [follow]
      split
      · have rest := ih 0x80 0xbf n (bits * 64 + (b.toNat - 0x80))
        rw [List.length_cons]
        omega
      · simp

theorem headTakes (b : UInt8) (bs : Bytes) : (head b bs).more ≤ bs.length := by
  unfold head
  split
  · exact Nat.zero_le _
  · rename_i l lead
    have takes := followTakes l.low l.high l.follow l.bits bs
    split
    · rename_i code read
      rw [read] at takes
      simpa [Head.more] using takes
    · rename_i code missing _ read
      rw [read] at takes
      simp only [Head.more] at takes ⊢
      omega

theorem headStops {a : UInt8} (ascii : a < 0x80) (b : UInt8) (bs rest : Bytes) :
    head b (bs ++ a :: rest) = head b bs := by
  unfold head
  split
  · rfl
  · rename_i l lead
    rw [followStops (leadLow lead) ascii]

theorem lossyAppend {a : UInt8} (ascii : a < 0x80) (xs rest : Bytes) :
    lossy (xs ++ a :: rest) = lossy xs ++ lossy (a :: rest) := by
  induction whole : xs.length using Nat.strongRecOn generalizing xs with
  | ind n ih =>
    cases xs with
    | nil => rfl
    | cons b bs =>
      rw [List.length_cons] at whole
      have shorter : (bs.drop (head b bs).more).length < n := by simp; omega
      rw [List.cons_append, lossyCons, lossyCons, headStops ascii,
        List.drop_append_of_le_length (headTakes b bs), ih _ shorter _ rfl, List.cons_append]

theorem followGrows {low high : UInt8} {n bits code : Nat} {bs : Bytes}
    (read : follow low high n bits bs = (code, 0)) :
    bits ≤ code ∧ (n ≠ 0 → bits * 64 + (low.toNat - 0x80) ≤ code) := by
  induction bs generalizing low high n bits with
  | nil =>
    cases n with
    | zero =>
      cases read
      simp
    | succ n => cases read
  | cons b bs ih =>
    cases n with
    | zero =>
      cases read
      simp
    | succ n =>
      rw [follow] at read
      split at read
      · rename_i inside
        have lower := UInt8.le_iff_toNat_le.mp inside.1
        obtain ⟨grows, _⟩ := ih read
        exact ⟨by omega, fun _ => by omega⟩
      · cases read

theorem longChar {low high : UInt8} {n bits code : Nat} {bs : Bytes}
    (read : follow low high n bits bs = (code, 0))
    (long : (n = 1 ∧ 2 ≤ bits) ∨ (2 ≤ n ∧ (1 ≤ bits ∨ 0x90 ≤ low))) : 128 ≤ code := by
  rcases long with ⟨rfl, two⟩ | ⟨many, large⟩
  · have grows := (followGrows read).2 (by decide)
    omega
  · cases bs with
    | nil =>
      obtain ⟨m, rfl⟩ : ∃ m, n = m + 1 := ⟨n - 1, by omega⟩
      cases read
    | cons b bs =>
      obtain ⟨m, rfl⟩ : ∃ m, n = m + 1 := ⟨n - 1, by omega⟩
      rw [follow] at read
      split at read
      · rename_i inside
        have lower := UInt8.le_iff_toNat_le.mp inside.1
        have grows := (followGrows read).2 (by omega)
        rw [UInt8.le_iff_toNat_le] at large
        simp at large
        omega
      · cases read

theorem headShown {c : Char} (positive : 0 < c.toNat) (ascii : c.toNat < 128)
    {b : UInt8} {bs : Bytes}
    (shown : (head b bs).shown = c) : b = UInt8.ofNat c.toNat := by
  have replaced : ('�' : Char).toNat = 65533 := by decide
  unfold head at shown
  split at shown
  · rw [← shown, Head.shown, replaced] at ascii
    omega
  · rename_i l lead
    split at shown
    · rename_i code read
      obtain rfl : Char.ofNat code = c := shown
      -- a number that is no character would show as zero
      have value : (Char.ofNat code).toNat = code := by
        by_cases valid : code.isValidChar
        · rw [Char.ofNat, dif_pos valid]
          rfl
        · rw [Char.ofNat, dif_neg valid] at positive
          cases positive
      rw [value] at ascii ⊢
      rcases leadCases lead with ⟨small, rfl⟩ | ⟨_, long⟩
      · cases read
        rw [UInt8.ofNat_toNat]
      · have big := longChar read long
        omega
    · rw [← shown, Head.shown, replaced] at ascii
      omega

theorem lossyMember {c : Char} (positive : 0 < c.toNat) (ascii : c.toNat < 128) {bs : Bytes}
    (inside : c ∈ lossy bs) : UInt8.ofNat c.toNat ∈ bs := by
  induction whole : bs.length using Nat.strongRecOn generalizing bs with
  | ind n ih =>
    cases bs with
    | nil => cases inside
    | cons b bs =>
      rw [List.length_cons] at whole
      have shorter : (bs.drop (head b bs).more).length < n := by simp; omega
      rw [lossyCons] at inside
      rcases List.mem_cons.mp inside with here | later
      · rw [headShown positive ascii here.symm]
        exact List.mem_cons_self
      · exact List.mem_cons_of_mem _ (List.mem_of_mem_drop (ih _ shorter later rfl))

theorem byteValue {n : Nat} (byte : n < 256) : (UInt8.ofNat n).toNat = n := by
  rw [UInt8.toNat_ofNat']
  exact Nat.mod_eq_of_lt byte

theorem followByte {low high : UInt8} {k : Nat} (byte : k < 256) (lower : low.toNat ≤ k)
    (upper : k ≤ high.toNat) (n bits : Nat) (bs : Bytes) :
    follow low high (n + 1) bits (UInt8.ofNat k :: bs) =
      follow 0x80 0xbf n (bits * 64 + (k - 0x80)) bs := by
  have inside : low ≤ UInt8.ofNat k ∧ UInt8.ofNat k ≤ high := by
    rw [UInt8.le_iff_toNat_le, UInt8.le_iff_toNat_le, byteValue byte]
    exact ⟨lower, upper⟩
  rw [follow, if_pos inside, byteValue byte]

theorem headOf {b : UInt8} {bs : Bytes} {l : Lead} {code : Nat} (lead : lead? b = some l)
    (read : follow l.low l.high l.follow l.bits bs = (code, 0)) :
    head b bs = .char (Char.ofNat code) l.follow := by
  simp [head, lead, read]

theorem leadOne {n : Nat} (range : n < 128) :
    lead? (UInt8.ofNat n) = some ⟨0x80, 0xbf, 0, n⟩ := by
  simp only [lead?, UInt8.lt_iff_toNat_lt, byteValue (show n < 256 by omega), UInt8.reduceToNat]
  rw [if_pos range]

theorem leadTwo {n : Nat} (range : 194 ≤ n ∧ n < 224) :
    lead? (UInt8.ofNat n) = some ⟨0x80, 0xbf, 1, n - 192⟩ := by
  simp only [lead?, UInt8.lt_iff_toNat_lt, byteValue (show n < 256 by omega), UInt8.reduceToNat]
  rw [if_neg (by omega), if_neg (by omega), if_pos (by omega)]

theorem leadThree {n : Nat} (range : 224 ≤ n ∧ n < 240) :
    lead? (UInt8.ofNat n) = some ⟨if n = 224 then 0xa0 else 0x80, if n = 237 then 0x9f else 0xbf, 2,
      n - 224⟩ := by
  simp only [lead?, UInt8.lt_iff_toNat_lt, ← UInt8.toNat_inj, byteValue (show n < 256 by omega),
    UInt8.reduceToNat]
  rw [if_neg (by omega), if_neg (by omega), if_neg (by omega)]
  split_ifs <;> simp_all

theorem leadFour {n : Nat} (range : 240 ≤ n ∧ n < 245) :
    lead? (UInt8.ofNat n) = some ⟨if n = 240 then 0x90 else 0x80, if n = 244 then 0x8f else 0xbf, 3,
      n - 240⟩ := by
  simp only [lead?, UInt8.lt_iff_toNat_lt, ← UInt8.toNat_inj, byteValue (show n < 256 by omega),
    UInt8.reduceToNat]
  rw [if_neg (by omega), if_neg (by omega), if_neg (by omega)]
  split_ifs <;> simp_all <;> omega

theorem headEncode (c : Char) (rest : Bytes) : ∃ first more,
    String.utf8EncodeChar c = first :: more ∧ head first (more ++ rest) = .char c more.length := by
  have valid := c.valid
  have same : Char.ofNat c.val.toNat = c := Char.ofNat_toNat c
  unfold UInt32.isValidChar Nat.isValidChar at valid
  unfold String.utf8EncodeChar
  generalize c.val.toNat = v at valid same
  rw [← same]
  dsimp only
  split_ifs with one two three
  · exact ⟨_, _, rfl, headOf (leadOne (by omega)) rfl⟩
  · refine ⟨_, _, rfl, headOf (leadTwo (by omega)) ?_⟩
    dsimp only [List.cons_append, List.nil_append]
    rw [followByte (by omega) (by simp) (by simp; omega), follow]
    exact congrArg (·, 0) (by omega)
  · refine ⟨_, _, rfl, headOf (leadThree (by omega)) ?_⟩
    dsimp only [List.cons_append, List.nil_append]
    rw [followByte (by omega) (by split_ifs <;> simp; omega) (by split_ifs <;> simp <;> omega),
      followByte (by omega) (by simp) (by simp; omega), follow]
    exact congrArg (·, 0) (by omega)
  · refine ⟨_, _, rfl, headOf (leadFour (by omega)) ?_⟩
    dsimp only [List.cons_append, List.nil_append]
    rw [followByte (by omega) (by split_ifs <;> simp; omega) (by split_ifs <;> simp <;> omega),
      followByte (by omega) (by simp) (by simp; omega),
      followByte (by omega) (by simp) (by simp; omega), follow]
    exact congrArg (·, 0) (by omega)

theorem lossyEncode (s : String) (rest : Bytes) :
    lossy (encode s ++ rest) = s.toList ++ lossy rest := by
  unfold encode
  induction s.toList with
  | nil => rfl
  | cons c cs ih =>
    obtain ⟨first, more, bytes, head⟩ := headEncode c (cs.flatMap String.utf8EncodeChar ++ rest)
    rw [List.flatMap_cons, bytes, List.append_assoc, List.cons_append, lossyCons, head, Head.more,
      List.drop_left, ih]
    rfl

theorem lossyBetween {s : String} {c : Char} {cs : List Char} (chars : s.toList = c :: cs)
    (ascii : c.toNat < 128) (xs rest : Bytes) :
    lossy (xs ++ (encode s ++ rest)) = lossy xs ++ (s.toList ++ lossy rest) := by
  have single : String.utf8EncodeChar c = [UInt8.ofNat c.toNat] := by
    rw [String.utf8EncodeChar]
    exact if_pos (Nat.le_of_lt_succ ascii)
  have small : UInt8.ofNat c.toNat < 0x80 := by
    rw [UInt8.lt_iff_toNat_lt, byteValue (by omega)]
    exact ascii
  have bytes : encode s = UInt8.ofNat c.toNat :: cs.flatMap String.utf8EncodeChar := by
    rw [encode, chars, List.flatMap_cons, single]
    rfl
  rw [← lossyEncode, bytes, List.cons_append, lossyAppend small]

theorem digitsPlain {c : Char} (other : c.isDigit = false) (n : Nat) : c ∉ Nat.toDigits 10 n := by
  intro inside
  have digit := Nat.isDigit_of_mem_toDigits (by decide) (by decide) inside
  simp [other] at digit

end Uncalled.Text
