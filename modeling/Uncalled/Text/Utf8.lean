/-! Text as UTF-8 bytes. `encode` writes a string, `decode?` reads one back or refuses, and
`decodeLossy` reads any bytes, putting the replacement character for each longest run of bytes that
begins a character without completing it. -/
namespace Uncalled.Text

abbrev Bytes := List UInt8

def encode (s : String) : Bytes := s.toList.flatMap String.utf8EncodeChar

/-- What a lead byte asks for: the range of the byte after it, how many bytes follow in all, and
the bits the lead byte itself carries. -/
structure Lead where
  low : UInt8
  high : UInt8
  follow : Nat
  bits : Nat
  deriving DecidableEq, Repr

def lead? (b : UInt8) : Option Lead :=
  if b < 0x80 then some ⟨0x80, 0xbf, 0, b.toNat⟩
  else if b < 0xc2 then none
  else if b < 0xe0 then some ⟨0x80, 0xbf, 1, b.toNat - 0xc0⟩
  else if b = 0xe0 then some ⟨0xa0, 0xbf, 2, 0⟩
  else if b = 0xed then some ⟨0x80, 0x9f, 2, 0xd⟩
  else if b < 0xf0 then some ⟨0x80, 0xbf, 2, b.toNat - 0xe0⟩
  else if b = 0xf0 then some ⟨0x90, 0xbf, 3, 0⟩
  else if b < 0xf4 then some ⟨0x80, 0xbf, 3, b.toNat - 0xf0⟩
  else if b = 0xf4 then some ⟨0x80, 0x8f, 3, 4⟩
  else none

def follow (low high : UInt8) : Nat → Nat → Bytes → Nat × Nat
  | 0, bits, _ => (bits, 0)
  | n + 1, bits, [] => (bits, n + 1)
  | n + 1, bits, b :: bs =>
    if low ≤ b ∧ b ≤ high then follow 0x80 0xbf n (bits * 64 + (b.toNat - 0x80)) bs
    else (bits, n + 1)

inductive Head
  | char (c : Char) (more : Nat)
  | broken (more : Nat)
  deriving DecidableEq, Repr

def Head.more : Head → Nat
  | .char _ n => n
  | .broken n => n

def head (b : UInt8) (bs : Bytes) : Head :=
  match lead? b with
  | none => .broken 0
  | some l =>
    match follow l.low l.high l.follow l.bits bs with
    | (code, 0) => .char (Char.ofNat code) l.follow
    | (_, missing) => .broken (l.follow - missing)

def lossyChars : Nat → Bytes → List Char
  | 0, _ => []
  | _ + 1, [] => []
  | n + 1, b :: bs =>
    match head b bs with
    | .char c more => c :: lossyChars n (bs.drop more)
    | .broken more => '�' :: lossyChars n (bs.drop more)

def decodeLossy (bs : Bytes) : String := String.ofList (lossyChars bs.length bs)

def chars? : Nat → Bytes → Option (List Char)
  | _, [] => some []
  | 0, _ :: _ => none
  | n + 1, b :: bs =>
    match head b bs with
    | .char c more => (chars? n (bs.drop more)).map (c :: ·)
    | .broken _ => none

def decode? (bs : Bytes) : Option String := (chars? bs.length bs).map String.ofList

end Uncalled.Text
