/-! Decimal text with a fixed number of places. A number is rounded from its exact binary value, and
a half goes to the even neighbour. -/
namespace Uncalled.Text

def roundDiv (num den : Nat) : Nat :=
  let q := num / den
  let r := num % den
  if 2 * r < den then q
  else if den < 2 * r then q + 1
  else q + q % 2

def padded (width n : Nat) : List Char :=
  let digits := (Nat.repr n).toList
  List.replicate (width - digits.length) '0' ++ digits

def pointed (places units : Nat) : List Char :=
  if places = 0 then (Nat.repr units).toList
  else
    let one := Nat.pow 10 places
    (Nat.repr (units / one)).toList ++ '.' :: padded places (units % one)

inductive Binary
  | notANumber
  | infinite (negative : Bool)
  | finite (negative : Bool) (num den : Nat)
  deriving DecidableEq, Repr

def Binary.ofFloat (x : Float) : Binary :=
  let bits := x.toBits.toNat
  let hidden := 1 <<< 52
  let negative := bits >>> 63 = 1
  let exponent := (bits >>> 52) % 2048
  let fraction := bits % hidden
  if exponent = 2047 then if fraction = 0 then .infinite negative else .notANumber
  else if exponent = 0 then .finite negative fraction (1 <<< 1074)
  else .finite negative ((hidden + fraction) <<< (exponent - 1075)) (1 <<< (1075 - exponent))

def sign (negative : Bool) : List Char := if negative then ['-'] else []

def Binary.fixed (places : Nat) : Binary → List Char
  | .notANumber => "NaN".toList
  | .infinite negative => sign negative ++ "inf".toList
  | .finite negative num den =>
    sign negative ++ pointed places (roundDiv (num * Nat.pow 10 places) den)

/-- The text of a number. The sign of a number that rounds to zero is kept. -/
def fixed (places : Nat) (x : Float) : String := String.ofList ((Binary.ofFloat x).fixed places)

end Uncalled.Text
