import Tabulation.Decimal.Shortest

/-! Doubles as text. -/
namespace Tabulation.Decimal

/-- The decimal digits of a number. -/
def digitChars (n : Nat) : List Char := Nat.toDigits 10 n

/-- Digits `d₁d₂…` with the point after the first one and the power of ten that is left. -/
def scientific (digits : List Char) (power : Int) : List Char :=
  let mantissa :=
    match digits with
    | [] => ['0']
    | [d] => [d]
    | d :: ds => d :: '.' :: ds
  mantissa ++ ['e', if power < 0 then '-' else '+'] ++ digitChars power.natAbs

/-- Digits with the point where the power of ten of the first one puts it, and a digit on either
side of it. -/
def positional (digits : List Char) (power : Int) : List Char :=
  if power < 0 then
    ['0', '.'] ++ List.replicate (-power - 1).toNat '0' ++ digits
  else
    let whole := power.toNat + 1
    let front := digits.take whole
    let back := digits.drop whole
    front ++ List.replicate (whole - front.length) '0' ++ '.' :: (if back = [] then ['0'] else back)

/-- A finite double in the fewest digits that read back: positional from `10⁻⁵` up to `10¹⁶`,
otherwise with a power of ten whose sign is always written. The text always shows that it is no
integer. -/
def render (x : Float) : List Char :=
  let sign := if x.toBits.toNat < signBit then [] else ['-']
  let d := (Binary.ofFloat x).shortest
  let digits := digitChars d.digits
  let power := (digits.length : Int) - 1 + d.exponent
  sign ++
    if d.digits = 0 then ['0', '.', '0']
    else if -5 ≤ power ∧ power < 16 then positional digits power
    else scientific digits power

end Tabulation.Decimal
