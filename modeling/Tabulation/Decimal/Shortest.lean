/-! The shortest decimal that reads back to a given double, by exact arithmetic on its bits. -/
namespace Tabulation.Decimal

/-- `digits · 10 ^ exponent`. -/
structure Numeral where
  digits : Nat
  exponent : Int
deriving DecidableEq, Repr

/-- A finite double without its sign, `significand · 2 ^ exponent`. -/
structure Binary where
  significand : Nat
  exponent : Int
  /-- The next double below is only half as far away as the next one above. -/
  narrowBelow : Bool
deriving DecidableEq, Repr

/-- The highest of the 64 bits of a double is its sign. -/
def signBit : Nat := 0x8000000000000000

/-- The lowest 52 of the bits are the fraction; above them stand eleven bits of exponent. -/
def fractionSize : Nat := 0x10000000000000

/-- The magnitude of a finite double. -/
def Binary.ofFloat (x : Float) : Binary :=
  let bits := x.toBits.toNat
  let biased : Nat := bits / fractionSize % 2048
  let fraction : Nat := bits % fractionSize
  if biased = 0 then ⟨fraction, -1074, false⟩
  else ⟨fractionSize + fraction, (biased : Int) - 1075, fraction = 0 ∧ biased > 1⟩

/-- The numerator of `base ^ e`. The denominator is the numerator of the opposite exponent. -/
def powerNumerator (base : Nat) (e : Int) : Nat := Nat.pow base e.toNat

/-- The integer that a finite double is, if it is one. -/
def integer? (x : Float) : Option Int :=
  let b := Binary.ofFloat x
  let whole := b.significand * powerNumerator 2 b.exponent
  let unit := powerNumerator 2 (-b.exponent)
  if whole % unit = 0 then
    let n : Nat := whole / unit
    some (if x.toBits.toNat < signBit then n else -n)
  else none

/-- Compares `a · 10 ^ i` with `b · 2 ^ j`. -/
def compareScaled (a : Nat) (i : Int) (b : Nat) (j : Int) : Ordering :=
  compare (a * powerNumerator 10 i * powerNumerator 2 (-j))
    (b * powerNumerator 2 j * powerNumerator 10 (-i))

/-- Whether `d` lies among the reals that round to `x`: the neighbourhood reaches halfway to the
next double on either side, and its ends belong to it if the significand is even. -/
def Binary.readsBack (x : Binary) (d : Numeral) : Bool :=
  let low : Nat := if x.narrowBelow then 4 * x.significand - 1 else 4 * x.significand - 2
  let high : Nat := 4 * x.significand + 2
  let atLow := compareScaled d.digits d.exponent low (x.exponent - 2)
  let atHigh := compareScaled d.digits d.exponent high (x.exponent - 2)
  let closed : Bool := x.significand % 2 = 0
  (atLow = .gt ∨ (closed ∧ atLow = .eq)) ∧ (atHigh = .lt ∨ (closed ∧ atHigh = .eq))

/-- The largest multiple of `10 ^ e` that is not above `x`, as a count of `10 ^ e`. -/
def Binary.gridBelow (x : Binary) (e : Int) : Nat :=
  x.significand * powerNumerator 2 x.exponent * powerNumerator 10 (-e) /
    (powerNumerator 2 (-x.exponent) * powerNumerator 10 e)

/-- The point of the decimal grid `10 ^ e` that reads back to `x`: of two the nearer, and of two
equally near the one with the even last digit. -/
def Binary.onGrid? (x : Binary) (e : Int) : Option Numeral :=
  let n := x.gridBelow e
  let below : Numeral := ⟨n, e⟩
  let above : Numeral := ⟨n + 1, e⟩
  match x.readsBack below && n ≠ 0, x.readsBack above with
  | false, false => none
  | true, false => some below
  | false, true => some above
  | true, true =>
    match compareScaled (2 * n + 1) e (2 * x.significand) x.exponent with
    | .gt => some below
    | .lt => some above
    | .eq => some (if n % 2 = 0 then below else above)

/-- Searches the grids from coarse to fine. -/
def Binary.search (x : Binary) : (grids : Nat) → (e : Int) → Option Numeral
  | 0, _ => none
  | n + 1, e =>
    match x.onGrid? e with
    | some d => some d
    | none => x.search n (e - 1)

/-- The least `k` with `x < 10 ^ k`, near a guess from the binary logarithm. -/
def Binary.scale (x : Binary) : Int :=
  let guess := ((x.significand.log2 : Int) + x.exponent) * 30103 / 100000 - 1
  let reaches (k : Int) := compareScaled 1 k x.significand x.exponent = .gt
  if reaches guess then guess
  else if reaches (guess + 1) then guess + 1
  else if reaches (guess + 2) then guess + 2
  else guess + 3

/-- Drops the zeros at the end of the digits. -/
def Numeral.trimmed (d : Numeral) : (steps : Nat) → Numeral
  | 0 => d
  | n + 1 =>
    if d.digits ≠ 0 ∧ d.digits % 10 = 0 then
      Numeral.trimmed ⟨d.digits / 10, d.exponent + 1⟩ n
    else d

/-- The exact value, which no search misses; doubles need at most seventeen digits. -/
def Binary.exact (x : Binary) : Numeral :=
  if 0 ≤ x.exponent then ⟨x.significand * powerNumerator 2 x.exponent, 0⟩
  else ⟨x.significand * powerNumerator 5 (-x.exponent), x.exponent⟩

/-- The decimal with the fewest digits that reads back to `x`, and of these the nearest. -/
def Binary.shortest (x : Binary) : Numeral :=
  if x.significand = 0 then ⟨0, 0⟩
  else
    let d := (x.search 18 (x.scale)).getD x.exact
    d.trimmed 400

end Tabulation.Decimal
