import PuzzleGate.Decimal.Binary64

/-!
# The fewest digits that read back

A binary number is written with the fewest decimal digits that still round to it. The reals that
round to a number form an interval, closed exactly when its mantissa is even. The decimals with a
given last place form a grid, and if a point of the grid lies in the interval then so does one of
the two neighbours of the number; so grids are tried from coarse to fine, and on the first with a
hit the nearer neighbour is taken.
-/

namespace PuzzleGate.Decimal

/-- The decimal number `digits * 10 ^ place`. -/
structure Digits where
  digits : Nat
  place : Int
deriving DecidableEq, Repr

namespace Binary64

/-- The neighbour of the number on the grid of multiples of `10 ^ place` that rounds to it. -/
def onGrid (x : Binary64) (place : Int) : Option Digits :=
  let e := x.exponent - 2
  let a := powerOfTen place.toNat * powerOfTwo (-e).toNat
  let b := powerOfTwo e.toNat * powerOfTen (-place).toNat
  let value := 4 * x.mantissa * b
  let narrow := x.mantissa == powerOfTwo 52 && minExponent < x.exponent
  let low := (if narrow then 4 * x.mantissa - 1 else 4 * x.mantissa - 2) * b
  let high := (4 * x.mantissa + 2) * b
  let hit (c : Nat) : Bool :=
    0 < c && (if x.mantissa % 2 = 0 then low ≤ c * a && c * a ≤ high
      else low < c * a && c * a < high)
  let below := value / a
  let above := below + 1
  match hit below, hit above with
  | true, true =>
    let under := value - below * a
    let excess := above * a - value
    some ⟨if under < excess || (under == excess && below % 2 == 0) then below else above, place⟩
  | true, false => some ⟨below, place⟩
  | false, true => some ⟨above, place⟩
  | false, false => none

/-- The first hit on the grids from `place` downwards. -/
def firstHit (x : Binary64) : (tries : Nat) → (place : Int) → Digits
  | 0, place => ⟨x.mantissa, place⟩
  | tries + 1, place => (x.onGrid place).getD (firstHit x tries (place - 1))

def shortest (x : Binary64) : Digits :=
  firstHit x 24 (((x.mantissa.log2 : Int) + x.exponent) * 30103 / 100000 + 2)

end Binary64

def natDigits (n : Nat) : List Char := Nat.toDigits 10 n

def zeros (n : Nat) : List Char := List.replicate n '0'

/-- Positional notation, always with a point and a digit after it. -/
def Digits.positional (d : Digits) : List Char :=
  let ds := natDigits d.digits
  let leading := d.place + ds.length - 1
  if 0 ≤ d.place then ds ++ zeros d.place.toNat ++ ['.', '0']
  else if 0 ≤ leading then
    ds.take (leading.toNat + 1) ++ '.' :: ds.drop (leading.toNat + 1)
  else '0' :: '.' :: zeros (-leading - 1).toNat ++ ds

def Digits.scientific (d : Digits) : List Char :=
  let ds := natDigits d.digits
  let leading := d.place + ds.length - 1
  let body := match ds with
    | first :: second :: rest => first :: '.' :: second :: rest
    | short => short
  body ++ 'e' :: (if leading < 0 then '-' else '+') :: natDigits leading.natAbs

namespace Binary64

def signed (x : Binary64) (magnitude : List Char) : List Char :=
  if x.negative then '-' :: magnitude else magnitude

/-- Positional when the leading digit stands between the places -5 and 15, scientific outside. -/
def text (x : Binary64) : List Char :=
  x.signed <|
    if x.isZero then ['0', '.', '0']
    else
      let d := x.shortest
      let leading := d.place + (natDigits d.digits).length - 1
      if -5 ≤ leading && leading ≤ 15 then d.positional else d.scientific

/-- Positional whatever the size. -/
def positionalText (x : Binary64) : List Char :=
  x.signed <| if x.isZero then ['0', '.', '0'] else x.shortest.positional

end Binary64

end PuzzleGate.Decimal
