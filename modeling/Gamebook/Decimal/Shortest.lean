/-!
Gamebook.Decimal.Shortest — the shortest decimal that reads back as a given binary number.

A finite double is `m · 2 ^ q`. Every real number close enough to it reads back as the same
double: those between the midpoints to its two neighbours, the midpoints included when `m` is
even. Among the decimals in that interval the shortest ones are looked for, grid by grid: a
decimal with `k` digits is a multiple of a power of ten, and only the two multiples next to the
value need to be tried. Of two hits the nearer one is taken, and the even one of two equally near.
-/

namespace Gamebook.Decimal

/-- A positive decimal, `digits · 10 ^ exponent`. -/
structure Scientific where
  /-- The digits as a number. -/
  digits : Nat
  /-- The power of ten of the last digit. -/
  exponent : Int
deriving DecidableEq, Repr

/-- A positive rational number and the interval around it that reads back as it. All three are
numerators over `den`. -/
structure Interval where
  /-- The value. -/
  value : Nat
  /-- The lower end. -/
  low : Nat
  /-- The upper end. -/
  high : Nat
  /-- The common denominator. -/
  den : Nat
  /-- The ends belong to the interval. -/
  closed : Bool
deriving DecidableEq, Repr

namespace Interval

/-- The interval of a double with significand `m` and exponent `q`. Below a power of two, the
neighbour is half as far away as above it; `atPower` marks that case. -/
def ofBinary (m : Nat) (q : Int) (atPower : Bool) : Interval :=
  let up := Nat.pow 2 q.toNat
  ⟨4 * m * up, (4 * m - (if atPower then 1 else 2)) * up, (4 * m + 2) * up, 4 * Nat.pow 2 (-q).toNat,
    m % 2 == 0⟩

/-- The rational `n · 10 ^ g`, scaled by the common denominator and by `10 ^ (-g)` where `g` is
negative. -/
def gridPoint (i : Interval) (n : Nat) (g : Int) : Nat := n * Nat.pow 10 g.toNat * i.den

/-- The numerator `x`, scaled as `gridPoint` is. -/
def scaled (x : Nat) (g : Int) : Nat := x * Nat.pow 10 (-g).toNat

/-- The multiple `n` of `10 ^ g` lies in the interval. -/
def holds (i : Interval) (n : Nat) (g : Int) : Bool :=
  let p := i.gridPoint n g
  if i.closed then scaled i.low g ≤ p && p ≤ scaled i.high g
  else scaled i.low g < p && p < scaled i.high g

/-- The multiple of `10 ^ g` that is not above the value and next to it. -/
def below (i : Interval) (g : Int) : Nat := scaled i.value g / (Nat.pow 10 g.toNat * i.den)

/-- The nearest of the multiples of `10 ^ g` that lie in the interval next to its value. -/
def onGrid? (i : Interval) (g : Int) : Option Scientific :=
  let n := i.below g
  let v := scaled i.value g
  let down := v - i.gridPoint n g
  let up := i.gridPoint (n + 1) g - v
  match i.holds n g && n != 0, i.holds (n + 1) g with
  | true, true =>
    if down < up || (down == up && n % 2 == 0) then some ⟨n, g⟩ else some ⟨n + 1, g⟩
  | true, false => some ⟨n, g⟩
  | false, true => some ⟨n + 1, g⟩
  | false, false => none

/-- The first hit among `count` grids, each ten times finer than the one before. -/
def search (i : Interval) (g : Int) : Nat → Option Scientific
  | 0 => none
  | count + 1 => match i.onGrid? g with
    | some d => some d
    | none => i.search (g - 1) count

/-- How often the value must be multiplied by ten to reach one; at most `count` times. -/
def stepsToOne (value den : Nat) : Nat → Nat
  | 0 => 0
  | count + 1 => if den ≤ value then 0 else stepsToOne (10 * value) den count + 1

/-- The power of ten of the value's first digit. -/
def leadingExponent (i : Interval) : Int :=
  if i.den ≤ i.value then (Nat.toDigits 10 (i.value / i.den)).length - 1
  else -(stepsToOne i.value i.den 400 : Nat)

/-- The shortest decimal in the interval: with one digit, or else with two, and so on up to 17,
which are enough for any double. -/
def shortest? (i : Interval) : Option Scientific := i.search i.leadingExponent 17

end Interval

/-- The bit in front of the 52 bits that are stored of a significand. -/
def hiddenBit : Nat := 4503599627370496

/-- The significand and exponent of a double that is finite and positive, and whether the neighbour
below is nearer than the one above. -/
def decode (bits : UInt64) : Nat × Int × Bool :=
  let fraction : Nat := bits.toNat % hiddenBit
  let exponent : Nat := bits.toNat / hiddenBit % 2048
  if exponent = 0 then (fraction, -1074, false)
  else (fraction + hiddenBit, (exponent : Int) - 1075, fraction == 0 && exponent != 1)

/-- The digits of a number without the zeros at its end, and how many zeros were dropped. -/
def dropZeros (digits : List Char) : List Char × Nat :=
  let rest := digits.reverse.dropWhile (· == '0')
  (rest.reverse, digits.length - rest.length)

/-- Digits with a decimal point behind the first `point` of them; zeros fill what is missing.
There is always a digit on both sides of the point. -/
def positional (digits : List Char) (point : Int) : List Char :=
  if point ≤ 0 then
    ['0', '.'] ++ List.replicate (-point).toNat '0' ++ digits
  else if digits.length ≤ point.toNat then
    digits ++ List.replicate (point.toNat - digits.length) '0' ++ ['.', '0']
  else digits.take point.toNat ++ ['.'] ++ digits.drop point.toNat

/-- Digits with a decimal point behind the first one, and an exponent, which always has a sign. -/
def withExponent (digits : List Char) (exponent : Int) : List Char :=
  let fraction := digits.drop 1
  digits.take 1 ++ (if fraction = [] then [] else '.' :: fraction) ++ ['e'] ++
    (if exponent < 0 then ['-'] else ['+']) ++ Nat.toDigits 10 exponent.natAbs

/-- A decimal is written positionally when its point stands no more than 16 digits to the right of
the first digit's left side and no more than 4 zeros to the left of it; otherwise with an
exponent. -/
def Scientific.text (d : Scientific) : List Char :=
  let (digits, zeros) := dropZeros (Nat.toDigits 10 d.digits)
  let point := d.exponent + zeros + digits.length
  if -5 < point ∧ point ≤ 16 then positional digits point else withExponent digits (point - 1)

/-- The shortest text that reads back as the number. Only finite numbers are written. -/
def floatText (x : Float) : List Char :=
  let bits := x.toBits
  let magnitude := bits &&& 0x7FFFFFFFFFFFFFFF
  let (m, q, atPower) := decode magnitude
  let sign := if bits == magnitude then [] else ['-']
  if m = 0 then sign ++ ['0', '.', '0']
  else match (Interval.ofBinary m q atPower).shortest? with
    | some d => sign ++ d.text
    | none => sign

end Gamebook.Decimal
