import FormWatch.Text.Basic

/-!
Numbers of binary floating point with 53 binary digits, kept exactly as `mantissa * 2 ^ exponent`.

A decimal is read as the nearest such number, a tie going to the even mantissa (`ofDecimal`), and
a number is written with the fewest decimal digits that read back as it, the nearest of those,
a tie going to the even digit (`shortest`).
-/

namespace FormWatch

inductive Binary64 where
  | finite (negative : Bool) (mantissa : Nat) (exponent : Int)
  | infinite (negative : Bool)
  | undefined
  deriving DecidableEq, Repr

namespace Binary64

def twoTo (exponent : Nat) : Nat := Nat.pow 2 exponent

def tenTo (exponent : Nat) : Nat := Nat.pow 10 exponent

def minExponent : Int := -1074

def maxExponent : Int := 971

/-- A quotient rounded to the nearest whole number, a tie to the even one. -/
def roundDiv (num den : Nat) : Nat :=
  let quotient := num / den
  let twice := 2 * (num % den)
  if den < twice ∨ (twice = den ∧ quotient % 2 = 1) then quotient + 1 else quotient

/-- `num / den / 2 ^ exponent` as a ratio of whole numbers. -/
def scale (num den : Nat) (exponent : Int) : Nat × Nat :=
  if 0 ≤ exponent then (num, den * twoTo exponent.toNat) else (num * twoTo (-exponent).toNat, den)

def ofRatio (negative : Bool) (num den : Nat) : Binary64 :=
  let least := max minExponent ((num.log2 : Int) - den.log2 - 53)
  let trial := scale num den least
  let exponent := if trial.1 / trial.2 < twoTo 53 then least else least + 1
  let ratio := scale num den exponent
  let rounded := roundDiv ratio.1 ratio.2
  let (mantissa, exponent) :=
    if rounded < twoTo 53 then (rounded, exponent) else (twoTo 52, exponent + 1)
  if maxExponent < exponent then .infinite negative else .finite negative mantissa exponent

/-- The nearest number to `digits * 10 ^ power`. Beyond four hundred places on either side the
answer is infinite or zero and nothing is computed. -/
def ofDecimal (negative : Bool) (digits : Nat) (power : Int) : Binary64 :=
  let size : Int := (Text.ofNat digits).length
  if digits = 0 ∨ size + power < -400 then .finite negative 0 minExponent
  else if 400 < size + power then .infinite negative
  else if 0 ≤ power then ofRatio negative (digits * tenTo power.toNat) 1
  else ofRatio negative digits (tenTo (-power).toNat)

/-- The decimals of `count` digits next to `whole`, the exact value: the lower one and its
distance to the value, and the width of one step, all in units of the last place of `whole`. -/
structure Grid where
  lower : Nat
  step : Nat

/-- The decimals of a given number of digits around an exact decimal. -/
def gridOf (whole count : Nat) : Grid :=
  let step := tenTo ((Text.ofNat whole).length - count)
  ⟨whole / step, step⟩

/-- The shortest decimal between bounds (in quarters of the last place of `whole`), with at least
`count` digits; of two with the same number of digits the nearer, of two as near the even one. -/
def shortestFrom (whole low high : Nat) (closed : Bool) (count : Nat) : Nat → Nat × Nat
  | 0 => (whole, 1)
  | tries + 1 =>
    let grid := gridOf whole count
    let inside (digits : Nat) : Bool :=
      let place := 4 * digits * grid.step
      (low < place && place < high) || (closed && (place = low || place = high))
    let below := grid.lower
    let above := grid.lower + 1
    let rest := 2 * (whole - below * grid.step)
    let preferred := if rest < grid.step ∨ (rest = grid.step ∧ below % 2 = 0) then below else above
    let other := if preferred = below then above else below
    if inside preferred then (preferred, grid.step)
    else if inside other then (other, grid.step)
    else shortestFrom whole low high closed (count + 1) tries

/-- The fewest digits that read back as a positive number, and the power of ten of the place
before the first of them. -/
def shortest (mantissa : Nat) (exponent : Int) : Text × Int :=
  let places := (-exponent).toNat
  let unit := if 0 ≤ exponent then twoTo exponent.toNat else Nat.pow 5 places
  let whole := mantissa * unit
  let gap := if mantissa = twoTo 52 ∧ minExponent < exponent then 1 else 2
  let (digits, step) :=
    shortestFrom whole ((4 * mantissa - gap) * unit) ((4 * mantissa + 2) * unit)
      (mantissa % 2 = 0) 1 17
  let written := Text.ofNat (digits * step)
  let trimmed := (written.reverse.dropWhile (· = '0')).reverse
  (trimmed, written.length - places)

/-- Digits with a decimal point after the first `point` of them, at least one on each side. -/
def positional (digits : Text) (point : Int) : Text :=
  if point ≤ 0 then '0' :: '.' :: (List.replicate (-point).toNat '0' ++ digits)
  else
    let front := digits.take point.toNat
    let back := digits.drop point.toNat
    front ++ List.replicate (point.toNat - front.length) '0'
      ++ '.' :: (if back.isEmpty then ['0'] else back)

/-- Digits with an exponent of at least two digits, its sign written. -/
def scientific (digits : Text) (point : Int) : Text :=
  let power := point - 1
  let front := digits.take 1
  let back := digits.drop 1
  let size := Text.ofNat power.natAbs
  front ++ (if back.isEmpty then [] else '.' :: back) ++
    'e' :: (if power < 0 then '-' else '+') :: (List.replicate (2 - size.length) '0' ++ size)

/-- A number as text: positional from 0.0001 up to 10 ^ 16, else with an exponent. -/
def text : Binary64 → Text
  | .undefined => "nan".toList
  | .infinite negative => (if negative then ['-'] else []) ++ "inf".toList
  | .finite negative mantissa exponent =>
    let sign := if negative then ['-'] else []
    if mantissa = 0 then sign ++ "0.0".toList
    else
      let (digits, point) := shortest mantissa exponent
      sign ++ if -4 < point ∧ point ≤ 16 then positional digits point else scientific digits point

end Binary64

end FormWatch
