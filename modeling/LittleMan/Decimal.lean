import LittleMan.Text

/-! Numbers in base ten. A binary fraction of 64 bits is written with the fewest digits that read back: it owns
the stretch of reals that round to it, ends included if its mantissa is even, and for one digit, two digits and
so on the two multiples of the power of ten around it are tried. The first count with one inside the stretch
wins, and of two the nearer, the even one on a tie; all arithmetic is on whole numbers. -/
namespace LittleMan.Decimal

def natural (n : Nat) : Text := Nat.toDigits 10 n

def integer : Int → Text
  | .ofNat n => natural n
  | .negSucc n => '-' :: natural (n + 1)

structure Binary64 where
  bits : UInt64
  deriving DecidableEq, Repr

namespace Binary64

def negative (x : Binary64) : Bool := x.bits.toNat / Nat.pow 2 63 == 1

def exponentBits (x : Binary64) : Nat := x.bits.toNat / Nat.pow 2 52 % Nat.pow 2 11

def fractionBits (x : Binary64) : Nat := x.bits.toNat % Nat.pow 2 52

def isFinite (x : Binary64) : Bool := x.exponentBits != Nat.pow 2 11 - 1

def isNaN (x : Binary64) : Bool := !x.isFinite && x.fractionBits != 0

def mantissa (x : Binary64) : Nat :=
  if x.exponentBits = 0 then x.fractionBits else x.fractionBits + Nat.pow 2 52

def exponent (x : Binary64) : Int := (max x.exponentBits 1 : Nat) - 1075

/-- The power of two's lower neighbour is nearer than the upper one. -/
def isLopsided (x : Binary64) : Bool := x.fractionBits == 0 && 1 < x.exponentBits

def toInt? (x : Binary64) : Option Int :=
  if !x.isFinite then none
  else
    let signed (n : Nat) : Int := if x.negative then -n else n
    if 0 ≤ x.exponent then some (signed (x.mantissa * Nat.pow 2 x.exponent.toNat))
    else
      let unit := Nat.pow 2 (-x.exponent).toNat
      if x.mantissa % unit = 0 then some (signed (x.mantissa / unit)) else none

def same (x y : Binary64) : Bool :=
  !x.isNaN && !y.isNaN && (x.bits == y.bits || (x.toInt? == some 0 && y.toInt? == some 0))

def ofDecimal (minus : Bool) (digits : Nat) (power : Int) : Binary64 :=
  let size := Float.ofScientific digits (power < 0) power.natAbs
  ⟨(if minus then -size else size).toBits⟩

end Binary64

structure Scaled where
  digits : Nat
  power : Int
  deriving DecidableEq, Repr

structure Stretch where
  low : Nat
  value : Nat
  high : Nat
  unit : Nat
  closed : Bool
  deriving DecidableEq, Repr

def Binary64.stretch (x : Binary64) : Stretch :=
  let shift := x.exponent - 2
  let up := Nat.pow 2 shift.toNat
  let low := 4 * x.mantissa - (if x.isLopsided then 1 else 2)
  ⟨low * up,4 * x.mantissa * up,(4 * x.mantissa + 2) * up,Nat.pow 2 (-shift).toNat,x.mantissa % 2 == 0⟩

namespace Stretch

def inUnits (s : Stretch) (power : Int) : Stretch :=
  let up := Nat.pow 10 (-power).toNat
  {s with low := s.low * up, value := s.value * up, high := s.high * up, unit := s.unit * Nat.pow 10 power.toNat}

def contains (s : Stretch) (n : Nat) : Bool :=
  if s.closed then s.low ≤ n * s.unit && n * s.unit ≤ s.high
  else s.low < n * s.unit && n * s.unit < s.high

def neighbour? (s : Stretch) : Option Nat :=
  let n := s.value / s.unit
  let below := s.value - n * s.unit
  let above := (n + 1) * s.unit - s.value
  match s.contains n, s.contains (n + 1) with
  | true, false => some n
  | false, true => some (n + 1)
  | true, true => some (if below < above || (below == above && n % 2 == 0) then n else n + 1)
  | false, false => none

def tenfolds (unit : Nat) : (fuel value : Nat) → Nat
  | 0, _ => 0
  | fuel + 1, value => if unit ≤ value then 0 else tenfolds unit fuel (10 * value) + 1

/-- The power of ten of the first digit. No value needs more than 324 steps. -/
def magnitude (s : Stretch) : Int :=
  if s.unit ≤ s.value then ((Nat.toDigits 10 (s.value / s.unit)).length : Int) - 1
  else -(tenfolds s.unit 400 s.value)

/-- Tries `count` digits, then one more, and so on; seventeen always suffice. -/
def search (s : Stretch) : (fuel count : Nat) → Scaled
  | 0, _ => ⟨0,0⟩
  | fuel + 1, count =>
    let power := s.magnitude + 1 - count
    match (s.inUnits power).neighbour? with
    | some digits => ⟨digits,power⟩
    | none => search s fuel (count + 1)

end Stretch

def Binary64.shortest (x : Binary64) : Scaled := x.stretch.search 17 1

structure Layout where
  /-- Powers of ten of the first digit that are written without an exponent. -/
  lowest : Int
  highest : Int
  exponentMark : Char
  exponentWidth : Nat
  infinite : Text
  noNumber : Text
  deriving DecidableEq, Repr

namespace Layout

def padded (width n : Nat) : Text :=
  let digits := natural n
  List.replicate (width - digits.length) '0' ++ digits

def pointed (digits : Text) (whole : Int) : Text :=
  if whole ≤ 0 then '0' :: '.' :: List.replicate (-whole).toNat '0' ++ digits
  else
    let n := whole.toNat
    if digits.length ≤ n then digits ++ List.replicate (n - digits.length) '0' ++ ['.','0']
    else digits.take n ++ '.' :: digits.drop n

def exponential (layout : Layout) (digits : Text) (power : Int) : Text :=
  let sign := if power < 0 then '-' else '+'
  let body := match digits with
    | [] => []
    | [d] => [d]
    | d :: more => d :: '.' :: more
  body ++ layout.exponentMark :: sign :: padded layout.exponentWidth power.natAbs

def digitsOf (n : Scaled) : Text × Int :=
  let all := natural n.digits
  ((all.reverse.dropWhile (· == '0')).reverse,n.power + all.length - 1)

def size (layout : Layout) (x : Binary64) : Text :=
  if x.isNaN then layout.noNumber
  else if !x.isFinite then layout.infinite
  else if x.mantissa = 0 then ['0','.','0']
  else
    let (digits,power) := digitsOf x.shortest
    if layout.lowest ≤ power && power ≤ layout.highest then pointed digits (power + 1)
    else layout.exponential digits power

def write (layout : Layout) (x : Binary64) : Text :=
  if x.negative && !x.isNaN then '-' :: layout.size x else layout.size x

end Layout

end LittleMan.Decimal
