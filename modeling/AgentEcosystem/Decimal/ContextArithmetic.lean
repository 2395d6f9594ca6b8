import Mathlib.Algebra.Group.Int.Defs
import Mathlib.Algebra.Group.Nat.Defs
import Mathlib.Data.Nat.Log

/-!
Decimal floating point as Python's `decimal` module defines it: a finite number
is a sign, an integer coefficient and an exponent, kept as written, so 1.0 and
1.00 are distinct numbers of equal value. Every operation computes its exact
result and then fits it to a context. The traps of the default context are on:
an invalid operation, an overflow and a division by zero raise instead of
returning a special value. Inexact, rounded and subnormal results do not trap.
-/
namespace DecimalArithmetic

inductive Signal where
  | invalidOperation
  | overflow
  | divisionByZero
  deriving DecidableEq, Repr

structure Context where
  prec : Nat
  emax : Int
  emin : Int
  prec_pos : 0 < prec
  ordered : emin < emax

/-- Exponent of the smallest subnormal. -/
def Context.etiny (ctx : Context) : Int := ctx.emin - ctx.prec + 1

/-- Largest exponent of a number with a full coefficient. -/
def Context.etop (ctx : Context) : Int := ctx.emax - ctx.prec + 1

/-- `decimal.getcontext()` of a program that changes nothing. -/
def defaultContext : Context := ⟨28, 999999, -999999, by decide, by decide⟩

structure FiniteDecimal where
  neg : Bool
  coeff : Nat
  exp : Int
  deriving DecidableEq, Repr

namespace FiniteDecimal

def ofNat (n : Nat) : FiniteDecimal := ⟨false, n, 0⟩
def ofInt (n : Int) : FiniteDecimal := ⟨decide (n < 0), n.natAbs, 0⟩
def zero : FiniteDecimal := ofNat 0

def signed (x : FiniteDecimal) : Int := if x.neg then -(x.coeff : Int) else x.coeff

def negate (x : FiniteDecimal) : FiniteDecimal := { x with neg := !x.neg }

def signedAt (x : FiniteDecimal) (e : Int) : Int := x.signed * 10 ^ (x.exp - e).toNat

end FiniteDecimal

/-- `len(str(n))`. -/
def numDigits (n : Nat) : Nat := Nat.log 10 n + 1

/-- Exponent of the leading digit. -/
def FiniteDecimal.adjusted (x : FiniteDecimal) : Int := numDigits x.coeff + x.exp - 1

/-- Drop the last `k` digits of `n`, an exact half going to the even neighbour. -/
def dropDigits (n k : Nat) : Nat :=
  let q := n / 10 ^ k
  let r := n % 10 ^ k
  if 2 * r < 10 ^ k ∨ (2 * r = 10 ^ k ∧ q % 2 = 0) then q else q + 1

namespace Context
variable (ctx : Context)

/-- Fit an exact result to the context. -/
def fix (x : FiniteDecimal) : Except Signal FiniteDecimal :=
  if x.coeff = 0 then
    .ok { x with exp := min (max x.exp ctx.etiny) ctx.emax }
  else
    let least : Int := numDigits x.coeff + x.exp - ctx.prec
    if ctx.etop < least then .error .overflow
    else
      let least := max least ctx.etiny
      if x.exp < least then
        let c := dropDigits x.coeff (least - x.exp).toNat
        -- rounding up may carry into one digit too many, which is then a zero
        if ctx.prec < numDigits c then
          if ctx.etop < least + 1 then .error .overflow
          else .ok ⟨x.neg, c / 10, least + 1⟩
        else .ok ⟨x.neg, c, least⟩
      else .ok x

/-- The sum before it is fitted. Opposite summands that cancel give a positive zero. -/
def exactSum (x y : FiniteDecimal) : FiniteDecimal :=
  let e := min x.exp y.exp
  let n := x.signedAt e + y.signedAt e
  ⟨if n = 0 then x.neg && y.neg else decide (n < 0), n.natAbs, e⟩

def add (x y : FiniteDecimal) : Except Signal FiniteDecimal := ctx.fix (exactSum x y)

def sub (x y : FiniteDecimal) : Except Signal FiniteDecimal := ctx.add x y.negate

/-- Unary minus fits its operand to the context; minus zero is zero. -/
def neg (x : FiniteDecimal) : Except Signal FiniteDecimal :=
  ctx.fix (if x.coeff = 0 then { x with neg := false } else x.negate)

/-- The absolute value is fitted to the context like the result of any operation. -/
def abs (x : FiniteDecimal) : Except Signal FiniteDecimal := ctx.fix { x with neg := false }

def exactProduct (x y : FiniteDecimal) : FiniteDecimal :=
  ⟨x.neg != y.neg, x.coeff * y.coeff, x.exp + y.exp⟩

def mul (x y : FiniteDecimal) : Except Signal FiniteDecimal := ctx.fix (exactProduct x y)

/-- Drop trailing zeros of an exact quotient until its ideal exponent is reached. -/
def stripZeros : Nat → Nat → Int → Nat × Int
  | 0, c, e => (c, e)
  | fuel + 1, c, e => if c % 10 = 0 then stripZeros fuel (c / 10) (e + 1) else (c, e)

def div (x y : FiniteDecimal) : Except Signal FiniteDecimal :=
  if y.coeff = 0 then
    .error (if x.coeff = 0 then .invalidOperation else .divisionByZero)
  else if x.coeff = 0 then ctx.fix ⟨x.neg != y.neg, 0, x.exp - y.exp⟩
  else
    let shift : Int := numDigits y.coeff - numDigits x.coeff + ctx.prec + 1
    let e := x.exp - y.exp - shift
    let num := x.coeff * 10 ^ shift.toNat
    let den := y.coeff * 10 ^ (-shift).toNat
    let q := num / den
    if num % den = 0 then
      let (c, e) := stripZeros (x.exp - y.exp - e).toNat q e
      ctx.fix ⟨x.neg != y.neg, c, e⟩
    else
      -- a last digit of 0 or 5 is moved off the tie, the remainder being positive
      ctx.fix ⟨x.neg != y.neg, if q % 5 = 0 then q + 1 else q, e⟩

def rescale (x : FiniteDecimal) (e : Int) : FiniteDecimal :=
  if e ≤ x.exp then ⟨x.neg, x.coeff * 10 ^ (x.exp - e).toNat, e⟩
  else ⟨x.neg, dropDigits x.coeff (e - x.exp).toNat, e⟩

/-- `x.quantize(q)` for a `q` whose exponent is `e`. -/
def quantize (x : FiniteDecimal) (e : Int) : Except Signal FiniteDecimal :=
  if e < ctx.etiny ∨ ctx.emax < e then .error .invalidOperation
  else if x.coeff = 0 then ctx.fix ⟨x.neg, 0, e⟩
  else if ctx.emax < x.adjusted ∨ (ctx.prec : Int) < x.adjusted - e + 1 then
    .error .invalidOperation
  else
    let y := rescale x e
    if ctx.emax < y.adjusted ∨ ctx.prec < numDigits y.coeff then .error .invalidOperation
    else ctx.fix y

end Context

/- Comparisons are exact: they never round. -/
namespace FiniteDecimal

def lt (x y : FiniteDecimal) : Bool :=
  let e := min x.exp y.exp
  decide (x.signedAt e < y.signedAt e)

def le (x y : FiniteDecimal) : Bool := !(y.lt x)

def eq (x y : FiniteDecimal) : Bool := x.le y && y.le x

end FiniteDecimal

inductive Decimal where
  | finite (x : FiniteDecimal)
  | infinity (neg : Bool)
  | nan (signaling neg : Bool) (payload : Nat)
  deriving DecidableEq, Repr

namespace Decimal

def ofNat (n : Nat) : Decimal := .finite (.ofNat n)
def ofInt (n : Int) : Decimal := .finite (.ofInt n)

def isNaN : Decimal → Bool
  | .nan .. => true
  | _ => false

def isSignaling : Decimal → Bool
  | .nan s _ _ => s
  | _ => false

/-- Operations on a NaN: a signaling one raises, a quiet one is passed on. -/
def propagate (ctx : Context) (x y : Decimal) : Except Signal Decimal :=
  if x.isSignaling || y.isSignaling then .error .invalidOperation
  else match x, y with
    | .nan s n p, _ => .ok (.nan s n (p % 10 ^ ctx.prec))
    | _, .nan s n p => .ok (.nan s n (p % 10 ^ ctx.prec))
    | _, _ => .error .invalidOperation

def copyNegate : Decimal → Decimal
  | .finite x => .finite x.negate
  | .infinity s => .infinity (!s)
  | .nan s n p => .nan s (!n) p

def add (ctx : Context) : Decimal → Decimal → Except Signal Decimal
  | .finite x, .finite y => (ctx.add x y).map .finite
  | .infinity s, .infinity t => if s = t then .ok (.infinity s) else .error .invalidOperation
  | .infinity s, .finite _ => .ok (.infinity s)
  | .finite _, .infinity s => .ok (.infinity s)
  | x, y => propagate ctx x y

def sub (ctx : Context) (x y : Decimal) : Except Signal Decimal :=
  if x.isNaN || y.isNaN then propagate ctx x y else add ctx x y.copyNegate

def neg (ctx : Context) : Decimal → Except Signal Decimal
  | .finite x => (ctx.neg x).map .finite
  | .infinity s => .ok (.infinity (!s))
  | x => propagate ctx x x

def abs (ctx : Context) : Decimal → Except Signal Decimal
  | .finite x => (ctx.abs x).map .finite
  | .infinity _ => .ok (.infinity false)
  | x => propagate ctx x x

def mul (ctx : Context) : Decimal → Decimal → Except Signal Decimal
  | .finite x, .finite y => (ctx.mul x y).map .finite
  | .infinity s, .infinity t => .ok (.infinity (s != t))
  | .infinity s, .finite y =>
      if y.coeff = 0 then .error .invalidOperation else .ok (.infinity (s != y.neg))
  | .finite x, .infinity t =>
      if x.coeff = 0 then .error .invalidOperation else .ok (.infinity (x.neg != t))
  | x, y => propagate ctx x y

def div (ctx : Context) : Decimal → Decimal → Except Signal Decimal
  | .finite x, .finite y => (ctx.div x y).map .finite
  | .infinity _, .infinity _ => .error .invalidOperation
  | .infinity s, .finite y => .ok (.infinity (s != y.neg))
  | .finite x, .infinity t => .ok (.finite ⟨x.neg != t, 0, ctx.etiny⟩)
  | x, y => propagate ctx x y

def quantize (ctx : Context) (x : Decimal) (e : Int) : Except Signal Decimal :=
  match x with
  | .finite x => (ctx.quantize x e).map .finite
  | .infinity _ => .error .invalidOperation
  | x => propagate ctx x x

/-- `x < y`; an order comparison with a NaN raises. -/
def lt : Decimal → Decimal → Except Signal Bool
  | .finite x, .finite y => .ok (x.lt y)
  | .infinity s, .infinity t => .ok (s && !t)
  | .infinity s, .finite _ => .ok s
  | .finite _, .infinity t => .ok (!t)
  | _, _ => .error .invalidOperation

/-- `x <= y`. -/
def le (x y : Decimal) : Except Signal Bool := (lt y x).map (!·)

/-- `x == y`; a quiet NaN equals nothing, a signaling one raises. -/
def eq (x y : Decimal) : Except Signal Bool :=
  if x.isSignaling || y.isSignaling then .error .invalidOperation
  else match x, y with
    | .finite x, .finite y => .ok (x.eq y)
    | .infinity s, .infinity t => .ok (s == t)
    | _, _ => .ok false

end Decimal

/-- Digits with the decimal point after the first `point` of them. -/
def mantissaText (digits : List Char) (point : Int) : List Char :=
  if point ≤ 0 then '0' :: '.' :: (List.replicate (-point).toNat '0' ++ digits)
  else if (digits.length : Int) ≤ point then
    digits ++ List.replicate (point - digits.length).toNat '0'
  else digits.take point.toNat ++ '.' :: digits.drop point.toNat

def powerText (n : Int) : List Char :=
  if n = 0 then []
  else 'E' :: (if n < 0 then '-' else '+') :: Nat.toDigits 10 n.natAbs

/-- `str(x)`: plain notation while the exponent is small and not positive,
    scientific notation otherwise. -/
def FiniteDecimal.str (x : FiniteDecimal) : String :=
  let digits := Nat.toDigits 10 x.coeff
  let left : Int := x.exp + digits.length
  let point : Int := if x.exp ≤ 0 ∧ -6 < left then left else 1
  String.ofList ((if x.neg then ['-'] else []) ++ mantissaText digits point ++
    powerText (left - point))

def Decimal.str : Decimal → String
  | .finite x => x.str
  | .infinity s => if s then "-Infinity" else "Infinity"
  | .nan s n p =>
      (if n then "-" else "") ++ (if s then "sNaN" else "NaN") ++
        (if p = 0 then "" else toString p)

example : (FiniteDecimal.mk false 25000 (-2)).str = "250.00" := by decide
example : (FiniteDecimal.mk true 1 5).str = "-1E+5" := by decide
example : (FiniteDecimal.mk false 123 (-10)).str = "1.23E-8" := by decide
example : defaultContext.add ⟨false, 10 ^ 28, 0⟩ ⟨false, 15, -1⟩ =
    .ok ⟨false, 10 ^ 27, 1⟩ := by decide

end DecimalArithmetic
