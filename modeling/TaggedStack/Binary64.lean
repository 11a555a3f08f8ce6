/-!
# Double precision numbers

Numbers with a significand of 53 bits, worked out in exact integer arithmetic. A finite value
is a sign and a significand times a power of two, so zero has a sign as well; what is too large
is infinite. Every operation computes its exact rational result first and rounds it once, to
the nearest such number, a tie going to the even significand.

Only what the rest of the library needs is here: rounding a quotient, sums, products with
positive integers, comparison, the 64 bits of a number, and its text with one decimal place.

* `roundDiv_spec`: a rounded quotient is within half a unit of the exact one.
* `Binary64.ofRatio`: the number nearest to a quotient.
-/

namespace TaggedStack

/-- The integer nearest to a quotient, the even one of two. -/
def roundDiv (num den : Nat) : Nat :=
  let q := num / den
  let r := num % den
  if den < 2 * r ∨ (2 * r = den ∧ q % 2 = 1) then q + 1 else q

/-- A rounded quotient is within half a unit of the exact one. -/
theorem roundDiv_spec {num den : Nat} (h : 0 < den) :
    2 * num ≤ 2 * (roundDiv num den * den) + den ∧
      2 * (roundDiv num den * den) ≤ 2 * num + den := by
  have hdiv := Nat.div_add_mod' num den
  have hmod := Nat.mod_lt num h
  simp only [roundDiv]
  split
  · rw [Nat.add_mul]
    omega
  · omega

/-- A double precision number. -/
inductive Binary64
  /-- The number `significand * 2 ^ exponent` with its sign. -/
  | finite (negative : Bool) (significand : Nat) (exponent : Int)
  | infinite (negative : Bool)
  deriving DecidableEq, Repr

namespace Binary64

/-- Zero. -/
def zero : Binary64 := finite false 0 0

/-- The least exponent of a double precision number. -/
def leastExponent : Int := -1074

/-- Numerator and denominator of `n * 2 ^ e`. -/
def scaled (n : Nat) (e : Int) : Nat × Nat :=
  if 0 ≤ e then (n <<< e.toNat, 1) else (n, 1 <<< (-e).toNat)

/-- The exponent that gives the quotient of two positive numbers a significand of 53 bits, or
the least exponent if that is greater. -/
def exponentFor (num den : Nat) : Int :=
  let e : Int := (num.log2 : Int) - den.log2 - 53
  let (n, d) := scaled num (-e)
  max leastExponent (if 0x20000000000000 * (d * den) ≤ n then e + 1 else e)

/-- The number of the given sign nearest to a quotient; infinite from `2 ^ 1024` on. -/
def ofMagnitude (negative : Bool) (num den : Nat) : Binary64 :=
  if num = 0 then finite negative 0 0
  else
    let e := exponentFor num den
    let (n, d) := scaled num (-e)
    let m := roundDiv n (d * den)
    if 1024 ≤ (m.log2 : Int) + e then infinite negative else finite negative m e

/-- The number nearest to a quotient. -/
def ofRatio (num : Int) (den : Nat) : Binary64 := ofMagnitude (num < 0) num.natAbs den

/-- Whether a number is infinite. -/
def isInfinite : Binary64 → Bool
  | infinite _ => true
  | finite .. => false

/-- The number nearest to the product with a positive integer; an infinity stays one. -/
def mulNat : Binary64 → Nat → Binary64
  | finite negative m e, k =>
    let (n, d) := scaled m e
    ofMagnitude negative (n * k) d
  | infinite negative, _ => infinite negative

/-- Numerator and denominator of `m * 2 ^ e` with its sign. -/
def signedRatio (negative : Bool) (m : Nat) (e : Int) : Int × Nat :=
  let (n, d) := scaled m e
  (if negative then -(n : Int) else n, d)

/-- The number nearest to a sum. The first infinity of the two is kept. -/
def add : Binary64 → Binary64 → Binary64
  | finite s m e, finite t k f =>
    let (n, d) := signedRatio s m e
    let (l, c) := signedRatio t k f
    ofRatio (n * c + l * d) (d * c)
  | infinite s, _ => infinite s
  | _, infinite t => infinite t

/-- Whether a number is less than another. -/
def lt : Binary64 → Binary64 → Bool
  | finite s m e, finite t k f =>
    let (n, d) := signedRatio s m e
    let (l, c) := signedRatio t k f
    n * c < l * d
  | infinite s, infinite t => s && !t
  | infinite s, finite .. => s
  | finite .., infinite t => !t

/-- Whether an integer is at most a number. -/
def atLeast : Binary64 → Int → Bool
  | finite s m e, k =>
    let (n, d) := signedRatio s m e
    k * d ≤ n
  | infinite s, _ => !s

/-- The bits of a finite number but its sign: eleven of exponent and 52 of significand. -/
def field (m : Nat) (e : Int) : Nat :=
  if m = 0 then 0
  else
    let least := max leastExponent (e + m.log2 - 52)
    let (n, d) := scaled m (e - least)
    (least - leastExponent).toNat * 0x10000000000000 + n / d

/-- The 64 bits of a number. -/
def bits : Binary64 → Nat
  | finite negative m e => (if negative then 0x8000000000000000 else 0) + field m e
  | infinite negative => (if negative then 0x8000000000000000 else 0) + 2047 * 0x10000000000000

/-- The text with one decimal place, a tie going to the even digit. -/
def fixed1 : Binary64 → String
  | finite negative m e =>
    let (n, d) := scaled m e
    let tenths := roundDiv (n * 10) d
    let sign := if negative then "-" else ""
    s!"{sign}{tenths / 10}.{tenths % 10}"
  | infinite negative => if negative then "-inf" else "inf"

end Binary64

end TaggedStack
