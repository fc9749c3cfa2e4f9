import OpenVC.Python.Json

/-!
# The clock, and arithmetic on JSON numbers

What the library asks of the interpreter and its host: the clock, `datetime.fromisoformat`, the
Unicode tables behind `str.lower`, `str.casefold` and `re`'s `\d`, and `ipaddress`. One value is one instant: every read of the clock
during a run sees the same time.

A NumericDate is a Python `int` or `float`. A difference of two ints is exact, any other is a
floating-point one; a comparison of an `int` with a `float` is exact. A `datetime` is its wall clock
and, when it is aware, its offset from UTC.
-/

namespace Python

/-! ## `datetime` -/

/-- A `datetime`, in microseconds. -/
structure DateTime where
  /-- The wall clock since the epoch. -/
  wall : Int
  /-- `utcoffset()`, `none` for a naive one. -/
  offset : Option Int
  deriving DecidableEq, Repr

namespace DateTime

/-- `dt if dt.tzinfo is not None else dt.replace(tzinfo=timezone.utc)`. -/
def orUtc (d : DateTime) : DateTime := ⟨d.wall, some (d.offset.getD 0)⟩

/-- The instant of an aware `datetime`. -/
def instant (d : DateTime) : Int := d.wall - d.offset.getD 0

end DateTime

/-! ## The host -/

/-- The interpreter, at one instant. -/
structure Interpreter where
  /-- `time.time()`. -/
  time : PyFloat
  /-- `datetime.now(timezone.utc)`, in microseconds since the epoch. -/
  utcNow : Int
  /-- `datetime.fromisoformat`; `none` is its `ValueError`. -/
  fromIsoFormat : Str → Option DateTime
  /-- `str.lower`. -/
  lower : Str → Str
  /-- On ASCII text `str.lower` is the ASCII one. -/
  lower_ascii : ∀ s : Str, s.isAscii = true → lower s = s.asciiLower
  /-- Whether `\d` matches the character. -/
  isDecimal : Nat → Bool
  /-- `str.casefold`. -/
  casefold : Str → Str
  /-- On ASCII text `str.casefold` is `str.lower`. -/
  casefold_ascii : ∀ s : Str, s.isAscii = true → casefold s = s.asciiLower
  /-- Whether `urlsplit` accepts the IP literal of an authority with brackets. -/
  bracketedNetloc : Str → Bool

/-- The interpreter at a whole second, on ASCII text and on the timestamps of a table. -/
def Interpreter.atSecond (t : Int) (timestamps : List (Str × DateTime)) : Interpreter where
  time := .fin t
  utcNow := t * 1000000
  fromIsoFormat text := timestamps.lookup text
  lower := Str.asciiLower
  lower_ascii _ _ := rfl
  isDecimal := Str.isDigit
  casefold := Str.asciiLower
  casefold_ascii _ _ := rfl
  bracketedNetloc _ := false

namespace Json

/-- The operand of a floating-point operation. An `int` is rounded to the nearest double; the
callers have checked that it has one. -/
def toFloat : Json → PyFloat
  | .int n => PyFloat.ofRat n
  | .float f => f
  | _ => .nan

/-- `x - y` for two numbers. -/
def sub : Json → Json → Json
  | .int a, .int b => .int (a - b)
  | a, b => .float (PyFloat.sub a.toFloat b.toFloat)

/-- `x < y` for two numbers. -/
def lt (x y : Json) : Bool :=
  match x.num?, y.num? with
  | some a, some b => a.lt b
  | _, _ => false

/-- `x <= y` for two numbers. -/
def le (x y : Json) : Bool :=
  match x.num?, y.num? with
  | some a, some b => a.le b
  | _, _ => false

/-- `int(x)` for a finite number: the fraction is dropped. -/
def trunc : Json → Int
  | .int n => n
  | .float (.fin q) => q.num.tdiv q.den
  | _ => 0

end Json

end Python
