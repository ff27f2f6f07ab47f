/-
Numbers and moments of TOML documents.

Integers fit in 64 bits with a sign. A float in digits must not round to positive infinity, which
has a word of its own. Moments are dates and times of the calendar, with an offset from UTC or
without.
-/
import RdmRegistry.Toml.Quotes
import RdmRegistry.Toml.Value

namespace RdmRegistry.Toml

open Scan

/-- Digits of a kind, with single underscores between them; the underscores are left out. -/
def digits (kind : Char → Bool) : Scan (List Char) := do
  let first ← one kind
  let others ← many (one kind <|> do
    char '_'
    one kind)
  return first :: others

/-- A sign: whether it is a minus. -/
def sign : Scan Bool := do
  match ← optional (one fun c => c == '+' || c == '-') with
  | some c => return c == '-'
  | none => return false

/-- The digits of a whole number, without a zero in front of others. -/
def wholeDigits : Scan (List Char) :=
  (do
    char '0'
    return ['0']) <|> digits Char.isDigit

/-- The greatest integer that fits. -/
def integerLimit : Nat := 0x8000000000000000

/-- An integer in a base other than ten, after its marker. -/
def markedInteger (marker : Char) (base : Nat) (kind : Char → Bool) : Scan Value := do
  word ['0', marker]
  let n := numberOf base (← digits kind)
  require (n < integerLimit)
  return .integer n

def integer : Scan Value :=
  markedInteger 'x' 16 isHexDigit <|>
  markedInteger 'o' 8 (fun c => '0' ≤ c && c ≤ '7') <|>
  markedInteger 'b' 2 (fun c => c == '0' || c == '1') <|> do
    let negative ← sign
    let n := numberOf 10 (← wholeDigits)
    require (if negative then n ≤ integerLimit else n < integerLimit)
    return .integer (if negative then -(n : Int) else n)

/-- A decimal number `mantissa · 10 ^ exponent` is at least half a step above the greatest finite
float, so that it rounds to infinity. Exponents far off either way are settled by the number of
digits. -/
def isTooLarge (mantissa : Nat) (exponent : Int) : Bool :=
  let size : Int := (Nat.toDigits 10 mantissa).length + exponent
  if mantissa = 0 ∨ size < 300 then false
  else if 400 < size then true
  else
    let bound := Nat.pow 2 1024 - Nat.pow 2 970
    if 0 ≤ exponent then bound ≤ mantissa * Nat.pow 10 exponent.toNat
    else bound * Nat.pow 10 (-exponent).toNat ≤ mantissa

/-- The digits after the point of a float. -/
def fraction : Scan (List Char) := do
  char '.'
  digits Char.isDigit

def exponent : Scan Int := do
  let _ ← one fun c => c == 'e' || c == 'E'
  let negative ← sign
  let n := numberOf 10 (← digits Char.isDigit)
  return if negative then -(n : Int) else n

/-- A float in digits: with a fraction, an exponent, or both. -/
def decimalFloat : Scan Unit := do
  let negative ← sign
  let whole ← wholeDigits
  let places ← optional fraction
  let shift ← optional exponent
  require (places.isSome || shift.isSome)
  let places := places.getD []
  require (negative ||
    !isTooLarge (numberOf 10 (whole ++ places)) (shift.getD 0 - places.length))

/-- Infinity or no number, by its word. -/
def namedFloat : Scan Unit := do
  let _ ← sign
  word ['i', 'n', 'f'] <|> word ['n', 'a', 'n']

def float : Scan Value := do
  let (_, text) ← lexeme (decimalFloat <|> namedFloat)
  return .float text

/-- A number of so many digits, inside bounds. -/
def fixedNumber (width low high : Nat) : Scan Nat := do
  let spelled ← (List.range width).mapM fun _ => one Char.isDigit
  let n := numberOf 10 spelled
  require (low ≤ n && n ≤ high)
  return n

/-- The year has a 29 February. -/
def isLeapYear (year : Nat) : Bool :=
  year % 4 == 0 && (year % 100 != 0 || year % 400 == 0)

/-- The number of days in a month. -/
def daysIn (year month : Nat) : Nat :=
  if month = 2 then (if isLeapYear year then 29 else 28)
  else if month = 4 ∨ month = 6 ∨ month = 9 ∨ month = 11 then 30
  else 31

def date : Scan Unit := do
  let year ← fixedNumber 4 0 9999
  char '-'
  let month ← fixedNumber 2 1 12
  char '-'
  let _ ← fixedNumber 2 1 (daysIn year month)

/-- A time of day; a minute may have a leap second. -/
def time : Scan Unit := do
  let _ ← fixedNumber 2 0 23
  char ':'
  let _ ← fixedNumber 2 0 59
  char ':'
  let _ ← fixedNumber 2 0 60
  let _ ← optional (do
    char '.'
    let _ ← one Char.isDigit
    let _ ← span Char.isDigit)

def offset : Scan Unit :=
  (do let _ ← one fun c => c == 'Z' || c == 'z') <|> do
    let _ ← one fun c => c == '+' || c == '-'
    let _ ← fixedNumber 2 0 23
    char ':'
    let _ ← fixedNumber 2 0 59

/-- A date, a time of day, or both. -/
def moment : Scan Value := do
  let (_, text) ← lexeme ((do
    date
    let _ ← optional (do
      let _ ← one fun c => c == 'T' || c == 't' || c == ' '
      time
      optional offset)) <|> time)
  return .moment text

def boolean : Scan Value :=
  (do
    word ['t', 'r', 'u', 'e']
    return .boolean true) <|> do
    word ['f', 'a', 'l', 's', 'e']
    return .boolean false

def scalar : Scan Value :=
  (do return .string (← anyString)) <|> boolean <|> moment <|> float <|> integer

end RdmRegistry.Toml
