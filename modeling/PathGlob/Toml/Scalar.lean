import PathGlob.Data.Basic
import PathGlob.Text.Pieces
import PathGlob.Toml.Reading

/-! # Reading TOML: truth values, numbers and moments

What stands without quotes is read as one word and has to be a truth value, a number, or a date, a
time of day or both.
-/

namespace PathGlob.Toml

/-- The digits of a number, in which an underscore may stand between two digits. -/
def digits? (isDigit : Char → Bool) (text : List Char) : Option (List Char) :=
  let groups := Text.pieces (· == '_') text
  if groups.all fun group => group ≠ [] && group.all isDigit then some groups.flatten else none

/-- The value of digits up to nine, or of hexadecimal digits. -/
def digitsValue (base : Nat) (digits : List Char) : Nat :=
  digits.foldl (fun value c =>
    let digit := if c.isDigit then c.toNat - '0'.toNat else c.toLower.toNat - 'a'.toNat + 10
    value * base + digit) 0

def splitSign : List Char → Bool × List Char
  | '-' :: rest => (true, rest)
  | '+' :: rest => (false, rest)
  | text => (false, text)

/-- Decimal digits without a zero in front of others. -/
def wholeDigits? (text : List Char) : Option (List Char) :=
  match digits? Char.isDigit text with
  | some ('0' :: _ :: _) => none
  | other => other

def integer? (word : List Char) : Option Int :=
  let based (base : Nat) (isDigit : Char → Bool) (text : List Char) : Option Int :=
    (digits? isDigit text).map fun digits => (digitsValue base digits : Int)
  match word with
  | '0' :: 'x' :: rest => based 16 (fun c => c.isDigit || ('a' ≤ c.toLower && c.toLower ≤ 'f')) rest
  | '0' :: 'o' :: rest => based 8 (fun c => '0' ≤ c && c ≤ '7') rest
  | '0' :: 'b' :: rest => based 2 (fun c => c == '0' || c == '1') rest
  | _ =>
    let (negative, unsigned) := splitSign word
    (wholeDigits? unsigned).map fun digits =>
      let value : Int := digitsValue 10 digits
      if negative then -value else value

def exponent? : List Char → Option Int
  | [] => some 0
  | _ :: rest =>
    let (negative, unsigned) := splitSign rest
    (digits? Char.isDigit unsigned).map fun digits =>
      let value : Int := digitsValue 10 digits
      if negative then -value else value

/-- A number with a fraction, an exponent or both, or one that is no number or infinite. -/
def number? (word : List Char) : Option (Option Binary64) :=
  let (negative, unsigned) := splitSign word
  if unsigned = ['i', 'n', 'f'] then some (some (.infinite negative))
  else if unsigned = ['n', 'a', 'n'] then some (some .notANumber)
  else
    let isMark (c : Char) : Bool := c == 'e' || c == 'E'
    let decimal := unsigned.takeWhile (!isMark ·)
    let scale := unsigned.dropWhile (!isMark ·)
    let fraction? :=
      match decimal.dropWhile (· != '.') with
      | _ :: fraction => digits? Char.isDigit fraction
      | [] => if scale = [] then none else some []
    do
      let whole ← wholeDigits? (decimal.takeWhile (· != '.'))
      let fraction ← fraction?
      let exponent ← exponent? scale
      let digits := digitsValue 10 (whole ++ fraction)
      return Binary64.ofDecimal? negative digits (exponent - fraction.length)

def daysIn (year month : Nat) : Nat :=
  if month = 2 then
    if year % 4 = 0 ∧ (year % 100 ≠ 0 ∨ year % 400 = 0) then 29 else 28
  else if month = 4 ∨ month = 6 ∨ month = 9 ∨ month = 11 then 30
  else 31

/-- Two digits with a value up to a bound, taken off the front of a text. -/
def twoDigits? (bound : Nat) : List Char → Option (Nat × List Char)
  | a :: b :: rest =>
    let value := digitsValue 10 [a, b]
    if a.isDigit ∧ b.isDigit ∧ value ≤ bound then some (value, rest) else none
  | _ => none

/-- A date, taken off the front of a text. -/
def date? (text : List Char) : Option (List Char) := do
  let (century, rest) ← twoDigits? 99 text
  let (yearOfCentury, rest) ← twoDigits? 99 rest
  let '-' :: rest := rest | none
  let (month, rest) ← twoDigits? 12 rest
  let '-' :: rest := rest | none
  let (day, rest) ← twoDigits? 31 rest
  if 1 ≤ month ∧ 1 ≤ day ∧ day ≤ daysIn (century * 100 + yearOfCentury) month then some rest
  else none

def fraction? : List Char → Option (List Char)
  | '.' :: rest =>
    if rest.head?.any Char.isDigit then some (rest.dropWhile Char.isDigit) else none
  | text => some text

/-- A time of day, with or without seconds, taken off the front of a text. -/
def time? (text : List Char) : Option (List Char) := do
  let (_, rest) ← twoDigits? 23 text
  let ':' :: rest := rest | none
  let (_, rest) ← twoDigits? 59 rest
  match rest with
  | ':' :: rest => do
    let (_, rest) ← twoDigits? 60 rest
    fraction? rest
  | rest => some rest

/-- Whether a text is a distance from universal time. -/
def isOffset : List Char → Bool
  | ['Z'] | ['z'] => true
  | sign :: rest =>
    (sign == '+' || sign == '-') &&
      match twoDigits? 23 rest with
      | some (_, ':' :: rest) => (twoDigits? 59 rest).any (·.2 == [])
      | _ => false
  | [] => false

def isMoment (word : List Char) : Bool :=
  match date? word with
  | some [] => true
  | some (mark :: rest) =>
    (mark == 'T' || mark == 't' || mark == ' ') &&
      match time? rest with
      | some [] => true
      | some offset => isOffset offset
      | none => false
  | none => time? word == some []

/-- The characters of words. -/
def isWordChar (c : Char) : Bool :=
  c.isAlphanum || c == '_' || c == '-' || c == '+' || c == '.' || c == ':'

def word : Reading (List Char) := do
  let first ← takeWhile isWordChar
  match date? first, ← get with
  | some [], ' ' :: c :: rest =>
    if c.isDigit then do
      set (c :: rest)
      let time ← takeWhile isWordChar
      return first ++ ' ' :: time
    else return first
  | _, _ => return first

def scalar? (word : List Char) : Option Data :=
  if word = ['t', 'r', 'u', 'e'] then some (.bool true)
  else if word = ['f', 'a', 'l', 's', 'e'] then some (.bool false)
  else if isMoment word then some .moment
  else
    match integer? word with
    | some value => some (.integer value)
    | none => (number? word).map Data.number

end PathGlob.Toml
