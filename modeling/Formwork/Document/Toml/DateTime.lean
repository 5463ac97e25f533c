import Formwork.Number.Decimal

/-!
# Dates and times

A date, a time, or both with perhaps an offset. `read?` gives the canonical text: `T` between date
and time, `Z` in upper case, no more than nine digits of a second and no zeros behind them.
-/

namespace Formwork.DateTime

def digitsIn (lo hi : Nat) (cs : List Char) : Bool :=
  let n := Decimal.digitsValue 0 cs
  cs.all Char.isDigit && lo ≤ n && n ≤ hi

def isLeap (year : Nat) : Bool := year % 4 == 0 && (year % 100 != 0 || year % 400 == 0)

def daysIn (year month : Nat) : Nat :=
  if month == 2 then if isLeap year then 29 else 28
  else if month == 4 || month == 6 || month == 9 || month == 11 then 30
  else 31

def date? : List Char → Option (List Char × List Char)
  | y1 :: y2 :: y3 :: y4 :: '-' :: m1 :: m2 :: '-' :: d1 :: d2 :: rest =>
    let year := Decimal.digitsValue 0 [y1, y2, y3, y4]
    let month := Decimal.digitsValue 0 [m1, m2]
    if digitsIn 0 9999 [y1, y2, y3, y4] && digitsIn 1 12 [m1, m2]
        && digitsIn 1 (daysIn year month) [d1, d2] then
      some ([y1, y2, y3, y4, '-', m1, m2, '-', d1, d2], rest)
    else none
  | _ => none

/-- Digits of a second without zeros at the end, behind a point unless there are none. -/
def fractionText (digits : List Char) : List Char :=
  match ((digits.take 9).reverse.dropWhile (· == '0')).reverse with
  | [] => []
  | ds => '.' :: ds

/-- A time in front of a text, and the rest. A minute may have a leap second. -/
def time? : List Char → Option (List Char × List Char)
  | h1 :: h2 :: ':' :: m1 :: m2 :: ':' :: s1 :: s2 :: rest =>
    if digitsIn 0 23 [h1, h2] && digitsIn 0 59 [m1, m2] && digitsIn 0 60 [s1, s2] then
      let clock := [h1, h2, ':', m1, m2, ':', s1, s2]
      match rest with
      | '.' :: more =>
        let digits := more.takeWhile Char.isDigit
        if digits.isEmpty then none
        else some (clock ++ fractionText digits, more.dropWhile Char.isDigit)
      | rest => some (clock, rest)
    else none
  | _ => none

/-- An offset that is all of a text, or none at all. An offset of zero minutes is positive. -/
def offset? : List Char → Option (List Char)
  | [] => some []
  | ['Z'] => some ['Z']
  | ['z'] => some ['Z']
  | [sign, h1, h2, ':', m1, m2] =>
    if (sign == '+' || sign == '-') && digitsIn 0 23 [h1, h2] && digitsIn 0 59 [m1, m2] then
      let zero := [h1, h2, m1, m2].all (· == '0')
      some [if zero then '+' else sign, h1, h2, ':', m1, m2]
    else none
  | _ => none

def read? (cs : List Char) : Option String :=
  match date? cs with
  | some (date, []) => some (String.ofList date)
  | some (date, t :: rest) =>
    if t == 'T' || t == 't' || t == ' ' then do
      let (time, rest) ← time? rest
      let offset ← offset? rest
      pure (String.ofList (date ++ 'T' :: time ++ offset))
    else none
  | none =>
    match time? cs with
    | some (time, []) => some (String.ofList time)
    | _ => none

end Formwork.DateTime
