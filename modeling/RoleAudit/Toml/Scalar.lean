import RoleAudit.Json.Parser
import RoleAudit.Toml.Basic

/-!
# Numbers, dates and truth values of TOML

What stands on the right of a key without quotes and brackets is one token. It is a truth value, an
integer, a float, or a date, or else a fault. Underscores may stand between two digits.
-/

namespace RoleAudit.Toml

/-! ## Digits -/

/-- Digits with single underscores between them, without the underscores. -/
def grouped? (isDigit : Char → Bool) : List Char → Option (List Char)
  | [] => none
  | [d] => if isDigit d then some [d] else none
  | d :: '_' :: rest => if isDigit d then (grouped? isDigit rest).map (d :: ·) else none
  | d :: rest => if isDigit d then (grouped? isDigit rest).map (d :: ·) else none

/-- The decimal digits of a whole number: a zero alone, or digits that do not start with zero. -/
def decimal? (cs : List Char) : Option (List Char) :=
  match grouped? Char.isDigit cs with
  | some ['0'] => some ['0']
  | some ('0' :: _) => none
  | other => other

/-- The number that digits denote in a base up to sixteen. -/
def valueInBase (base : Nat) (digits : List Char) : Nat :=
  digits.foldl (fun n d => n * base + (Json.hexDigit? d).getD 0) 0

/-- Whether a character is a digit of a base up to sixteen. -/
def isDigitOf (base : Nat) (c : Char) : Bool :=
  match Json.hexDigit? c with
  | some d => d < base
  | none => false

/-- Cuts an optional sign off: whether it is a minus, whether there is one, and the rest. -/
def cutSign : List Char → Bool × Bool × List Char
  | '-' :: rest => (true, true, rest)
  | '+' :: rest => (false, true, rest)
  | cs => (false, false, cs)

/-! ## Integers -/

/-- An integer of a base that is not ten. -/
def prefixedInteger? : List Char → Option Nat
  | '0' :: 'x' :: rest => (grouped? (isDigitOf 16) rest).map (valueInBase 16)
  | '0' :: 'o' :: rest => (grouped? (isDigitOf 8) rest).map (valueInBase 8)
  | '0' :: 'b' :: rest => (grouped? (isDigitOf 2) rest).map (valueInBase 2)
  | _ => none

/-- Whether an integer is within what can be held: signed or unsigned words of 128 bits. -/
def isHeld : Int → Bool
  | .ofNat n => n < 1 <<< 128
  | .negSucc n => n < 1 <<< 127

/-- The integer that a token denotes. -/
def integer? (cs : List Char) : Option Int :=
  match prefixedInteger? cs with
  | some n => some n
  | none =>
    let (negative, _, body) := cutSign cs
    (decimal? body).map fun digits =>
      let n : Int := valueInBase 10 digits
      if negative then -n else n

/-! ## Floats -/

/-- The parts of a float: the whole digits, the digits after the point and the exponent. -/
structure FloatParts where
  /-- The digits before the point. -/
  whole : List Char
  /-- The digits after the point. -/
  fraction : List Char
  /-- The power of ten. -/
  exponent : Int

/-- The exponent after its letter. -/
def exponent? (cs : List Char) : Option Int :=
  let (negative, _, body) := cutSign cs
  (grouped? Char.isDigit body).map fun digits =>
    let n : Int := valueInBase 10 digits
    if negative then -n else n

/-- The characters before and after the first one that satisfies a test. -/
def cutWhere? (test : Char → Bool) : List Char → Option (List Char × List Char)
  | [] => none
  | c :: rest =>
    if test c then some ([], rest)
    else (cutWhere? test rest).map fun (before, after) => (c :: before, after)

/-- The digits before and after the point of a float. -/
def mantissa? (cs : List Char) : Option (List Char × List Char) :=
  match cutWhere? (· = '.') cs with
  | some (whole, fraction) => do return (← decimal? whole, ← grouped? Char.isDigit fraction)
  | none => (decimal? cs).map fun whole => (whole, [])

/-- The parts of a float without its sign; it has a point or an exponent. -/
def floatParts? (cs : List Char) : Option FloatParts :=
  match cutWhere? (fun c => c = 'e' || c = 'E') cs with
  | some (mantissa, exponent) => do
    let (whole, fraction) ← mantissa? mantissa
    return { whole, fraction, exponent := ← exponent? exponent }
  | none =>
    if cs.contains '.' then (mantissa? cs).map fun (whole, fraction) =>
      { whole, fraction, exponent := 0 }
    else none

/-- The least number beyond the floats of 64 bits, halfway to the next power of two. -/
def floatBound : Nat := (1 <<< 54 - 1) <<< 970

/-- Whether a float is within the floats of 64 bits. Three hundred and some digits decide most
cases without computing the power. -/
def FloatParts.isFinite (p : FloatParts) : Bool :=
  let n := valueInBase 10 (p.whole ++ p.fraction)
  let power := p.exponent - p.fraction.length
  let digits : Int := (Nat.toDigits 10 n).length + power
  if n = 0 || digits < 300 then true
  else if digits > 320 then false
  else if 0 ≤ power then n * Nat.pow 10 power.toNat < floatBound
  else n < floatBound * Nat.pow 10 (-power).toNat

/-- The float that a token denotes, without underscores. -/
def float? (cs : List Char) : Option Toml :=
  let (_, _, body) := cutSign cs
  if body = ['i', 'n', 'f'] || body = ['n', 'a', 'n'] then some (.float (String.ofList cs))
  else
    match floatParts? body with
    | some parts =>
      if parts.isFinite then some (.float (String.ofList (cs.filter (· ≠ '_')))) else none
    | none => none

/-! ## Dates and times -/

/-- The value of a fixed number of leading digits, and the characters after them. -/
def fixedDigits? : Nat → List Char → Option (Nat × List Char)
  | count, cs =>
    let ds := cs.take count
    if ds.length = count && ds.all Char.isDigit then some (valueInBase 10 ds, cs.drop count)
    else none

/-- A number with at least so many digits, zeros in front. -/
def padded (width n : Nat) : String :=
  let ds := Nat.toDigits 10 n
  String.ofList (List.replicate (width - ds.length) '0' ++ ds)

/-- How many days a month has. -/
def daysIn (year month : Nat) : Nat :=
  if month = 2 then
    if year % 4 = 0 && (year % 100 ≠ 0 || year % 400 = 0) then 29 else 28
  else if month = 4 || month = 6 || month = 9 || month = 11 then 30
  else 31

/-- A day of the calendar. -/
def day? (cs : List Char) : Option (String × List Char) :=
  match fixedDigits? 4 cs with
  | some (year, '-' :: rest) =>
    match fixedDigits? 2 rest with
    | some (month, '-' :: rest) =>
      match fixedDigits? 2 rest with
      | some (day, rest) =>
        if 1 ≤ month && month ≤ 12 && 1 ≤ day && day ≤ daysIn year month then
          some (padded 4 year ++ "-" ++ padded 2 month ++ "-" ++ padded 2 day, rest)
        else none
      | none => none
    | _ => none
  | _ => none

/-- The fraction of a second: a point and digits, nine of which count. -/
def fractionOfSecond? : List Char → Option (String × List Char)
  | '.' :: rest =>
    let (ds, rest) := Json.digits rest
    if ds.isEmpty then none
    else
      let kept := ((ds.take 9).reverse.dropWhile (· = '0')).reverse
      some (if kept.isEmpty then "" else String.ofList ('.' :: kept), rest)
  | cs => some ("", cs)

/-- The seconds of a time, which may be left out. -/
def seconds? : List Char → Option (String × List Char)
  | ':' :: rest => do
    let (second, rest) ← fixedDigits? 2 rest
    guard (second ≤ 60)
    let (fraction, rest) ← fractionOfSecond? rest
    return (padded 2 second ++ fraction, rest)
  | cs => some ("00", cs)

/-- A time of the day. -/
def time? (cs : List Char) : Option (String × List Char) :=
  match fixedDigits? 2 cs with
  | some (hour, ':' :: rest) => do
    let (minute, rest) ← fixedDigits? 2 rest
    guard (hour ≤ 23 && minute ≤ 59)
    let (second, rest) ← seconds? rest
    return (padded 2 hour ++ ":" ++ padded 2 minute ++ ":" ++ second, rest)
  | _ => none

/-- The distance to universal time at the end of a token, which may be left out. -/
def offset? : List Char → Option String
  | [] => some ""
  | ['Z'] => some "Z"
  | ['z'] => some "Z"
  | sign :: rest =>
    if sign = '+' || sign = '-' then
      match fixedDigits? 2 rest with
      | some (hours, ':' :: rest) =>
        match fixedDigits? 2 rest with
        | some (minutes, []) =>
          if hours ≤ 23 && minutes ≤ 59 then
            let shown := if hours = 0 && minutes = 0 then '+' else sign
            some (String.ofList [shown] ++ padded 2 hours ++ ":" ++ padded 2 minutes)
          else none
        | _ => none
      | _ => none
    else none

/-- The date, time, or both, that a token denotes. -/
def date? (cs : List Char) : Option String :=
  match day? cs with
  | some (day, []) => some day
  | some (day, mark :: rest) =>
    if mark = 'T' || mark = 't' || mark = ' ' then do
      let (time, rest) ← time? rest
      return day ++ "T" ++ time ++ (← offset? rest)
    else none
  | none =>
    match time? cs with
    | some (time, []) => some time
    | _ => none

/-- The value of a token. -/
def scalar? (cs : List Char) : Option Toml :=
  if cs = ['t', 'r', 'u', 'e'] then some (.bool true)
  else if cs = ['f', 'a', 'l', 's', 'e'] then some (.bool false)
  else
    match date? cs with
    | some d => some (.date d)
    | none =>
      match integer? cs with
      | some n => if isHeld n then some (.integer n) else none
      | none => float? cs

end RoleAudit.Toml
