import Conformance.Toml.Value

/-!
# TOML literals

How TOML 1.1 writes the values that hold no other value: the four kinds of string, booleans,
integers in four radixes, floats, and dates and times. Each reader takes the characters at the
front of a line and gives the value with what follows it, or nothing when the front is not
that kind of value. Numbers, booleans, dates and times are read as one run of the characters
they may contain, and a date followed by a space and a digit continues with a time; whatever
follows the run must be something TOML allows after a value, which the document reader checks.
-/

namespace Conformance.Toml

/-- Space and tab, the only blanks TOML allows inside a line. -/
def isSpace (c : Char) : Bool := c == ' ' || c == '\t'

/-- Drops the spaces and tabs at the front. -/
def skipSpace (cs : List Char) : List Char := cs.dropWhile isSpace

/-- Whether a line break comes next, after spaces and tabs. -/
def breaksLine (cs : List Char) : Bool :=
  match skipSpace cs with
  | '\n' :: _ => true
  | '\r' :: '\n' :: _ => true
  | _ => false

/-- A character that stands for itself in a basic string: tab, and every character but the
control characters, the quote and the backslash. -/
def isBasicChar (c : Char) : Bool :=
  c == '\t' || (0x20 ≤ c.toNat && c.toNat != 0x7F && c != '"' && c != '\\')

/-- A character that may stand in a literal string: tab, and every character but the
control characters and the apostrophe. -/
def isLiteralChar (c : Char) : Bool :=
  c == '\t' || (0x20 ≤ c.toNat && c.toNat != 0x7F && c != '\'')

/-- A character that may stand in a comment: tab, and every character but the control
characters. -/
def isCommentChar (c : Char) : Bool :=
  c == '\t' || (0x20 ≤ c.toNat && c.toNat != 0x7F)

/-- The character a short escape stands for. -/
def shortEscape : Char → Option Char
  | 'b' => some '\x08'
  | 't' => some '\t'
  | 'n' => some '\n'
  | 'f' => some '\x0C'
  | 'r' => some '\r'
  | 'e' => some '\x1B'
  | '"' => some '"'
  | '\\' => some '\\'
  | _ => none

/-- The value of a hexadecimal digit. -/
def hexDigit (c : Char) : Option Nat :=
  if c.isDigit then some (c.toNat - '0'.toNat)
  else if 'a' ≤ c ∧ c ≤ 'f' then some (c.toNat - 'a'.toNat + 10)
  else if 'A' ≤ c ∧ c ≤ 'F' then some (c.toNat - 'A'.toNat + 10)
  else none

/-- The character whose code point the hexadecimal digits spell, when it is a Unicode
scalar value. -/
def codeChar (ds : List Char) : Option Char := do
  let n ← ds.foldlM (fun n c => (hexDigit c).map (n * 16 + ·)) 0
  if n.isValidChar then some (Char.ofNat n) else none

/-! ## Strings -/

/-- The rest of a basic string after its opening quote, with the characters read so far
kept reversed in `acc`. -/
def basicFrom (acc : List Char) : List Char → Option (String × List Char)
  | '"' :: rest => some (String.ofList acc.reverse, rest)
  | '\\' :: 'u' :: a :: b :: c :: d :: rest => do
    let ch ← codeChar [a, b, c, d]
    basicFrom (ch :: acc) rest
  | '\\' :: 'U' :: a :: b :: c :: d :: e :: f :: g :: h :: rest => do
    let ch ← codeChar [a, b, c, d, e, f, g, h]
    basicFrom (ch :: acc) rest
  | '\\' :: 'x' :: a :: b :: rest => do
    let ch ← codeChar [a, b]
    basicFrom (ch :: acc) rest
  | '\\' :: e :: rest => do
    let ch ← shortEscape e
    basicFrom (ch :: acc) rest
  | c :: rest => if isBasicChar c then basicFrom (c :: acc) rest else none
  | [] => none

/-- The rest of a multi-line basic string. `skipping` holds after a backslash that ends a
line, while blanks and line breaks are dropped. Two quotes before the closing three belong
to the string. -/
def multiBasicFrom (skipping : Bool) (acc : List Char) : List Char → Option (String × List Char)
  | ' ' :: rest =>
    if skipping then multiBasicFrom true acc rest else multiBasicFrom false (' ' :: acc) rest
  | '\t' :: rest =>
    if skipping then multiBasicFrom true acc rest else multiBasicFrom false ('\t' :: acc) rest
  | '\n' :: rest =>
    if skipping then multiBasicFrom true acc rest else multiBasicFrom false ('\n' :: acc) rest
  | '\r' :: '\n' :: rest =>
    if skipping then multiBasicFrom true acc rest
    else multiBasicFrom false ('\n' :: '\r' :: acc) rest
  | '"' :: '"' :: '"' :: '"' :: '"' :: rest =>
    some (String.ofList ('"' :: '"' :: acc).reverse, rest)
  | '"' :: '"' :: '"' :: '"' :: rest => some (String.ofList ('"' :: acc).reverse, rest)
  | '"' :: '"' :: '"' :: rest => some (String.ofList acc.reverse, rest)
  | '"' :: rest => multiBasicFrom false ('"' :: acc) rest
  | '\\' :: 'u' :: a :: b :: c :: d :: rest => do
    let ch ← codeChar [a, b, c, d]
    multiBasicFrom false (ch :: acc) rest
  | '\\' :: 'U' :: a :: b :: c :: d :: e :: f :: g :: h :: rest => do
    let ch ← codeChar [a, b, c, d, e, f, g, h]
    multiBasicFrom false (ch :: acc) rest
  | '\\' :: 'x' :: a :: b :: rest => do
    let ch ← codeChar [a, b]
    multiBasicFrom false (ch :: acc) rest
  | '\\' :: rest =>
    if breaksLine rest then multiBasicFrom true acc rest
    else
      match rest with
      | e :: more => do
        let ch ← shortEscape e
        multiBasicFrom false (ch :: acc) more
      | [] => none
  | c :: rest => if isBasicChar c then multiBasicFrom false (c :: acc) rest else none
  | [] => none

/-- The rest of a literal string after its opening apostrophe. -/
def literalFrom (acc : List Char) : List Char → Option (String × List Char)
  | '\'' :: rest => some (String.ofList acc.reverse, rest)
  | c :: rest => if isLiteralChar c then literalFrom (c :: acc) rest else none
  | [] => none

/-- The rest of a multi-line literal string. Two apostrophes before the closing three belong
to the string. -/
def multiLiteralFrom (acc : List Char) : List Char → Option (String × List Char)
  | '\n' :: rest => multiLiteralFrom ('\n' :: acc) rest
  | '\r' :: '\n' :: rest => multiLiteralFrom ('\n' :: '\r' :: acc) rest
  | '\'' :: '\'' :: '\'' :: '\'' :: '\'' :: rest =>
    some (String.ofList ('\'' :: '\'' :: acc).reverse, rest)
  | '\'' :: '\'' :: '\'' :: '\'' :: rest => some (String.ofList ('\'' :: acc).reverse, rest)
  | '\'' :: '\'' :: '\'' :: rest => some (String.ofList acc.reverse, rest)
  | '\'' :: rest => multiLiteralFrom ('\'' :: acc) rest
  | c :: rest => if isLiteralChar c then multiLiteralFrom (c :: acc) rest else none
  | [] => none

/-- Drops the line break that may follow the opening of a multi-line string. -/
def dropFirstBreak : List Char → List Char
  | '\n' :: rest => rest
  | '\r' :: '\n' :: rest => rest
  | cs => cs

/-- A string of any of the four kinds at the front. -/
def readString : List Char → Option (String × List Char)
  | '"' :: '"' :: '"' :: rest => multiBasicFrom false [] (dropFirstBreak rest)
  | '"' :: rest => basicFrom [] rest
  | '\'' :: '\'' :: '\'' :: rest => multiLiteralFrom [] (dropFirstBreak rest)
  | '\'' :: rest => literalFrom [] rest
  | _ => none

/-! ## Numbers -/

/-- Digits with single underscores between them, read in a radix after the value `acc`. -/
def groupedFrom (digit : Char → Option Nat) (radix acc : Nat) : List Char → Option Nat
  | [] => some acc
  | '_' :: c :: rest => do
    let d ← digit c
    groupedFrom digit radix (acc * radix + d) rest
  | c :: rest => do
    let d ← digit c
    groupedFrom digit radix (acc * radix + d) rest

/-- A nonempty run of digits with single underscores between them. -/
def grouped (digit : Char → Option Nat) (radix : Nat) : List Char → Option Nat
  | [] => none
  | c :: rest => do
    let d ← digit c
    groupedFrom digit radix d rest

/-- The value of a decimal digit. -/
def decimalDigit (c : Char) : Option Nat :=
  if c.isDigit then some (c.toNat - '0'.toNat) else none

/-- The value of an octal digit. -/
def octalDigit (c : Char) : Option Nat :=
  if '0' ≤ c ∧ c ≤ '7' then some (c.toNat - '0'.toNat) else none

/-- The value of a binary digit. -/
def binaryDigit (c : Char) : Option Nat :=
  if c = '0' ∨ c = '1' then some (c.toNat - '0'.toNat) else none

/-- The integer part of a decimal number: zero alone, or digits that do not start with
zero. -/
def wholePart : List Char → Option Nat
  | ['0'] => some 0
  | '0' :: _ => none
  | cs => grouped decimalDigit 10 cs

/-- Two to the 128th power: an integer is read into the widest integer type that holds it,
up to unsigned 128-bit, so a non-negative integer stays below it. -/
def unsignedLimit : Nat := 340282366920938463463374607431768211456

/-- Two to the 127th power: a negative integer is read into signed 128-bit at widest, so its
magnitude reaches this at most. -/
def negativeLimit : Nat := 170141183460469231731687303715884105728

/-- The least magnitude a double rounds up to infinity: halfway between the largest finite
double, `(2 ^ 53 - 1) * 2 ^ 971`, and `2 ^ 1024`. -/
def overflowBound : Nat :=
  179769313486231580793728971405303415079934132710037826936173778980444968292764750946649017977587207096330286416692887910946555547851940402630657488671505820681908902000708383676273854845817711531764475730270069855571366959622842914819860834936475292719074168444365510704342711559699508093042880177904174497792

/-- The number of decimal digits of a positive number. -/
def decimalWidth (n : Nat) : Nat := (Nat.toDigits 10 n).length

/-- Whether `m * 10 ^ k` stays below the magnitude that rounds to infinity. Only numbers of
309 digits need the exact comparison; shorter ones stay below, longer ones reach it. -/
def finiteScaled (m : Nat) (k : Int) : Bool :=
  if m = 0 then true
  else
    let width : Int := Int.ofNat (decimalWidth m) + k
    if width ≤ 308 then true
    else if width ≥ 310 then false
    else if 0 ≤ k then m * Nat.pow 10 k.toNat < overflowBound
    else m < overflowBound * Nat.pow 10 (-k).toNat

/-- The digits of a run with single underscores between them, underscores left out. -/
def digitCount (cs : List Char) : Nat := (cs.filter (· != '_')).length

/-- A decimal number without its sign: an integer, or a float when a fraction or an
exponent follows its integer part. An integer must fit the widest integer type, and a
float must not round to infinity. -/
def unsignedDecimal (negative : Bool) (cs : List Char) : Option Scalar :=
  let mantissa := cs.takeWhile (fun c => c != 'e' && c != 'E')
  let exponent := cs.dropWhile (fun c => c != 'e' && c != 'E')
  let whole := mantissa.takeWhile (· != '.')
  let fraction := mantissa.dropWhile (· != '.')
  do
    let n ← wholePart whole
    let (frac, places) ← match fraction with
      | [] => some (0, 0)
      | _ :: ds => (grouped decimalDigit 10 ds).map (·, digitCount ds)
    let power : Int ← match exponent with
      | [] => some 0
      | _ :: '+' :: ds => (grouped decimalDigit 10 ds).map Int.ofNat
      | _ :: '-' :: ds => (grouped decimalDigit 10 ds).map fun e => -(Int.ofNat e)
      | _ :: ds => (grouped decimalDigit 10 ds).map Int.ofNat
    if fraction.isEmpty && exponent.isEmpty then
      if negative then
        if n ≤ negativeLimit then some (.int (-(n : Int))) else none
      else if n < unsignedLimit then some (.int n) else none
    else if finiteScaled (n * Nat.pow 10 places + frac) (power - Int.ofNat places) then
      some (.float (String.ofList cs))
    else none

/-- A number: an unsigned integer in hexadecimal, octal or binary, or a signed decimal
integer or float, or an infinity or not-a-number. -/
def readNumber (cs : List Char) : Option Scalar :=
  let radix (digit : Char → Option Nat) (r : Nat) (ds : List Char) : Option Scalar := do
    let n ← grouped digit r ds
    if n < unsignedLimit then some (.int n) else none
  match cs with
  | '0' :: 'x' :: ds => radix hexDigit 16 ds
  | '0' :: 'o' :: ds => radix octalDigit 8 ds
  | '0' :: 'b' :: ds => radix binaryDigit 2 ds
  | _ =>
    let (negative, body) : Bool × List Char := match cs with
      | '+' :: rest => (false, rest)
      | '-' :: rest => (true, rest)
      | rest => (false, rest)
    if body = ['i', 'n', 'f'] ∨ body = ['n', 'a', 'n'] then some (.float (String.ofList cs))
    else unsignedDecimal negative body

/-! ## Dates and times -/

/-- The value of two decimal digits. -/
def twoDigits (a b : Char) : Option Nat := do
  let x ← decimalDigit a
  let y ← decimalDigit b
  pure (x * 10 + y)

/-- The number of days in a month of a year of the Gregorian calendar. -/
def daysInMonth (year month : Nat) : Nat :=
  if month = 2 then
    if year % 4 = 0 ∧ (year % 100 ≠ 0 ∨ year % 400 = 0) then 29 else 28
  else if month = 4 ∨ month = 6 ∨ month = 9 ∨ month = 11 then 30
  else 31

/-- Whether ten characters spell a date `YYYY-MM-DD` that the calendar has. -/
def isDate : List Char → Bool
  | [y1, y2, y3, y4, '-', m1, m2, '-', d1, d2] =>
    match twoDigits y1 y2, twoDigits y3 y4, twoDigits m1 m2, twoDigits d1 d2 with
    | some hi, some lo, some m, some d =>
      1 ≤ m && m ≤ 12 && 1 ≤ d && d ≤ daysInMonth (hi * 100 + lo) m
    | _, _, _, _ => false
  | _ => false

/-- Whether a run of characters is a fraction of a second: a point and one or more
digits. -/
def isSecondFraction : List Char → Bool
  | '.' :: ds => !ds.isEmpty && ds.all Char.isDigit
  | _ => false

/-- A time `HH:MM`, with seconds and a fraction of a second optional, at the front; gives
what follows it. -/
def readTime : List Char → Option (List Char)
  | h1 :: h2 :: ':' :: m1 :: m2 :: rest => do
    let h ← twoDigits h1 h2
    let m ← twoDigits m1 m2
    if 23 < h ∨ 59 < m then none
    else
      match rest with
      | ':' :: s1 :: s2 :: more => do
        let s ← twoDigits s1 s2
        if 60 < s then none
        else
          let frac := more.takeWhile (fun c => c == '.' || c.isDigit)
          if frac.isEmpty then some more
          else if isSecondFraction frac then some (more.drop frac.length)
          else none
      | _ => some rest
  | _ => none

/-- Whether characters spell an offset from universal time: `Z`, or a sign and `HH:MM`. -/
def isOffset : List Char → Bool
  | ['Z'] | ['z'] => true
  | [s, h1, h2, ':', m1, m2] =>
    (s == '+' || s == '-') &&
      match twoDigits h1 h2, twoDigits m1 m2 with
      | some h, some m => h ≤ 23 && m ≤ 59
      | _, _ => false
  | _ => false

/-- Whether characters spell a date, a time, or a date and a time with an optional
offset. -/
def isDatetime (cs : List Char) : Bool :=
  if isDate (cs.take 10) then
    match cs.drop 10 with
    | [] => true
    | sep :: time =>
      (sep == 'T' || sep == 't' || sep == ' ') &&
        match readTime time with
        | some [] => true
        | some offset => isOffset offset
        | none => false
  else readTime cs == some []

/-! ## Bare values -/

/-- A character that may stand in a number, a boolean, a date or a time. -/
def isBareChar (c : Char) : Bool :=
  c.isAlphanum || c == '_' || c == '+' || c == '-' || c == '.' || c == ':'

/-- What a run of bare characters stands for. -/
def bareValue (cs : List Char) : Option Scalar :=
  if cs = ['t', 'r', 'u', 'e'] then some (.bool true)
  else if cs = ['f', 'a', 'l', 's', 'e'] then some (.bool false)
  else if isDatetime cs then some (.datetime (String.ofList cs))
  else readNumber cs

/-- A number, boolean, date or time at the front, and what follows it. A date alone that is
followed by a space and a digit takes the time after the space. -/
def readBare (cs : List Char) : Option (Scalar × List Char) :=
  let run := cs.takeWhile isBareChar
  let rest := cs.dropWhile isBareChar
  let (run, rest) : List Char × List Char :=
    match rest with
    | ' ' :: d :: more =>
      if isDate run && d.isDigit then
        let time := (d :: more).takeWhile isBareChar
        (run ++ ' ' :: time, (d :: more).dropWhile isBareChar)
      else (run, rest)
    | _ => (run, rest)
  if run.isEmpty then none else (bareValue run).map (·, rest)

end Conformance.Toml
