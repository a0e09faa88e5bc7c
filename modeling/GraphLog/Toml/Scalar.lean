/-
**The leaves of a settings text: quoted texts, numbers, truth values and moments.**

A quoted text has one of four forms: with escapes or literal, on one line or over several.  All
other leaves are words without blanks, told apart by their letters; a date and a time may have one
blank between them.

Main definitions:

* `GraphLog.Toml.quoted` — the quoted text at the front of a text;
* `GraphLog.Toml.ofWord` — the document that a word stands for;
* `GraphLog.Toml.word` — the word at the front of a text.
-/

import GraphLog.Json.Reader

set_option relaxedAutoImplicit false
set_option autoImplicit false

namespace GraphLog.Toml

def isBlank (c : Char) : Bool :=
  c == ' ' || c == '\t'

/-- The rest of a line after its leading blanks. -/
def skipBlank (cs : List Char) : List Char :=
  cs.dropWhile isBlank

/-- The character may stand in a comment or a quoted text as it is. -/
def isPlain (c : Char) : Bool :=
  c == '\t' || (0x20 ≤ c.toNat && c.toNat != 0x7F)

/-- The rest of a text behind a line break. -/
def lineBreak : List Char → Option (List Char)
  | '\n' :: rest => some rest
  | '\r' :: '\n' :: rest => some rest
  | _ => none

/-! ### Quoted texts -/

/-- The character with a number, unless it is half of a surrogate pair or beyond the last one. -/
def scalar? (n : Nat) : Option Char :=
  if n.isValidChar then some (Char.ofNat n) else none

def hexNumber? (digits : List Char) : Option Nat :=
  digits.foldlM (fun n d => (n * 16 + ·) <$> Json.hexValue? d) 0

/-- The character that a one-letter escape stands for. -/
def escape? : Char → Option Char
  | 'b' => some '\x08'
  | 't' => some '\t'
  | 'n' => some '\n'
  | 'f' => some '\x0c'
  | 'r' => some '\r'
  | '"' => some '"'
  | '\\' => some '\\'
  | _ => none

/-- Puts a character in front of what is found. -/
def andThen (c : Option Char) (found : Option (List Char × List Char)) :
    Option (List Char × List Char) := do
  let (cs, rest) ← found
  return ((← c) :: cs, rest)

/-- The letters of a literal text on one line, up to its quote. -/
def literal : List Char → Option (List Char × List Char)
  | [] => none
  | '\'' :: rest => some ([], rest)
  | c :: rest => if isPlain c then andThen c (literal rest) else none

/-- The letters of a text with escapes on one line, up to its quote. -/
def basic : List Char → Option (List Char × List Char)
  | [] => none
  | '"' :: rest => some ([], rest)
  | '\\' :: 'u' :: a :: b :: c :: d :: rest =>
    andThen (hexNumber? [a, b, c, d] >>= scalar?) (basic rest)
  | '\\' :: 'U' :: a :: b :: c :: d :: e :: f :: g :: h :: rest =>
    andThen (hexNumber? [a, b, c, d, e, f, g, h] >>= scalar?) (basic rest)
  | '\\' :: c :: rest => andThen (escape? c) (basic rest)
  | c :: rest => if isPlain c && c != '\\' then andThen c (basic rest) else none

/-- The end of a text over several lines: three quotes, of which up to two more in front belong to
the text. -/
def closing (quote : Char) (cs : List Char) : Option (List Char × List Char) :=
  let run := (cs.takeWhile (· == quote)).length
  if 3 ≤ run ∧ run ≤ 5 then some (List.replicate (run - 3) quote, cs.drop run) else none

/-- The letters of a literal text over several lines, up to its `closing` quotes. -/
def longLiteral : List Char → Option (List Char × List Char)
  | [] => none
  | '\'' :: rest =>
    (closing '\'' ('\'' :: rest)).orElse fun () =>
      if rest.take 2 = ['\'', '\''] then none else andThen '\'' (longLiteral rest)
  | '\r' :: '\n' :: rest => andThen '\n' (longLiteral rest)
  | c :: rest => if isPlain c || c == '\n' then andThen c (longLiteral rest) else none

/-- The letters of a text with escapes over several lines, up to its `closing` quotes.  A backslash
at the end of a line joins the lines: blanks and line breaks behind it are passed over. -/
def longBasic (joining : Bool) : List Char → Option (List Char × List Char)
  | [] => none
  | '"' :: rest =>
    (closing '"' ('"' :: rest)).orElse fun () =>
      if rest.take 2 = ['"', '"'] then none else andThen '"' (longBasic false rest)
  | '\\' :: 'u' :: a :: b :: c :: d :: rest =>
    andThen (hexNumber? [a, b, c, d] >>= scalar?) (longBasic false rest)
  | '\\' :: 'U' :: a :: b :: c :: d :: e :: f :: g :: h :: rest =>
    andThen (hexNumber? [a, b, c, d, e, f, g, h] >>= scalar?) (longBasic false rest)
  | '\\' :: c :: rest =>
    if (lineBreak (skipBlank (c :: rest))).isSome then longBasic true (c :: rest)
    else andThen (escape? c) (longBasic false rest)
  | '\r' :: '\n' :: rest =>
    if joining then longBasic true rest else andThen '\n' (longBasic false rest)
  | c :: rest =>
    if joining && (isBlank c || c == '\n') then longBasic true rest
    else if (isPlain c && c != '\\') || c == '\n' then andThen c (longBasic false rest)
    else none

/-- A line break right behind the opening quotes does not count. -/
def skipBreak (cs : List Char) : List Char :=
  (lineBreak cs).getD cs

/-- **The quoted text at the front of a text**, in any of the four forms: `literal` or `basic` on
one line, `longLiteral` or `longBasic` over several. -/
def quoted : List Char → Option (List Char × List Char)
  | '"' :: '"' :: '"' :: rest => longBasic false (skipBreak rest)
  | '\'' :: '\'' :: '\'' :: rest => longLiteral (skipBreak rest)
  | '"' :: rest => basic rest
  | '\'' :: rest => literal rest
  | _ => none

/-! ### Numbers -/

/-- Digits in which single underscores may stand between two digits. -/
def isDigitRun (isDigit : Char → Bool) : List Char → Bool
  | [] => false
  | [c] => isDigit c
  | c :: '_' :: rest => isDigit c && isDigitRun isDigit rest
  | c :: rest => isDigit c && isDigitRun isDigit rest

/-- The digits of a run as numbers. -/
def digitsOf (run : List Char) : List Nat :=
  (run.filter (· != '_')).map fun c => (Json.hexValue? c).getD 0

/-- The number that a run of digits stands for in a base. -/
def valueOf (base : Nat) (run : List Char) : Nat :=
  (digitsOf run).foldl (fun n d => n * base + d) 0

/-- A decimal run; only a single zero may lead. -/
def isDecimal (run : List Char) : Bool :=
  isDigitRun Char.isDigit run && (run.head? != some '0' || run.length == 1)

/-- An integer as a document, if it has 64 bits. -/
def integer? (n : Int) : Option Json :=
  (Integer.signed? n).map fun n => .integer n.toInt

/-- An integer in the base that its second letter names. -/
def based? (letter : Char) (run : List Char) : Option Json :=
  match letter with
  | 'x' => inBase 16
  | 'o' => inBase 8
  | 'b' => inBase 2
  | _ => none
where
  inBase (base : Nat) : Option Json :=
    let isDigit (c : Char) : Bool := (Json.hexValue? c).any (· < base)
    if isDigitRun isDigit run then integer? (valueOf base run) else none

/-- Splits the sign off a word: whether it is a minus, and the rest. -/
def unsigned : List Char → Bool × List Char
  | '-' :: rest => (true, rest)
  | '+' :: rest => (false, rest)
  | word => (false, word)

/-- The exponent of a number with a point or an exponent; nothing where its digits are missing. -/
def exponent? (tail : List Char) : Option (Option Int) :=
  match tail with
  | [] => some none
  | _ :: tail =>
    let (negative, run) := unsigned tail
    if isDigitRun Char.isDigit run then
      some (some (if negative then -(valueOf 10 run : Int) else valueOf 10 run))
    else none

/-- The digits behind a point; nothing where they are missing. -/
def fraction? (tail : List Char) : Option (Option (List Nat)) :=
  match tail with
  | [] => some none
  | _ :: run => if isDigitRun Char.isDigit run then some (some (digitsOf run)) else none

/-- A number without its sign, by `Literal.nearest`.  One that is too large for a float is refused,
but one below all floats counts as minus infinity. -/
def number? (negative : Bool) (word : List Char) : Option Json :=
  let isExponent (c : Char) : Bool := c == 'e' || c == 'E'
  let mantissa := word.takeWhile (!isExponent ·)
  let whole := mantissa.takeWhile (· != '.')
  if !isDecimal whole then none
  else if whole = word then
    integer? (if negative then -(valueOf 10 whole : Int) else valueOf 10 whole)
  else do
    let fraction ← fraction? (mantissa.drop whole.length)
    let exponent ← exponent? (word.drop mantissa.length)
    let x := Literal.nearest ⟨negative, digitsOf whole, fraction, exponent⟩
    if x = Double.infinity then none else return .float x

/-! ### Moments -/

/-- A number of exactly so many digits, within bounds. -/
def isField (width low high : Nat) (cs : List Char) : Bool :=
  cs.length == width && cs.all Char.isDigit && low ≤ valueOf 10 cs && valueOf 10 cs ≤ high

/-- The number of days in a month. -/
def daysIn (year month : Nat) : Nat :=
  if month = 2 then if year % 4 = 0 ∧ (year % 100 ≠ 0 ∨ year % 400 = 0) then 29 else 28
  else if month = 4 ∨ month = 6 ∨ month = 9 ∨ month = 11 then 30
  else 31

/-- Year, month and day, with dashes between them. -/
def isDate (cs : List Char) : Bool :=
  let year := cs.take 4
  let month := (cs.drop 5).take 2
  isField 4 0 9999 year && (cs.drop 4).take 1 == ['-'] && isField 2 1 12 month &&
    (cs.drop 7).take 1 == ['-'] &&
    isField 2 1 (daysIn (valueOf 10 year) (valueOf 10 month)) (cs.drop 8)

/-- Hours and minutes, with a colon between them. -/
def isClock (cs : List Char) : Bool :=
  isField 2 0 23 (cs.take 2) && (cs.drop 2).take 1 == [':'] && isField 2 0 59 (cs.drop 3)

/-- Hours, minutes, seconds and perhaps a fraction of a second. -/
def isTime (cs : List Char) : Bool :=
  let tail := cs.drop 8
  isClock (cs.take 5) && (cs.drop 5).take 1 == [':'] && isField 2 0 60 ((cs.drop 6).take 2) &&
    (tail.isEmpty || (tail.take 1 == ['.'] && 2 ≤ tail.length && (tail.drop 1).all Char.isDigit))

/-- Nothing, the letter `Z`, or the distance from it. -/
def isZone : List Char → Bool
  | [] | ['Z'] | ['z'] => true
  | '+' :: clock => isClock clock
  | '-' :: clock => isClock clock
  | _ => false

def isZonedTime (cs : List Char) : Bool :=
  let isTimeLetter (c : Char) : Bool := c.isDigit || c == ':' || c == '.'
  isTime (cs.takeWhile isTimeLetter) && isZone (cs.dropWhile isTimeLetter)

def isMoment (cs : List Char) : Bool :=
  isDate cs || isTime cs ||
    (isDate (cs.take 10) && ['T', 't', ' '].contains ((cs.drop 10).headD 'x') &&
      isZonedTime (cs.drop 11))

/-! ### Words -/

/-- The document that a word stands for.  Moments have no document of their own and become an object
that says so; numbers that are none and infinite ones are kept as such. -/
def ofWord (word : List Char) : Option Json :=
  match String.ofList word with
  | "true" => some (.bool true)
  | "false" => some (.bool false)
  | text =>
    if isMoment word then some (.object [("moment", .text text)])
    else
      match word with
      | '0' :: letter :: run =>
        if letter.isAlpha && letter != 'e' && letter != 'E' then based? letter run
        else number? false word
      | _ =>
        let (negative, size) := unsigned word
        if size = ['i', 'n', 'f'] || size = ['n', 'a', 'n'] then some .unreadable
        else number? negative size

/-- The character may stand in a word. -/
def isWordLetter (c : Char) : Bool :=
  c.isAlphanum || c == '+' || c == '-' || c == '_' || c == '.' || c == ':'

/-- The word at the front of a text, the characters that are `isWordLetter`.  A blank between a date
and a time belongs to it. -/
def word (cs : List Char) : List Char × List Char :=
  let first := cs.takeWhile isWordLetter
  let rest := cs.dropWhile isWordLetter
  match rest with
  | ' ' :: c :: more =>
    if isDate first && c.isDigit then
      (first ++ ' ' :: (c :: more).takeWhile isWordLetter, (c :: more).dropWhile isWordLetter)
    else (first, rest)
  | _ => (first, rest)

end GraphLog.Toml
