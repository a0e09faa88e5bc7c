/-
**Reading a document from a text.**

The reader never fails: where the text breaks the syntax it leaves `malformed` and takes the rest
of the text to be lost, so that what stood in front of the break can still be judged.

Main definitions:

* `GraphLog.Json.read` — the document at the front of a text, and whether only blanks follow it.

The number of steps is bounded by the length of the text, as every array, object, item and member
takes at least one character.
-/

import GraphLog.Json.Basic

set_option relaxedAutoImplicit false
set_option autoImplicit false

namespace GraphLog.Json

/-- The four blanks between the parts of a document. -/
def isSpace (c : Char) : Bool :=
  c == ' ' || c == '\n' || c == '\t' || c == '\r'

/-- The rest of a text after its leading blanks, those that `isSpace`. -/
def skipSpace (cs : List Char) : List Char :=
  cs.dropWhile isSpace

def hexValue? (c : Char) : Option Nat :=
  if '0' ≤ c ∧ c ≤ '9' then some (c.toNat - 48)
  else if 'a' ≤ c ∧ c ≤ 'f' then some (c.toNat - 87)
  else if 'A' ≤ c ∧ c ≤ 'F' then some (c.toNat - 55)
  else none

def hex4? (a b c d : Char) : Option Nat := do
  return (((← hexValue? a) * 16 + (← hexValue? b)) * 16 + (← hexValue? c)) * 16 + (← hexValue? d)

/-- The character that a one-letter escape stands for. -/
def escape? : Char → Option Char
  | '"' => some '"'
  | '\\' => some '\\'
  | '/' => some '/'
  | 'b' => some '\x08'
  | 'f' => some '\x0c'
  | 'n' => some '\n'
  | 'r' => some '\r'
  | 't' => some '\t'
  | _ => none

/-- A piece of a quoted text. -/
inductive Piece where
  | whole (c : Char)
  -- half a surrogate pair, by its number
  | half (n : Nat)

/-- The piece that four hexadecimal digits stand for. -/
def Piece.ofNumber (n : Nat) : Piece :=
  if 0xD800 ≤ n ∧ n < 0xE000 then half n else whole (Char.ofNat n)

/-- The pieces up to the closing quote, and the rest of the text.  Nothing, where the quote is
missing, a control character stands bare or an escape is unknown. -/
def pieces : List Char → Option (List Piece) × List Char
  | [] => (none, [])
  | '"' :: rest => (some [], rest)
  | '\\' :: 'u' :: a :: b :: c :: d :: rest =>
    let (more, rest) := pieces rest
    (do return Piece.ofNumber (← hex4? a b c d) :: (← more), rest)
  | '\\' :: c :: rest =>
    let (more, rest) := pieces rest
    (do return .whole (← escape? c) :: (← more), rest)
  | c :: rest =>
    let (more, rest) := pieces rest
    (if c.toNat < 0x20 ∨ c = '\\' then none else more.map (.whole c :: ·), rest)

/-- The text that the pieces make, unless a half of a pair is left alone. -/
def join : List Piece → Option (List Char)
  | [] => some []
  | .whole c :: ps => (join ps).map (c :: ·)
  | .half high :: .half low :: ps =>
    if high < 0xDC00 ∧ 0xDC00 ≤ low then
      (join ps).map (Char.ofNat (0x10000 + (high - 0xD800) * 0x400 + (low - 0xDC00)) :: ·)
    else none
  | .half _ :: _ => none

/-- A member whose name consists of these pieces; its value is `Json.misnamed` where they `join` to
no text. -/
def member (ps : List Piece) (j : Json) : String × Json :=
  match join ps with
  | some letters => (String.ofList letters, j)
  | none => ("", misnamed j)

/-- The digits at the front of a text, as numbers. -/
def digits (cs : List Char) : List Nat × List Char :=
  ((cs.takeWhile Char.isDigit).map (·.toNat - 48), cs.dropWhile Char.isDigit)

/-- The fraction behind the digits of a number; a point asks for digits. -/
def fraction : List Char → Option (Option (List Nat) × List Char)
  | '.' :: rest =>
    match digits rest with
    | ([], _) => none
    | (ds, rest) => some (some ds, rest)
  | cs => some (none, cs)

/-- The exponent behind a number; the letter asks for digits. -/
def exponent : List Char → Option (Option Int × List Char)
  | c :: rest =>
    if c = 'e' ∨ c = 'E' then
      let (minus, rest) : Bool × List Char := match rest with
        | '-' :: rest => (true, rest)
        | '+' :: rest => (false, rest)
        | rest => (false, rest)
      match digits rest with
      | ([], _) => none
      | (ds, rest) =>
        let n : Nat := ds.foldl (fun n d => n * 10 + d) 0
        some (some (if minus then -(n : Int) else n), rest)
    else some (none, c :: rest)
  | [] => some (none, [])

/-- The document of a literal.  An integer that fits 64 bits stays a `Json.integer`; minus zero does
not. -/
def ofLiteral (l : Literal) : Json :=
  let n := l.wholeValue
  if l.isWhole ∧ ¬l.negative ∧ n < UInt64.size then integer n
  else if l.isWhole ∧ l.negative ∧ 0 < n ∧ (Integer.signed? (-(n : Int))).isSome then
    integer (-(n : Int))
  else
    match l.value? with
    | some x => float x
    | none => unreadable

/-- A number behind its sign.  Only a single zero may lead. -/
def number (negative : Bool) (cs : List Char) : Json × List Char :=
  let (whole, rest) := digits cs
  match whole with
  | [] => (malformed, [])
  | 0 :: _ :: _ => (malformed, [])
  | whole =>
    match fraction rest with
    | none => (malformed, [])
    | some (fraction, rest) =>
      match exponent rest with
      | none => (malformed, [])
      | some (exponent, rest) => (ofLiteral ⟨negative, whole, fraction, exponent⟩, rest)

mutual

/-- The document at the front of a text, in at most `fuel` nested steps, and the rest. -/
def value : (fuel : Nat) → List Char → Json × List Char
  | 0, _ => (malformed, [])
  | fuel + 1, cs =>
    match skipSpace cs with
    | 'n' :: 'u' :: 'l' :: 'l' :: rest => (null, rest)
    | 't' :: 'r' :: 'u' :: 'e' :: rest => (bool true, rest)
    | 'f' :: 'a' :: 'l' :: 's' :: 'e' :: rest => (bool false, rest)
    | '"' :: rest =>
      match pieces rest with
      | (some ps, rest) => (match join ps with
        | some letters => text (String.ofList letters)
        | none => unreadable, rest)
      | (none, _) => (malformed, [])
    | '-' :: rest => number true rest
    | '[' :: rest =>
      match skipSpace rest with
      | ']' :: rest => (array [], rest)
      | rest =>
        let (js, rest) := items fuel rest
        (array js, rest)
    | '\x7b' :: rest =>
      match skipSpace rest with
      | '\x7d' :: rest => (object [], rest)
      | rest =>
        let (ms, rest) := members fuel rest
        (object ms, rest)
    | rest => number false rest

/-- The items of an array up to its bracket; at least one is due. -/
def items : (fuel : Nat) → List Char → List Json × List Char
  | 0, _ => ([malformed], [])
  | fuel + 1, cs =>
    let (j, rest) := value fuel cs
    match skipSpace rest with
    | ',' :: rest =>
      let (js, rest) := items fuel rest
      (j :: js, rest)
    | ']' :: rest => ([j], rest)
    | _ => ([j, malformed], [])

/-- The members of an object up to its brace; at least one is due. -/
def members : (fuel : Nat) → List Char → List (String × Json) × List Char
  | 0, _ => ([("", malformed)], [])
  | fuel + 1, cs =>
    match skipSpace cs with
    | '"' :: rest =>
      let (name, rest) := pieces rest
      match name, skipSpace rest with
      | some ps, ':' :: rest =>
        let (j, rest) := value fuel rest
        let m := member ps j
        match skipSpace rest with
        | ',' :: rest =>
          let (ms, rest) := members fuel rest
          (m :: ms, rest)
        | '\x7d' :: rest => ([m], rest)
        | _ => ([m, ("", malformed)], [])
      | _, _ => ([("", malformed)], [])
    | _ => ([("", malformed)], [])

end

/-- **The document at the front of a text, and whether only blanks follow it.** -/
def read (s : String) : Json × Bool :=
  let cs := s.toList
  let (j, rest) := value (2 * cs.length + 2) cs
  (j, (skipSpace rest).isEmpty)

end GraphLog.Json
