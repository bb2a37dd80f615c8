import TableAccess.Json.Literal

/-!
# Documents

A document is read as it is written: members in order with repeated keys, number literals not
yet evaluated, and a string only as far as its escapes make up characters. What a document
means is asked afterwards, so that a part nobody asks for may hold numbers out of range and
broken surrogate pairs, and still has to be well formed.
-/
namespace TableAccess.Json

/-- A document as written. A string whose escapes hold a lone surrogate is `none`. -/
inductive Document where
  | null
  | bool (b : Bool)
  | number (l : Literal)
  | string (s : Option String)
  | array (items : List Document)
  | object (members : List (Option String × Document))

/-- A piece of a string: a character, or sixteen bits given by an escape. -/
inductive Piece where
  | char (c : Char)
  | unit (n : Nat)

/-- Puts surrogate pairs together; none if one half stands alone. -/
def joinPieces : List Piece → Option (List Char)
  | [] => some []
  | .char c :: ps => (joinPieces ps).map (c :: ·)
  | .unit n :: ps =>
    if n < 0xD800 ∨ 0xDFFF < n then (joinPieces ps).map (Char.ofNat n :: ·)
    else if 0xDBFF < n then none
    else
      match ps with
      | .unit m :: qs =>
        if 0xDC00 ≤ m ∧ m ≤ 0xDFFF then
          (joinPieces qs).map (Char.ofNat (0x10000 + (n - 0xD800) * 0x400 + (m - 0xDC00)) :: ·)
        else none
      | _ => none

/-- The characters that may stand between the parts of a document. -/
def isGap (c : Char) : Bool := c == ' ' || c == '\n' || c == '\t' || c == '\r'

def skipGap (cs : List Char) : List Char := cs.dropWhile isGap

def hexDigit? (c : Char) : Option Nat :=
  if '0' ≤ c ∧ c ≤ '9' then some (c.toNat - '0'.toNat)
  else if 'a' ≤ c ∧ c ≤ 'f' then some (c.toNat - 'a'.toNat + 10)
  else if 'A' ≤ c ∧ c ≤ 'F' then some (c.toNat - 'A'.toNat + 10)
  else none

def hexUnit? (a b c d : Char) : Option Nat := do
  let a ← hexDigit? a
  let b ← hexDigit? b
  let c ← hexDigit? c
  let d ← hexDigit? d
  return ((a * 16 + b) * 16 + c) * 16 + d

def shortEscape? (c : Char) : Option Char :=
  match c with
  | '"' => some '"'
  | '\\' => some '\\'
  | '/' => some '/'
  | 'b' => some (Char.ofNat 8)
  | 'f' => some (Char.ofNat 12)
  | 'n' => some '\n'
  | 'r' => some '\r'
  | 't' => some '\t'
  | _ => none

/-- The pieces of a string up to its closing quote, and the text after that. -/
def readString? : List Char → Option (List Piece × List Char)
  | '"' :: cs => some ([], cs)
  | '\\' :: 'u' :: a :: b :: c :: d :: cs => do
    let n ← hexUnit? a b c d
    let (ps, rest) ← readString? cs
    return (.unit n :: ps, rest)
  | '\\' :: e :: cs => do
    let c ← shortEscape? e
    let (ps, rest) ← readString? cs
    return (.char c :: ps, rest)
  | c :: cs =>
    if c.toNat < 0x20 then none
    else do
      let (ps, rest) ← readString? cs
      return (.char c :: ps, rest)
  | [] => none

def textOfPieces (ps : List Piece) : Option String := (joinPieces ps).map String.ofList

def readDigits? (cs : List Char) : Option (List Nat × List Char) :=
  match cs.takeWhile Char.isDigit with
  | [] => none
  | ds => some (ds.map (fun c => c.toNat - '0'.toNat), cs.dropWhile Char.isDigit)

def readFraction? : List Char → Option (Option (List Nat) × List Char)
  | '.' :: cs => (readDigits? cs).map fun (ds, rest) => (some ds, rest)
  | cs => some (none, cs)

def readExponent? : List Char → Option (Option (Bool × List Nat) × List Char)
  | c :: cs =>
    if c == 'e' || c == 'E' then
      match cs with
      | '-' :: ds => (readDigits? ds).map fun (ds, rest) => (some (true, ds), rest)
      | '+' :: ds => (readDigits? ds).map fun (ds, rest) => (some (false, ds), rest)
      | ds => (readDigits? ds).map fun (ds, rest) => (some (false, ds), rest)
    else some (none, c :: cs)
  | [] => some (none, [])

/-- A number literal after its sign: no zero leads other digits. -/
def readLiteral? (negative : Bool) (cs : List Char) : Option (Literal × List Char) := do
  let (whole, rest) ← readDigits? cs
  if whole.head? = some 0 ∧ whole.length ≠ 1 then none
  else
    let (fraction, rest) ← readFraction? rest
    let (exponent, rest) ← readExponent? rest
    return (⟨negative, whole, fraction, exponent⟩, rest)

mutual

/-- A document at the front of a text that has no leading gap. -/
def readValue? : Nat → List Char → Option (Document × List Char)
  | 0, _ => none
  | fuel + 1, cs =>
    match cs with
    | 'n' :: 'u' :: 'l' :: 'l' :: rest => some (.null, rest)
    | 't' :: 'r' :: 'u' :: 'e' :: rest => some (.bool true, rest)
    | 'f' :: 'a' :: 'l' :: 's' :: 'e' :: rest => some (.bool false, rest)
    | '"' :: rest => do
      let (ps, rest) ← readString? rest
      return (.string (textOfPieces ps), rest)
    | '[' :: rest =>
      match skipGap rest with
      | ']' :: rest => some (.array [], rest)
      | rest => do
        let (items, rest) ← readItems? fuel rest
        return (.array items, rest)
    | c :: rest =>
      if c == Char.ofNat 0x7B then
        match skipGap rest with
        | d :: more =>
          if d == Char.ofNat 0x7D then some (.object [], more)
          else do
            let (members, rest) ← readMembers? fuel (d :: more)
            return (.object members, rest)
        | [] => none
      else if c == '-' then do
        let (l, rest) ← readLiteral? true rest
        return (.number l, rest)
      else do
        let (l, rest) ← readLiteral? false (c :: rest)
        return (.number l, rest)
    | [] => none

def readItems? : Nat → List Char → Option (List Document × List Char)
  | 0, _ => none
  | fuel + 1, cs => do
    let (item, rest) ← readValue? fuel cs
    match skipGap rest with
    | ',' :: rest =>
      let (items, rest) ← readItems? fuel (skipGap rest)
      return (item :: items, rest)
    | ']' :: rest => some ([item], rest)
    | _ => none

def readMembers? : Nat → List Char → Option (List (Option String × Document) × List Char)
  | 0, _ => none
  | fuel + 1, cs =>
    match cs with
    | '"' :: rest => do
      let (ps, rest) ← readString? rest
      match skipGap rest with
      | ':' :: rest =>
        let (value, rest) ← readValue? fuel (skipGap rest)
        match skipGap rest with
        | ',' :: rest =>
          let (members, rest) ← readMembers? fuel (skipGap rest)
          return ((textOfPieces ps, value) :: members, rest)
        | c :: rest =>
          if c == Char.ofNat 0x7D then some ([(textOfPieces ps, value)], rest) else none
        | [] => none
      | _ => none
    | _ => none

end

def Document.read? (s : String) : Option Document := do
  let cs := s.toList
  let (d, rest) ← readValue? (2 * cs.length + 2) (skipGap cs)
  match skipGap rest with
  | [] => some d
  | _ => none

end TableAccess.Json
