/-
This file decodes the escapes of quoted strings.
-/

import PhpAudit.Syntax.Number

namespace PhpAudit.Quoted

/-- Between single quotes only the quote and the backslash are escaped. -/
def single : List Char → List Char
  | '\\' :: '\\' :: rest => '\\' :: single rest
  | '\\' :: '\'' :: rest => '\'' :: single rest
  | char :: rest => char :: single rest
  | [] => []

/-- The escapes of one letter between double quotes. -/
def letter? : Char → Option Char
  | '\\' => some '\\'
  | '"' => some '"'
  | '$' => some '$'
  | 'n' => some '\n'
  | 't' => some '\t'
  | 'r' => some '\r'
  | 'v' => some (Char.ofNat 0x0B)
  | 'e' => some (Char.ofNat 0x1B)
  | 'f' => some (Char.ofNat 0x0C)
  | '0' => some (Char.ofNat 0)
  | _ => none

def isHex (char : Char) : Bool :=
  (Number.digit? 16 char).isSome

def isOctal (char : Char) : Bool :=
  (Number.digit? 8 char).isSome

/-- The byte of a code given by digits, of which only the low eight bits count. -/
def byte (radix : Nat) (digits : List Char) : UInt8 :=
  UInt8.ofNat ((Number.natural? radix digits).getD 0)

/-- The bytes of a row of characters. -/
def bytesOf (chars : List Char) : List UInt8 :=
  chars.flatMap String.utf8EncodeChar

/--
The bytes between double quotes. A code in hexadecimal or octal digits stands for one byte; without
a digit its mark is kept. A backslash before a character without a meaning is dropped.
-/
def double : Nat → List Char → List UInt8
  | 0, _ => []
  | _ + 1, [] => []
  | _ + 1, ['\\'] => bytesOf ['\\']
  | fuel + 1, '\\' :: char :: rest =>
    match letter? char with
    | some decoded => bytesOf [decoded] ++ double fuel rest
    | none =>
      if char == 'x' then
        let digits := (rest.take 2).takeWhile isHex
        if digits.isEmpty then bytesOf ['\\', 'x'] ++ double fuel rest
        else byte 16 digits :: double fuel (rest.drop digits.length)
      else if char.isDigit then
        let digits := ((char :: rest).take 3).takeWhile isOctal
        if digits.isEmpty then bytesOf ['\\', '0'] ++ double fuel (char :: rest)
        else byte 8 digits :: double fuel ((char :: rest).drop digits.length)
      else
        bytesOf [char] ++ double fuel rest
  | fuel + 1, char :: rest => bytesOf [char] ++ double fuel rest

/--
The value of a quoted string with its quotes, possibly marked as binary; there is none if the bytes
are no text.
-/
def value? (text : String) : Option String :=
  let chars := match text.toList with
    | 'b' :: rest | 'B' :: rest => rest
    | chars => chars
  let inner := (chars.drop 1).dropLast
  if chars.head? == some '\'' then some (String.ofList (single inner))
  else String.fromUTF8? ⟨(double (inner.length + 1) inner).toArray⟩

end PhpAudit.Quoted
