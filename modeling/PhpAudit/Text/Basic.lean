/-
This file holds the text vocabulary of the analyzer: case folding, affixes, trimming, splitting.
Every function is stated on the list of characters of a string, so that facts about names are
facts about lists.
-/

namespace PhpAudit.Text

/-! ### Case -/

/-- Folds the ASCII letters of `text` to lower case; other characters stay as they are. -/
def lower (text : String) : String :=
  String.ofList (text.toList.map Char.toLower)

/-- Folds the ASCII letters of `text` to upper case; other characters stay as they are. -/
def upper (text : String) : String :=
  String.ofList (text.toList.map Char.toUpper)

/-- Equality of names up to the case of ASCII letters. -/
def sameFolded (first second : String) : Bool :=
  lower first == lower second

/-! ### Affixes -/

def startsWith (text start : String) : Bool :=
  start.toList.isPrefixOf text.toList

def endsWith (text ending : String) : Bool :=
  ending.toList.isSuffixOf text.toList

/-- What follows `start` in `text`, if `text` begins with it. -/
def afterStart? (text start : String) : Option String :=
  if startsWith text start then
    some (String.ofList (text.toList.drop start.toList.length))
  else
    none

/-- What precedes `ending` in `text`, if `text` ends with it. -/
def beforeEnd? (text ending : String) : Option String :=
  if endsWith text ending then
    some (String.ofList (text.toList.take (text.toList.length - ending.toList.length)))
  else
    none

/-! ### Trimming -/

/-- The characters with the Unicode property White_Space. -/
def isBlank (char : Char) : Bool :=
  let code := char.toNat
  (0x09 ≤ code && code ≤ 0x0D) || code == 0x20 || code == 0x85 || code == 0xA0 ||
    code == 0x1680 || (0x2000 ≤ code && code ≤ 0x200A) || code == 0x2028 || code == 0x2029 ||
    code == 0x202F || code == 0x205F || code == 0x3000

/-- Drops the leading characters accepted by `drop`. -/
def trimStartWhile (drop : Char → Bool) (text : String) : String :=
  String.ofList (text.toList.dropWhile drop)

/-- Drops the trailing characters accepted by `drop`. -/
def trimEndWhile (drop : Char → Bool) (text : String) : String :=
  String.ofList (text.toList.reverse.dropWhile drop).reverse

def trimStart (text : String) : String :=
  trimStartWhile isBlank text

def trimEnd (text : String) : String :=
  trimEndWhile isBlank text

def trim (text : String) : String :=
  trimEnd (trimStart text)

/-- Drops the leading backslashes of a qualified name. -/
def withoutRoot (name : String) : String :=
  trimStartWhile (· == '\\') name

/-- Drops the leading dollar signs of a variable name. -/
def withoutDollar (name : String) : String :=
  trimStartWhile (· == '$') name

/-! ### Searching and splitting -/

/-- The part before the first occurrence of `needle`, and the part after it. -/
def splitOnce (needle : List Char) : List Char → Option (List Char × List Char)
  | [] => if needle.isEmpty then some ([], []) else none
  | char :: rest =>
    if needle.isPrefixOf (char :: rest) then
      some ([], (char :: rest).drop needle.length)
    else
      (splitOnce needle rest).map fun (before, after) => (char :: before, after)

def splitOnce? (text needle : String) : Option (String × String) :=
  (splitOnce needle.toList text.toList).map fun (before, after) =>
    (String.ofList before, String.ofList after)

def contains (text needle : String) : Bool :=
  (splitOnce needle.toList text.toList).isSome

/-- The parts of a list between the elements accepted by `cut`; there is always at least one. -/
def splitChars (cut : Char → Bool) : List Char → List (List Char)
  | [] => [[]]
  | char :: rest =>
    if cut char then
      [] :: splitChars cut rest
    else
      match splitChars cut rest with
      | [] => [[char]]
      | part :: parts => (char :: part) :: parts

/-- The parts of `text` between the characters accepted by `cut`; there is always at least one. -/
def splitBy (cut : Char → Bool) (text : String) : List String :=
  (splitChars cut text.toList).map String.ofList

/-- `text` without the characters accepted by `drop`. -/
def without (drop : Char → Bool) (text : String) : String :=
  String.ofList (text.toList.filter fun char => !drop char)

/-- `count` copies of `char`. -/
def copies (count : Nat) (char : Char) : String :=
  String.ofList (List.replicate count char)

/-- The parts joined by `separator`. -/
def join (separator : String) : List String → String
  | [] => ""
  | [part] => part
  | part :: rest => part ++ separator ++ join separator rest

end PhpAudit.Text
