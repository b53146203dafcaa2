/-
This file says how characters take part in the boundaries between user-perceived characters, words
and sentences, after the Unicode rules for text segmentation, version 16.
-/

import PhpAudit.Unicode.Property

namespace PhpAudit.Unicode

/-- The set with a loose name among rules. -/
def ruled? (rules : List Rule) (name : String) : Option CodeSet :=
  (rules.find? fun rule => isListed name rule.names).map fun rule => rule.set property?

/-! ### Grapheme clusters -/

def graphemeRules : List Rule :=
  [{ names := "CN Control",
     parts := [
       .category "Cc", .category "Cf", .category "Zl", .category "Zp",
       .listed ["2065 FFF0-FFF8 E0000 E0002-E001F E0080-E00FF E01F0-E0FFF"]],
     except := [.property "PCM", .property "Gr_Ext", .listed ["A D 200C-200D"]] },
   { names := "CR", parts := [.listed ["D"]] },
   { names := "EX Extend", parts := [.property "Gr_Ext", .property "EMod"] },
   { names := "L", parts := [.listed ["1100-115F A960-A97C"]] },
   { names := "LF", parts := [.listed ["A"]] },
   { names := "LV", parts := [.listed ["AC00-D788/1C"]] },
   { names := "LVT", parts := [.listed ["AC00-D7A3"]], except := [.listed ["AC00-D788/1C"]] },
   { names := "PP Prepend",
     parts := [
       .listed ["600-605 6DD 70F 890-891 8E2 D4E 110BD 110CD 111C2-111C3 113D1 1193F 11941",
         "11A3A 11A84-11A89 11D46 11F02"]] },
   { names := "RI Regional_Indicator", parts := [.property "RI"] },
   { names := "SM SpacingMark",
     parts := [.category "Mc", .listed ["E33 EB3"]],
     except := [
       .property "Gr_Ext", .property "EMod",
       .listed ["102B-102C 1038 1062-1064 1067-106D 1083 1087-108C 108F 109A-109C 1A61",
         "1A63-1A64 AA7B AA7D 11720-11721"]] },
   { names := "T", parts := [.listed ["11A8-11FF D7CB-D7FB"]] },
   { names := "V", parts := [.listed ["1160-11A7 D7B0-D7C6 16D63 16D67-16D6A"]] },
   { names := "ZWJ", parts := [.listed ["200D"]] }]

/-- The value of Grapheme_Cluster_Break with a loose name. -/
def graphemeBreak? (name : String) : Option CodeSet :=
  ruled? graphemeRules name

/-! ### Words -/

def hebrewLetters : List String :=
  ["5D0-5EA 5EF-5F2 FB1D FB1F-FB28 FB2A-FB36 FB38-FB3C FB3E FB40-FB41 FB43-FB44 FB46-FB4F"]

def katakanaLetters : List String :=
  ["3031-3035 309B-309C 30A0-30FA 30FC-30FF 31F0-31FF 32D0-32FE 3300-3357 FF66-FF9D 1AFF0-1AFF3",
   "1AFF5-1AFFB 1AFFD-1AFFE 1B000 1B120-1B122 1B155 1B164-1B167"]

/-- Letters of scripts that put no blanks between words. -/
def unspacedLetters : List String :=
  ["E01-E30 E32-E33 E40-E46 E81-E82 E84 E86-E8A E8C-EA3 EA5 EA7-EB0 EB2-EB3 EBD EC0-EC4 EC6",
   "EDC-EDF 1000-102A 103F 1050-1055 105A-105D 1061 1065-1066 106E-1070 1075-1081 108E",
   "1780-17B3 17D7 17DC 1950-196D 1970-1974 1980-19AB 19B0-19C9 1A20-1A54 1AA7 3041-3096",
   "309D-309F A9E0-A9E4 A9E6-A9EF A9FA-A9FE AA60-AA76 AA7A AA7E-AAAF AAB1 AAB5-AAB6 AAB9-AABD",
   "AAC0 AAC2 AADB-AADD 11700-1171A 11740-11746 1B001-1B11F 1B132 1B150-1B152"]

/-- Symbols and marks that words hold like letters. -/
def letterSymbols : List String :=
  ["2C2-2C5 2D2-2D7 2DE-2DF 2E5-2EB 2ED 2EF-2FF 55A-55C 55E 58A 5F3 70F A708-A716 A720-A721",
   "A789-A78A AB5B"]

/-- Signs that stand before a number and belong to it. -/
def numberSigns : List String :=
  ["600-605 6DD 890-891 8E2 110BD 110CD"]

def wordRules : List Rule :=
  [{ names := "CR", parts := [.listed ["D"]] },
   { names := "DQ Double_Quote", parts := [.listed ["22"]] },
   { names := "EX ExtendNumLet", parts := [.category "Pc", .listed ["202F"]] },
   { names := "Extend", parts := [.property "Gr_Ext", .category "Mc", .property "EMod"] },
   { names := "FO Format",
     parts := [.category "Cf"],
     except := [.property "Gr_Ext", .listed ["70F 200B-200D"], .listed numberSigns] },
   { names := "HL Hebrew_Letter", parts := [.listed hebrewLetters] },
   { names := "KA Katakana", parts := [.listed katakanaLetters] },
   { names := "LE ALetter",
     parts := [.property "Alpha", .listed letterSymbols],
     except := [
       .property "Gr_Ext", .category "Mc", .property "EMod", .property "Ideo",
       .listed hebrewLetters, .listed katakanaLetters, .listed unspacedLetters] },
   { names := "LF", parts := [.listed ["A"]] },
   { names := "MB MidNumLet", parts := [.listed ["2E 2018-2019 2024 FE52 FF07 FF0E"]] },
   { names := "ML MidLetter", parts := [.listed ["3A B7 387 55F 5F4 2027 FE13 FE55 FF1A"]] },
   { names := "MN MidNum",
     parts := [.listed ["2C 3B 37E 589 60C-60D 66C 7F8 2044 FE10 FE14 FE50 FE54 FF0C FF1B"]] },
   { names := "NL Newline", parts := [.listed ["B-C 85 2028-2029"]] },
   { names := "NU Numeric", parts := [.category "Nd", .listed ["66B"], .listed numberSigns] },
   { names := "RI Regional_Indicator", parts := [.property "RI"] },
   { names := "SQ Single_Quote", parts := [.listed ["27"]] },
   { names := "WSegSpace", parts := [.category "Zs"], except := [.listed ["A0 2007 202F"]] },
   { names := "ZWJ", parts := [.listed ["200D"]] }]

/-- The value of Word_Break with a loose name. -/
def wordBreak? (name : String) : Option CodeSet :=
  ruled? wordRules name

/-! ### Sentences -/

/-- Small letters of an alphabet whose capitals no sentence starts with. -/
def caselessSmall : List String :=
  ["10D0-10FA 10FD-10FF"]

def caselessCapitals : List String :=
  ["1C90-1CBA 1CBD-1CBF"]

def sentenceRules : List Rule :=
  [{ names := "AT ATerm", parts := [.listed ["2E 2024 FE52 FF0E"]] },
   { names := "CL Close",
     parts := [
       .listed ["22 27-29 5B 5D 7B 7D AB BB F3A-F3D 169B-169C 2018-201F 2039-203A 2045-2046",
         "207D-207E 208D-208E 2308-230B 2329-232A 275B-2760 2768-2775 27C5-27C6 27E6-27EF",
         "2983-2998 29D8-29DB 29FC-29FD 2E00-2E0D 2E1C-2E1D 2E20-2E29 2E42 2E55-2E5C 3008-3011",
         "3014-301B 301D-301F FD3E-FD3F FE17-FE18 FE35-FE44 FE47-FE48 FE59-FE5E FF08-FF09 FF3B",
         "FF3D FF5B FF5D FF5F-FF60 FF62-FF63 1F676-1F678"]] },
   { names := "CR", parts := [.listed ["D"]] },
   { names := "EX Extend", parts := [.property "Gr_Ext", .category "Mc", .listed ["200D"]] },
   { names := "FO Format",
     parts := [.category "Cf"],
     except := [.property "Gr_Ext", .listed ["70F 200C-200D"], .listed numberSigns] },
   { names := "LE OLetter",
     parts := [.property "Alpha", .listed ["5F3 70F"]],
     except := [
       .property "Lower", .property "Upper", .category "Lt", .property "Gr_Ext", .category "Mc"],
     always := [.listed caselessSmall, .listed caselessCapitals] },
   { names := "LF", parts := [.listed ["A"]] },
   { names := "LO Lower",
     parts := [.property "Lower"],
     except := [.property "Gr_Ext", .listed caselessSmall] },
   { names := "NU Numeric", parts := [.category "Nd", .listed ["66B-66C"], .listed numberSigns] },
   { names := "SC SContinue",
     parts := [
       .listed ["2C-2D 3A-3B 37E 55D 60C-60D 7F8 1802 1808 2013-2014 3001 FE10-FE11 FE13-FE14",
         "FE31-FE32 FE50-FE51 FE54-FE55 FE58 FE63 FF0C-FF0D FF1A-FF1B FF64"]] },
   { names := "SE Sep", parts := [.listed ["85 2028-2029"]] },
   { names := "SP Sp", parts := [.property "WSpace"], except := [.listed ["A D 85 2028-2029"]] },
   { names := "ST STerm",
     parts := [.property "STerm"],
     except := [.listed ["2E 2024 FE52 FF0E"]] },
   { names := "UP Upper",
     parts := [.property "Upper", .category "Lt"],
     except := [.listed caselessCapitals] }]

/-- The value of Sentence_Break with a loose name. -/
def sentenceBreak? (name : String) : Option CodeSet :=
  ruled? sentenceRules name

end PhpAudit.Unicode
