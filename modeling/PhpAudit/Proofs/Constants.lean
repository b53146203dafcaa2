/-
This file proves that the values of integer constants are exact. An initializer that is built from an
integer literal by minus signs and parentheses has the value that the literal has in its radix, with
the sign of the minus signs around it, and no sign changes the smallest integer of 64 bits, which has
no opposite.

Where parentheses stand directly around the literal, there is no value. The text of the literal is read
from the range of the whole operand, and a text that begins with a parenthesis is no number.
-/

import Mathlib.Data.Nat.Digits.Lemmas
import Mathlib.Tactic.IntervalCases
import PhpAudit.Constant

namespace PhpAudit

namespace Number

/-! ### Rows of digits -/

/-- The characters are digits of the radix, in either case, with separators anywhere among them; the
values of the digits are listed from left to right. -/
inductive Spells (radix : Nat) : List Char → List Nat → Prop
  | nil : Spells radix [] []
  | digit {char : Char} {value : Nat} {chars : List Char} {digits : List Nat} :
    value < radix → char.toLower = Nat.digitChar value → Spells radix chars digits →
      Spells radix (char :: chars) (value :: digits)
  | separator {chars : List Char} {digits : List Nat} :
    Spells radix chars digits → Spells radix ('_' :: chars) digits

/-- The number with the given digits in a positional system, the most significant one first. -/
def positional (radix : Nat) (digits : List Nat) : Nat :=
  Nat.ofDigits radix digits.reverse

/-- The letters that announce a radix after a zero. -/
def marks : List (Char × Nat) :=
  [('x', 16), ('b', 2), ('o', 8)]

/-- An integer literal and its mathematical value. -/
inductive Literal : String → Nat → Prop
  | decimal {first : Nat} {chars : List Char} {digits : List Nat} :
    0 < first → first < 10 → Spells 10 chars digits →
      Literal (String.ofList (Nat.digitChar first :: chars)) (positional 10 (first :: digits))
  /-- Zero, and octal literals without a letter -/
  | octal {chars : List Char} {digits : List Nat} :
    Spells 8 chars digits → Literal (String.ofList ('0' :: chars)) (positional 8 digits)
  | marked {mark letter : Char} {radix : Nat} {chars : List Char} {digits : List Nat} :
    (letter, radix) ∈ marks → mark.toLower = letter → Spells radix chars digits → digits ≠ [] →
      Literal (String.ofList ('0' :: mark :: chars)) (positional radix digits)

/-! ### Reading rows of digits -/

section

variable {radix : Nat} {chars : List Char} {digits : List Nat}

theorem digit?_digitChar {value : Nat} (below : value < radix) (small : radix ≤ 16) :
    digit? radix (Nat.digitChar value) = some value := by
  have bound : value < 16 := below.trans_le small
  interval_cases value <;> simp [digit?, Nat.digitChar, Option.filter, below]

theorem Spells.lt (spells : Spells radix chars digits) : ∀ value ∈ digits, value < radix := by
  induction spells with
  | nil => simp
  | digit below _ _ inductionHypothesis => simpa using ⟨below, inductionHypothesis⟩
  | separator _ inductionHypothesis => exact inductionHypothesis

/-- Without separators and in lower case, a row of digits is the row of their characters. -/
theorem Spells.folded (small : radix ≤ 16) (spells : Spells radix chars digits) :
    (chars.filter fun char => !char == '_').map Char.toLower = digits.map Nat.digitChar := by
  induction spells with
  | nil => rfl
  | @digit char value _ _ below same _ inductionHypothesis =>
    have other : char ≠ '_' := by
      rintro rfl
      have bound := below.trans_le small
      revert same
      interval_cases value <;> decide
    rw [List.filter_cons_of_pos (by simp [other]), List.map_cons, List.map_cons, same,
      inductionHypothesis]
  | separator _ inductionHypothesis =>
    rw [List.filter_cons_of_neg (by decide), inductionHypothesis]

theorem digits?_eq (small : radix ≤ 16) (below : ∀ value ∈ digits, value < radix) (high : Nat) :
    digits? radix high (digits.map Nat.digitChar) =
      some (digits.foldl (fun high low => high * radix + low) high) := by
  induction digits generalizing high with
  | nil => rfl
  | cons value rest inductionHypothesis =>
    rw [List.map_cons, digits?, digit?_digitChar (below value List.mem_cons_self) small,
      Option.bind_some, inductionHypothesis fun other listed => below other (.tail _ listed)]
    rfl

theorem foldl_eq_positional (radix : Nat) (digits : List Nat) :
    digits.foldl (fun high low => high * radix + low) 0 = positional radix digits := by
  rw [positional, Nat.ofDigits_eq_foldr, List.foldr_reverse]
  simp only [Nat.cast_id, Nat.add_comm, Nat.mul_comm]

theorem natural?_eq (small : radix ≤ 16) (below : ∀ value ∈ digits, value < radix)
    (filled : digits ≠ []) :
    natural? radix (digits.map Nat.digitChar) = some (positional radix digits) := by
  obtain ⟨first, rest, rfl⟩ := List.exists_cons_of_ne_nil filled
  rw [← foldl_eq_positional, ← digits?_eq small below]
  rfl

/-- A row of digits whose value is below 2^63 is read as that value. -/
theorem integer?_eq (small : radix ≤ 16) (below : ∀ value ∈ digits, value < radix)
    (filled : digits ≠ []) (fits : positional radix digits < 2 ^ 63) :
    integer? radix (digits.map Nat.digitChar) =
      some (Int64.ofInt (positional radix digits)) := by
  have read := natural?_eq small below filled
  obtain ⟨first, rest, rfl⟩ := List.exists_cons_of_ne_nil filled
  have bound : first < 16 := (below first List.mem_cons_self).trans_le small
  have unsigned : Nat.digitChar first ≠ '-' ∧ Nat.digitChar first ≠ '+' := by
    interval_cases first <;> decide
  rw [List.map_cons] at read ⊢
  rw [integer?, read]
  · have lower : Int64.minValue.toInt ≤ (positional radix (first :: rest) : Int) :=
      (by decide : Int64.minValue.toInt ≤ 0).trans (Int.natCast_nonneg _)
    have upper : (positional radix (first :: rest) : Int) ≤ Int64.maxValue.toInt :=
      (by omega : _ ≤ (2 ^ 63 - 1 : Int)).trans_eq (by decide)
    rw [Option.bind_some, fit?, if_pos ⟨lower, upper⟩]
  · exact fun _ same => unsigned.1 (List.cons.inj same).1
  · exact fun _ same => unsigned.2 (List.cons.inj same).1

end

end Number

/-! ### Tidying the text of a literal -/

namespace Text

theorem toLower_of_isBlank {char : Char} (blank : isBlank char = true) : char.toLower = char := by
  unfold Char.toLower
  rw [dif_neg]
  rintro ⟨atLeast, atMost⟩
  rw [ge_iff_le, UInt32.le_iff_toNat_le] at atLeast
  rw [UInt32.le_iff_toNat_le] at atMost
  have range : 65 ≤ char.toNat ∧ char.toNat ≤ 90 := ⟨atLeast, atMost⟩
  simp only [isBlank, Bool.or_eq_true, Bool.and_eq_true, decide_eq_true_eq, beq_iff_eq] at blank
  omega

theorem dropWhile_eq_self {drop : Char → Bool} {chars : List Char}
    (kept : ∀ char ∈ chars.head?, drop char = false) : chars.dropWhile drop = chars := by
  cases chars with
  | nil => rfl
  | cons first rest => rw [List.dropWhile_cons_of_neg (by simp [kept first rfl])]

/-- A text without blanks at its ends is trimmed. -/
theorem trim_eq_self {text : String} (starts : ∀ char ∈ text.toList.head?, isBlank char = false)
    (ends : ∀ char ∈ text.toList.getLast?, isBlank char = false) : trim text = text := by
  have start : trimStart text = text := by
    rw [trimStart, trimStartWhile, dropWhile_eq_self starts, String.ofList_toList]
  rw [trim, start, trimEnd, trimEndWhile, dropWhile_eq_self, List.reverse_reverse,
    String.ofList_toList]
  rwa [List.head?_reverse]

/-- Trimmed, without separators and in lower case. -/
theorem toList_tidied {chars : List Char} (plain : ∀ char ∈ chars, isBlank char = false) :
    (lower (without (· == '_') (trim (String.ofList chars)))).toList =
      (chars.filter fun char => !char == '_').map Char.toLower := by
  have trimmed : trim (String.ofList chars) = String.ofList chars := by
    refine trim_eq_self ?_ ?_ <;> rw [String.toList_ofList] <;> intro char listed
    · exact plain char (List.mem_of_mem_head? listed)
    · exact plain char (List.mem_of_mem_getLast? listed)
  rw [trimmed, lower, without, String.toList_ofList, String.toList_ofList, String.toList_ofList]

end Text

namespace Number

theorem Spells.isBlank_eq_false {radix : Nat} {chars : List Char} {digits : List Nat}
    (small : radix ≤ 16) (spells : Spells radix chars digits) :
    ∀ char ∈ chars, Text.isBlank char = false := by
  induction spells with
  | nil => simp
  | @digit char value _ _ below same _ inductionHypothesis =>
    refine List.forall_mem_cons.mpr ⟨?_, inductionHypothesis⟩
    refine Bool.eq_false_of_not_eq_true fun blank => ?_
    rw [Text.toLower_of_isBlank blank] at same
    have bound := below.trans_le small
    revert blank
    rw [same]
    interval_cases value <;> decide
  | separator _ inductionHypothesis =>
    exact List.forall_mem_cons.mpr ⟨by decide, inductionHypothesis⟩

end Number

/-! ### The value of a literal -/

namespace ConstValue

open Number

theorem afterStart?_eq {text start : String} {chars : List Char} (same : text.toList = chars) :
    Text.afterStart? text start =
      if start.toList.isPrefixOf chars then
        some (String.ofList (chars.drop start.toList.length))
      else
        none := by
  rw [Text.afterStart?, Text.startsWith, same]

section

variable {text : String} {chars : List Char}

/-- A letter after a leading zero tells the radix of what follows. -/
theorem ofNumber?_marked {letter : Char} {radix : Nat} (listed : (letter, radix) ∈ marks)
    (same : (Text.lower text).toList = '0' :: letter :: chars) :
    ofNumber? text = (integer? radix chars).map .integer := by
  simp only [marks, List.mem_cons, Prod.mk.injEq, List.not_mem_nil, or_false] at listed
  unfold ofNumber?
  simp only [afterStart?_eq same]
  rcases listed with ⟨rfl, rfl⟩ | ⟨rfl, rfl⟩ | ⟨rfl, rfl⟩
  all_goals
    show (integer? _ (String.ofList chars).toList).map _ = _
    rw [String.toList_ofList]

/-- A text that announces no radix is an octal integer if it is a zero before other digits, and else a
decimal integer or a float. -/
theorem ofNumber?_unmarked (same : (Text.lower text).toList = chars)
    (unmarked : ∀ entry ∈ marks, ['0', entry.1].isPrefixOf chars = false) :
    ofNumber? text =
      if 1 < chars.length && chars.head? == some '0' && chars.all Char.isDigit then
        (integer? 8 (chars.drop 1)).map .integer
      else
        (integer? 10 chars).map .integer <|> (float? (Text.lower text)).map .float := by
  have absent (letter : Char) (radix : Nat) (listed : (letter, radix) ∈ marks) (start : String)
      (spelled : start.toList = ['0', letter]) :
      Text.afterStart? (Text.lower text) start = none := by
    rw [afterStart?_eq same, spelled, unmarked _ listed, if_neg Bool.false_ne_true]
  simp only [ofNumber?, absent 'x' 16 (by decide) "0x" rfl, absent 'b' 2 (by decide) "0b" rfl,
    absent 'o' 8 (by decide) "0o" rfl]
  show (if 1 < (Text.lower text).toList.length && (Text.lower text).toList.head? == some '0' &&
    (Text.lower text).toList.all Char.isDigit then
      (integer? 8 (String.ofList ((Text.lower text).toList.drop 1)).toList).map ConstValue.integer
    else (integer? 10 (Text.lower text).toList).map ConstValue.integer <|> _) = _
  rw [same, String.toList_ofList]

end

theorem isDigit_digitChar {value : Nat} (below : value < 8) :
    (Nat.digitChar value).isDigit = true := by
  interval_cases value <;> decide

theorem head_ne_mark {value : Nat} (below : value < 8) :
    ∀ entry ∈ marks, Nat.digitChar value ≠ entry.1 := by
  interval_cases value <;> decide

/-- Digits after a zero are octal, and a zero alone is decimal. -/
theorem ofNumber?_zero {text : String} {digits : List Nat} (below : ∀ value ∈ digits, value < 8)
    (fits : positional 8 digits < 2 ^ 63)
    (same : (Text.lower text).toList = '0' :: digits.map Nat.digitChar) :
    ofNumber? text = some (.integer (Int64.ofInt (positional 8 digits))) := by
  cases digits with
  | nil =>
    rw [ofNumber?_unmarked same (by decide), if_neg (by decide)]
    have zero : integer? 10 ['0'] = some (Int64.ofInt (positional 8 [])) := by decide
    rw [List.map_nil, zero, Option.map_some]
    rfl
  | cons value rest =>
    have unmarked (entry : Char × Nat) (listed : entry ∈ marks) :
        ['0', entry.1].isPrefixOf ('0' :: (value :: rest).map Nat.digitChar) = false := by
      simp [List.isPrefixOf, (head_ne_mark (below value List.mem_cons_self) entry listed).symm]
    have all (char : Char) (listed : char ∈ (value :: rest).map Nat.digitChar) :
        char.isDigit = true := by
      obtain ⟨digit, member, rfl⟩ := List.mem_map.mp listed
      exact isDigit_digitChar (below digit member)
    rw [ofNumber?_unmarked same unmarked, if_pos, List.drop_one, List.tail_cons,
      integer?_eq (by decide) below (List.cons_ne_nil _ _) fits, Option.map_some]
    rw [List.all_cons, List.all_eq_true.mpr all]
    simp

/-- Digits that do not begin with a zero are decimal. -/
theorem ofNumber?_decimal {text : String} {first : Nat} {digits : List Nat} (positive : 0 < first)
    (below : ∀ value ∈ first :: digits, value < 10) (fits : positional 10 (first :: digits) < 2 ^ 63)
    (same : (Text.lower text).toList = (first :: digits).map Nat.digitChar) :
    ofNumber? text = some (.integer (Int64.ofInt (positional 10 (first :: digits)))) := by
  have other : Nat.digitChar first ≠ '0' := by
    have bound := below first List.mem_cons_self
    interval_cases first <;> decide
  have unmarked (entry : Char × Nat) (_ : entry ∈ marks) :
      ['0', entry.1].isPrefixOf ((first :: digits).map Nat.digitChar) = false := by
    simp [List.isPrefixOf, other.symm]
  rw [ofNumber?_unmarked same unmarked, if_neg (by simp [other]),
    integer?_eq (by decide) below (List.cons_ne_nil _ _) fits, Option.map_some]
  rfl

/-- The text of an integer literal, trimmed and without separators, has the value of the literal. -/
theorem ofNumber?_literal {text : String} {value : Nat} (literal : Literal text value)
    (fits : value < 2 ^ 63) :
    ofNumber? (Text.without (· == '_') (Text.trim text)) =
      some (.integer (Int64.ofInt value)) := by
  cases literal with
  | @decimal first chars digits positive small spells =>
    have whole : Spells 10 (Nat.digitChar first :: chars) (first :: digits) :=
      .digit small (by interval_cases first <;> decide) spells
    refine ofNumber?_decimal positive whole.lt fits ?_
    rw [Text.toList_tidied (whole.isBlank_eq_false (by decide)), whole.folded (by decide)]
  | @octal chars digits spells =>
    have whole : Spells 8 ('0' :: chars) (0 :: digits) := .digit (by decide) rfl spells
    refine ofNumber?_zero spells.lt fits ?_
    rw [Text.toList_tidied (whole.isBlank_eq_false (by decide)), whole.folded (by decide)]
    rfl
  | @marked mark letter radix chars digits listed same spells filled =>
    have every : ∀ entry ∈ marks, entry.2 ≤ 16 ∧ Text.isBlank entry.1 = false ∧ entry.1 ≠ '_' := by
      decide
    obtain ⟨small, filledIn, other⟩ := every _ listed
    have kept : Text.isBlank mark = false ∧ mark ≠ '_' := by
      refine ⟨Bool.eq_false_of_not_eq_true fun blank => ?_, ?_⟩
      · rw [Text.toLower_of_isBlank blank] at same
        rw [same, filledIn] at blank
        cases blank
      · rintro rfl
        exact other same.symm
    have plain : ∀ char ∈ '0' :: mark :: chars, Text.isBlank char = false :=
      List.forall_mem_cons.mpr ⟨by decide, List.forall_mem_cons.mpr
        ⟨kept.1, spells.isBlank_eq_false small⟩⟩
    have folded := Text.toList_tidied plain
    rw [List.filter_cons_of_pos (by decide), List.filter_cons_of_pos (by simp [kept.2]),
      List.map_cons, List.map_cons, same, spells.folded small] at folded
    rw [ofNumber?_marked listed folded, integer?_eq small spells.lt filled fits, Option.map_some]

/-! ### Parentheses -/

theorem float?_parenthesis {text : String} {chars : List Char} (same : text.toList = '(' :: chars) :
    float? text = none := by
  have nameless (name : String) (other : name.toList.head? ≠ some '(') :
      Text.lower (String.ofList ('(' :: chars)) ≠ name := by
    rintro rfl
    rw [Text.lower, String.toList_ofList, String.toList_ofList] at other
    exact other rfl
  have unread : unsigned? ('(' :: chars) = none := by
    simp [unsigned?, natural?]
  unfold float?
  rw [same]
  dsimp only
  split
  · next equal => exact absurd (List.cons.inj equal).1 (by decide)
  · next equal => exact absurd (List.cons.inj equal).1 (by decide)
  simp only [Bool.false_eq_true, if_false]
  split
  · next named => exact absurd named (nameless _ (by decide))
  · next named => exact absurd named (nameless _ (by decide))
  · next named => exact absurd named (nameless _ (by decide))
  · rw [unread, Option.map_none]

/-- A text that begins with a parenthesis is no number. -/
theorem ofNumber?_parenthesis {text : String} {chars : List Char} (same : text.toList = '(' :: chars) :
    ofNumber? text = none := by
  have folded : (Text.lower text).toList = '(' :: chars.map Char.toLower := by
    rw [Text.lower, same, String.toList_ofList]
    rfl
  rw [ofNumber?_unmarked folded (by simp [marks, List.isPrefixOf]), if_neg (by simp),
    float?_parenthesis folded]
  rfl

/-- The text of parentheses begins with one after it was tidied. -/
theorem ofNumber?_wrapped (inside : String) :
    ofNumber? (Text.without (· == '_') (Text.trim ("(" ++ inside ++ ")"))) = none := by
  have chars : ("(" ++ inside ++ ")").toList = '(' :: (inside.toList ++ [')']) := by
    simp
  have trimmed : Text.trim ("(" ++ inside ++ ")") = "(" ++ inside ++ ")" := by
    refine Text.trim_eq_self ?_ ?_ <;> rw [chars] <;> intro char listed
    · cases listed
      decide
    · rw [← List.cons_append, List.getLast?_concat] at listed
      cases listed
      decide
  have tidied : (Text.without (· == '_') (Text.trim ("(" ++ inside ++ ")"))).toList =
      '(' :: (inside.toList ++ [')']).filter fun char => !char == '_' := by
    rw [trimmed, Text.without, chars, String.toList_ofList, List.filter_cons_of_pos (by decide)]
  exact ofNumber?_parenthesis tidied

/-! ### Constant expressions -/

/-- An expression built from integer literals below 2^63 by parentheses and minus signs, with its
mathematical value. Each range covers the text of its node. -/
inductive IntegerExpr (source : Source) : Expr → Int → Prop
  | literal {span : Span} {text : String} {value : Nat} :
    source.slice? span = some text → Literal text value → value < 2 ^ 63 →
      IntegerExpr source ⟨.integer, span⟩ value
  | paren {inner : Expr} {value : Int} {span : Span} {inside : String} :
    IntegerExpr source inner value → source.slice? span = some ("(" ++ inside ++ ")") →
      IntegerExpr source ⟨.paren inner, span⟩ value
  | negate {operand : Expr} {value : Int} {span : Span} :
    IntegerExpr source operand value → IntegerExpr source ⟨.unary .negate operand, span⟩ (-value)

/-- Whether parentheses stand directly around a literal, or around such parentheses. -/
def wrapsLiteral : Expr → Bool
  | ⟨.paren inner, _⟩ =>
    match inner.unparen.kind with
    | .integer => true
    | _ => wrapsLiteral inner
  | ⟨.unary _ operand, _⟩ => wrapsLiteral operand
  | _ => false

section

variable {source : Source}

namespace IntegerExpr

variable {expr : Expr} {value : Int}

theorem bounds (constant : IntegerExpr source expr value) : -2 ^ 63 < value ∧ value < 2 ^ 63 := by
  induction constant with
  | literal _ _ fits => omega
  | paren _ _ inductionHypothesis => exact inductionHypothesis
  | negate _ inductionHypothesis => omega

/-- Under its parentheses, the expression is a literal or has a minus sign. -/
theorem unparen_kind (constant : IntegerExpr source expr value) :
    expr.unparen.kind = .integer ∨ ∃ operand, expr.unparen.kind = .unary .negate operand := by
  induction constant with
  | literal => exact .inl rfl
  | paren _ _ inductionHypothesis => exact inductionHypothesis
  | negate => exact .inr ⟨_, rfl⟩

end IntegerExpr

/-- The text of a literal in parentheses is read with the parentheses. -/
theorem fold?_of_wrapped {span : Span} {inside : String}
    (covers : source.slice? span = some ("(" ++ inside ++ ")")) :
    ∀ expr : Expr, expr.unparen.kind = .integer → fold? source span expr = none
  | ⟨.paren inner, _⟩, isLiteral => by
    rw [fold?]
    exact fold?_of_wrapped covers inner isLiteral
  | ⟨.integer, _⟩, _ => by
    rw [fold?, covers, Option.bind_some, ofNumber?_wrapped]

/-- The value of a negation does not depend on the parentheses around it. -/
theorem fold?_of_negate (span : Span) {operand : Expr} :
    ∀ expr : Expr, expr.unparen.kind = .unary .negate operand →
      fold? source span expr = (ofExpr? source operand).bind negate?
  | ⟨.paren inner, _⟩, negates => by
    rw [fold?]
    exact fold?_of_negate span inner negates
  | ⟨.unary .negate _, _⟩, rfl => by
    rw [fold?, ofExpr?]

end

/-- An integer constant is folded to its mathematical value, and neither it nor any part of it is the
smallest integer, so that no minus sign overflows. Where parentheses stand directly around a literal,
there is no value. -/
theorem integers_fold_unless_wrapped (source : Source) (expr : Expr) (value : Int)
    (constant : IntegerExpr source expr value) :
    (wrapsLiteral expr = false → ∃ folded : Int64, ofExpr? source expr = some (.integer folded) ∧
      folded.toInt = value ∧ (-folded).toInt = -value) ∧
    (wrapsLiteral expr = true → ofExpr? source expr = none) := by
  suffices folds : ofExpr? source expr =
      if wrapsLiteral expr then none else some (.integer (Int64.ofInt value)) by
    obtain ⟨lower, upper⟩ := constant.bounds
    refine ⟨fun bare => ⟨Int64.ofInt value, by rw [folds, bare, if_neg Bool.false_ne_true], ?_, ?_⟩,
      fun wrapped => by rw [folds, wrapped, if_pos rfl]⟩
    · exact Int64.toInt_ofInt_of_le lower.le upper
    · rw [← Int64.ofInt_neg]
      exact Int64.toInt_ofInt_of_le (by omega) (by omega)
  induction constant with
  | literal covers literal fits =>
    rw [ofExpr?, fold?, covers, Option.bind_some, ofNumber?_literal literal fits]
    rfl
  | @paren inner value span inside constant covers inductionHypothesis =>
    rcases constant.unparen_kind with isLiteral | ⟨operand, negates⟩
    · rw [ofExpr?, fold?_of_wrapped covers ⟨.paren inner, span⟩ isLiteral, wrapsLiteral, isLiteral,
        if_pos rfl]
    · rw [wrapsLiteral, negates, ← inductionHypothesis, ofExpr?, ofExpr?,
        fold?_of_negate _ inner negates, fold?_of_negate _ ⟨.paren inner, span⟩ negates]
  | @negate operand value span constant inductionHypothesis =>
    rw [ofExpr?, fold?_of_negate _ ⟨.unary .negate operand, span⟩ rfl, inductionHypothesis,
      wrapsLiteral]
    cases wrapsLiteral operand with
    | true => rfl
    | false =>
      rw [if_neg Bool.false_ne_true, if_neg Bool.false_ne_true, Int64.ofInt_neg]
      rfl

/-- `-(-0X1_f)` -/
def signedHex : Expr :=
  ⟨.unary .negate ⟨.paren ⟨.unary .negate ⟨.integer, ⟨3, 8⟩⟩, ⟨2, 8⟩⟩, ⟨1, 9⟩⟩, ⟨0, 9⟩⟩

theorem integerExpr_signedHex : IntegerExpr (.of "sample" "-(-0X1_f)") signedHex 31 := by
  have spells : Spells 16 ['1', '_', 'f'] [1, 15] :=
    .digit (by decide) rfl (.separator (.digit (by decide) rfl .nil))
  have literal : Literal "0X1_f" 31 :=
    .marked (by decide : ('x', 16) ∈ marks) (rfl : 'X'.toLower = 'x') spells (by decide)
  have covers : (Source.of "sample" "-(-0X1_f)").slice? ⟨1, 9⟩ = some ("(" ++ "-0X1_f" ++ ")") := rfl
  exact .negate (.paren (.negate (.literal rfl literal (by decide))) covers)

/-- Two minus signs and parentheses that do not stand around the literal leave its value. -/
theorem integers_fold_unless_wrapped_signedHex :
    IntegerExpr (.of "sample" "-(-0X1_f)") signedHex 31 ∧ wrapsLiteral signedHex = false ∧
      ∃ folded : Int64, ofExpr? (.of "sample" "-(-0X1_f)") signedHex = some (.integer folded) ∧
        folded.toInt = 31 ∧ (-folded).toInt = -31 :=
  ⟨integerExpr_signedHex, rfl,
    (integers_fold_unless_wrapped (.of "sample" "-(-0X1_f)") signedHex 31 integerExpr_signedHex).1 rfl⟩

/-- `(5)` has no value. -/
theorem wrapped_integer_unfolded :
    ¬ ∀ (source : Source) (expr : Expr) (value : Int), IntegerExpr source expr value →
      ∃ folded : Int64, ofExpr? source expr = some (.integer folded) ∧ folded.toInt = value := by
  intro folds
  have five : Literal "5" 5 := @Literal.decimal 5 [] [] (by decide) (by decide) .nil
  have covers : (Source.of "sample" "(5)").slice? ⟨0, 3⟩ = some ("(" ++ "5" ++ ")") := rfl
  have constant : IntegerExpr (.of "sample" "(5)") ⟨.paren ⟨.integer, ⟨1, 2⟩⟩, ⟨0, 3⟩⟩ 5 :=
    .paren (.literal rfl five (by decide)) covers
  obtain ⟨folded, read, -⟩ := folds _ _ _ constant
  rw [ofExpr?, fold?_of_wrapped covers ⟨.paren ⟨.integer, ⟨1, 2⟩⟩, ⟨0, 3⟩⟩ rfl] at read
  cases read

end ConstValue

end PhpAudit
