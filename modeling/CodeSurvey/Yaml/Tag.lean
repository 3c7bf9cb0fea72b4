/-
# Tags of YAML

A tag says what a node stands for. A plain scalar has the tag of the first of these forms that it
has, and is a string otherwise:

* a truth value: `yes`, `no`, `true`, `false`, `on`, `off`, in lower, upper or title case;
* a real number: digits with a point, an exponent only with its sign; parts in base sixty between
  colons; infinite or undefined after a point;
* an integer: in base two, eight, ten or sixteen, or parts in base sixty;
  underscores may stand in it;
* `<<`, which merges mappings; a null; a date, with or without a time; `=`.
-/

import CodeSurvey.Pattern

namespace CodeSurvey
namespace Yaml
namespace Tag

/-- What the tags of the core types start with. -/
def core : String := "tag:yaml.org,2002:"

/-- The tag of a core type. -/
def ofCore (name : String) : String := core ++ name

def null : String := ofCore "null"
def boolean : String := ofCore "bool"
def integer : String := ofCore "int"
def real : String := ofCore "float"
def string : String := ofCore "str"
def moment : String := ofCore "timestamp"
def binary : String := ofCore "binary"
def merge : String := ofCore "merge"
def value : String := ofCore "value"
def sequence : String := ofCore "seq"
def mapping : String := ofCore "map"
def orderedMapping : String := ofCore "omap"
def pairs : String := ofCore "pairs"
def set : String := ofCore "set"

/-- The handles that need no directive. -/
def handles : List (String × String) := [("!", "!"), ("!!", core)]

open Pattern

/-- A decimal digit. -/
def digit : Pattern := char Text.isDigitAscii

/-- A character of a class that also has the underscore. -/
def orUnderscore (f : Char → Bool) : Pattern := char fun c => f c || c == '_'

/-- Decimal digits and underscores. -/
def digitsOrUnderscores : Pattern := many (orUnderscore Text.isDigitAscii)

/-- A sign or none. -/
def sign : Pattern := optional (char fun c => c == '-' || c == '+')

/-- An exponent with its sign, or none. -/
def exponent : Pattern :=
  optional (all [char fun c => c == 'e' || c == 'E', char fun c => c == '-' || c == '+',
    some1 digit])

/-- Parts in base sixty, each after a colon. -/
def sixtieths : Pattern :=
  some1 (all [one ':', optional (char fun c => '0' ≤ c && c ≤ '5'), digit])

/-- The forms of a real number. -/
def realForm : Pattern :=
  any
    [all [sign, digit, digitsOrUnderscores, one '.', digitsOrUnderscores, exponent],
      all [one '.', digit, digitsOrUnderscores, exponent],
      all [sign, digit, digitsOrUnderscores, sixtieths, one '.', digitsOrUnderscores],
      all [sign, one '.', words ["inf", "Inf", "INF"]],
      all [one '.', words ["nan", "NaN", "NAN"]]]

/-- A digit of base sixteen. -/
def isHexDigit (c : Char) : Bool :=
  Text.isDigitAscii c || ('a' ≤ c && c ≤ 'f') || ('A' ≤ c && c ≤ 'F')

/-- The forms of an integer. -/
def integerForm : Pattern :=
  let nonZero := char fun c => '1' ≤ c && c ≤ '9'
  any
    [all [sign, word "0b", some1 (orUnderscore fun c => c == '0' || c == '1')],
      all [sign, one '0', some1 (orUnderscore fun c => '0' ≤ c && c ≤ '7')],
      all [sign, any [one '0', seq nonZero digitsOrUnderscores]],
      all [sign, word "0x", some1 (orUnderscore isHexDigit)],
      all [sign, nonZero, digitsOrUnderscores, sixtieths]]

/-- The forms of a date. -/
def momentForm : Pattern :=
  let two := seq digit digit
  let oneOrTwo := seq digit (optional digit)
  let gaps := char fun c => c == ' ' || c == '\t'
  any
    [all [two, two, one '-', two, one '-', two],
      all
        [two, two, one '-', oneOrTwo, one '-', oneOrTwo,
          orElse (char fun c => c == 'T' || c == 't') (some1 gaps), oneOrTwo, one ':', two,
          one ':', two, optional (seq (one '.') (many digit)),
          optional
            (seq (many gaps)
              (orElse (one 'Z')
                (all [char fun c => c == '-' || c == '+', oneOrTwo,
                  optional (seq (one ':') two)])))]]

/-- The three cases of a word. -/
def cases (w : String) : List String := [w, w.capitalize, w.map Char.toUpper]

/-- The words for true. -/
def trueWords : List String := ["yes", "true", "on"]

/-- The words for false. -/
def falseWords : List String := ["no", "false", "off"]

/-- The forms of plain scalars with their tags, in the order in which they are tried. -/
def forms : List (String × Pattern) :=
  [(boolean, words ((trueWords ++ falseWords).flatMap cases)), (real, realForm),
    (integer, integerForm), (merge, word "<<"), (null,
      any [one '~', words (cases "null"), place fun _ rest => rest.isEmpty]), (moment, momentForm),
    (value, one '=')]

/-- The tag of a plain scalar. -/
def ofPlain (text : String) : String :=
  match forms.find? fun f => ((seq f.2 textEnd).matchStart? text.toList).isSome with
  | some f => f.1
  | none => string

end Tag
end Yaml
end CodeSurvey
