/-
# Faults of YAML texts

A text is malformed, or it is well formed and a scalar in it does not have the form that its
tag asks for: an empty or wrong number, one in base sixty with more places than a real number
has room for, a word that is neither true nor false, a date that does not exist, an escape
beyond the character set.
-/

import CodeSurvey.Text.Quoted

namespace CodeSurvey

/-- Why a scalar does not have the form that is asked for. -/
inductive ScalarFault
  | empty
  | notBoolean (text : String)
  | notInteger (base : Nat) (text : String)
  | longInteger (digits : Nat)
  | notReal (text : String)
  | tooManyPlaces
  | notMoment
  | noSuchMoment (reason : String)
  | noSuchCharacter
  | codeTooLarge
  deriving DecidableEq, Repr

/-- The wording of a scalar's fault. -/
def ScalarFault.message : ScalarFault → String
  | .empty => "string index out of range"
  | .notBoolean text => text
  | .notInteger base text =>
    "invalid literal for int() with base " ++ toString base ++ ": " ++
      String.ofList ((Text.quoted text).toList.take 200)
  | .longInteger digits =>
    "Exceeds the limit (4300 digits) for integer string conversion: value has " ++
      toString digits ++
      " digits; use sys.set_int_max_str_digits() to increase the limit"
  | .notReal text => "could not convert string to float: " ++ Text.quoted text
  | .tooManyPlaces => "int too large to convert to float"
  | .notMoment => "'NoneType' object has no attribute 'groupdict'"
  | .noSuchMoment reason => reason
  | .noSuchCharacter => "chr() arg not in range(0x110000)"
  | .codeTooLarge => "Python int too large to convert to C int"

/-- Why a text cannot be read. -/
inductive Yaml.Fault
  | malformed
  | scalar (fault : ScalarFault)
  deriving DecidableEq, Repr

end CodeSurvey
