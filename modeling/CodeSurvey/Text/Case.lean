/-
# Lower and upper case

Case maps of whole texts. A letter may grow: `ß` has the upper case `SS`, the dotted capital I
the lower case `i` with a combining dot. The capital sigma is the one letter whose lower case
depends on its place: it is final (`ς`) when, skipping case-ignorable characters, a cased letter
precedes it and none follows.

For pattern matching without regard to case a letter stands for a small set, `caseVariants`: besides
its two ASCII forms, `s` has the long s, `k` the Kelvin sign, `i` the dotted and the dotless i.
-/

import CodeSurvey.Text.CaseRuns
import CodeSurvey.Text.Character

namespace CodeSurvey
namespace Text

/-- The image of a code point under a case map given by runs. -/
def shiftBy (runs : Array CaseRun) (n : Nat) : Nat :=
  match runs.find? fun r => r.first ≤ n && n ≤ r.last && (n - r.first) % r.step == 0 with
  | some r => (n + r.shift).toNat
  | none => n

/-- Whether a capital sigma between the given texts is final; the text before it is reversed. -/
def isFinalSigma (before after : List Char) : Bool :=
  let cased (side : List Char) : Bool :=
    match side.dropWhile fun c => inRuns caseIgnorableRuns c.toNat with
    | [] => false
    | c :: _ => inRuns casedRuns c.toNat
  cased before && !cased after

/-- The lower case of one character, given the reversed text before it and the text after it. -/
def lowerOne (before : List Char) (c : Char) (after : List Char) : List Char :=
  if c.toNat < 128 then [if isUpperAscii c then Char.ofNat (c.toNat + 32) else c]
  else if c.toNat == 0x130 then ['i', Char.ofNat 0x307]
  else if c.toNat == 0x3A3 then [Char.ofNat (if isFinalSigma before after then 0x3C2 else 0x3C3)]
  else [Char.ofNat (shiftBy lowerRuns c.toNat)]

/-- The lower case of a text that follows the given reversed text. -/
def lowerAfter (before : List Char) : List Char → List Char
  | [] => []
  | c :: r => lowerOne before c r ++ lowerAfter (c :: before) r

/-- The lower case of a text. -/
def lower (cs : List Char) : List Char := lowerAfter [] cs

/-- The upper case of one character. -/
def upperOne (c : Char) : List Char :=
  if c.toNat < 128 then [if isLowerAscii c then Char.ofNat (c.toNat - 32) else c]
  else
    match upperExpansions.find? fun e => e.1 == c.toNat with
    | some (_, image) => image.map Char.ofNat
    | none => [Char.ofNat (shiftBy upperRuns c.toNat)]

/-- The upper case of a text. -/
def upper (cs : List Char) : List Char := cs.flatMap upperOne

/-- The lower case of a string. -/
def lowered (s : String) : String := String.ofList (lower s.toList)

/-- The upper case of a string. -/
def uppered (s : String) : String := String.ofList (upper s.toList)

/-- The characters that an ASCII letter stands for when case is ignored; any other character stands
for itself. -/
def caseVariants (c : Char) : List Char :=
  match c with
  | 'i' => ['i', 'I', Char.ofNat 0x130, Char.ofNat 0x131]
  | 'k' => ['k', 'K', Char.ofNat 0x212A]
  | 's' => ['s', 'S', Char.ofNat 0x17F]
  | c => if isLowerAscii c then [c, Char.ofNat (c.toNat - 32)] else [c]

end Text
end CodeSurvey
