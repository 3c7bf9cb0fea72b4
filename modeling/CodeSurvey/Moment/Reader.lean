/-
# Reading moments

The written forms of dates and times, on the bytes of the text. The date is one of

| form | bytes |
| --- | ---: |
| `YYYY-MM-DD`, `YYYY-Www-D` | 10 |
| `YYYYMMDD`, `YYYY-Www`, `YYYYWwwD` | 8 |
| `YYYYWww` | 7 |

and is followed by nothing, or by any one character and a time; where the forms with weeks leave it
open how long the date is, `dateLength` decides. The time is `HH`, `HHMM` or `HHMMSS`, with or
without colons, and a fraction after a point or comma, of which six digits count. Then an offset may
follow, written as a time with a sign, or `Z`. Before an offset the time may end in one odd byte
that is passed over (`10x+05:00` is ten o'clock), and that is as far as the reader's tolerance goes.

Reading past the end gives a zero byte, which ends every number.
-/

import CodeSurvey.Moment
import CodeSurvey.Text.Lines

namespace CodeSurvey
namespace MomentReader

/-- The bytes of a text, with a way to read past the end. -/
abbrev Bytes := List UInt8

/-- The byte at a place, zero past the end. -/
def byteAt (bs : Bytes) (i : Nat) : UInt8 := bs.getD i 0

/-- Whether a byte is a digit. -/
def isDigit (b : UInt8) : Bool := 48 ≤ b && b ≤ 57

/-- Whether a byte is that of an ASCII character. -/
def isByte (c : Char) (b : UInt8) : Bool := b.toNat == c.toNat

/-- The number written in the next `width` bytes from a place. -/
def number? (bs : Bytes) (i width : Nat) : Option Nat :=
  (List.range width).foldlM
    (fun n k =>
      let b := byteAt bs (i + k)
      if isDigit b then some (n * 10 + (b.toNat - 48)) else none) 0

/-- The number of digits from a place on. -/
def digitsFrom (bs : Bytes) (i : Nat) : Nat := ((bs.drop i).takeWhile isDigit).length

/-- The number of bytes of the date at the start of a text. -/
def dateLength (bs : Bytes) : Nat :=
  if bs.length = 7 then 7
  else if isByte '-' (byteAt bs 4) then
    if isByte 'W' (byteAt bs 5) then
      if isByte '-' (byteAt bs 8) then if isDigit (byteAt bs 10) then 8 else 10 else 8
    else 10
  else if isByte 'W' (byteAt bs 4) then
    let stop := 7 + digitsFrom bs 7
    if stop < 9 then stop else if stop % 2 == 0 then 7 else 8
  else 8

/-- The date in the first `length` bytes. -/
def date? (bs : Bytes) (length : Nat) : Option Calendar.Date := do
  let year ← number? bs 0 4
  let dashed := isByte '-' (byteAt bs 4)
  let i := if dashed then 5 else 4
  if isByte 'W' (byteAt bs i) then
    let week ← number? bs (i + 1) 2
    if length ≤ i + 3 then Calendar.ofWeek? year week 1
    else if dashed && !isByte '-' (byteAt bs (i + 3)) then none
    else Calendar.ofWeek? year week (← number? bs (if dashed then i + 4 else i + 3) 1)
  else
    let month ← number? bs i 2
    if dashed && !isByte '-' (byteAt bs (i + 2)) then none
    else return ⟨year, month, ← number? bs (if dashed then i + 3 else i + 2) 2⟩

/-- A time of day as it is written, and whether something follows it. -/
structure ClockTime where
  hour : Nat := 0
  minute : Nat := 0
  second : Nat := 0
  micro : Nat := 0
  more : Bool := false

/-- The time with its next field, hours first. -/
def ClockTime.set (t : ClockTime) : Nat → Nat → ClockTime
  | 0, v => { t with hour := v }
  | 1, v => { t with minute := v }
  | _, v => { t with second := v }

/-- The fraction of a second from a place up to `stop`: six digits count, further ones are passed
over. -/
def fraction? (bs : Bytes) (t : ClockTime) (i stop : Nat) : Option ClockTime := do
  let width := min (stop - i) 6
  let n ← number? bs i width
  let stop := i + width + digitsFrom bs (i + width)
  return { t with micro := n * Nat.pow 10 (6 - width), more := byteAt bs stop != 0 }

/-- The fields of a time from a place up to `stop`, `left` of the three being still to come. -/
def fields? (bs : Bytes) (stop : Nat) :
    (left : Nat) → (colons : Bool) → ClockTime → Nat → Option ClockTime
  | 0, _, t, i => fraction? bs t i stop
  | left + 1, colons, t, i => do
    let t := t.set (2 - left) (← number? bs i 2)
    let c := byteAt bs (i + 2)
    let colons := if left = 2 then isByte ':' c else colons
    if stop ≤ i + 3 then return { t with more := c != 0 }
    else if colons && isByte ':' c then fields? bs stop left colons t (i + 3)
    else if isByte '.' c || isByte ',' c then fraction? bs t (i + 3) stop
    else if !colons then fields? bs stop left colons t (i + 2)
    else none

/-- The time written between two places. -/
def clockTime? (bs : Bytes) (start stop : Nat) : Option ClockTime := fields? bs stop 3 true {} start

/-- Whether a byte starts an offset. -/
def startsOffset (b : UInt8) : Bool := isByte '+' b || isByte '-' b || isByte 'Z' b

/-- The place at which the offset starts, searched from `start`; the end without one. An empty time
ends one past its start. -/
def offsetPlace (bs : Bytes) (start : Nat) : Nat :=
  max (start + ((bs.drop start).takeWhile fun b => !startsOffset b).length)
    (if bs.length ≤ start then start + 1 else start)

/-- An offset in microseconds: less than a day either way. One of no whole second is none at all. -/
def offset? (negative : Bool) (t : ClockTime) : Option Int :=
  let seconds : Int := (t.hour * 3600 + t.minute * 60 + t.second : Nat)
  let micros := if seconds = 0 then 0 else seconds * 1000000 + t.micro
  if micros < Moment.dayMicros then some (if negative then -micros else micros) else none

/-- The time and offset from a place on. -/
def timeAndOffset? (bs : Bytes) (start : Nat) : Option (ClockTime × Int) := do
  let place := offsetPlace bs start
  let t ← clockTime? bs start place
  if place = bs.length then if t.more then none else return (t, 0)
  else
    let sign := byteAt bs place
    if isByte 'Z' sign then if byteAt bs (place + 1) == 0 then return (t, 0) else none
    else
      let o ← clockTime? bs (place + 1) bs.length
      if o.more then none else return (t, ← offset? (isByte '-' sign) o)

/-- The number of bytes of a character that starts with a byte. -/
def charWidth (b : UInt8) : Nat :=
  if b < 0x80 then 1 else if b / 16 == 0xE then 3 else if b / 16 == 0xF then 4 else 2

/-- The moment of a date and a time, if both exist. -/
def moment? (d : Calendar.Date) (t : ClockTime) (offset : Int) : Option Moment :=
  if d.isValid && t.hour < 24 && t.minute < 60 && t.second < 60 then
    some ⟨d, t.hour, t.minute, t.second, t.micro, offset⟩
  else none

/-- A written date and time; without an offset it is universal time. -/
def read? (cs : List Char) : Option Moment := do
  if cs.length < 7 then none
  let bs := cs.flatMap String.utf8EncodeChar
  let n := dateLength bs
  let d ← date? bs n
  if bs.length ≤ n then moment? d {} 0
  else
    let (t, offset) ← timeAndOffset? bs (n + charWidth (byteAt bs n))
    moment? d t offset

/-- The moment that a commit's date names: blanks around it are ignored, and a `Z` at its end is the
offset zero. -/
def ofCommitDate? (date : String) : Option Moment :=
  let cs := Text.trim date.toList
  if cs.getLast? == some 'Z' then read? (cs.dropLast ++ "+00:00".toList) else read? cs

end MomentReader

/-- The moment that a text names. -/
def Moment.ofDate? (date : String) : Option Moment := MomentReader.ofCommitDate? date

/-- The instant by which commits are ordered; a date that cannot be read counts as the earliest. -/
def commitInstant (date : String) : Int :=
  match Moment.ofDate? date with
  | some m => m.instant
  | none => Moment.earliest

/-- Items by the instants of their dates, equally late ones in their order. -/
def earliestFirst {α : Type} (dateOf : α → String) (xs : List α) : List α :=
  xs.mergeSort fun a b => commitInstant (dateOf a) ≤ commitInstant (dateOf b)

/-- Items by the instants of their dates, the latest first, equally late ones in their order. -/
def latestFirst {α : Type} (dateOf : α → String) (xs : List α) : List α :=
  xs.mergeSort fun a b => commitInstant (dateOf b) ≤ commitInstant (dateOf a)

/-- The later of two dates by instant; the first unless the second is later. -/
def laterDate (best : Option String) (date : String) : Option String :=
  match best with
  | none => some date
  | some b => if commitInstant b < commitInstant date then some date else some b

/-- The earlier of two dates by instant; the first unless the second is earlier. -/
def earlierDate (best : Option String) (date : String) : Option String :=
  match best with
  | none => some date
  | some b => if commitInstant date < commitInstant b then some date else some b

/-- The latest of some dates that are not empty, the first of equally late ones. -/
def latestDate (dates : List String) : Option String :=
  (dates.filter (!·.isEmpty)).foldl laterDate none

/-- The earliest of some dates that are not empty, the first of equally early ones. -/
def earliestDate (dates : List String) : Option String :=
  (dates.filter (!·.isEmpty)).foldl earlierDate none

end CodeSurvey
