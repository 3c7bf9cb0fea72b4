/-
# Reading back a moment that was written

A commit's date is written in digits, `2024-05-02T01:00:00+02:00`: the date, the time of day, and
after it the offset of the clock from universal time, for which `Z` or nothing stands if it is none
(`WrittenMoment`). A number that is written in a fixed number of digits is read back from the place
where it stands (`MomentReader.number?_of_drop`), so the date is (`MomentReader.date?_dashed`), the
time with the offset (`MomentReader.timeAndOffset?_plain`, `MomentReader.timeAndOffset?_shifted`),
and the moment as a whole, whatever blanks stand around it (`WrittenMoment.ofDate?_text`).
-/

import CodeSurvey.Moment.Reader
import CodeSurvey.Proofs.Calendar
import CodeSurvey.Proofs.Text
import Mathlib.Data.List.GetD
import Mathlib.Tactic.IntervalCases

namespace CodeSurvey

/-- The last digit of a number. -/
def lastDigit (n : Nat) : Char := Char.ofNat (48 + n % 10)

/-- The last digits of a number, as many as the width says, with zeros in front. -/
def digits : (width : Nat) → Nat → List Char
  | 0, _ => []
  | w + 1, n => digits w (n / 10) ++ [lastDigit n]

theorem lastDigit_cases (n : Nat) :
    lastDigit n ∈ ['0', '1', '2', '3', '4', '5', '6', '7', '8', '9'] := by
  have h : n % 10 < 10 := Nat.mod_lt n (by decide)
  unfold lastDigit
  interval_cases n % 10 <;> decide

theorem mem_digits {width n : Nat} {c : Char} (h : c ∈ digits width n) :
    c ∈ ['0', '1', '2', '3', '4', '5', '6', '7', '8', '9'] := by
  induction width generalizing n with
  | zero => exact absurd h List.not_mem_nil
  | succ w ih =>
    rcases List.mem_append.1 h with h | h
    · exact ih h
    · exact List.mem_singleton.1 h ▸ lastDigit_cases n

theorem length_digits (width n : Nat) : (digits width n).length = width := by
  induction width generalizing n with
  | zero => rfl
  | succ w ih => rw [digits, List.length_append, ih, List.length_singleton]

/-- What a commit's date says of its clock: nothing, that it shows universal time, or how
many minutes it is off. -/
inductive Zone
  | unsaid
  | universal
  | shifted (behind : Bool) (minutes : Fin 1440)

namespace Zone

/-- How far the clock is ahead of universal time, in minutes. -/
def minutes : Zone → Int
  | unsaid => 0
  | universal => 0
  | shifted behind m => if behind then -(m.val : Int) else m.val

/-- The zone as it is written. -/
def text : Zone → List Char
  | unsaid => []
  | universal => ['Z']
  | shifted behind m =>
    (if behind then '-' else '+') :: (digits 2 (m.val / 60) ++ ':' :: digits 2 (m.val % 60))

/-- A clock is less than a day off. -/
theorem minutes_between (z : Zone) : -1440 < z.minutes ∧ z.minutes < 1440 := by
  cases z with
  | unsaid => decide
  | universal => decide
  | shifted behind m =>
    have hless := m.isLt
    rw [minutes]
    split_ifs <;> omega

end Zone

/-- A moment as the date of a commit is written: a date of the calendar, a time of day and a zone,
with blanks around them. -/
structure WrittenMoment where
  date : Calendar.Date
  hour : Nat
  minute : Nat
  second : Nat
  zone : Zone := .unsaid
  before : List Char := []
  after : List Char := []
  valid : date.isValid ∧ hour < 24 ∧ minute < 60 ∧ second < 60
  blank : ∀ c ∈ before ++ after, Text.isBlank c = true

namespace WrittenMoment

section Bounds

variable (w : WrittenMoment)

theorem date_valid : w.date.isValid := w.valid.1

theorem hour_lt : w.hour < 24 := w.valid.2.1

theorem minute_lt : w.minute < 60 := w.valid.2.2.1

theorem second_lt : w.second < 60 := w.valid.2.2.2

theorem before_blank : ∀ c ∈ w.before, Text.isBlank c = true :=
  fun c hc => w.blank c (List.mem_append_left _ hc)

theorem after_blank : ∀ c ∈ w.after, Text.isBlank c = true :=
  fun c hc => w.blank c (List.mem_append_right _ hc)

end Bounds

/-- Date and time as they are written. -/
def clockText (w : WrittenMoment) : List Char :=
  digits 4 w.date.year ++ '-' :: (digits 2 w.date.month ++ '-' :: (digits 2 w.date.day ++
    'T' :: (digits 2 w.hour ++ ':' :: (digits 2 w.minute ++ ':' :: digits 2 w.second))))

/-- The moment as it is written. -/
def text (w : WrittenMoment) : String :=
  String.ofList (w.before ++ (w.clockText ++ w.zone.text) ++ w.after)

/-- The moment that is meant. -/
def moment (w : WrittenMoment) : Moment :=
  ⟨w.date, w.hour, w.minute, w.second, 0, w.zone.minutes * 60000000⟩

end WrittenMoment

namespace MomentReader

variable {bs rest : Bytes} {i n stop left h m s y d : Nat} {t : ClockTime} {b : UInt8}

/-- The last digit of a number as a byte. -/
def lastByte (n : Nat) : UInt8 := UInt8.ofNat (48 + n % 10)

/-- The last digits of a number as bytes. -/
def digitBytes : (width : Nat) → Nat → Bytes
  | 0, _ => []
  | w + 1, n => digitBytes w (n / 10) ++ [lastByte n]

theorem toNat_lastByte (n : Nat) : (lastByte n).toNat = 48 + n % 10 := by
  have h : n % 10 < 10 := Nat.mod_lt n (by decide)
  unfold lastByte
  interval_cases n % 10 <;> rfl

theorem isDigit_lastByte (n : Nat) : isDigit (lastByte n) = true := by
  have h : n % 10 < 10 := Nat.mod_lt n (by decide)
  unfold lastByte
  interval_cases n % 10 <;> rfl

/-- No digit is another character. -/
theorem isByte_lastByte (n : Nat) {c : Char} (hc : c.toNat < 48 ∨ 57 < c.toNat) :
    isByte c (lastByte n) = false := by
  have h : n % 10 < 10 := Nat.mod_lt n (by decide)
  rw [isByte, toNat_lastByte, beq_eq_false_iff_ne]
  omega

theorem length_digitBytes (width n : Nat) : (digitBytes width n).length = width := by
  induction width generalizing n with
  | zero => rfl
  | succ w ih => rw [digitBytes, List.length_append, ih, List.length_singleton]

/-- A digit is one byte. -/
theorem utf8_lastDigit (n : Nat) : String.utf8EncodeChar (lastDigit n) = [lastByte n] := by
  have h : n % 10 < 10 := Nat.mod_lt n (by decide)
  unfold lastDigit lastByte
  interval_cases n % 10 <;> decide

theorem utf8_digits (width n : Nat) :
    (digits width n).flatMap String.utf8EncodeChar = digitBytes width n := by
  induction width generalizing n with
  | zero => rfl
  | succ w ih => rw [digits, List.flatMap_append, ih, List.flatMap_singleton,
      utf8_lastDigit, digitBytes]

theorem byteAt_add (bs : Bytes) (i k : Nat) : byteAt bs (i + k) = byteAt (bs.drop i) k := by
  rw [byteAt, byteAt, List.getD_eq_getElem?_getD, List.getD_eq_getElem?_getD, List.getElem?_drop]

theorem byteAt_of_drop (hdrop : bs.drop i = b :: rest) : byteAt bs i = b := by
  rw [← Nat.add_zero i, byteAt_add, hdrop]
  rfl

/-- **A number is read back** from the digits at a place. -/
theorem number?_of_drop {width : Nat} (hn : n < 10 ^ width)
    (hdrop : bs.drop i = digitBytes width n ++ rest) : number? bs i width = some n := by
  induction width generalizing n rest with
  | zero =>
    obtain rfl : n = 0 := Nat.lt_one_iff.1 hn
    rfl
  | succ w ih =>
    have hhead : number? bs i w = some (n / 10) := by
      have hless : n / 10 < 10 ^ w :=
        Nat.div_lt_of_lt_mul (by rwa [Nat.pow_succ, Nat.mul_comm] at hn)
      have hmore : bs.drop i = digitBytes w (n / 10) ++ ([lastByte n] ++ rest) := by
        rw [hdrop, digitBytes, List.append_assoc]
      exact ih hless hmore
    have hlast : byteAt bs (i + w) = lastByte n := by
      rw [byteAt_add, hdrop, digitBytes, List.append_assoc, byteAt,
        List.getD_append_right _ _ _ _ (by
        rw [length_digitBytes]), length_digitBytes, Nat.sub_self]
      rfl
    rw [number?] at hhead ⊢
    rw [List.range_succ, List.foldlM_append, hhead]
    simp [hlast, isDigit_lastByte, toNat_lastByte, Nat.div_add_mod']

/-- A date with dashes is read back. -/
theorem date?_dashed (hy : y < 10000) (hm : m < 100) (hd : d < 100)
    (hbs : bs = digitBytes 4 y ++ 45 :: (digitBytes 2 m ++ 45 :: (digitBytes 2 d ++ rest))) :
    dateLength bs = (if bs.length = 7 then 7 else 10) ∧ date? bs 10 = some ⟨y, m, d⟩ := by
  have hyear : number? bs 0 4 = some y := number?_of_drop hy hbs
  have hmonth : number? bs 5 2 = some m := number?_of_drop hm (by rw [hbs]; rfl)
  have hday : number? bs 8 2 = some d := number?_of_drop hd (by rw [hbs]; rfl)
  have hdash : isByte '-' (byteAt bs 4) = true := by
    rw [hbs]
    rfl
  have hdash' : isByte '-' (byteAt bs 7) = true := by
    rw [hbs]
    rfl
  have hweek : isByte 'W' (byteAt bs 5) = false := by
    rw [show byteAt bs 5 = lastByte (m / 10) by rw [hbs]; rfl]
    exact isByte_lastByte _ (by decide)
  constructor
  · rw [dateLength, hdash, hweek]
    rfl
  · simp [date?, hyear, hdash, hweek, hmonth, hdash', hday]

/-- A field of a time before a colon is read, and the time goes on after it. -/
theorem fields?_colon (hn : n < 100) (hstop : i + 3 < stop)
    (hdrop : bs.drop i = digitBytes 2 n ++ 58 :: rest) :
    fields? bs stop (left + 1) true t i = fields? bs stop left true (t.set (2 - left) n)
      (i + 3) := by
  have hcolon : isByte ':' (byteAt bs (i + 2)) = true := by
    rw [byteAt_add, hdrop]
    rfl
  simp [fields?, number?_of_drop hn hdrop, hcolon, Nat.not_le.2 hstop]

/-- The last field of a time is read, and whether a byte follows it. -/
theorem fields?_last (hn : n < 100) (hstop : stop ≤ i + 3)
    (hdrop : bs.drop i = digitBytes 2 n ++ rest) :
    fields? bs stop (left + 1) true t i =
      some { t.set (2 - left) n with more := byteAt rest 0 != 0 } := by
  have hnext : byteAt bs (i + 2) = byteAt rest 0 := by
    rw [byteAt_add, hdrop]
    rfl
  simp [fields?, number?_of_drop hn hdrop, hnext, hstop]

/-- A time with seconds is read back. -/
theorem clockTime?_seconds (hh : h < 100) (hm : m < 100) (hs : s < 100)
    (hdrop : bs.drop i = digitBytes 2 h ++ 58 ::
        (digitBytes 2 m ++ 58 :: (digitBytes 2 s ++ rest))) :
    clockTime? bs i (i + 8) = some ⟨h, m, s, 0, byteAt rest 0 != 0⟩ := by
  have hminutes : bs.drop (i + 3) = digitBytes 2 m ++ 58 :: (digitBytes 2 s ++ rest) := by
    rw [← List.drop_drop, hdrop]
    rfl
  have hseconds : bs.drop (i + 3 + 3) = digitBytes 2 s ++ rest := by
    rw [← List.drop_drop, hminutes]
    rfl
  rw [clockTime?, fields?_colon hh (by omega) hdrop, fields?_colon hm (by omega) hminutes,
    fields?_last hs (by omega) hseconds]
  rfl

/-- A time without seconds is read back. -/
theorem clockTime?_minutes (hh : h < 100) (hm : m < 100)
    (hdrop : bs.drop i = digitBytes 2 h ++ 58 :: (digitBytes 2 m ++ rest)) :
    clockTime? bs i (i + 5) = some ⟨h, m, 0, 0, byteAt rest 0 != 0⟩ := by
  have hminutes : bs.drop (i + 3) = digitBytes 2 m ++ rest := by
    rw [← List.drop_drop, hdrop]
    rfl
  rw [clockTime?, fields?_colon hh (by omega) hdrop, fields?_last hm (by omega) hminutes]
  rfl

/-- The bytes of a time with seconds. -/
def clockBytes (h m s : Nat) : Bytes :=
  digitBytes 2 h ++ 58 :: (digitBytes 2 m ++ 58 :: digitBytes 2 s)

/-- No byte of a time starts an offset. -/
theorem startsOffset_of_mem_clockBytes (hb : b ∈ clockBytes h m s) : startsOffset b = false := by
  have hdigit (n : Nat) : startsOffset (lastByte n) = false := by
    rw [startsOffset, isByte_lastByte _ (by decide), isByte_lastByte _ (by decide),
      isByte_lastByte _ (by decide)]
    rfl
  simp only [clockBytes, digitBytes, List.nil_append, List.cons_append, List.mem_cons,
    List.not_mem_nil, or_false] at hb
  rcases hb with rfl | rfl | rfl | rfl | rfl | rfl | rfl | rfl
  all_goals first | exact hdigit _ | rfl

/-- The offset is searched for behind the time. -/
theorem offsetPlace_of_clock (hdrop : bs.drop i = clockBytes h m s ++ rest)
    (hrest : ∀ b ∈ rest.head?, startsOffset b = true) : offsetPlace bs i = i + 8 := by
  have hlength : i < bs.length := by
    by_contra hge
    rw [List.drop_eq_nil_of_le (Nat.not_lt.1 hge)] at hdrop
    cases hdrop
  have htime : ((clockBytes h m s ++ rest).takeWhile fun b => !startsOffset b) =
      clockBytes h m s := by
    rw [List.takeWhile_append_of_pos fun b hb => by rw [startsOffset_of_mem_clockBytes hb]; rfl]
    cases rest with
    | nil => exact List.append_nil _
    | cons b rest => rw [List.takeWhile_cons_of_neg (by simp [hrest b rfl]), List.append_nil]
  rw [offsetPlace, hdrop, htime, if_neg (Nat.not_le.2 hlength)]
  exact Nat.max_eq_left (Nat.le_add_right i _)

/-- A time without an offset is read back. -/
theorem timeAndOffset?_plain (hh : h < 100) (hm : m < 100) (hs : s < 100)
    (hdrop : bs.drop i = clockBytes h m s) (hlength : bs.length = i + 8) :
    timeAndOffset? bs i = some (⟨h, m, s, 0, false⟩, 0) := by
  have hend : bs.drop i = clockBytes h m s ++ [] := by rw [hdrop, List.append_nil]
  have htime : clockTime? bs i (i + 8) = some ⟨h, m, s, 0, false⟩ :=
    clockTime?_seconds hh hm hs hend
  have hplace : offsetPlace bs i = i + 8 := offsetPlace_of_clock hend fun b hb => nomatch hb
  simp [timeAndOffset?, hplace, htime, hlength]

/-- A time with an offset in hours and minutes is read back. -/
theorem timeAndOffset?_shifted {behind : Bool} {k : Nat} (hh : h < 100) (hm : m < 100)
    (hs : s < 100) (hk : k < 1440) (hdrop : bs.drop i = clockBytes h m s ++
      (if behind then 45 else 43) :: (digitBytes 2 (k / 60) ++ 58 :: digitBytes 2 (k % 60))) :
    timeAndOffset? bs i =
      some (⟨h, m, s, 0, true⟩, (if behind then -(k : Int) else k) * 60000000) := by
  have hsign : bs.drop (i + 8) = (if behind then 45 else 43) ::
      (digitBytes 2 (k / 60) ++ 58 :: digitBytes 2 (k % 60)) := by
    rw [← List.drop_drop, hdrop]
    rfl
  have hoffset : bs.drop (i + 8 + 1) = digitBytes 2 (k / 60) ++ 58 ::
      (digitBytes 2 (k % 60) ++ []) := by
    rw [← List.drop_drop, hsign]
    rfl
  have hlength : bs.length = i + 8 + 1 + 5 := by
    have := congrArg List.length hoffset
    rw [List.length_drop] at this
    simp only [List.length_append, length_digitBytes, List.length_cons, List.length_nil] at this
    omega
  have htime : clockTime? bs i (i + 8) = some ⟨h, m, s, 0, true⟩ := by
    rw [clockTime?_seconds hh hm hs hdrop]
    cases behind <;> rfl
  have hshift : clockTime? bs (i + 8 + 1) bs.length = some ⟨k / 60, k % 60, 0, 0, false⟩ := by
    rw [hlength, clockTime?_minutes (by omega) (by omega) hoffset]
    rfl
  have hplace : offsetPlace bs i = i + 8 := by
    refine offsetPlace_of_clock hdrop fun b hb => ?_
    obtain rfl := Option.some.inj hb
    cases behind <;> rfl
  have hminutes : k / 60 * 3600 + k % 60 * 60 + 0 = k * 60 := by omega
  have hmicros : offset? behind ⟨k / 60, k % 60, 0, 0, false⟩ =
      some ((if behind then -(k : Int) else k) * 60000000) := by
    unfold offset? Moment.dayMicros
    simp only [hminutes]
    have hless : (if ((k * 60 : Nat) : Int) = 0 then (0 : Int) else ((k * 60 : Nat) : Int) *
        1000000 + (0 : Nat)) =
        k * 60000000 := by
      split_ifs <;> omega
    rw [hless, if_pos (by omega)]
    cases behind <;> simp
  have hbyte : byteAt bs (i + 8) = if behind then 45 else 43 := byteAt_of_drop hsign
  have hzulu : isByte 'Z' (if behind then 45 else 43) = false := by cases behind <;> rfl
  have hminus : isByte '-' (if behind then 45 else 43) = behind := by cases behind <;> rfl
  rw [timeAndOffset?, hplace, htime]
  simp [hlength ▸ hshift, hlength, hbyte, hzulu, hminus, hmicros]

end MomentReader

namespace WrittenMoment

open MomentReader

variable (w : WrittenMoment)

theorem clockText_utf8 : w.clockText.flatMap String.utf8EncodeChar =
    digitBytes 4 w.date.year ++ 45 ::
      (digitBytes 2 w.date.month ++ 45 :: (digitBytes 2 w.date.day ++
      84 :: clockBytes w.hour w.minute w.second)) := by
  simp only [clockText, List.flatMap_append, List.flatMap_cons, utf8_digits]
  rfl

/-- A text is read as the moment if its bytes are those of the date and then of a time and an
offset that are read. -/
theorem read?_of_timeAndOffset? {cs : List Char} {rest : Bytes} {offset : Int} (more : Bool)
    (hbytes : cs.flatMap String.utf8EncodeChar =
      digitBytes 4 w.date.year ++ 45 ::
      (digitBytes 2 w.date.month ++ 45 :: (digitBytes 2 w.date.day ++ 84 :: rest)))
    (hlength : 7 < cs.length) (hrest : rest ≠ [])
    (htime : timeAndOffset? (cs.flatMap String.utf8EncodeChar) 11 =
      some (⟨w.hour, w.minute, w.second, 0, more⟩, offset)) :
    read? cs = some ⟨w.date, w.hour, w.minute, w.second, 0, offset⟩ := by
  obtain ⟨⟨hyear, hlast⟩, hday⟩ := Calendar.Date.isValid_iff.1 w.date_valid
  have hmonth := hday.month_le
  have hdays := hday.day_le.trans (Calendar.daysInMonth_le w.date.year w.date.month)
  obtain ⟨hdatelength, hdate⟩ :=
    date?_dashed (show w.date.year < 10000 by omega) (show w.date.month < 100 by omega)
    (show w.date.day < 100 by omega) hbytes
  have hmany : 11 < (cs.flatMap String.utf8EncodeChar).length := by
    rw [hbytes]
    simp only [List.length_append, List.length_cons, length_digitBytes]
    have := List.length_pos_iff.2 hrest
    omega
  have hwidth : charWidth (byteAt (cs.flatMap String.utf8EncodeChar) 10) = 1 := by
    rw [hbytes]
    rfl
  rw [if_neg (by omega)] at hdatelength
  unfold read?
  rw [if_neg (by omega)]
  dsimp only
  rw [hdatelength, hdate, Option.bind_eq_bind, Option.bind_some, if_neg (by omega), hwidth, htime]
  show moment? w.date _ offset = _
  rw [moment?, w.date_valid, decide_eq_true w.hour_lt, decide_eq_true w.minute_lt,
    decide_eq_true w.second_lt]
  rfl

theorem length_clockText : w.clockText.length = 19 := by
  simp only [clockText, List.length_append, List.length_cons, length_digits]

/-- A moment without an offset is read in universal time. -/
theorem read?_clockText : read? w.clockText = some ⟨w.date, w.hour, w.minute, w.second, 0, 0⟩ := by
  have hour_lt := w.hour_lt
  have minute_lt := w.minute_lt
  have second_lt := w.second_lt
  have hdrop : (w.clockText.flatMap String.utf8EncodeChar).drop 11 =
      clockBytes w.hour w.minute w.second := by
    rw [clockText_utf8]
    rfl
  refine w.read?_of_timeAndOffset? false w.clockText_utf8 (by rw [length_clockText]; decide)
    (by simp [clockBytes]) ?_
  refine timeAndOffset?_plain (by omega) (by omega) (by omega) hdrop ?_
  rw [clockText_utf8]
  rfl

/-- A moment with an offset is read with it. -/
theorem read?_shifted (behind : Bool) (k : Fin 1440) :
    read? (w.clockText ++ (Zone.shifted behind k).text) =
    some ⟨w.date, w.hour, w.minute, w.second, 0, (Zone.shifted behind k).minutes * 60000000⟩ := by
  have hour_lt := w.hour_lt
  have minute_lt := w.minute_lt
  have second_lt := w.second_lt
  have hzone : (Zone.shifted behind k).text.flatMap String.utf8EncodeChar =
      (if behind then 45 else 43) ::
        (digitBytes 2 (k.val / 60) ++ 58 :: digitBytes 2 (k.val % 60)) := by
    rw [Zone.text, List.flatMap_cons, List.flatMap_append, List.flatMap_cons, utf8_digits,
      utf8_digits]
    cases behind <;> rfl
  have hbytes : (w.clockText ++ (Zone.shifted behind k).text).flatMap String.utf8EncodeChar =
      digitBytes 4 w.date.year ++ 45 ::
        (digitBytes 2 w.date.month ++ 45 :: (digitBytes 2 w.date.day ++
        84 :: (clockBytes w.hour w.minute w.second ++
          (if behind then 45 else 43) ::
            (digitBytes 2 (k.val / 60) ++ 58 :: digitBytes 2 (k.val % 60))))) := by
    rw [List.flatMap_append, w.clockText_utf8, hzone]
    simp only [List.append_assoc, List.cons_append]
  refine w.read?_of_timeAndOffset? true hbytes ?_ (by simp [clockBytes]) ?_
  · rw [List.length_append, length_clockText]
    omega
  · refine timeAndOffset?_shifted (by omega) (by omega) (by omega) k.isLt ?_
    rw [hbytes]
    rfl

/-- The characters of a moment as it is written. -/
theorem mem_clockText_append_text {c : Char} (h : c ∈ w.clockText ++ w.zone.text) :
    c ∈ "0123456789-T:+Z".toList := by
  have hdigit : ∀ {width n : Nat}, c ∈ digits width n → c ∈ "0123456789-T:+Z".toList := fun hc => by
    have hsub : ['0', '1', '2', '3', '4', '5', '6', '7', '8', '9'] ⊆
        "0123456789-T:+Z".toList := by decide
    exact hsub (mem_digits hc)
  rcases List.mem_append.1 h with h | h
  · simp only [clockText, List.mem_append, List.mem_cons] at h
    rcases h with h | rfl | h | rfl | h | rfl | h | rfl | h | rfl | h
    all_goals first | exact hdigit h | decide
  · cases hz : w.zone with
    | unsaid =>
      rw [hz] at h
      cases h
    | universal =>
      rw [hz] at h
      obtain rfl := List.mem_singleton.1 h
      decide
    | shifted behind k =>
      rw [hz] at h
      simp only [Zone.text, List.mem_append, List.mem_cons] at h
      rcases h with rfl | h | rfl | h
      · cases behind <;> decide
      · exact hdigit h
      · decide
      · exact hdigit h

/-- The blanks around a moment are trimmed. -/
theorem trim_toList_text : Text.trim w.text.toList = w.clockText ++ w.zone.text := by
  have hnone : "0123456789-T:+Z".toList.any Text.isBlank = false := by decide
  have hne : w.clockText ++ w.zone.text ≠ [] := by
    rw [← List.length_pos_iff, List.length_append, length_clockText]
    omega
  have hnoblank : ∀ c ∈ w.clockText ++ w.zone.text, Text.isBlank c = false :=
    fun c hc => Bool.eq_false_iff.2 (List.any_eq_false.1 hnone c (w.mem_clockText_append_text hc))
  rw [text, String.toList_ofList, Text.trim_append_blanks w.after_blank,
    ← List.append_nil (w.clockText ++ w.zone.text), Text.trim_append w.before_blank hne hnoblank]
  rfl

/-- **The moment is read back.** -/
theorem ofDate?_text : Moment.ofDate? w.text = some w.moment := by
  have hdigit (n : Nat) : ¬(some (lastDigit n) == some 'Z') = true := by
    intro hlast
    have hnone : 'Z' ∉ ['0', '1', '2', '3', '4', '5', '6', '7', '8', '9'] := by decide
    exact hnone (Option.some.inj (beq_iff_eq.1 hlast) ▸ lastDigit_cases n)
  rw [Moment.ofDate?, ofCommitDate?, trim_toList_text, moment]
  cases w.zone with
  | unsaid =>
    have hlast : (w.clockText ++ Zone.unsaid.text).getLast? = some (lastDigit w.second) := rfl
    rw [hlast, if_neg (hdigit _), Zone.text, List.append_nil, read?_clockText]
    rfl
  | universal =>
    have hlast : (w.clockText ++ Zone.universal.text).getLast? = some 'Z' := rfl
    have hzero : "+00:00".toList = (Zone.shifted false 0).text := by decide
    rw [hlast, if_pos BEq.rfl, Zone.text, List.dropLast_concat, hzero, read?_shifted]
    rfl
  | shifted behind k =>
    have hlast : (w.clockText ++ (Zone.shifted behind k).text).getLast? =
        some (lastDigit (k.val % 60)) := rfl
    rw [hlast, if_neg (hdigit _), read?_shifted]

end WrittenMoment
end CodeSurvey
