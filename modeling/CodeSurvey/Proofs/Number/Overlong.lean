/-
# Where readers give up

A reader takes a text from its head on and leaves an end of it, or it gives up with a fault. Two
faults lie with the machine and not with the form of the text: a numeral may have more digits than
can be converted, and a value may stand inside too many others. A reader stays within its text
(`Reading.Within`) if what it gives up for stands there: digits in one piece, underscores between
some of them, more of them than can be converted (`Numeral.StandsIn`); or a place for which room is
lacking, no deeper than the brackets before it allow (`Reading.Room.Lacks`). Readers that stay
within their texts do so one after the other (`Reading.Within.bind`).
-/

import CodeSurvey.Number.Numeral
import Mathlib.Algebra.Group.Nat.Defs
import Mathlib.Data.List.Infix

namespace CodeSurvey
namespace Numeral

/-- An integer has too many digits from a power of ten on. -/
theorem isEndless_iff {n : Int} : isEndless n = true ↔ 10 ^ maxDigits ≤ n.natAbs := by
  rw [isEndless, decide_eq_true_iff, ← Nat.not_le, Binary64.digitCount,
    Nat.length_toDigits_le_iff (by decide) (by decide), Nat.not_lt]

/-- Whether a numeral of `n` digits stands in a text, underscores between some of them. -/
def StandsIn (n : Nat) (cs : List Char) : Prop :=
  ∃ run, run <:+: cs ∧ (∀ c ∈ run, Text.isDigitAscii c = true ∨ c = '_') ∧
    run.countP Text.isDigitAscii = n

theorem StandsIn.of_suffix {n : Nat} {cs ds : List Char} (h : StandsIn n ds) (hs : ds <:+ cs) :
    StandsIn n cs := by
  obtain ⟨run, hrun, hchars, hcount⟩ := h
  exact ⟨run, hrun.trans hs.isInfix, hchars, hcount⟩

/-- Digits at the head of a text stand in it. -/
theorem StandsIn.of_digits {ds cs : List Char} (h : ds <+: cs)
    (hdigits : ∀ c ∈ ds, Text.isDigitAscii c = true) : StandsIn ds.length cs :=
  ⟨ds, h.isInfix, fun c hc => .inl (hdigits c hc), List.countP_eq_length.2 hdigits⟩

theorem suffix_signAndRest (cs : List Char) : (signAndRest cs).2 <:+ cs := by
  unfold signAndRest
  split
  · exact List.suffix_cons ..
  · exact List.suffix_cons ..
  · exact List.suffix_refl _

/-- A text without a line feed that starts a text after its line ends were
unified started it before. -/
theorem prefix_of_unifyLineEnds {run cs : List Char} (hrun : '\n' ∉ run)
    (h : run <+: Text.unifyLineEnds cs) : run <+: cs := by
  fun_induction Text.unifyLineEnds cs generalizing run with
  | case1 => exact h
  | case2 r ih =>
    rcases List.prefix_cons_iff.1 h with rfl | ⟨more, rfl, -⟩
    · exact List.nil_prefix
    · exact absurd (List.mem_cons_self ..) hrun
  | case3 c r _ ih =>
    rcases List.prefix_cons_iff.1 h with rfl | ⟨more, rfl, hmore⟩
    · exact List.nil_prefix
    · exact List.cons_prefix_cons.2 ⟨rfl, ih (fun hm => hrun (List.mem_cons_of_mem c hm)) hmore⟩

/-- A numeral that stands in a text after its line ends were unified stood in it before. -/
theorem StandsIn.of_unifyLineEnds {n : Nat} {cs : List Char}
    (h : StandsIn n (Text.unifyLineEnds cs)) : StandsIn n cs := by
  obtain ⟨run, hinfix, hchars, hcount⟩ := h
  refine ⟨run, ?_, hchars, hcount⟩
  have hrun : '\n' ∉ run := fun hmem => absurd (hchars '\n' hmem) (by decide)
  clear hchars hcount
  fun_induction Text.unifyLineEnds cs with
  | case1 => exact hinfix
  | case2 r ih =>
    rcases List.infix_cons_iff.1 hinfix with hprefix | hrest
    · rw [← Text.unifyLineEnds] at hprefix
      exact (prefix_of_unifyLineEnds hrun hprefix).isInfix
    · exact (ih hrest).trans (List.suffix_append ['\r', '\n'] r).isInfix
  | case3 c r hne ih =>
    rcases List.infix_cons_iff.1 hinfix with hprefix | hrest
    · rw [← Text.unifyLineEnds.eq_3 c r hne] at hprefix
      exact (prefix_of_unifyLineEnds hrun hprefix).isInfix
    · exact (ih hrest).trans (List.suffix_cons c r).isInfix

end Numeral

namespace Reading

/-- What a reader gives up for: a numeral of so many digits, or a value too deep. -/
inductive Stop
  | numeral (digits : Nat)
  | depth

/-- The brackets and braces that open in a text. -/
def openings (cs : List Char) : Nat := cs.countP fun c => c == '[' || c == '\x7b'

/-- The room for a value: whether it can be read inside so many calls, how many calls a container
adds at most, and how many are under way. -/
structure Room where
  fits : (calls : Nat) → List Char → Bool
  perOpening : Nat
  calls : Nat

namespace Room

variable {r : Room} {cs ds : List Char}

/-- Whether room is lacking somewhere in a text: at some place, inside calls that the brackets
before it account for. -/
def Lacks (r : Room) (cs : List Char) : Prop :=
  ∃ before place calls, cs = before ++ place ∧ calls ≤ r.calls + r.perOpening * openings before ∧
    r.fits calls place = false

/-- The room inside some more calls. -/
def inside (r : Room) (more : Nat) : Room := { r with calls := r.calls + more }

theorem lacks_here (h : r.fits r.calls cs = false) : r.Lacks cs :=
  ⟨[], cs, r.calls, rfl, Nat.le_add_right .., h⟩

theorem Lacks.of_calls_le {calls more : Nat} {fits : Nat → List Char → Bool} {perOpening : Nat}
    (h : Lacks ⟨fits, perOpening, calls⟩ cs) (hle : calls ≤ more) :
    Lacks ⟨fits, perOpening, more⟩ cs := by
  obtain ⟨before, place, n, hcs, hn, hfits⟩ := h
  exact ⟨before, place, n, hcs, hn.trans (Nat.add_le_add_right hle _), hfits⟩

theorem Lacks.of_suffix (h : r.Lacks ds) (hs : ds <:+ cs) : r.Lacks cs := by
  obtain ⟨before, place, n, rfl, hn, hfits⟩ := h
  obtain ⟨front, rfl⟩ := hs
  refine ⟨front ++ before, place, n, (List.append_assoc ..).symm, hn.trans ?_, hfits⟩
  refine Nat.add_le_add_left (Nat.mul_le_mul_left _ ?_) _
  rw [openings, openings, List.countP_append]
  exact Nat.le_add_left ..

/-- What stands behind a bracket may stand deeper by the calls that a container adds. -/
theorem Lacks.of_opening {c : Char} {more : Nat} (h : (r.inside more).Lacks ds)
    (hmore : more ≤ r.perOpening) (hc : c = '[' ∨ c = '\x7b') (hs : ds <:+ cs) :
    r.Lacks (c :: cs) := by
  obtain ⟨before, place, n, rfl, hn, hfits⟩ := h
  obtain ⟨front, rfl⟩ := hs
  refine ⟨c :: (front ++ before), place, n, ?_, hn.trans ?_, hfits⟩
  · rw [List.cons_append, List.append_assoc]
  · have hopen : openings (c :: (front ++ before)) = openings front + openings before + 1 := by
      rw [openings, List.countP_cons_of_pos (by rcases hc with rfl | rfl <;> rfl),
        List.countP_append]
      rfl
    have hfront := Nat.mul_le_mul_left r.perOpening
      (Nat.le_add_left (openings before) (openings front))
    show r.calls + more + r.perOpening * openings before ≤ _
    rw [hopen, Nat.mul_succ]
    omega

end Room

variable {ε α β : Type} {stop? : ε → Option Stop} {room : Room} {rest : α → List Char}
  {restOf : β → List Char}
  {cs ds : List Char}

/-- Whether what a reader gave up for is found in a text. -/
def Stop.IsFound (room : Room) (cs : List Char) : Stop → Prop
  | .numeral n => Numeral.maxDigits < n ∧ Numeral.StandsIn n cs
  | .depth => room.Lacks cs

theorem Stop.IsFound.of_suffix {s : Stop} (h : s.IsFound room ds) (hs : ds <:+ cs) :
    s.IsFound room cs := by
  cases s with
  | numeral n => exact ⟨h.1, h.2.of_suffix hs⟩
  | depth => exact Room.Lacks.of_suffix h hs

/-- Whether a reader stayed within a text: what it left of the text is an end of it, and what it
gave up for is found in it. -/
inductive Within (stop? : ε → Option Stop) (room : Room) (rest : α → List Char) (cs : List Char) :
    Except ε α → Prop
  | ok {a : α} (h : rest a <:+ cs) : Within stop? room rest cs (.ok a)
  | error {e : ε} (h : ∀ s, stop? e = some s → s.IsFound room cs) :
      Within stop? room rest cs (.error e)

namespace Within

/-- A fault that lies with the form of a text says nothing else. -/
theorem fault {e : ε} (h : stop? e = none) : Within stop? room rest cs (.error e) :=
  .error fun s hs => by rw [h] at hs; cases hs

theorem of_suffix {x : Except ε α} (h : Within stop? room rest ds x) (hs : ds <:+ cs) :
    Within stop? room rest cs x := by
  cases h with
  | ok h => exact .ok (h.trans hs)
  | error h => exact .error fun s hstop => (h s hstop).of_suffix hs

/-- What is known of a fault does not depend on what is read. -/
theorem of_error {e : ε} (h : Within stop? room rest cs (.error e : Except ε α)) :
    Within stop? room restOf cs (.error e : Except ε β) := by
  cases h with
  | error h => exact .error h

theorem suffix {a : α} (h : Within stop? room rest cs (.ok a)) : rest a <:+ cs := by
  cases h with
  | ok h => exact h

/-- Of two readers one after the other the second works on what the first has left. -/
theorem bind {x : Except ε α} {f : α → Except ε β} (h : Within stop? room rest cs x)
    (hf : ∀ a, Within stop? room restOf (rest a) (f a)) :
    Within stop? room restOf cs (x >>= f) := by
  cases h with
  | ok h => exact (hf _).of_suffix h
  | error h => exact .error h

/-- What is made of the value that a reader of an end of the text gives. -/
theorem map {x : Except ε α} {f : α → β} (h : Within stop? room rest ds x) (hs : ds <:+ cs)
    (hf : ∀ a, restOf (f a) <:+ rest a) : Within stop? room restOf cs (x.map f) := by
  cases h with
  | ok h => exact .ok ((hf _).trans (h.trans hs))
  | error h => exact .error fun s hstop => (h s hstop).of_suffix hs

/-- A reader inside some more calls stays within the text that starts with the
bracket that added them. -/
theorem of_opening {x : Except ε α} {c : Char} {more : Nat}
    (h : Within stop? (room.inside more) rest ds x) (hmore : more ≤ room.perOpening)
    (hc : c = '[' ∨ c = '\x7b') (hs : ds <:+ cs) : Within stop? room rest (c :: cs) x := by
  have hcs : ds <:+ c :: cs := hs.trans (List.suffix_cons c cs)
  cases h with
  | ok h => exact .ok (h.trans hcs)
  | error h =>
    refine .error fun s hstop => ?_
    cases s with
    | numeral n => exact ⟨(h _ hstop).1, (h _ hstop).2.of_suffix hcs⟩
    | depth => exact Room.Lacks.of_opening (h _ hstop) hmore hc hs

/-- A reader inside fewer calls does what one inside more calls may do. -/
theorem of_calls_le {fits : Nat → List Char → Bool} {perOpening calls more : Nat} {x : Except ε α}
    (h : Within stop? ⟨fits, perOpening, calls⟩ rest cs x) (hle : calls ≤ more) :
    Within stop? ⟨fits, perOpening, more⟩ rest cs x := by
  cases h with
  | ok h => exact .ok h
  | error h =>
    refine .error fun s hstop => ?_
    cases s with
    | numeral n => exact h _ hstop
    | depth => exact Room.Lacks.of_calls_le (h _ hstop) hle

end Within
end Reading
end CodeSurvey
