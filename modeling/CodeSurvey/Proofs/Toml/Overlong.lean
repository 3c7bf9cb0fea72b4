/-
# Where the reader of TOML gives up

Each reader of TOML leaves an end of its text, and what it gives up for stands in the text. A
decimal number is the one place where a numeral can be too long (`Toml.within_numeral`), and a value
the one that can be too deep; strings, keys and values pass on what is known of their parts
(`Toml.nestedWithin`), and so does a document of its statements (`Toml.within_read`).
-/

import CodeSurvey.Proofs.Number.Overlong
import CodeSurvey.Toml.Reader

namespace CodeSurvey
namespace Toml

open Reading (Room Stop Within)

/-- What a reader gave up for, if that does not lie with the form of the text. -/
def stop? : Fault → Option Stop
  | .longInteger n => some (.numeral n)
  | .tooDeep => some .depth
  | .malformed => none

/-- The room for a value inside some calls. -/
def roomAt (fits : Nat → List Char → Bool) (calls : Nat) : Room := ⟨fits, callsPerTable, calls⟩

variable {space : Room}

theorem suffix_afterSpace (cs : List Char) : afterSpace cs <:+ cs := List.dropWhile_suffix isSpace

section Strings

/-- A comment is left out, and it holds no number. -/
theorem within_afterComment (cs : List Char) : Within stop? space id cs (afterComment cs) := by
  unfold afterComment
  split
  · split
    · exact .fault rfl
    · exact .ok ((List.dropWhile_suffix _).trans (List.suffix_cons ..))
  · exact .ok (List.suffix_refl _)

/-- Blanks, line ends and comments are left out. -/
theorem within_afterGap (cs : List Char) : Within stop? space id cs (afterGap cs) := by
  fun_induction afterGap cs with
  | case1 => exact .fault rfl
  | case2 cs r h _ ih =>
    have hr : r <:+ cs := (List.suffix_cons '#' r).trans (h ▸ List.dropWhile_suffix isGap)
    exact ih.of_suffix ((List.dropWhile_suffix _).trans hr)
  | case3 cs => exact .ok (List.dropWhile_suffix isGap)

theorem suffix_of_cutAtWord {word cs s r : List Char} (h : cutAtWord word cs = some (s, r)) :
    r <:+ cs := by
  induction cs generalizing s r with
  | nil => cases h
  | cons c cs ih =>
    rw [cutAtWord] at h
    split_ifs at h
    · cases h
      exact List.drop_suffix _ _
    · obtain ⟨⟨a, b⟩, hcut, hp⟩ := Option.map_eq_some_iff.1 h
      cases hp
      exact (ih hcut).trans (List.suffix_cons c cs)

theorem suffix_of_afterJoin {cs r : List Char} (h : afterJoin cs = some r) : r <:+ cs := by
  unfold afterJoin at h
  split at h
  · cases h
    exact List.nil_suffix
  · rename_i c t ht
    split_ifs at h
    cases h
    exact (List.dropWhile_suffix isGap).trans
      ((List.suffix_cons c t).trans (ht ▸ List.dropWhile_suffix isSpace))

theorem within_basicString (manyLines : Bool) (cs : List Char) :
    Within stop? space Prod.snd cs (basicString manyLines cs) := by
  fun_induction basicString manyLines cs with
  | case2 => exact .ok (List.suffix_cons ..)
  | case3 r => exact .ok ((List.drop_suffix 2 r).trans (List.suffix_cons ..))
  | case4 r _ _ ih => exact Within.map ih (List.suffix_cons ..) fun _ => List.suffix_refl _
  | case7 e r _ t h ih => exact ih.of_suffix ((suffix_of_afterJoin h).trans (List.suffix_cons ..))
  | case9 e r _ _ width c _ ih =>
    exact Within.map ih ((List.drop_suffix width r).trans (List.suffix_append ['\\', e] r)) fun _ =>
      List.suffix_refl _
  | case11 e r _ _ c _ ih =>
    exact Within.map ih (List.suffix_append ['\\', e] r) fun _ => List.suffix_refl _
  | case13 c r _ _ _ _ ih => exact Within.map ih (List.suffix_cons c r) fun _ => List.suffix_refl _
  | case1 | case5 | case6 | case8 | case10 | case12 => exact .fault rfl

theorem within_literalString (cs : List Char) :
    Within stop? space Prod.snd cs (literalString cs) := by
  unfold literalString
  split
  · exact .fault rfl
  · rename_i hcut
    split_ifs
    · exact .fault rfl
    · exact .ok (suffix_of_cutAtWord hcut)

theorem suffix_afterBreak (cs : List Char) : afterBreak cs <:+ cs := by
  unfold afterBreak
  split
  · exact List.suffix_cons ..
  · exact List.suffix_refl _

theorem suffix_withLastQuotes (quote : Char) (s cs : List Char) :
    (withLastQuotes quote s cs).2 <:+ cs := by
  unfold withLastQuotes
  split
  · rename_i a b r
    split_ifs
    · exact List.suffix_refl _
    · exact List.suffix_cons a (b :: r)
    · exact List.suffix_append [a, b] r
  · split_ifs
    · exact List.suffix_refl _
    · exact List.nil_suffix
  · exact List.suffix_refl _

theorem within_string (cs : List Char) : Within stop? space Prod.snd cs (string cs) := by
  unfold string
  split
  · rename_i r
    exact Within.map (within_basicString true (afterBreak r))
      ((suffix_afterBreak r).trans (List.suffix_append ['"', '"', '"'] r))
      fun p => suffix_withLastQuotes '"' p.1 p.2
  · exact (within_basicString false _).of_suffix (List.suffix_cons ..)
  · rename_i r
    split
    · exact .fault rfl
    · rename_i s t hcut
      split_ifs
      · exact .fault rfl
      · have ht : t <:+ r := (suffix_of_cutAtWord hcut).trans (suffix_afterBreak r)
        exact .ok ((suffix_withLastQuotes _ s t).trans
          (ht.trans (List.suffix_append ['\x27', '\x27', '\x27'] r)))
  · exact (within_literalString _).of_suffix (List.suffix_cons ..)
  · exact .fault rfl

end Strings

section Moments

variable {α β : Type} {rest : α → List Char} {restOf : β → List Char} {cs : List Char}

/-- Whether a reader that finds something leaves an end of the text. -/
def EndsIn (rest : α → List Char) (cs : List Char) (x : Option α) : Prop :=
  ∀ a, x = some a → rest a <:+ cs

theorem EndsIn.some {a : α} (h : rest a <:+ cs) : EndsIn rest cs (some a) :=
  fun _ hb => Option.some.inj hb ▸ h

theorem EndsIn.none : EndsIn rest cs none := fun _ h => nomatch h

theorem EndsIn.bind {x : Option α} {f : α → Option β} (h : EndsIn rest cs x)
    (hf : ∀ a, EndsIn restOf (rest a) (f a)) : EndsIn restOf cs (x >>= f) := by
  intro b hb
  obtain ⟨a, ha, hfa⟩ := Option.bind_eq_some_iff.1 hb
  exact (hf a b hfa).trans (h a ha)

theorem endsIn_fixedNumber? (width low high : Nat) (cs : List Char) :
    EndsIn Prod.snd cs (fixedNumber? width low high cs) := by
  unfold fixedNumber?
  dsimp only
  split
  · exact .none
  · split_ifs
    · exact .some (List.drop_suffix width cs)
    · exact .none

theorem endsIn_afterChar? (p : Char → Bool) (cs : List Char) : EndsIn id cs (afterChar? p cs) := by
  unfold afterChar?
  split
  · exact .none
  · split_ifs
    · exact .some (List.suffix_cons ..)
    · exact .none

theorem endsIn_afterTime? (cs : List Char) : EndsIn id cs (afterTime? cs) := by
  refine (endsIn_fixedNumber? 2 0 23 cs).bind fun hour => ?_
  refine (endsIn_afterChar? _ _).bind fun _ => (endsIn_fixedNumber? 2 0 59 _).bind fun minute => ?_
  refine (endsIn_afterChar? _ _).bind fun _ => (endsIn_fixedNumber? 2 0 59 _).bind fun second => ?_
  dsimp only
  split
  · rename_i r h
    split_ifs
    · exact .some ((List.dropWhile_suffix _).trans (h ▸ List.suffix_cons '.' r))
    · exact .some (List.suffix_refl _)
  · exact .some (List.suffix_refl _)

theorem endsIn_afterOffset? (cs : List Char) : EndsIn id cs (afterOffset? cs) := by
  unfold afterOffset?
  split
  · rename_i r h
    exact .some (endsIn_afterChar? _ _ r h)
  · refine (endsIn_afterChar? _ cs).bind fun _ => (endsIn_fixedNumber? 2 0 23 _).bind fun hour => ?_
    refine (endsIn_afterChar? _ _).bind fun _ =>
      (endsIn_fixedNumber? 2 0 59 _).bind fun minute => ?_
    exact .some (List.suffix_refl _)

/-- What is left after something that may be missing. -/
theorem EndsIn.getD {x : Option (List Char)} (h : EndsIn id cs x) : x.getD cs <:+ cs := by
  cases x with
  | none => exact List.suffix_refl cs
  | some r => exact h r rfl

theorem endsIn_date? (cs : List Char) : EndsIn Prod.snd cs (date? cs) := by
  refine (endsIn_fixedNumber? 4 0 9999 cs).bind fun year => ?_
  refine (endsIn_afterChar? _ _).bind fun _ => (endsIn_fixedNumber? 2 1 12 _).bind fun month => ?_
  refine (endsIn_afterChar? _ _).bind fun _ => (endsIn_fixedNumber? 2 1 31 _).bind fun day => ?_
  refine .some (EndsIn.getD ?_)
  refine (endsIn_afterChar? _ _).bind fun _ => (endsIn_afterTime? _).bind fun r => ?_
  exact .some (EndsIn.getD (endsIn_afterOffset? r))

end Moments

section Numbers

/-- Whether what was found of a text is its head of digits and underscores: the digits, and
the text behind them. -/
def IsRun (p : Char → Bool) (cs : List Char) (found : List Char × List Char) : Prop :=
  ∃ run, run ++ found.2 = cs ∧ (∀ c ∈ run, p c = true ∨ c = '_') ∧ run.countP p = found.1.length

namespace IsRun

variable {p : Char → Bool} {cs ds t : List Char}

theorem nil : IsRun p cs ([], cs) := ⟨[], rfl, fun _ h => (nomatch h), rfl⟩

theorem cons {c : Char} (hc : p c = true) (h : IsRun p cs (ds, t)) :
    IsRun p (c :: cs) (c :: ds, t) := by
  obtain ⟨run, happend, hchars, hcount⟩ := h
  refine ⟨c :: run, congrArg (c :: ·) happend, List.forall_mem_cons.2 ⟨.inl hc, hchars⟩, ?_⟩
  rw [List.countP_cons_of_pos hc, hcount]
  rfl

theorem underscore (hp : p '_' = false) (h : IsRun p cs (ds, t)) : IsRun p ('_' :: cs) (ds, t) := by
  obtain ⟨run, happend, hchars, hcount⟩ := h
  refine ⟨'_' :: run, congrArg ('_' :: ·) happend, List.forall_mem_cons.2 ⟨.inr rfl, hchars⟩, ?_⟩
  rw [List.countP_cons_of_neg (by rw [hp]; exact Bool.false_ne_true), hcount]

theorem suffix {found : List Char × List Char} (h : IsRun p cs found) : found.2 <:+ cs := by
  obtain ⟨run, happend, -⟩ := h
  exact ⟨run, happend⟩

end IsRun

theorem isRun_go {p : Char → Bool} (hp : p '_' = false) (cs : List Char) :
    IsRun p cs (digitRun.go p cs) := by
  fun_induction digitRun.go p cs with
  | case1 d r hd ds t hgo ih => exact .underscore hp (.cons hd (hgo ▸ ih))
  | case2 => exact .nil
  | case3 c r _ hc ds t hgo ih => exact .cons hc (hgo ▸ ih)
  | case4 => exact .nil
  | case5 => exact .nil

theorem isRun_digitRun {p : Char → Bool} (hp : p '_' = false) (cs : List Char) :
    IsRun p cs (digitRun p cs) := by
  unfold digitRun
  split
  · exact .nil
  · split_ifs with hc
    · exact .cons hc (isRun_go hp _)
    · exact .nil

theorem isDigitAscii_underscore : Text.isDigitAscii '_' = false := by decide

theorem isRun_wholePart (cs : List Char) : IsRun Text.isDigitAscii cs (wholePart cs) := by
  unfold wholePart
  split
  · exact .cons (by decide) .nil
  · exact isRun_digitRun isDigitAscii_underscore _

theorem suffix_fractionPart (cs : List Char) : (fractionPart cs).2 <:+ cs := by
  unfold fractionPart
  split
  · rename_i r
    dsimp only
    split_ifs
    · exact List.suffix_refl _
    · exact (isRun_digitRun isDigitAscii_underscore r).suffix.trans (List.suffix_cons '.' r)
  · exact List.suffix_refl _

theorem suffix_exponentPart (cs : List Char) : (exponentPart cs).2 <:+ cs := by
  unfold exponentPart
  split
  · exact List.suffix_refl _
  · rename_i c r
    dsimp only
    split
    · split
      · exact List.suffix_refl _
      · have hdigits := (isRun_digitRun isDigitAscii_underscore (Numeral.signAndRest r).2).suffix
        exact hdigits.trans ((Numeral.suffix_signAndRest r).trans (List.suffix_cons c r))
    · exact List.suffix_refl _

/-- A decimal number that is refused as too long stands in the text. -/
theorem within_decimal? {cs : List Char} {x : Except Fault (Rest Toml)} (h : decimal? cs = some x) :
    Within stop? space Prod.snd cs x := by
  have hsign := Numeral.suffix_signAndRest cs
  have hrun := isRun_wholePart (Numeral.signAndRest cs).2
  have hrest := (suffix_exponentPart _).trans
    ((suffix_fractionPart _).trans (hrun.suffix.trans hsign))
  unfold decimal? at h
  dsimp only at h
  split at h
  · cases h
  · cases h
    split
    · split
      · rename_i hlong
        refine .error fun s hs => ?_
        obtain rfl := Option.some.inj hs
        obtain ⟨run, happend, hchars, hcount⟩ := hrun
        refine ⟨hlong, Numeral.StandsIn.of_suffix ⟨run, List.IsPrefix.isInfix ⟨_, happend⟩, hchars,
          hcount⟩ hsign⟩
      · exact .ok hrest
    · exact .ok hrest

theorem suffix_of_based? {cs r : List Char} {v : Toml} (h : based? cs = some (v, r)) :
    r <:+ cs := by
  unfold based? at h
  split at h
  · rename_i t
    unfold basedInteger? at h
    split at h
    · rename_i c t
      dsimp only at h
      generalize (if c == 'x' then 16 else if c == 'b' then 2 else if c == 'o' then 8
        else 0) = base at h
      have hrun := isRun_digitRun (p := fun d => (hexValue? d).any (· < base)) rfl t
      split_ifs at h
      cases h
      exact hrun.suffix.trans (List.suffix_append ['0', c] t)
    · cases h
  · cases h

theorem suffix_of_specialNumber? {cs r : List Char} {v : Toml}
    (h : specialNumber? cs = some (v, r)) : r <:+ cs := by
  have hsign := Numeral.suffix_signAndRest cs
  unfold specialNumber? at h
  dsimp only at h
  split_ifs at h
  · cases h
    exact (List.drop_suffix 3 _).trans hsign
  · cases h
    exact (List.drop_suffix 3 _).trans hsign

/-- A date, a time or a number. -/
theorem within_numeral (cs : List Char) : Within stop? space Prod.snd cs (numeral cs) := by
  unfold numeral
  split
  · rename_i d r h
    split_ifs
    · exact .ok (endsIn_date? cs _ h)
    · exact .fault rfl
  · split
    · rename_i r h
      exact .ok (endsIn_afterTime? cs r h)
    · split
      · rename_i h
        exact .ok (suffix_of_based? h)
      · split
        · rename_i h
          exact within_decimal? h
        · split
          · rename_i h
            exact .ok (suffix_of_specialNumber? h)
          · exact .fault rfl

end Numbers

section Values

theorem within_keyPart (cs : List Char) : Within stop? space Prod.snd cs (keyPart cs) := by
  unfold keyPart
  split
  · exact .fault rfl
  · rename_i c r
    split_ifs
    · exact .ok (List.dropWhile_suffix _)
    · exact Within.map (within_literalString r) (List.suffix_cons c r) fun _ => List.suffix_refl _
    · exact Within.map (within_basicString false r) (List.suffix_cons c r) fun _ =>
        List.suffix_refl _
    · exact .fault rfl

theorem within_key (allowed : Nat) (cs : List Char) :
    Within stop? space Prod.snd cs (key allowed cs) := by
  induction allowed generalizing cs with
  | zero => exact .fault rfl
  | succ allowed ih =>
    rw [key]
    refine (within_keyPart cs).bind fun p => ?_
    obtain ⟨k, r⟩ := p
    dsimp only
    split
    · rename_i t h
      have ht : afterSpace t <:+ r :=
        (suffix_afterSpace t).trans ((List.suffix_cons '.' t).trans (h ▸ suffix_afterSpace r))
      exact ((ih _).of_suffix ht).bind fun _ => .ok (List.suffix_refl _)
    · exact .ok (suffix_afterSpace r)

variable {fits : Nat → List Char → Bool}

/-- Whether the readers of values, of the items of arrays and of the pairs of inline tables stay
within their texts, with a bound on the nesting. -/
structure NestedWithin (fits : Nat → List Char → Bool) (allowed : Nat) : Prop where
  value : ∀ calls cs, Within stop? (roomAt fits calls) Prod.snd cs (value fits allowed calls cs)
  items : ∀ calls done cs,
    Within stop? (roomAt fits calls) Prod.snd cs (items fits allowed calls done cs)
  pairs : ∀ calls done cs,
    Within stop? (roomAt fits calls) Prod.snd cs (pairs fits allowed calls done cs)

namespace NestedWithin

variable {allowed : Nat} (h : NestedWithin fits allowed)
include h

theorem value_succ (calls : Nat) (cs : List Char) :
    Within stop? (roomAt fits calls) Prod.snd cs (Toml.value fits (allowed + 1) calls cs) := by
  unfold Toml.value
  dsimp only
  split
  · rename_i hnot
    have hfits : fits calls cs = false := by simpa using hnot
    refine .error fun s hs => ?_
    obtain rfl := Option.some.inj hs
    exact Room.lacks_here hfits
  · split
    · exact .fault rfl
    · rename_i c r _
      split_ifs with _ _ _ harray htable
      · exact Within.map (within_string _) (List.suffix_refl _) fun _ => List.suffix_refl _
      · exact .ok (List.drop_suffix 4 _)
      · exact .ok (List.drop_suffix 5 _)
      · have hmore : callsPerArray ≤ callsPerTable := by decide
        refine Within.of_opening ((within_afterGap r).bind fun r => ?_) hmore
          (.inl (by simpa using harray))
          (List.suffix_refl _)
        exact Within.map (h.items _ [] r) (List.suffix_refl r) fun _ => List.suffix_refl _
      · split
        · rename_i t ht
          exact .ok ((List.suffix_cons '\x7d' t).trans
            (ht ▸ (suffix_afterSpace r).trans (List.suffix_cons c r)))
        · have hmore : callsPerTable ≤ callsPerTable := Nat.le_refl _
          refine Within.of_opening ?_ hmore (.inr (by simpa using htable)) (suffix_afterSpace r)
          exact Within.map (h.pairs _ {} _) (List.suffix_refl _) fun _ => List.suffix_refl _
      · exact within_numeral _

theorem items_succ (calls : Nat) (done : List Toml) (cs : List Char) :
    Within stop? (roomAt fits calls) Prod.snd cs (Toml.items fits (allowed + 1) calls done cs) := by
  unfold Toml.items
  dsimp only
  split
  · exact .ok (List.suffix_cons ..)
  · refine (h.value _ _).bind fun p => (within_afterGap p.2).bind fun r => ?_
    dsimp only [id]
    split
    · exact .ok (List.suffix_cons ..)
    · rename_i t
      refine ((within_afterGap t).bind fun r => ?_).of_suffix (List.suffix_cons ..)
      exact h.items _ _ r
    · exact .fault rfl

theorem pairs_succ (calls : Nat) (done : InlineTable) (cs : List Char) :
    Within stop? (roomAt fits calls) Prod.snd cs (Toml.pairs fits (allowed + 1) calls done cs) := by
  rw [Toml.pairs]
  refine (within_key allowed cs).bind fun p => ?_
  obtain ⟨k, r⟩ := p
  dsimp only
  split
  · rename_i r
    refine Within.of_suffix ((h.value _ (afterSpace r)).bind fun p => ?_)
      ((suffix_afterSpace r).trans (List.suffix_cons ..))
    obtain ⟨v, r⟩ := p
    dsimp only
    split
    · exact .fault rfl
    · split
      · rename_i t ht
        exact .ok ((List.suffix_cons '\x7d' t).trans (ht ▸ suffix_afterSpace r))
      · rename_i t ht
        have hrest : afterSpace t <:+ r :=
          (suffix_afterSpace t).trans ((List.suffix_cons ',' t).trans (ht ▸ suffix_afterSpace r))
        exact (h.pairs _ _ _).of_suffix hrest
      · exact .fault rfl
  · exact .fault rfl

end NestedWithin

theorem nestedWithin (fits : Nat → List Char → Bool) (allowed : Nat) :
    NestedWithin fits allowed := by
  induction allowed with
  | zero => exact ⟨fun _ _ => .fault rfl, fun _ _ _ => .fault rfl, fun _ _ _ => .fault rfl⟩
  | succ allowed ih => exact ⟨ih.value_succ, ih.items_succ, ih.pairs_succ⟩

end Values

section Statements

variable {α : Type} {fits : Nat → List Char → Bool}

theorem within_accepted (x : Option α) (cs : List Char) :
    Within stop? space (fun _ => cs) cs (accepted x) := by
  cases x with
  | none => exact .fault rfl
  | some a => exact .ok (List.suffix_refl cs)

theorem within_statement (allowed : Nat) (d : Document) (cs : List Char) :
    Within stop? (roomAt fits 0) Prod.snd cs (statement fits allowed d cs) := by
  unfold statement
  split
  · rename_i r
    refine Within.of_suffix ((within_key allowed (afterSpace r)).bind fun p => ?_)
      ((suffix_afterSpace r).trans (List.suffix_append ['[', '['] r))
    obtain ⟨k, r⟩ := p
    refine (within_accepted (d.openItem k) r).bind fun d => ?_
    split
    · rename_i t
      exact .ok ((suffix_afterSpace t).trans (List.suffix_append [']', ']'] t))
    · exact .fault rfl
  · rename_i r _
    refine Within.of_suffix ((within_key allowed (afterSpace r)).bind fun p => ?_)
      ((suffix_afterSpace r).trans (List.suffix_cons '[' r))
    obtain ⟨k, r⟩ := p
    refine (within_accepted (d.openTable k) r).bind fun d => ?_
    split
    · rename_i t
      exact .ok ((suffix_afterSpace t).trans (List.suffix_cons ..))
    · exact .fault rfl
  · exact .ok (List.suffix_refl _)
  · split_ifs
    · exact .fault rfl
    · refine (within_key allowed _).bind fun p => ?_
      obtain ⟨k, r⟩ := p
      dsimp only
      split
      · rename_i r
        refine Within.of_suffix
          (((nestedWithin fits allowed).value 0 (afterSpace r)).bind fun p => ?_)
          ((suffix_afterSpace r).trans (List.suffix_cons ..))
        obtain ⟨v, r⟩ := p
        exact (within_accepted (d.assign k v) r).bind fun d => .ok (suffix_afterSpace r)
      · exact .fault rfl
  · exact .ok (List.suffix_refl _)

theorem within_statements (steps allowed : Nat) (d : Document) (cs : List Char) :
    Within stop? (roomAt fits 0) (fun _ => []) cs (statements fits steps allowed d cs) := by
  induction allowed generalizing d cs with
  | zero => exact .fault rfl
  | succ allowed ih =>
    unfold statements
    refine Within.of_suffix ?_ (suffix_afterSpace cs)
    split
    · exact .ok List.nil_suffix
    · rename_i r h
      exact (ih d r).of_suffix (h ▸ List.suffix_cons '\n' r)
    · refine (within_statement steps d _).bind fun p => ?_
      obtain ⟨d, r⟩ := p
      refine (within_afterComment r).bind fun r => ?_
      dsimp only [id]
      split
      · exact .ok List.nil_suffix
      · exact (ih d _).of_suffix (List.suffix_cons ..)
      · exact .fault rfl

/-- What the reader of a text gives up for stands in the text with plain line ends. -/
theorem within_read (s : String) (fits : Nat → List Char → Bool) :
    Within stop? (roomAt fits 0) (fun _ => []) (Text.unifyLineEnds s.toList) (read s fits) :=
  Within.map (within_statements _ _ {} _) (List.suffix_refl _) fun _ => List.suffix_refl _

end Statements

end Toml
end CodeSurvey
