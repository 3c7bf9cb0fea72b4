/-
# Where the reader of JSON gives up

Each reader of JSON leaves an end of its text, and what it gives up for stands in the text: so it is
for numbers (`Json.within_number`), for what stands where a value begins (`Json.within_opening`)
and, by induction on the steps, for the walk over a whole text (`Json.within_walk`). Only the walk
finds a value too deep: where it does, as many brackets opened before as there is room for.
-/

import CodeSurvey.Json.Reader
import CodeSurvey.Proofs.Number.Overlong
import Mathlib.Data.List.TakeWhile

namespace CodeSurvey
namespace Json

open Reading (Room Stop Within)

/-- What a reader gave up for, if that does not lie with the form of the text. -/
def stop? (f : Fault) : Option Stop :=
  match f.cause with
  | .longInteger n => some (.numeral n)
  | .tooDeep _ => some .depth
  | _ => none

/-- The room for a value with so many containers open around it. -/
def roomAt (room depth : Nat) : Room := ⟨fun depth _ => depth < room, 1, depth⟩

/-- The containers that are open besides those on the stack: the one whose next name is due. -/
def Mode.depth : Mode → Nat
  | name _ => 1
  | _ => 0

variable {cs : List Char} {space : Room}

theorem suffix_skip (cs : List Char) : skip cs <:+ cs := List.dropWhile_suffix isSpace

theorem suffix_of_skip {c : Char} {r : List Char} (h : skip cs = c :: r) : r <:+ cs :=
  (List.suffix_cons c r).trans (h ▸ suffix_skip cs)

/-- A string leaves an end of the text, and no numeral of it is too long. -/
theorem within_string (start cs : List Char) :
    Within stop? space Prod.snd cs (string start cs) := by
  fun_induction string start cs with
  | case1 => exact .fault rfl
  | case2 r => exact .ok (List.suffix_cons ..)
  | case3 => exact .fault rfl
  | case4 => exact .fault rfl
  | case5 => exact .fault rfl
  | case6 r _ n more _ ih =>
    exact Within.map ih ((List.drop_suffix _ r).trans (List.suffix_append ['\\', 'u'] r)) fun _ =>
      List.suffix_refl _
  | case7 => exact .fault rfl
  | case8 e r _ c _ ih =>
    exact Within.map ih (List.suffix_append ['\\', e] r) fun _ => List.suffix_refl _
  | case9 => exact .fault rfl
  | case10 c r _ _ _ ih =>
    exact Within.map ih (List.suffix_cons c r) fun _ => List.suffix_refl _

/-- The integer part of a number is a head of the text of digits. -/
theorem integerPart_append (cs : List Char) :
    (integerPart cs).1 ++ (integerPart cs).2 = cs ∧ ∀ c ∈ (integerPart cs).1,
      Text.isDigitAscii c = true := by
  unfold integerPart
  split
  · refine ⟨rfl, fun c hc => ?_⟩
    rw [List.mem_singleton.1 hc]
    rfl
  · exact ⟨List.takeWhile_append_dropWhile, fun c hc => List.mem_takeWhile_imp hc⟩

theorem suffix_fractionPart (cs : List Char) : (fractionPart cs).2 <:+ cs := by
  unfold fractionPart
  split
  · rename_i r
    dsimp only
    split_ifs
    · exact List.suffix_refl _
    · exact (List.dropWhile_suffix _).trans (List.suffix_cons '.' r)
  · exact List.suffix_refl _

theorem suffix_exponentPart (cs : List Char) : (exponentPart cs).2 <:+ cs := by
  unfold exponentPart
  split
  · exact List.suffix_refl _
  · rename_i c r
    dsimp only
    split
    · split
      · exact List.suffix_refl _
      · exact ((List.dropWhile_suffix _).trans (Numeral.suffix_signAndRest r)).trans
          (List.suffix_cons c r)
    · exact List.suffix_refl _

/-- A number that is refused as too long stands at the head of the text. -/
theorem within_number (negative : Bool) (cs : List Char) :
    Within stop? space Prod.snd cs (number negative cs) := by
  obtain ⟨happend, hdigits⟩ := integerPart_append cs
  have hwhole : (integerPart cs).2 <:+ cs := ⟨_, happend⟩
  have hrest : (exponentPart (fractionPart (integerPart cs).2).2).2 <:+ cs :=
    ((suffix_exponentPart _).trans (suffix_fractionPart _)).trans hwhole
  unfold number
  dsimp only
  split
  · exact .fault rfl
  · split
    · split
      · rename_i hlong
        refine .error fun s hs => ?_
        obtain rfl := Option.some.inj hs
        exact ⟨hlong, .of_digits ⟨_, happend⟩ hdigits⟩
      · exact .ok hrest
    · exact .ok hrest

theorem suffix_of_word? {v : Json} {r : List Char} (h : word? cs = some (v, r)) : r <:+ cs := by
  obtain ⟨⟨w, u⟩, -, hw⟩ := List.exists_of_findSome?_eq_some h
  obtain ⟨t, ht, hp⟩ := Option.map_eq_some_iff.1 hw
  cases hp
  unfold afterWord? at ht
  split_ifs at ht
  cases ht
  exact List.drop_suffix _ cs

/-- What stands where a value begins. -/
theorem within_opening (cs : List Char) : Within stop? space Opening.rest cs (opening cs) := by
  unfold opening
  split
  · exact .ok (List.suffix_cons ..)
  · exact .ok (List.suffix_cons ..)
  · rename_i r
    exact Within.map (within_string _ r) (List.suffix_cons ..) fun _ => List.suffix_refl _
  · split
    · rename_i hw
      exact .ok (suffix_of_word? hw)
    · split
      · rename_i r _ _ _ _
        exact Within.map (within_number true r) (List.suffix_cons ..) fun _ => List.suffix_refl _
      · exact Within.map (within_number false cs) (List.suffix_refl cs) fun _ => List.suffix_refl _

theorem suffix_of_opening {o : Opening} (h : opening cs = .ok o) : o.rest <:+ cs :=
  have hwithin : Within stop? (roomAt 0 0) Opening.rest cs (opening cs) := within_opening cs
  (h ▸ hwithin).suffix

theorem suffix_of_string {start s r : List Char} (h : string start cs = .ok (s, r)) : r <:+ cs :=
  have hwithin : Within stop? (roomAt 0 0) Prod.snd cs (string start cs) := within_string start cs
  (h ▸ hwithin).suffix

/-- A container begins with its bracket. -/
theorem eq_of_opening {o : Opening} {r : List Char} (h : opening cs = .ok o)
    (ho : o = .openArray r ∨ o = .openObject r) : ∃ c, cs = c :: r ∧ (c = '[' ∨ c = '\x7b') := by
  have hscalar : ∀ {x : Except Fault (Json × List Char)},
      (x.map fun p => Opening.scalar p.1 p.2) ≠ .ok o := by
    intro x hx
    cases x with
    | error f => cases hx
    | ok p =>
      cases hx
      rcases ho with ho | ho <;> cases ho
  unfold opening at h
  split at h
  · cases h
    rcases ho with ho | ho <;> cases ho
    exact ⟨'[', rfl, .inl rfl⟩
  · cases h
    rcases ho with ho | ho <;> cases ho
    exact ⟨'\x7b', rfl, .inr rfl⟩
  · rename_i t
    cases hs : string ('"' :: t) t with
    | error f => rw [hs] at h; cases h
    | ok p =>
      rw [hs] at h
      cases h
      rcases ho with ho | ho <;> cases ho
  · split at h
    · cases h
      rcases ho with ho | ho <;> cases ho
    · split at h
      · exact absurd h hscalar
      · exact absurd h hscalar

/-- A container for which there is no room stands at the place where the walk gives up. -/
theorem within_tooDeep {room depth : Nat} {container : String} (h : room ≤ depth) :
    Within stop? (roomAt room depth) Prod.snd cs
      (.error ⟨.tooDeep container, cs.length⟩ : Except Fault (Json × List Char)) := by
  refine .error fun s hs => ?_
  obtain rfl := Option.some.inj hs
  exact Room.lacks_here (decide_eq_false (Nat.not_lt.2 h))

/-- The walk over a text leaves an end of it, and what it gives up for stands in the text. -/
theorem within_walk (room : Nat) (stack : List Frame) (mode : Mode) (cs : List Char) :
    Within stop? (roomAt room (stack.length + mode.depth)) Prod.snd cs
      (walk room stack mode cs) := by
  fun_induction walk room stack mode cs with
  | case1 _ cs f ho => exact (ho ▸ within_opening cs).of_error
  | case2 _ cs v r ho ih => exact ih.of_suffix (suffix_of_opening ho)
  | case3 _ cs r ho hroom => exact within_tooDeep hroom
  | case4 _ cs r ho _ t hr ih =>
    exact ih.of_suffix ((suffix_of_skip hr).trans (suffix_of_opening ho))
  | case5 stack cs r ho _ _ ih =>
    obtain ⟨c, rfl, hc⟩ := eq_of_opening ho (.inl rfl)
    exact Within.of_opening ih (Nat.le_refl 1) hc (suffix_skip r)
  | case6 _ cs r ho hroom => exact within_tooDeep hroom
  | case7 _ cs r ho _ t hr ih =>
    exact ih.of_suffix ((suffix_of_skip hr).trans (suffix_of_opening ho))
  | case8 stack cs r ho _ _ ih =>
    obtain ⟨c, rfl, hc⟩ := eq_of_opening ho (.inr rfl)
    exact Within.of_opening ih (Nat.le_refl 1) hc (suffix_skip r)
  | case9 _ done r f hs =>
    split
    · rename_i hs'
      obtain rfl := Except.error.inj (hs'.symm.trans hs)
      exact (hs ▸ within_string ('"' :: r) r).of_error.of_suffix (List.suffix_cons '"' r)
    · rename_i hs'
      cases hs'.symm.trans hs
  | case10 stack done r s t u hu hs ih =>
    have ht : t <:+ '"' :: r := (suffix_of_string hs).trans (List.suffix_cons '"' r)
    split
    · rename_i hs'
      cases hs'.symm.trans hs
    · rename_i hs'
      obtain ⟨rfl, rfl⟩ := Prod.mk.inj (Except.ok.inj (hs'.symm.trans hs))
      split
      · rename_i hu'
        obtain rfl := (List.cons.inj (hu'.symm.trans hu)).2
        exact ih.of_suffix ((suffix_skip _).trans ((suffix_of_skip hu).trans ht))
      · exact .fault rfl
  | case11 _ done r s t hs hne =>
    split
    · rename_i hs'
      cases hs'.symm.trans hs
    · rename_i hs'
      obtain ⟨rfl, rfl⟩ := Prod.mk.inj (Except.ok.inj (hs'.symm.trans hs))
      split
      · rename_i hu
        exact absurd hu (hne _)
      · exact .fault rfl
  | case12 => exact .fault rfl
  | case13 => exact .ok (List.suffix_refl _)
  | case14 cs v done stack r hc ih =>
    rw [List.unattach_reverse, List.unattach_attach] at ih
    exact (ih.of_suffix (suffix_of_skip hc)).of_calls_le (Nat.le_succ _)
  | case15 cs v done _ r hc ih => exact ih.of_suffix ((suffix_skip r).trans (suffix_of_skip hc))
  | case16 => exact .fault rfl
  | case17 cs v done name stack r hc ih =>
    exact (ih.of_suffix (suffix_of_skip hc)).of_calls_le (Nat.le_succ _)
  | case18 cs v done name _ r hc ih =>
    exact ih.of_suffix ((suffix_skip r).trans (suffix_of_skip hc))
  | case19 => exact .fault rfl

/-- What the reader of a text gives up for stands in the text. -/
theorem within_read (s : String) (room : Nat) :
    Within stop? (roomAt room 0) (fun _ => []) s.toList (read s room) := by
  unfold read readChars
  split
  · exact .fault rfl
  · have hwalk := (within_walk room [] .value (skip s.toList)).of_suffix (suffix_skip s.toList)
    cases hresult : walk room [] .value (skip s.toList) with
    | error f => exact (hresult ▸ hwalk).of_error
    | ok p =>
      dsimp only
      split
      · exact .ok List.nil_suffix
      · exact .fault rfl

/-- Where a value begins with more digits than can be converted, the reader gives up. -/
theorem opening_of_long {ds : List Char} (hdigits : ∀ c ∈ ds, Text.isDigitAscii c = true)
    (hlong : Numeral.maxDigits < ds.length + 1) :
    opening ('1' :: (ds ++ ['\x7d'])) = .error ⟨.longInteger (ds.length + 1), ds.length + 2⟩ := by
  have hword : word? ('1' :: (ds ++ ['\x7d'])) = none := rfl
  have hwhole : integerPart ('1' :: (ds ++ ['\x7d'])) = ('1' :: ds, ['\x7d']) := by
    have hall : ∀ c ∈ '1' :: ds, Text.isDigitAscii c = true :=
      List.forall_mem_cons.2 ⟨by decide, hdigits⟩
    change (('1' :: ds ++ ['\x7d']).takeWhile _, ('1' :: ds ++ ['\x7d']).dropWhile _) = _
    rw [List.takeWhile_append_of_pos hall, List.dropWhile_append_of_pos hall,
      List.takeWhile_cons_of_neg (by decide), List.append_nil,
      List.dropWhile_cons_of_neg (by decide)]
  have hlength : ('1' :: (ds ++ ['\x7d'])).length = ds.length + 2 := by simp
  have hnumber : number false ('1' :: (ds ++ ['\x7d'])) =
      .error ⟨.longInteger (ds.length + 1), ds.length + 2⟩ := by
    unfold number
    rw [hwhole, hlength]
    exact if_pos hlong
  unfold opening
  simp only [hword, hnumber, Except.map]
  rfl

/-- A string of characters that need no escape is read as it stands. -/
theorem string_of_plain (start word : List Char)
    (hplain : word.all (fun c => c != '"' && c != '\\' && 32 ≤ c.toNat) = true) (r : List Char) :
    string start (word ++ '"' :: r) = .ok (word, r) := by
  induction word with
  | nil => rw [List.nil_append, string]
  | cons c word ih =>
    simp only [List.all_cons, Bool.and_eq_true, bne_iff_ne, decide_eq_true_eq] at hplain
    obtain ⟨⟨⟨hquote, hescape⟩, hcontrol⟩, hrest⟩ := hplain
    rw [List.cons_append, string, if_neg (Nat.not_lt.2 hcontrol), ih hrest]
    · rfl
    · exact hquote
    · exact hescape

theorem readChars_of_walk {room : Nat} {f : Fault} (hmark : cs.head? ≠ some '\ufeff')
    (h : walk room [] .value (skip cs) = .error f) : readChars room cs = .error f := by
  unfold readChars
  split
  · exact absurd rfl hmark
  · rw [h]

/-- An object with a member of more digits than can be converted is not read. -/
theorem read_of_long {room : Nat} (hroom : 0 < room) {ds : List Char}
    (hdigits : ∀ c ∈ ds, Text.isDigitAscii c = true) (hlong : Numeral.maxDigits < ds.length + 1) :
    read (String.ofList ("\x7b\"build\": ".toList ++ '1' :: (ds ++ ['\x7d']))) room =
      .error ⟨.longInteger (ds.length + 1), ds.length + 2⟩ := by
  have hopening := opening_of_long hdigits hlong
  rw [read, String.toList_ofList]
  generalize ds ++ ['\x7d'] = t at *
  have hvalue : ∀ stack, walk room stack .value ('1' :: t) =
      .error ⟨.longInteger (ds.length + 1), ds.length + 2⟩ := by
    intro stack
    rw [walk, hopening]
  have hstring : ∀ start,
      string start ("build\": ".toList ++ '1' :: t) =
        .ok ("build".toList, ": ".toList ++ '1' :: t) :=
    fun start => string_of_plain start "build".toList (by decide) _
  have hname : walk room [] (.name []) ("\"build\": ".toList ++ '1' :: t) =
      .error ⟨.longInteger (ds.length + 1), ds.length + 2⟩ := by
    show walk room [] (.name []) ('"' :: ("build\": ".toList ++ '1' :: t)) = _
    rw [walk]
    split
    · rename_i hs
      cases hs.symm.trans (hstring _)
    · rename_i hs
      obtain ⟨rfl, rfl⟩ := Prod.mk.inj (Except.ok.inj (hs.symm.trans (hstring _)))
      exact hvalue _
  refine readChars_of_walk (by simp) ?_
  show walk room [] .value ('\x7b' :: ("\"build\": ".toList ++ '1' :: t)) = _
  rw [walk]
  exact (if_neg (Nat.not_le.2 hroom)).trans hname

end Json
end CodeSurvey
