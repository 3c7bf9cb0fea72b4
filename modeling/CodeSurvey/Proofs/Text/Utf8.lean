/-
# Slices of UTF-8

A character beyond ASCII is a first byte and the bytes that it announces (`Utf8.exists_isSpelt`). No
byte after the first starts a character (`Utf8.piece_of_mem`), and a character without its last
bytes is one broken piece (`Utf8.piece_take_of_eq_cons`). So what a slice leaves of a character that
it cuts, at its start, at its end or at both, is read leniently as nothing, and takes nothing away
from its neighbours (`Utf8.chars_slice_append`). By induction on the text, a slice reads as the
characters that lie whole in it (`Utf8.chars_slice`).

Which characters these are is said by the bytes before a character and those up to its end
(`Utf8.isWithin`). Between two boundaries of characters it is the text between them
(`Utf8.charsWithin_part`), and at a boundary a slice falls into two (`Utf8.charsWithin_split`).
-/

import CodeSurvey.Text.Utf8
import Mathlib.Data.List.Basic

namespace CodeSurvey
namespace Utf8

variable {b : UInt8} {c : Char} {low high : Nat} {t : List UInt8}

/-- Whether bytes continue a character, the first of them between `low` and `high`. -/
def Continues (low high : Nat) : List UInt8 → Prop
  | [] => True
  | b :: r => (low ≤ b.toNat ∧ b.toNat ≤ high) ∧ Continues 0x80 0xBF r

/-- A code point with the bits of one more byte. -/
def extend (code : Nat) (b : UInt8) : Nat := code * 64 + b.toNat % 64

/-- The bits of a code point in the first byte of a character, by the number of bytes after it. -/
def leadingBits (b : UInt8) (owed : Nat) : Nat :=
  b.toNat % (if owed = 1 then 32 else if owed = 2 then 16 else 8)

theorem Continues.take (h : Continues low high t) (n : Nat) : Continues low high (t.take n) := by
  induction t generalizing low high n with
  | nil => simpa using h
  | cons b t ih =>
    cases n with
    | zero => trivial
    | succ n => exact ⟨h.1, ih h.2 n⟩

/-- Every byte that continues a character is between `80` and `BF`. -/
theorem Continues.between (h : Continues low high t) (hlow : 0x80 ≤ low) (hhigh : high ≤ 0xBF) :
    ∀ b ∈ t, 0x80 ≤ b.toNat ∧ b.toNat ≤ 0xBF := by
  induction t generalizing low high with
  | nil => simp
  | cons b t ih =>
    obtain ⟨hb, ht⟩ := h
    exact List.forall_mem_cons.2 ⟨by omega, ih ht (Nat.le_refl _) (Nat.le_refl _)⟩

/-- As many bytes as are owed complete a character. -/
theorem continued_of_all (h : Continues low high t) (seen code : Nat) (rest : List UInt8) :
    continued t.length seen code low high (t ++ rest) = .whole (Char.ofNat (t.foldl extend code))
      (seen + t.length) := by
  induction t generalizing low high seen code with
  | nil => rfl
  | cons b t ih =>
    rw [List.length_cons, List.cons_append, continued, if_pos h.1, ih h.2, List.foldl_cons, extend]
    congr 1
    omega

/-- With less bytes than are owed, and no others behind them, a character is broken off. -/
theorem continued_of_part (h : Continues low high t) (seen code : Nat) {owed : Nat}
    (howed : t.length < owed) :
    continued owed seen code low high t = .broken .unexpectedEnd (seen + t.length) := by
  induction t generalizing low high seen code owed with
  | nil =>
    obtain ⟨n, rfl⟩ := Nat.exists_eq_succ_of_ne_zero (Nat.ne_of_gt howed)
    rfl
  | cons b t ih =>
    obtain ⟨n, rfl⟩ := Nat.exists_eq_succ_of_ne_zero (Nat.ne_of_gt (Nat.zero_lt_of_lt howed))
    rw [continued, if_pos h.1, ih h.2 _ _ (Nat.lt_of_succ_lt_succ howed), List.length_cons]
    congr 1
    omega

theorem announced_of_two {n : Nat} (h : 0xC2 ≤ n) (h' : n < 0xE0) :
    announced n = some (1, 0x80, 0xBF) := by
  rw [announced, if_neg (Nat.not_lt.2 h), if_pos h']

/-- The bounds after a first byte of three keep out characters that need less
bytes, and surrogates. -/
theorem announced_of_three {n : Nat} (h : 0xE0 ≤ n) (h' : n < 0xF0) :
    announced n = some (2, if n = 0xE0 then 0xA0 else 0x80, if n = 0xED then 0x9F else 0xBF) := by
  by_cases hlowest : n = 0xE0
  · subst hlowest
    rfl
  · by_cases hsurrogate : n = 0xED
    · subst hsurrogate
      rfl
    · rw [announced, if_neg (by omega), if_neg (by omega), if_neg hlowest, if_neg hsurrogate,
        if_pos h', if_neg hlowest, if_neg hsurrogate]

/-- The bounds after a first byte of four keep out characters that need less bytes, and code
points beyond the last. -/
theorem announced_of_four {n : Nat} (h : 0xF0 ≤ n) (h' : n < 0xF5) :
    announced n = some (3, if n = 0xF0 then 0x90 else 0x80, if n = 0xF4 then 0x8F else 0xBF) := by
  by_cases hlowest : n = 0xF0
  · subst hlowest
    rfl
  · by_cases hhighest : n = 0xF4
    · subst hhighest
      rfl
    · rw [announced, if_neg (by omega), if_neg (by omega), if_neg (by omega), if_neg (by omega),
        if_neg (by omega), if_neg hlowest, if_pos (by omega), if_neg hlowest, if_neg hhighest]

/-- The encoding of a character beyond ASCII: a first byte, which announces the bytes after it and
bounds for the first of them, and bytes that continue it so. -/
structure IsSpelt (c : Char) (b : UInt8) (t : List UInt8) (low high : Nat) : Prop where
  eq_cons : String.utf8EncodeChar c = b :: t
  le_first : 0x80 ≤ b.toNat
  announced_eq : announced b.toNat = some (t.length, low, high)
  le_low : 0x80 ≤ low
  high_le : high ≤ 0xBF
  continues : Continues low high t
  code_eq : t.foldl extend (leadingBits b t.length) = c.toNat

variable {v : Nat}

/-- The value of a byte that holds six bits of a code point. -/
theorem toNat_continuation (n : Nat) : (UInt8.ofNat (n % 64 + 128)).toNat = n % 64 + 128 :=
  UInt8.toNat_ofNat_of_lt' (show n % 64 + 128 < 256 by omega)

/-- A character of two bytes. -/
theorem isSpelt_of_two (hv : c.toNat = v) (h : 0x80 ≤ v) (h' : v ≤ 0x7FF) :
    IsSpelt c (UInt8.ofNat (v / 64 % 32 + 192)) [UInt8.ofNat (v % 64 + 128)] 0x80 0xBF := by
  have hfirst : (UInt8.ofNat (v / 64 % 32 + 192)).toNat = v / 64 % 32 + 192 :=
    UInt8.toNat_ofNat_of_lt' (show _ < 256 by omega)
  have hlast := toNat_continuation v
  refine ⟨?_, by omega, ?_, by omega, by omega, ⟨by omega, trivial⟩, ?_⟩
  · rw [String.utf8EncodeChar.eq_1, show c.val.toNat = v from hv, if_neg (by omega), if_pos h']
  · rw [hfirst]
    exact announced_of_two (by omega) (by omega)
  · have hbits : leadingBits (UInt8.ofNat (v / 64 % 32 + 192)) 1 = (v / 64 % 32 + 192) % 32 :=
      congrArg (· % 32) hfirst
    rw [hv, List.length_singleton, hbits, List.foldl_cons, List.foldl_nil, extend, hlast]
    omega

/-- A character of three bytes; no surrogate is one. -/
theorem isSpelt_of_three (hv : c.toNat = v) (h : 0x7FF < v) (h' : v ≤ 0xFFFF) :
    ∃ low high, IsSpelt c (UInt8.ofNat (v / 4096 % 16 + 224))
      [UInt8.ofNat (v / 64 % 64 + 128), UInt8.ofNat (v % 64 + 128)] low high := by
  have hvalid : v < 0xD800 ∨ 0xDFFF < v ∧ v < 0x110000 := hv ▸ c.valid
  have hfirst : (UInt8.ofNat (v / 4096 % 16 + 224)).toNat = v / 4096 % 16 + 224 :=
    UInt8.toNat_ofNat_of_lt' (show _ < 256 by omega)
  have hnext := toNat_continuation (v / 64)
  have hlast := toNat_continuation v
  have hannounced := announced_of_three (n := v / 4096 % 16 + 224) (by omega) (by omega)
  rw [← hfirst] at hannounced
  refine ⟨_, _, ?_, by omega, hannounced, ?_, ?_, ⟨?_, by omega, trivial⟩, ?_⟩
  · rw [String.utf8EncodeChar.eq_1, show c.val.toNat = v from hv, if_neg (by omega),
      if_neg (Nat.not_le.2 h), if_pos h']
  -- The bounds for the second byte, and the second byte between them.
  · split_ifs <;> omega
  · split_ifs <;> omega
  · split_ifs <;> omega
  · have hbits : leadingBits (UInt8.ofNat (v / 4096 % 16 + 224)) 2 = (v / 4096 % 16 + 224) % 16 :=
      congrArg (· % 16) hfirst
    rw [hv, List.length_cons, List.length_singleton, hbits, List.foldl_cons, List.foldl_cons,
      List.foldl_nil, extend, extend, hnext, hlast]
    omega

/-- A character of four bytes. -/
theorem isSpelt_of_four (hv : c.toNat = v) (h : 0xFFFF < v) :
    ∃ low high, IsSpelt c (UInt8.ofNat (v / 262144 % 8 + 240))
      [UInt8.ofNat (v / 4096 % 64 + 128), UInt8.ofNat (v / 64 % 64 + 128),
        UInt8.ofNat (v % 64 + 128)] low high := by
  have hvalid : v < 0xD800 ∨ 0xDFFF < v ∧ v < 0x110000 := hv ▸ c.valid
  have hfirst : (UInt8.ofNat (v / 262144 % 8 + 240)).toNat = v / 262144 % 8 + 240 :=
    UInt8.toNat_ofNat_of_lt' (show _ < 256 by omega)
  have hnext := toNat_continuation (v / 4096)
  have hthird := toNat_continuation (v / 64)
  have hlast := toNat_continuation v
  have hannounced := announced_of_four (n := v / 262144 % 8 + 240) (by omega) (by omega)
  rw [← hfirst] at hannounced
  refine ⟨_, _, ?_, by omega, hannounced, ?_, ?_, ⟨?_, by omega, by omega, trivial⟩, ?_⟩
  · rw [String.utf8EncodeChar.eq_1, show c.val.toNat = v from hv, if_neg (by omega),
      if_neg (by omega), if_neg (Nat.not_le.2 h)]
  -- The bounds for the second byte, and the second byte between them.
  · split_ifs <;> omega
  · split_ifs <;> omega
  · split_ifs <;> omega
  · have hbits : leadingBits (UInt8.ofNat (v / 262144 % 8 + 240)) 3 = (v / 262144 % 8 + 240) % 8 :=
      congrArg (· % 8) hfirst
    rw [hv, List.length_cons, List.length_cons, List.length_singleton, hbits, List.foldl_cons,
      List.foldl_cons, List.foldl_cons, List.foldl_nil, extend, extend, extend, hnext,
      hthird, hlast]
    omega

/-- **Every character beyond ASCII** is encoded so. -/
theorem exists_isSpelt (h : 0x80 ≤ c.toNat) : ∃ b t low high, IsSpelt c b t low high := by
  rcases Nat.lt_or_ge 0x7FF c.toNat with htwo | htwo
  · rcases Nat.lt_or_ge 0xFFFF c.toNat with hthree | hthree
    · exact ⟨_, _, isSpelt_of_four rfl hthree⟩
    · exact ⟨_, _, isSpelt_of_three rfl htwo hthree⟩
  · exact ⟨_, _, _, _, isSpelt_of_two rfl h htwo⟩

/-- The two ways in which a character is encoded. One of ASCII is a byte of its own. -/
theorem eq_cons_cases (h : String.utf8EncodeChar c = b :: t) :
    c.toNat < 0x80 ∧ b = UInt8.ofNat c.toNat ∧ t = [] ∨ ∃ low high, IsSpelt c b t low high := by
  rcases Nat.lt_or_ge c.toNat 0x80 with hc | hc
  · rw [String.utf8EncodeChar.eq_1, if_pos (show c.val.toNat ≤ 127 from Nat.le_of_lt_succ hc)] at h
    obtain ⟨rfl, rfl⟩ := List.cons.inj h
    exact .inl ⟨hc, rfl, rfl⟩
  · obtain ⟨b', t', low, high, hspelt⟩ := exists_isSpelt hc
    obtain ⟨rfl, rfl⟩ := List.cons.inj (h.symm.trans hspelt.eq_cons)
    exact .inr ⟨low, high, hspelt⟩

/-- Behind its first byte a character is read as continued. -/
theorem IsSpelt.piece_eq (h : IsSpelt c b t low high) (rest : List UInt8) :
    piece b rest = continued t.length 0 (leadingBits b t.length) low high rest := by
  rw [piece, if_neg (Nat.not_lt.2 h.le_first), h.announced_eq]
  rfl

/-- The bytes of a character at the head of a byte sequence are a whole piece. -/
theorem piece_of_eq_cons (h : String.utf8EncodeChar c = b :: t) (rest : List UInt8) :
    piece b (t ++ rest) = .whole c t.length := by
  rcases eq_cons_cases h with ⟨hc, rfl, rfl⟩ | ⟨low, high, hspelt⟩
  · have hb : (UInt8.ofNat c.toNat).toNat = c.toNat :=
      UInt8.toNat_ofNat_of_lt' (Nat.lt_trans hc (by decide))
    rw [piece, hb, if_pos hc, Char.ofNat_toNat]
    rfl
  · rw [hspelt.piece_eq, continued_of_all hspelt.continues, hspelt.code_eq, Char.ofNat_toNat,
      Nat.zero_add]

/-- The first bytes of a character, less than all of them, are a broken piece if nothing follows. -/
theorem piece_take_of_eq_cons (h : String.utf8EncodeChar c = b :: t) {n : Nat} (hn : n < t.length) :
    piece b (t.take n) = .broken .unexpectedEnd n := by
  rcases eq_cons_cases h with ⟨-, -, rfl⟩ | ⟨low, high, hspelt⟩
  · exact absurd hn (Nat.not_lt_zero n)
  · have hlength : (t.take n).length = n := List.length_take_of_le (Nat.le_of_lt hn)
    rw [hspelt.piece_eq, continued_of_part (hspelt.continues.take n) _ _ (hlength.symm ▸ hn),
      hlength, Nat.zero_add]

/-- No byte of a character after its first starts a character. -/
theorem piece_of_mem (h : String.utf8EncodeChar c = b :: t) {d : UInt8} (hd : d ∈ t)
    (rest : List UInt8) : piece d rest = .broken .invalidStart 0 := by
  rcases eq_cons_cases h with ⟨-, -, rfl⟩ | ⟨low, high, hspelt⟩
  · exact absurd hd List.not_mem_nil
  · obtain ⟨hle, hge⟩ := hspelt.continues.between hspelt.le_low hspelt.high_le d hd
    rw [piece, if_neg (Nat.not_lt.2 hle), announced, if_pos (Nat.lt_of_le_of_lt hge (by decide))]

/-- The characters of a byte sequence that is read leniently. -/
def chars (bs : List UInt8) : List Char := (decodeLenient bs).toList

theorem chars_nil : chars [] = [] := by
  rw [chars, decodeLenient, pieces, String.toList_ofList]
  rfl

/-- The characters of a piece: the one that is whole. -/
def Piece.chars : Piece → List Char
  | whole c _ => [c]
  | broken .. => []

theorem chars_cons (b : UInt8) (r : List UInt8) :
    chars (b :: r) = (piece b r).chars ++ chars (r.drop (piece b r).more) := by
  rw [chars, decodeLenient, String.toList_ofList, pieces, chars, decodeLenient,
    String.toList_ofList, List.filterMap_cons]
  cases piece b r <;> rfl

theorem chars_append_char (c : Char) (rest : List UInt8) :
    chars (String.utf8EncodeChar c ++ rest) = c :: chars rest := by
  obtain ⟨b, t, h⟩ := List.exists_cons_of_ne_nil (@String.utf8EncodeChar_ne_nil c)
  rw [h, List.cons_append, chars_cons, piece_of_eq_cons h]
  exact congrArg (c :: chars ·) List.drop_left

/-- What is left of a character without its first byte is dropped. -/
theorem chars_append_of_subset (h : String.utf8EncodeChar c = b :: t) {s : List UInt8} (hs : s ⊆ t)
    (rest : List UInt8) : chars (s ++ rest) = chars rest := by
  induction s with
  | nil => rfl
  | cons d s ih =>
    rw [List.cons_append, chars_cons, piece_of_mem h (hs (List.mem_cons_self ..))]
    exact ih (List.subset_of_cons_subset hs)

/-- What is left of a character without its last byte is dropped. -/
theorem chars_take (c : Char) {n : Nat} (hn : n < c.utf8Size) :
    chars ((String.utf8EncodeChar c).take n) = [] := by
  obtain ⟨b, t, h⟩ := List.exists_cons_of_ne_nil (@String.utf8EncodeChar_ne_nil c)
  cases n with
  | zero => exact chars_nil
  | succ n =>
    rw [← String.length_utf8EncodeChar, h, List.length_cons] at hn
    rw [h, List.take_succ_cons, chars_cons, piece_take_of_eq_cons h (Nat.lt_of_succ_lt_succ hn)]
    have hrest : (t.take n).drop n = [] := List.drop_eq_nil_of_le (List.length_take_le n t)
    exact (congrArg chars hrest).trans chars_nil

/-- **Of one character at the head of a text** a slice leaves the character if it lies whole in the
slice, else nothing; the rest of the slice is one of the rest of the text. -/
theorem chars_slice_append (c : Char) (bs : List UInt8) (start stop : Nat) :
    chars (((String.utf8EncodeChar c ++ bs).take stop).drop start) =
      (if start = 0 ∧ c.utf8Size ≤ stop then [c] else []) ++
        chars ((bs.take (stop - c.utf8Size)).drop (start - c.utf8Size)) := by
  have hlength := String.length_utf8EncodeChar c
  rw [List.take_append, hlength]
  by_cases hstart : start = 0
  · -- Nothing of the character is missing in front: it is whole, or the slice ends in it.
    subst hstart
    by_cases hstop : c.utf8Size ≤ stop
    · rw [List.take_of_length_le (hlength ▸ hstop), if_pos ⟨rfl, hstop⟩, List.drop_zero,
        chars_append_char, Nat.zero_sub, List.drop_zero, List.singleton_append]
    · rw [if_neg fun h => hstop h.2, Nat.sub_eq_zero_of_le (Nat.le_of_not_le hstop), List.take_zero,
        List.append_nil, List.drop_zero, chars_take c (Nat.lt_of_not_le hstop), List.drop_nil,
        chars_nil, List.append_nil]
  · -- The first byte of the character is missing, so what is left of it is dropped, however much
    -- it is.
    obtain ⟨b, t, h⟩ := List.exists_cons_of_ne_nil (@String.utf8EncodeChar_ne_nil c)
    obtain ⟨k, rfl⟩ := Nat.exists_eq_succ_of_ne_zero hstart
    have hcut : ((String.utf8EncodeChar c).take stop).drop (k + 1) ⊆ t := by
      rw [List.drop_take, h, List.drop_succ_cons]
      exact List.Subset.trans (List.take_subset _ _) (List.drop_subset _ _)
    rw [if_neg fun h => hstart h.1, List.nil_append, List.drop_append,
      chars_append_of_subset h hcut, List.length_take, hlength]
    rcases Nat.le_total c.utf8Size stop with hstop | hstop
    · rw [Nat.min_eq_right hstop]
    · rw [Nat.sub_eq_zero_of_le hstop, List.take_zero, List.drop_nil, List.drop_nil]

/-- The number of bytes of a text. -/
def byteCount (cs : List Char) : Nat := (cs.flatMap String.utf8EncodeChar).length

/-- Whether the bytes of a character of a text, given by its number, all lie between two offsets: it
starts at the first offset or behind it, and stops at the second or before it. -/
def isWithin (start stop : Nat) (cs : List Char) (i : Nat) : Bool :=
  start ≤ byteCount (cs.take i) && byteCount (cs.take (i + 1)) ≤ stop

/-- The characters of a text that lie whole between two offsets. -/
def charsWithin (start stop : Nat) (cs : List Char) : List Char :=
  (cs.zipIdx.filter fun x => isWithin start stop cs x.2).map Prod.fst

theorem byteCount_cons (c : Char) (cs : List Char) :
    byteCount (c :: cs) = c.utf8Size + byteCount cs := by
  rw [byteCount, List.flatMap_cons, List.length_append, String.length_utf8EncodeChar, byteCount]

theorem byteCount_append (as bs : List Char) :
    byteCount (as ++ bs) = byteCount as + byteCount bs := by
  rw [byteCount, List.flatMap_append, List.length_append, byteCount, byteCount]

theorem byteCount_take_le (n : Nat) (cs : List Char) : byteCount (cs.take n) ≤ byteCount cs := by
  have happend := byteCount_append (cs.take n) (cs.drop n)
  rw [List.take_append_drop] at happend
  omega

theorem isWithin_zero (start stop : Nat) (c : Char) (cs : List Char) :
    isWithin start stop (c :: cs) 0 = decide (start = 0 ∧ c.utf8Size ≤ stop) := by
  have hone : byteCount ((c :: cs).take (0 + 1)) = c.utf8Size := byteCount_cons c []
  have hnone : byteCount ((c :: cs).take 0) = 0 := rfl
  simp only [isWithin, hone, hnone, Bool.decide_and, Nat.le_zero]

theorem isWithin_succ (start stop : Nat) (c : Char) {cs : List Char} (hne : cs ≠ []) (i : Nat) :
    isWithin start stop (c :: cs) (i + 1) =
      isWithin (start - c.utf8Size) (stop - c.utf8Size) cs i := by
  -- A character has a byte, so none of the rest stops where the rest starts.
  have hpos : 0 < byteCount (cs.take (i + 1)) := by
    obtain ⟨d, ds, rfl⟩ := List.exists_cons_of_ne_nil hne
    rw [List.take_succ_cons, byteCount_cons]
    exact Nat.add_pos_left d.utf8Size_pos _
  rw [Bool.eq_iff_iff]
  simp only [isWithin, List.take_succ_cons, byteCount_cons, Bool.and_eq_true, decide_eq_true_eq]
  omega

/-- Where a text starts with a character, the others within it are those within the rest. -/
theorem charsWithin_cons (start stop : Nat) (c : Char) (cs : List Char) :
    charsWithin start stop (c :: cs) = (if start = 0 ∧ c.utf8Size ≤ stop then [c] else []) ++
      charsWithin (start - c.utf8Size) (stop - c.utf8Size) cs := by
  have hrest : (cs.zipIdx 1).filter (fun x => isWithin start stop (c :: cs) x.2) =
      (cs.zipIdx.filter fun x => isWithin (start - c.utf8Size) (stop - c.utf8Size) cs x.2).map
        fun x => (x.1, x.2 + 1) := by
    rw [List.zipIdx_succ, List.filter_map]
    refine congrArg _ (List.filter_congr fun x hx => ?_)
    exact isWithin_succ start stop c (List.ne_nil_of_mem (List.fst_mem_of_mem_zipIdx hx)) x.2
  rw [charsWithin, List.zipIdx_cons, List.filter_cons, isWithin_zero, hrest, charsWithin]
  by_cases hc : start = 0 ∧ c.utf8Size ≤ stop
  · rw [if_pos (decide_eq_true hc), if_pos hc, List.map_cons, List.map_map, List.singleton_append]
    rfl
  · rw [if_neg (mt of_decide_eq_true hc), if_neg hc, List.map_map, List.nil_append]
    rfl

/-- No character stops behind the end of its text. -/
theorem charsWithin_min (start stop : Nat) (cs : List Char) :
    charsWithin start (min stop (byteCount cs)) cs = charsWithin start stop cs := by
  refine congrArg _ (List.filter_congr fun x _ => ?_)
  simp only [isWithin, Nat.le_min, byteCount_take_le, and_true]

/-- **A slice of a text** reads leniently as the characters that lie whole in it. -/
theorem chars_slice (cs : List Char) (start stop : Nat) :
    chars (((cs.flatMap String.utf8EncodeChar).take stop).drop start) =
      charsWithin start stop cs := by
  induction cs generalizing start stop with
  | nil =>
    rw [List.flatMap_nil, List.take_nil, List.drop_nil, chars_nil]
    rfl
  | cons c cs ih => rw [List.flatMap_cons, chars_slice_append, ih, charsWithin_cons]

theorem charsWithin_append (start stop : Nat) (as bs : List Char) :
    charsWithin start stop (as ++ bs) =
      charsWithin start stop as ++ charsWithin (start - byteCount as) (stop - byteCount as) bs := by
  induction as generalizing start stop with
  | nil => rfl
  | cons a as ih =>
    rw [List.cons_append, charsWithin_cons, ih, charsWithin_cons, byteCount_cons, Nat.sub_sub,
      Nat.sub_sub, List.append_assoc]

/-- Behind the end of a text there is no character of it. -/
theorem charsWithin_of_le_start {start : Nat} {cs : List Char} (h : byteCount cs ≤ start)
    (stop : Nat) : charsWithin start stop cs = [] := by
  induction cs generalizing start stop with
  | nil => rfl
  | cons c cs ih =>
    have hsize := c.utf8Size_pos
    rw [byteCount_cons] at h
    rw [charsWithin_cons, if_neg (by omega), ih (by omega), List.append_nil]

/-- Before the start of a text there is no character of it. -/
theorem charsWithin_zero_stop (start : Nat) (cs : List Char) : charsWithin start 0 cs = [] := by
  induction cs generalizing start with
  | nil => rfl
  | cons c cs ih =>
    have hsize := c.utf8Size_pos
    rw [charsWithin_cons, if_neg (by omega), Nat.zero_sub, ih, List.append_nil]

/-- All characters of a text lie within it. -/
theorem charsWithin_all (cs : List Char) : charsWithin 0 (byteCount cs) cs = cs := by
  induction cs with
  | nil => rfl
  | cons c cs ih =>
    rw [charsWithin_cons, byteCount_cons, if_pos ⟨rfl, Nat.le_add_right _ _⟩, Nat.zero_sub,
      Nat.add_sub_cancel_left, ih, List.singleton_append]

/-- Whether an offset in the encoding of a text is one between characters, or
at an end of the text. -/
def IsBoundary (cs : List Char) (n : Nat) : Prop :=
  ∃ before after, cs = before ++ after ∧ byteCount before = n

/-- Two boundaries have a part of the text between them. -/
theorem IsBoundary.exists_between {cs : List Char} {start stop : Nat} (hstart : IsBoundary cs start)
    (hstop : IsBoundary cs stop) (hle : start ≤ stop) :
    ∃ before inner after, cs = before ++ inner ++ after ∧ byteCount before = start ∧
      byteCount (before ++ inner) = stop := by
  obtain ⟨a, b, rfl, rfl⟩ := hstart
  obtain ⟨c, d, hsame, rfl⟩ := hstop
  rcases List.append_eq_append_iff.1 hsame with ⟨inner, rfl, rfl⟩ | ⟨more, rfl, rfl⟩
  · exact ⟨a, inner, d, (List.append_assoc a inner d).symm, rfl, rfl⟩
  · -- The second boundary is then no further than the first, so they are one.
    refine ⟨c ++ more, [], b, by rw [List.append_nil], rfl, ?_⟩
    rw [List.append_nil]
    rw [byteCount_append] at hle ⊢
    omega

/-- Between two boundaries lies exactly that part. -/
theorem charsWithin_part (before inner after : List Char) :
    charsWithin (byteCount before) (byteCount (before ++ inner))
      (before ++ inner ++ after) = inner := by
  rw [List.append_assoc, charsWithin_append, charsWithin_of_le_start (Nat.le_refl _), Nat.sub_self,
    byteCount_append, Nat.add_sub_cancel_left, charsWithin_append, charsWithin_all, Nat.sub_self,
    charsWithin_zero_stop, List.nil_append, List.append_nil]

/-- At a boundary a slice falls into two. -/
theorem charsWithin_split {cs : List Char} {start middle stop : Nat} (h : IsBoundary cs middle)
    (hstart : start ≤ middle) (hstop : middle ≤ stop) :
    charsWithin start stop cs = charsWithin start middle cs ++ charsWithin middle stop cs := by
  obtain ⟨before, after, rfl, rfl⟩ := h
  have hbefore : charsWithin start stop before = charsWithin start (byteCount before) before := by
    rw [← charsWithin_min, Nat.min_eq_right hstop]
  rw [charsWithin_append, charsWithin_append, charsWithin_append,
    charsWithin_of_le_start (Nat.le_refl _), Nat.sub_self, charsWithin_zero_stop,
    Nat.sub_eq_zero_of_le hstart, hbefore, List.append_nil, List.nil_append]

end Utf8
end CodeSurvey
