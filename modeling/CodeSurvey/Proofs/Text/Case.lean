/-
# The lower case of ASCII

In a text of ASCII characters the lower case is taken letter by letter (`Text.lower_eq_map`). Beyond
ASCII a letter may grow in lower case or depend on what stands around it, but only the dotted `I`
and the Kelvin sign come to a letter of ASCII, `i` and `k` (`Text.head_lowerOne_of_beyond`). So
whether the lower case of a text starts with a word without these two is seen letter by letter
(`Text.prefix_lower_iff`).
-/

import CodeSurvey.Text.Case

namespace CodeSurvey
namespace Text

variable {c : Char} {before cs rest w : List Char}

/-- Whether a character is one of ASCII that no letter beyond ASCII has as the
start of its lower case. -/
def IsOfAscii (c : Char) : Prop := 0 < c.toNat ∧ c.toNat < 128 ∧ c ≠ 'i' ∧ c ≠ 'k'

/-- The lower case of an ASCII character is one character. -/
theorem lowerOne_of_ascii (h : c.toNat < 128) : lowerOne before c rest = [c.toLower] := by
  have hsame : ∀ n : Fin 128,
      (if isUpperAscii (Char.ofNat n) then Char.ofNat ((Char.ofNat n).toNat + 32)
        else Char.ofNat n) =
      (Char.ofNat n).toLower := by decide +kernel
  have hc := hsame ⟨c.toNat, h⟩
  rw [Char.ofNat_toNat] at hc
  rw [lowerOne, if_pos h, hc]

/-- A text of ASCII is put in lower case letter by letter. -/
theorem lower_eq_map (h : ∀ c ∈ cs, c.toNat < 128) : lower cs = cs.map Char.toLower := by
  have hafter : ∀ before, lowerAfter before cs = cs.map Char.toLower := by
    induction cs with
    | nil => exact fun _ => rfl
    | cons c cs ih =>
      obtain ⟨hc, hcs⟩ := List.forall_mem_cons.1 h
      intro before
      rw [lowerAfter, lowerOne_of_ascii hc, ih hcs, List.map_cons, List.singleton_append]
  exact hafter []

/-- The letters beyond ASCII stay there in lower case, apart from the Kelvin sign. -/
theorem le_shiftBy_lowerRuns {n : Nat} (h : 128 ≤ n) :
    128 ≤ shiftBy lowerRuns n ∨ shiftBy lowerRuns n = 107 := by
  have hruns : ∀ r ∈ lowerRuns.toList,
      r.last < 128 ∨ 128 ≤ (r.first : Int) + r.shift ∨ r.last ≤ r.first ∧
        (r.first : Int) + r.shift = 107 := by decide +kernel
  unfold shiftBy
  split
  · rename_i r hr
    have hin := Array.find?_some hr
    simp only [Bool.and_eq_true, decide_eq_true_eq] at hin
    have := hruns r (Array.mem_toList_iff.2 (Array.mem_of_find?_eq_some hr))
    omega
  · exact .inl h

/-- Beyond ASCII, a lower case starts with no character that is one of ASCII alone. -/
theorem head_lowerOne_of_beyond (h : 128 ≤ c.toNat) :
    ∃ d ds, lowerOne before c rest = d :: ds ∧ ¬IsOfAscii d := by
  have hofNat : ∀ n, 128 ≤ n ∨ n = 107 → ¬IsOfAscii (Char.ofNat n) := by
    rintro n (hn | rfl) ⟨hpos, hlt, -, hk⟩
    · by_cases hvalid : n.isValidChar
      · have hnat : (Char.ofNatAux n hvalid).toNat = n := rfl
        rw [Char.ofNat, dif_pos hvalid, hnat] at hlt
        omega
      · rw [Char.ofNat, dif_neg hvalid] at hpos
        cases hpos
    · exact hk rfl
  rw [lowerOne, if_neg (Nat.not_lt.2 h)]
  split
  · exact ⟨'i', _, rfl, fun hi => hi.2.2.1 rfl⟩
  · split
    · refine ⟨_, _, rfl, hofNat _ (.inl ?_)⟩
      split <;> decide
    · exact ⟨_, _, rfl, hofNat _ (le_shiftBy_lowerRuns h)⟩

theorem toLower_of_beyond (h : 128 ≤ c.toNat) : c.toLower = c := by
  have hcapital : ¬(c.val ≥ 'A'.val ∧ c.val ≤ 'Z'.val) := by
    rintro ⟨-, hle⟩
    have hle' : c.toNat ≤ 90 := UInt32.le_iff_toNat_le.1 hle
    omega
  exact dif_neg hcapital

/-- **Whether the lower case of a text starts with a word** that is of ASCII alone is
seen letter by letter. -/
theorem prefix_lowerAfter_iff (hw : ∀ c ∈ w, IsOfAscii c) :
    w <+: lowerAfter before cs ↔ w <+: cs.map Char.toLower := by
  induction cs generalizing before w with
  | nil => rfl
  | cons c cs ih =>
    rcases w with _ | ⟨d, w⟩
    · simp
    · obtain ⟨hd, hw⟩ := List.forall_mem_cons.1 hw
      by_cases hc : c.toNat < 128
      · rw [lowerAfter, lowerOne_of_ascii hc, List.singleton_append, List.map_cons,
          List.cons_prefix_cons, List.cons_prefix_cons, ih hw]
      · have hbeyond := Nat.not_lt.1 hc
        obtain ⟨e, es, hlower, he⟩ := @head_lowerOne_of_beyond c before cs hbeyond
        have hde : d ≠ e := fun heq => he (heq ▸ hd)
        have hdc : d ≠ c := fun heq => hc (heq ▸ hd.2.1)
        rw [lowerAfter, hlower, List.cons_append, List.map_cons, List.cons_prefix_cons,
          List.cons_prefix_cons, toLower_of_beyond hbeyond]
        exact iff_of_false (fun h => hde h.1) (fun h => hdc h.1)

theorem prefix_lower_iff (hw : ∀ c ∈ w, IsOfAscii c) : w <+: lower cs ↔ w <+: cs.map Char.toLower :=
  prefix_lowerAfter_iff hw

end Text
end CodeSurvey
