import EsModule.Text.Blank
import EsModule.Text.Identifier
import EsModule.Text.Offset

/-!
# Places and characters

A cursor that moves over some text moves by the size of that text, and what it sees next does not
depend on where it stands. `Cursor.Moves` says which text lies between two places, and the readers
below are given by what they do on a text in front of another one.

What stands between tokens starts no identifier. Beyond ASCII this is a matter of the tables, where
it is checked for the twenty characters in question.
-/

namespace EsModule.Text

theorem before_append_add (w cs : List Char) (n : Nat) :
    before (w ++ cs) (byteSize w + n) = w ++ before cs n := by
  induction w with
  | nil => simp
  | cons c w ih =>
    rw [List.cons_append, before, if_pos (by simp only [byteSize_cons]; omega), byteSize_cons,
      show c.utf8Size + byteSize w + n - c.utf8Size = byteSize w + n by omega, ih]
    rfl

/-- An offset inside a character stands for the start of that character. -/
theorem before_inside (w cs : List Char) {ch : Char} {k : Nat} (hlow : byteSize w ≤ k)
    (hhigh : k < byteSize w + ch.utf8Size) : before (w ++ ch :: cs) k = w := by
  obtain ⟨n, rfl⟩ := Nat.exists_eq_add_of_le hlow
  have hn : ¬ch.utf8Size ≤ n := by omega
  rw [before_append_add, before, if_neg hn, List.append_nil]

/-- An offset beyond the end stands for the end. -/
theorem before_beyond (w : List Char) {k : Nat} (h : byteSize w ≤ k) : before w k = w := by
  obtain ⟨n, rfl⟩ := Nat.exists_eq_add_of_le h
  have hw := before_append_add w [] n
  rwa [before, List.append_nil] at hw

theorem before_append (w r : List Char) : before (w ++ r) (byteSize w) = w := by
  cases r with
  | nil => rw [List.append_nil, before_beyond w (Nat.le_refl _)]
  | cons ch r =>
    exact before_inside w r (Nat.le_refl _) (Nat.lt_add_of_pos_right ch.utf8Size_pos)

theorem byteSize_eq_zero {w : List Char} (h : byteSize w = 0) : w = [] := by
  cases w with
  | nil => rfl
  | cons ch w =>
    have := ch.utf8Size_pos
    rw [byteSize_cons] at h
    omega

/-- Of two texts that start the same text, the shorter one starts the longer one. -/
theorem append_of_byteSize_le {u v x y : List Char} (h : u ++ v = x ++ y)
    (hle : byteSize u ≤ byteSize x) : ∃ w, x = u ++ w ∧ v = w ++ y := by
  rw [List.append_eq_append_iff] at h
  rcases h with ⟨w, hx, hv⟩ | ⟨w, hu, hy⟩
  · exact ⟨w, hx, hv⟩
  · obtain rfl : w = [] := by
      refine byteSize_eq_zero ?_
      rw [hu, byteSize_append] at hle
      omega
    exact ⟨[], by simpa using hu.symm, by simpa using hy.symm⟩

namespace Cursor

theorem seek_append (w r : List Char) : seek (w ++ r) (byteSize w) = ⟨byteSize w, r⟩ := by
  have h := before_append_after (w ++ r) (byteSize w)
  rw [before_append, List.append_cancel_left_eq] at h
  rw [seek, before_append, h]

theorem At.eq_seek {c : Cursor} {source : List Char} (h : c.At source) : c = seek source c.pos := by
  obtain ⟨read, hsource, hpos⟩ := h
  rw [hsource, hpos, seek_append, ← hpos]

/-- Between two places stands the text `w`. -/
structure Moves (c : Cursor) (w : List Char) (c' : Cursor) : Prop where
  /-- The text is what was left at the first place and is gone at the second. -/
  rest : c.rest = w ++ c'.rest
  /-- The offset grew by the size of the text. -/
  pos : c'.pos = c.pos + byteSize w

theorem Moves.refl (c : Cursor) : c.Moves [] c := ⟨rfl, rfl⟩

theorem Moves.trans {c c' c'' : Cursor} {w w' : List Char} (h : c.Moves w c') (h' : c'.Moves w' c'') :
    c.Moves (w ++ w') c'' := by
  refine ⟨?_, ?_⟩
  · rw [h.rest, h'.rest, List.append_assoc]
  · rw [h'.pos, h.pos, byteSize_append]
    omega

/-- The text between two places is the text up to the second one. -/
theorem Moves.textTo {c c' : Cursor} {w : List Char} (h : c.Moves w c') : c.textTo c'.pos = w := by
  rw [Cursor.textTo, h.rest, h.pos, Nat.add_sub_cancel_left, before_append]

theorem moves_advance {c : Cursor} {ch : Char} {cs : List Char} (h : c.rest = ch :: cs) :
    c.Moves [ch] c.advance := by
  refine ⟨?_, ?_⟩ <;> simp [advance, h]

theorem moves_takeWhile (c : Cursor) (p : Char → Bool) :
    c.Moves (c.takeWhile p).1 (c.takeWhile p).2 :=
  ⟨by simp [takeWhile], by simp [takeWhile]⟩

theorem moves_drop (c : Cursor) (n : Nat) : c.Moves (c.rest.take n) (c.drop n) :=
  ⟨by simp [drop], by simp [drop]⟩

@[simp] theorem advance_cons (pos : Nat) (ch : Char) (cs : List Char) :
    advance ⟨pos, ch :: cs⟩ = ⟨pos + ch.utf8Size, cs⟩ := rfl

@[simp] theorem sees_cons (pos : Nat) (ch ch' : Char) (cs : List Char) :
    sees ⟨pos, ch :: cs⟩ ch' = (ch == ch') := rfl

@[simp] theorem peek_mk (pos : Nat) (cs : List Char) : peek ⟨pos, cs⟩ = cs.head? := rfl

theorem takeWhile_append {p : Char → Bool} {w r : List Char} (hw : ∀ ch ∈ w, p ch = true)
    (hr : ∀ ch, r.head? = some ch → p ch = false) (pos : Nat) :
    takeWhile ⟨pos, w ++ r⟩ p = (w, ⟨pos + byteSize w, r⟩) := by
  have hnil : r.takeWhile p = [] ∧ r.dropWhile p = r := by
    cases r with
    | nil => exact ⟨rfl, rfl⟩
    | cons ch r => simp [hr ch rfl]
  simp [takeWhile, List.takeWhile_append_of_pos hw, List.dropWhile_append_of_pos hw, hnil]

theorem drop_append (pos : Nat) (w r : List Char) :
    drop ⟨pos, w ++ r⟩ w.length = ⟨pos + byteSize w, r⟩ := by
  simp [drop]

end Cursor

theorem inClass_eq (bs : Array Nat) (n : Nat) :
    inClass bs n = bs.toList.foldl (fun inside b => bif Nat.ble b n then !inside else inside) false := by
  rw [inClass, ← Array.foldl_toList]
  congr
  funext inside b
  rcases h : Nat.ble b n with _ | _
  · rw [if_neg (mt Nat.ble_eq.mpr (by simp [h]))]; rfl
  · rw [if_pos (Nat.ble_eq.mp h)]; rfl

/-- The code points beyond ASCII of the characters that stand between tokens. -/
def triviaCodes : List Nat :=
  [0x85, 0xa0, 0x1680, 0x2000, 0x2001, 0x2002, 0x2003, 0x2004, 0x2005, 0x2006, 0x2007, 0x2008,
   0x2009, 0x200a, 0x2028, 0x2029, 0x202f, 0x205f, 0x3000, 0xfeff]

theorem inClass_startBoundaries_trivia :
    ∀ n ∈ triviaCodes, inClass startBoundaries n = false := by
  simp only [inClass_eq]
  decide +kernel

theorem isIdStart_of_mem_triviaCodes {c : Char} (h : c.toNat ∈ triviaCodes) :
    isIdStart c = false := by
  have h128 : ∀ n ∈ triviaCodes, ¬ n < 128 := by decide
  rw [isIdStart, if_neg (h128 _ h), inClass_startBoundaries_trivia _ h]

/-- No letter stands in front of `A`. -/
theorem isAlpha_of_lt {c : Char} (h : c.toNat < 65) : c.isAlpha = false := by
  delta Char.isAlpha Char.isUpper Char.isLower
  simp only [Bool.or_eq_false_iff, Bool.and_eq_false_iff, decide_eq_false_iff_not, ge_iff_le,
    UInt32.le_iff_toNat_le]
  simp
  omega

theorem isIdStart_of_lt {c : Char} (h : c.toNat < 0x24) : isIdStart c = false := by
  have hne : c ≠ '_' ∧ c ≠ '$' := by
    constructor
    all_goals
      rintro rfl
      revert h
      decide
  simp [isIdStart, hne, isAlpha_of_lt (c := c) (by omega), show c.toNat < 128 by omega]

/-- Nothing that stands between tokens starts an identifier. -/
theorem isIdStart_of_isBlank {c : Char} (h : isBlank c = true) : isIdStart c = false := by
  simp only [isBlank, isWhiteSpace, Bool.or_eq_true, Bool.and_eq_true, decide_eq_true_eq,
    beq_iff_eq] at h
  by_cases hlow : c.toNat < 0x24
  · exact isIdStart_of_lt hlow
  · refine isIdStart_of_mem_triviaCodes ?_
    simp only [triviaCodes, List.mem_cons, List.not_mem_nil, or_false]
    rcases h with ⟨h, -⟩ | rfl
    · rcases h with (((((((((h | h) | h) | h) | h) | h) | h) | h) | h) | h) | h <;> omega
    · decide

theorem isIdStart_of_isLineTerminator {c : Char} (h : isLineTerminator c = true) :
    isIdStart c = false := by
  simp only [isLineTerminator, Bool.or_eq_true, beq_iff_eq] at h
  rcases h with ((rfl | rfl) | rfl) | rfl
  · exact isIdStart_of_lt (by decide)
  · exact isIdStart_of_lt (by decide)
  · exact isIdStart_of_mem_triviaCodes (by decide)
  · exact isIdStart_of_mem_triviaCodes (by decide)

end EsModule.Text
