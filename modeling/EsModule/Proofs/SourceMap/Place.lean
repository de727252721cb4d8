import EsModule.Proofs.Text.Basic
import EsModule.SourceMap.Generate
import EsModule.Text.Blank
import Mathlib.Data.List.Induction

/-!
# Places in texts

Printing follows lines and columns step by step, and the lines of a source are found by bisection.
Here both are compared with plain counts: `placeBehind` counts the line feeds of a printed text and
measures what is behind the last one, and `placeAt` counts the lines of a source from left to right.
That count is also the number of line ends in front of an offset, with the size of the text behind
the last of them (`locate_counts`).
-/

namespace EsModule.SourceMap

open EsModule.Text

/-! ### Places in the printed text -/

/-- The line and the column behind a printed text, which only line feeds part into lines. -/
def placeBehind (text : List Char) : Nat × Nat :=
  (text.count '\n', utf16Length (text.reverse.takeWhile (· ≠ '\n')))

theorem foldl_utf16Size (n : Nat) (cs : List Char) :
    cs.foldl (fun n c => n + utf16Size c) n = n + utf16Length cs := by
  induction cs generalizing n with
  | nil => rfl
  | cons c cs ih =>
    rw [utf16Length, List.foldl_cons, List.foldl_cons, ih, ih (0 + utf16Size c)]
    omega

theorem utf16Length_cons (c : Char) (cs : List Char) :
    utf16Length (c :: cs) = utf16Size c + utf16Length cs := by
  rw [utf16Length, List.foldl_cons, foldl_utf16Size, Nat.zero_add]

theorem utf16Length_append (xs ys : List Char) :
    utf16Length (xs ++ ys) = utf16Length xs + utf16Length ys := by
  rw [utf16Length, List.foldl_append, foldl_utf16Size]
  rfl

theorem moveOver_append (line column : Nat) (xs ys : List Char) :
    moveOver line column (xs ++ ys) =
      moveOver (moveOver line column xs).1 (moveOver line column xs).2 ys := by
  fun_induction moveOver line column xs with
  | case1 => rfl
  | case2 line column xs ih => simpa [moveOver] using ih
  | case3 line column c xs hc ih => simpa [moveOver, hc] using ih

/-- Following a text step by step comes to the place behind it. -/
theorem moveOver_eq_placeBehind (text : List Char) : moveOver 0 0 text = placeBehind text := by
  have hreverse : ∀ text : List Char, moveOver 0 0 text.reverse = placeBehind text.reverse := by
    intro text
    induction text with
    | nil => rfl
    | cons c text ih =>
      rw [List.reverse_cons, moveOver_append, ih]
      by_cases hc : c = '\n'
      · simp [moveOver, placeBehind, hc, utf16Length]
      · simp [moveOver, placeBehind, hc, utf16Length_cons, Nat.add_comm]
  simpa using hreverse text.reverse

/-- The order of places. -/
def PlaceLE (p q : Nat × Nat) : Prop := p.1 < q.1 ∨ p.1 = q.1 ∧ p.2 ≤ q.2

theorem PlaceLE.trans {p q r : Nat × Nat} (h : PlaceLE p q) (h' : PlaceLE q r) : PlaceLE p r := by
  unfold PlaceLE at *
  omega

theorem placeLE_moveOver (line column : Nat) (text : List Char) :
    PlaceLE (line, column) (moveOver line column text) := by
  fun_induction moveOver line column text with
  | case1 line column => exact .inr ⟨rfl, Nat.le_refl _⟩
  | case2 line column text ih => exact PlaceLE.trans (.inl (Nat.lt_succ_self line)) ih
  | case3 line column c text hc ih =>
    have hstep : PlaceLE (line, column) (line, column + utf16Size c) :=
      .inr ⟨rfl, Nat.le_add_right _ _⟩
    exact hstep.trans ih

/-! ### Places in the source -/

/-- The line and the column behind the first `size` bytes of a text that starts at a line and a
column. A carriage return with a line feed behind it ends one line. -/
def placeFrom (line column : Nat) : List Char → Nat → Nat × Nat
  | [], _ => (line, column)
  | '\r' :: '\n' :: cs, size =>
    if 2 ≤ size then placeFrom (line + 1) 0 cs (size - 2) else (line, column + size)
  | c :: cs, size =>
    if c.utf8Size ≤ size then
      if isLineTerminator c then placeFrom (line + 1) 0 cs (size - c.utf8Size)
      else placeFrom line (column + utf16Size c) cs (size - c.utf8Size)
    else (line, column)

/-- The line and the column of an offset of a source, both counted from zero. -/
def placeAt (source : List Char) (offset : Nat) : Nat × Nat := placeFrom 0 0 source offset

theorem lt_of_mem_lineStarts {pos : Nat} {cs : List Char} :
    ∀ e ∈ lineStarts pos cs, pos < e.1 := by
  fun_induction lineStarts pos cs with
  | case1 => simp
  | case2 pos cs ih =>
    intro e he
    rcases List.mem_cons.mp he with rfl | he
    · exact Nat.lt_add_of_pos_right (by decide)
    · have := ih e he
      omega
  | case3 pos c cs hne next hl ih =>
    intro e he
    have hpos := c.utf8Size_pos
    rcases List.mem_cons.mp he with rfl | he
    · exact Nat.lt_add_of_pos_right hpos
    · have := ih e he
      omega
  | case4 pos c cs hne next hl ih =>
    intro e he
    have := ih e he
    omega

theorem lineStarts_pairwise (pos : Nat) (cs : List Char) :
    (lineStarts pos cs).Pairwise fun e f => e.1 < f.1 := by
  fun_induction lineStarts pos cs with
  | case1 => exact .nil
  | case2 pos cs ih => exact .cons (fun e he => lt_of_mem_lineStarts e he) ih
  | case3 pos c cs hne next hl ih => exact .cons (fun e he => lt_of_mem_lineStarts e he) ih
  | case4 pos c cs hne next hl ih => exact ih

/-- Bisection finds where the starts of lines pass an offset. -/
theorem countFrom_spec (index : LineIndex) (offset : Nat)
    (hsorted : index.later.toList.Pairwise fun (e f : Nat × List Char) => e.1 < f.1)
    {lo hi : Nat} (hle : lo ≤ hi) (hhi : hi ≤ index.later.size)
    (hbelow : ∀ i e, i < lo → index.later[i]? = some e → e.1 ≤ offset)
    (habove : ∀ i e, hi ≤ i → index.later[i]? = some e → offset < e.1) :
    index.countFrom offset lo hi ≤ index.later.size ∧
      ∀ i e, index.later[i]? = some e → (i < index.countFrom offset lo hi ↔ e.1 ≤ offset) := by
  have hmono : ∀ (i j : Nat) (e f : Nat × List Char), i < j → index.later[i]? = some e →
      index.later[j]? = some f → e.1 < f.1 := by
    intro i j e f hij he hf
    rw [← Array.getElem?_toList] at he hf
    obtain ⟨hi, rfl⟩ := List.getElem?_eq_some_iff.mp he
    obtain ⟨hj, rfl⟩ := List.getElem?_eq_some_iff.mp hf
    exact List.pairwise_iff_getElem.mp hsorted i j hi hj hij
  fun_induction LineIndex.countFrom index offset lo hi with
  | case1 lo hi hlt mid start text hmid hstart ih =>
    refine ih (by omega) hhi ?_ habove
    intro i e hi he
    rcases Nat.lt_or_eq_of_le (Nat.le_of_lt_succ hi) with hi | rfl
    · exact Nat.le_trans (Nat.le_of_lt (hmono i mid e _ hi he hmid)) hstart
    · obtain rfl := Option.some.inj (he.symm.trans hmid)
      exact hstart
  | case2 lo hi hlt mid start text hmid hstart ih =>
    refine ih (by omega) (by omega) hbelow ?_
    intro i e hi he
    rcases Nat.lt_or_eq_of_le hi with hi | rfl
    · exact Nat.lt_trans (Nat.lt_of_not_le hstart) (hmono mid i _ e hi hmid he)
    · obtain rfl := Option.some.inj (he.symm.trans hmid)
      exact Nat.lt_of_not_le hstart
  | case3 lo hi hlt mid hmid ih =>
    have : mid < index.later.size := by omega
    simp [this] at hmid
  | case4 lo hi hlt =>
    obtain rfl : lo = hi := by omega
    refine ⟨hhi, fun i e he => ⟨fun hi => hbelow i e hi he, fun hle => ?_⟩⟩
    rcases Nat.lt_or_ge i lo with hi | hi
    · exact hi
    · exact absurd (habove i e hi he) (Nat.not_lt.mpr hle)

/-- How many starts of lines come at or before an offset. -/
def startsUpTo (offset : Nat) (starts : List (Nat × List Char)) : Nat :=
  (starts.takeWhile fun e => e.1 ≤ offset).length

theorem startsUpTo_unique {offset k : Nat} {starts : List (Nat × List Char)}
    (hsize : k ≤ starts.length)
    (hk : ∀ i e, starts[i]? = some e → (i < k ↔ e.1 ≤ offset)) :
    k = startsUpTo offset starts := by
  induction starts generalizing k with
  | nil => exact Nat.le_zero.mp hsize
  | cons e starts ih =>
    have hfirst := hk 0 e rfl
    unfold startsUpTo
    by_cases he : e.1 ≤ offset
    · obtain ⟨j, rfl⟩ := Nat.exists_eq_succ_of_ne_zero (Nat.pos_iff_ne_zero.mp (hfirst.mpr he))
      rw [List.takeWhile_cons_of_pos (by simpa using he), List.length_cons]
      refine congrArg _ (ih (Nat.le_of_succ_le_succ hsize) fun i f hf => ?_)
      rw [← hk (i + 1) f hf]
      exact Nat.succ_lt_succ_iff.symm
    · rw [List.takeWhile_cons_of_neg (by simpa using he)]
      exact Nat.eq_zero_of_not_pos fun hpos => he (hfirst.mp hpos)

/-- The lines behind the first one that start at or before an offset are those with numbers below
the line of the offset. -/
theorem line_spec (source : List Char) (offset : Nat) :
    (LineIndex.ofSource source).line offset ≤ (lineStarts 0 source).length ∧
      ∀ i e, (lineStarts 0 source)[i]? = some e →
        (i < (LineIndex.ofSource source).line offset ↔ e.1 ≤ offset) := by
  obtain ⟨hsize, hspec⟩ := countFrom_spec (.ofSource source) offset
    (lineStarts_pairwise 0 source) (Nat.zero_le _) (Nat.le_refl _)
    (fun i e hi => absurd hi (Nat.not_lt_zero i))
    (fun i e hi he => by simp [Array.getElem?_eq_none hi] at he)
  refine ⟨hsize, fun i e he => ?_⟩
  exact hspec i e (by simpa [LineIndex.ofSource] using he)

theorem line_eq (source : List Char) (offset : Nat) :
    (LineIndex.ofSource source).line offset = startsUpTo offset (lineStarts 0 source) := by
  obtain ⟨hsize, hspec⟩ := line_spec source offset
  exact startsUpTo_unique hsize hspec

/-- The line and the column of an offset, when lines are left behind one after the other as long as
the next one starts at or before the offset. -/
def locateFrom (offset line : Nat) (here : Nat × List Char) :
    List (Nat × List Char) → Nat × Nat
  | [] => (line, utf16Length (before here.2 (offset - here.1)))
  | next :: later =>
    if next.1 ≤ offset then locateFrom offset (line + 1) next later
    else (line, utf16Length (before here.2 (offset - here.1)))

theorem locateFrom_of_lt {offset line : Nat} {here : Nat × List Char}
    {starts : List (Nat × List Char)} (h : ∀ e ∈ starts, offset < e.1) :
    locateFrom offset line here starts = (line, utf16Length (before here.2 (offset - here.1))) := by
  cases starts with
  | nil => rfl
  | cons next later => rw [locateFrom, if_neg (Nat.not_le.mpr (h next List.mem_cons_self))]

/-- The line is as many steps on as starts come at or before the offset. -/
theorem locateFrom_eq (offset line : Nat) (here : Nat × List Char)
    (starts : List (Nat × List Char)) :
    ∃ last, (here :: starts)[startsUpTo offset starts]? = some last ∧
      locateFrom offset line here starts =
        (line + startsUpTo offset starts, utf16Length (before last.2 (offset - last.1))) := by
  induction starts generalizing line here with
  | nil => exact ⟨here, rfl, rfl⟩
  | cons next later ih =>
    by_cases hn : next.1 ≤ offset
    · obtain ⟨last, hlast, heq⟩ := ih (line + 1) next
      have hcount : startsUpTo offset (next :: later) = startsUpTo offset later + 1 := by
        rw [startsUpTo, List.takeWhile_cons_of_pos (by simpa using hn), List.length_cons, startsUpTo]
      rw [hcount, locateFrom, if_pos hn, heq]
      exact ⟨last, hlast, by rw [Nat.add_assoc, Nat.add_comm 1]⟩
    · have hcount : startsUpTo offset (next :: later) = 0 := by
        rw [startsUpTo, List.takeWhile_cons_of_neg (by simpa using hn), List.length_nil]
      rw [hcount, locateFrom, if_neg hn]
      exact ⟨here, rfl, rfl⟩

theorem locate_eq_locateFrom (source : List Char) (offset : Nat) :
    (LineIndex.ofSource source).locate offset =
      locateFrom offset 0 (0, source) (lineStarts 0 source) := by
  obtain ⟨last, hlast, heq⟩ := locateFrom_eq offset 0 (0, source) (lineStarts 0 source)
  have hlineAt : (LineIndex.ofSource source).lineAt (startsUpTo offset (lineStarts 0 source)) =
      last := by
    generalize startsUpTo offset (lineStarts 0 source) = n at hlast
    cases n with
    | zero => exact Option.some.inj hlast
    | succ n =>
      rw [List.getElem?_cons_succ] at hlast
      simp [LineIndex.ofSource, LineIndex.lineAt, hlast]
  rw [heq, LineIndex.locate, line_eq, hlineAt, Nat.zero_add]

/-- An offset in the line that starts at `start`, of which `w` was read. -/
theorem locateFrom_inside {offset line start : Nat} {w cs : List Char}
    {starts : List (Nat × List Char)} (h : ∀ e ∈ starts, offset < e.1)
    (hle : start + byteSize w ≤ offset) :
    locateFrom offset line (start, w ++ cs) starts =
      (line, utf16Length w + utf16Length (before cs (offset - (start + byteSize w)))) := by
  have hsize : offset - start = byteSize w + (offset - (start + byteSize w)) := by omega
  rw [locateFrom_of_lt h, hsize, before_append_add, utf16Length_append]

theorem placeFrom_cons {line column size : Nat} {c : Char} {cs : List Char}
    (h : ∀ cs', c = '\r' → cs = '\n' :: cs' → False) :
    placeFrom line column (c :: cs) size =
      if c.utf8Size ≤ size then
        if isLineTerminator c then placeFrom (line + 1) 0 cs (size - c.utf8Size)
        else placeFrom line (column + utf16Size c) cs (size - c.utf8Size)
      else (line, column) := by
  rw [placeFrom]
  exact h

theorem isLineTerminator_eq (c : Char) :
    (c == '\r' || c == '\n' || c == '\u2028' || c == '\u2029') = isLineTerminator c := by
  rw [isLineTerminator, Bool.or_comm (c == '\r')]

/-- Counting from left to right comes to the line that starts last and to the column there. -/
theorem placeFrom_eq_locateFrom {offset pos : Nat} {cs : List Char} (hle : pos ≤ offset) :
    ∀ (line start : Nat) (w : List Char), pos = start + byteSize w →
      placeFrom line (utf16Length w) cs (offset - pos) =
        locateFrom offset line (start, w ++ cs) (lineStarts pos cs) := by
  fun_induction lineStarts pos cs with
  | case1 pos =>
    rintro line start w rfl
    rw [locateFrom_inside (by simp) hle]
    rfl
  | case2 pos cs ih =>
    rintro line start w rfl
    by_cases hlt : 2 ≤ offset - (start + byteSize w)
    · have hnext : start + byteSize w + 2 ≤ offset := by omega
      rw [placeFrom, if_pos hlt, locateFrom, if_pos hnext, Nat.sub_sub]
      exact ih hnext (line + 1) (start + byteSize w + 2) [] rfl
    · have hpast : ∀ e ∈ lineStarts (start + byteSize w) ('\r' :: '\n' :: cs), offset < e.1 := by
        rw [lineStarts]
        refine List.forall_mem_cons.mpr ⟨by omega, fun e he => ?_⟩
        have := lt_of_mem_lineStarts e he
        omega
      rw [lineStarts] at hpast
      rw [placeFrom, if_neg hlt, locateFrom_inside hpast hle]
      -- what is left in front of the offset is nothing or the carriage return
      obtain hzero | hone : offset - (start + byteSize w) = 0 ∨ offset - (start + byteSize w) = 1 := by
        omega
      · rw [hzero]
        rfl
      · rw [hone]
        rfl
  | case3 pos c cs hne next hl ih =>
    rintro line start w rfl
    have hend : isLineTerminator c = true := (isLineTerminator_eq c).symm.trans hl
    rw [placeFrom_cons hne]
    by_cases hlt : c.utf8Size ≤ offset - (start + byteSize w)
    · have hnext : next ≤ offset := by omega
      rw [if_pos hlt, if_pos hend, locateFrom, if_pos hnext, Nat.sub_sub]
      exact ih hnext (line + 1) next [] rfl
    · have hpast : ∀ e ∈ (next, cs) :: lineStarts next cs, offset < e.1 := by
        refine List.forall_mem_cons.mpr ⟨by omega, fun e he => ?_⟩
        have := lt_of_mem_lineStarts e he
        omega
      rw [if_neg hlt, locateFrom_inside hpast hle, before, if_neg hlt]
      rfl
  | case4 pos c cs hne next hl ih =>
    rintro line start w rfl
    have hend : isLineTerminator c = false := by
      rw [← isLineTerminator_eq]
      simpa using hl
    rw [placeFrom_cons hne]
    by_cases hlt : c.utf8Size ≤ offset - (start + byteSize w)
    · have hnext : next ≤ offset := by omega
      have hrest := ih hnext line start (w ++ [c]) (by simp [next, Nat.add_assoc])
      rw [utf16Length_append, utf16Length_cons, List.append_assoc] at hrest
      rw [if_pos hlt, if_neg (by simp [hend]), Nat.sub_sub]
      exact hrest
    · have hpast : ∀ e ∈ lineStarts next cs, offset < e.1 := by
        intro e he
        have := lt_of_mem_lineStarts e he
        omega
      rw [if_neg hlt, locateFrom_inside hpast hle, before, if_neg hlt]
      rfl

/-- Bisection in the table of lines comes to the place that counting from left to right gives. -/
theorem locate_eq_placeAt (source : List Char) (offset : Nat) :
    (LineIndex.ofSource source).locate offset = placeAt source offset := by
  rw [locate_eq_locateFrom, placeAt]
  exact (placeFrom_eq_locateFrom (Nat.zero_le offset) 0 0 [] rfl).symm

/-! ### Counting line ends -/

/-- Whether a line ends between two parts of a text: behind `\n`, U+2028 or U+2029, and behind `\r`
unless `\n` comes next. -/
def endsLine (read rest : List Char) : Bool :=
  match read.getLast? with
  | some c => isLineTerminator c && !(c == '\r' && rest.head? == some '\n')
  | none => false

/-- After how many characters of the part of a text that was read its lines end. -/
def lineEnds (read rest : List Char) : List Nat :=
  (List.range (read.length + 1)).filter fun k => endsLine (read.take k) (read.drop k ++ rest)

theorem lineEnds_concat (read : List Char) (c : Char) (rest : List Char) :
    lineEnds (read ++ [c]) rest =
      lineEnds read (c :: rest) ++ if endsLine (read ++ [c]) rest then [read.length + 1] else [] := by
  have hfirst : ∀ k ∈ List.range (read.length + 1),
      endsLine ((read ++ [c]).take k) ((read ++ [c]).drop k ++ rest) =
        endsLine (read.take k) (read.drop k ++ c :: rest) := by
    intro k hk
    have hle : k ≤ read.length := Nat.le_of_lt_succ (List.mem_range.mp hk)
    rw [List.take_append_of_le_length hle, List.drop_append_of_le_length hle, List.append_assoc]
    rfl
  have hlength : (read ++ [c]).length = read.length + 1 := List.length_append
  unfold lineEnds
  rw [hlength, List.range_succ, List.filter_append, List.filter_congr hfirst]
  refine congrArg _ ?_
  rw [List.filter_cons, List.filter_nil, ← hlength, List.take_length, List.drop_length,
    List.nil_append]

theorem le_of_mem_lineEnds {read rest : List Char} {k : Nat} (h : k ∈ lineEnds read rest) :
    k ≤ read.length :=
  Nat.le_of_lt_succ (List.mem_range.mp (List.mem_filter.mp h).1)

/-- Where a count of lines and columns is after one more character. -/
def nextPlace (p : Nat × Nat) (c : Char) (rest : List Char) : Nat × Nat :=
  if endsLine [c] rest then (p.1 + 1, 0) else (p.1, p.2 + utf16Size c)

theorem endsLine_concat (read : List Char) (c : Char) (rest : List Char) :
    endsLine (read ++ [c]) rest = endsLine [c] rest := by
  unfold endsLine
  rw [List.getLast?_concat]
  rfl

theorem endsLine_singleton {c : Char} {rest : List Char}
    (h : ∀ rest', c = '\r' → rest = '\n' :: rest' → False) :
    endsLine [c] rest = isLineTerminator c := by
  have hpair : (c == '\r' && rest.head? == some '\n') = false := by
    rw [Bool.and_eq_false_imp, beq_iff_eq]
    intro hc
    cases rest with
    | nil => rfl
    | cons d rest => simpa using fun hd => h rest hc (congrArg (· :: rest) hd)
  change (isLineTerminator c && !(c == '\r' && rest.head? == some '\n')) = isLineTerminator c
  rw [hpair, Bool.not_false, Bool.and_true]

/-- Counting from left to right goes on by one character at a time, also between the two characters
of `\r\n`. -/
theorem placeFrom_next (p : Nat × Nat) (c : Char) (rest : List Char) (size : Nat) :
    placeFrom p.1 p.2 (c :: rest) (c.utf8Size + size) =
      placeFrom (nextPlace p c rest).1 (nextPlace p c rest).2 rest size := by
  by_cases hpair : ∃ rest', c = '\r' ∧ rest = '\n' :: rest'
  · obtain ⟨rest, rfl, rfl⟩ := hpair
    have hnext : nextPlace p '\r' ('\n' :: rest) = (p.1, p.2 + 1) := rfl
    rw [hnext]
    cases size with
    | zero => rfl
    | succ size =>
      have hsize : '\r'.utf8Size + (size + 1) - 2 = size := by
        change 1 + (size + 1) - 2 = size
        omega
      have htwo : 2 ≤ '\r'.utf8Size + (size + 1) := by
        change 2 ≤ 1 + (size + 1)
        omega
      have hone : '\n'.utf8Size ≤ size + 1 := Nat.le_add_left 1 size
      rw [placeFrom, if_pos htwo, hsize, placeFrom_cons (by simp), if_pos hone]
      rfl
  · have hsingle : ∀ rest', c = '\r' → rest = '\n' :: rest' → False :=
      fun rest' hc hrest => hpair ⟨rest', hc, hrest⟩
    rw [placeFrom_cons hsingle, if_pos (Nat.le_add_right _ _), Nat.add_sub_cancel_left, nextPlace,
      endsLine_singleton hsingle]
    split <;> rfl

theorem placeFrom_zero (line column : Nat) (cs : List Char) :
    placeFrom line column cs 0 = (line, column) := by
  unfold placeFrom
  split
  · rfl
  · rfl
  · rename_i c cs _
    rw [if_neg (Nat.not_le.mpr c.utf8Size_pos)]

theorem placeFrom_append (line column : Nat) (read rest : List Char) (size : Nat) :
    placeFrom line column (read ++ rest) (byteSize read + size) =
      placeFrom (placeFrom line column (read ++ rest) (byteSize read)).1
        (placeFrom line column (read ++ rest) (byteSize read)).2 rest size := by
  induction read generalizing line column with
  | nil => simp [placeFrom_zero]
  | cons c read ih =>
    rw [List.cons_append, byteSize_cons, Nat.add_assoc, placeFrom_next (line, column), ih,
      placeFrom_next (line, column)]

/-- The place of an offset follows from the place in front of the character there. -/
theorem placeAt_concat (read : List Char) (c : Char) (rest : List Char) :
    placeAt (read ++ c :: rest) (byteSize (read ++ [c])) =
      nextPlace (placeAt (read ++ c :: rest) (byteSize read)) c rest := by
  have hnext := placeFrom_next (placeAt (read ++ c :: rest) (byteSize read)) c rest 0
  rw [placeFrom_zero, Nat.add_zero] at hnext
  have hsize : byteSize (read ++ [c]) = byteSize read + c.utf8Size := byteSize_append read [c]
  rw [hsize, placeAt, placeFrom_append]
  exact hnext

/-- Counting comes to the number of line ends in front of an offset, and to the size of the text
behind the last of them. -/
theorem placeAt_eq_lineEnds (read rest : List Char) : placeAt (read ++ rest) (byteSize read) =
    ((lineEnds read rest).length,
      utf16Length (read.drop ((lineEnds read rest).getLastD 0))) := by
  induction read using List.reverseRecOn generalizing rest with
  | nil => exact placeFrom_zero 0 0 rest
  | append_singleton read c ih =>
    rw [List.append_assoc, List.singleton_append, placeAt_concat, ih, lineEnds_concat, nextPlace,
      endsLine_concat]
    split
    · have hdrop : (read ++ [c]).drop (read.length + 1) = [] :=
        List.drop_eq_nil_of_le (by simp)
      rw [List.length_append, List.getLastD_concat, hdrop]
      rfl
    · have hle : (lineEnds read (c :: rest)).getLastD 0 ≤ read.length := by
        rcases List.mem_cons.mp List.getLastD_mem_cons with hzero | hmem
        · exact hzero ▸ Nat.zero_le _
        · exact le_of_mem_lineEnds hmem
      rw [List.append_nil, List.drop_append_of_le_length hle, utf16Length_append, utf16Length_cons]
      rfl

/-- The strict order of places. -/
def PlaceLT (p q : Nat × Nat) : Prop := p.1 < q.1 ∨ p.1 = q.1 ∧ p.2 < q.2

theorem placeLT_nextPlace (p : Nat × Nat) (c : Char) (rest : List Char) :
    PlaceLT p (nextPlace p c rest) := by
  unfold nextPlace
  split
  · exact .inl (Nat.lt_succ_self p.1)
  · have hpos : 0 < utf16Size c := by
      unfold utf16Size
      split <;> decide
    exact .inr ⟨rfl, Nat.lt_add_of_pos_right hpos⟩

/-- More text takes more lines, or more of the same line. -/
theorem placeAt_lt (read more rest : List Char) (c : Char) :
    PlaceLT (placeAt (read ++ c :: more ++ rest) (byteSize read))
      (placeAt (read ++ c :: more ++ rest) (byteSize (read ++ c :: more))) := by
  induction more using List.reverseRecOn generalizing rest with
  | nil =>
    rw [List.append_assoc, List.singleton_append, placeAt_concat]
    exact placeLT_nextPlace _ c rest
  | append_singleton more d ih =>
    have hread : read ++ c :: (more ++ [d]) = (read ++ c :: more) ++ [d] := by simp
    have hlast := placeLT_nextPlace
      (placeAt ((read ++ c :: more) ++ d :: rest) (byteSize (read ++ c :: more))) d rest
    rw [← placeAt_concat] at hlast
    have hstep := ih (d :: rest)
    rw [hread, List.append_assoc _ [d], List.singleton_append]
    unfold PlaceLT at *
    omega

/-- The offsets where the lines of a source start. -/
def lineOffsets (index : LineIndex) : List Nat := 0 :: index.later.toList.map (·.1)

/-- Bisection finds a line that starts at or before the offset, and the next line starts behind
it. -/
theorem line_between (source : List Char) (offset : Nat) :
    ∃ start,
      (lineOffsets (.ofSource source))[(LineIndex.ofSource source).line offset]? = some start ∧
      start ≤ offset ∧ ∀ next,
        (lineOffsets (.ofSource source))[(LineIndex.ofSource source).line offset + 1]? = some next →
          offset < next := by
  obtain ⟨hsize, hspec⟩ := line_spec source offset
  have hlater : ∀ i, (lineOffsets (.ofSource source))[i + 1]? =
      ((lineStarts 0 source)[i]?).map (·.1) := fun i => List.getElem?_map
  generalize (LineIndex.ofSource source).line offset = line at *
  have hnext : ∀ next, (lineOffsets (.ofSource source))[line + 1]? = some next → offset < next := by
    intro next hnext
    rw [hlater, Option.map_eq_some_iff] at hnext
    obtain ⟨e, he, rfl⟩ := hnext
    exact Nat.lt_of_not_le fun hle => Nat.lt_irrefl line ((hspec line e he).mpr hle)
  cases line with
  | zero => exact ⟨0, rfl, Nat.zero_le offset, hnext⟩
  | succ line =>
    have he := List.getElem?_eq_getElem (l := lineStarts 0 source) hsize
    refine ⟨_, by rw [hlater, he]; rfl, ?_, hnext⟩
    exact (hspec line _ he).mp (Nat.lt_succ_self line)

/-- A place in a source is found as it is counted: its line is the number of line ends in front of
the offset, and its column is the size of the text behind the last of them. So places increase with
offsets, and bisection never leaves the lines of the source. -/
theorem locate_counts :
    (∀ read rest : List Char, (LineIndex.ofSource (read ++ rest)).locate (byteSize read) =
      ((lineEnds read rest).length,
        utf16Length (read.drop ((lineEnds read rest).getLastD 0)))) ∧
    (∀ (read : List Char) (c : Char) (more rest : List Char),
      PlaceLT ((LineIndex.ofSource (read ++ c :: more ++ rest)).locate (byteSize read))
        ((LineIndex.ofSource (read ++ c :: more ++ rest)).locate (byteSize (read ++ c :: more)))) ∧
    ∀ (source : List Char) (offset : Nat),
      ∃ start,
        (lineOffsets (.ofSource source))[(LineIndex.ofSource source).line offset]? = some start ∧
        start ≤ offset ∧ ∀ next,
          (lineOffsets (.ofSource source))[(LineIndex.ofSource source).line offset + 1]? =
            some next → offset < next := by
  simp only [locate_eq_placeAt]
  exact ⟨placeAt_eq_lineEnds, fun read c more rest => placeAt_lt read more rest c, line_between⟩

/-- A line end of two characters counts once, behind its line feed. -/
example : lineEnds "ab\ncd\r\nef".toList [] = [3, 7] ∧ lineEnds "ab\r".toList ['\n'] = [] := by
  decide

end EsModule.SourceMap
