import EsModule.Proofs.Text.Basic
import EsModule.Syntax.Lexer

/-!
# Strings, templates and regular expressions are read again

Reading is local: what a reader takes from a text it takes from that text wherever it stands, as
long as what follows cannot be taken for more of it. `Takes` says so of one reader, one text and
one continuation.

Escapes look one character ahead, so they are read again where that character is the same. Strings,
template chunks and the bodies of regular expressions carry the mark that closes them, so they are
read again in front of everything.
-/

namespace EsModule.Syntax

open EsModule.Text EsModule.Number

/-- In front of `r`, and wherever it stands, the text `w` is what `f` reads, and it gives `a`. -/
def Takes {α : Type} (f : Cursor → α × Cursor) (w : List Char) (a : α) (r : List Char) : Prop :=
  ∀ pos, f ⟨pos, w ++ r⟩ = (a, ⟨pos + byteSize w, r⟩)

theorem head_dropWhile {p : Char → Bool} {cs : List Char} {ch : Char}
    (h : (cs.dropWhile p).head? = some ch) : p ch = false := by
  have := List.head?_dropWhile_not p cs
  rw [h] at this
  simpa using this

theorem head_drop_takeWhile {p : Char → Bool} {n : Nat} {l : List Char} {ch : Char}
    (hn : ((l.take n).takeWhile p).length < n)
    (h : (l.drop ((l.take n).takeWhile p).length).head? = some ch) : p ch = false := by
  induction l generalizing n with
  | nil => simp at h
  | cons d cs ih =>
    cases n with
    | zero => simp at hn
    | succ n =>
      simp only [List.take_succ_cons, List.takeWhile_cons] at hn h
      cases hd : p d with
      | false => simp [hd] at h; rwa [h] at hd
      | true =>
        simp only [hd, ite_true, List.length_cons, List.drop_succ_cons] at hn h
        exact ih (Nat.lt_of_succ_lt_succ hn) h

/-- Hexadecimal digits are read again in front of what is no further digit, if there are too few of
them, and in front of everything, if there are enough. -/
theorem hexDigits_reads {count : Nat} {c c' : Cursor} {code : Option Nat}
    (h : hexDigits count c = (code, c')) :
    ∃ w, c.Moves w c' ∧
      (w.length < count → ∀ ch, c'.rest.head? = some ch → isDigitOf 16 ch = false) ∧
      ∀ r, (w.length < count → ∀ ch, r.head? = some ch → isDigitOf 16 ch = false) →
        Takes (hexDigits count) w code r := by
  unfold hexDigits at h
  dsimp only at h
  generalize hw : (c.rest.take count).takeWhile (isDigitOf 16) = w at h
  obtain ⟨rfl, rfl⟩ := Prod.mk.inj h
  have hle : w.length ≤ count := by
    rw [← hw]
    exact Nat.le_trans (List.takeWhile_prefix _).length_le (List.length_take_le ..)
  have hdig : ∀ ch ∈ w, isDigitOf 16 ch = true := by
    rw [← hw]
    intro ch hch
    exact List.all_eq_true.mp (List.all_takeWhile ) ch hch
  have htake : c.rest.take w.length = w := by
    have h1 : w <+: c.rest := by
      rw [← hw]
      exact (List.takeWhile_prefix _).trans (List.take_prefix _ _)
    exact (List.prefix_iff_eq_take.mp h1).symm
  refine ⟨w, ?_, ?_, ?_⟩
  · have h := c.moves_drop w.length
    rwa [htake] at h
  · intro hlt ch hch
    refine head_drop_takeWhile (n := count) (l := c.rest) ?_ ?_
    · rw [hw]; exact hlt
    · rw [hw]; exact hch
  intro r hr pos
  have hread : ((w ++ r).take count).takeWhile (isDigitOf 16) = w := by
    rw [List.take_append, List.take_of_length_le hle, List.takeWhile_append_of_pos hdig]
    have hnil : (r.take (count - w.length)).takeWhile (isDigitOf 16) = [] := by
      rcases Nat.lt_or_ge w.length count with hlt | hge
      · cases r with
        | nil => simp
        | cons ch r =>
          have hch : isDigitOf 16 ch = false := hr hlt ch rfl
          obtain ⟨k, hk⟩ : ∃ k, count - w.length = k + 1 := ⟨count - w.length - 1, by omega⟩
          simp [hk, hch]
      · simp [show count - w.length = 0 by omega]
    rw [hnil, List.append_nil]
  simp only [hexDigits, hread, Cursor.drop_append]

theorem hexDigits_takes {count : Nat} {c c' : Cursor} {code : Option Nat}
    (h : hexDigits count c = (code, c')) :
    ∃ w, c.Moves w c' ∧ ∀ r, r.head? = c'.rest.head? → Takes (hexDigits count) w code r := by
  obtain ⟨w, hm, hends, htake⟩ := hexDigits_reads h
  exact ⟨w, hm, fun r hr => htake r fun hlt ch hch => hends hlt ch (hr ▸ hch)⟩

theorem takeWhile_takes (p : Char → Bool) (c : Cursor) :
    ∀ r, (∀ ch, r.head? = some ch → p ch = false) →
      Takes (·.takeWhile p) (c.takeWhile p).1 (c.takeWhile p).1 r := by
  intro r hr pos
  exact Cursor.takeWhile_append (List.all_eq_true.mp List.all_takeWhile) hr pos

theorem head?_append_congr {α : Type} {w r r' : List α} (h : r.head? = r'.head?) :
    (w ++ r).head? = (w ++ r').head? := by
  cases w with
  | nil => exact h
  | cons ch w => rfl

theorem sees_congr {pos pos' : Nat} {r r' : List Char} (h : r.head? = r'.head?) (ch : Char) :
    Cursor.sees ⟨pos, r⟩ ch = Cursor.sees ⟨pos', r'⟩ ch := by
  simp only [Cursor.sees, h]

theorem takeWhile_stops {p : Char → Bool} {c : Cursor} {ch : Char}
    (h : (c.takeWhile p).2.rest.head? = some ch) : p ch = false :=
  head_dropWhile h

theorem codePoint_takes {c c' : Cursor} {o : Except LexError Char} (h : codePoint c = (o, c')) :
    ∃ w, c.Moves w c' ∧ ∀ r, r.head? = c'.rest.head? → Takes codePoint w o r := by
  unfold codePoint at h
  split at h
  · rename_i hb
    obtain ⟨cs, hcs⟩ : ∃ cs, c.rest = '{' :: cs := by
      simpa [Cursor.sees, List.head?_eq_some_iff] using hb
    have hm := (Cursor.moves_advance hcs).trans (c.advance.moves_takeWhile (isDigitOf 16))
    have hstop := @takeWhile_stops (isDigitOf 16) c.advance
    have htake := takeWhile_takes (isDigitOf 16) c.advance
    generalize c.advance.takeWhile (isDigitOf 16) = taken at h hm hstop htake
    obtain ⟨digits, next⟩ := taken
    dsimp only at h hm hstop htake
    split at h
    · rename_i hclose
      obtain ⟨rfl, rfl⟩ := Prod.mk.inj h
      simp only [Bool.and_eq_true] at hclose
      obtain ⟨cs', hcs'⟩ : ∃ cs, next.rest = '}' :: cs := by
        simpa [Cursor.sees, List.head?_eq_some_iff] using hclose.1
      refine ⟨_, hm.trans (Cursor.moves_advance hcs'), ?_⟩
      intro r _ pos
      have := htake ('}' :: r) (by simp; decide) (pos + '{'.utf8Size)
      simp [codePoint, this, hclose.2]
      omega
    · rename_i hclose
      obtain ⟨rfl, rfl⟩ := Prod.mk.inj h
      refine ⟨_, hm, ?_⟩
      intro r hr pos
      have := htake r (fun ch hch => hstop (hr ▸ hch)) (pos + '{'.utf8Size)
      have hsees : ∀ pos, Cursor.sees ⟨pos, r⟩ '}' = next.sees '}' := fun _ => sees_congr hr _
      simp only [Bool.not_eq_true] at hclose
      simp [codePoint, this, hsees, hclose]
      omega
  · rename_i hb
    split at h
    all_goals
      rename_i he
      obtain ⟨rfl, rfl⟩ := Prod.mk.inj h
      obtain ⟨w, hm, hw⟩ := hexDigits_takes he
      refine ⟨w, hm, ?_⟩
      intro r hr pos
      have hsees : Cursor.sees ⟨pos, w ++ r⟩ '{' = c.sees '{' := by
        simp only [Cursor.sees, hm.rest, head?_append_congr hr]
      unfold codePoint
      rw [hsees, if_neg hb, hw r hr pos]

theorem escape_takes {c c' : Cursor} {o : Except LexError (Option Char)} (h : escape c = (o, c')) :
    ∃ w, c.Moves w c' ∧ ∀ r, r.head? = c'.rest.head? → Takes escape w o r := by
  cases hc : c.rest with
  | nil =>
    simp only [escape, hc] at h
    obtain ⟨rfl, rfl⟩ := Prod.mk.inj h
    refine ⟨[], Cursor.Moves.refl _, ?_⟩
    intro r hr pos
    cases r with
    | nil => simp [escape]
    | cons ch r => simp [hc] at hr
  | cons e cs =>
    have hm := Cursor.moves_advance hc
    have hcs : c.advance.rest = cs := by simp [Cursor.advance, hc]
    -- behind `e` every branch goes on by a reader that looks at no more than the next character
    simp only [escape, hc] at h
    split at h
    · -- a zero that no digit follows
      rename_i he
      obtain ⟨rfl, rfl⟩ := Prod.mk.inj h
      refine ⟨_, hm, ?_⟩
      intro r hr pos
      simp only [Cursor.peek, ← hr, Bool.and_eq_true, decide_eq_true_eq] at he
      obtain ⟨rfl, he⟩ := he
      simp [escape, he]
    rename_i hz
    have hz' : ∀ r : List Char, r.head? = cs.head? →
        (decide (e = '0') && !r.head?.any Char.isDigit) = false := by
      intro r hr
      rw [hr]
      simpa [Cursor.peek, hcs] using hz
    split at h
    · -- two digits
      rename_i hx
      subst hx
      split at h
      all_goals
        rename_i he
        obtain ⟨rfl, rfl⟩ := Prod.mk.inj h
        obtain ⟨w, hmw, hw⟩ := hexDigits_takes he
        refine ⟨_, hm.trans hmw, ?_⟩
        intro r hr pos
        simp [escape, hw r hr (pos + 'x'.utf8Size)]
        omega
    split at h
    · -- a code point
      rename_i hx hu
      subst hu
      split at h
      all_goals
        rename_i he
        obtain ⟨rfl, rfl⟩ := Prod.mk.inj h
        obtain ⟨w, hmw, hw⟩ := codePoint_takes he
        refine ⟨_, hm.trans hmw, ?_⟩
        intro r hr pos
        simp [escape, hw r hr (pos + 'u'.utf8Size)]
        omega
    split at h
    · -- a carriage return, which takes a line feed behind it along
      rename_i hx hu he
      subst he
      obtain ⟨rfl, rfl⟩ := Prod.mk.inj h
      split
      · rename_i hn
        obtain ⟨cs', hcs'⟩ : ∃ cs', c.advance.rest = '\n' :: cs' := by
          simpa [Cursor.sees, List.head?_eq_some_iff] using hn
        refine ⟨_, hm.trans (Cursor.moves_advance hcs'), ?_⟩
        intro r hr pos
        simp [escape]
        omega
      · rename_i hn
        refine ⟨_, hm, ?_⟩
        intro r hr pos
        have : ∀ pos, Cursor.sees ⟨pos, r⟩ '\n' = false := by
          intro pos'
          rw [← Bool.not_eq_true]
          intro h
          exact hn ((sees_congr hr _).symm.trans h)
        simp [escape, this]
    rename_i hx hu hr'
    -- another line end, or a character that stands for itself or for a control character
    split at h
    all_goals
      rename_i hl
      obtain ⟨rfl, rfl⟩ := Prod.mk.inj h
      refine ⟨_, hm, ?_⟩
      intro r hr pos
      have := hz' r (hcs ▸ hr)
      simp [escape, this, hx, hu, hr', hl]

theorem head?_append_of_ne_nil {α : Type} {w r r' : List α} (h : w ≠ []) :
    (w ++ r).head? = (w ++ r').head? := by
  cases w with
  | nil => exact absurd rfl h
  | cons ch w => rfl

/-- Behind a backslash a string goes on with what the escape means. -/
theorem stringBody_escape {quote : Char} {acc cs : List Char} {c next : Cursor} {o : Option Char}
    (hc : c.rest = '\\' :: cs) (hq : quote ≠ '\\') (he : escape c.advance = (.ok o, next)) :
    stringBody quote acc c = stringBody quote (o.toList ++ acc) next := by
  rw [stringBody]
  split
  · simp_all
  · rename_i ch cs' hc'
    obtain ⟨rfl, -⟩ : ch = '\\' ∧ cs' = cs := by simpa [hc'] using hc
    rw [if_neg (Ne.symm hq), if_neg (by decide), if_pos rfl]
    split <;> simp_all
    all_goals
      obtain ⟨rfl, rfl⟩ := he
      rfl

/-- Any other character stands for itself. -/
theorem stringBody_plain {quote ch : Char} {acc cs : List Char} {c : Cursor} (hc : c.rest = ch :: cs)
    (hq : ch ≠ quote) (hl : ch ≠ '\n' ∧ ch ≠ '\r') (hb : ch ≠ '\\') :
    stringBody quote acc c = stringBody quote (ch :: acc) c.advance := by
  rw [stringBody]
  split
  · simp_all
  · rename_i ch' cs' hc'
    obtain ⟨rfl, -⟩ : ch' = ch ∧ cs' = cs := by simpa [hc'] using hc
    rw [if_neg hq, if_neg (by simp [hl]), if_neg hb]

theorem stringBody_takes {quote : Char} {acc : List Char} {c c' : Cursor} {s : String}
    (h : stringBody quote acc c = (.string s, c')) :
    ∃ w, c.Moves w c' ∧ w ≠ [] ∧ ∀ r, Takes (stringBody quote acc) w (.string s) r := by
  fun_induction stringBody quote acc c with
  | case1 acc c hr => simp at h
  | case2 acc c cs hr =>
    obtain ⟨hs, rfl⟩ := Prod.mk.inj h
    refine ⟨_, Cursor.moves_advance hr, by simp, ?_⟩
    intro r pos
    simp [stringBody, hs]
  | case3 acc c ch cs hr hq hl => simp at h
  | case4 acc c cs e next he hr hq hl ih | case5 acc c cs next he hr hq hl ih =>
    obtain ⟨w2, hm2, hw2, htake⟩ := ih h
    obtain ⟨w1, hm1, hesc⟩ := escape_takes he
    refine ⟨_, ((Cursor.moves_advance hr).trans hm1).trans hm2, by simp, ?_⟩
    intro r pos
    have hesc := hesc (w2 ++ r) (hm2.rest ▸ head?_append_of_ne_nil hw2) (pos + '\\'.utf8Size)
    rw [List.append_assoc, List.append_assoc]
    refine (stringBody_escape (c := ⟨pos, '\\' :: _⟩) rfl (Ne.symm hq) hesc).trans ?_
    exact (htake r _).trans (by simp; omega)
  | case6 => simp at h
  | case7 acc c ch cs hr hq hl hb ih =>
    obtain ⟨w, hm, -, htake⟩ := ih h
    refine ⟨_, (Cursor.moves_advance hr).trans hm, by simp, ?_⟩
    intro r pos
    rw [stringBody_plain rfl hq (by simpa using hl) hb]
    exact (htake r _).trans (by simp; omega)

/-- The cooked text of a template chunk behind an escape. -/
def cookedBehind (acc : Option (List Char)) : Except LexError (Option Char) → Option (List Char)
  | .ok (some e) => acc.map (e :: ·)
  | .ok none => acc
  | .error _ => none

/-- Behind a backslash a template chunk goes on with what the escape means. -/
theorem templateBody_escape {acc : Option (List Char)} {cs : List Char} {c next : Cursor}
    {o : Except LexError (Option Char)} (hc : c.rest = '\\' :: cs) (he : escape c.advance = (o, next)) :
    templateBody acc c = templateBody (cookedBehind acc o) next := by
  rw [templateBody]
  split
  · simp_all
  · simp_all
  · simp_all
  · rename_i ch cs' _ _ hc'
    obtain ⟨rfl, -⟩ : ch = '\\' ∧ cs' = cs := by simpa [hc'] using hc
    rw [if_pos rfl]
    split <;> simp_all
    all_goals
      obtain ⟨rfl, rfl⟩ := he
      rfl

/-- Any other character that does not end the chunk stands for itself. -/
theorem templateBody_plain {ch : Char} {acc : Option (List Char)} {cs : List Char} {c : Cursor}
    (hc : c.rest = ch :: cs) (hq : ch ≠ '`') (hd : ch = '$' → cs.head? ≠ some '{') (hb : ch ≠ '\\') :
    templateBody acc c = templateBody (acc.map (ch :: ·)) c.advance := by
  rw [templateBody]
  split
  · simp_all
  · rename_i cs' hc'
    obtain ⟨rfl, rfl⟩ := List.cons.inj (hc'.symm.trans hc)
    exact absurd rfl hq
  · rename_i cs' hc'
    obtain ⟨rfl, rfl⟩ := List.cons.inj (hc'.symm.trans hc)
    exact absurd rfl (hd rfl)
  · rename_i ch' cs' _ _ hc'
    obtain ⟨rfl, -⟩ : ch' = ch ∧ cs' = cs := by simpa [hc'] using hc
    rw [if_neg hb]

theorem templateBody_takes {acc : Option (List Char)} {c c' : Cursor}
    {o : Option (List Char) × Cursor} (h : templateBody acc c = (some o, c')) :
    ∃ w d, c.Moves w o.2 ∧ o.2.Moves d c' ∧ (d = ['`'] ∨ d = ['$', '{']) ∧
      ∀ pos r, templateBody acc ⟨pos, w ++ d ++ r⟩ =
        (some (o.1, ⟨pos + byteSize w, d ++ r⟩), ⟨pos + byteSize w + byteSize d, r⟩) := by
  fun_induction templateBody acc c with
  | case1 => simp at h
  | case2 acc c cs hr =>
    obtain ⟨ho, rfl⟩ := Prod.mk.inj h
    obtain rfl := Option.some.inj ho
    refine ⟨[], _, Cursor.Moves.refl _, Cursor.moves_advance hr, .inl rfl, ?_⟩
    intro pos r
    simp [templateBody]
  | case3 acc c cs hr =>
    obtain ⟨ho, rfl⟩ := Prod.mk.inj h
    obtain rfl := Option.some.inj ho
    have hd := c.moves_drop 2
    rw [hr] at hd
    refine ⟨[], _, Cursor.Moves.refl _, hd, .inr rfl, ?_⟩
    intro pos r
    simp [templateBody, Cursor.drop]
  | case4 acc c cs e next he _ _ hr ih | case5 acc c cs next he _ _ hr ih
  | case6 acc c cs cause next he _ _ hr ih =>
    obtain ⟨w2, d, hm2, hd, hd', htake⟩ := ih h
    obtain ⟨w1, hm1, hesc⟩ := escape_takes he
    refine ⟨_, d, ((Cursor.moves_advance hr).trans hm1).trans hm2, hd, hd', ?_⟩
    intro pos r
    have hhead : (w2 ++ d ++ r).head? = next.rest.head? := by
      rw [hm2.rest, hd.rest, ← List.append_assoc]
      exact head?_append_of_ne_nil (by rcases hd' with rfl | rfl <;> simp)
    have hesc := hesc _ hhead (pos + '\\'.utf8Size)
    simp only [List.append_assoc, List.cons_append, List.nil_append] at hesc htake ⊢
    refine (templateBody_escape (c := ⟨pos, '\\' :: _⟩) rfl hesc).trans ?_
    exact (htake _ r).trans (by simp; omega)
  | case7 acc c ch cs hq hdollar hr hb ih =>
    obtain ⟨w, d, hm, hd, hd', htake⟩ := ih h
    refine ⟨_, d, (Cursor.moves_advance hr).trans hm, hd, hd', ?_⟩
    intro pos r
    have hhead : (w ++ d ++ r).head? = cs.head? := by
      have hcs : c.advance.rest = cs := by simp [Cursor.advance, hr]
      rw [← hcs, hm.rest, hd.rest, ← List.append_assoc]
      exact head?_append_of_ne_nil (by rcases hd' with rfl | rfl <;> simp)
    have hopen : ch = '$' → (w ++ d ++ r).head? ≠ some '{' := by
      intro hch
      rw [hhead]
      intro hcs
      obtain ⟨cs', rfl⟩ := List.head?_eq_some_iff.mp hcs
      exact hdollar _ hch rfl
    simp only [List.append_assoc, List.cons_append, List.nil_append] at hopen htake ⊢
    refine (templateBody_plain (c := ⟨pos, ch :: _⟩) rfl hq hopen hb).trans ?_
    exact (htake _ r).trans (by simp; omega)

/-- What a template chunk is read from: the text of the chunk and the delimiter behind it. -/
theorem templateChunk_takes {c c' : Cursor} {chunk : Chunk} {closes : Bool}
    (h : templateChunk c = (.template chunk closes, c')) :
    c.Moves (chunk.raw.toList ++ if closes then ['`'] else ['$', '{']) c' ∧
      ∀ r, Takes templateChunk (chunk.raw.toList ++ if closes then ['`'] else ['$', '{'])
        (.template chunk closes) r := by
  unfold templateChunk at h
  split at h
  · rename_i cooked stop next ho
    obtain ⟨h1, rfl⟩ := Prod.mk.inj h
    obtain ⟨w, d, hm, hd, hd', htake⟩ := templateBody_takes ho
    dsimp only at hm hd htake
    have hraw : c.textTo stop.pos = w := hm.textTo
    rw [hraw] at h1
    obtain ⟨hchunk, hcloses⟩ := TokenKind.template.inj h1
    have hsees : stop.sees '`' = decide (d = ['`']) := by
      simp only [Cursor.sees, hd.rest]
      rcases hd' with rfl | rfl <;> rfl
    have hdelim : d = if closes then ['`'] else ['$', '{'] := by
      rw [← hcloses, hsees]
      rcases hd' with rfl | rfl <;> rfl
    subst hchunk
    dsimp only
    rw [String.toList_ofList, ← hdelim]
    refine ⟨hm.trans hd, ?_⟩
    intro r pos
    have hsees' : Cursor.sees ⟨pos + byteSize w, d ++ r⟩ '`' = closes := by
      rw [← hcloses, hsees]
      rcases hd' with rfl | rfl <;> rfl
    rw [templateChunk, htake pos r]
    simp only [Cursor.textTo, Nat.add_sub_cancel_left, List.append_assoc, before_append, hsees',
      byteSize_append, Nat.add_assoc]
  · simp at h

theorem splitRegExp_closed {inClass : Bool} {cs body rest : List Char}
    (h : splitRegExp inClass cs = (body, true, rest)) :
    cs = body ++ rest ∧ rest.head? = some '/' ∧
      ∀ r, splitRegExp inClass (body ++ '/' :: r) = (body, true, '/' :: r) := by
  fun_induction splitRegExp inClass cs generalizing body rest with
  | case1 => simp at h
  | case2 => simp at h
  | case3 inClass ch cs hl body' closed rest' hs ih =>
    obtain ⟨rfl, rfl, rfl⟩ : '\\' :: ch :: body' = body ∧ closed = true ∧ rest' = rest := by
      simpa using h
    obtain ⟨hcs, hhead, hread⟩ := ih hs
    refine ⟨by rw [hcs]; rfl, hhead, ?_⟩
    intro r
    simp [splitRegExp, hl, hread r]
  | case4 => simp at h
  | case5 inClass ch cs hne hl hslash =>
    obtain ⟨rfl, -, rfl⟩ : [] = body ∧ true = true ∧ ch :: cs = rest := by simpa using h
    simp only [Bool.and_eq_true, decide_eq_true_eq, Bool.not_eq_true'] at hslash
    obtain ⟨rfl, rfl⟩ := hslash
    refine ⟨rfl, rfl, ?_⟩
    intro r
    simp [splitRegExp, isLineTerminator]
  | case6 inClass ch cs hne hl hslash body' closed rest' hs ih =>
    obtain ⟨rfl, rfl, rfl⟩ : ch :: body' = body ∧ closed = true ∧ rest' = rest := by
      simpa using h
    obtain ⟨hcs, hhead, hread⟩ := ih hs
    refine ⟨by rw [hcs]; rfl, hhead, ?_⟩
    intro r
    have hb : ch ≠ '\\' := by
      rintro rfl
      cases cs with
      | nil => simp [splitRegExp] at hs
      | cons d cs => exact hne d cs rfl rfl
    rw [List.cons_append, splitRegExp]
    · rw [if_neg hl, if_neg hslash, hread r]
    · rintro d ds rfl
      exact absurd rfl hb

theorem regExpBody_takes {c c' : Cursor} {pattern flags : String}
    (h : regExpBody c = (.regExp pattern flags, c')) :
    splitRegExp false (pattern.toList ++ ['/']) = (pattern.toList, true, ['/']) ∧
      (∀ ch ∈ flags.toList, isIdContinue ch = true) ∧
      c.Moves (pattern.toList ++ '/' :: flags.toList) c' := by
  obtain ⟨body, closed, rest, hs⟩ :
      ∃ body closed rest, splitRegExp false c.rest = (body, closed, rest) := ⟨_, _, _, rfl⟩
  rw [regExpBody, hs] at h
  dsimp only at h
  split at h
  · rename_i hclosed
    subst hclosed
    obtain ⟨h1, rfl⟩ := Prod.mk.inj h
    obtain ⟨rfl, rfl⟩ := TokenKind.regExp.inj h1
    obtain ⟨hcs, hhead, hread⟩ := splitRegExp_closed hs
    obtain ⟨behind, rfl⟩ := List.head?_eq_some_iff.mp hhead
    have hdrop := c.moves_drop body.length
    have hslash : (c.drop body.length).rest = '/' :: behind := by simp [Cursor.drop, hcs]
    rw [hcs, List.take_left' rfl] at hdrop
    simp only [String.toList_ofList]
    refine ⟨hread [], List.all_eq_true.mp List.all_takeWhile, ?_⟩
    exact (hdrop.trans ((Cursor.moves_advance hslash).trans (Cursor.moves_takeWhile _ _)))
  · simp at h

/-- A regular expression is read from its body, the mark that closes it and its flags, if no more
flags follow. -/
theorem takes_regExpBody {pattern flags : String}
    (hp : splitRegExp false (pattern.toList ++ ['/']) = (pattern.toList, true, ['/']))
    (hf : ∀ ch ∈ flags.toList, isIdContinue ch = true) {r : List Char}
    (hr : ∀ ch, r.head? = some ch → isIdContinue ch = false) :
    Takes regExpBody (pattern.toList ++ '/' :: flags.toList) (.regExp pattern flags) r := by
  intro pos
  have hs := (splitRegExp_closed hp).2.2 (flags.toList ++ r)
  have hdrop := Cursor.drop_append pos pattern.toList ('/' :: flags.toList ++ r)
  rw [List.cons_append] at hdrop
  simp only [regExpBody, List.append_assoc, List.cons_append, hs, hdrop, Cursor.advance_cons,
    Cursor.takeWhile_append hf hr, if_true, String.ofList_toList]
  simp
  omega

end EsModule.Syntax
