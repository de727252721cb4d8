import EsModule.Proofs.Pairing.Basic

/-!
# Text put between two tokens

An `Insertion` is a source with a place in the gap between two of its tokens, and a text for that
place which leaves the gap a gap. It moves offsets, spans and places in the source: what stands
behind the text that is put in stands so much further behind.

A token that is not at the place itself (`Insertion.Spares`) is skipped to and read again in the
changed source (`Insertion.keeps`), whether it ends in front of the gap, is the first one behind it
or stands further behind. So is one token after the other, as far as one looks ahead
(`Insertion.nextToken_cursor`).
-/

namespace EsModule.Syntax

open EsModule.Text

/-- A source with a gap between two tokens, and a text to be put into the gap. -/
structure Insertion where
  /-- The source up to the end of the token in front of the gap. -/
  head : List Char
  /-- The gap in front of the place. -/
  front : List Char
  /-- The text that is put in. -/
  text : List Char
  /-- The gap behind the place. -/
  back : List Char
  /-- The source from the start of the token behind the gap on. -/
  tail : List Char
  /-- There is a token in front of the gap. -/
  behindToken : head ≠ []
  /-- The text keeps the tokens apart. -/
  space : text.head? = some ' '
  /-- It ends no line. -/
  line : text.any isLineTerminator = false
  /-- With it the gap is still a gap. -/
  blank : Trivia tail (front ++ text ++ back)

namespace Insertion

variable (i : Insertion)

/-- The source. -/
def source : List Char := i.head ++ (i.front ++ i.back ++ i.tail)

/-- The source with the text put in. -/
def changed : List Char := i.head ++ (i.front ++ i.text ++ i.back ++ i.tail)

/-- The offset at which the text is put in. -/
def place : Nat := byteSize (i.head ++ i.front)

/-- The offset of the first token behind the gap. -/
def resume : Nat := byteSize (i.head ++ i.front ++ i.back)

/-- How many bytes are put in. -/
def size : Nat := byteSize i.text

/-- Where what starts at an offset starts in the changed source. -/
def start (offset : Nat) : Nat := if i.place ≤ offset then offset + i.size else offset

/-- Where what ends at an offset ends in the changed source. -/
def stop (offset : Nat) : Nat := if i.place < offset then offset + i.size else offset

/-- The span of the same text in the changed source. It does not end in front of its start, even
if there is no text. -/
def span (s : Span) : Span := ⟨i.start s.start, max (i.stop s.stop) (i.start s.start)⟩

/-- The token at its place in the changed source. -/
def token (t : Token) : Token := { t with span := i.span t.span }

/-- The place in the changed source behind what ends at a place. -/
def cursor (c : Cursor) : Cursor := .seek i.changed (i.stop c.pos)

/-- What the run on the changed source gives the same numbers, and other places. -/
def transfer : Transfer where
  number := id
  start := i.start
  span := i.span
  cursor := i.cursor
  reads := List.map i.token

theorem place_le_resume : i.place ≤ i.resume := by
  simp only [place, resume, byteSize_append]
  omega

theorem head_le_place : byteSize i.head ≤ i.place := by
  simp only [place, byteSize_append]
  omega

theorem place_pos : 0 < i.place := by
  obtain ⟨ch, cs, hhead⟩ := List.exists_cons_of_ne_nil i.behindToken
  have := ch.utf8Size_pos
  rw [place, hhead, List.cons_append, byteSize_cons]
  omega

theorem stop_le_start (offset : Nat) : i.stop offset ≤ i.start offset := by
  unfold stop start
  split <;> split <;> omega

theorem stop_max (m n : Nat) : i.stop (max m n) = max (i.stop m) (i.stop n) := by
  unfold stop
  split <;> split <;> split <;> omega

/-- A span up to the end of another one, as new nodes have it. -/
theorem span_max (start stop : Nat) :
    i.span ⟨start, max stop start⟩ = ⟨i.start start, max (i.stop stop) (i.start start)⟩ := by
  have h := i.stop_le_start start
  simp only [span, stop_max, Span.mk.injEq, true_and]
  omega

theorem span_eq {start stop : Nat} (h : i.start start ≤ i.stop stop) :
    i.span ⟨start, stop⟩ = ⟨i.start start, i.stop stop⟩ := by
  rw [span, Nat.max_eq_left h]

theorem span_through {s t : Span} (h : i.start t.start ≤ i.stop t.stop) :
    i.span (s.through t) = (i.span s).through (i.span t) := by
  simp only [span, Span.through, stop_max, Span.mk.injEq, true_and]
  omega

/-! ## Places -/

variable {i} {c c' : Cursor}

/-- What is left at a place in front of the gap, and at that place in the changed source. -/
theorem cursor_of_le (hc : c.At i.source) (hle : c.pos ≤ byteSize i.head) :
    ∃ u, c.pos + byteSize u = byteSize i.head ∧ c.rest = u ++ (i.front ++ i.back ++ i.tail) ∧
      i.cursor c = ⟨c.pos, u ++ (i.front ++ i.text ++ i.back ++ i.tail)⟩ := by
  obtain ⟨read, hsource, hpos⟩ := hc
  obtain ⟨u, hhead, hrest⟩ := append_of_byteSize_le hsource.symm (hpos ▸ hle)
  refine ⟨u, ?_, hrest, ?_⟩
  · rw [hhead, hpos, byteSize_append]
  · have hplace := i.head_le_place
    have hstop : i.stop c.pos = byteSize read := by
      rw [stop, if_neg (by omega), hpos]
    rw [cursor, hstop, changed, hhead, List.append_assoc, Cursor.seek_append, hpos]

/-- Behind the gap the same text is left. -/
theorem cursor_of_lt (hc : c.At i.source) (hlt : i.resume < c.pos) :
    i.cursor c = ⟨c.pos + i.size, c.rest⟩ := by
  obtain ⟨read, hsource, hpos⟩ := hc
  have hsource' : (i.head ++ i.front ++ i.back) ++ i.tail = read ++ c.rest := by
    rw [← hsource, source]
    simp only [List.append_assoc]
  have hle : byteSize (i.head ++ i.front ++ i.back) ≤ byteSize read := by
    rw [← hpos]
    exact Nat.le_of_lt hlt
  obtain ⟨w, hread, htail⟩ := append_of_byteSize_le hsource' hle
  have hplace := i.place_le_resume
  have hchanged : i.changed = (i.head ++ i.front ++ i.text ++ i.back ++ w) ++ c.rest := by
    rw [changed, htail]
    simp only [List.append_assoc]
  have hstop : i.stop c.pos = byteSize (i.head ++ i.front ++ i.text ++ i.back ++ w) := by
    rw [stop, if_pos (by omega), hpos, hread, size]
    simp only [byteSize_append]
    omega
  rw [cursor, hchanged, hstop, Cursor.seek_append, ← hstop, stop, if_pos (by omega)]

/-- Where the text is put in, a space stands. -/
theorem parts_text (u : List Char) :
    Parts (u ++ (i.front ++ i.back ++ i.tail)) (u ++ (i.front ++ i.text ++ i.back ++ i.tail)) := by
  obtain ⟨text, htext⟩ := List.head?_eq_some_iff.mp i.space
  refine .inr ⟨u ++ i.front, i.back ++ i.tail, ' ' :: text ++ (i.back ++ i.tail), ?_, ?_,
    .inr (.inl rfl)⟩
  · simp only [List.append_assoc]
  · simp only [htext, List.append_assoc, List.cons_append]

/-! ## Tokens that are not at the place -/

/-- Says of what is read behind the offset `before` that it is not at the place: it ends in front of
the gap, or it is the first token behind it, or it stands further behind. -/
def Spares (i : Insertion) (before : Nat) (s : Span) : Prop :=
  (s.start < s.stop ∧ (s.stop ≤ byteSize i.head ∨
    before = byteSize i.head ∧ s.start = i.resume)) ∨ i.resume < before

/-- A text `w` stands in the source behind a gap. `c` is the place in front of the gap, and `c'` the
one behind the text. -/
structure Stands (i : Insertion) (c : Cursor) (gap w : List Char) (c' : Cursor) : Prop where
  before : c.At i.source
  behind : c'.At i.source
  rest : c.rest = gap ++ (w ++ c'.rest)
  pos : c'.pos = c.pos + byteSize gap + byteSize w
  trivia : Trivia (w ++ c'.rest) gap
  /-- The gap goes no further. -/
  ends : skipOne? ⟨c.pos + byteSize gap, w ++ c'.rest⟩ = none

/-- In the changed source the gap is skipped, and behind it stands the same text. Behind that, at
most a space is put in. -/
structure Kept (i : Insertion) (c : Cursor) (gap w : List Char) (c' : Cursor) : Prop where
  skip : skipTrivia (i.cursor c) = (gap.any isLineTerminator,
    ⟨i.start (c.pos + byteSize gap), w ++ (i.cursor c').rest⟩)
  pos : (i.cursor c').pos = i.start (c.pos + byteSize gap) + byteSize w
  stop : (i.cursor c').pos = i.stop c'.pos
  parts : Parts c'.rest (i.cursor c').rest

section

variable {gap w : List Char}

/-- A text that ends in front of the gap in which the place is. -/
theorem Stands.kept_of_le (h : i.Stands c gap w c') (hw : w ≠ []) (hle : c'.pos ≤ byteSize i.head) :
    i.Kept c gap w c' := by
  obtain ⟨ch, w, rfl⟩ := List.exists_cons_of_ne_nil hw
  have hchar := ch.utf8Size_pos
  have hpos := h.pos
  have hcrest := h.rest
  have htrivia := h.trivia
  have hends := h.ends
  have hhead := i.head_le_place
  rw [byteSize_cons] at hpos
  obtain ⟨u, hu, hurest, hcursor⟩ := cursor_of_le h.before (by omega)
  obtain ⟨v, hv, hvrest, hcursor'⟩ := cursor_of_le h.behind hle
  have hparts := i.parts_text v
  obtain rfl : u = gap ++ (ch :: w ++ v) := by
    have hall : u ++ (i.front ++ i.back ++ i.tail) =
        gap ++ (ch :: w ++ v) ++ (i.front ++ i.back ++ i.tail) := by
      rw [← hurest, hcrest, hvrest]
      simp only [List.append_assoc]
    exact List.append_cancel_right hall
  have hstart : i.start (c.pos + byteSize gap) = c.pos + byteSize gap := if_neg (by omega)
  have hstop : i.stop c'.pos = c'.pos := if_neg (by omega)
  rw [hvrest] at hends htrivia
  refine ⟨?_, ?_, ?_, ?_⟩
  -- the gap ends in front of the same character
  · have hagain : Trivia (ch :: w ++ (v ++ (i.front ++ i.text ++ i.back ++ i.tail))) gap :=
      htrivia.congr rfl
    rw [hstart, hcursor, hcursor', List.append_assoc, List.append_assoc]
    exact skipTrivia_of_trivia hagain _ (skipOne?_near hends (hparts.near.append w))
  · rw [hstart, hcursor', byteSize_cons]
    exact hpos
  · rw [hstop, hcursor']
  · rw [hcursor', hvrest]
    exact hparts

/-- The first text behind the gap in which the place is. -/
theorem Stands.kept_of_eq (h : i.Stands c gap w c') (hw : w ≠ []) (hpos : c.pos = byteSize i.head)
    (hresume : c.pos + byteSize gap = i.resume) : i.Kept c gap w c' := by
  obtain ⟨u, hu, hurest, hcursor⟩ := cursor_of_le h.before (Nat.le_of_eq hpos)
  obtain rfl : u = [] := byteSize_eq_zero (by omega)
  -- the gap is the one with the place, since it starts and ends where that does
  obtain ⟨rfl, htail⟩ : gap = i.front ++ i.back ∧ w ++ c'.rest = i.tail := by
    have hsize : byteSize gap = byteSize (i.front ++ i.back) := by
      rw [resume, List.append_assoc, byteSize_append] at hresume
      omega
    have hcrest := h.rest
    rw [hurest, List.nil_append] at hcrest
    obtain ⟨more, hgap, htail⟩ := append_of_byteSize_le hcrest (Nat.le_of_eq hsize.symm)
    obtain rfl : more = [] := by
      refine byteSize_eq_zero ?_
      rw [hgap, byteSize_append] at hsize
      omega
    exact ⟨by simpa using hgap, by simpa using htail.symm⟩
  have hbehind := h.pos
  have hplace := i.place_le_resume
  have hsome : 0 < byteSize w := Nat.pos_of_ne_zero fun hzero => hw (byteSize_eq_zero hzero)
  have hcursor' := cursor_of_lt h.behind (by omega)
  have hstart : i.start (c.pos + byteSize (i.front ++ i.back)) =
      c.pos + byteSize (i.front ++ i.back) + i.size := if_pos (by omega)
  have hstop : i.stop c'.pos = c'.pos + i.size := if_pos (by omega)
  refine ⟨?_, ?_, ?_, ?_⟩
  · have hsize : c.pos + byteSize (i.front ++ i.text ++ i.back) =
        c.pos + byteSize (i.front ++ i.back) + i.size := by
      rw [size]
      simp only [byteSize_append]
      omega
    have hline : (i.front ++ i.text ++ i.back).any isLineTerminator =
        (i.front ++ i.back).any isLineTerminator := by
      simp only [List.any_append, i.line, Bool.or_false]
    rw [hcursor, hcursor', htail, List.nil_append, hstart, ← hline, ← hsize]
    exact skipTrivia_of_trivia i.blank _ (skipOne?_moved (htail ▸ h.ends))
  · rw [hstart, hcursor']
    dsimp only
    omega
  · rw [hstop, hcursor']
  · rw [hcursor']
    exact .inl rfl

/-- A text that stands further behind. -/
theorem Stands.kept_of_lt (h : i.Stands c gap w c') (hlt : i.resume < c.pos) :
    i.Kept c gap w c' := by
  have hpos := h.pos
  have hplace := i.place_le_resume
  have hcursor := cursor_of_lt h.before hlt
  have hcursor' := cursor_of_lt h.behind (by omega)
  have hstart : i.start (c.pos + byteSize gap) = c.pos + i.size + byteSize gap := by
    rw [start, if_pos (by omega)]
    omega
  have hstop : i.stop c'.pos = c'.pos + i.size := if_pos (by omega)
  refine ⟨?_, ?_, ?_, ?_⟩
  · rw [hstart, hcursor, hcursor', h.rest]
    exact skipTrivia_of_trivia h.trivia _ (skipOne?_moved h.ends)
  · rw [hstart, hcursor']
    dsimp only
    omega
  · rw [hstop, hcursor']
  · rw [hcursor']
    exact .inl rfl

end

/-- A text that is spared is kept. -/
theorem keeps {w : List Char} (hc : c.At i.source) (hm : (skipTrivia c).2.Moves w c')
    (h : i.Spares c.pos ⟨(skipTrivia c).2.pos, c'.pos⟩) : i.transfer.Keeps c w c' := by
  obtain ⟨gap, hgap, htrivia, hflag⟩ := skipTrivia_moves c
  have hends := skipOne?_skipTrivia c
  have hfirst : (skipTrivia c).2 = ⟨c.pos + byteSize gap, w ++ c'.rest⟩ := by
    rw [← hgap.pos, ← hm.rest]
  rw [hfirst] at hgap htrivia hends h
  have hpos : c'.pos = c.pos + byteSize gap + byteSize w := (hfirst ▸ hm).pos
  have hstands : i.Stands c gap w c' :=
    ⟨hc, at_of_moves (at_of_moves hc hgap) (hfirst ▸ hm), hgap.rest, hpos, htrivia, hends⟩
  have hkept : i.Kept c gap w c' := by
    rcases h with ⟨hlt, h⟩ | hlt
    · have hw : w ≠ [] := by
        intro hw
        rw [hw, byteSize_nil] at hpos
        dsimp only at hlt
        omega
      rcases h with hle | ⟨hbefore, hstart⟩
      · exact hstands.kept_of_le hw hle
      · exact hstands.kept_of_eq hw hbefore hstart
    · exact hstands.kept_of_lt hlt
  obtain ⟨hskip, hend, hstop, hparts⟩ := hkept
  have hspan : i.span ⟨c.pos + byteSize gap, c'.pos⟩ =
      ⟨i.start (c.pos + byteSize gap), (i.cursor c').pos⟩ := by
    rw [i.span_eq (by omega), hstop]
  refine ⟨hm, ?_, ?_, ?_, hparts⟩ <;> rw [hfirst]
  · rw [hflag]
    exact hskip
  · exact hend
  · exact hspan

/-! ## Reading on -/

/-- Says of a token behind the offset `before` that it is text, and not at the place. -/
structure Clean (i : Insertion) (before : Nat) (t : Token) : Prop where
  /-- The token is no text that is no token. -/
  valid : ∀ cause, t.kind ≠ .invalid cause
  /-- It is not at the place. -/
  spares : i.Spares before t.span

/-- No token is at the place from a cursor on, as far as one looks ahead. -/
inductive Clears (i : Insertion) : Cursor → Prop where
  /-- No token is looked at behind this one. -/
  | last {c : Cursor} (h : i.Clean c.pos (nextToken c).1)
      (hlast : (nextToken c).1.kind.isLast = true) : Clears i c
  /-- The tokens behind this one are not at the place either. -/
  | more {c : Cursor} (h : i.Clean c.pos (nextToken c).1) (hmore : Clears i (nextToken c).2) :
      Clears i c

theorem Clears.clean (h : i.Clears c) : i.Clean c.pos (nextToken c).1 := by
  cases h with
  | last h => exact h
  | more h => exact h

theorem Clears.next (h : i.Clears c) (hk : (nextToken c).1.kind.isLast = false) :
    i.Clears (nextToken c).2 := by
  cases h with
  | last _ hlast =>
    rw [hlast] at hk
    cases hk
  | more _ hmore => exact hmore

/-- A point behind a `?` starts a number in the changed source, too: the number is not at the place,
so that its first digit still follows the point. -/
theorem digit_of_question (hc : c.At i.source) (hparts : Parts c.rest (i.cursor c).rest)
    (hdigit : ∀ s, c.rest = '.' :: s → s.head?.any Char.isDigit = true) (h : i.Clears c)
    {s : List Char} (hs : (i.cursor c).rest = '.' :: s) :
    s.head?.any Char.isDigit = true := by
  obtain ⟨d, ds, hrest, hd⟩ : ∃ d ds, c.rest = '.' :: d :: ds ∧ d.isDigit = true := by
    obtain ⟨s', hs'⟩ : ∃ s', c.rest = '.' :: s' := by
      rw [← List.head?_eq_some_iff]
      exact hparts.near.head (by decide) (by rw [hs]; rfl)
    have hany := hdigit s' hs'
    cases s' with
    | nil => cases hany
    | cons d ds => exact ⟨d, ds, hs', by simpa using hany⟩
  have hcursor : c = ⟨c.pos, '.' :: d :: ds⟩ := by rw [← hrest]
  obtain ⟨w, hm⟩ := tokenHere_pointed c.pos ds hd
  rw [← hcursor] at hm
  have hskip : skipTrivia c = (false, c) := by
    rw [hcursor]
    exact skipTrivia_of_none (skipOne?_of_head (by decide) (by decide) (by decide))
  have hspares := h.clean.spares
  rw [nextToken_eq, hskip] at hspares
  have hpos := hm.pos
  -- the number is in front of the gap, right behind it, or further behind
  rcases hspares with ⟨hlt, hle | ⟨hbefore, hstart⟩⟩ | hlt
  · dsimp only at hle
    obtain ⟨u, hu, hurest, hcursor'⟩ := cursor_of_le hc (by omega)
    have hmoved := hm.rest
    rw [hurest] at hmoved
    obtain ⟨more, rfl, -⟩ := append_of_byteSize_le hmoved.symm (by omega)
    rw [hcursor'] at hs
    obtain rfl := (List.cons.inj hs).2
    simpa using hd
  · dsimp only at hstart
    obtain ⟨u, hu, -, hcursor'⟩ := cursor_of_le hc (Nat.le_of_eq hbefore)
    obtain rfl : u = [] := byteSize_eq_zero (by omega)
    have hfront : i.front = [] := by
      refine byteSize_eq_zero ?_
      simp only [resume, byteSize_append] at hstart
      omega
    obtain ⟨text, htext⟩ := List.head?_eq_some_iff.mp i.space
    rw [hcursor', hfront, htext] at hs
    simp at hs
  · rw [cursor_of_lt hc hlt] at hs
    exact hdigit s hs

/-- A token that is not at the place is read again in the changed source. -/
theorem nextToken_cursor (hc : c.At i.source) (h : i.Clears c) :
    nextToken (i.cursor c) = (i.token (nextToken c).1, i.cursor (nextToken c).2) := by
  have hclean := h.clean
  have hnext := h.next
  rw [nextToken_eq c] at hclean hnext
  dsimp only at hclean hnext
  obtain ⟨k, c', hread⟩ : ∃ k c', tokenHere (skipTrivia c).2 = (k, c') := ⟨_, _, rfl⟩
  rw [hread] at hclean hnext
  obtain ⟨hvalid, hspares⟩ := hclean
  dsimp only at hvalid hspares hnext
  have hend : ∀ {w}, (skipTrivia c).2.Moves w c' → c'.At i.source := by
    intro w hm
    obtain ⟨gap, hgap, -⟩ := skipTrivia_moves c
    exact at_of_moves (at_of_moves hc hgap) hm
  obtain ⟨w, hm, hagain⟩ : ∃ w, (skipTrivia c).2.Moves w c' ∧
      (Parts c'.rest (i.cursor c').rest → Takes tokenHere w k (i.cursor c').rest) := by
    by_cases hk : k = .eof
    · subst hk
      obtain ⟨hnil, rfl⟩ := tokenHere_eof hread
      refine ⟨[], .refl _, ?_⟩
      intro _ pos
      -- the end of the source is no text, so it stands behind the gap
      obtain ⟨gap, hgap, -⟩ := skipTrivia_moves c
      have hle : c.pos ≤ (skipTrivia c).2.pos := by
        rw [hgap.pos]
        exact Nat.le_add_right _ _
      have hlt : i.resume < (skipTrivia c).2.pos := by
        rcases hspares with ⟨hlt, -⟩ | hlt
        · exact absurd hlt (Nat.lt_irrefl _)
        · exact Nat.lt_of_lt_of_le hlt hle
      rw [cursor_of_lt (hend (.refl _)) hlt, hnil]
      rfl
    · obtain ⟨w, -, hm, hagain⟩ := tokenHere_again hread hk
      refine ⟨w, hm, fun hparts => hagain _ ⟨hparts, ?_, ?_⟩⟩
      · intro hinvalid
        obtain ⟨cause, hcause⟩ := hinvalid
        exact absurd hcause (hvalid cause)
      · intro hquestion s hs
        subst hquestion
        exact digit_of_question (hend hm) hparts (fun s => tokenHere_question hread) (hnext rfl) hs
  have hkeeps := keeps hc hm hspares
  exact hkeeps.nextToken hread (hagain hkeeps.parts)

end Insertion

end EsModule.Syntax
