import EsModule.Proofs.Pairing.Node

/-!
# The same text in two sources

A `Passage` is a text that stands in two sources, behind some tokens in the first one and at the
start of the second one, and in front of a space in both. As long as a run on the first source stays
in the passage, a run on the second one goes along with it (`Passage.pairing`): it gives the same
trees, with numbers and spans that are counted from where the passage starts.

Whether a run stays in the passage is known at its end only. So `Passage.Clear` looks ahead, as far
as rules do: up to a token behind which one looks no further.
-/

namespace EsModule.Syntax

open EsModule.Text

/-- A text that stands in two sources. -/
structure Passage where
  /-- What stands in front of the text in the first source. -/
  head : List Char
  /-- The text. -/
  body : List Char
  /-- What stands behind it in the first source. -/
  tail : List Char
  /-- What stands behind it in the second source. -/
  tail' : List Char
  /-- How many tokens are read in front of the text. -/
  tokens : Nat
  /-- How many nodes are made there. -/
  nodes : Nat
  /-- A space keeps the text apart from what stands behind it. -/
  space : tail.head? = some ' '
  /-- So it does in the second source. -/
  space' : tail'.head? = some ' '

namespace Passage

variable (i : Passage)

/-- The first source. -/
def source : List Char := i.head ++ (i.body ++ i.tail)

/-- The second source. -/
def other : List Char := i.body ++ i.tail'

/-- The offset at which the text starts in the first source. -/
def place : Nat := byteSize i.head

/-- The offset at which it ends there. -/
def limit : Nat := byteSize (i.head ++ i.body)

/-- What the run on the second source gives the numbers and places that are left when those in front
of the text are taken off. -/
def transfer : Transfer where
  number := fun id => id - i.nodes
  start := fun offset => offset - i.place
  span := fun span => ⟨span.start - i.place, span.stop - i.place⟩
  cursor := fun c => .seek i.other (c.pos - i.place)
  reads := fun ts => (ts.take (ts.length - i.tokens)).map fun t =>
    { t with span := ⟨t.span.start - i.place, t.span.stop - i.place⟩ }

variable {i} {c c' : Cursor}

/-! ## Places in the passage -/

/-- What is left at a place in the passage, in both sources. -/
theorem cursor_of_le (hc : c.At i.source) (hplace : i.place ≤ c.pos) (hle : c.pos ≤ i.limit) :
    ∃ v, c.rest = v ++ i.tail ∧ i.transfer.cursor c = ⟨c.pos - i.place, v ++ i.tail'⟩ := by
  obtain ⟨read, hsource, hpos⟩ := hc
  rw [hpos] at hplace hle
  obtain ⟨u, rfl, hbody⟩ := append_of_byteSize_le hsource hplace
  obtain ⟨v, hv, hrest⟩ : ∃ v, i.body = u ++ v ∧ c.rest = v ++ i.tail := by
    refine append_of_byteSize_le hbody.symm ?_
    rw [limit, byteSize_append, byteSize_append] at hle
    omega
  have hsize : c.pos - i.place = byteSize u := by
    rw [hpos, byteSize_append, place]
    omega
  refine ⟨v, hrest, ?_⟩
  show Cursor.seek i.other (c.pos - i.place) = _
  rw [hsize, other, hv, List.append_assoc, Cursor.seek_append]

/-- A text that ends in the passage is kept. -/
theorem keeps {w : List Char} (hc : c.At i.source) (hplace : i.place ≤ c.pos)
    (hm : (skipTrivia c).2.Moves w c') (hle : c'.pos ≤ i.limit) : i.transfer.Keeps c w c' := by
  obtain ⟨gap, hgap, htrivia, hflag⟩ := skipTrivia_moves c
  have hends := skipOne?_skipTrivia c
  have hc' := at_of_moves (at_of_moves hc hgap) hm
  have hsize := hgap.pos
  have hsize' := hm.pos
  obtain ⟨u, hu, hcursor⟩ := cursor_of_le hc hplace (by omega)
  obtain ⟨v, hv, hcursor'⟩ := cursor_of_le hc' (by omega) hle
  have hfirst : (skipTrivia c).2.rest = w ++ v ++ i.tail := by
    rw [hm.rest, hv, List.append_assoc]
  -- the text in front of the end of the passage is the same in both sources
  obtain rfl : u = gap ++ (w ++ v) := by
    refine (List.append_left_inj i.tail).mp ?_
    rw [← hu, hgap.rest, hfirst]
    simp only [List.append_assoc]
  -- the space behind the passage would be part of the gap
  obtain ⟨ch, text, htext⟩ : ∃ ch text, w ++ v = ch :: text := by
    refine List.exists_cons_of_ne_nil fun hnil => ?_
    obtain ⟨tail, htail⟩ := List.head?_eq_some_iff.mp i.space
    rw [hnil, List.nil_append, htail] at hfirst
    have hskip := skipOne?_single (by decide) (.inr (by decide : isBlank ' ' = true))
      (skipTrivia c).2.pos tail
    rw [← hfirst, hends] at hskip
    cases hskip
  have hbreaks : Breaks i.tail i.tail' := .inr (.inl i.space')
  have hstart : c.pos - i.place + byteSize gap = (skipTrivia c).2.pos - i.place := by omega
  refine ⟨hm, ?_, ?_, ?_, ?_⟩
  · rw [hcursor, hcursor', hflag]
    show _ = (_, (⟨(skipTrivia c).2.pos - i.place, w ++ (v ++ i.tail')⟩ : Cursor))
    rw [← hstart, List.append_assoc, ← List.append_assoc w]
    refine skipTrivia_of_trivia (htrivia.congr ?_) _ ?_
    · rw [hfirst, htext]
      rfl
    · rw [htext]
      refine skipOne?_near (?_ : skipOne? ⟨(skipTrivia c).2.pos, ch :: (text ++ i.tail)⟩ = none)
        (hbreaks.near.append text)
      rw [← List.cons_append, ← htext, ← hfirst]
      exact hends
  · rw [hcursor']
    show c'.pos - i.place = (skipTrivia c).2.pos - i.place + byteSize w
    omega
  · rw [hcursor']
    rfl
  · rw [hcursor', hv]
    exact .inr ⟨v, i.tail, i.tail', rfl, rfl, hbreaks⟩

/-- A token that ends in the passage is read again in the second source. -/
theorem nextToken_cursor (hc : c.At i.source) (hplace : i.place ≤ c.pos)
    (hvalid : ∀ cause, (nextToken c).1.kind ≠ .invalid cause)
    (hle : (nextToken c).2.pos ≤ i.limit) : nextToken (i.transfer.cursor c) =
      (i.transfer.token (nextToken c).1, i.transfer.cursor (nextToken c).2) := by
  rw [nextToken_eq c] at hvalid hle
  dsimp only at hvalid hle
  obtain ⟨k, c', hread⟩ : ∃ k c', tokenHere (skipTrivia c).2 = (k, c') := ⟨_, _, rfl⟩
  rw [hread] at hvalid hle
  obtain ⟨gap, hgap, -⟩ := skipTrivia_moves c
  have hfirst := hgap.pos
  obtain ⟨w, hm⟩ := tokenHere_moves (skipTrivia c).2
  rw [hread] at hm
  have hend := hm.pos
  have hc' := at_of_moves (at_of_moves hc hgap) hm
  obtain ⟨v, hv, hcursor⟩ := cursor_of_le hc' (by omega) hle
  obtain ⟨tail, htail⟩ := List.head?_eq_some_iff.mp i.space
  obtain ⟨tail', htail'⟩ := List.head?_eq_some_iff.mp i.space'
  have hk : k ≠ .eof := by
    rintro rfl
    obtain ⟨hnil, rfl⟩ := tokenHere_eof hread
    rw [hnil, htail] at hv
    simp at hv
  obtain ⟨w, -, hm, hagain⟩ := tokenHere_again hread hk
  have hkeeps := keeps hc hplace hm hle
  refine hkeeps.nextToken hread (hagain _ ⟨hkeeps.parts, ?_, ?_⟩)
  · rintro ⟨cause, hcause⟩
    exact absurd hcause (hvalid cause)
  · rintro rfl s hs
    -- a point is no end of the passage, for no digit is behind it
    rw [hcursor, htail'] at hs
    dsimp only at hs
    cases v with
    | nil => cases hs
    | cons ch v =>
      obtain ⟨rfl, rfl⟩ := List.cons.inj hs
      have hdigit := tokenHere_question hread hv
      cases v with
      | nil =>
        rw [htail] at hdigit
        cases hdigit
      | cons d v => exact hdigit

/-! ## The first run -/

/-- Says that a state is one of a run on the first source, and that the passage has started. -/
structure Tracked (i : Passage) (s : State) : Prop extends s.Placed i.source where
  text : s.current.kind.isText = true → s.current.span.start < s.current.span.stop
  place : i.place ≤ s.before.pos
  nodes : i.nodes ≤ s.nextId
  tokens : i.tokens ≤ s.read.length

/-- No token up to one behind which rules look no further ends behind the passage. -/
inductive Clear (i : Passage) : State → Prop where
  /-- Rules look no further than to this token. -/
  | last {s : State} (hvalid : ∀ cause, s.current.kind ≠ .invalid cause)
      (hle : s.behind.pos ≤ i.limit) (hlast : s.current.kind.isLast = true) : Clear i s
  /-- Rules may look further. -/
  | more {s : State} (hvalid : ∀ cause, s.current.kind ≠ .invalid cause) (h : Clear i s.next) :
      Clear i s

variable {s : State}

theorem Clear.valid (h : i.Clear s) : ∀ cause, s.current.kind ≠ .invalid cause := by
  cases h with
  | last hvalid => exact hvalid
  | more hvalid => exact hvalid

theorem Clear.le (h : i.Clear s) : s.behind.pos ≤ i.limit := by
  induction h with
  | last _ hle => exact hle
  | more _ _ ih => exact Nat.le_trans (pos_le_nextToken _) ih

/-- Only the current token and the place behind it matter. -/
theorem Clear.of_counted (h : i.Clear s.counted) : i.Clear s := by
  generalize hs : s.counted = s' at h
  induction h generalizing s with
  | last hvalid hle hlast =>
    subst hs
    exact .last hvalid hle hlast
  | more hvalid _ ih =>
    subst hs
    exact .more hvalid (ih rfl)

theorem Clear.next (h : i.Clear s) (hlast : s.current.kind.isLast = false) : i.Clear s.next := by
  cases h with
  | last _ _ hk =>
    rw [hk] at hlast
    cases hlast
  | more _ h => exact h

namespace Tracked

theorem behind (h : i.Tracked s) : i.place ≤ s.behind.pos := by
  obtain ⟨gap, hgap, -⟩ := skipTrivia_moves s.before
  obtain ⟨w, hm⟩ := h.token
  have hplace := h.place
  have hfirst := hgap.pos
  have hend := hm.pos
  omega

theorem counted (h : i.Tracked s) : i.Tracked s.counted :=
  ⟨h.toPlaced.counted, h.text, h.place, Nat.le_succ_of_le h.nodes, h.tokens⟩

theorem next (h : i.Tracked s) : i.Tracked s.next :=
  ⟨h.toPlaced.next, nextToken_lt, h.behind, h.nodes, Nat.le_succ_of_le h.tokens⟩

theorem state_counted (h : i.Tracked s) :
    i.transfer.state s.counted = (i.transfer.state s).counted := by
  have hnodes : s.nextId + 1 - i.nodes = s.nextId - i.nodes + 1 := Nat.sub_add_comm h.nodes
  exact congrArg (fun id => State.mk _ _ _ _ id _) hnodes

theorem state_next (h : i.Tracked s) (hclear : i.Clear s.next) :
    i.transfer.state s.next = (i.transfer.state s).next := by
  have hnext := nextToken_cursor h.behind_at h.behind hclear.valid hclear.le
  have hreads : i.transfer.reads (s.current :: s.read) =
      i.transfer.token s.current :: i.transfer.reads s.read := by
    show List.map _ ((s.current :: s.read).take (s.read.length + 1 - i.tokens)) = _
    rw [Nat.sub_add_comm h.tokens]
    rfl
  show State.mk _ _ _ _ _ (i.transfer.reads (s.current :: s.read)) =
    State.mk (nextToken (i.transfer.cursor s.behind)).1 _
      (nextToken (i.transfer.cursor s.behind)).2 _ _ _
  rw [hnext, hreads]
  rfl

theorem textOf (h : i.Tracked s) (hclear : i.Clear s) :
    (i.transfer.state s).text = s.text := by
  obtain ⟨w, hm⟩ := h.token
  exact (keeps h.before h.place hm hclear.le).text h.toPlaced

section

variable {f : Cursor → TokenKind × Cursor} {rule : Nat → Cursor → Token × Cursor}
  {mark : Punctuator}

theorem rescanned (h : i.Tracked s) (hr : Rescans f rule)
    (hk : s.current.kind = .punctuator mark) : i.Tracked (s.rescanned rule) := by
  refine ⟨h.toPlaced.readAgain hr hk, fun _ => h.toPlaced.readAgain_lt hr hk, ?_, ?_, ?_⟩ <;>
    rw [hr.rescanned_eq]
  · exact h.place
  · exact h.nodes
  · exact h.tokens

theorem clear_of_rescanned (h : i.Tracked s) (hr : Rescans f rule)
    (hk : s.current.kind = .punctuator mark) (hlast : s.current.kind.isLast = true)
    (hclear : i.Clear (s.rescanned rule)) : i.Clear s := by
  have hstop : ∀ {s : State}, s.Placed i.source → s.current.span.stop = s.behind.pos :=
    fun h => congrArg Span.stop h.span
  have hle := h.toPlaced.readAgain_le hr hk hlast hclear.valid
  rw [hstop h.toPlaced, hstop (h.toPlaced.readAgain hr hk)] at hle
  exact .last (by rw [hk]; exact nofun) (Nat.le_trans hle hclear.le) hlast

theorem state_rescanned (h : i.Tracked s) (hr : Rescans f rule)
    (hk : s.current.kind = .punctuator mark) (hclear : i.Clear (s.rescanned rule)) :
    i.transfer.state (s.rescanned rule) = (i.transfer.state s).rescanned rule := by
  refine Transfer.Keeps.rescanned h.toPlaced hr hk hclear.valid (fun _ => rfl) fun w hm => ?_
  have hle := hclear.le
  rw [hr.rescanned_eq] at hle hm ⊢
  exact keeps h.before h.place hm hle

end

end Tracked

/-! ## The two runs -/

variable (i) in
/-- The run on the first source, and the one on the second source. -/
def pairing : Pairing where
  toTransfer := i.transfer
  deep := False
  exact := False
  source := i.source
  Tracked := i.Tracked
  Clear := i.Clear
  placed := Tracked.toPlaced
  text := Tracked.text
  counted := Tracked.counted
  of_counted := fun ht h => ⟨h.of_counted, ht.state_counted⟩
  next := fun ht _ => ht.next
  of_next := by
    intro s ht hk h
    refine ⟨.more (fun cause hcause => ?_) h, ht.state_next h⟩
    rw [hcause] at hk
    cases hk
  rescanned := fun ht hr hk => ht.rescanned hr.rescans hk
  of_rescanned := fun ht hr hk h =>
    ⟨ht.clear_of_rescanned hr.rescans hk (hk ▸ hr.isLast) h, ht.state_rescanned hr.rescans hk h⟩
  ahead := fun ht h hlast =>
    have hnext := h.next hlast
    nextToken_cursor ht.behind_at ht.behind hnext.valid hnext.le
  beyond := fun ht h hlast hlast' =>
    have hnext := (h.next hlast).next hlast'
    nextToken_cursor ht.next.behind_at ht.next.behind hnext.valid hnext.le
  textOf := Tracked.textOf
  span_start := fun _ => rfl
  span_max := by
    intro s _ first
    show Span.mk _ (max s.previous.stop first - i.place) = ⟨_, _⟩
    rw [← Nat.sub_max_sub_right]
    rfl
  span_through := by
    intro s _ span
    show Span.mk _ (max s.previous.stop span.stop - i.place) = ⟨_, _⟩
    rw [← Nat.sub_max_sub_right]
    rfl
  same := nofun

/-- Where the passage starts in the first run, the second one starts. -/
theorem state_start (h : i.Tracked s) (hclear : i.Clear s) (hnormal : s.Normal)
    (hbefore : s.before.pos = i.place) (hstart : s.previous.start ≤ i.place)
    (hnodes : s.nextId = i.nodes + 1) (htokens : s.read.length = i.tokens)
    (hfirst : firstCursor i.other = ⟨0, i.other⟩) : i.transfer.state s = State.start i.other := by
  have hcursor : i.transfer.cursor s.before = ⟨0, i.other⟩ := by
    show Cursor.seek i.other (s.before.pos - i.place) = _
    rw [hbefore, Nat.sub_self]
    exact Cursor.seek_append [] i.other
  have hcurrent : (nextToken s.before).1 = s.current := by rw [hnormal]
  have hbehind : (nextToken s.before).2 = s.behind := by rw [hnormal]
  have hnext := nextToken_cursor h.before h.place (by rw [hcurrent]; exact hclear.valid)
    (by rw [hbehind]; exact hclear.le)
  rw [hcurrent, hbehind, hcursor] at hnext
  have hprevious : s.previous.stop - i.place = 0 := by
    have hstop := h.previous
    omega
  have hread : i.transfer.reads s.read = [] := by
    show List.map _ (s.read.take (s.read.length - i.tokens)) = []
    rw [htokens, Nat.sub_self]
    rfl
  have hspan : i.transfer.span s.previous = ⟨0, 0⟩ := by
    show Span.mk (s.previous.start - i.place) (s.previous.stop - i.place) = _
    rw [hprevious, Nat.sub_eq_zero_of_le hstart]
  have hid : i.transfer.number s.nextId = 1 := by
    show s.nextId - i.nodes = 1
    omega
  rw [Transfer.state, State.start, hfirst, hcursor, hspan, hid, hread, hnext]

end Passage

end EsModule.Syntax
