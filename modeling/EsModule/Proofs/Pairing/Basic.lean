import EsModule.Proofs.Layout.Primary
import EsModule.Proofs.Spacing.Gap

/-!
# Two runs side by side

A rule runs on two sources, or on one of them with other rules below it. A `Pairing` says how the
second run goes along with the first: `Transfer.state` is the state of the second one where the
first one is in a given state.

The two runs need not go the same way to their ends. What the first one has read decides that, and
it is known at its end only. So `Pairing.Clear` is asked of the last state, and each step hands it
back: moving on (`Pairing.of_next`) and reading a token again (`Pairing.of_rescanned`).

How much is left to read is told by `State.left`. Moving on makes it less, and reading a token again
leaves it as it is.
-/

namespace EsModule.Syntax

open EsModule.Text

/-! ## Kinds of tokens -/

/-- Whether a token of this kind is text: neither the end of the source nor no token at all. -/
def TokenKind.isText : TokenKind → Bool
  | .eof | .invalid _ => false
  | _ => true

/-- Whether one looks no further than to a token of this kind: it may be read again by another rule,
or the list or the source ends there. -/
def TokenKind.isLast : TokenKind → Bool
  | .punctuator .slash | .punctuator .slashEqual | .punctuator .rightBrace
  | .punctuator .rightParen | .eof => true
  | _ => false

theorem nextToken_lt {c : Cursor} (h : (nextToken c).1.kind.isText = true) :
    (nextToken c).1.span.start < (nextToken c).1.span.stop := by
  obtain ⟨gap, text, -, -, hspan, -, hend⟩ := nextToken_moves c
  have hk : (nextToken c).1.kind ≠ .eof := by
    intro hk
    rw [hk] at h
    cases h
  rw [if_neg hk] at hend
  rw [hspan]
  obtain ⟨ch, text, rfl⟩ := List.exists_cons_of_ne_nil hend
  have := ch.utf8Size_pos
  simp only [byteSize_append, byteSize_cons]
  omega

theorem pos_le_nextToken (c : Cursor) : c.pos ≤ (nextToken c).2.pos := by
  obtain ⟨gap, text, hm, -⟩ := nextToken_moves c
  rw [hm.pos]
  exact Nat.le_add_right _ _

theorem pos_lt_of_moves {c c' : Cursor} {w : List Char} (h : c.Moves w c') (hw : w ≠ []) :
    c.pos < c'.pos := by
  obtain ⟨ch, w, rfl⟩ := List.exists_cons_of_ne_nil hw
  have hpos := h.pos
  have := ch.utf8Size_pos
  rw [byteSize_cons] at hpos
  omega

theorem size_of_isLast {mark : Punctuator} (h : (TokenKind.punctuator mark).isLast = true) :
    byteSize mark.text.toList ≤ 2 := by
  revert h
  cases mark <;> decide

/-! ## States -/

namespace State

variable {source : List Char} {s : State}

/-- A punctuator is its text. -/
theorem Placed.mark (h : s.Placed source) {mark : Punctuator}
    (hk : s.current.kind = .punctuator mark) :
    (skipTrivia s.before).2.Moves mark.text.toList s.behind := by
  have hread := (h.normal (by rw [hk]; rfl)).tokenHere.1
  rw [hk] at hread
  obtain ⟨cs, hcs⟩ := tokenHere_punctuator hread
  obtain ⟨first, ds, hc, hby⟩ := tokenHere_by hread (by simp)
  generalize s.behind = behind at hby ⊢
  cases hby with
  | punctuator _ =>
    have hmoves := (skipTrivia s.before).2.moves_drop mark.text.length
    rwa [hcs, ← String.length_toList, List.take_left' rfl] at hmoves

/-- The first character of a punctuator. -/
theorem Placed.advance (h : s.Placed source) {mark : Punctuator}
    (hk : s.current.kind = .punctuator mark) :
    ∃ ch, (skipTrivia s.before).2.Moves [ch] (skipTrivia s.before).2.advance := by
  obtain ⟨ch, cs, htext, -⟩ := mark.head_text
  have hrest := (h.mark hk).rest
  rw [htext] at hrest
  exact ⟨ch, Cursor.moves_advance hrest⟩

/-- How many characters are left from the current token on. -/
def left (s : State) : Nat := (skipTrivia s.before).2.rest.length

theorem left_le_of_at {c : Cursor} (h : c.At source) : c.rest.length ≤ source.length := by
  obtain ⟨read, hsource, -⟩ := h
  rw [hsource, List.length_append]
  exact Nat.le_add_left _ _

theorem Placed.left_le (h : s.Placed source) : s.left ≤ source.length := left_le_of_at h.start_at

theorem left_next_lt (h : s.Placed source) (hlt : s.current.span.start < s.current.span.stop) :
    s.next.left < s.left := by
  obtain ⟨w, hm⟩ := h.token
  obtain ⟨gap, hgap, -⟩ := skipTrivia_moves s.behind
  have hw : w ≠ [] := by
    rintro rfl
    have hpos := hm.pos
    rw [h.span] at hlt
    rw [byteSize_nil] at hpos
    dsimp only at hlt
    omega
  have hlength := List.length_pos_iff.mpr hw
  show (skipTrivia s.behind).2.rest.length < (skipTrivia s.before).2.rest.length
  rw [hm.rest, hgap.rest, List.length_append, List.length_append]
  omega

/-- Of two places in a source the one further behind has less left. -/
theorem pos_lt_iff_of_at {c c' : Cursor} (h : c.At source) (h' : c'.At source) :
    c.pos < c'.pos ↔ c'.rest.length < c.rest.length := by
  obtain ⟨read, hsource, hpos⟩ := h
  obtain ⟨read', hsource', hpos'⟩ := h'
  have hle : ∀ w : List Char, byteSize w = 0 ↔ w.length = 0 := by
    intro w
    cases w with
    | nil => exact Iff.rfl
    | cons ch w =>
      have := ch.utf8Size_pos
      rw [byteSize_cons, List.length_cons]
      omega
  rw [hpos, hpos']
  rcases List.append_eq_append_iff.mp (hsource.symm.trans hsource') with ⟨w, hw, hr⟩ | ⟨w, hw, hr⟩
  all_goals
    have := hle w
    rw [hw, hr, byteSize_append, List.length_append]
    omega

/-- The less is left, the further behind the token starts. -/
theorem Placed.start_lt_iff {s' : State} (h : s.Placed source) (h' : s'.Placed source) :
    s.current.span.start < s'.current.span.start ↔ s'.left < s.left := by
  rw [h.span, h'.span]
  exact pos_lt_iff_of_at h.start_at h'.start_at

end State

/-! ## Where a rule fails -/

/-- Whether a fault tells more than which rule of the grammar is broken: what the token to look at
is, or that a bound was reached. -/
inductive SyntaxFault.Telling : SyntaxFault → Prop where
  | lexical (cause : LexError) : Telling (.lexical cause)
  | unexpectedEnd : Telling .unexpectedEnd
  | unexpectedToken (text : String) : Telling (.unexpectedToken text)
  | nestingBound : Telling .nestingBound

/-- What is wrong with a token of this kind and text where it has no place. -/
def TokenKind.fault (kind : TokenKind) (text : String) : SyntaxFault :=
  match kind with
  | .invalid cause => .lexical cause
  | .eof => .unexpectedEnd
  | _ => .unexpectedToken text

theorem TokenKind.fault_ne (kind : TokenKind) (text : String) :
    kind.fault text ≠ .nestingBound := by
  cases kind <;> simp [fault]

/-- Says that a rule fails at the token to look at, and that what the fault tells of it is so. -/
structure Failure.At (e : Failure) (s : State) : Prop where
  offset : e.offset = s.current.span.start
  fault : e.fault.Telling → e.fault ≠ .nestingBound → e.fault = s.current.kind.fault s.text

/-! ## Reading a token again -/

/-- Says that `rule` reads a token again from behind its first character, as `f` reads there. -/
structure Rescans (f : Cursor → TokenKind × Cursor) (rule : Nat → Cursor → Token × Cursor) :
    Prop where
  /-- The token starts where it did, and ends where `f` does. -/
  rule_eq : ∀ start c, rule start c = (⟨(f c).1, ⟨start, (f c).2.pos⟩, false⟩, (f c).2)
  /-- What is read is some text. -/
  moves : ∀ c : Cursor, ∃ w, c.Moves w (f c).2
  /-- Tokens of its kind may have been read again. -/
  reread : ∀ c, (f c).1.isReread = true
  /-- Text that is a token is read again in front of another text. -/
  again : ∀ c, (∀ cause, (f c).1 ≠ .invalid cause) → Rereads f c
  /-- It has a character behind the first one. -/
  grows : ∀ c, (∀ cause, (f c).1 ≠ .invalid cause) → c.pos < (f c).2.pos

theorem rescans_regExp : Rescans regExpBody rescanRegExp where
  rule_eq := fun _ _ => rfl
  moves := by
    intro c
    unfold regExpBody
    dsimp only
    have hstop := c.moves_drop (splitRegExp false c.rest).1.length
    split
    · generalize c.drop (splitRegExp false c.rest).1.length = stop at hstop
      cases hrest : stop.rest with
      | nil =>
        have hadvance : stop.advance = stop := by simp [Cursor.advance, hrest]
        rw [hadvance]
        exact ⟨_, hstop.trans (stop.moves_takeWhile _)⟩
      | cons ch cs =>
        exact ⟨_, hstop.trans ((Cursor.moves_advance hrest).trans (Cursor.moves_takeWhile _ _))⟩
    · exact ⟨_, hstop⟩
  reread := by
    intro c
    rcases regExpBody_gives c with ⟨pattern, flags, h⟩ | ⟨cause, h⟩ <;> rw [h] <;> rfl
  again := fun _ => rereads_regExpBody
  grows := by
    intro c h
    rcases regExpBody_gives c with ⟨pattern, flags, hk⟩ | ⟨cause, hk⟩
    · exact pos_lt_of_moves (regExpBody_takes (Prod.ext hk rfl)).2.2 (by simp)
    · exact absurd hk (h cause)

theorem rescans_template : Rescans templateChunk rescanTemplate where
  rule_eq := fun _ _ => rfl
  moves := by
    intro c
    rcases templateChunk_gives c with ⟨chunk, closes, h⟩ | ⟨cause, h⟩
    · exact ⟨_, (templateChunk_takes (Prod.ext h rfl)).1⟩
    · obtain ⟨-, w, hm, -⟩ := templateChunk_invalid (Prod.ext h rfl)
      exact ⟨w, hm⟩
  reread := by
    intro c
    rcases templateChunk_gives c with ⟨chunk, closes, h⟩ | ⟨cause, h⟩ <;> rw [h] <;> rfl
  again := fun _ => rereads_templateChunk
  grows := by
    intro c h
    rcases templateChunk_gives c with ⟨chunk, closes, hk⟩ | ⟨cause, hk⟩
    · refine pos_lt_of_moves (templateChunk_takes (Prod.ext hk rfl)).1 ?_
      cases closes <;> simp
    · exact absurd hk (h cause)

/-- The marks that are read again: a slash as a regular expression, and a right brace as the next
chunk of a template. -/
inductive ReadsAgain : (Cursor → TokenKind × Cursor) → (Nat → Cursor → Token × Cursor) →
    Punctuator → Prop where
  | slash : ReadsAgain regExpBody rescanRegExp .slash
  | slashEqual : ReadsAgain regExpBody rescanRegExp .slashEqual
  | rightBrace : ReadsAgain templateChunk rescanTemplate .rightBrace

section

variable {f : Cursor → TokenKind × Cursor} {rule : Nat → Cursor → Token × Cursor}
  {mark : Punctuator} {source : List Char} {s : State}

theorem ReadsAgain.rescans (h : ReadsAgain f rule mark) : Rescans f rule := by
  cases h with
  | slash | slashEqual => exact rescans_regExp
  | rightBrace => exact rescans_template

theorem ReadsAgain.isLast (h : ReadsAgain f rule mark) :
    (TokenKind.punctuator mark).isLast = true := by
  cases h <;> rfl

theorem Rescans.rescanned_eq (hr : Rescans f rule) (s : State) :
    s.rescanned rule = { s with
      current := ⟨(f (skipTrivia s.before).2.advance).1,
        ⟨s.current.span.start, (f (skipTrivia s.before).2.advance).2.pos⟩, s.current.newlineBefore⟩
      behind := (f (skipTrivia s.before).2.advance).2 } := by
  rw [State.rescanned, hr.rule_eq]

/-- Behind a mark that is read again, the text that is read. -/
theorem Rescans.moves_behind (hr : Rescans f rule) (h : s.Placed source)
    (hk : s.current.kind = .punctuator mark) :
    ∃ w, w ≠ [] ∧ (skipTrivia s.before).2.Moves w (s.rescanned rule).behind := by
  obtain ⟨ch, hadvance⟩ := h.advance hk
  obtain ⟨w, hm⟩ := hr.moves (skipTrivia s.before).2.advance
  rw [hr.rescanned_eq]
  exact ⟨_, List.cons_ne_nil _ _, hadvance.trans hm⟩

theorem State.Placed.readAgain (h : s.Placed source) (hr : Rescans f rule)
    (hk : s.current.kind = .punctuator mark) : (s.rescanned rule).Placed source := by
  have hread := hr.rescanned_eq s
  refine h.rescanned hk ?_ ?_ ?_
  · rw [hread]
    exact hr.reread _
  · intro start c
    rw [hr.rule_eq]
  · rw [hread]
    exact hr.moves _

/-- The mark is text however it is read. -/
theorem State.Placed.readAgain_lt (h : s.Placed source) (hr : Rescans f rule)
    (hk : s.current.kind = .punctuator mark) :
    (s.rescanned rule).current.span.start < (s.rescanned rule).current.span.stop := by
  obtain ⟨w, hw, hm⟩ := hr.moves_behind h hk
  rw [(h.readAgain hr hk).span]
  exact pos_lt_of_moves hm hw

/-- A mark that is read again is no longer than what is read. -/
theorem State.Placed.readAgain_le (h : s.Placed source) (hr : Rescans f rule)
    (hk : s.current.kind = .punctuator mark) (hlast : s.current.kind.isLast = true)
    (hvalid : ∀ cause, (s.rescanned rule).current.kind ≠ .invalid cause) :
    s.current.span.stop ≤ (s.rescanned rule).current.span.stop := by
  rw [hr.rescanned_eq] at hvalid ⊢
  have hgrows := hr.grows _ hvalid
  have hbehind := (h.mark hk).pos
  have hstop : s.current.span.stop = s.behind.pos := congrArg Span.stop h.span
  have hsize := size_of_isLast (hk ▸ hlast)
  obtain ⟨ch, hadvance⟩ := h.advance hk
  have hfirst := hadvance.pos
  have := ch.utf8Size_pos
  rw [byteSize_cons, byteSize_nil] at hfirst
  dsimp only
  omega

end

/-! ## Pairings -/

/-- How the second run differs from the first one: in the numbers and places that it gives to what
is read. -/
structure Transfer where
  /-- The number of a node. -/
  number : Nat → Nat
  /-- The offset at which something starts. -/
  start : Nat → Nat
  /-- The span of something. -/
  span : Span → Span
  /-- The place in the source. -/
  cursor : Cursor → Cursor
  /-- The tokens that were moved over. -/
  reads : List Token → List Token

namespace Transfer

variable (i : Transfer)

/-- The token of the second run. -/
def token (t : Token) : Token := { t with span := i.span t.span }

/-- The state of the second run. -/
def state (s : State) : State where
  current := i.token s.current
  before := i.cursor s.before
  behind := i.cursor s.behind
  previous := i.span s.previous
  nextId := i.number s.nextId
  read := i.reads s.read

/-- The tree of the second run. -/
def node : Node → Node := Node.fold fun id span kind => .mk (i.number id) (i.span span) kind

/-- The operand of the second run. -/
def operand (o : Operand) : Operand := ⟨i.node o.node, o.items.map (List.map i.node)⟩

@[simp] theorem token_kind (t : Token) : (i.token t).kind = t.kind := rfl

@[simp] theorem token_newlineBefore (t : Token) :
    (i.token t).newlineBefore = t.newlineBefore := rfl

@[simp] theorem operand_node (o : Operand) : (i.operand o).node = i.node o.node := rfl

/-- Behind the place `c` the gap is skipped in both runs, and the same text `w` stands behind it. In
the first run it ends at `c'`. Behind that, the second run finds what breaks off at most. -/
structure Keeps (i : Transfer) (c : Cursor) (w : List Char) (c' : Cursor) : Prop where
  moves : (skipTrivia c).2.Moves w c'
  skip : skipTrivia (i.cursor c) =
    ((skipTrivia c).1, ⟨i.start (skipTrivia c).2.pos, w ++ (i.cursor c').rest⟩)
  pos : (i.cursor c').pos = i.start (skipTrivia c).2.pos + byteSize w
  span : i.span ⟨(skipTrivia c).2.pos, c'.pos⟩ =
    ⟨i.start (skipTrivia c).2.pos, (i.cursor c').pos⟩
  parts : Parts c'.rest (i.cursor c').rest

namespace Keeps

variable {i} {c c' : Cursor} {w : List Char} {source : List Char} {s : State}

/-- The text is the same token, if what stands behind it leaves it as it is. -/
theorem nextToken {k : TokenKind} (h : i.Keeps c w c')
    (hread : tokenHere (skipTrivia c).2 = (k, c'))
    (hagain : Takes tokenHere w k (i.cursor c').rest) : nextToken (i.cursor c) =
      (i.token (Syntax.nextToken c).1, i.cursor (Syntax.nextToken c).2) := by
  rw [nextToken_eq c, nextToken_eq, hread, h.skip]
  dsimp only
  rw [hagain, ← h.pos, token, h.span]

theorem text (h : i.Keeps s.before w s.behind) (ht : s.Placed source) :
    (i.state s).text = s.text := by
  have hspan := h.span
  rw [← ht.span] at hspan
  have htext : (skipTrivia s.before).2.textTo s.current.span.stop = w := by
    rw [ht.span, h.moves.textTo]
  have htext' : (skipTrivia (i.cursor s.before)).2.textTo (i.span s.current.span).stop = w := by
    rw [Cursor.textTo, h.skip, hspan, h.pos, Nat.add_sub_cancel_left, before_append]
  rw [State.text, State.text, htext]
  exact congrArg String.ofList htext'

/-- A token that is read again is so in the second run. -/
theorem rescanned {f : Cursor → TokenKind × Cursor} {rule : Nat → Cursor → Token × Cursor}
    {mark : Punctuator} (ht : s.Placed source) (hr : Rescans f rule)
    (hk : s.current.kind = .punctuator mark)
    (hvalid : ∀ cause, (s.rescanned rule).current.kind ≠ .invalid cause)
    (hstart : ∀ span : Span, (i.span span).start = i.start span.start)
    (h : ∀ w, (skipTrivia s.before).2.Moves w (s.rescanned rule).behind →
      i.Keeps s.before w (s.rescanned rule).behind) :
    i.state (s.rescanned rule) = (i.state s).rescanned rule := by
  obtain ⟨ch, hadvance⟩ := ht.advance hk
  rw [hr.rescanned_eq] at hvalid h ⊢
  dsimp only at hvalid h
  obtain ⟨w, hm, hagain⟩ := hr.again _ hvalid
  have hkeeps := h _ (hadvance.trans hm)
  have hread := hagain _ hkeeps.parts.near (i.start s.current.span.start + ch.utf8Size)
  have hbegin : s.current.span.start = (skipTrivia s.before).2.pos := by rw [ht.span]
  have hfirst : (skipTrivia (i.state s).before).2.advance =
      ⟨i.start s.current.span.start + ch.utf8Size,
        w ++ (i.cursor (f (skipTrivia s.before).2.advance).2).rest⟩ := by
    show (skipTrivia (i.cursor s.before)).2.advance = _
    rw [hkeeps.skip, hbegin]
    rfl
  have hend : i.start s.current.span.start + ch.utf8Size + byteSize w =
      (i.cursor (f (skipTrivia s.before).2.advance).2).pos := by
    rw [hkeeps.pos, hbegin, byteSize_append, byteSize_cons, byteSize_nil]
    omega
  have hspan : i.span ⟨s.current.span.start, (f (skipTrivia s.before).2.advance).2.pos⟩ =
      ⟨(i.span s.current.span).start, (i.cursor (f (skipTrivia s.before).2.advance).2).pos⟩ := by
    rw [hstart, hbegin, hkeeps.span]
  rw [hr.rescanned_eq, hfirst, hread, hend, state, token]
  exact congrArg (fun span => State.mk ⟨_, span, _⟩ _ _ _ _ _) hspan

end Keeps

end Transfer

/-- Two runs that go along with each other as far as the states of the first one are clear. -/
structure Pairing extends Transfer where
  /-- Whether the first run never fails because a bound was reached. -/
  deep : Prop
  /-- Whether the second run fails where the first one does, and for the same cause. -/
  exact : Prop
  /-- The source of the first run. -/
  source : List Char
  /-- Says that a state is one of the first run. -/
  Tracked : State → Prop
  /-- Says that the second run goes along with the first one up to a state. -/
  Clear : State → Prop
  placed : ∀ {s}, Tracked s → s.Placed source
  text : ∀ {s}, Tracked s → s.current.kind.isText = true →
    s.current.span.start < s.current.span.stop
  counted : ∀ {s}, Tracked s → Tracked s.counted
  of_counted : ∀ {s}, Tracked s → Clear s.counted →
    Clear s ∧ toTransfer.state s.counted = (toTransfer.state s).counted
  next : ∀ {s}, Tracked s → s.current.kind.isText = true → Tracked s.next
  of_next : ∀ {s}, Tracked s → s.current.kind.isText = true → Clear s.next →
    Clear s ∧ toTransfer.state s.next = (toTransfer.state s).next
  rescanned : ∀ {s f rule mark}, Tracked s → ReadsAgain f rule mark →
    s.current.kind = .punctuator mark → Tracked (s.rescanned rule)
  of_rescanned : ∀ {s f rule mark}, Tracked s → ReadsAgain f rule mark →
    s.current.kind = .punctuator mark → Clear (s.rescanned rule) →
    Clear s ∧ toTransfer.state (s.rescanned rule) = (toTransfer.state s).rescanned rule
  /-- The token behind the current one is the same, unless one looks no further. -/
  ahead : ∀ {s}, Tracked s → Clear s → s.current.kind.isLast = false →
    nextToken (cursor s.behind) =
      (toTransfer.token (nextToken s.behind).1, cursor (nextToken s.behind).2)
  /-- So is the one behind that. -/
  beyond : ∀ {s}, Tracked s → Clear s → s.current.kind.isLast = false →
    (nextToken s.behind).1.kind.isLast = false → nextToken (cursor (nextToken s.behind).2) =
      (toTransfer.token (nextToken (nextToken s.behind).2).1,
        cursor (nextToken (nextToken s.behind).2).2)
  textOf : ∀ {s}, Tracked s → Clear s → (toTransfer.state s).text = s.text
  span_start : ∀ span' : Span, (span span').start = start span'.start
  /-- A new node ends where the token before does. -/
  span_max : ∀ {s}, Tracked s → ∀ first, span ⟨first, max s.previous.stop first⟩ =
    ⟨start first, max (span s.previous).stop (start first)⟩
  span_through : ∀ {s}, Tracked s → ∀ span' : Span,
    span (span'.through s.previous) = (span span').through (span s.previous)
  same : exact → ∀ {s}, Tracked s → Clear s ∧ toTransfer.state s = s

end EsModule.Syntax
