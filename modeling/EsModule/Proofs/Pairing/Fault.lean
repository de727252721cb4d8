import EsModule.Proofs.Pairing.Termination
import Mathlib.Data.List.Induction
import Mathlib.Data.Prod.Lex
import Mathlib.Order.Monotone.Defs

/-!
# Where a source is refused

A reader is told of a syntax error by a line and a column. Between characters these grow with the
offset (`lineColumn_strictMonoOn`), since each character takes a column, or ends the line. So they
tell the offset.

What offset that is depends on the rules, which may fail in very many places, behind tokens that
were moved over or read again. But they all fail at the token to look at, and `Echoes` keeps that.
What is left is which tokens a rule may look at. `Scans` says how the scanner gives them, and a run
never has another one (`scans_kept`).
-/

namespace EsModule.Text

/-! ## Lines and columns -/

/-- The line and the column behind a text, both counted from one. -/
def positionBehind (read : List Char) : Nat × Nat :=
  (read.count '\n' + 1, (read.reverse.takeWhile (· ≠ '\n')).length + 1)

theorem lineColumn_eq (source : List Char) (k : Nat) :
    lineColumn source k = positionBehind (before source k) := rfl

theorem lineColumn_append (read rest : List Char) :
    lineColumn (read ++ rest) (byteSize read) = positionBehind read := by
  rw [lineColumn_eq, before_append]

/-- A line feed starts the next line, and any other character takes a column. -/
theorem positionBehind_concat (read : List Char) (ch : Char) :
    positionBehind (read ++ [ch]) = if ch = '\n' then ((positionBehind read).1 + 1, 1)
      else ((positionBehind read).1, (positionBehind read).2 + 1) := by
  by_cases hch : ch = '\n'
  · simp [positionBehind, hch]
  · simp [positionBehind, hch]

theorem positionBehind_concat_lt (read : List Char) (ch : Char) :
    toLex (positionBehind read) < toLex (positionBehind (read ++ [ch])) := by
  rw [positionBehind_concat, Prod.Lex.toLex_lt_toLex]
  split
  · exact .inl (Nat.lt_succ_self _)
  · exact .inr ⟨rfl, Nat.lt_succ_self _⟩

/-- More text takes more lines, or more columns of the same line. -/
theorem positionBehind_lt (read : List Char) {more : List Char} (hmore : more ≠ []) :
    toLex (positionBehind read) < toLex (positionBehind (read ++ more)) := by
  -- from the end, since a character behind a text moves its position on
  induction more using List.reverseRecOn with
  | nil => exact absurd rfl hmore
  | append_singleton more ch ih =>
    have hlast := positionBehind_concat_lt (read ++ more) ch
    rw [List.append_assoc] at hlast
    cases more with
    | nil => exact positionBehind_concat_lt read ch
    | cons d more => exact (ih (List.cons_ne_nil d more)).trans hlast

theorem lineColumn_strictMonoOn (source : List Char) :
    StrictMonoOn (fun k => toLex (lineColumn source k)) {k | Syntax.Boundary source k} := by
  rintro _ ⟨read, rest, hsource, rfl⟩ _ ⟨read', rest', hsource', rfl⟩ hlt
  obtain ⟨more, rfl, -⟩ := append_of_byteSize_le (hsource.symm.trans hsource') (Nat.le_of_lt hlt)
  have hmore : more ≠ [] := by
    rintro rfl
    rw [List.append_nil] at hlt
    exact Nat.lt_irrefl _ hlt
  have hfirst : lineColumn source (byteSize read) = positionBehind read := by
    rw [hsource, lineColumn_append]
  have hsecond : lineColumn source (byteSize (read ++ more)) = positionBehind (read ++ more) := by
    rw [hsource', lineColumn_append]
  dsimp only
  rw [hfirst, hsecond]
  exact positionBehind_lt read hmore

/-- A character of two bytes takes one column. -/
example : lineColumn "é=\n".toList 1 = (1, 1) ∧ lineColumn "é=\n".toList 2 = (1, 2) ∧
    lineColumn "é=\n".toList 4 = (2, 1) := by decide

end EsModule.Text

namespace EsModule.Syntax

open EsModule.Text

/-! ## The tokens of a run -/

/-- Says that the scanner gives a token of the source: it reads `t` from the place `c` on, and what
follows is read from `c'` on. -/
inductive Scans (source : List Char) : Cursor → Token → Cursor → Prop where
  /-- The first token. -/
  | first : Scans source (firstCursor source) (nextToken (firstCursor source)).1
      (nextToken (firstCursor source)).2
  /-- The token behind one that is some text. -/
  | next {c c' : Cursor} {t : Token} (h : Scans source c t c') (hk : t.kind.isText = true) :
      Scans source c' (nextToken c').1 (nextToken c').2
  /-- A mark that is read again. It starts where it did. -/
  | again {c c' : Cursor} {t : Token} {f : Cursor → TokenKind × Cursor}
      {rule : Nat → Cursor → Token × Cursor} {mark : Punctuator} (h : Scans source c t c')
      (hr : ReadsAgain f rule mark) (hk : t.kind = .punctuator mark) :
      Scans source c
        { (rule t.span.start (skipTrivia c).2.advance).1 with newlineBefore := t.newlineBefore }
        (rule t.span.start (skipTrivia c).2.advance).2

/-- A property of states that a run keeps, whatever its rules do. -/
structure State.Kept (P : State → Prop) : Prop where
  counted : ∀ {s}, P s → P s.counted
  next : ∀ {s}, P s → s.current.kind.isText = true → P s.next
  rescanned : ∀ {s f rule mark}, P s → ReadsAgain f rule mark →
    s.current.kind = .punctuator mark → P (s.rescanned rule)

theorem scans_kept (source : List Char) :
    State.Kept fun s => Scans source s.before s.current s.behind where
  counted := id
  next := .next
  rescanned := .again

/-- The same runs, with a property of their states more. -/
def Pairing.keeping (i : Pairing) {P : State → Prop} (hP : State.Kept P) : Pairing where
  toTransfer := i.toTransfer
  deep := i.deep
  exact := i.exact
  source := i.source
  Tracked := fun s => i.Tracked s ∧ P s
  Clear := i.Clear
  placed := fun h => i.placed h.1
  text := fun h => i.text h.1
  counted := fun h => ⟨i.counted h.1, hP.counted h.2⟩
  of_counted := fun h => i.of_counted h.1
  next := fun h hk => ⟨i.next h.1 hk, hP.next h.2 hk⟩
  of_next := fun h => i.of_next h.1
  rescanned := fun h hr hk => ⟨i.rescanned h.1 hr hk, hP.rescanned h.2 hr hk⟩
  of_rescanned := fun h => i.of_rescanned h.1
  ahead := fun h => i.ahead h.1
  beyond := fun h => i.beyond h.1
  textOf := fun h => i.textOf h.1
  span_start := i.span_start
  span_max := fun h => i.span_max h.1
  span_through := fun h => i.span_through h.1
  same := fun he _ h => i.same he h.1

theorem Pairing.Reaches.keeping {i : Pairing} {P : State → Prop} {x d d' : Nat}
    (h : i.Reaches x d d') (hP : State.Kept P) : (i.keeping hP).Reaches x d d' :=
  ⟨h.second, h.exact, h.deep⟩

/-! ## Refusals -/

/-- Says that what a fault tells of a token is so: it names the cause for which the scanner gives no
token, or that the source ends, or the text of the token. -/
structure SyntaxFault.Tells (source : List Char) (fault : SyntaxFault) (t : Token) : Prop where
  /-- The fault is the one for a token of this kind, with the text that its span covers. -/
  token : fault.Telling → ∃ text : String, t.span.Covers source text.toList ∧
    fault = t.kind.fault text
  /-- No bound was reached. -/
  bound : fault ≠ .nestingBound

section

variable {source : List Char} {s : State}

/-- The text of a token is what its span covers. -/
theorem State.Placed.covers_text (h : s.Placed source) :
    s.current.span.Covers source s.text.toList := by
  obtain ⟨w, hm⟩ := h.token
  have htext : s.text.toList = w := by
    rw [State.text, String.toList_ofList, h.span, hm.textTo]
  rw [htext, h.span]
  exact covers_of_moves h.start_at hm

theorem State.Placed.start_eq_of_eof (h : s.Placed source) (hk : s.current.kind = .eof) :
    s.current.span.start = byteSize source := by
  have hnormal := h.normal (by rw [hk]; rfl)
  obtain ⟨hrest, -⟩ := tokenHere_eof (hk ▸ hnormal.tokenHere.1)
  obtain ⟨read, hsource, hpos⟩ := h.start_at
  rw [hrest, List.append_nil] at hsource
  rw [h.start_eq, hpos, hsource]

theorem Failure.At.tells {e : Failure} (h : e.At s) (hs : s.Placed source)
    (hbound : e.fault ≠ .nestingBound) : e.fault.Tells source s.current :=
  ⟨fun htell => ⟨s.text, hs.covers_text, h.fault htell hbound⟩, hbound⟩

end

/-- Says that an error is about a token of the source, and tells where that starts. -/
structure SyntaxError.About (source : List Char) (file : String) (e : SyntaxError) (t : Token) :
    Prop where
  /-- The scanner gives the token. -/
  scans : ∃ c c', Scans source c t c'
  /-- It is the error of a fault at the start of the token, and what that tells of the token is so. -/
  told : ∃ fault : SyntaxFault, fault.Tells source t ∧
    e = .atOffset source t.span.start file fault.message
  /-- The token starts between two characters, or at an end of the source. -/
  boundary : Boundary source t.span.start
  /-- The end of the source is where the source ends. -/
  ended : t.kind = .eof → t.span.start = byteSize source
  /-- Of all such offsets this is the only one with the line and column of the error. -/
  only : ∀ k, Boundary source k → lineColumn source k = (e.line, e.column) → k = t.span.start

theorem Failure.At.about {source : List Char} {file : String} {s : State} {e : Failure}
    (h : e.At s) (hs : s.Placed source) (hscans : Scans source s.before s.current s.behind)
    (hbound : e.fault ≠ .nestingBound) :
    (SyntaxError.atOffset source e.offset file e.fault.message).About source file s.current where
  scans := ⟨_, _, hscans⟩
  told := ⟨e.fault, h.tells hs hbound, by rw [h.offset]⟩
  boundary := hs.boundary_start
  ended := hs.start_eq_of_eof
  only := by
    intro k hk hsame
    refine (lineColumn_strictMonoOn source).injOn hk hs.boundary_start ?_
    rw [← h.offset]
    exact congrArg toLex hsame

/-- Where a module is refused, a token was looked at that the scanner gives. -/
theorem exists_at_of_readModule {source : List Char} {e : Failure}
    (he : readModule source = .error e) :
    ∃ s : State, s.Placed source ∧ Scans source s.before s.current s.behind ∧ e.At s ∧
      e.fault ≠ .nestingBound := by
  have hbeside : (Pairing.beside source False).Reaches (2 * (source.length + 1) + 1)
      (depthBound source) (depthBound source) := reaches_beside _ _ nofun
  have hreaches := hbeside.keeping (scans_kept source)
  -- beside itself the run fails as it does, so only the state where it fails is asked for
  have hechoes := (follows_moduleBody (follows_ofDepth hreaches)).echoes (State.start source)
  have hplaced := State.placed_start source
  have hlt : (State.start source).left < source.length + 1 := Nat.lt_succ_of_le hplaced.left_le
  have hsuits : Context.Suits (State.start source) ⟨true, false, source.length + 2⟩
      ⟨true, false, source.length + 2⟩ := hplaced.suits (by omega) (by omega)
  obtain ⟨-, -, s, ⟨hs, hscans⟩, hat⟩ := (hechoes hlt ⟨.start, .first⟩ _ _ hsuits).2 e he
  have hbounded := (echoes_moduleBody source (Nat.le_refl _) (Nat.le_refl _)).2 e he
  exact ⟨s, hs.placed, hscans, hat, hbounded⟩

/-- What the lines and columns of syntax errors say about a source. -/
structure PositionsIdentify (source : String) : Prop where
  /-- They are counted from one. -/
  first : lineColumn source.toList 0 = (1, 1)
  /-- Between characters, and at the ends, they grow with the offset: the line does, or the line
  stays and the column does. -/
  increasing : StrictMonoOn (fun k => toLex (lineColumn source.toList k))
    {k | Boundary source.toList k}
  /-- An offset inside a character has the position of the start of that character. -/
  inside : ∀ {read rest : List Char} {ch : Char} {k : Nat}, source.toList = read ++ ch :: rest →
    byteSize read ≤ k → k < byteSize read + ch.utf8Size →
    lineColumn source.toList k = lineColumn source.toList (byteSize read)
  /-- An offset beyond the end has the position of the end. -/
  beyond : ∀ {k : Nat}, byteSize source.toList ≤ k →
    lineColumn source.toList k = lineColumn source.toList (byteSize source.toList)
  /-- An error is about a token that the scanner gives, and tells where that starts. -/
  errors : ∀ {file : String} {e : SyntaxError}, parseModule source file = .error e →
    ∃ t, e.About source.toList file t

/-- **A syntax error tells a token of the source.** -/
theorem positions_identify (source : String) : PositionsIdentify source where
  first := lineColumn_append [] source.toList
  increasing := lineColumn_strictMonoOn source.toList
  inside := by
    intro read rest ch k hsource hlow hhigh
    rw [hsource, lineColumn_append, lineColumn_eq, before_inside read rest hlow hhigh]
  beyond := by
    intro k hk
    rw [lineColumn_eq, lineColumn_eq, before_beyond _ hk, before_beyond _ (Nat.le_refl _)]
  errors := by
    intro file e he
    rw [parseModule, parseTree, parseItems_eq] at he
    cases hread : readModule source.toList with
    | ok r =>
      rw [hread] at he
      cases he
    | error failure =>
      rw [hread] at he
      obtain rfl := Except.error.inj he
      obtain ⟨s, hs, hscans, hat, hbound⟩ := exists_at_of_readModule hread
      exact ⟨s.current, hat.about hs hscans hbound⟩

/-- The second `y` has no place. It stands behind a character of two bytes and on the second line. -/
example : (match parseModule "x = 'é';\n  y y" "test.js" with
    | .ok _ => none
    | .error e => some e) = some ⟨"Unexpected token 'y'", "test.js", 2, 5⟩ := by decide +kernel

end EsModule.Syntax
