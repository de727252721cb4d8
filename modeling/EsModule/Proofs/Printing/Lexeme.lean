import EsModule.Proofs.Grammar.Ensures
import EsModule.Syntax.Parse

/-!
# Texts and the tokens they are read as

What a grammar asks of a token is its kind, and in few places whether it stands on the line of the
token before: a `Lexeme` is both. `Reads` says which lexemes are read between two places, and
`Writes` that a text is read as some lexemes wherever it stands, provided that what follows may
stand behind it. Texts that are put one behind the other write their lexemes one behind the other
(`Writes.append`), so the tokens of printed text are found piece by piece.
-/

namespace EsModule.Syntax

open EsModule.Text

/-! ## Lexemes -/

/-- A token as the grammar asks for it. -/
structure Lexeme where
  /-- What the token is. -/
  kind : TokenKind
  /-- Whether no line may end in front of it. -/
  joined : Bool

namespace Lexeme

/-- A token in any place. -/
def of (kind : TokenKind) : Lexeme := ⟨kind, false⟩

/-- A punctuator. -/
def mark (mark : Punctuator) : Lexeme := .of (.punctuator mark)

/-- A word. -/
def word (word : Keyword) : Lexeme := .of (.keyword word)

/-- A name. -/
def name (name : String) : Lexeme := .of (.identifier name)

/-- An update operator on the line of what stands in front of it. -/
def behind (operator : UpdateOperator) : Lexeme := ⟨.punctuator operator.mark, true⟩

/-- Whether a token is the lexeme. -/
def Fits (x : Lexeme) (t : Token) : Prop :=
  t.kind = x.kind ∧ (x.joined = true → t.newlineBefore = false)

@[simp] theorem kind_of (kind : TokenKind) : (of kind).kind = kind := rfl

@[simp] theorem kind_mark (p : Punctuator) : (mark p).kind = .punctuator p := rfl

@[simp] theorem kind_word (k : Keyword) : (word k).kind = .keyword k := rfl

@[simp] theorem kind_name (s : String) : (name s).kind = .identifier s := rfl

@[simp] theorem kind_behind (operator : UpdateOperator) :
    (behind operator).kind = .punctuator operator.mark := rfl

theorem mark_ne_eof (p : Punctuator) : (mark p).kind ≠ .eof := nofun

theorem word_ne_eof (k : Keyword) : (word k).kind ≠ .eof := nofun

theorem name_ne_eof (s : String) : (name s).kind ≠ .eof := nofun

end Lexeme

/-- From the first place on the lexemes are read, up to the second place. -/
def Reads : Cursor → List Lexeme → Cursor → Prop
  | c, [], c' => c = c'
  | c, x :: xs, c' => x.Fits (nextToken c).1 ∧ Reads (nextToken c).2 xs c'

theorem Reads.append {c c' c'' : Cursor} {xs ys : List Lexeme} (h : Reads c xs c')
    (h' : Reads c' ys c'') : Reads c (xs ++ ys) c'' := by
  induction xs generalizing c with
  | nil =>
    obtain rfl : c = c' := h
    exact h'
  | cons x xs ih => exact ⟨h.1, ih h.2⟩

theorem Reads.split {c c'' : Cursor} {xs ys : List Lexeme} (h : Reads c (xs ++ ys) c'') :
    ∃ c', Reads c xs c' ∧ Reads c' ys c'' := by
  induction xs generalizing c with
  | nil => exact ⟨c, rfl, h⟩
  | cons x xs ih =>
    obtain ⟨c', hxs, hys⟩ := ih h.2
    exact ⟨c', ⟨h.1, hxs⟩, hys⟩

/-- No more lexemes are read than there are characters. -/
theorem Reads.length_le {c c' : Cursor} {xs : List Lexeme} (h : Reads c xs c')
    (hx : ∀ x ∈ xs, x.kind ≠ .eof) : xs.length + c'.rest.length ≤ c.rest.length := by
  induction xs generalizing c with
  | nil =>
    obtain rfl : c = c' := h
    exact Nat.le_of_eq (Nat.zero_add _)
  | cons x xs ih =>
    have hlt := length_nextToken (c := c) (h.1.1 ▸ hx x List.mem_cons_self)
    have hrest := ih h.2 fun y hy => hx y (List.mem_cons_of_mem _ hy)
    rw [List.length_cons]
    omega

/-! ## What a state has in front of it -/

/-- The lexemes are the current token and those behind it. -/
def State.Faces (s : State) : List Lexeme → Prop
  | [] => True
  | x :: xs => x.Fits s.current ∧ ∃ c, Reads s.behind xs c

namespace State.Faces

variable {s : State} {x : Lexeme} {xs : List Lexeme}

theorem kind (h : s.Faces (x :: xs)) : s.current.kind = x.kind := h.1.1

theorem next (h : s.Faces (x :: xs)) : s.next.Faces xs := by
  obtain ⟨-, c, hc⟩ := h
  cases xs with
  | nil => trivial
  | cons y ys => exact ⟨hc.1, c, hc.2⟩

theorem counted (h : s.Faces xs) : s.counted.Faces xs := by
  cases xs with
  | nil => trivial
  | cons y ys => exact h

/-- The token behind the current one. -/
theorem peek {y : Lexeme} (h : s.Faces (x :: y :: xs)) : (nextToken s.behind).1.kind = y.kind := by
  obtain ⟨-, c, hc⟩ := h
  exact hc.1.1

theorem start {source : List Char} {c : Cursor} (h : Reads (firstCursor source) xs c) :
    (State.start source).Faces xs := by
  cases xs with
  | nil => trivial
  | cons y ys => exact ⟨h.1, c, h.2⟩

end State.Faces

/-! ## White space -/

theorem skipTrivia_space (pos : Nat) (cs : List Char) :
    skipTrivia ⟨pos, ' ' :: cs⟩ = skipTrivia ⟨pos + 1, cs⟩ := by
  have hone : skipOne? ⟨pos, ' ' :: cs⟩ = some (false, ⟨pos + 1, cs⟩) := rfl
  rw [skipTrivia]
  split
  · simp_all
  · rename_i newline c' h
    obtain ⟨rfl, rfl⟩ := Prod.mk.inj (Option.some.inj (hone.symm.trans h))
    simp

theorem skipTrivia_newline (pos : Nat) (cs : List Char) :
    skipTrivia ⟨pos, '\n' :: cs⟩ = (true, (skipTrivia ⟨pos + 1, cs⟩).2) := by
  have hone : skipOne? ⟨pos, '\n' :: cs⟩ = some (true, ⟨pos + 1, cs⟩) := rfl
  rw [skipTrivia]
  split
  · simp_all
  · rename_i newline c' h
    obtain ⟨rfl, rfl⟩ := Prod.mk.inj (Option.some.inj (hone.symm.trans h))
    simp

theorem nextToken_space (pos : Nat) (cs : List Char) :
    nextToken ⟨pos, ' ' :: cs⟩ = nextToken ⟨pos + 1, cs⟩ := by
  rw [nextToken_eq, nextToken_eq, skipTrivia_space]

/-- Behind the end of a line the same token is read, but on another line. -/
theorem nextToken_newline (pos : Nat) (cs : List Char) :
    nextToken ⟨pos, '\n' :: cs⟩ =
      ({ (nextToken ⟨pos + 1, cs⟩).1 with newlineBefore := true },
        (nextToken ⟨pos + 1, cs⟩).2) := by
  rw [nextToken_eq, nextToken_eq, skipTrivia_newline]

/-! ## Texts -/

/-- In front of any text that `Behind` allows, the text is read as the lexemes. -/
def Writes (text : List Char) (xs : List Lexeme) (Behind : List Char → Prop) : Prop :=
  ∀ pos r, Behind r → Reads ⟨pos, text ++ r⟩ xs ⟨pos + byteSize text, r⟩

/-- Any text at all. -/
def Anything (_ : List Char) : Prop := True

namespace Writes

variable {t u : List Char} {xs ys : List Lexeme} {B C : List Char → Prop}

theorem nil : Writes [] [] B := fun _ _ _ => rfl

theorem mono (h : Writes t xs B) (hb : ∀ r, C r → B r) : Writes t xs C :=
  fun pos r hr => h pos r (hb r hr)

theorem append (h : Writes t xs B) (h' : Writes u ys C) (hb : ∀ r, C r → B (u ++ r)) :
    Writes (t ++ u) (xs ++ ys) C := by
  intro pos r hr
  have ht := h pos (u ++ r) (hb r hr)
  have hu := h' (pos + byteSize t) r hr
  rw [List.append_assoc, byteSize_append, ← Nat.add_assoc]
  exact ht.append hu

/-- A single token. -/
theorem token {kind : TokenKind} {joined : Bool} (h : ∀ r, B r → IsToken t kind r) :
    Writes t [⟨kind, joined⟩] B := by
  intro pos r hr
  have hnext := (h r hr).nextToken pos
  refine ⟨?_, ?_⟩
  · rw [hnext]
    exact ⟨rfl, fun _ => rfl⟩
  · rw [hnext]
    rfl

/-- A space in front of a token changes nothing. -/
theorem space {x : Lexeme} (h : Writes t (x :: xs) B) : Writes (' ' :: t) (x :: xs) B := by
  intro pos r hr
  obtain ⟨hfits, hrest⟩ := h (pos + 1) r hr
  have hnext := nextToken_space pos (t ++ r)
  rw [List.cons_append, byteSize_cons, ← Nat.add_assoc]
  exact ⟨hnext ▸ hfits, hnext ▸ hrest⟩

/-- The end of a line in front of a token, which need not stand on the line before. -/
theorem newline {x : Lexeme} (h : Writes t (x :: xs) B) (hx : x.joined = false) :
    Writes ('\n' :: t) (x :: xs) B := by
  intro pos r hr
  obtain ⟨hfits, hrest⟩ := h (pos + 1) r hr
  have hnext := nextToken_newline pos (t ++ r)
  rw [List.cons_append, byteSize_cons, ← Nat.add_assoc]
  refine ⟨?_, hnext ▸ hrest⟩
  rw [hnext]
  exact ⟨hfits.1, fun hj => absurd (hx.symm.trans hj) Bool.false_ne_true⟩

theorem spaces {x : Lexeme} (h : Writes t (x :: xs) B) (n : Nat) :
    Writes (List.replicate n ' ' ++ t) (x :: xs) B := by
  induction n with
  | zero => exact h
  | succ n ih => exact ih.space

/-- The end of the source. -/
theorem eof : Writes [] [.of .eof] (· = []) := by
  rintro pos r rfl
  have hnext : nextToken ⟨pos, []⟩ = (⟨.eof, ⟨pos, pos⟩, false⟩, ⟨pos, []⟩) := by
    rw [nextToken_eq, skipTrivia_of_none rfl]
    rfl
  rw [List.append_nil, byteSize_nil, Nat.add_zero, Reads, hnext]
  exact ⟨⟨rfl, nofun⟩, rfl⟩

end Writes

/-! ## What may stand behind a token -/

theorem nameEnds_cons {ch : Char} (h : isIdContinue ch = false) (r : List Char) :
    NameEnds (ch :: r) := by
  rintro ch' hch
  obtain rfl : ch = ch' := Option.some.inj hch
  exact h

theorem nameEnds_space (r : List Char) : NameEnds (' ' :: r) := nameEnds_cons (by decide) r

/-- Whether a punctuator ends where it ends, whatever follows. -/
def Punctuator.isClosed (mark : Punctuator) : Bool :=
  mark != .questionDot &&
    Punctuator.longestFirst.all fun p => !mark.text.toList.isPrefixOf p.text.toList || p == mark

theorem Punctuator.not_extendedBy {mark : Punctuator} (h : mark.isClosed = true) (ch : Char) :
    mark.extendedBy ch = false := by
  rw [← Bool.not_eq_true]
  intro hext
  obtain ⟨p, hp, hprefix⟩ := List.any_eq_true.mp hext
  rw [isClosed, Bool.and_eq_true, List.all_eq_true] at h
  have hpre : mark.text.toList.isPrefixOf p.text.toList = true := by
    rw [List.isPrefixOf_iff_prefix] at hprefix ⊢
    exact (List.prefix_append _ _).trans hprefix
  have hmark := h.2 p hp
  rw [hpre, Bool.not_true, Bool.false_or, beq_iff_eq] at hmark
  subst hmark
  have hlength := (List.isPrefixOf_iff_prefix.mp hprefix).length_le
  rw [List.length_append, List.length_singleton] at hlength
  omega

theorem markEnds_of_isClosed {mark : Punctuator} (h : mark.isClosed = true) (r : List Char) :
    MarkEnds mark r := by
  refine ⟨fun ch _ => Punctuator.not_extendedBy h ch, ?_, ?_⟩
  · rintro rfl
    exact absurd h (by decide)
  · rintro (rfl | rfl)
    · exact absurd h (by decide)
    · exact absurd h (by decide)

theorem markEnds_space (mark : Punctuator) (r : List Char) : MarkEnds mark (' ' :: r) := by
  have hspace : mark.extendedBy ' ' = false := by cases mark <;> decide
  refine ⟨?_, fun _ => ⟨nofun, nofun⟩, ?_⟩
  · rintro ch hch
    obtain rfl : ' ' = ch := Option.some.inj hch
    exact hspace
  · rintro - ch hch
    obtain rfl : ' ' = ch := Option.some.inj hch
    decide

/-- The texts that start with a space. -/
def AfterSpace (r : List Char) : Prop := r.head? = some ' '

theorem AfterSpace.exists {r : List Char} (h : AfterSpace r) : ∃ r', r = ' ' :: r' := by
  obtain ⟨r', hr⟩ := List.head?_eq_some_iff.mp h
  exact ⟨r', hr⟩

namespace Writes

theorem name {name : String} (h : IsOwnName name) : Writes name.toList [.name name] NameEnds :=
  token fun _ hr => isToken_identifier h.1 h.2 hr

theorem word (word : Keyword) : Writes word.text.toList [.word word] NameEnds :=
  token fun _ hr => isToken_keyword word hr

/-- A punctuator that nothing continues. -/
theorem closed {mark : Punctuator} {joined : Bool} (h : mark.isClosed = true) :
    Writes mark.text.toList [⟨.punctuator mark, joined⟩] Anything :=
  token fun r _ => isToken_punctuator (markEnds_of_isClosed h r)

/-- A punctuator in front of a space. -/
theorem spaced (mark : Punctuator) : Writes mark.text.toList [.mark mark] AfterSpace := by
  refine token fun r hr => ?_
  obtain ⟨r, rfl⟩ := hr.exists
  exact isToken_punctuator (markEnds_space mark r)

end Writes

end EsModule.Syntax
