import EsModule.Proofs.Lexis.Number
import EsModule.Proofs.Text.Basic

/-!
# Tokens are read again

`IsToken` says that a text is read as one token in front of another text: it starts nothing that
would be skipped, and the token ends where the text does. Names, words and punctuators are such
tokens by what they look like; numbers and strings are so because they were read once (`Spells`).
`TokenBy` lists the ways in which tokens of each kind are read.
-/

namespace EsModule.Syntax

open EsModule.Text EsModule.Number

/-- The token at a place where no trivia stand. -/
def tokenHere (c : Cursor) : TokenKind × Cursor :=
  match c.rest with
  | [] => (.eof, c)
  | first :: _ => tokenAt first c

/-- In front of `r` the text is read as one token of the given kind. -/
structure IsToken (text : List Char) (kind : TokenKind) (r : List Char) : Prop where
  /-- The text is no trivia. -/
  starts : ∀ pos, skipOne? ⟨pos, text ++ r⟩ = none
  /-- The token ends where the text does. -/
  takes : Takes tokenHere text kind r

theorem tokenHere_cons (pos : Nat) (ch : Char) (cs : List Char) :
    tokenHere ⟨pos, ch :: cs⟩ = tokenAt ch ⟨pos, ch :: cs⟩ := rfl

theorem skipTrivia_of_none {c : Cursor} (h : skipOne? c = none) : skipTrivia c = (false, c) := by
  rw [skipTrivia]
  split
  · rfl
  · simp_all

theorem nextToken_eq (c : Cursor) :
    nextToken c =
      (⟨(tokenHere (skipTrivia c).2).1, ⟨(skipTrivia c).2.pos, (tokenHere (skipTrivia c).2).2.pos⟩,
        (skipTrivia c).1⟩, (tokenHere (skipTrivia c).2).2) := by
  unfold nextToken tokenHere
  obtain ⟨newline, pos, rest⟩ := skipTrivia c
  cases rest <;> rfl

theorem IsToken.nextToken {text r : List Char} {kind : TokenKind} (h : IsToken text kind r)
    (pos : Nat) :
    nextToken ⟨pos, text ++ r⟩ =
      (⟨kind, ⟨pos, pos + byteSize text⟩, false⟩, ⟨pos + byteSize text, r⟩) := by
  rw [nextToken_eq, skipTrivia_of_none (h.starts pos), h.takes pos]

/-- A text starts no trivia if its first character is neither blank nor a line end nor a slash. -/
theorem skipOne?_of_head {ch : Char} {pos : Nat} {cs : List Char} (hs : ch ≠ '/')
    (hb : isBlank ch = false) (hl : isLineTerminator ch = false) :
    skipOne? ⟨pos, ch :: cs⟩ = none := by
  unfold skipOne?
  split <;> simp_all

theorem skipOne?_of_slash {pos : Nat} {r : List Char} (h : r.head? ≠ some '/' ∧ r.head? ≠ some '*') :
    skipOne? ⟨pos, '/' :: r⟩ = none := by
  cases r with
  | nil => rfl
  | cons ch r =>
    simp only [List.head?_cons, ne_eq, Option.some.injEq] at h
    unfold skipOne?
    split
    · simp_all
    · simp_all
    · simp_all
    · rename_i hcs
      obtain ⟨rfl, -⟩ := List.cons.inj hcs
      rfl

/-! ### Names -/

/-- Whether nothing continues a name. -/
def NameEnds (r : List Char) : Prop := ∀ ch, r.head? = some ch → isIdContinue ch = false

theorem isIdStart_of_isDigit {c : Char} (h : c.isDigit = true) : isIdStart c = false := by
  have hn : 48 ≤ c.toNat ∧ c.toNat ≤ 57 := by
    simp only [Char.isDigit, Bool.and_eq_true, decide_eq_true_eq, ge_iff_le,
      UInt32.le_iff_toNat_le] at h
    simpa using h
  have hne : c ≠ '_' ∧ c ≠ '$' := by
    constructor
    all_goals
      rintro rfl
      revert hn
      decide
  simp [isIdStart, hne, isAlpha_of_lt (c := c) (by omega), show c.toNat < 128 by omega]

/-- What starts an identifier starts no other token. -/
theorem isIdStart_ne {c : Char} (h : isIdStart c = true) :
    c ≠ '"' ∧ c ≠ '\'' ∧ c ≠ '`' ∧ c.isDigit = false ∧ c ≠ '.' ∧ c ≠ '#' ∧ c ≠ '/' := by
  refine ⟨?_, ?_, ?_, ?_, ?_, ?_, ?_⟩
  case refine_4 =>
    rw [← Bool.not_eq_true]
    intro hd
    rw [isIdStart_of_isDigit hd] at h
    cases h
  all_goals
    rintro rfl
    revert h
    decide

theorem Punctuator.longest?_of_isIdStart {ch : Char} (h : isIdStart ch = true) (cs : List Char) :
    Punctuator.longest? (ch :: cs) = none := by
  have hfirst : Punctuator.longestFirst.all fun p =>
      p.text.toList.head?.any fun ch => !isIdStart ch := by decide
  rw [Punctuator.longest?, List.find?_eq_none]
  intro p hp hstarts
  have hp := List.all_eq_true.mp hfirst p hp
  simp only [Punctuator.startsAt, Bool.and_eq_true, List.isPrefixOf_iff_prefix] at hstarts
  cases htext : p.text.toList with
  | nil => simp [htext] at hp
  | cons d ds =>
    rw [htext] at hp hstarts
    obtain ⟨rfl, -⟩ := List.cons_prefix_cons.mp hstarts.1
    simp [h] at hp

theorem tokenAt_of_isIdStart {ch : Char} {c : Cursor} {cs : List Char} (hc : c.rest = ch :: cs)
    (h : isIdStart ch = true) : tokenAt ch c = nameOrWord ch c.advance := by
  obtain ⟨h1, h2, h3, h4, h5, h6, -⟩ := isIdStart_ne h
  simp [tokenAt, hc, h1, h2, h3, h4, h5, h6, Punctuator.longest?_of_isIdStart h, h]

theorem skipOne?_of_isIdStart {ch : Char} (h : isIdStart ch = true) (pos : Nat) (cs : List Char) :
    skipOne? ⟨pos, ch :: cs⟩ = none := by
  refine skipOne?_of_head (isIdStart_ne h).2.2.2.2.2.2 ?_ ?_
  all_goals
    rw [← Bool.not_eq_true]
    intro ht
    first
      | rw [isIdStart_of_isBlank ht] at h
      | rw [isIdStart_of_isLineTerminator ht] at h
    cases h

/-- The kind of token that an identifier, reserved or not, is read as. -/
def wordKind (name : String) : TokenKind :=
  match Keyword.ofText? name with
  | some word => .keyword word
  | none => .identifier name

theorem isToken_name {name : String} (h : isIdentifierName name.toList = true) {r : List Char}
    (hr : NameEnds r) : IsToken name.toList (wordKind name) r := by
  obtain ⟨cs, hname⟩ : ∃ cs, name.toList = cs := ⟨_, rfl⟩
  rw [hname] at h ⊢
  cases cs with
  | nil => cases h
  | cons ch cs =>
    simp only [isIdentifierName, Bool.and_eq_true, List.all_eq_true] at h
    refine ⟨fun pos => skipOne?_of_isIdStart h.1 pos _, ?_⟩
    intro pos
    have hread := Cursor.takeWhile_append h.2 hr (pos + ch.utf8Size)
    rw [List.cons_append, tokenHere_cons, tokenAt_of_isIdStart rfl h.1, nameOrWord,
      Cursor.advance_cons, hread]
    have hof : String.ofList (ch :: cs) = name := by rw [← hname, String.ofList_toList]
    simp only [hof, wordKind, byteSize_cons, Nat.add_assoc]
    split <;> simp_all

theorem isToken_identifier {name : String} (h : isIdentifierName name.toList = true)
    (hn : Keyword.ofText? name = none) {r : List Char} (hr : NameEnds r) :
    IsToken name.toList (.identifier name) r := by
  have := isToken_name h hr
  rwa [wordKind, hn] at this

theorem Keyword.isIdentifierName (word : Keyword) : isIdentifierName word.text.toList = true := by
  cases word <;> decide

theorem Keyword.ofText?_text (word : Keyword) : Keyword.ofText? word.text = some word := by
  cases word <;> decide

theorem isToken_keyword (word : Keyword) {r : List Char} (hr : NameEnds r) :
    IsToken word.text.toList (.keyword word) r := by
  have := isToken_name word.isIdentifierName hr
  rwa [wordKind, word.ofText?_text] at this

/-- The mark of a first line that is left out is no token. -/
theorem tokenHere_sign (pos : Nat) (cs : List Char) :
    tokenHere ⟨pos, '#' :: '!' :: cs⟩ =
      (.invalid (.unexpectedCharacter '#'), ⟨pos + '#'.utf8Size, '!' :: cs⟩) := by
  have hname : List.takeWhile isIdContinue ('!' :: cs) = [] :=
    List.takeWhile_cons_of_neg (by decide)
  have hrest : List.dropWhile isIdContinue ('!' :: cs) = '!' :: cs :=
    List.dropWhile_cons_of_neg (by decide)
  simp [tokenHere_cons, tokenAt, privateNameBody, Cursor.takeWhile, Cursor.advance, hname, hrest]

/-! ### Punctuators -/

/-- Whether some longer punctuator starts with a punctuator and a further character. -/
def Punctuator.extendedBy (mark : Punctuator) (ch : Char) : Bool :=
  Punctuator.longestFirst.any fun p => (mark.text.toList ++ [ch]).isPrefixOf p.text.toList

/-- What may stand behind a punctuator without being read with it. -/
structure MarkEnds (mark : Punctuator) (r : List Char) : Prop where
  /-- No longer punctuator arises. -/
  longest : ∀ ch, r.head? = some ch → mark.extendedBy ch = false
  /-- No comment arises. -/
  comment : mark = .slash → r.head? ≠ some '/' ∧ r.head? ≠ some '*'
  /-- No number arises. -/
  number : mark = .dot ∨ mark = .questionDot → ∀ ch, r.head? = some ch → ch.isDigit = false

/-- No punctuator stands before one that it is the front of. -/
theorem Punctuator.longestFirst_pairwise :
    Punctuator.longestFirst.Pairwise fun p q => p.text.toList.isPrefixOf q.text.toList = false := by
  decide +kernel

theorem Punctuator.longest?_append {mark : Punctuator} {r : List Char} (hr : MarkEnds mark r) :
    Punctuator.longest? (mark.text.toList ++ r) = some mark := by
  have hmark : mark.startsAt (mark.text.toList ++ r) = true := by
    have hnum : mark = .questionDot → ((mark.text.toList ++ r).drop 2).head?.any Char.isDigit = false := by
      rintro rfl
      cases r with
      | nil => rfl
      | cons ch r => exact hr.number (.inr rfl) ch rfl
    simp only [Punctuator.startsAt, Bool.and_eq_true, List.isPrefixOf_iff_prefix, Bool.not_eq_true',
      Bool.and_eq_false_iff, beq_eq_false_iff_ne]
    refine ⟨List.prefix_append _ _, ?_⟩
    by_cases hq : mark = .questionDot
    · exact .inr (hnum hq)
    · exact .inl hq
  have hsome : (Punctuator.longest? (mark.text.toList ++ r)).isSome = true := by
    rw [Punctuator.longest?, List.find?_isSome]
    exact ⟨mark, mark.mem_longestFirst, hmark⟩
  obtain ⟨q, hq⟩ := Option.isSome_iff_exists.mp hsome
  rw [hq]
  rw [Punctuator.longest?, List.find?_eq_some_iff_append] at hq
  obtain ⟨hstarts, as, bs, hsplit, has⟩ := hq
  by_cases hne : q = mark
  · rw [hne]
  exfalso
  have hmem : mark ∈ bs := by
    have := mark.mem_longestFirst
    rw [hsplit, List.mem_append, List.mem_cons] at this
    rcases this with h | h | h
    · have := has mark h
      simp [hmark] at this
    · exact absurd h.symm hne
    · exact h
  have hpair := Punctuator.longestFirst_pairwise
  rw [hsplit, List.pairwise_append, List.pairwise_cons] at hpair
  have hnot := hpair.2.1.1 mark hmem
  simp only [Punctuator.startsAt, Bool.and_eq_true, List.isPrefixOf_iff_prefix] at hstarts
  rcases List.prefix_or_prefix_of_prefix hstarts.1 (List.prefix_append _ _) with h | h
  · rw [← List.isPrefixOf_iff_prefix] at h
    rw [h] at hnot
    cases hnot
  · obtain ⟨behind, hbehind⟩ := h
    cases behind with
    | nil =>
      rw [List.append_nil] at hbehind
      have hself := List.isPrefixOf_iff_prefix.mpr (List.prefix_refl q.text.toList)
      rw [hbehind, hself] at hnot
      cases hnot
    | cons d ds =>
      obtain ⟨more, hmore⟩ := hstarts.1
      rw [← hbehind, List.append_assoc, List.append_cancel_left_eq] at hmore
      have hext : mark.extendedBy d = true := by
        rw [Punctuator.extendedBy, List.any_eq_true]
        refine ⟨q, q.mem_longestFirst, ?_⟩
        rw [List.isPrefixOf_iff_prefix, ← hbehind]
        exact ⟨ds, by simp⟩
      rw [hr.longest d (by rw [← hmore]; rfl)] at hext
      cases hext

/-- What no punctuator starts with, and what starts a token of its own. -/
theorem Punctuator.head_text (mark : Punctuator) :
    ∃ ch cs, mark.text.toList = ch :: cs ∧ ch ≠ '"' ∧ ch ≠ '\'' ∧ ch ≠ '`' ∧ ch.isDigit = false ∧
      ch ≠ '#' ∧ isBlank ch = false ∧ isLineTerminator ch = false ∧
      (ch = '/' → mark = .slash ∨ mark = .slashEqual) ∧
      (ch = '.' → mark = .dot ∨ mark = .ellipsis) := by
  cases mark <;> exact ⟨_, _, rfl, by decide⟩

theorem isToken_punctuator {mark : Punctuator} {r : List Char} (hr : MarkEnds mark r) :
    IsToken mark.text.toList (.punctuator mark) r := by
  obtain ⟨ch, cs, htext, h1, h2, h3, h4, h5, h6, h7, hslash, hdot⟩ := mark.head_text
  have hlongest := Punctuator.longest?_append hr
  rw [htext] at hlongest ⊢
  refine ⟨?_, ?_⟩
  · intro pos
    by_cases hs : ch = '/'
    · subst hs
      rcases hslash rfl with rfl | rfl
      · obtain ⟨-, rfl⟩ := List.cons.inj htext.symm
        exact skipOne?_of_slash (hr.comment rfl)
      · obtain rfl : cs = ['='] :=
          (List.cons.inj (htext.symm.trans (by decide : _ = '/' :: ['=']))).2
        exact skipOne?_of_slash (by simp)
    · exact skipOne?_of_head hs h6 h7
  · intro pos
    have hnum : ch = '.' → (cs ++ r).head?.any Char.isDigit = false := by
      rintro rfl
      rcases hdot rfl with rfl | rfl
      · obtain ⟨-, rfl⟩ := List.cons.inj htext.symm
        cases r with
        | nil => rfl
        | cons d r => exact hr.number (.inl rfl) d rfl
      · obtain rfl : cs = ['.', '.'] :=
          (List.cons.inj (htext.symm.trans (by decide : _ = '.' :: ['.', '.']))).2
        rfl
    have hnum' : (ch.isDigit || (decide (ch = '.') && (cs ++ r).head?.any Char.isDigit)) = false := by
      rw [h4, Bool.false_or]
      by_cases hd : ch = '.'
      · rw [hnum hd, Bool.and_false]
      · simp [hd]
    have hlen : mark.text.length = (ch :: cs).length := by rw [← htext, String.length_toList]
    have hdrop := Cursor.drop_append pos (ch :: cs) r
    rw [List.cons_append] at hdrop hlongest ⊢
    rw [tokenHere_cons]
    simp only [tokenAt, Cursor.advance_cons, Cursor.peek_mk, hnum', hlongest, hlen, hdrop, h1, h2, h3,
      h5]
    rfl

/-! ### Literals -/

/-- The kinds of tokens that a reader of literals gives, if `given` holds of the good ones. -/
def GivesOnly (given : TokenKind → Prop) (kind : TokenKind) : Prop :=
  given kind ∨ ∃ cause, kind = .invalid cause

theorem stringBody_gives (quote : Char) (acc : List Char) (c : Cursor) :
    GivesOnly (∃ s, · = .string s) (stringBody quote acc c).1 := by
  fun_induction stringBody quote acc c with
  | case1 | case3 | case6 => exact .inr ⟨_, rfl⟩
  | case2 => exact .inl ⟨_, rfl⟩
  | case4 _ _ _ _ _ _ _ _ _ ih | case5 _ _ _ _ _ _ _ _ ih | case7 _ _ _ _ _ _ _ _ ih => exact ih

theorem templateChunk_gives (c : Cursor) :
    GivesOnly (∃ chunk closes, · = .template chunk closes) (templateChunk c).1 := by
  unfold templateChunk
  split
  · exact .inl ⟨_, _, rfl⟩
  · exact .inr ⟨_, rfl⟩

theorem number_gives (first : Char) (c : Cursor) :
    GivesOnly (fun k => (∃ v, k = .number v) ∨ ∃ digits, k = .bigInt digits) (number first c).1 := by
  have hdec : ∀ c, GivesOnly (fun k => (∃ v, k = .number v) ∨ ∃ digits, k = .bigInt digits)
      (decimalNumber first c).1 := by
    intro c
    obtain ⟨⟨k, c'⟩, hk⟩ : ∃ k, decimalNumber first c = k := ⟨_, rfl⟩
    obtain ⟨_, _, _, next, -, -, h, -⟩ := decimalNumber_inv hk
    rw [hk, ← h, decimalToken]
    split
    · exact .inl (.inr ⟨_, rfl⟩)
    split
    · exact .inl (.inl ⟨_, rfl⟩)
    · exact .inr ⟨_, rfl⟩
  unfold number
  split
  · split
    · split
      · rw [radixNumber_eq, radixToken]
        split
        · exact .inl (.inr ⟨_, rfl⟩)
        split
        · exact .inr ⟨_, rfl⟩
        · exact .inl (.inl ⟨_, rfl⟩)
      · exact hdec c
    · exact hdec c
  · exact hdec c

theorem nameOrWord_fst (first : Char) (c : Cursor) :
    (nameOrWord first c).1 = wordKind (String.ofList (first :: (c.takeWhile isIdContinue).1)) := by
  rw [wordKind]
  split
  all_goals
    rename_i h
    simp only [nameOrWord, h]

theorem wordKind_cases (name : String) : (∃ word, wordKind name = .keyword word) ∨
    wordKind name = .identifier name := by
  unfold wordKind
  split
  · exact .inl ⟨_, rfl⟩
  · exact .inr rfl

theorem privateNameBody_gives (c : Cursor) :
    GivesOnly (∃ name, · = .privateName name) (privateNameBody c).1 := by
  rw [show privateNameBody c = if (c.takeWhile isIdContinue).1.isEmpty
    then (.invalid (.unexpectedCharacter '#'), (c.takeWhile isIdContinue).2)
    else (.privateName (String.ofList (c.takeWhile isIdContinue).1), (c.takeWhile isIdContinue).2)
    from rfl]
  split
  · exact .inr ⟨_, rfl⟩
  · exact .inl ⟨_, rfl⟩

/-- How a token is read, by its kind. -/
inductive TokenBy (first : Char) (c : Cursor) : TokenKind → Cursor → Prop where
  /-- A string is read behind its opening quote. -/
  | string {s : String} {c' : Cursor} (hf : first = '"' ∨ first = '\'')
      (h : stringBody first [] c.advance = (.string s, c')) : TokenBy first c (.string s) c'
  /-- The first chunk of a template is read behind the mark that opens the template. -/
  | template {chunk : Chunk} {closes : Bool} {c' : Cursor} (hf : first = '`')
      (h : templateChunk c.advance = (.template chunk closes, c')) :
      TokenBy first c (.template chunk closes) c'
  /-- A number is read behind its first character. -/
  | number {v : Binary64} {c' : Cursor}
      (hf : first.isDigit = true ∨ first = '.' ∧ c.advance.peek.any Char.isDigit = true)
      (h : Syntax.number first c.advance = (.number v, c')) : TokenBy first c (.number v) c'
  /-- So is a large integer. -/
  | bigInt {digits : String} {c' : Cursor}
      (hf : first.isDigit = true ∨ first = '.' ∧ c.advance.peek.any Char.isDigit = true)
      (h : Syntax.number first c.advance = (.bigInt digits, c')) :
      TokenBy first c (.bigInt digits) c'
  /-- A private name is read behind its number sign. -/
  | privateName {name : String} {c' : Cursor}
      (hf : first = '#') (h : privateNameBody c.advance = (.privateName name, c')) :
      TokenBy first c (.privateName name) c'
  /-- A punctuator is the longest one. -/
  | punctuator {mark : Punctuator} (h : Punctuator.longest? c.rest = some mark) :
      TokenBy first c (.punctuator mark) (c.drop mark.text.length)
  /-- A word is read like a name. -/
  | keyword {word : Keyword} {c' : Cursor} (hf : isIdStart first = true)
      (h : nameOrWord first c.advance = (.keyword word, c')) : TokenBy first c (.keyword word) c'
  /-- A name has a first character of its own. -/
  | identifier {name : String} {c' : Cursor} (hf : isIdStart first = true)
      (h : nameOrWord first c.advance = (.identifier name, c')) :
      TokenBy first c (.identifier name) c'
  /-- Anything else is no token. -/
  | invalid (cause : LexError) (c' : Cursor) : TokenBy first c (.invalid cause) c'

theorem tokenAt_by (first : Char) (c : Cursor) :
    TokenBy first c (tokenAt first c).1 (tokenAt first c).2 := by
  unfold tokenAt
  dsimp only
  split
  · rename_i hf
    rcases stringBody_gives first [] c.advance with ⟨s, h⟩ | ⟨cause, h⟩
    · rw [h]
      exact .string (by simpa using hf) (Prod.ext h rfl)
    · rw [h]
      exact .invalid _ _
  split
  · rename_i hf
    rcases templateChunk_gives c.advance with ⟨chunk, closes, h⟩ | ⟨cause, h⟩
    · rw [h]
      exact .template hf (Prod.ext h rfl)
    · rw [h]
      exact .invalid _ _
  split
  · rename_i hf
    simp only [Bool.or_eq_true, Bool.and_eq_true, decide_eq_true_eq] at hf
    rcases number_gives first c.advance with (⟨v, h⟩ | ⟨digits, h⟩) | ⟨cause, h⟩
    · rw [h]
      exact .number hf (Prod.ext h rfl)
    · rw [h]
      exact .bigInt hf (Prod.ext h rfl)
    · rw [h]
      exact .invalid _ _
  split
  · rename_i hf
    rcases privateNameBody_gives c.advance with ⟨name, h⟩ | ⟨cause, h⟩
    · rw [h]
      exact .privateName hf (Prod.ext h rfl)
    · rw [h]
      exact .invalid _ _
  split
  · rename_i mark h
    exact .punctuator h
  split
  · rename_i hf
    have hfst := nameOrWord_fst first c.advance
    rcases wordKind_cases (String.ofList (first :: (c.advance.takeWhile isIdContinue).1)) with
      ⟨word, h⟩ | h
    · rw [h] at hfst
      rw [hfst]
      exact .keyword hf (Prod.ext hfst rfl)
    · rw [h] at hfst
      rw [hfst]
      exact .identifier hf (Prod.ext hfst rfl)
  · exact .invalid _ _

/-- What starts the text of a number or a string. -/
def startsLiteral (ch : Char) : Bool := ch = '"' || ch = '\'' || ch.isDigit || ch = '.'

theorem skipOne?_of_startsLiteral {ch : Char} (h : startsLiteral ch = true) (pos : Nat)
    (cs : List Char) : skipOne? ⟨pos, ch :: cs⟩ = none := by
  simp only [startsLiteral, Bool.or_eq_true, decide_eq_true_eq] at h
  rcases h with ((rfl | rfl) | h) | rfl
  · exact skipOne?_of_head (by decide) (by decide) (by decide)
  · exact skipOne?_of_head (by decide) (by decide) (by decide)
  · have hr : 48 ≤ ch.toNat ∧ ch.toNat ≤ 57 := by
      simp only [Char.isDigit, Bool.and_eq_true, decide_eq_true_eq, ge_iff_le,
        UInt32.le_iff_toNat_le] at h
      simpa using h
    have hne : ∀ d : Char, ¬ (48 ≤ d.toNat ∧ d.toNat ≤ 57) → ch ≠ d := by
      rintro d hd rfl
      exact hd hr
    have hline : isLineTerminator ch = false := by
      simp [isLineTerminator, hne]
    refine skipOne?_of_head (hne _ (by decide)) ?_ hline
    rw [← Bool.not_eq_true]
    intro hb
    simp only [isBlank, isWhiteSpace, Bool.or_eq_true, Bool.and_eq_true, decide_eq_true_eq,
      beq_iff_eq] at hb
    rcases hb with ⟨hb, -⟩ | hb
    · rcases hb with (((((((((hb | hb) | hb) | hb) | hb) | hb) | hb) | hb) | hb) | hb) | hb <;> omega
    · exact hne _ (by decide) hb
  · exact skipOne?_of_head (by decide) (by decide) (by decide)

/-- In front of whatever ends a number the text is read as one token of the given kind. -/
def Spells (text : List Char) (kind : TokenKind) : Prop :=
  ∀ r, NumberEnds text r → IsToken text kind r

theorem isToken_of_tokenAt {ch : Char} {w : List Char} {kind : TokenKind} {r : List Char}
    (h : startsLiteral ch = true) (ht : ∀ pos, tokenAt ch ⟨pos, ch :: (w ++ r)⟩ =
      (kind, ⟨pos + ch.utf8Size + byteSize w, r⟩)) : IsToken (ch :: w) kind r := by
  refine ⟨fun pos => skipOne?_of_startsLiteral h pos _, ?_⟩
  intro pos
  rw [List.cons_append, tokenHere_cons, ht pos, byteSize_cons, Nat.add_assoc]

/-- What is read at a place, if anything is left there. -/
theorem tokenHere_by {c c' : Cursor} {k : TokenKind} (h : tokenHere c = (k, c')) (hk : k ≠ .eof) :
    ∃ first cs, c.rest = first :: cs ∧ TokenBy first c k c' := by
  unfold tokenHere at h
  cases hc : c.rest with
  | nil =>
    rw [hc] at h
    exact absurd (Prod.mk.inj h).1.symm hk
  | cons first cs =>
    rw [hc] at h
    dsimp only at h
    have hby := tokenAt_by first c
    rw [h] at hby
    exact ⟨first, cs, rfl, hby⟩

theorem tokenHere_string {c c' : Cursor} {s : String} (h : tokenHere c = (.string s, c')) :
    ∃ w, c.Moves w c' ∧ Spells w (.string s) := by
  obtain ⟨first, cs, hc, hby⟩ := tokenHere_by h (by simp)
  cases hby with
  | string hf h =>
    obtain ⟨w, hm, -, htake⟩ := stringBody_takes h
    refine ⟨_, (Cursor.moves_advance hc).trans hm, ?_⟩
    intro r _
    refine isToken_of_tokenAt (by simp [startsLiteral, hf]) ?_
    intro pos
    refine Eq.trans ?_ (htake r _)
    simp [tokenAt, hf]

/-- A number is read where its first character says so. -/
theorem isToken_of_number {first : Char} {c : Cursor} {w : List Char} {kind : TokenKind}
    {r : List Char} (hf : first.isDigit = true ∨ first = '.' ∧ c.peek.any Char.isDigit = true)
    (hhead : first = '.' → ∀ d, c.rest.head? = some d → d.isDigit = true → w.head? = some d)
    (ht : Takes (number first) w kind r) : IsToken (first :: w) kind r := by
  have hstart : startsLiteral first = true := by
    rcases hf with h | ⟨h, -⟩ <;> simp [startsLiteral, h]
  have hne : first ≠ '"' ∧ first ≠ '\'' ∧ first ≠ '`' := by
    refine ⟨?_, ?_, ?_⟩
    all_goals
      rintro rfl
      rcases hf with h | ⟨h, -⟩
      · revert h
        decide
      · revert h
        decide
  have hnum : (first.isDigit || (first = '.' && (w ++ r).head?.any Char.isDigit)) = true := by
    rcases hf with h | ⟨rfl, h⟩
    · simp [h]
    · cases hd : c.rest.head? with
      | none => simp [Cursor.peek, hd] at h
      | some d =>
        simp only [Cursor.peek, hd, Option.any_some] at h
        simp [List.head?_append, hhead rfl d hd h, h]
  refine isToken_of_tokenAt hstart ?_
  intro pos
  rw [← ht]
  simp only [tokenAt, Cursor.advance_cons, Cursor.peek_mk, hnum, hne]
  simp

theorem tokenHere_number {c c' : Cursor} {v : Binary64} (h : tokenHere c = (.number v, c')) :
    ∃ w, c.Moves w c' ∧ Spells w (.number v) := by
  obtain ⟨first, cs, hc, hby⟩ := tokenHere_by h (by simp)
  cases hby with
  | number hf h =>
    obtain ⟨w, hm, hhead, htake⟩ := number_takes (hf.imp id And.left) h
    exact ⟨_, (Cursor.moves_advance hc).trans hm,
      fun r hr => isToken_of_number hf hhead (htake r hr)⟩

theorem tokenHere_bigInt {c c' : Cursor} {digits : String}
    (h : tokenHere c = (.bigInt digits, c')) :
    Spells (digits.toList ++ ['n']) (.bigInt digits) := by
  obtain ⟨first, cs, hc, hby⟩ := tokenHere_by h (by simp)
  cases hby with
  | bigInt hf h =>
    obtain ⟨w, hdigits, hhead, htake⟩ := number_bigInt (hf.imp id And.left) h
    rw [hdigits]
    refine fun r _ => isToken_of_number hf ?_ (htake r)
    intro hdot d hd hdigit
    show (w ++ ['n']).head? = some d
    rw [List.head?_append, hhead hdot d hd hdigit]
    rfl

theorem tokenHere_identifier {c c' : Cursor} {name : String}
    (h : tokenHere c = (.identifier name, c')) :
    isIdentifierName name.toList = true ∧ Keyword.ofText? name = none := by
  obtain ⟨first, cs, hc, hby⟩ := tokenHere_by h (by simp)
  cases hby with
  | identifier hf h =>
    have hfst := nameOrWord_fst first c.advance
    rw [h] at hfst
    dsimp only at hfst
    unfold wordKind at hfst
    split at hfst
    · cases hfst
    · rename_i hof
      obtain rfl := TokenKind.identifier.inj hfst
      refine ⟨?_, hof⟩
      rw [String.toList_ofList, isIdentifierName, hf, Bool.true_and]
      exact List.all_takeWhile

theorem tokenHere_privateName {c c' : Cursor} {name : String}
    (h : tokenHere c = (.privateName name, c')) :
    name ≠ "" ∧ ∀ ch ∈ name.toList, isIdContinue ch = true := by
  obtain ⟨first, cs, hc, hby⟩ := tokenHere_by h (by simp)
  cases hby with
  | privateName hf h =>
    unfold privateNameBody at h
    dsimp only at h
    split at h
    · simp at h
    · rename_i hne
      obtain ⟨h, -⟩ := Prod.mk.inj h
      obtain rfl := TokenKind.privateName.inj h
      rw [String.toList_ofList]
      refine ⟨?_, List.all_eq_true.mp List.all_takeWhile⟩
      intro hempty
      refine hne ?_
      rw [List.isEmpty_iff, ← String.toList_ofList (l := (c.advance.takeWhile isIdContinue).1), hempty]
      rfl

theorem tokenHere_template {c c' : Cursor} {chunk : Chunk} {closes : Bool}
    (h : tokenHere c = (.template chunk closes, c')) :
    ∃ cs, c.rest = '`' :: cs ∧ templateChunk c.advance = (.template chunk closes, c') := by
  obtain ⟨first, cs, hc, hby⟩ := tokenHere_by h (by simp)
  cases hby with
  | template hf h => exact ⟨cs, hf ▸ hc, h⟩

end EsModule.Syntax
