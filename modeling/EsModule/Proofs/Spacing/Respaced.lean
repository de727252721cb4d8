import EsModule.Proofs.Printing.Lexeme
import EsModule.Proofs.Spacing.Insertion

/-!
# Tokens delimit themselves

`respaced` throws away everything between the tokens of a source and puts a single space there. The
same tokens are read from what is left (`tokens_respaced`), those that are no token of the grammar
included: where a token ends says nothing about what stood behind it.

One reading is `isToken_text`; the induction over the readings is `kinds_spaced`.
-/

namespace EsModule.Syntax

open EsModule.Text

/-! ## The texts of tokens -/

/-- The text of a token in its source. -/
def Token.text (source : List Char) (t : Token) : List Char :=
  (Cursor.seek source t.span.start).textTo t.span.stop

/-- The texts of the tokens of a list, without the end of the source. -/
def tokenTexts (source : List Char) (ts : List Token) : List (List Char) :=
  (ts.filter fun t => t.kind ≠ .eof).map (Token.text source)

/-- Texts with single spaces between them. -/
def spaced (texts : List (List Char)) : List Char := [' '].intercalate texts

/-- The tokens of a source with single spaces between them, and nothing else. -/
def respaced (source : List Char) : List Char := spaced (tokenTexts source (tokens source))

/-- What stands behind a text when further texts follow. -/
def spacedBehind : List (List Char) → List Char
  | [] => []
  | texts => ' ' :: spaced texts

theorem spaced_cons (w : List Char) (texts : List (List Char)) :
    spaced (w :: texts) = w ++ spacedBehind texts := by
  cases texts with
  | nil => simp [spaced, spacedBehind]
  | cons v texts => simp [spaced, spacedBehind, List.intercalate]

theorem breaks_spacedBehind (v : List Char) (texts : List (List Char)) :
    Breaks v (spacedBehind texts) := by
  cases texts with
  | nil => exact .inl rfl
  | cons w texts => exact .inr (.inl rfl)

/-! ## One token -/

theorem Token.text_of_moves {source gap w : List Char} {c c' c'' : Cursor} {t : Token}
    (hc : c.At source) (hgap : c.Moves gap c') (hw : c'.Moves w c'')
    (hspan : t.span = ⟨c'.pos, c''.pos⟩) : t.text source = w := by
  obtain ⟨read, hsource, hpos⟩ := at_of_moves hc hgap
  have hseek : Cursor.seek source c'.pos = c' := by
    rw [hsource, hpos, Cursor.seek_append, ← hpos]
  rw [Token.text, hspan, hseek, hw.textTo]

/-- The text of a token is read as the token wherever it stands, if it is followed by nothing or by
a space, and by nothing if the source ended there. -/
theorem isToken_text {source : List Char} {c : Cursor} (hc : c.At source)
    (hk : (nextToken c).1.kind ≠ .eof) {r : List Char} (hr : Breaks (nextToken c).2.rest r)
    (hend : (nextToken c).2.rest = [] → r = []) :
    IsToken ((nextToken c).1.text source) (nextToken c).1.kind r := by
  obtain ⟨gap, hgap, -⟩ := skipTrivia_moves c
  rw [nextToken_eq] at hk hr hend ⊢
  dsimp only at hk hr hend ⊢
  obtain ⟨kind, c', hread⟩ : ∃ kind c', tokenHere (skipTrivia c).2 = (kind, c') := ⟨_, _, rfl⟩
  rw [hread] at hk hr hend ⊢
  -- the text is the one that the token was read from, so it is read from it again
  obtain ⟨w, hne, hm, hagain⟩ := tokenHere_again hread hk
  rw [Token.text_of_moves hc hgap hm rfl]
  have hparts : Parts c'.rest r := .inr ⟨[], _, r, rfl, rfl, hr⟩
  refine ⟨fun pos => ?_, hagain r ⟨hparts, fun _ => hend, ?_⟩⟩
  · obtain ⟨ch, w, rfl⟩ := List.exists_cons_of_ne_nil hne
    refine skipOne?_near (?_ : skipOne? ⟨(skipTrivia c).2.pos, _⟩ = none) (hr.near.append w)
    rw [← List.cons_append, ← hm.rest]
    exact skipOne?_skipTrivia c
  -- no point follows in the second source
  · rintro - s rfl
    rcases hr with hr | hr | ⟨-, hr⟩ <;> cases hr

/-! ## All tokens -/

theorem kinds_cons {pos : Nat} {w r : List Char} {kind : TokenKind} (h : IsToken w kind r)
    (hk : kind ≠ .eof) : (tokensFrom ⟨pos, w ++ r⟩).map (·.kind) =
      kind :: (tokensFrom ⟨pos + byteSize w, r⟩).map (·.kind) := by
  have hnext := h.nextToken pos
  rw [tokensFrom, dif_neg (by rw [hnext]; exact hk), hnext, List.map_cons]

theorem tokensFrom_space (pos : Nat) (cs : List Char) :
    tokensFrom ⟨pos, ' ' :: cs⟩ = tokensFrom ⟨pos + 1, cs⟩ := by
  rw [tokensFrom.eq_1 ⟨pos, ' ' :: cs⟩, tokensFrom.eq_1 ⟨pos + 1, cs⟩, nextToken_space]

theorem nextToken_nil (pos : Nat) : (nextToken ⟨pos, []⟩).1.kind = .eof := by
  have hskip : skipTrivia ⟨pos, []⟩ = (false, ⟨pos, []⟩) := skipTrivia_of_none rfl
  rw [nextToken_eq, hskip]
  rfl

/-- Where nothing is left, only the end of the source is read. -/
theorem kinds_nil (pos : Nat) : (tokensFrom ⟨pos, []⟩).map (·.kind) = [.eof] := by
  rw [tokensFrom, dif_pos (nextToken_nil pos), List.map_singleton, nextToken_nil]

theorem tokenTexts_eof {source : List Char} {c : Cursor} (hk : (nextToken c).1.kind = .eof) :
    tokenTexts source (tokensFrom c) = [] := by
  rw [tokensFrom, dif_pos hk]
  simp [tokenTexts, hk]

/-- The first of the texts is read as the first of the tokens. -/
theorem spaced_token {source : List Char} {c : Cursor} (hc : c.At source)
    (hk : (nextToken c).1.kind ≠ .eof) :
    ∃ w, spaced (tokenTexts source (tokensFrom c)) =
        w ++ spacedBehind (tokenTexts source (tokensFrom (nextToken c).2)) ∧
      IsToken w (nextToken c).1.kind
        (spacedBehind (tokenTexts source (tokensFrom (nextToken c).2))) := by
  refine ⟨(nextToken c).1.text source, ?_, isToken_text hc hk (breaks_spacedBehind _ _) ?_⟩
  · rw [← spaced_cons, tokensFrom.eq_1 c, dif_neg hk]
    simp [tokenTexts, hk]
  · intro hnil
    have hcursor : (nextToken c).2 = ⟨(nextToken c).2.pos, []⟩ := by rw [← hnil]
    have heof := nextToken_nil (nextToken c).2.pos
    rw [← hcursor] at heof
    rw [tokenTexts_eof heof]
    rfl

/-- The texts of the tokens from a place on are read as these tokens. -/
theorem kinds_spaced {source : List Char} (c : Cursor) (hc : c.At source) (pos : Nat) :
    (tokensFrom ⟨pos, spaced (tokenTexts source (tokensFrom c))⟩).map (·.kind) =
      (tokensFrom c).map (·.kind) := by
  fun_induction tokensFrom c generalizing pos with
  | case1 c next hk =>
    have htexts : tokenTexts source [next.1] = [] := by simp [tokenTexts, hk]
    rw [htexts, List.map_singleton, hk]
    exact kinds_nil pos
  | case2 c next hk ih =>
    obtain ⟨gap, w, hm, -⟩ := nextToken_moves c
    have ih := ih (at_of_moves hc hm)
    obtain ⟨w, hspaced, htoken⟩ := spaced_token hc hk
    rw [tokensFrom.eq_1 c, dif_neg hk] at hspaced
    rw [hspaced, kinds_cons htoken hk, List.map_cons]
    refine congrArg _ ?_
    generalize tokenTexts source (tokensFrom next.2) = texts at ih
    cases texts with
    | nil => exact ih _
    | cons v texts => exact (congrArg _ (tokensFrom_space _ _)).trans (ih _)

/-! ## The first line -/

/-- No token in front of a space is taken for the mark of such a line. -/
theorem firstCursor_of_isToken {w r : List Char} {kind : TokenKind} (h : IsToken w kind r)
    (hr : r.head? ≠ some '!') : firstCursor (w ++ r) = ⟨0, w ++ r⟩ := by
  have hread := h.takes 0
  generalize w ++ r = source at hread
  unfold firstCursor
  split
  · rw [tokenHere_sign] at hread
    refine absurd ?_ hr
    rw [← (Cursor.mk.inj (Prod.mk.inj hread).2).2]
    rfl
  · rfl

theorem firstCursor_respaced (source : List Char) :
    firstCursor (respaced source) = ⟨0, respaced source⟩ := by
  rw [respaced, tokens]
  by_cases hk : (nextToken (firstCursor source)).1.kind = .eof
  · rw [tokenTexts_eof hk]
    rfl
  · obtain ⟨w, hspaced, htoken⟩ := spaced_token (firstCursor_at source) hk
    rw [hspaced]
    refine firstCursor_of_isToken htoken ?_
    rcases breaks_spacedBehind [] (tokenTexts source
      (tokensFrom (nextToken (firstCursor source)).2)) with hr | hr | ⟨hr, -⟩
    · simp [hr]
    · simp [hr]
    · cases hr

/-- **Tokens delimit themselves**: the texts of the tokens of a source, with single spaces between
them, are read as the same tokens in the same order. -/
theorem tokens_respaced (source : List Char) :
    (tokens (respaced source)).map (·.kind) = (tokens source).map (·.kind) := by
  rw [tokens, firstCursor_respaced]
  exact kinds_spaced _ (firstCursor_at source) 0

end EsModule.Syntax
