import EsModule.Proofs.Lexis.Locality
import Mathlib.Logic.Function.Iterate

/-!
# The tokens tile the source

Between tokens stand blanks, line ends and comments, and nothing else (`Trivia`). The tokens of a
source, with such gaps between them, make up the whole of it (`Tiles`): each token has the span of
its own text, which is not empty, and knows whether a line ends in the gap in front of it; the last
one is the end of the source. A block comment that is never closed can only be the last thing there
is.

What one reading does is said by `skipTrivia_moves` and `tokenHere_again`; `tiles_tokensFrom` is the
induction over the readings.
-/

namespace EsModule.Syntax

open EsModule.Text

/-! ### What stands between tokens -/

/-- One blank, line end or comment in front of the text `r`. -/
inductive Skipped (r : List Char) : List Char → Prop where
  /-- A blank. -/
  | blank {ch : Char} (h : isBlank ch = true) : Skipped r [ch]
  /-- A line end. -/
  | lineEnd {ch : Char} (h : isLineTerminator ch = true) : Skipped r [ch]
  /-- A line comment goes on to the end of its line. -/
  | lineComment {body : List Char} (hb : ∀ ch ∈ body, isLineTerminator ch = false)
      (hr : ∀ ch, r.head? = some ch → isLineTerminator ch = true) :
      Skipped r ('/' :: '/' :: body)
  /-- A block comment goes on to the first mark that closes it. -/
  | blockComment {body : List Char} (hb : ¬['*', '/'] <:+: body) :
      Skipped r ('/' :: '*' :: body ++ ['*', '/'])
  /-- One that is never closed has nothing behind it. -/
  | unclosed {body : List Char} (hb : ¬['*', '/'] <:+: body) (hr : r = []) :
      Skipped r ('/' :: '*' :: body)

/-- Blanks, line ends and comments in front of the text `r`. -/
inductive Trivia (r : List Char) : List Char → Prop where
  /-- Nothing at all. -/
  | nil : Trivia r []
  /-- One of them in front of the others. -/
  | cons {v w : List Char} (hv : Skipped (w ++ r) v) (hw : Trivia r w) : Trivia r (v ++ w)

theorem infix_cons_cons_iff {a b c : Char} {cs : List Char} :
    [a, b] <:+: c :: cs ↔ (a = c ∧ cs.head? = some b) ∨ [a, b] <:+: cs := by
  rw [List.infix_cons_iff, List.cons_prefix_cons]
  refine or_congr_left (and_congr_right fun _ => ?_)
  cases cs with
  | nil => simp
  | cons d cs => simp [eq_comm]

/-- The inside of a block comment ends with the first mark that closes it, if there is one. -/
theorem splitComment_inside (cs : List Char) :
    (∃ body, (splitComment cs).1 = body ++ ['*', '/'] ∧ ¬['*', '/'] <:+: body) ∨
      (splitComment cs = (cs, []) ∧ ¬['*', '/'] <:+: cs) := by
  fun_induction splitComment cs with
  | case1 => exact .inr ⟨rfl, by simp⟩
  | case2 cs => exact .inl ⟨[], rfl, by simp⟩
  | case3 c cs hne inside behind hs ih =>
    rw [hs] at ih
    have hno : ∀ body, (body <+: cs) → ¬(c = '*' ∧ body.head? = some '/') := by
      rintro body ⟨more, rfl⟩ ⟨rfl, hhead⟩
      obtain ⟨ds, rfl⟩ := List.head?_eq_some_iff.mp hhead
      exact hne (ds ++ more) rfl rfl
    have happend := splitComment_append cs
    rw [hs] at happend
    rcases ih with ⟨body, rfl, hb⟩ | ⟨heq, hb⟩
    · refine .inl ⟨c :: body, rfl, ?_⟩
      rw [infix_cons_cons_iff, not_or]
      refine ⟨?_, hb⟩
      rw [eq_comm (a := '*')]
      exact hno body ⟨_, by rw [← happend, List.append_assoc]⟩
    · obtain ⟨rfl, rfl⟩ := Prod.mk.inj heq
      refine .inr ⟨rfl, ?_⟩
      rw [infix_cons_cons_iff, not_or, eq_comm (a := '*')]
      exact ⟨hno _ (List.prefix_refl _), hb⟩

/-- What one step moves over, and whether it ends a line. -/
theorem skipOne?_moves {c c' : Cursor} {newline : Bool} (h : skipOne? c = some (newline, c')) :
    ∃ w, c.Moves w c' ∧ Skipped c'.rest w ∧ newline = w.any isLineTerminator := by
  unfold skipOne? at h
  split at h
  · cases h
  · rename_i cs hc
    obtain ⟨rfl, rfl⟩ : false = newline ∧ _ = c' := by simpa using h
    have hm := c.moves_takeWhile fun ch => !isLineTerminator ch
    have hall : ∀ ch ∈ (c.takeWhile fun ch => !isLineTerminator ch).1,
        isLineTerminator ch = false := by
      intro ch hch
      simpa using List.all_eq_true.mp List.all_takeWhile ch hch
    have hend : ∀ ch, (c.takeWhile fun ch => !isLineTerminator ch).2.rest.head? = some ch →
        isLineTerminator ch = true := fun ch hch => by simpa using takeWhile_stops hch
    obtain ⟨body, hbody⟩ : ∃ body, (c.takeWhile fun ch => !isLineTerminator ch).1 =
        '/' :: '/' :: body := by
      refine ⟨cs.takeWhile fun ch => !isLineTerminator ch, ?_⟩
      simp [Cursor.takeWhile, hc, isLineTerminator]
    refine ⟨_, hm, ?_, ?_⟩
    · rw [hbody] at hall ⊢
      exact .lineComment (fun ch hch => hall ch (by simp [hch])) hend
    · symm
      rw [List.any_eq_false]
      intro ch hch
      simp [hall ch hch]
  · rename_i cs hc
    obtain ⟨rfl, rfl⟩ : _ = newline ∧ _ = c' := by simpa using h
    have hm := c.moves_drop ((splitComment cs).1.length + 2)
    have hinside := List.prefix_iff_eq_take.mp ⟨_, splitComment_append cs⟩
    rw [hc, List.take_succ_cons, List.take_succ_cons, ← hinside] at hm
    refine ⟨_, hm, ?_, by simp [isLineTerminator]⟩
    rcases splitComment_inside cs with ⟨body, hbody, hb⟩ | ⟨heq, hb⟩
    · rw [hbody]
      exact .blockComment hb
    · rw [heq]
      refine .unclosed hb ?_
      simp [Cursor.drop, hc]
  · rename_i ch cs _ _ hc
    split at h
    · rename_i hl
      obtain ⟨rfl, rfl⟩ : true = newline ∧ _ = c' := by simpa using h
      exact ⟨_, Cursor.moves_advance hc, .lineEnd hl, by simp [hl]⟩
    · rename_i hl
      split at h
      · rename_i hb
        obtain ⟨rfl, rfl⟩ : false = newline ∧ _ = c' := by simpa using h
        exact ⟨_, Cursor.moves_advance hc, .blank hb, by simp [hl]⟩
      · cases h

/-- What stands in front of a token, and whether a line ends there. -/
theorem skipTrivia_moves (c : Cursor) :
    ∃ w, c.Moves w (skipTrivia c).2 ∧ Trivia (skipTrivia c).2.rest w ∧
      (skipTrivia c).1 = w.any isLineTerminator := by
  fun_induction skipTrivia c with
  | case1 c h => exact ⟨[], .refl c, .nil, rfl⟩
  | case2 c newline c' h newlines c'' hs ih =>
    obtain ⟨v, hm, hv, hnew⟩ := skipOne?_moves h
    obtain ⟨w, hm', hw, hnews⟩ := ih
    rw [hs] at hm' hw hnews
    refine ⟨v ++ w, hm.trans hm', .cons (hm'.rest ▸ hv) hw, ?_⟩
    rw [List.any_append, hnew, ← hnews]

/-! ### Tokens and gaps -/

/-- Behind the text `read`, the text `rest` is made up of the tokens and the gaps between them. -/
inductive Tiles : List Char → List Char → List Token → Prop where
  /-- Behind the last gap is the end of the source. -/
  | last {read gap : List Char} {token : Token} (hgap : Trivia [] gap)
      (hkind : token.kind = .eof)
      (hspan : token.span = ⟨byteSize (read ++ gap), byteSize (read ++ gap)⟩)
      (hline : token.newlineBefore = gap.any isLineTerminator) : Tiles read gap [token]
  /-- Behind any other gap is the text of a token, and more behind that. -/
  | cons {read gap text rest : List Char} {token : Token} {tokens : List Token}
      (hgap : Trivia (text ++ rest) gap) (htext : text ≠ []) (hkind : token.kind ≠ .eof)
      (hspan : token.span = ⟨byteSize (read ++ gap), byteSize (read ++ gap ++ text)⟩)
      (hline : token.newlineBefore = gap.any isLineTerminator)
      (hrest : Tiles (read ++ gap ++ text) rest tokens) :
      Tiles read (gap ++ text ++ rest) (token :: tokens)

/-- The end of the source is read where nothing is left. -/
theorem tokenHere_eof {c c' : Cursor} (h : tokenHere c = (.eof, c')) : c.rest = [] ∧ c' = c := by
  cases hc : c.rest with
  | nil => simpa [tokenHere, hc, eq_comm] using h
  | cons first cs =>
    have htoken : tokenAt first c = (.eof, c') := by rwa [tokenHere, hc] at h
    have hby := tokenAt_by first c
    rw [htoken] at hby
    cases hby

/-- One reading moves over a gap and a token; the end of the source is no text. -/
theorem nextToken_moves (c : Cursor) :
    ∃ gap text, c.Moves (gap ++ text) (nextToken c).2 ∧
      Trivia (text ++ (nextToken c).2.rest) gap ∧
      (nextToken c).1.span = ⟨c.pos + byteSize gap, c.pos + byteSize (gap ++ text)⟩ ∧
      (nextToken c).1.newlineBefore = gap.any isLineTerminator ∧
      if (nextToken c).1.kind = .eof then text = [] ∧ (nextToken c).2.rest = [] else text ≠ [] := by
  obtain ⟨gap, hm, hgap, hline⟩ := skipTrivia_moves c
  rw [nextToken_eq]
  generalize skipTrivia c = skipped at hm hgap hline
  obtain ⟨newline, start⟩ := skipped
  dsimp only at hm hgap hline ⊢
  obtain ⟨k, next, hnext⟩ : ∃ k next, tokenHere start = (k, next) := ⟨_, _, rfl⟩
  rw [hnext]
  by_cases hk : k = .eof
  · subst hk
    obtain ⟨hend, rfl⟩ := tokenHere_eof hnext
    refine ⟨gap, [], (List.append_nil gap).symm ▸ hm, hgap, ?_, hline, by simp [hend]⟩
    simp only [hm.pos, List.append_nil]
  · obtain ⟨text, htext, hm', -⟩ := tokenHere_again hnext hk
    refine ⟨gap, text, hm.trans hm', hm'.rest ▸ hgap, ?_, hline, by simpa [hk] using htext⟩
    simp only [hm'.pos, hm.pos, byteSize_append, Nat.add_assoc]

theorem tiles_tokensFrom (c : Cursor) :
    ∀ read, c.pos = byteSize read → Tiles read c.rest (tokensFrom c) := by
  fun_induction tokensFrom c with
  | case1 c next hk =>
    intro read h
    obtain ⟨gap, text, hm, hgap, hspan, hline, hend⟩ := nextToken_moves c
    rw [if_pos hk] at hend
    obtain ⟨rfl, hend⟩ := hend
    rw [hend, List.append_nil] at hgap
    rw [hm.rest, hend, List.append_nil, List.append_nil]
    exact .last hgap hk (hspan.trans (by simp [h])) hline
  | case2 c next hk ih =>
    intro read h
    obtain ⟨gap, text, hm, hgap, hspan, hline, hend⟩ := nextToken_moves c
    rw [if_neg hk] at hend
    rw [hm.rest]
    exact .cons hgap hend hk (hspan.trans (by simp [h])) hline
      (ih _ (hm.pos.trans (by simp [h])))

/-! ### Reading on and on -/

/-- The place behind `n` tokens. -/
def behindTokens (c : Cursor) (n : Nat) : Cursor := (fun c => (nextToken c).2)^[n] c

/-- The tokens from a place on are what reading on and on gives, up to the end of the source. -/
theorem tokensFrom_eq_map (c : Cursor) :
    tokensFrom c =
      (List.range (tokensFrom c).length).map fun i => (nextToken (behindTokens c i)).1 := by
  fun_induction tokensFrom c with
  | case1 c next hk => rfl
  | case2 c next hk ih =>
    rw [List.length_cons, List.range_succ_eq_map, List.map_cons, List.map_map]
    exact congrArg _ ih

theorem firstCursor_at (source : List Char) : (firstCursor source).At source := by
  unfold firstCursor
  split
  · exact (Cursor.start_at _).takeWhile _
  · exact Cursor.start_at _

/-- The source is its first line, if that starts with `#!`, and then tokens with gaps between them,
which are all that reading on and on gives until the end of the source. -/
theorem tokens_tile (source : List Char) :
    (∃ read rest, source = read ++ rest ∧ firstCursor source = ⟨byteSize read, rest⟩ ∧
      Tiles read rest (tokens source)) ∧
    tokens source = (List.range (tokens source).length).map
      fun i => (nextToken (behindTokens (firstCursor source) i)).1 := by
  obtain ⟨read, hsource, hpos⟩ := firstCursor_at source
  refine ⟨⟨read, _, hsource, ?_, tiles_tokensFrom _ _ hpos⟩, tokensFrom_eq_map _⟩
  rw [← hpos]

end EsModule.Syntax
