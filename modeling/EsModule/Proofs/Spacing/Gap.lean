import EsModule.Proofs.Layout.Laid

/-!
# Gaps are skipped again

What stands between two tokens is skipped wherever it stands, as long as the text behind it starts
with the same character (`skipTrivia_of_trivia`). Tokens behind it are read again by
`tokenHere_again`; the lemmas here add what that needs for `?`, and the two readings that the
grammar asks for, of regular expressions and of the chunks of templates.
-/

namespace EsModule.Syntax

open EsModule.Text

/-! ### Where no gap starts -/

/-- A text starts no gap if its first character is neither blank nor a line end nor the first mark
of a comment. -/
theorem skipOne?_eq_none_iff {pos : Nat} {r : List Char} :
    skipOne? ⟨pos, r⟩ = none ↔ ∀ ch cs, r = ch :: cs →
      isLineTerminator ch = false ∧ isBlank ch = false ∧
        (ch = '/' → cs.head? ≠ some '/' ∧ cs.head? ≠ some '*') := by
  constructor
  · intro h ch cs hr
    subst hr
    unfold skipOne? at h
    split at h
    · rename_i heq
      cases heq
    · cases h
    · cases h
    · rename_i d ds hline hblock heq
      obtain ⟨rfl, rfl⟩ := List.cons.inj heq
      have hlt : isLineTerminator ch = false := by
        cases hc : isLineTerminator ch with
        | false => rfl
        | true => simp [hc] at h
      have hbl : isBlank ch = false := by
        cases hc : isBlank ch with
        | false => rfl
        | true => simp [hc, hlt] at h
      refine ⟨hlt, hbl, ?_⟩
      intro hch
      subst hch
      refine ⟨?_, ?_⟩
      · intro hhead
        obtain ⟨ds, rfl⟩ := List.head?_eq_some_iff.mp hhead
        exact hline ds rfl rfl
      · intro hhead
        obtain ⟨ds, rfl⟩ := List.head?_eq_some_iff.mp hhead
        exact hblock ds rfl rfl
  · intro h
    cases r with
    | nil => rfl
    | cons ch cs =>
      obtain ⟨hlt, hbl, hslash⟩ := h ch cs rfl
      by_cases hch : ch = '/'
      · subst hch
        exact skipOne?_of_slash (hslash rfl)
      · exact skipOne?_of_head hch hbl hlt

theorem skipOne?_moved {pos pos' : Nat} {r : List Char} (h : skipOne? ⟨pos, r⟩ = none) :
    skipOne? ⟨pos', r⟩ = none := by
  rw [skipOne?_eq_none_iff] at h ⊢
  exact h

/-- No gap starts in front of a text that is near, as a space ends the first mark of a comment. -/
theorem skipOne?_near {pos pos' : Nat} {ch : Char} {r r' : List Char}
    (h : skipOne? ⟨pos, ch :: r⟩ = none) (hr : Near r r') : skipOne? ⟨pos', ch :: r'⟩ = none := by
  rw [skipOne?_eq_none_iff] at h ⊢
  intro d ds hd
  obtain ⟨rfl, rfl⟩ := List.cons.inj hd
  obtain ⟨hlt, hbl, hslash⟩ := h ch r rfl
  refine ⟨hlt, hbl, ?_⟩
  intro hch
  exact (hslash hch).imp (mt (hr.head (by decide))) (mt (hr.head (by decide)))

/-! ### Gaps -/

theorem Skipped.congr {r r' w : List Char} (h : Skipped r w) (hr : r.head? = r'.head?) :
    Skipped r' w := by
  cases h with
  | blank h => exact .blank h
  | lineEnd h => exact .lineEnd h
  | lineComment hb he => exact .lineComment hb (hr ▸ he)
  | blockComment hb => exact .blockComment hb
  | unclosed hb he =>
    subst he
    refine .unclosed hb ?_
    simpa using hr.symm

/-- A gap is one in front of any text that starts in the same way. -/
theorem Trivia.congr {r r' w : List Char} (h : Trivia r w) (hr : r.head? = r'.head?) :
    Trivia r' w := by
  induction h with
  | nil => exact .nil
  | cons hv _ ih => exact .cons (hv.congr (head?_append_congr hr)) ih

theorem Trivia.append {r v w : List Char} (hv : Trivia (w ++ r) v) (hw : Trivia r w) :
    Trivia r (v ++ w) := by
  induction hv with
  | nil => exact hw
  | cons hu _ ih =>
    rw [List.append_assoc]
    exact .cons (by rwa [List.append_assoc]) ih

/-- Where no comment is cut in two, blank text leaves a gap a gap. -/
theorem Trivia.insert {r front text back : List Char} (hfront : Trivia (back ++ r) front)
    (hback : Trivia r back) (hr : r ≠ []) (htext : ∀ r, Trivia r text)
    (hline : text.any isLineTerminator = false) : Trivia r (front ++ text ++ back) := by
  induction hfront with
  | nil => exact (htext _).append hback
  | @cons v w hv _ ih =>
    cases w with
    | cons ch w =>
      simp only [List.append_assoc] at ih ⊢
      exact .cons (hv.congr rfl) ih
    | nil =>
      have hbehind : Skipped (text ++ back ++ r) v → Trivia r (v ++ (text ++ back)) :=
        fun hv => .cons hv ih
      rw [List.append_nil, List.append_assoc]
      cases hv with
      | blank h => exact hbehind (.blank h)
      | lineEnd h => exact hbehind (.lineEnd h)
      | blockComment hb => exact hbehind (.blockComment hb)
      | lineComment hb hend =>
        rw [← List.append_assoc]
        -- the comment goes on to the end of the text
        refine .cons (.lineComment (fun ch hch => ?_) hend) hback
        rcases List.mem_append.mp hch with hch | hch
        · exact hb ch hch
        · simpa using List.any_eq_false.mp hline ch hch
      | unclosed _ hnil =>
        have hnone : back ++ r = [] := hnil
        exact absurd (List.append_eq_nil_iff.mp hnone).2 hr

theorem splitComment_append_of_closed {body : List Char} (h : ¬['*', '/'] <:+: body)
    (r : List Char) : splitComment (body ++ '*' :: '/' :: r) = (body ++ ['*', '/'], r) := by
  induction body with
  | nil => rfl
  | cons ch body ih =>
    rw [infix_cons_cons_iff, not_or] at h
    have hopen : ∀ cs, ch = '*' → body ++ '*' :: '/' :: r ≠ '/' :: cs := by
      intro cs hch heq
      refine h.1 ⟨hch.symm, ?_⟩
      cases body with
      | nil => simp at heq
      | cons d body => simpa using (List.cons.inj heq).1
    rw [List.cons_append, splitComment]
    · rw [ih h.2]
      rfl
    · exact hopen

theorem splitComment_of_unclosed {body : List Char} (h : ¬['*', '/'] <:+: body) :
    splitComment body = (body, []) := by
  rcases splitComment_inside body with ⟨inside, hinside, -⟩ | ⟨hall, -⟩
  · exfalso
    have happend := splitComment_append body
    rw [hinside] at happend
    exact h ⟨inside, (splitComment body).2, happend⟩
  · exact hall

theorem skipOne?_single {ch : Char} (hch : ch ≠ '/')
    (h : isLineTerminator ch = true ∨ isBlank ch = true) (pos : Nat) (r : List Char) :
    skipOne? ⟨pos, ch :: r⟩ = some (isLineTerminator ch, ⟨pos + ch.utf8Size, r⟩) := by
  unfold skipOne?
  split
  · rename_i heq
    cases heq
  · rename_i heq
    exact absurd (List.cons.inj heq).1 hch
  · rename_i heq
    exact absurd (List.cons.inj heq).1 hch
  · rename_i heq
    obtain ⟨rfl, rfl⟩ := List.cons.inj heq
    cases hl : isLineTerminator ch with
    | true => simp
    | false => simp [h.resolve_left (by simp [hl])]

/-- What one step of a gap is, it moves over. -/
theorem skipOne?_of_skipped {r v : List Char} (h : Skipped r v) (pos : Nat) :
    skipOne? ⟨pos, v ++ r⟩ = some (v.any isLineTerminator, ⟨pos + byteSize v, r⟩) := by
  have hslash : isLineTerminator '/' = false ∧ isLineTerminator '*' = false := ⟨rfl, rfl⟩
  cases h with
  | @blank ch hb =>
    have hch : ch ≠ '/' := by
      intro hch
      rw [hch] at hb
      revert hb
      decide
    have hskip := skipOne?_single hch (.inr hb) pos r
    simpa using hskip
  | @lineEnd ch hl =>
    have hch : ch ≠ '/' := by
      intro hch
      rw [hch, hslash.1] at hl
      cases hl
    have hskip := skipOne?_single hch (.inl hl) pos r
    simpa using hskip
  | @lineComment body hb he =>
    have htake := Cursor.takeWhile_append (p := fun ch => !isLineTerminator ch)
      (w := '/' :: '/' :: body) (r := r) (by simpa [hslash] using hb) (by simpa using he) pos
    have hnone : (('/' :: '/' :: body).any isLineTerminator) = false := by
      simpa [hslash] using hb
    rw [hnone]
    show some (false, (Cursor.takeWhile _ _).2) = _
    rw [htake]
  | @blockComment body hb =>
    have hsplit := splitComment_append_of_closed hb r
    have hdrop := Cursor.drop_append pos ('/' :: '*' :: body ++ ['*', '/']) r
    simp only [List.append_assoc, List.cons_append, List.nil_append] at hdrop ⊢
    show some ((splitComment (body ++ '*' :: '/' :: r)).1.any isLineTerminator,
      Cursor.drop _ ((splitComment (body ++ '*' :: '/' :: r)).1.length + 2)) = _
    rw [hsplit]
    simp only [List.length_cons, List.length_append, List.length_nil] at hdrop ⊢
    rw [hdrop]
    simp [hslash]
  | @unclosed body hb he =>
    subst he
    have hsplit := splitComment_of_unclosed hb
    have hdrop := Cursor.drop_append pos ('/' :: '*' :: body) []
    simp only [List.append_nil] at hdrop ⊢
    show some ((splitComment body).1.any isLineTerminator,
      Cursor.drop _ ((splitComment body).1.length + 2)) = _
    rw [hsplit]
    simp only [List.length_cons] at hdrop ⊢
    rw [hdrop]
    simp [hslash]

/-- A gap is skipped wherever it stands. -/
theorem skipTrivia_of_trivia {r w : List Char} (h : Trivia r w) :
    ∀ pos, skipOne? ⟨pos + byteSize w, r⟩ = none →
      skipTrivia ⟨pos, w ++ r⟩ = (w.any isLineTerminator, ⟨pos + byteSize w, r⟩) := by
  induction h with
  | nil =>
    intro pos hstop
    exact skipTrivia_of_none hstop
  | @cons v w hv _ ih =>
    intro pos hstop
    rw [byteSize_append, ← Nat.add_assoc] at hstop ⊢
    have hone := skipOne?_of_skipped hv pos
    have hrest := ih (pos + byteSize v) hstop
    rw [List.append_assoc, skipTrivia]
    split
    · rw [hone] at *
      contradiction
    · rename_i newline c' hskip
      rw [hone] at hskip
      obtain ⟨rfl, rfl⟩ := Prod.mk.inj (Option.some.inj hskip)
      rw [hrest, List.any_append]

/-! ### Tokens -/

/-- Behind a `?` that is no part of `?.`, a point starts a number. -/
theorem tokenHere_question {c c' : Cursor} (h : tokenHere c = (.punctuator .question, c'))
    {s : List Char} (hs : c'.rest = '.' :: s) : s.head?.any Char.isDigit = true := by
  obtain ⟨cs, hcs⟩ := tokenHere_punctuator h
  obtain ⟨first, ds, hc, hby⟩ := tokenHere_by h (by simp)
  cases hby with
  | punctuator hlongest =>
    have hrest : c.rest = '?' :: '.' :: s := by
      rw [Cursor.drop, hcs] at hs
      rw [hcs]
      exact congrArg ('?' :: ·) hs
    rw [Punctuator.longest?, List.find?_eq_some_iff_append] at hlongest
    obtain ⟨-, as, bs, hsplit, has⟩ := hlongest
    -- `?.` stands in front of `?` among the punctuators, and it was not taken
    have hmem : Punctuator.questionDot ∈ as := by
      have hmem := Punctuator.questionDot.mem_longestFirst
      have hpair := Punctuator.longestFirst_pairwise
      rw [hsplit, List.pairwise_append, List.pairwise_cons] at hpair
      rw [hsplit, List.mem_append, List.mem_cons] at hmem
      rcases hmem with hmem | hmem | hmem
      · exact hmem
      · cases hmem
      · exact absurd (hpair.2.1.1 _ hmem) (by decide)
    have hnot := has _ hmem
    rw [hrest] at hnot
    cases hd : s.head?.any Char.isDigit with
    | true => rfl
    | false =>
      have hstarts : Punctuator.questionDot.startsAt ('?' :: '.' :: s) = true :=
        Punctuator.startsAt_iff.mpr ⟨⟨s, rfl⟩, fun _ => hd⟩
      rw [hstarts] at hnot
      cases hnot

/-- A number that starts with a point takes the digit behind it. -/
theorem tokenHere_pointed (pos : Nat) {d : Char} (s : List Char) (hd : d.isDigit = true) :
    ∃ w, Cursor.Moves ⟨pos, '.' :: d :: s⟩ ('.' :: d :: w) (tokenHere ⟨pos, '.' :: d :: s⟩).2 := by
  have htoken : tokenHere ⟨pos, '.' :: d :: s⟩ = number '.' ⟨pos + '.'.utf8Size, d :: s⟩ := by
    simp [tokenHere, tokenAt, Cursor.peek, hd]
  obtain ⟨w, hm, -⟩ := rereads_number '.' ⟨pos + '.'.utf8Size, d :: s⟩
  obtain ⟨w', rfl⟩ := number_moves_head (c := ⟨pos + '.'.utf8Size, d :: s⟩) rfl hd rfl hm
  rw [htoken]
  exact ⟨w', (Cursor.moves_advance (c := ⟨pos, '.' :: d :: s⟩) rfl).trans hm⟩

/-! ### Readings that the grammar asks for -/

theorem regExpBody_stops {c c' : Cursor} {pattern flags : String}
    (h : regExpBody c = (.regExp pattern flags, c')) :
    ∀ ch, c'.rest.head? = some ch → isIdContinue ch = false := by
  intro ch hch
  unfold regExpBody at h
  dsimp only at h
  split at h
  · obtain ⟨-, rfl⟩ := Prod.mk.inj h
    exact takeWhile_stops hch
  · simp at h

theorem regExpBody_gives (c : Cursor) :
    (∃ pattern flags, (regExpBody c).1 = .regExp pattern flags) ∨
      ∃ cause, (regExpBody c).1 = .invalid cause := by
  unfold regExpBody
  dsimp only
  split
  · exact .inl ⟨_, _, rfl⟩
  · exact .inr ⟨_, rfl⟩

/-- A regular expression is read again. -/
theorem rereads_regExpBody {c : Cursor} (h : ∀ cause, (regExpBody c).1 ≠ .invalid cause) :
    Rereads regExpBody c := by
  rcases regExpBody_gives c with ⟨pattern, flags, hk⟩ | ⟨cause, hk⟩
  · have hread : regExpBody c = (.regExp pattern flags, (regExpBody c).2) := Prod.ext hk rfl
    obtain ⟨hp, hf, hm⟩ := regExpBody_takes hread
    rw [Rereads, hk]
    exact ⟨_, hm, fun r hr =>
      takes_regExpBody hp hf (hr.fails isIdContinue_space (regExpBody_stops hread))⟩
  · exact absurd hk (h cause)

/-- So is a chunk of a template. -/
theorem rereads_templateChunk {c : Cursor} (h : ∀ cause, (templateChunk c).1 ≠ .invalid cause) :
    Rereads templateChunk c := by
  rcases templateChunk_gives c with ⟨chunk, closes, hk⟩ | ⟨cause, hk⟩
  · have hread : templateChunk c = (.template chunk closes, (templateChunk c).2) := Prod.ext hk rfl
    obtain ⟨hm, htake⟩ := templateChunk_takes hread
    rw [Rereads, hk]
    exact ⟨_, hm, fun r _ => htake r⟩
  · exact absurd hk (h cause)

end EsModule.Syntax
