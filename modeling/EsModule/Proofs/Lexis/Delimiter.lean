import EsModule.Proofs.Lexis.Literal

/-!
# Delimiters inside of literals

A character is escaped if an odd number of backslashes stands in front of it (`Escaped`), and it is
in a character class if an opening bracket stands in front of it that no bracket closes
(`InClass`). These are said of the text alone, without a reader. What is read as the body of a
regular expression has a slash only where it is escaped or in a class, and it has no line ends;
what is read as a chunk of a template has the marks that could end it only where they are escaped.
-/

namespace EsModule.Syntax

open EsModule.Text EsModule.Number

/-! ## Escaped places -/

/-- Whether what stands behind a text is escaped: the text ends in an odd number of backslashes. -/
def Escaped (u : List Char) : Prop := (u.reverse.takeWhile (· == '\\')).length % 2 = 1

instance (u : List Char) : Decidable (Escaped u) :=
  inferInstanceAs (Decidable ((u.reverse.takeWhile (· == '\\')).length % 2 = 1))

theorem not_escaped_nil : ¬ Escaped [] := nofun

theorem escaped_backslash {u : List Char} : Escaped (u ++ ['\\']) ↔ ¬ Escaped u := by
  unfold Escaped
  rw [List.reverse_append, List.reverse_singleton, List.singleton_append,
    List.takeWhile_cons_of_pos rfl, List.length_cons]
  omega

theorem not_escaped_append {u : List Char} {ch : Char} (h : ch ≠ '\\') : ¬ Escaped (u ++ [ch]) := by
  unfold Escaped
  rw [List.reverse_append, List.reverse_singleton, List.singleton_append,
    List.takeWhile_cons_of_neg (by simpa using h)]
  nofun

/-- Behind an escape nothing is escaped. -/
theorem not_escaped_escape {u : List Char} {e : Char} (h : ¬ Escaped u) :
    ¬ Escaped (u ++ ['\\', e]) := by
  rw [List.append_cons u]
  by_cases he : e = '\\'
  · rw [he, escaped_backslash, Decidable.not_not]
    exact escaped_backslash.mpr h
  · exact not_escaped_append he

/-! ## Character classes -/

/-- Whether what stands behind a text is in a character class: a bracket that is not escaped opens
one, and each bracket behind it that could close it is escaped. -/
def InClass (u : List Char) : Prop :=
  ∃ a b, u = a ++ '[' :: b ∧ ¬ Escaped a ∧
    ∀ b₁ b₂, b = b₁ ++ ']' :: b₂ → Escaped (a ++ '[' :: b₁)

theorem inClass_open {u : List Char} (h : ¬ Escaped u) : InClass (u ++ ['[']) :=
  ⟨u, [], rfl, h, fun b₁ _ hb => by cases b₁ <;> cases hb⟩

/-- A class goes on behind each character that does not close it. -/
theorem InClass.append {u : List Char} {ch : Char} (h : InClass u) (hch : ch = ']' → Escaped u) :
    InClass (u ++ [ch]) := by
  obtain ⟨a, b, rfl, ha, hb⟩ := h
  refine ⟨a, b ++ [ch], by simp, ha, fun b₁ b₂ heq => ?_⟩
  rcases b₂.eq_nil_or_concat with rfl | ⟨b₂, last, rfl⟩
  · obtain ⟨rfl, hlast⟩ := List.append_inj' heq rfl
    exact hch (List.cons.inj hlast).1
  · rw [List.concat_eq_append, ← List.cons_append, ← List.append_assoc] at heq
    exact hb b₁ b₂ (List.append_inj' heq rfl).1

/-- An escape does not close a class. -/
theorem InClass.escape {u : List Char} (h : InClass u) (hu : ¬ Escaped u) (e : Char) :
    InClass (u ++ ['\\', e]) := by
  have hopen : InClass (u ++ ['\\']) := h.append nofun
  have hin : InClass (u ++ ['\\'] ++ [e]) := hopen.append fun _ => escaped_backslash.mpr hu
  rwa [List.append_assoc] at hin

/-! ## Regular expressions -/

/-- A slash in the body of a regular expression is escaped or in a class. -/
theorem slash_of_splitRegExp {inClass : Bool} {cs body rest : List Char}
    (h : splitRegExp inClass cs = (body, true, rest)) {p : List Char} (hp : ¬ Escaped p)
    (hclass : inClass = true → InClass p) {u v : List Char} (hslash : body = u ++ '/' :: v) :
    Escaped (p ++ u) ∨ InClass (p ++ u) := by
  fun_induction splitRegExp inClass cs generalizing body rest p u with
  | case1 => cases h
  | case2 => cases h
  | case4 => cases h
  | case3 inClass ch cs hl body' closed rest' hs ih =>
    obtain ⟨rfl, rfl, rfl⟩ : '\\' :: ch :: body' = body ∧ closed = true ∧ rest' = rest := by
      simpa using h
    cases u with
    | nil => cases hslash
    | cons _ u =>
    obtain ⟨rfl, htail⟩ := List.cons.inj hslash
    cases u with
    | nil => exact .inl (escaped_backslash.mpr hp)
    | cons _ u =>
    obtain ⟨rfl, hrest⟩ := List.cons.inj htail
    have hbehind : ¬ Escaped (p ++ ['\\', ch]) := not_escaped_escape hp
    have hread := ih hs hbehind (fun hc => (hclass hc).escape hp ch) hrest
    rwa [List.append_assoc] at hread
  | case5 inClass ch cs hne hl hend =>
    obtain ⟨rfl, -⟩ : [] = body ∧ true = true ∧ ch :: cs = rest := by simpa using h
    cases u <;> cases hslash
  | case6 inClass ch cs hne hl hend body' closed rest' hs ih =>
    obtain ⟨rfl, rfl, rfl⟩ : ch :: body' = body ∧ closed = true ∧ rest' = rest := by
      simpa using h
    have hb : ch ≠ '\\' := by
      rintro rfl
      cases cs with
      | nil => simp [splitRegExp] at hs
      | cons d cs => exact hne d cs rfl rfl
    cases u with
    | nil =>
      -- the slash does not end the body, so a class is open
      obtain ⟨rfl, -⟩ := List.cons.inj hslash
      rw [List.append_nil]
      exact .inr (hclass (by simpa using hend))
    | cons _ u =>
      obtain ⟨rfl, htail⟩ := List.cons.inj hslash
      have hclass' : (decide (ch = '[') || (inClass && decide (ch ≠ ']'))) = true →
          InClass (p ++ [ch]) := fun hc => by
        simp only [Bool.or_eq_true, Bool.and_eq_true, decide_eq_true_eq] at hc
        rcases hc with rfl | ⟨hc, hclose⟩
        · exact inClass_open hp
        · exact (hclass hc).append fun heq => absurd heq hclose
      have hread := ih hs (not_escaped_append hb) hclass' htail
      rwa [List.append_assoc] at hread

/-- No line ends in the body of a regular expression. -/
theorem noLineEnd_of_splitRegExp {inClass : Bool} {cs body rest : List Char}
    (h : splitRegExp inClass cs = (body, true, rest)) :
    ∀ ch ∈ body, isLineTerminator ch = false := by
  fun_induction splitRegExp inClass cs generalizing body rest with
  | case1 => cases h
  | case2 => cases h
  | case4 => cases h
  | case3 inClass ch cs hl body' closed rest' hs ih =>
    obtain ⟨rfl, rfl, rfl⟩ : '\\' :: ch :: body' = body ∧ closed = true ∧ rest' = rest := by
      simpa using h
    exact List.forall_mem_cons.mpr ⟨by decide, List.forall_mem_cons.mpr ⟨by simpa using hl, ih hs⟩⟩
  | case5 inClass ch cs hne hl hend =>
    obtain ⟨rfl, -⟩ : [] = body ∧ true = true ∧ ch :: cs = rest := by simpa using h
    exact List.forall_mem_nil _
  | case6 inClass ch cs hne hl hend body' closed rest' hs ih =>
    obtain ⟨rfl, rfl, rfl⟩ : ch :: body' = body ∧ closed = true ∧ rest' = rest := by
      simpa using h
    exact List.forall_mem_cons.mpr ⟨by simpa using hl, ih hs⟩

/-! ## Templates -/

/-- Whether a text starts with a mark that ends a chunk of a template. -/
def StartsEnd (cs : List Char) : Prop := ∃ v, cs = '`' :: v ∨ cs = '$' :: '{' :: v

/-- Whether a character neither ends a chunk nor escapes anything. -/
def IsInert (ch : Char) : Prop := ch ≠ '`' ∧ ch ≠ '$' ∧ ch ≠ '\\'

theorem isInert_of_isDigitOf {ch : Char} (h : isDigitOf 16 ch = true) : IsInert ch := by
  refine ⟨?_, ?_, ?_⟩ <;> rintro rfl <;> exact absurd h (by decide)

theorem isInert_takeWhile (c : Cursor) : ∀ ch ∈ (c.takeWhile (isDigitOf 16)).1, IsInert ch :=
  fun _ hch => isInert_of_isDigitOf (List.all_eq_true.mp List.all_takeWhile _ hch)

theorem hexDigits_inert {count : Nat} {c c' : Cursor} {code : Option Nat}
    (h : hexDigits count c = (code, c')) : ∃ w, c.Moves w c' ∧ ∀ ch ∈ w, IsInert ch := by
  unfold hexDigits at h
  obtain ⟨-, rfl⟩ := Prod.mk.inj h
  have hmoves := c.moves_drop ((c.rest.take count).takeWhile (isDigitOf 16)).length
  refine ⟨_, hmoves, fun ch hch => isInert_of_isDigitOf ?_⟩
  have hprefix := (List.takeWhile_prefix (isDigitOf 16) (l := c.rest.take count)).trans
    (List.take_prefix count c.rest)
  rw [← List.prefix_iff_eq_take.mp hprefix] at hch
  exact List.all_eq_true.mp List.all_takeWhile _ hch

theorem codePoint_inert {c c' : Cursor} {o : Except LexError Char} (h : codePoint c = (o, c')) :
    ∃ w, c.Moves w c' ∧ ∀ ch ∈ w, IsInert ch := by
  unfold codePoint at h
  split at h
  · rename_i hb
    obtain ⟨cs, hcs⟩ : ∃ cs, c.rest = '{' :: cs := by
      simpa [Cursor.sees, List.head?_eq_some_iff] using hb
    have hm := (Cursor.moves_advance hcs).trans (c.advance.moves_takeWhile (isDigitOf 16))
    have hw := List.forall_mem_cons.mpr
      ⟨(by simp [IsInert] : IsInert '{'), isInert_takeWhile c.advance⟩
    dsimp only at h
    split at h
    · rename_i hclose
      obtain ⟨-, rfl⟩ := Prod.mk.inj h
      rw [Bool.and_eq_true] at hclose
      obtain ⟨cs', hcs'⟩ : ∃ cs, (c.advance.takeWhile (isDigitOf 16)).2.rest = '}' :: cs := by
        have hsees := hclose.1
        unfold Cursor.sees at hsees
        exact List.head?_eq_some_iff.mp (beq_iff_eq.mp hsees)
      refine ⟨_, hm.trans (Cursor.moves_advance hcs'), List.forall_mem_append.mpr ⟨hw, ?_⟩⟩
      exact List.forall_mem_singleton.mpr (by simp [IsInert])
    · obtain ⟨-, rfl⟩ := Prod.mk.inj h
      exact ⟨_, hm, hw⟩
  · split at h
    all_goals
      rename_i hread
      obtain ⟨-, rfl⟩ := Prod.mk.inj h
      exact hexDigits_inert hread

/-- What an escape takes behind its first character does no harm. -/
theorem escape_inert {c c' : Cursor} {o : Except LexError (Option Char)} {e : Char} {cs : List Char}
    (hc : c.rest = e :: cs) (h : escape c = (o, c')) :
    ∃ w, c.Moves (e :: w) c' ∧ ∀ ch ∈ w, IsInert ch := by
  have hm := Cursor.moves_advance hc
  have hbehind : (∃ w, c.advance.Moves w c' ∧ ∀ ch ∈ w, IsInert ch) →
      ∃ w, c.Moves (e :: w) c' ∧ ∀ ch ∈ w, IsInert ch := fun ⟨w, hw, hinert⟩ =>
    ⟨w, hm.trans hw, hinert⟩
  refine hbehind ?_
  have hnone : ∃ w, c.advance.Moves w c.advance ∧ ∀ ch ∈ w, IsInert ch := ⟨[], .refl _, nofun⟩
  simp only [escape, hc] at h
  split at h
  · obtain ⟨-, rfl⟩ := Prod.mk.inj h
    exact hnone
  split at h
  · split at h
    all_goals
      rename_i hread
      obtain ⟨-, rfl⟩ := Prod.mk.inj h
      exact hexDigits_inert hread
  split at h
  · split at h
    all_goals
      rename_i hread
      obtain ⟨-, rfl⟩ := Prod.mk.inj h
      exact codePoint_inert hread
  split at h
  · obtain ⟨-, rfl⟩ := Prod.mk.inj h
    split
    · rename_i hn
      obtain ⟨cs', hcs'⟩ : ∃ cs', c.advance.rest = '\n' :: cs' := by
        simpa [Cursor.sees, List.head?_eq_some_iff] using hn
      exact ⟨_, Cursor.moves_advance hcs', List.forall_mem_singleton.mpr (by simp [IsInert])⟩
    · exact hnone
  split at h
  all_goals
    obtain ⟨-, rfl⟩ := Prod.mk.inj h
    exact hnone

/-- The marks in a text that could end a chunk are escaped, if nothing in front of it escapes its
first character. -/
def EndsEscaped (w : List Char) : Prop :=
  ∀ p u v, ¬ Escaped p → w = u ++ v → StartsEnd v → Escaped (p ++ u)

theorem endsEscaped_nil : EndsEscaped [] := by
  rintro p u v - heq ⟨v, rfl | rfl⟩ <;> simp at heq

theorem EndsEscaped.cons {w : List Char} {ch : Char} (h : EndsEscaped w) (hb : ch ≠ '\\')
    (hch : ¬ StartsEnd (ch :: w)) : EndsEscaped (ch :: w) := by
  intro p u v hp heq hv
  cases u with
  | nil =>
    obtain rfl : ch :: w = v := heq
    exact absurd hv hch
  | cons _ u =>
    obtain ⟨rfl, hrest⟩ := List.cons.inj heq
    have hbehind := h _ u v (not_escaped_append (u := p) hb) hrest hv
    rwa [List.append_assoc] at hbehind

theorem EndsEscaped.inert {w x : List Char} (h : EndsEscaped w) (hx : ∀ ch ∈ x, IsInert ch) :
    EndsEscaped (x ++ w) := by
  induction x with
  | nil => exact h
  | cons ch x ih =>
    obtain ⟨⟨hquote, hdollar, hb⟩, hx⟩ := List.forall_mem_cons.mp hx
    refine (ih hx).cons hb ?_
    rintro ⟨v, heq | heq⟩
    · exact hquote (List.cons.inj heq).1
    · exact hdollar (List.cons.inj heq).1

/-- An escape hides its first character, and it does not hide what stands behind it. -/
theorem EndsEscaped.escape {w x : List Char} {e : Char} (h : EndsEscaped w)
    (hx : ∀ ch ∈ x, IsInert ch) : EndsEscaped ('\\' :: e :: x ++ w) := by
  intro p u v hp heq hv
  cases u with
  | nil =>
    obtain ⟨v, rfl | rfl⟩ := hv <;> cases heq
  | cons _ u =>
  obtain ⟨rfl, htail⟩ := List.cons.inj heq
  cases u with
  | nil => exact escaped_backslash.mpr hp
  | cons _ u =>
  obtain ⟨rfl, hrest⟩ := List.cons.inj htail
  have hbehind := h.inert hx _ u v (not_escaped_escape (e := e) hp) hrest hv
  rwa [List.append_assoc] at hbehind

theorem ne_nil_of_templateBody {acc : Option (List Char)} {c c' : Cursor}
    {o : Option (List Char) × Cursor} (h : templateBody acc c = (some o, c')) : c.rest ≠ [] := by
  intro hr
  unfold templateBody at h
  split at h <;> simp_all

/-- The marks that could end a chunk stand in it only where they are escaped. -/
theorem endsEscaped_of_templateBody {acc : Option (List Char)} {c c' : Cursor}
    {o : Option (List Char) × Cursor} (h : templateBody acc c = (some o, c')) :
    ∃ w, c.Moves w o.2 ∧ EndsEscaped w := by
  fun_induction templateBody acc c with
  | case1 => cases h
  | case2 acc c cs hr | case3 acc c cs hr =>
    obtain ⟨ho, -⟩ := Prod.mk.inj h
    obtain rfl := Option.some.inj ho
    exact ⟨[], .refl _, endsEscaped_nil⟩
  | case4 acc c cs e next he _ _ hr ih | case5 acc c cs next he _ _ hr ih
  | case6 acc c cs cause next he _ _ hr ih =>
    obtain ⟨w, hm, hw⟩ := ih h
    cases hcs : c.advance.rest with
    | nil =>
      -- a backslash at the end of the text escapes nothing, so no mark ends this chunk
      obtain rfl : c.advance = next := by simpa [escape, hcs] using congrArg Prod.snd he
      exact absurd hcs (ne_nil_of_templateBody h)
    | cons first _ =>
    obtain ⟨x, hx, hinert⟩ := escape_inert hcs he
    exact ⟨_, ((Cursor.moves_advance hr).trans hx).trans hm, hw.escape hinert⟩
  | case7 acc c ch cs hq hdollar hr hb ih =>
    obtain ⟨w, hm, hw⟩ := ih h
    have hmoves := (Cursor.moves_advance hr).trans hm
    refine ⟨ch :: w, hmoves, hw.cons hb ?_⟩
    rintro ⟨v, heq | heq⟩
    · exact hq (List.cons.inj heq).1
    · obtain ⟨hch, rfl⟩ := List.cons.inj heq
      have hrest := hmoves.rest
      rw [hr] at hrest
      exact hdollar _ hch (List.cons.inj hrest).2

/-- The raw text of a chunk does not end early. -/
theorem endsEscaped_of_templateChunk {c c' : Cursor} {chunk : Chunk} {closes : Bool}
    (h : templateChunk c = (.template chunk closes, c')) : EndsEscaped chunk.raw.toList := by
  unfold templateChunk at h
  split at h
  · rename_i cooked stop next ho
    obtain ⟨w, hm, hw⟩ := endsEscaped_of_templateBody ho
    have hraw : c.textTo stop.pos = w := hm.textTo
    obtain ⟨hchunk, -⟩ := TokenKind.template.inj (Prod.mk.inj h).1
    rw [← hchunk, String.toList_ofList, hraw]
    exact hw
  · cases (Prod.mk.inj h).1

end EsModule.Syntax
