import EsModule.Proofs.Lexis.Token

/-!
# A token is read from its own text

What a token is depends on the text that it takes and on little behind it. This holds of every
token, the invalid ones too: in front of another text that starts in the same way, or with a space,
or has ended, the same text is read as the same token (`tokenHere_again`). Only an invalid token that
reaches to the end of its text asks for the end again, and only `?.` looks past the next character.

Readers that look at the next character only are put together from smaller ones by
`Rereads.andThen`.
-/

namespace EsModule.Syntax

open EsModule.Text EsModule.Number

/-- The text `r'` starts like `r`, or with a space, or has ended. -/
def Near (r r' : List Char) : Prop := ∀ ch, r'.head? = some ch → r.head? = some ch ∨ ch = ' '

theorem Near.of_head {r r' : List Char} (h : r'.head? = r.head?) : Near r r' :=
  fun _ hch => .inl (h ▸ hch)

theorem Near.refl (r : List Char) : Near r r := .of_head rfl

theorem Near.append {r r' : List Char} (h : Near r r') (w : List Char) : Near (w ++ r) (w ++ r') := by
  cases w with
  | nil => exact h
  | cons ch w => exact .of_head rfl

/-- What fails at the next character, and at a space, fails in front of a text that is near. -/
theorem Near.fails {p : Char → Bool} {r r' : List Char} (h : Near r r') (hp : p ' ' = false)
    (hr : ∀ ch, r.head? = some ch → p ch = false) : ∀ ch, r'.head? = some ch → p ch = false := by
  intro ch hch
  rcases h ch hch with h | rfl
  · exact hr ch h
  · exact hp

/-- A character in front of `r'` that is no space stands in front of `r`, too. -/
theorem Near.head {r r' : List Char} (h : Near r r') {ch : Char} (hch : ch ≠ ' ')
    (hr : r'.head? = some ch) : r.head? = some ch :=
  (h ch hr).resolve_right hch

theorem Near.sees {r r' : List Char} (h : Near r r') {ch : Char} (hch : ch ≠ ' ') {pos pos' : Nat}
    (hr : Cursor.sees ⟨pos, r⟩ ch = false) : Cursor.sees ⟨pos', r'⟩ ch = false := by
  rw [← Bool.not_eq_true, Cursor.sees, beq_iff_eq] at hr ⊢
  exact fun hhead => hr (h.head hch hhead)

/-- What `f` reads at a place is read again in front of any text that is near what is left. -/
def Rereads {α : Type} (f : Cursor → α × Cursor) (c : Cursor) : Prop :=
  ∃ w, c.Moves w (f c).2 ∧ ∀ r, Near (f c).2.rest r → Takes f w (f c).1 r

theorem Rereads.andThen {α β : Type} {f : Cursor → α × Cursor} {g : α → Cursor → β × Cursor}
    {c : Cursor} (hf : Rereads f c) (hg : Rereads (g (f c).1) (f c).2) :
    Rereads (fun c => g (f c).1 (f c).2) c := by
  obtain ⟨w, hm, hw⟩ := hf
  obtain ⟨v, hm', hv⟩ := hg
  refine ⟨w ++ v, hm.trans hm', ?_⟩
  intro r hr pos
  have hnear : Near (f c).2.rest (v ++ r) := hm'.rest ▸ hr.append v
  have hread := hw (v ++ r) hnear pos
  have hbehind := hv r hr (pos + byteSize w)
  simp only [List.append_assoc, hread, hbehind, byteSize_append, Nat.add_assoc]

theorem Rereads.const {α : Type} (a : α) (c : Cursor) : Rereads (fun c => (a, c)) c :=
  ⟨[], .refl c, fun _ _ _ => rfl⟩

/-- A reader that goes over some text and then goes on like another one. -/
theorem Rereads.behind {α : Type} {f g : Cursor → α × Cursor} {c c' : Cursor} {w : List Char}
    (hm : c.Moves w c') (hg : Rereads g c')
    (hf : ∀ pos r, Near c'.rest r → f ⟨pos, w ++ r⟩ = g ⟨pos + byteSize w, r⟩) : Rereads f c := by
  obtain ⟨v, hm', hv⟩ := hg
  have hfc : f c = g c' := by
    have h := hf c.pos c'.rest (.refl _)
    rwa [← hm.rest, ← hm.pos] at h
  rw [Rereads, hfc]
  refine ⟨w ++ v, hm.trans hm', ?_⟩
  intro r hr pos
  have hnear : Near c'.rest (v ++ r) := hm'.rest ▸ hr.append v
  have hread := hv r hr (pos + byteSize w)
  simp only [List.append_assoc, hf pos _ hnear, hread, byteSize_append, Nat.add_assoc]

theorem rereads_takeWhile {p : Char → Bool} (hp : p ' ' = false) (c : Cursor) :
    Rereads (·.takeWhile p) c := by
  refine ⟨(c.takeWhile p).1, c.moves_takeWhile p, ?_⟩
  intro r hr
  exact takeWhile_takes p c r (hr.fails hp fun ch hch => takeWhile_stops hch)

/-! ### Numbers -/

theorem rereads_fractionPart (c : Cursor) : Rereads fractionPart c := by
  cases hs : c.sees '.' with
  | true =>
    obtain ⟨cs, hcs⟩ : ∃ cs, c.rest = '.' :: cs := by
      simpa [Cursor.sees, List.head?_eq_some_iff] using hs
    have hrest := (rereads_takeWhile (p := isNumeral) rfl c.advance).andThen
      (g := fun digits c => ('.' :: digits, c)) (.const _ _)
    exact hrest.behind (Cursor.moves_advance hcs) fun pos r _ => by simp [fractionPart]
  | false =>
    refine (Rereads.const [] c).behind (.refl c) ?_
    intro pos r hr
    simp [fractionPart, hr.sees (by decide) hs]

theorem exponentPart_of_head {pos : Nat} {r : List Char}
    (h : r.head? ≠ some 'e' ∧ r.head? ≠ some 'E') : exponentPart ⟨pos, r⟩ = ([], ⟨pos, r⟩) := by
  unfold exponentPart
  split <;> simp_all

theorem exponentPart_sign {e sign : Char} (he : e = 'e' ∨ e = 'E') (hs : sign = '+' ∨ sign = '-')
    (pos : Nat) (r : List Char) :
    exponentPart ⟨pos, e :: sign :: r⟩ =
      ([e, sign] ++ (Cursor.takeWhile ⟨pos + byteSize [e, sign], r⟩ isNumeral).1,
        (Cursor.takeWhile ⟨pos + byteSize [e, sign], r⟩ isNumeral).2) := by
  rcases hs with rfl | rfl <;> simp [exponentPart, he, Cursor.drop]

theorem exponentPart_plain {e : Char} (he : e = 'e' ∨ e = 'E') (pos : Nat) {r : List Char}
    (hr : r.head? ≠ some '+' ∧ r.head? ≠ some '-') :
    exponentPart ⟨pos, e :: r⟩ =
      (e :: (Cursor.takeWhile ⟨pos + e.utf8Size, r⟩ isNumeral).1,
        (Cursor.takeWhile ⟨pos + e.utf8Size, r⟩ isNumeral).2) := by
  unfold exponentPart
  split
  case h_3 =>
    rename_i heq
    obtain ⟨rfl, rfl⟩ := List.cons.inj heq
    simp [he]
  all_goals simp_all

theorem rereads_exponentPart (c : Cursor) : Rereads exponentPart c := by
  have hdigits : ∀ (pre : List Char) c, Rereads
      (fun c => (pre ++ (c.takeWhile isNumeral).1, (c.takeWhile isNumeral).2)) c :=
    fun pre c => (rereads_takeWhile (p := isNumeral) rfl c).andThen
      (g := fun digits c => (pre ++ digits, c)) (.const _ _)
  by_cases he : c.rest.head? = some 'e' ∨ c.rest.head? = some 'E'
  -- the letter alone is an exponent already; a sign belongs to it if it is next
  · obtain ⟨e, cs, hc, he⟩ : ∃ e cs, c.rest = e :: cs ∧ (e = 'e' ∨ e = 'E') := by
      cases hc : c.rest with
      | nil => simp [hc] at he
      | cons e cs => exact ⟨e, cs, rfl, by simpa [hc] using he⟩
    have hm := Cursor.moves_advance hc
    have hcs : c.advance.rest = cs := by simp [Cursor.advance, hc]
    by_cases hs : cs.head? = some '+' ∨ cs.head? = some '-'
    · obtain ⟨sign, ds, rfl, hsign⟩ : ∃ sign ds, cs = sign :: ds ∧ (sign = '+' ∨ sign = '-') := by
        cases cs with
        | nil => simp at hs
        | cons sign ds => exact ⟨sign, ds, rfl, by simpa using hs⟩
      exact (hdigits [e, sign] _).behind (hm.trans (Cursor.moves_advance hcs))
        fun pos r _ => exponentPart_sign he hsign pos r
    · refine (hdigits [e] _).behind hm ?_
      intro pos r hr
      have hsign : r.head? ≠ some '+' ∧ r.head? ≠ some '-' := by
        rw [hcs] at hr
        exact not_or.mp fun h => hs (h.imp (hr.head (by decide)) (hr.head (by decide)))
      exact exponentPart_plain he pos hsign
  · refine (Rereads.const [] c).behind (.refl c) ?_
    intro pos r hr
    refine exponentPart_of_head ?_
    exact not_or.mp fun h => he (h.imp (hr.head (by decide)) (hr.head (by decide)))

/-- The mark of a large integer is read with the number if it is there. -/
theorem rereads_suffix {α : Type} {f : Cursor → α × Cursor} {a b : α}
    (hn : ∀ pos r, f ⟨pos, 'n' :: r⟩ = (b, ⟨pos + 'n'.utf8Size, r⟩))
    (hplain : ∀ c : Cursor, c.sees 'n' = false → f c = (a, c)) (c : Cursor) : Rereads f c := by
  cases hs : c.sees 'n' with
  | true =>
    obtain ⟨cs, hcs⟩ : ∃ cs, c.rest = 'n' :: cs := by
      simpa [Cursor.sees, List.head?_eq_some_iff] using hs
    exact (Rereads.const b _).behind (Cursor.moves_advance hcs) fun pos r _ => hn pos r
  | false =>
    exact (Rereads.const a c).behind (.refl c)
      fun pos r hr => hplain _ (hr.sees (by decide) hs)

theorem rereads_decimalToken (digits : List Char) (c : Cursor) :
    Rereads (decimalToken digits) c := by
  refine rereads_suffix (a := (decimalToken digits ⟨0, []⟩).1) (fun pos r => rfl) ?_ c
  intro c hc
  rw [decimalToken, decimalToken, if_neg (by simp [hc]), if_neg (by simp [Cursor.sees])]
  cases Decimal.read? digits <;> rfl

theorem rereads_decimalNumber (first : Char) (c : Cursor) : Rereads (decimalNumber first) c := by
  have hfraction : ∀ c, Rereads (fun c => if first = '.' then ([], c) else fractionPart c) c := by
    intro c
    split
    · exact .const _ _
    · exact rereads_fractionPart c
  exact (rereads_takeWhile (p := isNumeral) rfl c).andThen
    (g := fun numerals c =>
      let fraction := if first = '.' then ([], c) else fractionPart c
      let exponent := exponentPart fraction.2
      decimalToken (dropUnderscores (first :: numerals ++ fraction.1 ++ exponent.1)) exponent.2) <|
    (hfraction _).andThen
      (g := fun fraction c =>
        let exponent := exponentPart c
        decimalToken (dropUnderscores (first :: _ ++ fraction ++ exponent.1)) exponent.2) <|
    (rereads_exponentPart _).andThen
      (g := fun exponent c => decimalToken (dropUnderscores (first :: _ ++ _ ++ exponent)) c) <|
    rereads_decimalToken _ _

theorem rereads_radixToken (radix : Nat) (letter : Char) (numerals : List Char) (c : Cursor) :
    Rereads (radixToken radix letter numerals) c := by
  refine rereads_suffix (a := (radixToken radix letter numerals ⟨0, []⟩).1) (fun pos r => rfl) ?_ c
  intro c hc
  simp only [radixToken, if_neg (show ¬c.sees 'n' = true by simp [hc]),
    if_neg (show ¬Cursor.sees ⟨0, []⟩ 'n' = true by simp [Cursor.sees])]
  split <;> rfl

theorem isDigitOf_space (radix : Nat) : isDigitOf radix ' ' = false := rfl

theorem rereads_radixNumber (radix : Nat) (letter : Char) (c : Cursor) :
    Rereads (radixNumber radix letter) c :=
  (rereads_takeWhile (p := isRadixNumeral radix) (by simp [isRadixNumeral, isDigitOf_space]) c).andThen
    (g := radixToken radix letter) (rereads_radixToken _ _ _ _)

/-- The radix that a number is read with, by its first character and what follows. -/
def radixBehind? (first : Char) (r : List Char) : Option (Char × Nat) :=
  r.head?.bind fun letter => (radixOf? letter).bind fun radix =>
    if first = '0' then some (letter, radix) else none

theorem number_eq (first : Char) (c : Cursor) :
    number first c = match radixBehind? first c.rest with
      | some (letter, radix) => radixNumber radix letter c.advance
      | none => decimalNumber first c := by
  unfold number radixBehind? Cursor.peek
  cases hd : c.rest.head? with
  | none => rfl
  | some letter =>
    cases hr : radixOf? letter with
    | none => simp [hr]
    | some radix =>
      by_cases hf : first = '0' <;> simp [hf, hr]

theorem rereads_number (first : Char) (c : Cursor) : Rereads (number first) c := by
  cases hb : radixBehind? first c.rest with
  | some letterRadix =>
    obtain ⟨letter, radix⟩ := letterRadix
    obtain ⟨cs, hcs⟩ : ∃ cs, c.rest = letter :: cs := by
      cases hc : c.rest with
      | nil => simp [hc, radixBehind?] at hb
      | cons d cs =>
        simp only [hc, radixBehind?, List.head?_cons, Option.bind_some, Option.bind_eq_some_iff,
          Option.ite_none_right_eq_some, Option.some.injEq, Prod.mk.injEq] at hb
        obtain ⟨_, -, -, rfl, -⟩ := hb
        exact ⟨cs, rfl⟩
    refine (rereads_radixNumber radix letter _).behind (Cursor.moves_advance hcs) ?_
    intro pos r _
    have hb' : radixBehind? first (letter :: r) = some (letter, radix) := by
      rw [hcs] at hb
      exact hb
    simp [number_eq, hb']
  | none =>
    refine (rereads_decimalNumber first c).behind (.refl c) ?_
    intro pos r hr
    -- a space is no letter of a radix, so none arises
    have hb' : radixBehind? first r = none := by
      cases hhead : r.head? with
      | none => simp [radixBehind?, hhead]
      | some ch =>
        rcases hr ch hhead with hch | rfl
        · rwa [radixBehind?, hhead, ← hch]
        · simp [radixBehind?, hhead, radixOf?]
    simp [number_eq, hb']

/-! ### Names -/

theorem isIdContinue_space : isIdContinue ' ' = false := by decide

theorem rereads_nameOrWord (first : Char) (c : Cursor) : Rereads (nameOrWord first) c := by
  refine (rereads_takeWhile isIdContinue_space c).andThen
    (g := fun behind c => (wordKind (String.ofList (first :: behind)), c)) (.const _ _) |>.behind
      (.refl c) ?_
  intro pos r _
  exact Prod.ext (nameOrWord_fst first _) (by simp only [nameOrWord]; split <;> rfl)

theorem rereads_privateNameBody (c : Cursor) : Rereads privateNameBody c := by
  refine (rereads_takeWhile isIdContinue_space c).andThen
    (g := fun name c => if name.isEmpty then (TokenKind.invalid (.unexpectedCharacter '#'), c)
      else (TokenKind.privateName (String.ofList name), c)) ?_
  split
  · exact .const _ _
  · exact .const _ _

/-! ### Strings and templates -/

/-- A malformed escape breaks a string off. -/
theorem stringBody_malformed {quote : Char} {acc cs : List Char} {c next : Cursor} {cause : LexError}
    (hc : c.rest = '\\' :: cs) (hq : quote ≠ '\\') (he : escape c.advance = (.error cause, next)) :
    stringBody quote acc c = (.invalid cause, next) := by
  rw [stringBody]
  split
  · simp_all
  · rename_i ch cs' hc'
    obtain ⟨rfl, -⟩ : ch = '\\' ∧ cs' = cs := by simpa [hc'] using hc
    rw [if_neg (Ne.symm hq), if_neg (by decide), if_pos rfl]
    split <;> simp_all

/-- Hexadecimal digits of which there are too few are read again in front of a text that is near. -/
theorem hexDigits_short {count : Nat} {c c' : Cursor} (h : hexDigits count c = (none, c')) :
    ∃ w, c.Moves w c' ∧ ∀ r, Near c'.rest r → Takes (hexDigits count) w none r := by
  obtain ⟨w, hm, hends, htake⟩ := hexDigits_reads h
  refine ⟨w, hm, fun r hr => htake r fun hlt => ?_⟩
  exact hr.fails (isDigitOf_space 16) (hends hlt)

theorem codePoint_malformed {c c' : Cursor} {cause : LexError}
    (h : codePoint c = (.error cause, c')) :
    ∃ w, c.Moves w c' ∧ ∀ r, Near c'.rest r → Takes codePoint w (.error cause) r := by
  unfold codePoint at h
  split at h
  · rename_i hb
    obtain ⟨cs, hcs⟩ : ∃ cs, c.rest = '{' :: cs := by
      simpa [Cursor.sees, List.head?_eq_some_iff] using hb
    have hm := (Cursor.moves_advance hcs).trans (c.advance.moves_takeWhile (isDigitOf 16))
    have hstop := @takeWhile_stops (isDigitOf 16) c.advance
    have htake := takeWhile_takes (isDigitOf 16) c.advance
    generalize c.advance.takeWhile (isDigitOf 16) = taken at h hm hstop htake
    obtain ⟨digits, next⟩ := taken
    dsimp only at h hm hstop htake
    split at h
    · cases h
    · rename_i hclose
      obtain ⟨rfl, rfl⟩ : _ = cause ∧ next = c' := by simpa using h
      refine ⟨_, hm, ?_⟩
      intro r hr pos
      have hdigits := htake r (hr.fails (isDigitOf_space 16) fun ch hch => hstop hch)
        (pos + '{'.utf8Size)
      have hclose' : ∀ pos, ¬(Cursor.sees ⟨pos, r⟩ '}' && !digits.isEmpty) = true := by
        intro pos hall
        rw [Bool.and_eq_true] at hall hclose
        refine hclose ⟨?_, hall.2⟩
        rw [Cursor.sees, beq_iff_eq] at hall ⊢
        exact hr.head (by decide) hall.1
      simp [codePoint, hdigits, hclose']
      omega
  · rename_i hb
    split at h
    · cases h
    · rename_i next he
      obtain ⟨rfl, rfl⟩ : _ = cause ∧ next = c' := by simpa using h
      obtain ⟨w, hm, hw⟩ := hexDigits_short he
      refine ⟨w, hm, ?_⟩
      intro r hr pos
      have hsees : ¬Cursor.sees ⟨pos, w ++ r⟩ '{' = true := by
        rw [Cursor.sees, beq_iff_eq, hm.rest] at *
        exact fun hhead => hb ((hr.append w).head (by decide) hhead)
      rw [codePoint, if_neg hsees, hw r hr pos]

/-- So is a malformed escape, unless it lacks the character behind the backslash. -/
theorem escape_malformed {c c' : Cursor} {cause : LexError} (h : escape c = (.error cause, c')) :
    ∃ w, c.Moves w c' ∧
      ∀ r, Near c'.rest r → (c'.rest = [] → r = []) → Takes escape w (.error cause) r := by
  cases hc : c.rest with
  | nil =>
    simp only [escape, hc] at h
    obtain ⟨rfl, rfl⟩ : _ = cause ∧ c = c' := by simpa using h
    refine ⟨[], .refl c, ?_⟩
    intro r _ hend pos
    obtain rfl := hend hc
    simp [escape]
  | cons e cs =>
    have hm := Cursor.moves_advance hc
    simp only [escape, hc] at h
    split at h
    · cases h
    split at h
    · rename_i hx
      subst hx
      split at h
      · cases h
      · rename_i next he
        obtain ⟨rfl, rfl⟩ : _ = cause ∧ next = c' := by simpa using h
        obtain ⟨w, hmw, hw⟩ := hexDigits_short he
        refine ⟨_, hm.trans hmw, ?_⟩
        intro r hr _ pos
        simp [escape, hw r hr (pos + 'x'.utf8Size)]
        omega
    split at h
    · rename_i hu
      subst hu
      split at h
      · cases h
      · rename_i next he
        obtain ⟨rfl, rfl⟩ : _ = cause ∧ next = c' := by simpa using h
        obtain ⟨w, hmw, hw⟩ := codePoint_malformed he
        refine ⟨_, hm.trans hmw, ?_⟩
        intro r hr _ pos
        simp [escape, hw r hr (pos + 'u'.utf8Size)]
        omega
    split at h
    · cases h
    split at h <;> cases h

/-- A string that is broken off is read again in front of a text that is near, unless it reaches to
the end of the text. -/
theorem stringBody_invalid {quote : Char} {acc : List Char} {c c' : Cursor} {cause : LexError}
    (h : stringBody quote acc c = (.invalid cause, c')) :
    ∃ w, c.Moves w c' ∧ (w = [] → c'.rest = []) ∧
      ∀ r, Near c'.rest r → (c'.rest = [] → r = []) →
        Takes (stringBody quote acc) w (.invalid cause) r := by
  fun_induction stringBody quote acc c with
  | case1 acc c hr =>
    obtain ⟨rfl, rfl⟩ : _ = cause ∧ c = c' := by simpa using h
    refine ⟨[], .refl c, fun _ => hr, ?_⟩
    intro r _ hend pos
    obtain rfl := hend hr
    simp [stringBody]
  | case2 => simp at h
  | case3 acc c ch cs hr hq hl =>
    obtain ⟨rfl, rfl⟩ : _ = cause ∧ c.advance = c' := by simpa using h
    refine ⟨_, Cursor.moves_advance hr, by simp, ?_⟩
    intro r _ _ pos
    have hl : ch = '\n' ∨ ch = '\r' := by simpa using hl
    simp [stringBody, hq, hl]
  -- an escape may look at the character behind it, which is the same one or none
  | case4 acc c cs e next he hr hq hl ih | case5 acc c cs next he hr hq hl ih =>
    obtain ⟨w2, hm2, hw2, htake⟩ := ih h
    obtain ⟨w1, hm1, hesc⟩ := escape_takes he
    refine ⟨_, ((Cursor.moves_advance hr).trans hm1).trans hm2, by simp, ?_⟩
    intro r hnear hend pos
    have hhead : (w2 ++ r).head? = (w2 ++ c'.rest).head? := by
      by_cases hnil : w2 = []
      · rw [hend (hw2 hnil), hw2 hnil]
      · exact head?_append_of_ne_nil hnil
    have hesc := hesc (w2 ++ r) (hm2.rest ▸ hhead) (pos + '\\'.utf8Size)
    rw [List.append_assoc, List.append_assoc]
    refine (stringBody_escape (c := ⟨pos, '\\' :: _⟩) rfl (Ne.symm hq) hesc).trans ?_
    exact (htake r hnear hend _).trans (by simp; omega)
  | case6 acc c cs cause' next he hr hq hl =>
    obtain ⟨rfl, rfl⟩ : cause' = cause ∧ next = c' := by simpa using h
    obtain ⟨w, hm, hesc⟩ := escape_malformed he
    refine ⟨_, (Cursor.moves_advance hr).trans hm, by simp, ?_⟩
    intro r hnear hend pos
    have hesc := hesc r hnear hend (pos + '\\'.utf8Size)
    refine (stringBody_malformed (c := ⟨pos, '\\' :: _⟩) rfl (Ne.symm hq) hesc).trans ?_
    simp
    omega
  | case7 acc c ch cs hr hq hl hb ih =>
    obtain ⟨w, hm, -, htake⟩ := ih h
    refine ⟨_, (Cursor.moves_advance hr).trans hm, by simp, ?_⟩
    intro r hnear hend pos
    rw [stringBody_plain rfl hq (by simpa using hl) hb]
    exact (htake r hnear hend _).trans (by simp; omega)

/-- A template chunk that is broken off reaches to the end of the text. -/
theorem templateBody_none {acc : Option (List Char)} {c c' : Cursor}
    (h : templateBody acc c = (none, c')) :
    c'.rest = [] ∧ ∃ w, c.Moves w c' ∧ Takes (templateBody acc) w none [] := by
  fun_induction templateBody acc c with
  | case1 acc c hr =>
    obtain rfl : c = c' := by simpa using h
    exact ⟨hr, [], .refl c, fun pos => by simp [templateBody]⟩
  | case2 | case3 => simp at h
  | case4 acc c cs e next he _ _ hr ih | case5 acc c cs next he _ _ hr ih
  | case6 acc c cs cause next he _ _ hr ih =>
    obtain ⟨hend, w2, hm2, htake⟩ := ih h
    obtain ⟨w1, hm1, hesc⟩ := escape_takes he
    refine ⟨hend, _, ((Cursor.moves_advance hr).trans hm1).trans hm2, ?_⟩
    intro pos
    have hesc := hesc (w2 ++ []) (by rw [hm2.rest, hend]) (pos + '\\'.utf8Size)
    rw [List.append_assoc, List.append_assoc]
    refine (templateBody_escape (c := ⟨pos, '\\' :: _⟩) rfl hesc).trans ?_
    exact (htake _).trans (by simp; omega)
  | case7 acc c ch cs hq hdollar hr hb ih =>
    obtain ⟨hend, w, hm, htake⟩ := ih h
    refine ⟨hend, _, (Cursor.moves_advance hr).trans hm, ?_⟩
    intro pos
    have hcs : cs = w ++ [] := by
      have hm := hm.rest
      rwa [hend, show c.advance.rest = cs by simp [Cursor.advance, hr]] at hm
    have hopen : ch = '$' → (w ++ []).head? ≠ some '{' := by
      intro hch hhead
      obtain ⟨cs', hcs'⟩ := List.head?_eq_some_iff.mp hhead
      exact hdollar cs' hch (hcs.trans hcs')
    refine (templateBody_plain (c := ⟨pos, ch :: _⟩) rfl hq hopen hb).trans ?_
    exact (htake _).trans (by simp; omega)

theorem templateChunk_invalid {c c' : Cursor} {cause : LexError}
    (h : templateChunk c = (.invalid cause, c')) :
    c'.rest = [] ∧ ∃ w, c.Moves w c' ∧ Takes templateChunk w (.invalid cause) [] := by
  unfold templateChunk at h
  split at h
  · simp at h
  · rename_i next hnone
    obtain ⟨rfl, rfl⟩ : _ = cause ∧ next = c' := by simpa using h
    obtain ⟨hend, w, hm, htake⟩ := templateBody_none hnone
    refine ⟨hend, w, hm, ?_⟩
    intro pos
    rw [templateChunk, htake pos]

/-! ### Punctuators -/

/-- Where one text goes on with `v`, another goes on with a space, or not at all, or both go on with
a closing bracket: no punctuator reaches over such a place. -/
def Breaks (v s : List Char) : Prop :=
  s = [] ∨ s.head? = some ' ' ∨ (v.head? = some ')' ∧ s.head? = some ')')

/-- The text `r'` is `r` up to a place where it breaks off, or all of it. -/
def Parts (r r' : List Char) : Prop := r' = r ∨ ∃ u v s, r = u ++ v ∧ r' = u ++ s ∧ Breaks v s

theorem Breaks.near {v s : List Char} (h : Breaks v s) : Near v s := by
  intro ch hch
  rcases h with rfl | h | ⟨hv, hs⟩
  · cases hch
  · exact .inr (Option.some.inj (hch.symm.trans h))
  · exact .inl (hv.trans (hs.symm.trans hch))

theorem Parts.near {r r' : List Char} (h : Parts r r') : Near r r' := by
  rcases h with rfl | ⟨u, v, s, rfl, rfl, hs⟩
  · exact .refl _
  · exact hs.near.append u

/-- No text without spaces arises where a text breaks off, nor does one without closing brackets. -/
theorem Parts.of_prefix {r r' text w : List Char} (h : Parts r r') (hspace : ' ' ∉ text)
    (hclose : ')' ∈ text → text = [')']) (hp : text <+: w ++ r') : text <+: w ++ r := by
  rcases h with rfl | ⟨u, v, s, rfl, rfl, hs⟩
  · exact hp
  have hup : w ++ u <+: w ++ (u ++ s) := ⟨s, by simp⟩
  rcases List.prefix_or_prefix_of_prefix hp hup with hu | ⟨more, rfl⟩
  · exact hu.trans ⟨v, by simp⟩
  · obtain ⟨behind, hb⟩ := hp
    simp only [List.append_assoc, List.append_cancel_left_eq] at hb
    cases more with
    | nil => exact ⟨v, by simp⟩
    | cons ch more =>
      have hhead : s.head? = some ch := by rw [← hb]; rfl
      rcases hs with rfl | hs | ⟨hv, hs⟩
      · cases hhead
      · obtain rfl := Option.some.inj (hhead.symm.trans hs)
        simp at hspace
      · -- the text is the closing bracket alone, and `r` goes on with it, too
        obtain rfl := Option.some.inj (hhead.symm.trans hs)
        have hall := hclose (by simp)
        obtain ⟨hfront, -⟩ : w ++ u = [] ∧ more = [] := by
          cases hwu : w ++ u <;> simp_all
        obtain ⟨vs, rfl⟩ := List.head?_eq_some_iff.mp hv
        rw [hall, ← List.append_assoc, hfront]
        exact ⟨vs, rfl⟩

theorem Punctuator.space_not_mem_text (mark : Punctuator) : ' ' ∉ mark.text.toList := by
  cases mark <;> decide

theorem Punctuator.text_of_closes {mark : Punctuator} (h : ')' ∈ mark.text.toList) :
    mark.text.toList = [')'] := by
  revert h
  cases mark <;> decide

theorem Punctuator.startsAt_iff {mark : Punctuator} {cs : List Char} :
    mark.startsAt cs = true ↔ mark.text.toList <+: cs ∧
      (mark = .questionDot → (cs.drop 2).head?.any Char.isDigit = false) := by
  simp only [startsAt, Bool.and_eq_true, List.isPrefixOf_iff_prefix, Bool.not_eq_true',
    Bool.and_eq_false_imp, beq_iff_eq]

/-- What `r'` has to do with `r` for a token in front of `r` to be the same in front of `r'`. -/
structure Leaves (k : TokenKind) (r r' : List Char) : Prop where
  /-- The text goes on as before up to a place where it breaks off. -/
  parts : Parts r r'
  /-- An invalid token may have asked for more text. -/
  invalid : (∃ cause, k = .invalid cause) → r = [] → r' = []
  /-- A question mark takes a point that no digit follows. -/
  question : k = .punctuator .question → ∀ s, r' = '.' :: s → s.head?.any Char.isDigit = true

/-- No punctuator arises where a text breaks off, but for `?.`. -/
theorem Punctuator.startsAt_of_parts {mark : Punctuator} {w r r' : List Char} (h : Parts r r')
    (hmark : mark ≠ .questionDot) (hs : mark.startsAt (w ++ r') = true) :
    mark.startsAt (w ++ r) = true := by
  rw [startsAt_iff] at hs ⊢
  exact ⟨h.of_prefix mark.space_not_mem_text text_of_closes hs.1, fun heq => absurd heq hmark⟩

theorem Punctuator.eq_of_prefix_questionDot {mark : Punctuator} {cs : List Char}
    (h : mark.text.toList <+: '?' :: '.' :: cs) : mark = .question ∨ mark = .questionDot := by
  obtain ⟨behind, hb⟩ := h
  have hb := congrArg (List.take 2) hb
  rw [List.take_append] at hb
  have h : mark.text.toList.take 2 <+: ['?', '.'] := ⟨_, hb⟩
  revert h
  clear hb
  cases mark <;> decide

theorem Punctuator.longest?_leaves {mark : Punctuator} {r r' : List Char}
    (h : longest? (mark.text.toList ++ r) = some mark) (hr : Leaves (.punctuator mark) r r') :
    longest? (mark.text.toList ++ r') = some mark := by
  rw [longest?, List.find?_eq_some_iff_append] at h ⊢
  obtain ⟨hstarts, as, bs, hsplit, has⟩ := h
  refine ⟨?_, as, bs, hsplit, ?_⟩
  · rw [startsAt_iff] at hstarts ⊢
    refine ⟨List.prefix_append _ _, ?_⟩
    rintro rfl
    have hdigit : r.head?.any Char.isDigit = false := hstarts.2 rfl
    show r'.head?.any Char.isDigit = false
    rw [Option.any_eq_false] at hdigit ⊢
    intro ch hch
    simpa using hr.parts.near.fails rfl (fun d hd => by simpa using hdigit d hd) ch hch
  · intro p hp
    have hnot : p.startsAt (mark.text.toList ++ r) = false := by simpa using has p hp
    simp only [Bool.not_eq_true', ← Bool.not_eq_true]
    intro hs
    by_cases hq : p = .questionDot
    · -- the point belonged to a number, so the mark is `?`
      subst hq
      obtain ⟨⟨cs, hcs⟩, hdigit⟩ := startsAt_iff.mp hs
      obtain rfl | rfl := eq_of_prefix_questionDot ⟨r', hcs.symm⟩
      · obtain ⟨s, rfl⟩ : ∃ s, r' = '.' :: s := ⟨cs, (List.cons.inj hcs).2.symm⟩
        have := hr.question rfl s rfl
        rw [show s.head?.any Char.isDigit = false from hdigit rfl] at this
        cases this
      · rw [hstarts] at hnot
        cases hnot
    · rw [startsAt_of_parts hr.parts hq hs] at hnot
      cases hnot

/-- Where no punctuator stands, none arises where a text breaks off. -/
theorem Punctuator.longest?_none {ch : Char} {r r' : List Char} (h : longest? (ch :: r) = none)
    (hr : Parts r r') : longest? (ch :: r') = none := by
  rw [longest?, List.find?_eq_none] at h ⊢
  intro p hp hs
  by_cases hq : p = .questionDot
  · subst hq
    obtain ⟨⟨cs, hcs⟩, -⟩ := startsAt_iff.mp hs
    obtain ⟨rfl, -⟩ := List.cons.inj hcs
    exact h .question Punctuator.question.mem_longestFirst (startsAt_iff.mpr ⟨⟨r, rfl⟩, by simp⟩)
  · exact h p hp (startsAt_of_parts (w := [ch]) hr hq hs)

/-! ### Tokens -/

/-- At a place a token is read from `w`, and again wherever `Leaves` says so. -/
def ReadFrom (w : List Char) (c c' : Cursor) (k : TokenKind) : Prop :=
  w ≠ [] ∧ c.Moves w c' ∧ ∀ r, Leaves k c'.rest r → Takes tokenHere w k r

/-- A token whose reader goes on behind the first character. -/
theorem readFrom_of_behind {first : Char} {cs w : List Char} {c c' : Cursor} {k : TokenKind}
    (hc : c.rest = first :: cs) (hm : c.advance.Moves w c')
    (h : ∀ r, Leaves k c'.rest r → ∀ pos,
      tokenAt first ⟨pos, first :: (w ++ r)⟩ = (k, ⟨pos + first.utf8Size + byteSize w, r⟩)) :
    ReadFrom (first :: w) c c' k := by
  refine ⟨by simp, (Cursor.moves_advance hc).trans hm, ?_⟩
  intro r hr pos
  rw [List.cons_append, tokenHere_cons, h r hr pos, byteSize_cons, Nat.add_assoc]

theorem readFrom_string {first : Char} {cs : List Char} {c c' : Cursor} {k : TokenKind}
    (hc : c.rest = first :: cs) (hf : first = '"' ∨ first = '\'')
    (h : stringBody first [] c.advance = (k, c')) : ∃ w, ReadFrom w c c' k := by
  have htoken : ∀ pos r, tokenAt first ⟨pos, first :: r⟩ =
      stringBody first [] ⟨pos + first.utf8Size, r⟩ := by
    intro pos r
    simp [tokenAt, hf]
  rcases stringBody_gives first [] c.advance with ⟨s, hk⟩ | ⟨cause, hk⟩
  · obtain rfl : k = .string s := by rw [← hk, h]
    obtain ⟨w, hm, -, htake⟩ := stringBody_takes h
    exact ⟨_, readFrom_of_behind hc hm fun r _ pos => (htoken pos _).trans (htake r _)⟩
  · obtain rfl : k = .invalid cause := by rw [← hk, h]
    obtain ⟨w, hm, -, htake⟩ := stringBody_invalid h
    exact ⟨_, readFrom_of_behind hc hm fun r hr pos =>
      (htoken pos _).trans (htake r hr.parts.near (hr.invalid ⟨cause, rfl⟩) _)⟩

theorem readFrom_template {cs : List Char} {c c' : Cursor} {k : TokenKind}
    (hc : c.rest = '`' :: cs) (h : templateChunk c.advance = (k, c')) :
    ∃ w, ReadFrom w c c' k := by
  have htoken : ∀ pos r, tokenAt '`' ⟨pos, '`' :: r⟩ = templateChunk ⟨pos + '`'.utf8Size, r⟩ := by
    intro pos r
    simp [tokenAt]
  rcases templateChunk_gives c.advance with ⟨chunk, closes, hk⟩ | ⟨cause, hk⟩
  · obtain rfl : k = .template chunk closes := by rw [← hk, h]
    obtain ⟨hm, htake⟩ := templateChunk_takes h
    exact ⟨_, readFrom_of_behind hc hm fun r _ pos => (htoken pos _).trans (htake r _)⟩
  · obtain rfl : k = .invalid cause := by rw [← hk, h]
    -- the chunk asks for text up to the end, so nothing may follow
    obtain ⟨hend, w, hm, htake⟩ := templateChunk_invalid h
    refine ⟨_, readFrom_of_behind hc hm ?_⟩
    intro r hr pos
    obtain rfl := hr.invalid ⟨cause, rfl⟩ hend
    exact (htoken pos _).trans (htake _)

/-- A number whose first character is a point has a digit behind the point. -/
theorem number_moves_head {c c' : Cursor} {k : TokenKind} {d : Char} {cs w : List Char}
    (hc : c.rest = d :: cs) (hd : d.isDigit = true) (h : number '.' c = (k, c'))
    (hm : c.Moves w c') : ∃ w', w = d :: w' := by
  have hdec : number '.' c = decimalNumber '.' c := by
    rw [number_eq, show radixBehind? '.' c.rest = none by
      simp only [radixBehind?, hc, List.head?_cons, Option.bind_some]
      cases radixOf? d <;> rfl]
  rw [hdec] at h
  obtain ⟨numerals, fraction, exponent, next, -, hnext, hk, hhead⟩ := decimalNumber_inv h
  obtain ⟨ds, rfl⟩ : ∃ ds, numerals = d :: ds := by
    have := hhead d (by rw [hc]; rfl) (by simp [isNumeral, hd])
    exact List.head?_eq_some_iff.mp this
  -- the first digit is one of the numerals, and no less is taken than these
  have hlen : c'.rest.length ≤ next.rest.length := by
    obtain ⟨v, hv, -⟩ := rereads_decimalToken
      (dropUnderscores ('.' :: (d :: ds ++ fraction ++ exponent))) next
    rw [hk] at hv
    rw [hv.rest, List.length_append]
    exact Nat.le_add_left _ _
  cases w with
  | nil =>
    have h1 := congrArg List.length hm.rest
    have h2 := congrArg List.length hnext.rest
    simp only [List.length_append, List.length_cons, List.length_nil] at h1 h2
    omega
  | cons e w' =>
    have h1 := hm.rest
    rw [hc] at h1
    obtain ⟨rfl, -⟩ := List.cons.inj h1
    exact ⟨w', rfl⟩

theorem readFrom_number {first : Char} {cs : List Char} {c c' : Cursor} {k : TokenKind}
    (hc : c.rest = first :: cs)
    (hf : first.isDigit = true ∨ first = '.' ∧ c.advance.peek.any Char.isDigit = true)
    (h : number first c.advance = (k, c')) : ∃ w, ReadFrom w c c' k := by
  obtain ⟨w, hm, htake⟩ := rereads_number first c.advance
  rw [h] at hm htake
  refine ⟨_, readFrom_of_behind hc hm ?_⟩
  intro r hr pos
  refine Eq.trans ?_ (htake r hr.parts.near _)
  have hne : first ≠ '"' ∧ first ≠ '\'' ∧ first ≠ '`' := by
    rcases hf with hf | ⟨rfl, -⟩
    · refine ⟨?_, ?_, ?_⟩
      all_goals
        rintro rfl
        revert hf
        decide
    · decide
  have hnum : (first.isDigit || (first = '.' && (w ++ r).head?.any Char.isDigit)) = true := by
    rcases hf with hf | ⟨rfl, hf⟩
    · simp [hf]
    · obtain ⟨d, ds, hds, hdigit⟩ : ∃ d ds, c.advance.rest = d :: ds ∧ d.isDigit = true := by
        cases hrest : c.advance.rest with
        | nil => simp [Cursor.peek, hrest] at hf
        | cons d ds => exact ⟨d, ds, rfl, by simpa [Cursor.peek, hrest] using hf⟩
      obtain ⟨w', rfl⟩ := number_moves_head hds hdigit h hm
      simp [hdigit]
  simp only [tokenAt, Cursor.advance_cons, Cursor.peek_mk, hnum, hne]
  simp

theorem readFrom_private {cs : List Char} {c c' : Cursor} {k : TokenKind}
    (hc : c.rest = '#' :: cs) (h : privateNameBody c.advance = (k, c')) :
    ∃ w, ReadFrom w c c' k := by
  obtain ⟨w, hm, htake⟩ := rereads_privateNameBody c.advance
  rw [h] at hm htake
  refine ⟨_, readFrom_of_behind hc hm ?_⟩
  intro r hr pos
  refine Eq.trans ?_ (htake r hr.parts.near _)
  simp [tokenAt]

/-- What starts a token that is neither a literal nor a private name. -/
structure StartsMark (first : Char) (cs : List Char) : Prop where
  quote : first ≠ '"' ∧ first ≠ '\'' ∧ first ≠ '`'
  number : (first.isDigit || (first = '.' && cs.head?.any Char.isDigit)) = false
  sign : first ≠ '#'

theorem tokenAt_of_startsMark {first : Char} {cs : List Char} (h : StartsMark first cs) (pos : Nat) :
    tokenAt first ⟨pos, first :: cs⟩ =
      match Punctuator.longest? (first :: cs) with
      | some mark => (.punctuator mark, Cursor.drop ⟨pos, first :: cs⟩ mark.text.length)
      | none => if isIdStart first then nameOrWord first ⟨pos + first.utf8Size, cs⟩
          else (.invalid (.unexpectedCharacter first), ⟨pos + first.utf8Size, cs⟩) := by
  simp only [tokenAt, Cursor.advance_cons, Cursor.peek_mk, h.number, h.quote, h.sign]
  rfl

/-- A character that starts a mark does so in front of what is near, unless it is a point. -/
theorem StartsMark.near {first : Char} {r r' : List Char} (h : StartsMark first r)
    (hr : Near r r') : StartsMark first r' := by
  have hnumber := h.number
  simp only [Bool.or_eq_false_iff, Bool.and_eq_false_imp, decide_eq_true_eq, Option.any_eq_false]
    at hnumber
  refine ⟨h.quote, ?_, h.sign⟩
  simp only [Bool.or_eq_false_iff, Bool.and_eq_false_imp, decide_eq_true_eq, Option.any_eq_false]
  exact ⟨hnumber.1, fun hpoint => hr.fails rfl (hnumber.2 hpoint)⟩

theorem readFrom_mark {first : Char} {cs : List Char} {c c' : Cursor} {k : TokenKind}
    (hc : c.rest = first :: cs) (hs : StartsMark first cs) (h : tokenAt first c = (k, c')) :
    ∃ w, ReadFrom w c c' k := by
  obtain ⟨pos, rest⟩ := c
  dsimp only at hc
  subst hc
  rw [tokenAt_of_startsMark hs] at h
  cases hl : Punctuator.longest? (first :: cs) with
  | some mark =>
    rw [hl] at h
    obtain ⟨rfl, rfl⟩ : _ = k ∧ _ = c' := by simpa using h
    obtain ⟨rest, hrest⟩ : ∃ rest, mark.text.toList ++ rest = first :: cs := by
      rw [Punctuator.longest?, List.find?_eq_some_iff_append] at hl
      exact (Punctuator.startsAt_iff.mp hl.1).1
    obtain ⟨ch, w, htext, -⟩ := mark.head_text
    obtain ⟨rfl, rfl⟩ : ch = first ∧ w ++ rest = cs := by simpa [htext] using hrest
    have hdrop : ∀ pos r, Cursor.drop ⟨pos, ch :: (w ++ r)⟩ mark.text.length =
        ⟨pos + byteSize mark.text.toList, r⟩ := by
      intro pos r
      rw [← String.length_toList, htext]
      exact Cursor.drop_append pos (ch :: w) r
    refine ⟨mark.text.toList, by simp [htext], ⟨?_, ?_⟩, ?_⟩
    · rw [hdrop, htext]
      rfl
    · rw [hdrop]
    intro r hr pos'
    rw [hdrop] at hr
    have hlong := Punctuator.longest?_leaves (hrest ▸ hl) hr
    rw [htext, List.cons_append] at hlong ⊢
    rw [tokenHere_cons, tokenAt_of_startsMark (hs.near (hr.parts.near.append w)), hlong]
    simp only [hdrop, htext]
  | none =>
    rw [hl] at h
    dsimp only at h
    split at h
    · rename_i hid
      obtain ⟨w, hm, htake⟩ := rereads_nameOrWord first ⟨pos + first.utf8Size, cs⟩
      rw [h] at hm htake
      refine ⟨_, readFrom_of_behind rfl hm ?_⟩
      intro r hr pos
      rw [tokenAt_of_isIdStart rfl hid]
      exact htake r hr.parts.near _
    · rename_i hid
      obtain ⟨rfl, rfl⟩ : _ = k ∧ _ = c' := by simpa using h
      refine ⟨_, readFrom_of_behind rfl (.refl _) ?_⟩
      intro r hr pos
      rw [List.nil_append, tokenAt_of_startsMark (hs.near hr.parts.near),
        Punctuator.longest?_none hl hr.parts, if_neg hid]
      rfl

/-- Every token is read again from its own text, in front of what leaves it. -/
theorem tokenHere_again {c c' : Cursor} {k : TokenKind} (h : tokenHere c = (k, c'))
    (hk : k ≠ .eof) : ∃ w, ReadFrom w c c' k := by
  cases hc : c.rest with
  | nil =>
    rw [tokenHere, hc] at h
    exact absurd (Prod.mk.inj h).1.symm hk
  | cons first cs =>
    have h : tokenAt first c = (k, c') := by rwa [tokenHere, hc] at h
    have hadv : c.advance.peek = cs.head? := by simp [Cursor.advance, hc, Cursor.peek]
    -- the cases are those of the reader
    by_cases hquote : first = '"' ∨ first = '\''
    · exact readFrom_string hc hquote (by simpa [tokenAt, hquote] using h)
    by_cases htick : first = '`'
    · subst htick
      exact readFrom_template hc (by simpa [tokenAt] using h)
    cases hnum : first.isDigit || (decide (first = '.') && cs.head?.any Char.isDigit) with
    | true =>
      refine readFrom_number hc (by simpa [hadv] using hnum) ?_
      rw [tokenAt, if_neg (by simpa using hquote), if_neg htick, hadv, if_pos hnum] at h
      exact h
    | false =>
      by_cases hsign : first = '#'
      · subst hsign
        exact readFrom_private hc (by simpa [tokenAt] using h)
      · exact readFrom_mark hc ⟨by simp_all, hnum, hsign⟩ h

end EsModule.Syntax
