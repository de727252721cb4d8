import EsModule.Proofs.Lexis.Token
import EsModule.Syntax.Quoted
import Mathlib.Data.List.TakeWhile

/-!
# Quoting is undone by reading

However a character is written between quotes, reading gives it back (`stringBody_quotedChar`), so a
quoted text is read as one string with that text for its value, wherever it stands and whatever
follows (`isToken_quoted`).
-/

namespace EsModule.Syntax

open EsModule.Text EsModule.Number

/-! ## One character -/

/-- Behind a backslash, a character that starts no escape of several characters. -/
def IsSingleEscape (e : Char) : Prop :=
  e ≠ '0' ∧ e ≠ 'x' ∧ e ≠ 'u' ∧ isLineTerminator e = false

theorem escape_single {e : Char} (h : IsSingleEscape e) (pos : Nat) (r : List Char) :
    escape ⟨pos, e :: r⟩ = (.ok (some ((controlLetter? e).getD e)), ⟨pos + e.utf8Size, r⟩) := by
  obtain ⟨h0, hx, hu, hl⟩ := h
  have hr : e ≠ '\r' := by
    rintro rfl
    revert hl
    decide
  simp [escape, h0, hx, hu, hl, hr]

theorem readDigits_twoHexDigits {code : Nat} (h : code < 0x20) :
    (∀ d ∈ twoHexDigits code, isDigitOf 16 d = true) ∧ readDigits 16 (twoHexDigits code) = code := by
  rw [← List.all_eq_true]
  revert code
  decide

/-- Digits that are as many as asked for are read whatever follows. -/
theorem hexDigits_append {digits : List Char} (h : ∀ d ∈ digits, isDigitOf 16 d = true) (pos : Nat)
    (r : List Char) : hexDigits digits.length ⟨pos, digits ++ r⟩ =
      (some (readDigits 16 digits), ⟨pos + byteSize digits, r⟩) := by
  have htaken : digits.takeWhile (isDigitOf 16) = digits := List.takeWhile_eq_self_iff.mpr h
  rw [hexDigits, List.take_left' rfl, htaken, if_pos rfl, Cursor.drop_append]

theorem escape_twoHexDigits {code : Nat} (h : code < 0x20) (pos : Nat) (r : List Char) :
    escape ⟨pos, 'x' :: (twoHexDigits code ++ r)⟩ =
      (.ok (some (Char.ofNat code)), ⟨pos + 'x'.utf8Size + byteSize (twoHexDigits code), r⟩) := by
  obtain ⟨hdigits, hvalue⟩ := readDigits_twoHexDigits h
  have hread := hexDigits_append hdigits (pos + 'x'.utf8Size) r
  rw [hvalue, show (twoHexDigits code).length = 2 from rfl] at hread
  have hvalid : code.isValidChar := .inl (by omega)
  simp [escape, hread, scalar, hvalid]

theorem escape_fourHexDigits (digits : List Char) (h : ∀ d ∈ digits, isDigitOf 16 d = true)
    (hlen : digits.length = 4) (pos : Nat) (r : List Char) :
    escape ⟨pos, 'u' :: (digits ++ r)⟩ =
      (.ok (some (scalar (readDigits 16 digits))), ⟨pos + 'u'.utf8Size + byteSize digits, r⟩) := by
  have hread := hexDigits_append h (pos + 'u'.utf8Size) r
  rw [hlen] at hread
  have hbrace : ∀ pos, Cursor.sees ⟨pos, digits ++ r⟩ '\x7b' = false := by
    intro pos
    obtain ⟨d, ds, rfl⟩ : ∃ d ds, digits = d :: ds := List.exists_cons_of_ne_nil (by
      rintro rfl
      cases hlen)
    rw [List.cons_append, Cursor.sees_cons, beq_eq_false_iff_ne]
    rintro rfl
    exact absurd (h _ List.mem_cons_self) (by decide)
  simp [escape, codePoint, hbrace, hread]

/-- However a character is written, it is read as itself. -/
theorem stringBody_quotedChar (ch : Char) (acc : List Char) (pos : Nat) (r : List Char) :
    stringBody '"' acc ⟨pos, quotedChar ch ++ r⟩ =
      stringBody '"' (ch :: acc) ⟨pos + byteSize (quotedChar ch), r⟩ := by
  have hescaped : ∀ {w : List Char}, quotedChar ch = '\\' :: w →
      (∀ pos, escape ⟨pos, w ++ r⟩ = (.ok (some ch), ⟨pos + byteSize w, r⟩)) →
      stringBody '"' acc ⟨pos, quotedChar ch ++ r⟩ =
        stringBody '"' (ch :: acc) ⟨pos + byteSize (quotedChar ch), r⟩ := by
    intro w hw hescape
    rw [hw, List.cons_append, stringBody_escape (c := ⟨pos, '\\' :: _⟩) rfl (by decide)
      (hescape (pos + '\\'.utf8Size)), byteSize_cons, Nat.add_assoc]
    rfl
  have hletter : ∀ {e : Char}, quotedChar ch = ['\\', e] → IsSingleEscape e →
      (controlLetter? e).getD e = ch → stringBody '"' acc ⟨pos, quotedChar ch ++ r⟩ =
        stringBody '"' (ch :: acc) ⟨pos + byteSize (quotedChar ch), r⟩ := by
    intro e hw he hch
    exact hescaped hw fun pos => by rw [← hch]; exact escape_single he pos r
  by_cases hquote : ch = '"'
  · subst hquote
    exact hletter rfl ⟨by decide, by decide, by decide, rfl⟩ rfl
  by_cases hslash : ch = '\\'
  · subst hslash
    exact hletter rfl ⟨by decide, by decide, by decide, rfl⟩ rfl
  by_cases hn : ch = '\n'
  · subst hn
    exact hletter rfl ⟨by decide, by decide, by decide, rfl⟩ rfl
  by_cases hr : ch = '\r'
  · subst hr
    exact hletter rfl ⟨by decide, by decide, by decide, rfl⟩ rfl
  by_cases ht : ch = '\t'
  · subst ht
    exact hletter rfl ⟨by decide, by decide, by decide, rfl⟩ rfl
  by_cases hline : ch = '\u2028'
  · subst hline
    exact hescaped rfl fun pos =>
      escape_fourHexDigits ['2', '0', '2', '8'] (List.all_eq_true.mp rfl) rfl pos r
  by_cases hparagraph : ch = '\u2029'
  · subst hparagraph
    exact hescaped rfl fun pos =>
      escape_fourHexDigits ['2', '0', '2', '9'] (List.all_eq_true.mp rfl) rfl pos r
  by_cases hcontrol : ch.toNat < 0x20
  · have hw : quotedChar ch = '\\' :: 'x' :: twoHexDigits ch.toNat := by
      simp [quotedChar, hquote, hslash, hn, hr, ht, hline, hparagraph, hcontrol]
    refine hescaped hw fun pos => ?_
    have hescape := escape_twoHexDigits hcontrol pos r
    rwa [Char.ofNat_toNat, Nat.add_assoc] at hescape
  · have hw : quotedChar ch = [ch] := by
      simp [quotedChar, hquote, hslash, hn, hr, ht, hline, hparagraph, hcontrol]
    rw [hw]
    exact stringBody_plain (c := ⟨pos, ch :: r⟩) rfl hquote ⟨hn, hr⟩ hslash

/-! ## Texts -/

theorem stringBody_quoted (cs : List Char) (acc : List Char) (pos : Nat) (r : List Char) :
    stringBody '"' acc ⟨pos, cs.flatMap quotedChar ++ '"' :: r⟩ =
      (.string (String.ofList (acc.reverse ++ cs)),
        ⟨pos + byteSize (cs.flatMap quotedChar) + '"'.utf8Size, r⟩) := by
  induction cs generalizing acc pos with
  | nil => simp [stringBody]
  | cons ch cs ih =>
    rw [List.flatMap_cons, List.append_assoc, stringBody_quotedChar, ih, byteSize_append,
      List.reverse_cons, List.append_assoc, ← Nat.add_assoc]
    rfl

/-- A quoted text is read as a string with that text for its value. -/
theorem isToken_quoted (cs r : List Char) :
    IsToken (quoted cs) (.string (String.ofList cs)) r := by
  refine isToken_of_tokenAt rfl fun pos => ?_
  rw [List.append_assoc, List.singleton_append]
  have hbody := stringBody_quoted cs [] (pos + '"'.utf8Size) r
  simpa [tokenAt, Nat.add_assoc] using hbody

/-- A text that is one token is nothing else: behind the token comes the end of the source. -/
theorem IsToken.tokens {text : List Char} {kind : TokenKind} (h : IsToken text kind [])
    (hkind : kind ≠ .eof) (hstart : firstCursor text = ⟨0, text⟩) : tokens text =
      [⟨kind, ⟨0, byteSize text⟩, false⟩,
        ⟨.eof, ⟨byteSize text, byteSize text⟩, false⟩] := by
  have hfirst := h.nextToken 0
  rw [List.append_nil, Nat.zero_add] at hfirst
  have hend : Syntax.nextToken ⟨byteSize text, []⟩ =
      (⟨.eof, ⟨byteSize text, byteSize text⟩, false⟩, ⟨byteSize text, []⟩) := by
    rw [nextToken_eq, skipTrivia_of_none rfl]
    rfl
  rw [Syntax.tokens, hstart, tokensFrom, dif_neg (by rw [hfirst]; exact hkind), hfirst, tokensFrom,
    dif_pos (by rw [hend]), hend]

/-- A quoted text is read as that string alone. -/
theorem tokens_quoted (cs : List Char) : tokens (quoted cs) =
    [⟨.string (String.ofList cs), ⟨0, byteSize (quoted cs)⟩, false⟩,
      ⟨.eof, ⟨byteSize (quoted cs), byteSize (quoted cs)⟩, false⟩] :=
  (isToken_quoted cs []).tokens nofun rfl

end EsModule.Syntax
