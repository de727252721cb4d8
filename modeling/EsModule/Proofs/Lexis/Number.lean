import EsModule.Proofs.Lexis.Literal

/-!
# Numbers are read again

A decimal number consists of digits, a fraction and an exponent (`DecimalText`), and its text is
read again in front of whatever cannot be one of these parts (`DecimalEnds`). A number that is valid
has digits in its exponent, which leaves the simpler `NumberEnds`: nothing that continues a name
follows, and no point if there are only digits.

Large integers are kept by their digits alone, without the underscores among them. Their text is
read again too, because dropping underscores keeps all parts of a number apart.
-/

namespace EsModule.Number

/-- No number ends in the mark of its exponent. -/
theorem Decimal.read?_of_mark_last {cs : List Char} {e : Char} (he : e = 'e' ∨ e = 'E') :
    Decimal.read? (cs ++ [e]) = none := by
  have hdig : e.isDigit = false := by rcases he with rfl | rfl <;> rfl
  have hexp : ∀ r : List Char, (r = [] ∨ ∃ r', r = r' ++ [e]) → Decimal.readExponent? r = none := by
    intro r hr
    have hbad : ∀ r : List Char, (r = [] ∨ ∃ r', r = r' ++ [e]) →
        (r.isEmpty || !r.all Char.isDigit) = true := by
      rintro r (rfl | ⟨r', rfl⟩)
      · rfl
      · simp [hdig]
    unfold Decimal.readExponent?
    split
    rename_i negative digits hsign
    rw [if_pos (hbad digits ?_)]
    split at hsign
    all_goals
      obtain ⟨-, rfl⟩ := Prod.mk.inj hsign
      try exact hr
    all_goals
      rcases hr with hr | ⟨r', hr⟩
      · simp at hr
      cases r' with
      | nil => simp at hr; simp_all
      | cons d r' => exact .inr ⟨r', (List.cons.inj hr).2⟩
  have hlast : ∀ p : Char → Bool, p e = false → ∀ cs' : List Char,
      ∃ r', (cs' ++ [e]).dropWhile p = r' ++ [e] := by
    intro p hp cs'
    induction cs' with
    | nil => exact ⟨[], by simp [hp]⟩
    | cons ch cs' ih =>
      rw [List.cons_append, List.dropWhile_cons]
      split
      · exact ih
      · exact ⟨ch :: cs', rfl⟩
  have htail : ∀ tail : List Char, (∃ r', tail = r' ++ [e]) →
      ∃ c r, tail = c :: r ∧ Decimal.readExponent? r = none := by
    rintro tail ⟨r', rfl⟩
    cases r' with
    | nil => exact ⟨e, [], rfl, hexp [] (.inl rfl)⟩
    | cons c r' => exact ⟨c, r' ++ [e], rfl, hexp _ (.inr ⟨r', rfl⟩)⟩
  obtain ⟨r, hr⟩ := hlast Char.isDigit hdig cs
  unfold Decimal.read?
  dsimp only
  rw [hr]
  split
  · rename_i behind hbehind
    have hends : ∃ r', behind.dropWhile Char.isDigit = r' ++ [e] := by
      cases r with
      | nil => simp at hbehind; rcases he with rfl | rfl <;> simp at hbehind
      | cons c r =>
        obtain ⟨-, rfl⟩ := List.cons.inj hbehind
        exact hlast _ hdig r
    dsimp only
    split
    · rfl
    · obtain ⟨c, r, htail, hnone⟩ := htail _ hends
      simp [htail, hnone]
  · dsimp only
    split
    · rfl
    · obtain ⟨c, r, htail, hnone⟩ := htail _ ⟨r, rfl⟩
      simp [htail, hnone]

end EsModule.Number

namespace EsModule.Syntax

open EsModule.Text EsModule.Number

theorem isIdContinue_of_isNumeral {ch : Char} (h : isNumeral ch = true) : isIdContinue ch = true := by
  unfold isNumeral at h
  simp only [Bool.or_eq_true, beq_iff_eq] at h
  rcases h with h | rfl
  · have hlt : ch.toNat < 128 := by
      simp only [Char.isDigit, Bool.and_eq_true, decide_eq_true_eq] at h
      have := h.2
      simp [UInt32.le_iff_toNat_le] at this
      omega
    simp [isIdContinue, hlt, Char.isAlphanum, h]
  · decide

/-- The parts of a decimal number behind its first character. -/
structure DecimalText (first : Char) (numerals fraction exponent : List Char) : Prop where
  /-- Digits follow. -/
  numerals : ∀ ch ∈ numerals, isNumeral ch = true
  /-- Then there may be a point with more digits, unless the point came first. -/
  fraction : fraction = [] ∨
    first ≠ '.' ∧ ∃ ds, fraction = '.' :: ds ∧ ∀ ch ∈ ds, isNumeral ch = true
  /-- Then there may be an exponent, perhaps with a sign. -/
  exponent : exponent = [] ∨ ∃ e ds, (e = 'e' ∨ e = 'E') ∧ (∀ ch ∈ ds, isNumeral ch = true) ∧
    (exponent = e :: ds ∨ exponent = e :: '+' :: ds ∨ exponent = e :: '-' :: ds)

theorem fractionPart_inv {first : Char} {c c' : Cursor} {fraction : List Char}
    (h : (if first = '.' then ([], c) else fractionPart c) = (fraction, c')) :
    c.Moves fraction c' ∧ (fraction = [] ∨
      first ≠ '.' ∧ ∃ ds, fraction = '.' :: ds ∧ ∀ ch ∈ ds, isNumeral ch = true) := by
  split at h
  · obtain ⟨rfl, rfl⟩ := Prod.mk.inj h
    exact ⟨Cursor.Moves.refl _, .inl rfl⟩
  rename_i hfirst
  unfold fractionPart at h
  split at h
  · rename_i hdot
    obtain ⟨cs, hcs⟩ : ∃ cs, c.rest = '.' :: cs := by
      simpa [Cursor.sees, List.head?_eq_some_iff] using hdot
    obtain ⟨rfl, rfl⟩ := Prod.mk.inj h
    refine ⟨(Cursor.moves_advance hcs).trans (Cursor.moves_takeWhile _ _), .inr ⟨hfirst, _, rfl, ?_⟩⟩
    exact List.all_eq_true.mp List.all_takeWhile
  · obtain ⟨rfl, rfl⟩ := Prod.mk.inj h
    exact ⟨Cursor.Moves.refl _, .inl rfl⟩

theorem exponentPart_inv {c c' : Cursor} {exponent : List Char}
    (h : exponentPart c = (exponent, c')) :
    c.Moves exponent c' ∧ (exponent = [] ∨
      ∃ e ds, (e = 'e' ∨ e = 'E') ∧ (∀ ch ∈ ds, isNumeral ch = true) ∧
        (exponent = e :: ds ∨ exponent = e :: '+' :: ds ∨ exponent = e :: '-' :: ds)) := by
  unfold exponentPart at h
  split at h
  · rename_i e cs hcs
    split at h
    · rename_i he
      have hd := c.moves_drop 2
      rw [hcs] at hd h
      obtain ⟨rfl, rfl⟩ := Prod.mk.inj h
      refine ⟨hd.trans (Cursor.moves_takeWhile _ _), .inr ⟨e, _, by simpa using he, ?_, .inr (.inl rfl)⟩⟩
      exact List.all_eq_true.mp List.all_takeWhile
    · obtain ⟨rfl, rfl⟩ := Prod.mk.inj h
      exact ⟨Cursor.Moves.refl _, .inl rfl⟩
  · rename_i e cs hcs
    split at h
    · rename_i he
      have hd := c.moves_drop 2
      rw [hcs] at hd h
      obtain ⟨rfl, rfl⟩ := Prod.mk.inj h
      refine ⟨hd.trans (Cursor.moves_takeWhile _ _), .inr ⟨e, _, by simpa using he, ?_, .inr (.inr rfl)⟩⟩
      exact List.all_eq_true.mp List.all_takeWhile
    · obtain ⟨rfl, rfl⟩ := Prod.mk.inj h
      exact ⟨Cursor.Moves.refl _, .inl rfl⟩
  · rename_i e cs _ _ hcs
    split at h
    · rename_i he
      obtain ⟨rfl, rfl⟩ := Prod.mk.inj h
      refine ⟨(Cursor.moves_advance hcs).trans (Cursor.moves_takeWhile _ _),
        .inr ⟨e, _, by simpa using he, ?_, .inl rfl⟩⟩
      exact List.all_eq_true.mp List.all_takeWhile
    · obtain ⟨rfl, rfl⟩ := Prod.mk.inj h
      exact ⟨Cursor.Moves.refl _, .inl rfl⟩
  · obtain ⟨rfl, rfl⟩ := Prod.mk.inj h
    exact ⟨Cursor.Moves.refl _, .inl rfl⟩

/-- What may stand behind the parts of a decimal number without being taken for more of it. -/
structure DecimalEnds (first : Char) (fraction exponent r : List Char) : Prop where
  numeral : ∀ ch, r.head? = some ch → isNumeral ch = false
  point : r.head? = some '.' → first = '.' ∨ fraction ≠ [] ∨ exponent ≠ []
  mark : exponent = [] → r.head? ≠ some 'e' ∧ r.head? ≠ some 'E'
  sign : exponent.length = 1 → r.head? ≠ some '+' ∧ r.head? ≠ some '-'

theorem fractionPart_text {first : Char} {fraction r : List Char}
    (h : fraction = [] ∨ first ≠ '.' ∧ ∃ ds, fraction = '.' :: ds ∧ ∀ ch ∈ ds, isNumeral ch = true)
    (hr : ∀ ch, r.head? = some ch → isNumeral ch = false)
    (hp : r.head? = some '.' → first = '.' ∨ fraction ≠ []) (pos : Nat) :
    (if first = '.' then ([], ⟨pos, fraction ++ r⟩) else fractionPart ⟨pos, fraction ++ r⟩) =
      (fraction, (⟨pos + byteSize fraction, r⟩ : Cursor)) := by
  rcases h with rfl | ⟨hfirst, ds, rfl, hds⟩
  · split
    · rfl
    · rename_i hfirst
      have hno : Cursor.sees ⟨pos, r⟩ '.' = false := by
        rw [← Bool.not_eq_true]
        intro hsees
        rcases hp (by simpa [Cursor.sees] using hsees) with h | h
        · exact hfirst h
        · exact h rfl
      simp [fractionPart, hno]
  · rw [if_neg hfirst]
    simp [fractionPart, Cursor.takeWhile_append hds hr]
    omega

theorem exponentPart_text {exponent r : List Char}
    (h : exponent = [] ∨ ∃ e ds, (e = 'e' ∨ e = 'E') ∧ (∀ ch ∈ ds, isNumeral ch = true) ∧
      (exponent = e :: ds ∨ exponent = e :: '+' :: ds ∨ exponent = e :: '-' :: ds))
    (hr : ∀ ch, r.head? = some ch → isNumeral ch = false)
    (hm : exponent = [] → r.head? ≠ some 'e' ∧ r.head? ≠ some 'E')
    (hs : exponent.length = 1 → r.head? ≠ some '+' ∧ r.head? ≠ some '-') (pos : Nat) :
    exponentPart ⟨pos, exponent ++ r⟩ = (exponent, ⟨pos + byteSize exponent, r⟩) := by
  rcases h with rfl | ⟨e, ds, he, hds, hexp⟩
  · obtain ⟨h1, h2⟩ := hm rfl
    cases r with
    | nil => rfl
    | cons ch r =>
      have hch : (decide (ch = 'e') || decide (ch = 'E')) = false := by
        simp only [List.head?_cons, ne_eq, Option.some.injEq] at h1 h2
        simp [h1, h2]
      unfold exponentPart
      split <;> simp_all
  · rcases hexp with rfl | rfl | rfl
    · have hhead : (ds ++ r).head? ≠ some '+' ∧ (ds ++ r).head? ≠ some '-' := by
        cases ds with
        | nil => exact hs rfl
        | cons d ds =>
          have := hds d (by simp)
          constructor
          all_goals
            rintro hd
            obtain rfl := Option.some.inj hd
            simp [isNumeral] at this
      unfold exponentPart
      split
      · rename_i heq
        exact absurd (congrArg List.head? (List.cons.inj heq).2) hhead.1
      · rename_i heq
        exact absurd (congrArg List.head? (List.cons.inj heq).2) hhead.2
      · rename_i e' cs' _ _ hcs
        obtain ⟨rfl, rfl⟩ := List.cons.inj hcs
        simp [he, Cursor.takeWhile_append hds hr]
        omega
      · rename_i heq
        simp at heq
    all_goals
      simp only [exponentPart, List.cons_append]
      simp [he]
      simp [Cursor.drop, Cursor.takeWhile_append hds hr]
      omega

/-- The token of a decimal number whose parts have been read up to `c`. -/
def decimalToken (digits : List Char) (c : Cursor) : TokenKind × Cursor :=
  if c.sees 'n' then (.bigInt (String.ofList digits), c.advance)
  else
    match Decimal.read? digits with
    | some d => (.number (.ofDecimal d), c)
    | none => (.invalid (.invalidNumber (String.ofList digits)), c)

/-- The parts of a decimal number are read again in front of what ends it. -/
theorem decimalNumber_text {first : Char} {numerals fraction exponent r : List Char}
    (h : DecimalText first numerals fraction exponent) (hr : DecimalEnds first fraction exponent r)
    (pos : Nat) :
    decimalNumber first ⟨pos, numerals ++ fraction ++ exponent ++ r⟩ =
      decimalToken (dropUnderscores (first :: (numerals ++ fraction ++ exponent)))
        ⟨pos + byteSize (numerals ++ fraction ++ exponent), r⟩ := by
  have hfrac : ∀ ch, (exponent ++ r).head? = some ch → isNumeral ch = false := by
    intro ch hch
    rcases h.exponent with rfl | ⟨e, ds, he, -, hexp⟩
    · exact hr.numeral ch hch
    · have : (exponent ++ r).head? = some e := by rcases hexp with rfl | rfl | rfl <;> rfl
      obtain rfl := Option.some.inj (this.symm.trans hch)
      rcases he with rfl | rfl <;> rfl
  have hnum : ∀ ch, (fraction ++ (exponent ++ r)).head? = some ch → isNumeral ch = false := by
    intro ch hch
    rcases h.fraction with rfl | ⟨-, ds, rfl, -⟩
    · exact hfrac ch hch
    · obtain rfl := Option.some.inj hch
      rfl
  have hpoint : (exponent ++ r).head? = some '.' → first = '.' ∨ fraction ≠ [] := by
    intro hdot
    rcases h.exponent with rfl | ⟨e, ds, he, -, hexp⟩
    · simpa using hr.point hdot
    · have : (exponent ++ r).head? = some e := by rcases hexp with rfl | rfl | rfl <;> rfl
      obtain rfl := Option.some.inj (this.symm.trans hdot)
      simp at he
  have h1 := Cursor.takeWhile_append h.numerals hnum pos
  have h2 := fractionPart_text h.fraction hfrac hpoint (pos + byteSize numerals)
  have h3 := exponentPart_text h.exponent hr.numeral hr.mark hr.sign
    (pos + byteSize numerals + byteSize fraction)
  simp only [decimalNumber, List.append_assoc, h1, h2, h3]
  simp only [byteSize_append, Nat.add_assoc, List.cons_append]
  rfl

theorem decimalNumber_inv {first : Char} {c c' : Cursor} {k : TokenKind}
    (h : decimalNumber first c = (k, c')) :
    ∃ numerals fraction exponent next, DecimalText first numerals fraction exponent ∧
      c.Moves (numerals ++ fraction ++ exponent) next ∧
      decimalToken (dropUnderscores (first :: (numerals ++ fraction ++ exponent))) next = (k, c') ∧
      ∀ d, c.rest.head? = some d → isNumeral d = true → numerals.head? = some d := by
  have h1 := c.moves_takeWhile isNumeral
  have hnum : ∀ ch ∈ (c.takeWhile isNumeral).1, isNumeral ch = true :=
    List.all_eq_true.mp List.all_takeWhile
  have hhead : ∀ d, c.rest.head? = some d → isNumeral d = true →
      (c.takeWhile isNumeral).1.head? = some d := by
    intro d hd hn
    obtain ⟨cs, hcs⟩ := List.head?_eq_some_iff.mp hd
    simp [Cursor.takeWhile, hcs, hn]
  unfold decimalNumber at h
  generalize c.takeWhile isNumeral = read1 at h h1 hnum hhead
  obtain ⟨numerals, c1⟩ := read1
  dsimp only at h h1 hnum hhead
  have h2 := @fractionPart_inv first c1
  generalize (if first = '.' then ([], c1) else fractionPart c1) = read2 at h h2
  obtain ⟨fraction, c2⟩ := read2
  obtain ⟨hm2, hfrac⟩ := h2 rfl
  dsimp only at h
  have h3 := @exponentPart_inv c2
  generalize exponentPart c2 = read3 at h h3
  obtain ⟨exponent, c3⟩ := read3
  obtain ⟨hm3, hexp⟩ := h3 rfl
  refine ⟨numerals, fraction, exponent, c3, ⟨hnum, hfrac, hexp⟩, (h1.trans hm2).trans hm3, ?_, hhead⟩
  rw [← h]
  rfl

/-- What may stand behind the text of a number: nothing that continues a name, and no point if the
text has digits only. -/
def NumberEnds (text r : List Char) : Prop :=
  ∀ ch, r.head? = some ch → isIdContinue ch = false ∧ (ch = '.' → text.all isNumeral = false)

theorem DecimalText.all_isNumeral {first : Char} {numerals fraction exponent : List Char}
    (h : DecimalText first numerals fraction exponent) (hfirst : first.isDigit = true)
    (hf : fraction = []) (he : exponent = []) :
    (first :: (numerals ++ fraction ++ exponent)).all isNumeral = true := by
  subst hf he
  simp only [List.append_nil, List.all_cons, Bool.and_eq_true, List.all_eq_true]
  exact ⟨by simp [isNumeral, hfirst], h.numerals⟩

theorem DecimalText.ends {first : Char} {numerals fraction exponent r : List Char}
    (h : DecimalText first numerals fraction exponent) (hfirst : first.isDigit = true ∨ first = '.')
    (he : exponent.length ≠ 1) (hr : NumberEnds (first :: (numerals ++ fraction ++ exponent)) r) :
    DecimalEnds first fraction exponent r := by
  refine ⟨?_, ?_, ?_, fun h1 => absurd h1 he⟩
  · intro ch hch
    have := (hr ch hch).1
    rw [← Bool.not_eq_true] at this ⊢
    exact fun hn => this (isIdContinue_of_isNumeral hn)
  · intro hdot
    have hall := (hr '.' hdot).2 rfl
    rcases hfirst with hd | hd
    · rcases Classical.em (fraction = [] ∧ exponent = []) with ⟨hf, hx⟩ | hne
      · rw [h.all_isNumeral hd hf hx] at hall
        cases hall
      · by_cases hf : fraction = []
        · exact .inr (.inr fun hx => hne ⟨hf, hx⟩)
        · exact .inr (.inl hf)
    · exact .inl hd
  · intro _
    constructor
    all_goals
      intro hch
      have := (hr _ hch).1
      revert this
      decide

/-- Dropping underscores from a decimal number leaves one. -/
theorem DecimalText.plain {first : Char} {numerals fraction exponent : List Char}
    (h : DecimalText first numerals fraction exponent) :
    DecimalText first (dropUnderscores numerals) (dropUnderscores fraction)
      (dropUnderscores exponent) := by
  have hall : ∀ ds : List Char, (∀ ch ∈ ds, isNumeral ch = true) →
      ∀ ch ∈ dropUnderscores ds, isNumeral ch = true :=
    fun ds hds ch hch => hds ch (List.mem_filter.mp hch).1
  refine ⟨hall _ h.numerals, ?_, ?_⟩
  · rcases h.fraction with rfl | ⟨hfirst, ds, rfl, hds⟩
    · exact .inl rfl
    · exact .inr ⟨hfirst, _, rfl, hall _ hds⟩
  · rcases h.exponent with rfl | ⟨e, ds, he, hds, hexp⟩
    · exact .inl rfl
    · refine .inr ⟨e, _, he, hall _ hds, ?_⟩
      have hne : (e != '_') = true := by rcases he with rfl | rfl <;> rfl
      rcases hexp with rfl | rfl | rfl
      all_goals simp [dropUnderscores, hne]

theorem radixOf?_of_isNumeral {ch : Char} (h : isNumeral ch = true) : radixOf? ch = none := by
  unfold radixOf?
  split <;> first | rfl | simp [isNumeral] at h

/-- What follows the first character of a decimal number is no letter for a radix. -/
theorem DecimalText.radixOf?_head {first : Char} {numerals fraction exponent : List Char}
    (h : DecimalText first numerals fraction exponent) {ch : Char}
    (hch : (numerals ++ fraction ++ exponent).head? = some ch) : radixOf? ch = none := by
  cases numerals with
  | cons d ds =>
    obtain rfl := Option.some.inj hch
    exact radixOf?_of_isNumeral (h.numerals d (by simp))
  | nil =>
    rcases h.fraction with rfl | ⟨-, ds, rfl, -⟩
    · rcases h.exponent with rfl | ⟨e, ds, he, -, hexp⟩
      · cases hch
      · have : exponent.head? = some e := by rcases hexp with rfl | rfl | rfl <;> rfl
        obtain rfl := Option.some.inj (this.symm.trans hch)
        rcases he with rfl | rfl <;> rfl
    · obtain rfl := Option.some.inj hch
      rfl

/-- No number has an exponent of a mark alone. -/
theorem DecimalText.length_exponent {first : Char} {numerals fraction exponent : List Char}
    {d : Decimal} (h : DecimalText first numerals fraction exponent)
    (hd : Decimal.read? (dropUnderscores (first :: (numerals ++ fraction ++ exponent))) = some d) :
    exponent.length ≠ 1 := by
  intro hlen
  obtain ⟨e, rfl⟩ := List.length_eq_one_iff.mp hlen
  rcases h.exponent with hx | ⟨e', ds, he, -, hexp⟩
  · cases hx
  obtain rfl : e = e' := by rcases hexp with hexp | hexp | hexp <;> simp_all
  have hne : (e != '_') = true := by rcases he with rfl | rfl <;> rfl
  have hlast : dropUnderscores (first :: (numerals ++ fraction ++ [e])) =
      dropUnderscores (first :: (numerals ++ fraction)) ++ [e] := by
    simp [dropUnderscores, List.filter_cons, hne]
    split <;> simp
  rw [hlast, Decimal.read?_of_mark_last he] at hd
  cases hd

/-- A decimal number is read again in front of whatever ends a number. -/
theorem decimalNumber_takes {first : Char} (hfirst : first.isDigit = true ∨ first = '.')
    {c c' : Cursor} {v : Binary64} (h : decimalNumber first c = (.number v, c')) :
    ∃ w, c.Moves w c' ∧ (∀ ch, w.head? = some ch → radixOf? ch = none) ∧
      (∀ d, c.rest.head? = some d → d.isDigit = true → w.head? = some d) ∧
      ∀ r, NumberEnds (first :: w) r → Takes (decimalNumber first) w (.number v) r := by
  obtain ⟨numerals, fraction, exponent, next, htext, hm, hk, hhead⟩ := decimalNumber_inv h
  unfold decimalToken at hk
  split at hk
  · simp at hk
  split at hk
  · rename_i d hd
    obtain ⟨hv, rfl⟩ := Prod.mk.inj hk
    refine ⟨_, hm, fun ch => htext.radixOf?_head, ?_, ?_⟩
    · intro d hd hdigit
      have := hhead d hd (by simp [isNumeral, hdigit])
      rw [List.append_assoc, List.head?_append, this]
      rfl
    intro r hr pos
    rw [decimalNumber_text htext (htext.ends hfirst (htext.length_exponent hd) hr), decimalToken, hd]
    have hn : Cursor.sees ⟨pos + byteSize (numerals ++ fraction ++ exponent), r⟩ 'n' = false := by
      rw [← Bool.not_eq_true]
      intro hsees
      have := (hr 'n' (by simpa [Cursor.sees] using hsees)).1
      revert this
      decide
    rw [hn, ← hv]
    rfl
  · simp at hk

/-- The digits of a large decimal integer are read again as the same number. -/
theorem decimalNumber_bigInt {first : Char} (hfirst : first.isDigit = true ∨ first = '.')
    {c c' : Cursor} {digits : String} (h : decimalNumber first c = (.bigInt digits, c')) :
    ∃ w, digits.toList = first :: w ∧ (∀ ch, w.head? = some ch → radixOf? ch = none) ∧
      (∀ d, c.rest.head? = some d → d.isDigit = true → w.head? = some d) ∧
      ∀ r, Takes (decimalNumber first) (w ++ ['n']) (.bigInt digits) r := by
  obtain ⟨numerals, fraction, exponent, next, htext, hm, hk, hhead⟩ := decimalNumber_inv h
  unfold decimalToken at hk
  have hne : (first != '_') = true := by
    rcases hfirst with hd | rfl
    · rw [bne_iff_ne]
      rintro rfl
      revert hd
      decide
    · rfl
  split at hk
  · obtain ⟨hk, -⟩ := Prod.mk.inj hk
    obtain rfl := TokenKind.bigInt.inj hk
    have hdrop : ∀ xs, dropUnderscores (first :: xs) = first :: dropUnderscores xs := by
      intro xs
      simp [dropUnderscores, hne]
    have hsplit : ∀ xs ys, dropUnderscores (xs ++ ys) = dropUnderscores xs ++ dropUnderscores ys :=
      fun xs ys => List.filter_append ..
    have hagain : ∀ xs, dropUnderscores (dropUnderscores xs) = dropUnderscores xs :=
      fun xs => by simp [dropUnderscores]
    refine ⟨dropUnderscores (numerals ++ fraction ++ exponent), by rw [String.toList_ofList, hdrop], ?_, ?_, ?_⟩
    · intro ch hch
      simp only [hsplit] at hch
      exact htext.plain.radixOf?_head hch
    · intro d hd hdigit
      obtain ⟨ds, hds⟩ := List.head?_eq_some_iff.mp (hhead d hd (by simp [isNumeral, hdigit]))
      have hne : (d != '_') = true := by
        rw [bne_iff_ne]
        rintro rfl
        revert hdigit
        decide
      simp [hds, dropUnderscores, hne]
    intro r pos
    have hends : DecimalEnds first (dropUnderscores fraction) (dropUnderscores exponent) ('n' :: r) := by
      refine ⟨?_, ?_, ?_, ?_⟩ <;> simp [isNumeral]
    have hread := decimalNumber_text htext.plain hends pos
    rw [hdrop] at hread ⊢
    simp only [hsplit, hagain] at hread ⊢
    rw [List.append_assoc _ ['n'] r, List.singleton_append, hread]
    simp [decimalToken]
    omega
  · split at hk <;> simp at hk

theorem isIdContinue_of_isDigitOf {radix : Nat} {ch : Char} (h : isDigitOf radix ch = true) :
    isIdContinue ch = true := by
  have hv : ∃ v, digitValue? ch = some v := by
    unfold isDigitOf at h
    split at h
    · exact ⟨_, by assumption⟩
    · cases h
  obtain ⟨v, hv⟩ := hv
  have hn : (48 ≤ ch.toNat ∧ ch.toNat ≤ 57) ∨ (97 ≤ ch.toNat ∧ ch.toNat ≤ 102) ∨
      (65 ≤ ch.toNat ∧ ch.toNat ≤ 70) := by
    simp only [digitValue?] at hv
    grind
  have hlt : ch.toNat < 128 := by omega
  have halnum : ch.isAlphanum = true := by
    delta Char.isAlphanum Char.isAlpha Char.isUpper Char.isLower Char.isDigit
    simp only [Bool.or_eq_true, Bool.and_eq_true, decide_eq_true_eq, ge_iff_le,
      UInt32.le_iff_toNat_le]
    simp
    omega
  simp [isIdContinue, hlt, halnum]

/-- Whether a character stands in a number of a radix. -/
def isRadixNumeral (radix : Nat) (ch : Char) : Bool := isDigitOf radix ch || ch == '_'

theorem isIdContinue_of_isRadixNumeral {radix : Nat} {ch : Char}
    (h : isRadixNumeral radix ch = true) : isIdContinue ch = true := by
  simp only [isRadixNumeral, Bool.or_eq_true, beq_iff_eq] at h
  rcases h with h | rfl
  · exact isIdContinue_of_isDigitOf h
  · decide

/-- The token of a number of a radix whose numerals have been read up to `c`. -/
def radixToken (radix : Nat) (letter : Char) (numerals : List Char) (c : Cursor) :
    TokenKind × Cursor :=
  let digits := dropUnderscores numerals
  let text := String.ofList ('0' :: letter :: digits)
  let value := readDigits radix digits
  if c.sees 'n' then (.bigInt text, c.advance)
  else if digits.isEmpty || Nat.pow 2 64 ≤ value then (.invalid (.invalidNumber text), c)
  else (.number (.ofNat value), c)

theorem radixNumber_eq (radix : Nat) (letter : Char) (c : Cursor) :
    radixNumber radix letter c =
      radixToken radix letter (c.takeWhile (isRadixNumeral radix)).1
        (c.takeWhile (isRadixNumeral radix)).2 := rfl

/-- A number of a radix is read again in front of whatever ends a name. -/
theorem radixNumber_takes {radix : Nat} {letter : Char} {c c' : Cursor} {v : Binary64}
    (h : radixNumber radix letter c = (.number v, c')) :
    ∃ w, c.Moves w c' ∧ ∀ r, (∀ ch, r.head? = some ch → isIdContinue ch = false) →
      Takes (radixNumber radix letter) w (.number v) r := by
  have hm := c.moves_takeWhile (isRadixNumeral radix)
  have hread := takeWhile_takes (isRadixNumeral radix) c
  rw [radixNumber_eq] at h
  generalize c.takeWhile (isRadixNumeral radix) = taken at h hm hread
  obtain ⟨numerals, next⟩ := taken
  dsimp only at h hm hread
  unfold radixToken at h
  dsimp only at h
  split at h
  · simp at h
  split at h
  · simp at h
  rename_i hbig
  obtain ⟨hv, rfl⟩ := Prod.mk.inj h
  refine ⟨numerals, hm, ?_⟩
  intro r hr pos
  have hstop : ∀ ch, r.head? = some ch → isRadixNumeral radix ch = false := by
    intro ch hch
    rw [← Bool.not_eq_true]
    intro hn
    have := hr ch hch
    rw [isIdContinue_of_isRadixNumeral hn] at this
    cases this
  have hn : Cursor.sees ⟨pos + byteSize numerals, r⟩ 'n' = false := by
    rw [← Bool.not_eq_true]
    intro hsees
    have := hr 'n' (by simpa [Cursor.sees] using hsees)
    revert this
    decide
  have hread := hread r hstop pos
  dsimp only at hread
  rw [radixNumber_eq, hread]
  simp only [radixToken, hn, Bool.false_eq_true, if_false, if_neg hbig, hv]

/-- The digits of a large integer of a radix are read again as the same number. -/
theorem radixNumber_bigInt {radix : Nat} {letter : Char} {c c' : Cursor} {digits : String}
    (h : radixNumber radix letter c = (.bigInt digits, c')) :
    ∃ w, digits.toList = '0' :: letter :: w ∧
      ∀ r, Takes (radixNumber radix letter) (w ++ ['n']) (.bigInt digits) r := by
  have hall : ∀ ch ∈ (c.takeWhile (isRadixNumeral radix)).1, isRadixNumeral radix ch = true :=
    List.all_eq_true.mp List.all_takeWhile
  rw [radixNumber_eq] at h
  generalize c.takeWhile (isRadixNumeral radix) = taken at h hall
  obtain ⟨numerals, next⟩ := taken
  dsimp only at h hall
  unfold radixToken at h
  dsimp only at h
  split at h
  · obtain ⟨hk, -⟩ := Prod.mk.inj h
    obtain rfl := TokenKind.bigInt.inj hk
    refine ⟨dropUnderscores numerals, String.toList_ofList .., ?_⟩
    intro r pos
    have hdrop : ∀ ch ∈ dropUnderscores numerals, isRadixNumeral radix ch = true :=
      fun ch hch => hall ch (List.mem_filter.mp hch).1
    have hread := Cursor.takeWhile_append (r := 'n' :: r) hdrop
      (by simp [isRadixNumeral, isDigitOf, digitValue?]) pos
    rw [List.append_assoc, List.singleton_append, radixNumber_eq, hread]
    have hagain : dropUnderscores (dropUnderscores numerals) = dropUnderscores numerals := by
      simp [dropUnderscores]
    simp [radixToken, hagain]
    omega
  · split at h <;> simp at h

theorem NumberEnds.isIdContinue {text r : List Char} (h : NumberEnds text r) :
    ∀ ch, r.head? = some ch → isIdContinue ch = false := fun ch hch => (h ch hch).1

theorem isIdContinue_of_radixOf? {letter : Char} {radix : Nat} (h : radixOf? letter = some radix) :
    isIdContinue letter = true := by
  unfold radixOf? at h
  split at h <;> first | decide | cases h

/-- A number that is no number of a radix is read as a decimal one. -/
theorem number_eq_decimalNumber {first : Char} {pos : Nat} {cs : List Char}
    (h : ∀ ch, cs.head? = some ch → radixOf? ch = none) :
    number first ⟨pos, cs⟩ = decimalNumber first ⟨pos, cs⟩ := by
  unfold number
  split
  · rename_i letter hpeek
    rw [h letter hpeek]
  · rfl

/-- A number is read again in front of whatever ends a number. -/
theorem number_takes {first : Char} (hfirst : first.isDigit = true ∨ first = '.') {c c' : Cursor}
    {v : Binary64} (h : number first c = (.number v, c')) :
    ∃ w, c.Moves w c' ∧
      (first = '.' → ∀ d, c.rest.head? = some d → d.isDigit = true → w.head? = some d) ∧
      ∀ r, NumberEnds (first :: w) r → Takes (number first) w (.number v) r := by
  have hdec : decimalNumber first c = (.number v, c') →
      ∃ w, c.Moves w c' ∧
        (first = '.' → ∀ d, c.rest.head? = some d → d.isDigit = true → w.head? = some d) ∧
        ∀ r, NumberEnds (first :: w) r → Takes (number first) w (.number v) r := by
    intro h
    obtain ⟨w, hm, hhead, hdigit, htake⟩ := decimalNumber_takes hfirst h
    refine ⟨w, hm, fun _ => hdigit, ?_⟩
    intro r hr pos
    rw [number_eq_decimalNumber, htake r hr]
    intro ch hch
    cases w with
    | cons d w => exact hhead ch hch
    | nil =>
      cases hx : radixOf? ch with
      | none => rfl
      | some radix =>
        have := (hr ch hch).1
        rw [isIdContinue_of_radixOf? hx] at this
        cases this
  unfold number at h
  split at h
  · rename_i letter hpeek
    split at h
    · rename_i radix hradix
      split at h
      · rename_i hzero
        subst hzero
        obtain ⟨w, hm, htake⟩ := radixNumber_takes h
        obtain ⟨cs, hcs⟩ := List.head?_eq_some_iff.mp hpeek
        refine ⟨_, (Cursor.moves_advance hcs).trans hm, by simp, ?_⟩
        intro r hr pos
        have hread := htake r hr.isIdContinue (pos + letter.utf8Size)
        simp only [number, List.cons_append, List.nil_append, Cursor.peek_mk, List.head?_cons,
          hradix, if_true, Cursor.advance_cons, hread]
        simp
        omega
      · exact hdec h
    · exact hdec h
  · exact hdec h

/-- The digits of a large integer are read again as the same number. -/
theorem number_bigInt {first : Char} (hfirst : first.isDigit = true ∨ first = '.') {c c' : Cursor}
    {digits : String} (h : number first c = (.bigInt digits, c')) :
    ∃ w, digits.toList = first :: w ∧
      (first = '.' → ∀ d, c.rest.head? = some d → d.isDigit = true → w.head? = some d) ∧
      ∀ r, Takes (number first) (w ++ ['n']) (.bigInt digits) r := by
  have hdec : decimalNumber first c = (.bigInt digits, c') →
      ∃ w, digits.toList = first :: w ∧
        (first = '.' → ∀ d, c.rest.head? = some d → d.isDigit = true → w.head? = some d) ∧
        ∀ r, Takes (number first) (w ++ ['n']) (.bigInt digits) r := by
    intro h
    obtain ⟨w, hdigits, hhead, hdigit, htake⟩ := decimalNumber_bigInt hfirst h
    refine ⟨w, hdigits, fun _ => hdigit, ?_⟩
    intro r pos
    rw [number_eq_decimalNumber, htake r]
    intro ch hch
    cases w with
    | cons d w => exact hhead ch hch
    | nil =>
      obtain rfl := Option.some.inj hch
      rfl
  unfold number at h
  split at h
  · rename_i letter hpeek
    split at h
    · rename_i radix hradix
      split at h
      · rename_i hzero
        subst hzero
        obtain ⟨w, hdigits, htake⟩ := radixNumber_bigInt h
        refine ⟨letter :: w, hdigits, by simp, ?_⟩
        intro r pos
        have hread := htake r (pos + letter.utf8Size)
        simp only [number, List.cons_append, Cursor.peek_mk, List.head?_cons, hradix, if_true,
          Cursor.advance_cons, hread]
        simp
        omega
      · exact hdec h
    · exact hdec h
  · exact hdec h

end EsModule.Syntax
