import EsModule.Proofs.Printing.Phrase
import EsModule.Proofs.SourceMap.Faithful

/-!
# Printed operator expressions are phrases

`Node.IsOperation` says which trees are operator expressions, whatever their numbers and spans, and
whether or not any source is read as such a tree. Each of them is printed as a phrase that is as
tight as its place asks (`Node.IsOperation.prints`): every place asks its operand for the level that
keeps it whole, and what is looser gets parentheses.

Where no space stands behind an operator in front, its operand starts with a character that makes no
longer operator (`markEnds_operand`).
-/

namespace EsModule.Syntax

open EsModule.Text Pieces

/-! ## The trees -/

/-- The trees of names, members, calls and operators. -/
inductive Node.IsOperation : Node → Prop where
  | name {id span name} (h : IsOwnName name) : IsOperation (.mk id span (.identifier name))
  | member {id span id' span' object name} (ho : IsOperation object) (h : IsOwnName name) :
      IsOperation (.mk id span
        (.memberExpression object (.mk id' span' (.identifier name)) false false))
  | computed {id span object property} (ho : IsOperation object) (hp : IsOperation property) :
      IsOperation (.mk id span (.memberExpression object property true false))
  | call {id span callee arguments} (hc : IsOperation callee)
      (ha : ∀ a ∈ arguments, IsOperation a) :
      IsOperation (.mk id span (.callExpression callee arguments false))
  | unary {id span operator argument} (h : IsOperation argument) :
      IsOperation (.mk id span (.unaryExpression operator argument))
  | update {id span operator inFront target} (h : IsOperation target)
      (ht : target.isSimpleTarget = true) :
      IsOperation (.mk id span (.updateExpression operator inFront target))
  | binary {id span operator left right} (hl : IsOperation left) (hr : IsOperation right) :
      IsOperation (.mk id span (.binaryExpression operator left right))
  | conditional {id span test consequent alternate} (ht : IsOperation test)
      (hc : IsOperation consequent) (ha : IsOperation alternate) :
      IsOperation (.mk id span (.conditionalExpression test consequent alternate))
  | assignment {id span operator target value} (ht : IsOperation target)
      (hs : target.isSimpleTarget = true) (hv : IsOperation value) :
      IsOperation (.mk id span (.assignmentExpression operator target value))
  | sequence {id span expressions} (hlen : 2 ≤ expressions.length)
      (h : ∀ e ∈ expressions, IsOperation e) :
      IsOperation (.mk id span (.sequenceExpression expressions))

/-! ## Characters -/

/-- The characters of printed pieces. -/
def Pieces.chars (ps : Pieces) : List Char := ps.text.toList

@[simp] theorem chars_append (p q : Pieces) : (p ++ q : Pieces).chars = p.chars ++ q.chars := by
  rw [chars, SourceMap.text_append, String.toList_append]
  rfl

@[simp] theorem chars_say (s : String) : (say s).chars = s.toList := by
  simp [chars, say, Pieces.text, String.join]

@[simp] theorem chars_nil : Pieces.chars [] = [] := rfl

@[simp] theorem chars_mark (span : Span) : (mark span).chars = [] := by
  unfold mark
  split <;> rfl

@[simp] theorem chars_parenthesized (p : Pieces) :
    (parenthesized p).chars = '(' :: (p.chars ++ [')']) := by
  simp [parenthesized]

theorem Kind.tightness_map {α β : Type} (f : α → β) (kind : Kind α) :
    (kind.map f).tightness = kind.tightness := by
  cases kind <;> rfl

theorem Tightness.binary_le (operator : BinaryOperator) : binary operator ≤ primary := by
  cases operator <;> decide

theorem Kind.tightness_le {α : Type} (kind : Kind α) : kind.tightness ≤ Tightness.primary := by
  unfold tightness
  split
  case h_6 operator _ _ => exact Tightness.binary_le operator
  case h_9 => split <;> decide
  all_goals decide

/-! ## Writing -/

namespace Writes

variable {t u : List Char} {xs ys : List Lexeme} {B : List Char → Prop}

theorem parens (h : Writes t xs NameEnds) : Writes ('(' :: (t ++ [')'])) (inParens xs) B := by
  have hopen : Writes ['('] [.mark .leftParen] Anything := closed rfl
  have hclose : Writes [')'] [.mark .rightParen] Anything := closed rfl
  have hbehind : ∀ r, Anything r → NameEnds ([')'] ++ r) := fun r _ => nameEnds_cons (by decide) r
  exact (hopen.append (h.append hclose hbehind) fun _ _ => trivial).mono fun _ _ => trivial

theorem brackets (h : Writes t xs NameEnds) : Writes ('[' :: (t ++ [']'])) (inBrackets xs) B := by
  have hopen : Writes ['['] [.mark .leftBracket] Anything := closed rfl
  have hclose : Writes [']'] [.mark .rightBracket] Anything := closed rfl
  have hbehind : ∀ r, Anything r → NameEnds ([']'] ++ r) := fun r _ => nameEnds_cons (by decide) r
  exact (hopen.append (h.append hclose hbehind) fun _ _ => trivial).mono fun _ _ => trivial

/-- Two texts with an operator between them that has spaces on both sides. -/
theorem around {operator : List Char} {x y : Lexeme} (h : Writes t xs NameEnds)
    (hop : Writes operator [x] AfterSpace) (h' : Writes u (y :: ys) B) :
    Writes (t ++ ' ' :: (operator ++ ' ' :: u)) (xs ++ x :: y :: ys) B :=
  h.append (hop.space.append h'.space fun _ _ => rfl) fun _ _ => nameEnds_space _

theorem spacedWord (word : Keyword) : Writes word.text.toList [.word word] AfterSpace := by
  refine (Writes.word word).mono fun r hr => ?_
  obtain ⟨r, rfl⟩ := hr.exists
  exact nameEnds_space r

theorem binaryOperator (operator : BinaryOperator) :
    Writes operator.text.toList [.of operator.token] AfterSpace := by
  have htoken : (∃ mark, operator.token = .punctuator mark) ∨
      ∃ word, operator.token = .keyword word := by
    cases operator <;> first | exact .inl ⟨_, rfl⟩ | exact .inr ⟨_, rfl⟩
  unfold BinaryOperator.text
  rcases htoken with ⟨mark, h⟩ | ⟨word, h⟩
  · rw [h]
    exact spaced mark
  · rw [h]
    exact spacedWord word

theorem unaryOperator {operator : UnaryOperator}
    (h : ∀ mark, operator.token = .punctuator mark → ∀ r, B r → MarkEnds mark r)
    (h' : operator.isKeyword = true → ∀ r, B r → NameEnds r) :
    Writes operator.text.toList [.of operator.token] B := by
  have htoken : (∃ mark, operator.token = .punctuator mark) ∨
      ∃ word, operator.token = .keyword word := by
    cases operator <;> first | exact .inl ⟨_, rfl⟩ | exact .inr ⟨_, rfl⟩
  unfold UnaryOperator.isKeyword at h'
  unfold UnaryOperator.text
  rcases htoken with ⟨mark, hk⟩ | ⟨word, hk⟩
  · rw [hk]
    exact token fun r hr => isToken_punctuator (h mark hk r hr)
  · rw [hk] at h' ⊢
    exact (Writes.word word).mono (h' rfl)

end Writes

/-! ## Operators in front -/

/-- The text of some lexemes is not empty. -/
theorem Writes.ne_nil {t : List Char} {x : Lexeme} {xs : List Lexeme}
    (h : Writes t (x :: xs) NameEnds) (hx : x.kind.opens = true) : t ≠ [] := by
  rintro rfl
  have hfits := (h 0 [] nofun).1.1
  have hnext : nextToken ⟨0, []⟩ = (⟨.eof, ⟨0, 0⟩, false⟩, ⟨0, []⟩) := by
    rw [nextToken_eq, skipTrivia_of_none rfl]
    rfl
  rw [List.append_nil, hnext] at hfits
  exact TokenKind.ne_of_opens hx rfl hfits.symm

/-- What starts with the character of an operator is read as an operator with that character. -/
theorem Writes.head_operator {ch : Char} {cs : List Char} {x : Lexeme} {xs : List Lexeme}
    (h : Writes (ch :: cs) (x :: xs) NameEnds) (hx : x.kind.opens = true)
    (hch : ch = '=' ∨ ch = '-' ∨ ch = '+') :
    ∃ mark, x.kind = .punctuator mark ∧ mark.text.toList.head? = some ch := by
  have hfits := (h 0 [] nofun).1.1
  have hskip : skipOne? ⟨0, ch :: cs ++ []⟩ = none := by
    rcases hch with rfl | rfl | rfl
    · exact skipOne?_of_head (by decide) (by decide) (by decide)
    · exact skipOne?_of_head (by decide) (by decide) (by decide)
    · exact skipOne?_of_head (by decide) (by decide) (by decide)
  rw [nextToken_eq, skipTrivia_of_none hskip] at hfits
  obtain ⟨c, hc⟩ : ∃ c, tokenHere ⟨0, ch :: cs ++ []⟩ = (x.kind, c) := ⟨_, Prod.ext hfits rfl⟩
  obtain ⟨first, rest, hrest, hby⟩ := tokenHere_by hc (TokenKind.ne_of_opens hx rfl)
  obtain ⟨rfl, -⟩ := List.cons.inj hrest
  have hstart : isIdStart ch = false := by
    rcases hch with rfl | rfl | rfl <;> decide
  generalize hk : x.kind = kind at hby hx
  cases hby with
  | punctuator hlongest =>
    refine ⟨_, rfl, ?_⟩
    have hstarts := List.find?_some hlongest
    simp only [Punctuator.startsAt, Bool.and_eq_true, List.isPrefixOf_iff_prefix] at hstarts
    obtain ⟨more, hmore⟩ := hstarts.1
    rename_i mark
    obtain ⟨c, cs', htext, -⟩ := mark.head_text
    rw [htext] at hmore ⊢
    exact congrArg some (List.cons.inj hmore).1
  | keyword hf _ | identifier hf _ =>
    rw [hstart] at hf
    cases hf
  | string | template | number | bigInt | privateName | invalid => cases hx

/-- What makes a longer operator of one that stands in front of an operand. -/
theorem UnaryOperator.of_extendedBy {operator : UnaryOperator} {mark : Punctuator} {ch : Char}
    (h : operator.token = .punctuator mark) (hext : mark.extendedBy ch = true) :
    ch = '=' ∨ operator = .minus ∧ ch = '-' ∨ operator = .plus ∧ ch = '+' := by
  obtain ⟨p, -, hp⟩ := List.any_eq_true.mp hext
  obtain ⟨more, hmore⟩ := List.isPrefixOf_iff_prefix.mp hp
  cases operator <;> cases h <;> cases p <;> simp_all [Punctuator.text]

/-- The sign of an operator in front is that of no other token that a phrase starts with, but of the
update with that sign. -/
theorem UnaryOperator.eq_of_sign {operator operator' : UnaryOperator} {mark : Punctuator}
    (h : operator'.token = .punctuator mark)
    (hsign : operator = .minus ∧ mark.text.toList.head? = some '-' ∨
      operator = .plus ∧ mark.text.toList.head? = some '+') : operator' = operator := by
  rcases hsign with ⟨rfl, hsign⟩ | ⟨rfl, hsign⟩ <;> cases operator' <;> cases h <;>
    first | rfl | exact absurd hsign (by decide)

theorem Punctuator.head_ne_equal {mark : Punctuator}
    (h : (TokenKind.punctuator mark).opens = true) :
    mark.text.toList.head? ≠ some '=' := by
  cases mark <;> first | decide | cases h

/-- Where no space stands behind an operator, its operand starts with a character that makes no
longer operator of it. -/
theorem markEnds_operand {operator : UnaryOperator} {mark : Punctuator} {k : Nat} {noIn : Bool}
    {t : List Char} {xs : List Lexeme} {e : Node} (hop : operator.token = .punctuator mark)
    (hp : Phrase k noIn xs e) (hk : Tightness.unary ≤ k) (ht : Writes t xs NameEnds)
    (hspace : needsSpace operator e.kind = false) (r : List Char) : MarkEnds mark (t ++ r) := by
  obtain ⟨x, xs, rfl, hfront⟩ := hp.front hk
  have hx : x.kind.opens = true := by
    obtain ⟨y, ys, heq, hy⟩ := hp.starts.opens
    rw [(List.cons.inj heq).1]
    exact hy
  obtain ⟨c, cs, rfl⟩ := List.exists_cons_of_ne_nil (ht.ne_nil hx)
  refine ⟨?_, ?_, ?_⟩
  · intro ch hch
    obtain rfl : c = ch := Option.some.inj hch
    rw [← Bool.not_eq_true]
    intro hext
    have hch := UnaryOperator.of_extendedBy hop hext
    obtain ⟨mark', hmark', hhead⟩ :=
      ht.head_operator hx (hch.imp_right (Or.imp And.right And.right))
    have hsign : operator = .minus ∧ mark'.text.toList.head? = some '-' ∨
        operator = .plus ∧ mark'.text.toList.head? = some '+' := by
      rcases hch with rfl | ⟨rfl, rfl⟩ | ⟨rfl, rfl⟩
      · exact absurd hhead (Punctuator.head_ne_equal (hmark' ▸ hx))
      · exact .inl ⟨rfl, hhead⟩
      · exact .inr ⟨rfl, hhead⟩
    rcases hfront with (⟨name, hname⟩ | hparen) | ⟨operator', a, he, hx'⟩ | ⟨operator', a, he, -⟩
    · rw [hname] at hmark'
      cases hmark'
    · rw [hparen] at hmark'
      cases hmark'
      rcases hsign with ⟨-, h⟩ | ⟨-, h⟩ <;> exact absurd h (by decide)
    · obtain rfl := UnaryOperator.eq_of_sign (hx'.symm.trans hmark') hsign
      rw [he] at hspace
      rcases hsign with ⟨rfl, -⟩ | ⟨rfl, -⟩ <;> cases hspace
    · rw [he] at hspace
      rcases hsign with ⟨rfl, -⟩ | ⟨rfl, -⟩ <;> cases hspace
  · rintro rfl
    cases operator <;> cases hop
  · rintro (rfl | rfl) <;> cases operator <;> cases hop

/-! ## Expressions in their places -/

/-- Whether a kind of expression is an `in`. -/
def Kind.isIn {α : Type} : Kind α → Bool
  | .binaryExpression .isIn _ _ => true
  | _ => false

theorem Kind.isIn_map {α β : Type} (f : α → β) (kind : Kind α) : (kind.map f).isIn = kind.isIn := by
  cases kind with
  | binaryExpression operator => cases operator <;> rfl
  | _ => rfl

theorem wrapped_eq {α : Type} (kind : Kind α) (bare : Layout → Pieces) (l : Layout) (least : Nat) :
    wrapped kind bare l least =
      if (l.noIn && kind.isIn || decide (kind.tightness < least)) = true then
        Pieces.parenthesized (bare { l with noIn := false })
      else bare l := by
  cases kind with
  | binaryExpression operator => cases operator <;> rfl
  | _ => rfl

/-- Without parentheses around it, the expression is printed as a phrase of its own level. -/
def WritesBare (e : Node) : Prop :=
  ∀ l : Layout, (l.noIn && e.kind.isIn) = false →
    ∃ xs, Phrase e.kind.tightness l.noIn xs e ∧
      Writes (bareText (e.kind.map fun c => (c, c.roles)) l).chars xs NameEnds

/-- In every place the expression is printed as a phrase that is as tight as the place asks and as
the expression is. -/
def WritesPhrase (e : Node) : Prop :=
  ∀ (l : Layout) (least : Nat), least ≤ Tightness.primary →
    ∃ k xs, least ≤ k ∧ e.kind.tightness ≤ k ∧ Phrase k l.noIn xs e ∧
      Writes (e.roles.expression l least).chars xs NameEnds

theorem Roles.expression_ofKind (span : Span) (kind : Kind Child) :
    (Roles.ofKind span kind).expression = wrapped kind fun l => mark span ++ bareText kind l := rfl

theorem chars_expression (e : Node) (l : Layout) (least : Nat) :
    (e.roles.expression l least).chars =
      if (l.noIn && e.kind.isIn) = true ∨ e.kind.tightness < least then
        '(' :: ((bareText (e.kind.map fun c => (c, c.roles)) { l with noIn := false }).chars ++
          [')'])
      else (bareText (e.kind.map fun c => (c, c.roles)) l).chars := by
  rw [Node.roles_eq, Roles.expression_ofKind, wrapped_eq, Kind.isIn_map, Kind.tightness_map]
  simp only [Bool.or_eq_true, decide_eq_true_eq]
  split
  · simp
  · simp

theorem chars_name (id : Nat) (span : Span) (name : String) (l : Layout) :
    ((Node.mk id span (.identifier name)).roles.expression l Tightness.primary).chars =
      name.toList := by
  rw [chars_expression, if_neg]
  · exact chars_say name
  · simp [Node.kind, Kind.isIn, Kind.tightness]

theorem WritesBare.prints {e : Node} (h : WritesBare e) : WritesPhrase e := by
  intro l least hleast
  rw [chars_expression]
  split
  · obtain ⟨xs, hp, hw⟩ := h { l with noIn := false } rfl
    exact ⟨_, _, hleast, e.kind.tightness_le, .parens hp, hw.parens⟩
  · rename_i hno
    rw [not_or, Bool.not_eq_true, Nat.not_lt] at hno
    obtain ⟨xs, hp, hw⟩ := h l hno.1
    exact ⟨_, _, hno.2, Nat.le_refl _, hp, hw⟩

theorem WritesPhrase.operand {e : Node} (h : WritesPhrase e) (parent : BinaryOperator)
    (l : Layout) {least : Nat} (hleast : least ≤ Tightness.primary) :
    ∃ k xs, least ≤ k ∧ Phrase k l.noIn xs e ∧
      Writes (operandText parent l (e, e.roles) least).chars xs NameEnds := by
  unfold operandText
  split
  · obtain ⟨k, xs, -, -, hp, hw⟩ := h l Tightness.sequence (Nat.zero_le _)
    rw [chars_parenthesized]
    exact ⟨_, _, hleast, .parens hp, hw.parens⟩
  · obtain ⟨k, xs, hk, -, hp, hw⟩ := h l least hleast
    exact ⟨k, xs, hk, hp, hw⟩

theorem chars_expressionList (l : Layout) (e : Node) (es : List Node) :
    (expressionList l ((e :: es).map fun c => (c, c.roles))).chars =
      (e.roles.expression l Tightness.assign).chars ++
        es.flatMap fun e => ',' :: ' ' :: (e.roles.expression l Tightness.assign).chars := by
  induction es generalizing e with
  | nil => simp [expressionList, commaList]
  | cons e' es ih =>
    have hcons : (expressionList l ((e :: e' :: es).map fun c => (c, c.roles))).chars =
        (e.roles.expression l Tightness.assign).chars ++ ", ".toList ++
          (expressionList l ((e' :: es).map fun c => (c, c.roles))).chars := by
      simp [expressionList, commaList]
    rw [hcons, ih]
    simp

/-! ### Lists -/

/-- The expressions are printed one behind the other, each with a comma in front of it. -/
theorem exists_parts_behind {es : List Node} (h : ∀ e ∈ es, WritesPhrase e) (l : Layout) :
    ∃ parts : List Part, parts.map (·.node) = es ∧
      (∀ a ∈ parts, Tightness.assign ≤ a.level ∧ Phrase a.level l.noIn a.lexemes a.node) ∧
      Writes (es.flatMap fun e => ',' :: ' ' :: (e.roles.expression l Tightness.assign).chars)
        ((parts.map (·.lexemes)).flatMap (.mark .comma :: ·)) NameEnds := by
  induction es with
  | nil => exact ⟨[], rfl, List.forall_mem_nil _, .nil⟩
  | cons e es ih =>
    obtain ⟨k, xs, hk, -, hp, hw⟩ := h e List.mem_cons_self l Tightness.assign (by decide)
    obtain ⟨parts, hnodes, hparts, hrest⟩ := ih fun e he => h e (List.mem_cons_of_mem _ he)
    refine ⟨⟨k, xs, e⟩ :: parts, congrArg (e :: ·) hnodes,
      List.forall_mem_cons.mpr ⟨⟨hk, hp⟩, hparts⟩, ?_⟩
    obtain ⟨x, xs, rfl, -⟩ := hp.starts.opens
    have hcomma : Writes [','] [.mark .comma] Anything := Writes.closed rfl
    refine (hcomma.append hw.space fun _ _ => trivial).append hrest fun r hr => ?_
    cases es with
    | nil => exact hr
    | cons e es => exact nameEnds_cons (by decide) _

/-- Expressions with commas between them are printed as phrases with commas between them. -/
theorem exists_parts {es : List Node} (h : ∀ e ∈ es, WritesPhrase e) (l : Layout) :
    ∃ parts : List Part, parts.map (·.node) = es ∧
      (∀ a ∈ parts, Tightness.assign ≤ a.level ∧ Phrase a.level l.noIn a.lexemes a.node) ∧
      Writes (expressionList l (es.map fun c => (c, c.roles))).chars
        (commaJoin (parts.map (·.lexemes))) NameEnds := by
  cases es with
  | nil => exact ⟨[], rfl, List.forall_mem_nil _, .nil⟩
  | cons e es =>
    obtain ⟨k, xs, hk, -, hp, hw⟩ := h e List.mem_cons_self l Tightness.assign (by decide)
    obtain ⟨parts, hnodes, hparts, hrest⟩ :=
      exists_parts_behind (fun e he => h e (List.mem_cons_of_mem _ he)) l
    refine ⟨⟨k, xs, e⟩ :: parts, congrArg (e :: ·) hnodes,
      List.forall_mem_cons.mpr ⟨⟨hk, hp⟩, hparts⟩, ?_⟩
    rw [chars_expressionList]
    refine hw.append hrest fun r hr => ?_
    cases es with
    | nil => exact hr
    | cons e es => exact nameEnds_cons (by decide) _

/-! ### Each form of expression -/

theorem Node.kind_mk (id : Nat) (span : Span) (kind : Kind Node) :
    (Node.mk id span kind).kind = kind := rfl

theorem markEnds_dot_name {name : String} (h : IsOwnName name) (r : List Char) :
    MarkEnds .dot (name.toList ++ r) := by
  obtain ⟨ch, cs, hname, hstart⟩ : ∃ ch cs, name.toList = ch :: cs ∧ isIdStart ch = true := by
    have hident := h.1
    generalize name.toList = chars at hident
    cases chars with
    | nil => cases hident
    | cons ch cs => exact ⟨ch, cs, rfl, (Bool.and_eq_true_iff.mp hident).1⟩
  obtain ⟨-, -, -, hdigit, hdot, -⟩ := isIdStart_ne hstart
  rw [hname]
  refine ⟨?_, nofun, ?_⟩
  · rintro ch' hch
    obtain rfl : ch = ch' := Option.some.inj hch
    rw [← Bool.not_eq_true]
    intro hext
    obtain ⟨p, -, hp⟩ := List.any_eq_true.mp hext
    cases p <;> simp_all [Punctuator.text]
  · rintro - ch' hch
    obtain rfl : ch = ch' := Option.some.inj hch
    exact hdigit

theorem Node.IsOperation.isBareInteger {e : Node} (h : e.IsOperation) :
    isBareInteger e.kind = false := by
  cases h <;> rfl

theorem Node.call_le_tightness {e : Node} (h : e.isSimpleTarget = true) :
    Tightness.call ≤ e.kind.tightness := by
  unfold isSimpleTarget at h
  split at h <;> simp_all [Kind.tightness, Tightness.call, Tightness.primary]

namespace WritesBare

variable {id : Nat} {span : Span}

theorem name {name : String} (h : IsOwnName name) :
    WritesBare (.mk id span (.identifier name)) := by
  intro l _
  refine ⟨_, .name, ?_⟩
  exact (chars_say name).symm ▸ Writes.name h

theorem member {id' : Nat} {span' : Span} {object : Node} {name : String} (ho : WritesPhrase object)
    (hbare : isBareInteger object.kind = false) (h : IsOwnName name) :
    WritesBare (.mk id span
      (.memberExpression object (.mk id' span' (.identifier name)) false false)) := by
  intro l _
  obtain ⟨k, xs, hk, -, hp, hw⟩ := ho l Tightness.call (by decide)
  refine ⟨_, .member hp hk, ?_⟩
  have hdot : Writes ['.'] [.mark .dot] fun r => ∃ r', r = name.toList ++ r' :=
    .token fun r hr => by
      obtain ⟨r', rfl⟩ := hr
      exact isToken_punctuator (markEnds_dot_name h r')
  simp only [Node.kind_mk, Kind.map, bareText, memberMark, hbare, chars_append, chars_say,
    chars_name, Bool.false_eq_true, if_false, List.append_assoc]
  exact hw.append (hdot.append (.name h) fun r _ => ⟨r, rfl⟩) fun r _ => nameEnds_cons (by decide) _

theorem computed {object property : Node} (ho : WritesPhrase object)
    (hbare : isBareInteger object.kind = false) (hp : WritesPhrase property) :
    WritesBare (.mk id span (.memberExpression object property true false)) := by
  intro l _
  obtain ⟨k, xs, hk, -, hp₁, hw₁⟩ := ho l Tightness.call (by decide)
  obtain ⟨k', ys, -, -, hp₂, hw₂⟩ := hp l Tightness.sequence (by decide)
  refine ⟨_, .computed hp₁ hk hp₂, ?_⟩
  simp only [Node.kind_mk, Kind.map, bareText, memberMark, hbare, chars_append, chars_say,
    Bool.false_eq_true, if_false, if_true, List.append_assoc]
  exact hw₁.append hw₂.brackets fun r _ => nameEnds_cons (by decide) _

theorem call {callee : Node} {arguments : List Node} (hc : WritesPhrase callee)
    (ha : ∀ a ∈ arguments, WritesPhrase a) :
    WritesBare (.mk id span (.callExpression callee arguments false)) := by
  intro l _
  obtain ⟨k, xs, hk, -, hp, hw⟩ := hc l Tightness.call (by decide)
  obtain ⟨parts, rfl, hparts, hargs⟩ := exists_parts ha l
  refine ⟨_, .call hp hk (fun a h => (hparts a h).1) fun a h => (hparts a h).2, ?_⟩
  simp only [Node.kind_mk, Kind.map, bareText, sayIf, chars_append, chars_parenthesized,
    Bool.false_eq_true, if_false, List.append_nil]
  exact hw.append hargs.parens fun r _ => nameEnds_cons (by decide) _

theorem unary {operator : UnaryOperator} {argument : Node} (h : WritesPhrase argument) :
    WritesBare (.mk id span (.unaryExpression operator argument)) := by
  intro l _
  obtain ⟨k, xs, hk, -, hp, hw⟩ := h l Tightness.unary (by decide)
  refine ⟨_, .unary hp hk, ?_⟩
  simp only [Node.kind_mk, Kind.map, bareText, sayIf, chars_append, chars_say]
  cases hspace : needsSpace operator argument.kind with
  | false =>
    have hword : operator.isKeyword ≠ true := by
      intro hword
      unfold needsSpace at hspace
      rw [hword, Bool.true_or] at hspace
      cases hspace
    have hop : Writes operator.text.toList [.of operator.token] fun r =>
        ∃ r', r = (argument.roles.expression l Tightness.unary).chars ++ r' :=
      .unaryOperator (fun mark hmark r hr => by
        obtain ⟨r', rfl⟩ := hr
        exact markEnds_operand hmark hp hk hw hspace r') fun h => absurd h hword
    simpa using hop.append hw fun r _ => ⟨r, rfl⟩
  | true =>
    have hop : Writes operator.text.toList [.of operator.token] AfterSpace := by
      refine .unaryOperator (fun mark _ r hr => ?_) fun _ r hr => ?_
      · obtain ⟨r, rfl⟩ := hr.exists
        exact markEnds_space mark r
      · obtain ⟨r, rfl⟩ := hr.exists
        exact nameEnds_space r
    obtain ⟨x, xs, rfl, -⟩ := hp.starts.opens
    simpa using hop.append hw.space fun r _ => rfl

theorem updateInFront {operator : UpdateOperator} {target : Node} (h : WritesPhrase target)
    (ht : target.isSimpleTarget = true) :
    WritesBare (.mk id span (.updateExpression operator true target)) := by
  intro l _
  obtain ⟨k, xs, hk, -, hp, hw⟩ := h l Tightness.unary (by decide)
  have hop : Writes operator.text.toList [.mark operator.mark] Anything :=
    .closed (by cases operator <;> decide)
  refine ⟨_, .updateInFront hp hk ht, ?_⟩
  simp only [Node.kind_mk, Kind.map, bareText, chars_append, chars_say]
  exact hop.append hw fun _ _ => trivial

theorem updateBehind {operator : UpdateOperator} {target : Node} (h : WritesPhrase target)
    (ht : target.isSimpleTarget = true) :
    WritesBare (.mk id span (.updateExpression operator false target)) := by
  intro l _
  obtain ⟨k, xs, -, hk, hp, hw⟩ := h l Tightness.postfixed (by decide)
  have hop : Writes operator.text.toList [.behind operator] Anything :=
    .closed (by cases operator <;> decide)
  refine ⟨_, .updateBehind hp (Nat.le_trans (Node.call_le_tightness ht) hk) ht, ?_⟩
  simp only [Node.kind_mk, Kind.map, bareText, chars_append, chars_say]
  refine (hw.append hop fun r _ => ?_).mono fun _ _ => trivial
  cases operator
  · exact nameEnds_cons (by decide) _
  · exact nameEnds_cons (by decide) _

theorem binary {operator : BinaryOperator} {left right : Node} (hl : WritesPhrase left)
    (hr : WritesPhrase right) :
    WritesBare (.mk id span (.binaryExpression operator left right)) := by
  intro l hin
  obtain ⟨hleft, hright⟩ : operator.token.demand ≤ (operandTightness operator).1 ∧
      Grammar.rightPrecedence operator + 2 ≤ (operandTightness operator).2 := by
    cases operator <;> decide
  obtain ⟨hleast, hleast'⟩ : (operandTightness operator).1 ≤ Tightness.primary ∧
      (operandTightness operator).2 ≤ Tightness.primary := by
    cases operator <;> decide
  obtain ⟨k, xs, hk, hp, hw⟩ := hl.operand operator l hleast
  obtain ⟨k', ys, hk', hp', hw'⟩ := hr.operand operator l hleast'
  refine ⟨_, .binary hp (Nat.le_trans hleft hk) hp' (Nat.le_trans hright hk') ?_, ?_⟩
  · rintro rfl
    rwa [show (Node.mk id span (.binaryExpression .isIn left right)).kind.isIn = true from rfl,
      Bool.and_true] at hin
  · change Writes (bareText (.binaryExpression operator (left, left.roles) (right, right.roles))
      l).chars _ _
    obtain ⟨y, ys, rfl, -⟩ := hp'.starts.opens
    simpa [bareText] using hw.around (.binaryOperator operator) hw'

theorem conditional {test consequent alternate : Node} (ht : WritesPhrase test)
    (hc : WritesPhrase consequent) (ha : WritesPhrase alternate) :
    WritesBare (.mk id span (.conditionalExpression test consequent alternate)) := by
  intro l _
  obtain ⟨k, xs, hk, -, hp, hw⟩ := ht l (Tightness.conditional + 1) (by decide)
  obtain ⟨k', ys, hk', -, hp', hw'⟩ := hc l Tightness.assign (by decide)
  obtain ⟨k'', zs, hk'', -, hp'', hw''⟩ := ha l Tightness.assign (by decide)
  refine ⟨_, .conditional hp hk hp' hk' hp'' hk'', ?_⟩
  obtain ⟨y, ys, rfl, -⟩ := hp'.starts.opens
  obtain ⟨z, zs, rfl, -⟩ := hp''.starts.opens
  simpa [Node.kind_mk, Kind.map, bareText, Punctuator.text] using
    hw.around (.spaced .question) (hw'.around (.spaced .colon) hw'')

theorem assignment {operator : AssignmentOperator} {target value : Node} (ht : WritesPhrase target)
    (hs : target.isSimpleTarget = true) (hv : WritesPhrase value) :
    WritesBare (.mk id span (.assignmentExpression operator target value)) := by
  intro l _
  obtain ⟨k, xs, hk, -, hp, hw⟩ := ht l Tightness.call (by decide)
  obtain ⟨k', ys, hk', -, hp', hw'⟩ := hv l Tightness.assign (by decide)
  refine ⟨_, .assignment hp hk hs hp' hk', ?_⟩
  obtain ⟨y, ys, rfl, -⟩ := hp'.starts.opens
  simpa [Node.kind_mk, Kind.map, bareText, AssignmentOperator.text] using
    hw.around (.spaced operator.mark) hw'

theorem sequence {expressions : List Node} (hlen : 2 ≤ expressions.length)
    (h : ∀ e ∈ expressions, WritesPhrase e) :
    WritesBare (.mk id span (.sequenceExpression expressions)) := by
  intro l _
  obtain ⟨parts, rfl, hparts, hw⟩ := exists_parts h l
  rw [List.length_map] at hlen
  exact ⟨_, .sequence hlen (fun a h => (hparts a h).1) fun a h => (hparts a h).2, hw⟩

end WritesBare

/-- An operator expression is printed as a phrase, in every place as tight as the place asks. -/
theorem Node.IsOperation.prints {e : Node} (h : e.IsOperation) : WritesPhrase e := by
  induction h with
  | name h => exact (WritesBare.name h).prints
  | member ho h ih => exact (WritesBare.member ih ho.isBareInteger h).prints
  | computed ho _ ih ih' => exact (WritesBare.computed ih ho.isBareInteger ih').prints
  | call _ _ ih ih' => exact (WritesBare.call ih ih').prints
  | unary _ ih => exact (WritesBare.unary ih).prints
  | @update _ _ _ inFront _ _ ht ih =>
    cases inFront
    · exact (WritesBare.updateBehind ih ht).prints
    · exact (WritesBare.updateInFront ih ht).prints
  | binary _ _ ih ih' => exact (WritesBare.binary ih ih').prints
  | conditional _ _ _ ih ih' ih'' => exact (WritesBare.conditional ih ih' ih'').prints
  | assignment _ hs _ ih ih' => exact (WritesBare.assignment ih hs ih').prints
  | sequence hlen _ ih => exact (WritesBare.sequence hlen ih).prints

end EsModule.Syntax
