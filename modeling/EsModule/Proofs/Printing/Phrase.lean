import EsModule.Proofs.Grammar.Expression
import EsModule.Proofs.Printing.Lexeme

/-!
# The grammar of operator expressions

`Phrase` is the grammar of the expressions that are made of names, members, calls and operators, as
precedence has it: a phrase of some level is a list of lexemes and the tree that they stand for, and
each form asks of its parts the least levels that keep them whole. What printing gives is a phrase,
and phrases are what reading takes apart, so the two tables of precedence need not be compared with
one another.

A token that follows a phrase may still take the last part of it away, as `*` does behind `a + b`.
`TokenKind.demand` is the least level of the phrases that stay whole in front of a token.

The front of a phrase (`Starts`) is what tells it from a statement, a label or an arrow function.
-/

namespace EsModule.Syntax

/-! ## What a token takes away -/

/-- The least level of a phrase that stays whole in front of a token of this kind. -/
def TokenKind.demand (kind : TokenKind) : Nat :=
  match kind with
  | .punctuator .dot | .punctuator .questionDot | .punctuator .leftBracket
  | .punctuator .leftParen | .template .. => Tightness.call
  | .punctuator .plusPlus | .punctuator .minusMinus => Tightness.postfixed + 1
  | .punctuator .question | .punctuator .arrow => Tightness.conditional + 1
  | .punctuator .comma => Tightness.assign
  | _ =>
    match BinaryOperator.ofToken? kind with
    | some .exponent => Tightness.unary
    | some operator => Tightness.binary operator
    | none => if kind.isAssignment then Tightness.conditional + 1 else Tightness.sequence

theorem BinaryOperator.ofToken?_token (operator : BinaryOperator) :
    ofToken? operator.token = some operator := by
  cases operator <;> decide

theorem UnaryOperator.ofToken?_token (operator : UnaryOperator) :
    ofToken? operator.token = some operator := by
  cases operator <;> decide

theorem UpdateOperator.ofToken?_mark (operator : UpdateOperator) :
    ofToken? (.punctuator operator.mark) = some operator := by
  cases operator <;> decide

theorem AssignmentOperator.ofToken?_mark (operator : AssignmentOperator) :
    ofToken? (.punctuator operator.mark) = some operator := by
  cases operator <;> decide

theorem BinaryOperator.demand_token (operator : BinaryOperator) :
    operator.token.demand =
      if operator = .exponent then Tightness.unary else Tightness.binary operator := by
  cases operator <;> decide

theorem AssignmentOperator.demand_mark (operator : AssignmentOperator) :
    (TokenKind.punctuator operator.mark).demand = Tightness.conditional + 1 := by
  cases operator <;> decide

theorem UpdateOperator.demand_mark (operator : UpdateOperator) :
    (TokenKind.punctuator operator.mark).demand = Tightness.postfixed + 1 := by
  cases operator <;> decide

/-- In front of these lexemes a phrase of the given level stays whole. -/
def Spares (level : Nat) (rest : List Lexeme) : Prop :=
  ∃ x xs, rest = x :: xs ∧ x.kind.demand ≤ level

theorem Spares.cons {level : Nat} {x : Lexeme} (h : x.kind.demand ≤ level) (xs : List Lexeme) :
    Spares level (x :: xs) := ⟨x, xs, rfl, h⟩

theorem Spares.mono {level level' : Nat} {rest : List Lexeme} (h : Spares level rest)
    (hle : level ≤ level') : Spares level' rest := by
  obtain ⟨x, xs, rfl, hx⟩ := h
  exact ⟨x, xs, rfl, Nat.le_trans hx hle⟩

/-! ## Phrases -/

/-- An expression in a list: its level, its lexemes and its tree. -/
structure Part where
  /-- The level of the phrase. -/
  level : Nat
  /-- The lexemes. -/
  lexemes : List Lexeme
  /-- The tree. -/
  node : Node

/-- Lexemes with commas between them. -/
def commaJoin : List (List Lexeme) → List Lexeme
  | [] => []
  | xs :: rest => xs ++ rest.flatMap (.mark .comma :: ·)

/-- Lexemes between parentheses. -/
def inParens (xs : List Lexeme) : List Lexeme := .mark .leftParen :: (xs ++ [.mark .rightParen])

theorem length_inParens (xs : List Lexeme) : (inParens xs).length = xs.length + 2 := by
  rw [inParens, List.length_cons, List.length_append, List.length_singleton]

/-- Lexemes between brackets. -/
def inBrackets (xs : List Lexeme) : List Lexeme :=
  .mark .leftBracket :: (xs ++ [.mark .rightBracket])

open Tightness in
/-- A phrase of the given level, where `noIn` says that no bare `in` stands in it. -/
inductive Phrase : Nat → Bool → List Lexeme → Node → Prop where
  | name {noIn id span name} :
      Phrase primary noIn [.name name] (.mk id span (.identifier name))
  | parens {level noIn noIn' xs e} (h : Phrase level noIn' xs e) :
      Phrase primary noIn (inParens xs) e
  | member {k noIn xs object id span id' span' name} (h : Phrase k noIn xs object)
      (hk : call ≤ k) :
      Phrase call noIn (xs ++ [.mark .dot, .name name])
        (.mk id span (.memberExpression object (.mk id' span' (.identifier name)) false false))
  | computed {k k' noIn noIn' xs ys object property id span} (ho : Phrase k noIn xs object)
      (hk : call ≤ k) (hp : Phrase k' noIn' ys property) :
      Phrase call noIn (xs ++ inBrackets ys)
        (.mk id span (.memberExpression object property true false))
  | call {k noIn noIn' xs callee id span} {args : List Part} (hc : Phrase k noIn xs callee)
      (hk : call ≤ k) (hl : ∀ a ∈ args, assign ≤ a.level)
      (ha : ∀ a ∈ args, Phrase a.level noIn' a.lexemes a.node) :
      Phrase call noIn (xs ++ inParens (commaJoin (args.map (·.lexemes))))
        (.mk id span (.callExpression callee (args.map (·.node)) false))
  | updateBehind {k noIn xs operator target id span} (h : Phrase k noIn xs target)
      (hk : call ≤ k) (ht : target.isSimpleTarget = true) :
      Phrase postfixed noIn (xs ++ [.behind operator])
        (.mk id span (.updateExpression operator false target))
  | updateInFront {k noIn xs operator target id span} (h : Phrase k noIn xs target)
      (hk : unary ≤ k) (ht : target.isSimpleTarget = true) :
      Phrase unary noIn (.mark operator.mark :: xs)
        (.mk id span (.updateExpression operator true target))
  | unary {k noIn xs operator argument id span} (h : Phrase k noIn xs argument)
      (hk : unary ≤ k) :
      Phrase unary noIn (.of operator.token :: xs)
        (.mk id span (.unaryExpression operator argument))
  | binary {k k' noIn xs ys operator left right id span} (hl : Phrase k noIn xs left)
      (hk : operator.token.demand ≤ k) (hr : Phrase k' noIn ys right)
      (hk' : Grammar.rightPrecedence operator + 2 ≤ k') (hin : operator = .isIn → noIn = false) :
      Phrase (binary operator) noIn (xs ++ .of operator.token :: ys)
        (.mk id span (.binaryExpression operator left right))
  | conditional {k k' k'' noIn noIn' xs ys zs test consequent alternate id span}
      (ht : Phrase k noIn xs test) (hk : conditional + 1 ≤ k)
      (hc : Phrase k' noIn' ys consequent) (hk' : assign ≤ k')
      (ha : Phrase k'' noIn zs alternate) (hk'' : assign ≤ k'') :
      Phrase conditional noIn (xs ++ .mark .question :: (ys ++ .mark .colon :: zs))
        (.mk id span (.conditionalExpression test consequent alternate))
  | assignment {k k' noIn xs ys operator target value id span} (ht : Phrase k noIn xs target)
      (hk : call ≤ k) (hs : target.isSimpleTarget = true) (hv : Phrase k' noIn ys value)
      (hk' : assign ≤ k') :
      Phrase assign noIn (xs ++ .mark operator.mark :: ys)
        (.mk id span (.assignmentExpression operator target value))
  | sequence {noIn id span} {parts : List Part} (hlen : 2 ≤ parts.length)
      (hl : ∀ a ∈ parts, assign ≤ a.level)
      (hp : ∀ a ∈ parts, Phrase a.level noIn a.lexemes a.node) :
      Phrase sequence noIn (commaJoin (parts.map (·.lexemes)))
        (.mk id span (.sequenceExpression (parts.map (·.node))))

/-! ## The front of a phrase -/

/-- Whether a phrase may start with a token of this kind. -/
def TokenKind.opens (kind : TokenKind) : Bool :=
  match kind with
  | .identifier _ | .punctuator .leftParen => true
  | _ => (UnaryOperator.ofToken? kind).isSome || (UpdateOperator.ofToken? kind).isSome

theorem TokenKind.ne_of_opens {kind kind' : TokenKind} (h : kind.opens = true)
    (h' : kind'.opens = false) : kind ≠ kind' := by
  rintro rfl
  rw [h'] at h
  cases h

theorem UnaryOperator.opens_token (operator : UnaryOperator) : operator.token.opens = true := by
  cases operator <;> rfl

theorem UpdateOperator.opens_mark (operator : UpdateOperator) :
    (TokenKind.punctuator operator.mark).opens = true := by
  cases operator <;> rfl

/-- Whether a token makes a name in front of it a label or a parameter. -/
def TokenKind.isBinder : TokenKind → Bool
  | .punctuator .colon | .punctuator .arrow => true
  | _ => false

theorem TokenKind.isBinder_of_opens {kind : TokenKind} (h : kind.opens = true) :
    kind.isBinder = false := by
  unfold isBinder
  split
  · cases h
  · cases h
  · rfl

/-- The lexemes start like a phrase: the first one opens a phrase, and may stand on a line of its
own, and the second one, if there is one, binds nothing. -/
structure Starts (xs : List Lexeme) : Prop where
  opens : ∃ x rest, xs = x :: rest ∧ x.kind.opens = true
  apart : ∀ x rest, xs = x :: rest → x.joined = false
  second : ∀ x y rest, xs = x :: y :: rest → y.kind.isBinder = false

namespace Starts

variable {xs ys : List Lexeme} {x y : Lexeme}

theorem ne_nil (h : Starts xs) : xs ≠ [] := by
  obtain ⟨x, rest, rfl, -⟩ := h.opens
  exact List.cons_ne_nil _ _

/-- A phrase that goes on still starts like one. -/
theorem append (h : Starts xs) (hy : y.kind.isBinder = false) : Starts (xs ++ y :: ys) := by
  obtain ⟨x, rest, rfl, hx⟩ := h.opens
  refine ⟨⟨x, rest ++ y :: ys, rfl, hx⟩, ?_, ?_⟩
  · rintro x' rest' heq
    obtain ⟨rfl, -⟩ := List.cons.inj heq
    exact h.apart x rest rfl
  · rintro x' y' rest' heq
    cases rest with
    | nil =>
      obtain ⟨-, heq⟩ := List.cons.inj heq
      obtain ⟨rfl, -⟩ := List.cons.inj heq
      exact hy
    | cons z rest =>
      obtain ⟨-, heq⟩ := List.cons.inj heq
      obtain ⟨rfl, -⟩ := List.cons.inj heq
      exact h.second x z rest rfl

/-- A token in front of a phrase opens another phrase. -/
theorem cons (h : Starts xs) (hx : x.kind.opens = true) (hj : x.joined = false) :
    Starts (x :: xs) := by
  obtain ⟨y, rest, rfl, hy⟩ := h.opens
  refine ⟨⟨x, y :: rest, rfl, hx⟩, ?_, ?_⟩
  · rintro x' rest' heq
    obtain ⟨rfl, -⟩ := List.cons.inj heq
    exact hj
  · rintro x' y' rest' heq
    obtain ⟨-, heq⟩ := List.cons.inj heq
    obtain ⟨rfl, -⟩ := List.cons.inj heq
    exact TokenKind.isBinder_of_opens hy

theorem commaJoin {xss : List (List Lexeme)} (hne : xss ≠ []) (h : ∀ xs ∈ xss, Starts xs) :
    Starts (commaJoin xss) := by
  cases xss with
  | nil => exact absurd rfl hne
  | cons xs rest =>
    have hxs := h xs List.mem_cons_self
    cases rest with
    | nil => simpa only [Syntax.commaJoin, List.flatMap_nil, List.append_nil] using hxs
    | cons ys rest => exact hxs.append rfl

end Starts

theorem BinaryOperator.isBinder_token (operator : BinaryOperator) :
    operator.token.isBinder = false := by
  cases operator <;> rfl

theorem AssignmentOperator.isBinder_mark (operator : AssignmentOperator) :
    (TokenKind.punctuator operator.mark).isBinder = false := by
  cases operator <;> rfl

theorem UpdateOperator.isBinder_mark (operator : UpdateOperator) :
    (TokenKind.punctuator operator.mark).isBinder = false := by
  cases operator <;> rfl

theorem Phrase.starts {k : Nat} {noIn : Bool} {xs : List Lexeme} {e : Node}
    (h : Phrase k noIn xs e) : Starts xs := by
  induction h with
  | name =>
    refine ⟨⟨_, [], rfl, rfl⟩, ?_, ?_⟩
    · rintro x rest heq
      obtain ⟨rfl, -⟩ := List.cons.inj heq
      rfl
    · rintro x y rest heq
      cases heq
  | parens _ ih =>
    have hclosed : Starts (_ ++ [.mark .rightParen]) := ih.append rfl
    exact hclosed.cons rfl rfl
  | member _ _ ih => exact ih.append rfl
  | computed _ _ _ ih => exact ih.append rfl
  | call _ _ _ _ ih => exact ih.append rfl
  | updateBehind _ _ _ ih => exact ih.append (UpdateOperator.isBinder_mark _)
  | updateInFront _ _ _ ih => exact ih.cons (UpdateOperator.opens_mark _) rfl
  | unary _ _ ih => exact ih.cons (UnaryOperator.opens_token _) rfl
  | binary _ _ _ _ _ ih => exact ih.append (BinaryOperator.isBinder_token _)
  | conditional _ _ _ _ _ _ ih => exact ih.append rfl
  | assignment _ _ _ _ _ ih => exact ih.append (AssignmentOperator.isBinder_mark _)
  | sequence hlen _ _ ih =>
    refine .commaJoin ?_ ?_
    · intro hnil
      rw [List.map_eq_nil_iff.mp hnil] at hlen
      cases hlen
    · intro xs hxs
      obtain ⟨part, hpart, rfl⟩ := List.mem_map.mp hxs
      exact ih part hpart

/-- The tokens that start a name or a list in parentheses. -/
def TokenKind.IsOperand (kind : TokenKind) : Prop :=
  (∃ name, kind = .identifier name) ∨ kind = .punctuator .leftParen

theorem Phrase.isOperand {k : Nat} {noIn : Bool} {xs : List Lexeme} {e : Node}
    (h : Phrase k noIn xs e) (hk : Tightness.postfixed ≤ k) :
    ∃ x rest, xs = x :: rest ∧ x.kind.IsOperand := by
  have happend : ∀ {xs ys : List Lexeme}, (∃ x rest, xs = x :: rest ∧ x.kind.IsOperand) →
      ∃ x rest, xs ++ ys = x :: rest ∧ x.kind.IsOperand := by
    rintro xs ys ⟨x, rest, rfl, hx⟩
    exact ⟨x, rest ++ ys, rfl, hx⟩
  induction h with
  | name => exact ⟨_, _, rfl, .inl ⟨_, rfl⟩⟩
  | parens => exact ⟨_, _, rfl, .inr rfl⟩
  | member _ hl ih | computed _ hl _ ih | call _ hl _ _ ih | updateBehind _ hl _ ih =>
    exact happend (ih (Nat.le_trans (by decide) hl))
  | @binary _ _ _ _ _ operator => 
    exact absurd hk (by cases operator <;> decide)
  | _ => exact absurd hk (by decide)

/-- A phrase that an operator may stand in front of starts with an operand, unless it is such an
operator with its operand itself. -/
theorem Phrase.front {k : Nat} {noIn : Bool} {xs : List Lexeme} {e : Node}
    (h : Phrase k noIn xs e) (hk : Tightness.unary ≤ k) : ∃ x rest, xs = x :: rest ∧
      (x.kind.IsOperand ∨
        (∃ operator a, e.kind = .unaryExpression operator a ∧ x.kind = operator.token) ∨
        ∃ operator a, e.kind = .updateExpression operator true a ∧
          x.kind = .punctuator operator.mark) := by
  have hoperand : Tightness.postfixed ≤ k → ∃ x rest, xs = x :: rest ∧ (x.kind.IsOperand ∨
      (∃ operator a, e.kind = .unaryExpression operator a ∧ x.kind = operator.token) ∨
      ∃ operator a, e.kind = .updateExpression operator true a ∧
        x.kind = .punctuator operator.mark) := by
    intro hk
    obtain ⟨x, rest, hxs, hx⟩ := h.isOperand hk
    exact ⟨x, rest, hxs, .inl hx⟩
  cases h with
  | unary h _ => exact ⟨_, _, rfl, .inr (.inl ⟨_, _, rfl, rfl⟩)⟩
  | updateInFront h _ _ => exact ⟨_, _, rfl, .inr (.inr ⟨_, _, rfl, rfl⟩)⟩
  | @binary _ _ _ _ _ operator => exact absurd hk (by cases operator <;> decide)
  | conditional | assignment | sequence => exact absurd hk (by decide)
  | _ => exact hoperand (by decide)

/-! ## The end of the source -/

theorem ne_eof_commaJoin {parts : List Part} (h : ∀ a ∈ parts, ∀ x ∈ a.lexemes, x.kind ≠ .eof) :
    ∀ x ∈ commaJoin (parts.map (·.lexemes)), x.kind ≠ .eof := by
  cases parts with
  | nil => exact List.forall_mem_nil _
  | cons a parts =>
    obtain ⟨ha, hparts⟩ := List.forall_mem_cons.mp h
    refine List.forall_mem_append.mpr ⟨ha, fun x hx => ?_⟩
    obtain ⟨ys, hys, hx⟩ := List.mem_flatMap.mp hx
    obtain ⟨b, hb, rfl⟩ := List.mem_map.mp hys
    rcases List.mem_cons.mp hx with rfl | hx
    · exact nofun
    · exact hparts b hb x hx

/-- The end of the source is no part of a phrase. -/
theorem Phrase.ne_eof {k : Nat} {noIn : Bool} {xs : List Lexeme} {e : Node}
    (h : Phrase k noIn xs e) : ∀ x ∈ xs, x.kind ≠ .eof := by
  have hunary : ∀ operator : UnaryOperator, operator.token ≠ .eof := by
    intro operator
    cases operator <;> nofun
  have hbinary : ∀ operator : BinaryOperator, operator.token ≠ .eof := by
    intro operator
    cases operator <;> nofun
  induction h with
  | name => simp
  | call _ _ _ _ ih iha =>
    have hargs := ne_eof_commaJoin iha
    simp_all [inParens, or_imp]
  | sequence _ _ _ ih => exact ne_eof_commaJoin ih
  | _ => simp_all [inParens, inBrackets, or_imp]

end EsModule.Syntax
