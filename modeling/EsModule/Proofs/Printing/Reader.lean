import EsModule.Proofs.Grammar.Rounds
import EsModule.Proofs.Printing.Gives
import EsModule.Proofs.Printing.Phrase

/-!
# Operators are read

Rules for operators are loops that start from an operand. What has been read of a phrase is the
operand with which such a loop goes on, so a phrase is read by saying what the loop does from there:
`ReachesMembers` and `ReachesOperators` hand over to whatever reads on. The other readings end in
front of what follows (`Stands`). Nested phrases are read one level of nesting below, and take fewer
lexemes than the phrase around them: there is room for all of them if there is room for the whole
(`Room`).

What one rule reads, the rules around it read too: from members the way goes to operands, from these
to the operators between them, to a choice between values and to an assignment
(`ReachesMembers.unary` and what follows it). Each step needs that what stands behind the phrase
leaves it whole, which is what `Spares` says of it.

The operators are read by the same rules, one theorem for each. An operator stands between the
phrases on both sides because its right operand ends where the operators become too loose for it
(`BinaryOperator.precedence_lt_rightPrecedence`).
-/

namespace EsModule.Syntax

open EsModule.Syntax.Parser

namespace Grammar

/-- What an operand becomes by the token behind it: the target of an assignment, or itself. -/
def assigned (g : Grammar) (start : Nat) (left : Operand) : Parser Node := do
  match AssignmentOperator.ofToken? (← current).kind with
  | none => return left.node
  | some operator =>
    let target ← assignmentTarget operator left.node
    advance
    let right ← g.assignment
    node (.assignmentExpression operator target right) start

/-- What an operand becomes by the token behind it, which may be an arrow. -/
def completed (g : Grammar) (start : Nat) (left : Operand) : Parser Node := do
  if ← sees .arrow then return ← g.arrowBehind start left
  g.assigned start left

end Grammar

/-! ## Room -/

/-- There is room to read the lexemes: enough levels of nesting and rounds of repetitions are left,
and `in` is an operator if it may stand among them. -/
structure Room (depth : Nat) (c : Context) (noIn : Bool) (xs : List Lexeme) : Prop where
  depth : xs.length ≤ depth
  bound : xs.length < c.bound
  isIn : noIn = false → c.allowIn = true

namespace Room

variable {depth : Nat} {c : Context} {noIn : Bool} {xs ys : List Lexeme}

theorem shorter (h : Room depth c noIn xs) (hle : ys.length ≤ xs.length) :
    Room depth c noIn ys :=
  ⟨Nat.le_trans hle h.depth, Nat.lt_of_le_of_lt hle h.bound, h.isIn⟩

/-- Parts with fewer lexemes are read one level below. -/
theorem below (h : Room depth c noIn xs) (hne : xs ≠ []) :
    ∃ d, depth = d + 1 ∧ ∀ ys : List Lexeme, ys.length < xs.length → Room d c noIn ys := by
  obtain ⟨hdepth, hbound, hin⟩ := h
  have hpos := List.length_pos_iff.mpr hne
  obtain ⟨d, rfl⟩ : ∃ d, depth = d + 1 := ⟨depth - 1, by omega⟩
  exact ⟨d, rfl, fun ys hlt => ⟨by omega, by omega, hin⟩⟩

/-- Between brackets `in` is an operator. -/
theorem bracketed (h : Room depth c noIn xs) (noIn' : Bool) :
    Room depth { c with allowIn := true } noIn' xs :=
  ⟨h.depth, h.bound, fun _ => rfl⟩

end Room

/-! ## Readings -/

/-- A tree of the shape of `e` was read, and the state stands in front of `rest`. -/
def Stands (e : Node) (rest : List Lexeme) (n : Node) (s : State) : Prop :=
  n.shape = e.shape ∧ s.Faces rest

/-- Behind the lexemes the loop over members and calls goes on from an operand that is `e`. -/
def ReachesMembers (noIn : Bool) (xs : List Lexeme) (e : Node) : Prop :=
  ∀ d c s rest (Q : Operand → State → Prop), Room d c noIn xs → s.Faces (xs ++ rest) →
    rest ≠ [] →
    (∀ o s' bound, Stands e rest o.node s' → c.bound ≤ bound + xs.length →
      Gives (loopWithin ((Grammar.ofDepth d).memberRound s.current.span.start false) bound o)
        c s' Q) →
    Gives (Grammar.ofDepth d).leftHandSideRule c s Q

/-- The lexemes are read as an operand with the operators in front of it and behind it. -/
def ReadsUnary (noIn : Bool) (xs : List Lexeme) (e : Node) : Prop :=
  ∀ d c s rest, Room d c noIn xs → s.Faces (xs ++ rest) → Spares Tightness.postfixed rest →
    Gives (Grammar.ofDepth d).unaryRule c s fun o s' => Stands e rest o.node s'

/-- Behind the lexemes the loop over the operators that are loose enough goes on from a left operand
that is `e`. -/
def ReachesOperators (level : Nat) (noIn : Bool) (xs : List Lexeme) (e : Node) : Prop :=
  ∀ d c s rest least (Q : Operand → State → Prop), Room d c noIn xs → s.Faces (xs ++ rest) →
    Spares level rest → least + 2 ≤ level →
    (∀ o s' bound, Stands e rest o.node s' → c.bound ≤ bound + xs.length →
      Gives (loopWithin ((Grammar.ofDepth d).operatorRound least s.current.span.start) bound o)
        c s' Q) →
    Gives ((Grammar.ofDepth d).binaryRule least) c s Q

/-- The lexemes are read as a choice between values, or as what is tighter. -/
def ReadsConditional (noIn : Bool) (xs : List Lexeme) (e : Node) : Prop :=
  ∀ d c s rest, Room d c noIn xs → s.Faces (xs ++ rest) → Spares Tightness.assign rest →
    Gives (Grammar.ofDepth d).conditional c s fun o s' => Stands e rest o.node s'

/-- The lexemes are read as an expression without a comma at the top. -/
def ReadsAssignment (noIn : Bool) (xs : List Lexeme) (e : Node) : Prop :=
  ∀ d c s rest, Room d c noIn xs → s.Faces (xs ++ rest) → Spares Tightness.assign rest →
    Gives (Grammar.ofDepth d).assignmentRule c s (Stands e rest)

/-- The lexemes are those of expressions with commas between them, which are `e` together. -/
def ReadsItems (noIn : Bool) (xs : List Lexeme) (e : Node) : Prop :=
  ∃ parts : List Part, xs = commaJoin (parts.map (·.lexemes)) ∧
    (∀ p ∈ parts, Starts p.lexemes ∧ ReadsAssignment noIn p.lexemes p.node) ∧
    ((∃ p, parts = [p] ∧ p.node = e) ∨
      2 ≤ parts.length ∧ ∃ id span, e = .mk id span (.sequenceExpression (parts.map (·.node))))

/-! ## Tokens in front -/

namespace Gives

variable {c : Context} {s : State} {Q : Bool → State → Prop}

theorem startsAsyncFunction (hk : s.current.kind ≠ .keyword .kwAsync) (h : Q false s) :
    Gives Grammar.startsAsyncFunction c s Q := by
  refine .bind (.peek (.bind (.seesWord (.pure ?_))))
  rwa [decide_eq_false hk]

end Gives

section

variable {g : Grammar} {c : Context} {s : State} {noIn : Bool} {xs rest : List Lexeme} {e : Node}

/-! ## From members to operators -/

/-- The loop over members and calls ends where no more of them follow. -/
theorem gives_memberRound {start bound : Nat} {startsAsync : Bool} {o : Operand}
    {Q : Operand → State → Prop} (hs : s.Faces rest)
    (hf : Spares (Tightness.postfixed + 1) rest) (hQ : Q o s) :
    Gives (loopWithin (g.memberRound start startsAsync) (bound + 1) o) c s Q := by
  obtain ⟨x, xs, rfl, hx⟩ := hf
  rw [← hs.kind] at hx
  refine .round (.bind (.current ?_))
  split
  case h_6 => exact .pure hQ
  case h_1 | h_2 | h_3 | h_4 | h_5 =>
    rename_i hk
    rw [hk] at hx
    exact absurd hx (show ¬ Tightness.call ≤ Tightness.postfixed + 1 by decide)

/-- A token with which no operator in front of an operand starts. -/
structure TokenKind.IsPlain (kind : TokenKind) : Prop where
  unary : UnaryOperator.ofToken? kind = none
  update : UpdateOperator.ofToken? kind = none
  await : kind ≠ .keyword .kwAwait

theorem TokenKind.IsOperand.isPlain {kind : TokenKind} (h : kind.IsOperand) : kind.IsPlain := by
  rcases h with ⟨name, rfl⟩ | rfl <;> exact ⟨rfl, rfl, nofun⟩

/-- An operand has no operator in front of it. -/
theorem gives_unaryRule {Q : Operand → State → Prop} (hs : s.current.kind.IsPlain)
    (h : Gives g.postfixUpdate c s Q) : Gives g.unaryRule c s Q := by
  refine .bind (.here (.bind (.current ?_)))
  extract_lets kind
  rw [hs.unary, hs.update]
  exact .bind (.eatWordNot hs.await (.iteFalse nofun h))

/-- No update follows where nothing follows that an operand could be drawn into. -/
theorem Spares.not_update {level : Nat} (hf : Spares level rest) (hs : s.Faces rest)
    (hl : level ≤ Tightness.postfixed) : UpdateOperator.ofToken? s.current.kind = none := by
  obtain ⟨x, xs, rfl, hx⟩ := hf
  rw [hs.kind]
  cases hop : UpdateOperator.ofToken? x.kind with
  | none => rfl
  | some operator =>
    rw [UpdateOperator.kind_of_ofToken? hop, UpdateOperator.demand_mark] at hx
    exact absurd (Nat.le_trans hx hl) (by decide)

theorem ReachesMembers.unary (h : ReachesMembers noIn xs e)
    (hx : ∃ x rest, xs = x :: rest ∧ x.kind.IsOperand) : ReadsUnary noIn xs e := by
  intro d c s rest hroom hs hf
  have hoperand : s.current.kind.IsOperand := by
    obtain ⟨x, xs, rfl, hx⟩ := hx
    exact hs.kind ▸ hx
  have hne : rest ≠ [] := by
    obtain ⟨x, xs, rfl, -⟩ := hf
    exact List.cons_ne_nil _ _
  refine gives_unaryRule hoperand.isPlain (.bind (.here ?_))
  refine .step (P := fun o s' => Stands e rest o.node s') (h d c s rest _ hroom hs hne ?_) ?_
  · intro o s' bound ho hbound
    obtain ⟨bound, rfl⟩ : ∃ b, bound = b + 1 := by
      have := hroom.bound
      exact ⟨bound - 1, by omega⟩
    exact gives_memberRound ho.2 (hf.mono (Nat.le_succ _)) ho
  · intro o s' ho
    refine .bind (.current ?_)
    rw [hf.not_update ho.2 (Nat.le_refl _)]
    exact .pure ho

/-! ## From operands to expressions -/

theorem ReadsUnary.operators (h : ReadsUnary noIn xs e) {level : Nat}
    (hl : level ≤ Tightness.postfixed) : ReachesOperators level noIn xs e := by
  intro d c s rest least Q hroom hs hf _ hQ
  rw [Grammar.binaryRule_eq]
  refine .bind (.here (.step (h d c s rest hroom hs (hf.mono hl)) fun o s' ho => .loop ?_))
  exact hQ o s' c.bound ho (Nat.le_add_right _ _)

theorem ReachesOperators.mono {level level' : Nat} (h : ReachesOperators level noIn xs e)
    (hl : level' ≤ level) : ReachesOperators level' noIn xs e :=
  fun d c s rest least Q hroom hs hf hleast hQ =>
    h d c s rest least Q hroom hs (hf.mono hl) (Nat.le_trans hleast hl) hQ

/-- The loop over operators ends where no operator follows that is tight enough. -/
theorem gives_operatorRound {least start bound : Nat} {o : Operand} {x : Lexeme}
    {Q : Operand → State → Prop} (hs : s.Faces (x :: rest))
    (hx : ∀ operator, BinaryOperator.ofToken? x.kind = some operator → operator.precedence < least)
    (hQ : Q o s) :
    Gives (loopWithin (g.operatorRound least start) (bound + 1) o) c s Q := by
  refine .round (.bind (.bind (.current (.bind (.read ?_)))))
  rw [hs.kind]
  by_cases hin : (BinaryOperator.ofToken? x.kind = some .isIn && !c.allowIn) = true
  · exact .iteTrue hin (.pure (.pure hQ))
  refine .iteFalse hin (.pure ?_)
  cases hop : BinaryOperator.ofToken? x.kind with
  | none => exact .pure hQ
  | some operator => exact .iteTrue (hx operator hop) (.pure hQ)

/-- A test that is tight enough is read as a choice of its own where no `?` follows. -/
theorem ReachesOperators.alone (h : ReachesOperators (Tightness.conditional + 1) noIn xs e)
    {d : Nat} {x : Lexeme} (hroom : Room d c noIn xs) (hs : s.Faces (xs ++ x :: rest))
    (hx : x.kind.demand ≤ Tightness.conditional + 1)
    (hop : BinaryOperator.ofToken? x.kind = none) {Q : Operand → State → Prop}
    (hQ : ∀ o s', Stands e (x :: rest) o.node s' → Q o s') :
    Gives ((Grammar.ofDepth d).binaryRule 1) c s Q := by
  refine h d c s (x :: rest) 1 Q hroom hs (.cons hx _) (by decide) ?_
  intro o s' bound ho hbound
  obtain ⟨bound, rfl⟩ : ∃ b, bound = b + 1 := by
    have := hroom.bound
    exact ⟨bound - 1, by omega⟩
  exact gives_operatorRound ho.2 (fun operator hsome => by simp [hop] at hsome) (hQ o s' ho)

/-- Where neither `?` nor an operator follows, a test stands for itself. -/
theorem ReachesOperators.choice (h : ReachesOperators (Tightness.conditional + 1) noIn xs e)
    {d : Nat} {x : Lexeme} (hroom : Room d c noIn xs) (hs : s.Faces (xs ++ x :: rest))
    (hx : x.kind.demand ≤ Tightness.conditional + 1)
    (hop : BinaryOperator.ofToken? x.kind = none) (hq : x.kind ≠ .punctuator .question) :
    Gives (Grammar.ofDepth d).conditional c s fun o s' => Stands e (x :: rest) o.node s' := by
  refine .bind (.here (.bind (h.alone hroom hs hx hop fun o s' ho => ?_)))
  exact .bind (.eatNot (ho.2.kind ▸ hq) (.iteFalse nofun (.pure ho)))

theorem BinaryOperator.ofToken?_of_demand {kind : TokenKind}
    (h : kind.demand ≤ Tightness.assign) : ofToken? kind = none := by
  cases hop : ofToken? kind with
  | none => rfl
  | some operator =>
    rw [kind_of_ofToken? hop] at h
    cases operator <;> exact absurd h (by decide)

theorem AssignmentOperator.ofToken?_of_demand {kind : TokenKind}
    (h : kind.demand ≤ Tightness.assign) : ofToken? kind = none := by
  cases hop : ofToken? kind with
  | none => rfl
  | some operator =>
    rw [kind_of_ofToken? hop, demand_mark] at h
    exact absurd h (by decide)

theorem TokenKind.ne_of_demand {kind kind' : TokenKind} {level : Nat} (h : kind.demand ≤ level)
    (h' : level < kind'.demand) : kind ≠ kind' := by
  rintro rfl
  omega

theorem ReachesOperators.conditional
    (h : ReachesOperators (Tightness.conditional + 1) noIn xs e) : ReadsConditional noIn xs e := by
  rintro d c s rest hroom hs ⟨x, rest, rfl, hx⟩
  have hq : x.kind ≠ .punctuator .question := TokenKind.ne_of_demand hx (by decide)
  exact h.choice hroom hs (Nat.le_trans hx (by decide)) (BinaryOperator.ofToken?_of_demand hx) hq

/-- What starts neither a function nor a value of a generator is read as a choice first. -/
theorem gives_choice {Q : Node → State → Prop} (hyield : s.current.kind ≠ .keyword .kwYield)
    (hasync : s.current.kind = .keyword .kwAsync →
      ∀ name, (nextToken s.behind).1.kind ≠ .identifier name)
    (harrow : s.current.kind.name?.isSome = true →
      (nextToken s.behind).1.kind ≠ .punctuator .arrow)
    (h : Gives g.conditional c s fun left s' =>
      Gives (g.completed s.current.span.start left) c s' Q) : Gives g.assignmentRule c s Q := by
  refine .bind (.here (.bind (.seesWord (.bind (.read ?_)))))
  refine .iteFalse (by simp [hyield]) (.step (P := fun b s' => b = false ∧ s = s') ?_ ?_)
  · refine .bind (.seesWord ?_)
    by_cases hk : s.current.kind = .keyword .kwAsync
    · rw [decide_eq_true hk]
      refine .bind (.get ?_)
      dsimp only
      split
      · exact absurd ‹_› (hasync hk _)
      · exact .pure ⟨rfl, rfl⟩
    · rw [decide_eq_false hk]
      exact .pure ⟨rfl, rfl⟩
  rintro _ _ ⟨rfl, rfl⟩
  refine .step (P := fun b s' => (b && decide ((nextToken s.behind).1.kind = .punctuator .arrow)) =
    false ∧ s = s') ?_ ?_
  · have hname : s.current.kind.name?.isSome = true →
        (true && decide ((nextToken s.behind).1.kind = .punctuator .arrow)) = false :=
      fun hk => decide_eq_false (harrow hk)
    refine .bind (.current ?_)
    split
    · rename_i hk
      exact .pure ⟨hname (by rw [hk]; rfl), rfl⟩
    · rename_i hk
      exact .pure ⟨hname (by rw [hk]; rfl), rfl⟩
    · exact .pure ⟨rfl, rfl⟩
  rintro b _ ⟨hb, rfl⟩
  exact .bind (.peek (.iteFalse (by rw [hb]; exact nofun) (.bind h)))

theorem gives_completed {start : Nat} {left : Operand} {Q : Node → State → Prop}
    (hs : s.current.kind ≠ .punctuator .arrow) (h : Gives (g.assigned start left) c s Q) :
    Gives (g.completed start left) c s Q :=
  .bind (.sees (.iteFalse (by simp [hs]) h))

theorem gives_assignmentRule {Q : Node → State → Prop} (hs : s.current.kind.opens = true)
    (hpeek : (nextToken s.behind).1.kind ≠ .punctuator .arrow)
    (h : Gives g.conditional c s fun left s' => s'.current.kind ≠ .punctuator .arrow ∧
      Gives (g.assigned s.current.span.start left) c s' Q) :
    Gives g.assignmentRule c s Q := by
  refine gives_choice (TokenKind.ne_of_opens hs rfl) ?_ (fun _ => hpeek) ?_
  · exact fun hasync => absurd hasync (TokenKind.ne_of_opens hs rfl)
  · exact h.mono fun left s' h => gives_completed h.1 h.2

theorem Starts.opens_current (h : Starts xs) (hs : s.Faces (xs ++ rest)) :
    s.current.kind.opens = true := by
  obtain ⟨x, xs, rfl, hx⟩ := h.opens
  exact hs.kind ▸ hx

/-- A phrase in front of a token is no parameter and no label. -/
theorem Starts.peek_ne (h : Starts xs) {mark : Punctuator} {x : Lexeme}
    (hmark : (TokenKind.punctuator mark).isBinder = true) (hs : s.Faces (xs ++ x :: rest))
    (hx : x.kind ≠ .punctuator mark) :
    (nextToken s.behind).1.kind ≠ .punctuator mark := by
  obtain ⟨y, ys, rfl, -⟩ := h.opens
  cases ys with
  | nil => exact hs.peek ▸ hx
  | cons z zs =>
    rw [hs.peek (s := s)]
    intro hz
    rw [← hz, h.second y z zs rfl] at hmark
    cases hmark

theorem ReadsConditional.assignment (h : ReadsConditional noIn xs e) (hstarts : Starts xs) :
    ReadsAssignment noIn xs e := by
  rintro d c s rest hroom hs ⟨x, rest, rfl, hx⟩
  have harrow : x.kind ≠ .punctuator .arrow := TokenKind.ne_of_demand hx (by decide)
  refine gives_assignmentRule (hstarts.opens_current hs) (hstarts.peek_ne rfl hs harrow) ?_
  refine (h d c s (x :: rest) hroom hs (.cons hx rest)).mono ?_
  intro o s' ho
  refine ⟨ho.2.kind ▸ harrow, .bind (.current ?_)⟩
  rw [ho.2.kind, AssignmentOperator.ofToken?_of_demand hx]
  exact .pure ho

/-! ## Operators -/

theorem gives_assignmentTarget {operator : AssignmentOperator} {left : Node}
    {Q : Node → State → Prop} (h : left.isSimpleTarget = true) (hQ : Q left s) :
    Gives (Grammar.assignmentTarget operator left) c s Q := by
  by_cases hop : operator = .assign
  · refine .iteTrue hop ?_
    rw [Node.toTarget?_of_isSimpleTarget h]
    exact .pure hQ
  · exact .iteFalse hop (.iteTrue h (.pure hQ))

variable {ys zs : List Lexeme} {e₁ e₂ e₃ : Node} {id : Nat} {span : Span}

theorem ReachesMembers.updateBehind {operator : UpdateOperator} (h : ReachesMembers noIn xs e)
    (hx : ∃ x rest, xs = x :: rest ∧ x.kind.IsOperand) (ht : e.isSimpleTarget = true) :
    ReadsUnary noIn (xs ++ [.behind operator])
      (.mk id span (.updateExpression operator false e)) := by
  intro d c s rest hroom hs hf
  have hoperand : s.current.kind.IsOperand := by
    obtain ⟨x, xs, rfl, hx⟩ := hx
    exact hs.kind ▸ hx
  rw [List.append_assoc] at hs
  have hroom' : Room d c noIn xs := hroom.shorter (by simp)
  refine gives_unaryRule hoperand.isPlain (.bind (.here ?_))
  refine .step (P := fun o s' => Stands e (.behind operator :: rest) o.node s')
    (h d c s _ _ hroom' hs (List.cons_ne_nil _ _) ?_) ?_
  · intro o s' bound ho hbound
    obtain ⟨bound, rfl⟩ : ∃ b, bound = b + 1 := by
      have := hroom'.bound
      exact ⟨bound - 1, by omega⟩
    exact gives_memberRound ho.2 (.cons (Nat.le_of_eq (operator.demand_mark)) rest) ho
  · intro o s' ho
    have hop : UpdateOperator.ofToken? s'.current.kind = some operator := by
      rw [ho.2.kind]
      exact operator.ofToken?_mark
    have hline : s'.current.newlineBefore = false := ho.2.1.2 rfl
    have htarget : o.node.isSimpleTarget = true := (Node.isSimpleTarget_of_shape ho.1).trans ht
    refine .bind (.current ?_)
    rw [hop, hline]
    refine .iteTrue htarget (.bind (.advance (.bind (.node fun span => .pure ?_))))
    exact ⟨Node.shape_congr (by simp only [Kind.map, ho.1]), ho.2.next.counted⟩

theorem ReadsUnary.updateInFront {operator : UpdateOperator} (h : ReadsUnary noIn xs e)
    (ht : e.isSimpleTarget = true) :
    ReadsUnary noIn (.mark operator.mark :: xs)
      (.mk id span (.updateExpression operator true e)) := by
  intro d c s rest hroom hs hf
  obtain ⟨d, rfl, hbelow⟩ := hroom.below (List.cons_ne_nil _ _)
  have hroom' := hbelow xs (Nat.lt_succ_self _)
  have hunary : UnaryOperator.ofToken? (.punctuator operator.mark) = none := by
    cases operator <;> rfl
  refine .bind (.here (.bind (.current ?_)))
  extract_lets kind
  rw [show kind = .punctuator operator.mark from hs.kind, hunary, operator.ofToken?_mark]
  refine .bind (.advance (.step (h d c s.next rest hroom' hs.next hf) fun o s' ho => ?_))
  have htarget : o.node.isSimpleTarget = true := (Node.isSimpleTarget_of_shape ho.1).trans ht
  refine .iteTrue htarget (.bind (.node fun span => .pure ?_))
  exact ⟨Node.shape_congr (by simp only [Kind.map, ho.1]), ho.2.counted⟩

theorem ReadsUnary.unary {operator : UnaryOperator} (h : ReadsUnary noIn xs e) :
    ReadsUnary noIn (.of operator.token :: xs)
      (.mk id span (.unaryExpression operator e)) := by
  intro d c s rest hroom hs hf
  obtain ⟨d, rfl, hbelow⟩ := hroom.below (List.cons_ne_nil _ _)
  have hroom' := hbelow xs (Nat.lt_succ_self _)
  refine .bind (.here (.bind (.current ?_)))
  extract_lets kind
  rw [show kind = operator.token from hs.kind, operator.ofToken?_token]
  refine .bind (.advance (.step (h d c s.next rest hroom' hs.next hf) fun o s' ho => ?_))
  refine .bind (.node fun span => .pure ?_)
  exact ⟨Node.shape_congr (by simp only [Kind.map, ho.1]), ho.2.counted⟩

theorem BinaryOperator.precedence_le (operator : BinaryOperator) : operator.precedence ≤ 12 := by
  cases operator <;> decide

theorem BinaryOperator.precedence_lt {operator : BinaryOperator} (h : operator ≠ .exponent) :
    operator.precedence < 12 := by
  cases operator <;> first | exact absurd rfl h | decide

theorem BinaryOperator.binary_le_demand (operator : BinaryOperator) :
    Tightness.binary operator ≤ operator.token.demand := by
  cases operator <;> decide

/-- What an operator leaves to the rest is too loose for its right operand. -/
theorem BinaryOperator.precedence_lt_rightPrecedence {operator operator' : BinaryOperator}
    (h : operator'.token.demand ≤ Tightness.binary operator) :
    operator'.precedence < Grammar.rightPrecedence operator := by
  rw [demand_token] at h
  unfold Tightness.binary Tightness.unary at h
  have hle := operator.precedence_le
  unfold Grammar.rightPrecedence
  by_cases hop' : operator' = .exponent
  · rw [if_pos hop'] at h
    omega
  · rw [if_neg hop'] at h
    have hlt := precedence_lt hop'
    split
    · rename_i hop
      subst hop
      exact hlt
    · omega

/-- The right operand of an operator ends in front of what the operator leaves to the rest. -/
theorem ReachesOperators.right {operator : BinaryOperator} {d : Nat}
    (h : ReachesOperators (Grammar.rightPrecedence operator + 2) noIn ys e)
    (hroom : Room d c noIn ys) (hs : s.Faces (ys ++ rest))
    (hf : Spares (Tightness.binary operator) rest) :
    Gives ((Grammar.ofDepth d).binaryRule (Grammar.rightPrecedence operator)) c s fun o s' =>
      Stands e rest o.node s' := by
  have hle : Tightness.binary operator ≤ Grammar.rightPrecedence operator + 2 := by
    unfold Tightness.binary Grammar.rightPrecedence
    split <;> omega
  refine h d c s rest _ _ hroom hs (hf.mono hle) (Nat.le_refl _) ?_
  obtain ⟨x, rest, rfl, hx⟩ := hf
  intro o s' bound ho hbound
  obtain ⟨bound, rfl⟩ : ∃ b, bound = b + 1 := by
    have := hroom.bound
    exact ⟨bound - 1, by omega⟩
  refine gives_operatorRound ho.2 (fun operator' hop => ?_) ho
  rw [BinaryOperator.kind_of_ofToken? hop] at hx
  exact BinaryOperator.precedence_lt_rightPrecedence hx

theorem ReachesOperators.binary {operator : BinaryOperator}
    (hl : ReachesOperators operator.token.demand noIn xs e₁)
    (hr : ReachesOperators (Grammar.rightPrecedence operator + 2) noIn ys e₂)
    (hin : operator = .isIn → noIn = false) :
    ReachesOperators (Tightness.binary operator) noIn (xs ++ .of operator.token :: ys)
      (.mk id span (.binaryExpression operator e₁ e₂)) := by
  intro d c s rest least Q hroom hs hf hleast hQ
  rw [List.append_assoc, List.cons_append] at hs
  have hdemand := operator.binary_le_demand
  obtain ⟨d, rfl, hbelow⟩ := hroom.below (by simp)
  have hroom' := hbelow ys (by simp; omega)
  refine hl (d + 1) c s _ least Q (hroom.shorter (by simp)) hs (.cons (Nat.le_refl _) _)
    (Nat.le_trans hleast hdemand) ?_
  intro o s' bound ho hbound
  obtain ⟨bound, rfl⟩ : ∃ b, bound = b + 1 := by
    have := hroom.bound
    simp only [List.length_append, List.length_cons] at this
    exact ⟨bound - 1, by omega⟩
  have hop : BinaryOperator.ofToken? s'.current.kind = some operator := by
    rw [ho.2.kind]
    exact operator.ofToken?_token
  have hallowed : ¬ (some operator = some BinaryOperator.isIn && !c.allowIn) = true := by
    intro h
    simp only [Option.some.injEq, Bool.and_eq_true, decide_eq_true_eq, Bool.not_eq_true'] at h
    rw [hroom.isIn (hin h.1)] at h
    exact absurd h.2 nofun
  have hprec : ¬ operator.precedence < least := by
    unfold Tightness.binary at hleast
    omega
  refine .round (.bind (.bind (.current (.bind (.read ?_)))))
  rw [hop]
  refine .iteFalse hallowed (.pure (.iteFalse hprec (.bind (.advance ?_))))
  refine .step (hr.right hroom' ho.2.next hf) fun o' s'' ho' => ?_
  refine .bind (.node fun span => .pure ?_)
  refine hQ _ _ bound ⟨Node.shape_congr ?_, ho'.2.counted⟩ ?_
  · simp only [Kind.map, ho.1, ho'.1]
  · simp only [List.length_append, List.length_cons]
    omega

theorem ReachesOperators.question
    (ht : ReachesOperators (Tightness.conditional + 1) noIn xs e₁) {noIn' : Bool}
    (hc : ReadsAssignment noIn' ys e₂) (ha : ReadsAssignment noIn zs e₃) :
    ReadsConditional noIn (xs ++ .mark .question :: (ys ++ .mark .colon :: zs))
      (.mk id span (.conditionalExpression e₁ e₂ e₃)) := by
  intro d c s rest hroom hs hf
  simp only [List.append_assoc, List.cons_append] at hs
  obtain ⟨d, rfl, hbelow⟩ := hroom.below (by simp)
  have hroomc := (hbelow ys (by simp; omega)).bracketed noIn'
  have hrooma := hbelow zs (by simp; omega)
  refine .bind (.here (.bind (ht.alone (hroom.shorter (by simp)) hs (by decide) rfl ?_)))
  intro o s1 ho
  refine .bind (.eat ho.2.kind (.iteTrue rfl (.step (hc d _ s1.next _ hroomc ho.2.next ?_) ?_)))
  · exact .cons (by decide) _
  intro consequent s2 hn
  refine .bind (.expect hn.2.kind (.step (ha d c s2.next rest hrooma hn.2.next hf) ?_))
  intro alternate s3 hm
  refine .bind (.node fun span => .pure ⟨Node.shape_congr ?_, hm.2.counted⟩)
  simp only [Kind.map, ho.1, hn.1, hm.1]

theorem ReachesOperators.assignment {operator : AssignmentOperator}
    (hl : ReachesOperators (Tightness.conditional + 1) noIn xs e₁) (hstarts : Starts xs)
    (ht : e₁.isSimpleTarget = true) (hr : ReadsAssignment noIn ys e₂) :
    ReadsAssignment noIn (xs ++ .mark operator.mark :: ys)
      (.mk id span (.assignmentExpression operator e₁ e₂)) := by
  intro d c s rest hroom hs hf
  rw [List.append_assoc, List.cons_append] at hs
  obtain ⟨d, rfl, hbelow⟩ := hroom.below (by simp)
  have hroom' := hbelow ys (by simp; omega)
  have harrow : TokenKind.punctuator operator.mark ≠ .punctuator .arrow := by
    cases operator <;> exact nofun
  have hquestion : TokenKind.punctuator operator.mark ≠ .punctuator .question := by
    cases operator <;> exact nofun
  have hbinary : BinaryOperator.ofToken? (.punctuator operator.mark) = none := by
    cases operator <;> rfl
  refine gives_assignmentRule (hstarts.opens_current hs) (hstarts.peek_ne rfl hs harrow) ?_
  refine (hl.choice (hroom.shorter (by simp)) hs (Nat.le_of_eq operator.demand_mark) hbinary
    hquestion).mono ?_
  intro o s1 ho
  refine ⟨ho.2.kind ▸ harrow, .bind (.current ?_)⟩
  rw [show s1.current.kind = .punctuator operator.mark from ho.2.kind, operator.ofToken?_mark]
  have htarget : o.node.isSimpleTarget = true := (Node.isSimpleTarget_of_shape ho.1).trans ht
  refine .bind (gives_assignmentTarget htarget (.bind (.advance ?_)))
  refine .step (hr d c s1.next rest hroom' ho.2.next hf) fun value s2 hv => ?_
  refine .node fun span => ⟨Node.shape_congr ?_, hv.2.counted⟩
  simp only [Kind.map, ho.1, hv.1]

end

end EsModule.Syntax
