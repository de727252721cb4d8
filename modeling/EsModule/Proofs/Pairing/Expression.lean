import EsModule.Proofs.Grammar.Expression
import EsModule.Proofs.Pairing.Primary

/-!
# Rules that follow: expressions

An operator is known by the kind of its token. Whether an arrow function starts is asked of up to
two tokens behind the current one.

An operand that is made by `new` is read by a rule that is called without moving over a token. So
the rules for operands ask that it follows as far in front as they do (`Grammar.MakesAlike`).
-/

namespace EsModule.Syntax

section

variable {i : Pairing} {n l : Nat} {g g' : Grammar} {s : State}

/-! ## Members and calls -/

theorem follows_arguments (hg : g.Follows i n g') :
    Follows i (n + 1) 1 g.arguments g'.arguments (List.map i.node) := by
  intro s l hl
  rw [Grammar.arguments_eq, Grammar.arguments_eq]
  refine .expect fun _ => ?_
  refine .bind (.withIn (.listUntil (f := i.node)
    ((follows_entryItem (follows_spreadOrAssignment hg)).mono (by omega)))) ?_
  exact fun args s1 => .expect fun _ => .pure rfl (by omega)

theorem follows_memberName : Follows i n 1 Grammar.memberName Grammar.memberName i.node := by
  intro s l hl
  refine .here (.current ?_)
  rw [Transfer.token_kind]
  split
  · rename_i name hk
    exact .advance (by rw [hk]; rfl) (.node rfl (by omega))
  · exact .bind (follows_anyName.echoes s) fun _ _ => .node rfl (by omega)

theorem follows_computedMember (hg : g.Follows i n g') :
    Follows i n 1 g.computedMember g'.computedMember i.node := by
  intro s l hl
  refine .bind (.withIn ((follows_expression hg.assignment).on s (by omega))) fun property s1 => ?_
  exact .expect fun _ => .pure rfl (by omega)

theorem follows_optionalSuffix (hg : g.Follows i n g') (object : Node) (start : Nat) :
    Follows i n 1 (g.optionalSuffix object start)
      (g'.optionalSuffix (i.node object) (i.start start)) i.node := by
  intro s l hl
  refine .ifSees (fun _ => ?_) fun _ => .ifEat (fun _ => ?_) fun _ => ?_
  · exact .bind ((follows_arguments hg).on s (by omega)) fun _ _ => .node rfl (by omega)
  · exact .bind ((follows_computedMember hg).on _ (by omega)) fun _ _ => .node rfl (by omega)
  · exact .bind (follows_memberName.echoes s) fun _ _ => .node rfl (by omega)

theorem follows_call (hg : g.Follows i n g') (callee : Node) (start : Nat) (mayBeHead : Bool) :
    Follows i (n + 1) 1 (g.call callee start mayBeHead)
      (g'.call (i.node callee) (i.start start) mayBeHead) i.operand := by
  intro s l hl
  refine .bind ((follows_arguments hg).on s (by omega)) fun args s1 => .made rfl fun _ _ =>
    .pure ?_ (by omega)
  cases mayBeHead <;> rfl

theorem echoes_memberRound (hg : g.Follows i n g') (start : Nat) (startsAsync : Bool)
    (operand : Operand) (hl : l ≤ n + 1) :
    Echoes i l (Round.level 0 l) s (g.memberRound start startsAsync operand)
      (g'.memberRound (i.start start) startsAsync (i.operand operand))
      (Round.map i.operand i.operand) := by
  refine .current ?_
  dsimp only [Transfer.token_newlineBefore]
  rw [Transfer.token_kind]
  split
  · rename_i hk
    refine .advance (by rw [hk]; rfl) (.bind (follows_memberName.echoes _) fun property s1 => ?_)
    exact .made rfl fun _ _ => .again rfl (by omega)
  · rename_i hk
    refine .advance (by rw [hk]; rfl) ?_
    exact .bind ((follows_optionalSuffix hg operand.node _).on _ (by omega)) fun _ _ =>
      .again rfl (by omega)
  · rename_i hk
    refine .advance (by rw [hk]; rfl) ?_
    refine .bind ((follows_computedMember hg).on _ (by omega)) fun property s1 => ?_
    exact .made rfl fun _ _ => .again rfl (by omega)
  · refine .current ?_
    simp only [Transfer.operand_node, Transfer.node_name?, Transfer.token_newlineBefore]
    exact .bind ((follows_call hg operand.node _ _).on _ (by omega)) fun _ _ =>
      .again rfl (by omega)
  · refine .bind ((follows_template hg).on _ (by omega)) fun quasi s1 => ?_
    exact .made rfl fun _ _ => .again rfl (by omega)
  · exact .finish rfl (by omega)

theorem follows_leftHandSideRule (hg : g.Follows i n g') (hnew : g.MakesAlike i (n + 1) g') :
    Follows i (n + 1) 1 g.leftHandSideRule g'.leftHandSideRule i.operand := by
  intro s l hl
  rw [Grammar.leftHandSideRule_eq, Grammar.leftHandSideRule_eq]
  refine .here (.seesWord ?_)
  generalize decide (s.current.kind = .keyword .kwAsync) = startsAsync
  refine .seesWord ?_
  extract_lets behind behind'
  have hbehind : ∀ first s1, Echoes i (l - 1) (fun _ => l - 1) s1 (behind first)
      (behind' (i.operand first)) i.operand :=
    fun first s1 => .loop (k := 0) rfl fun operand s2 l' hl' =>
      echoes_memberRound hg _ startsAsync operand (by omega)
  refine .ite (fun hk => ?_) fun _ => .bind ((follows_primary hg).on s (by omega)) hbehind
  refine .bind (hnew s l hl (of_decide_eq_true hk)) fun n s1 => .bindPure ?_
  exact hbehind ⟨n, none⟩ s1

theorem echoes_calleeRound (hg : g.Follows i n g') (start : Nat) (callee : Node)
    (hl : l ≤ n + 1) :
    Echoes i l (Round.level 0 l) s (g.calleeRound start callee)
      (g'.calleeRound (i.start start) (i.node callee)) (Round.map i.node i.node) := by
  refine .ifEat (fun _ => ?_) fun _ => .ifEat (fun _ => ?_) fun _ => .finish rfl (by omega)
  · refine .bind (follows_memberName.echoes _) fun property s1 => ?_
    exact .made rfl fun _ _ => .again rfl (by omega)
  · refine .bind ((follows_computedMember hg).on _ (by omega)) fun property s1 => ?_
    exact .made rfl fun _ _ => .again rfl (by omega)

theorem follows_newCallee (hg : g.Follows i n g') (hnew : g.MakesAlike i (n + 1) g') :
    Follows i (n + 1) 1 g.newCallee g'.newCallee i.node := by
  intro s l hl
  rw [Grammar.newCallee_eq, Grammar.newCallee_eq]
  refine .here (.seesWord ?_)
  extract_lets behind behind'
  have hbehind : ∀ first s1, Echoes i (l - 1) (fun _ => l - 1) s1 (behind first)
      (behind' (i.node first)) i.node :=
    fun first s1 => .loop (k := 0) rfl fun callee s2 l' hl' =>
      echoes_calleeRound hg _ callee (by omega)
  refine .ite (fun hk => ?_) fun _ => ?_
  · exact .bind (hnew s l hl (of_decide_eq_true hk)) hbehind
  · exact .bind ((follows_primary hg).on s (by omega)) fun o s1 => .bindPure (hbehind o.node s1)

theorem makesAlike_newExpressionRule (hg : g.Follows i n g') (hnew : g.MakesAlike i (n + 1) g')
    (hl : l ≤ n + 2) (hk : s.current.kind = .keyword .kwNew) :
    Echoes i l (fun _ => l - 1) s g.newExpressionRule g'.newExpressionRule i.node := by
  refine .here (.advance (by rw [hk]; rfl) (.ifEat (fun _ => ?_) fun _ => ?_))
  · exact .expectName fun _ => .node rfl (by omega)
  · refine .bind ((follows_newCallee hg hnew).on _ (by omega)) fun callee s1 => ?_
    refine .ifSees (fun _ => ?_) fun _ => ?_
    · exact .bind ((follows_arguments hg).on _ (by omega)) fun _ _ => .node rfl (by omega)
    · exact .bindPure (.node rfl (by omega))

/-! ## Operators -/

theorem UnaryOperator.isText_of_ofToken? {kind : TokenKind} {operator : UnaryOperator}
    (h : UnaryOperator.ofToken? kind = some operator) : kind.isText = true := by
  have hk : decide (operator.token = kind) = true :=
    List.find?_some (p := fun op : UnaryOperator => decide (op.token = kind)) h
  rw [← of_decide_eq_true hk]
  cases operator <;> rfl

theorem UpdateOperator.isText_of_ofToken? {kind : TokenKind} {operator : UpdateOperator}
    (h : UpdateOperator.ofToken? kind = some operator) : kind.isText = true := by
  rw [UpdateOperator.kind_of_ofToken? h]
  rfl

theorem BinaryOperator.isText (operator : BinaryOperator) : operator.token.isText = true := by
  cases operator <;> rfl

theorem follows_postfixUpdate (hg : g.Follows i n g') (hnew : g.MakesAlike i (n + 1) g') :
    Follows i (n + 1) 1 g.postfixUpdate g'.postfixUpdate i.operand := by
  intro s l hl
  refine .here (.bind ((follows_leftHandSideRule hg hnew).on s (by omega)) fun o s1 => .current ?_)
  rw [Transfer.token_kind, Transfer.token_newlineBefore]
  split
  · rename_i operator hoperator _
    rw [Transfer.operand_node, Transfer.node_isSimpleTarget]
    refine .ite (fun _ => ?_) fun _ => .failThen nofun
    exact .advance (UpdateOperator.isText_of_ofToken? hoperator) (.operand rfl (by omega))
  · exact .pure rfl (by omega)

theorem follows_unaryRule (hg : g.Follows i n g') (hnew : g.MakesAlike i (n + 1) g') :
    Follows i (n + 1) 1 g.unaryRule g'.unaryRule i.operand := by
  intro s l hl
  refine .here (.current ?_)
  dsimp only [Transfer.token_kind]
  split
  · rename_i operator hoperator
    refine .advance (UnaryOperator.isText_of_ofToken? hoperator) ?_
    exact .bind (hg.unary.on _ (by omega)) fun argument s1 => .operand rfl (by omega)
  split
  · rename_i operator hoperator
    refine .advance (UpdateOperator.isText_of_ofToken? hoperator) ?_
    refine .bind (hg.unary.on _ (by omega)) fun argument s1 => ?_
    rw [Transfer.operand_node, Transfer.node_isSimpleTarget]
    exact .ite (fun _ => .operand rfl (by omega)) fun _ => .failThen nofun
  refine .ifEatWord (fun _ => ?_) fun _ => (follows_postfixUpdate hg hnew).on s (by omega)
  exact .bind (hg.unary.on _ (by omega)) fun argument s1 => .operand rfl (by omega)

/-- Which operator the token stands for is a question about its kind and the context. -/
theorem Echoes.binaryOperator? {γ δ : Type} {r : γ → δ} {m : γ → Nat}
    {k : Option BinaryOperator → Parser γ} {k' : Option BinaryOperator → Parser δ}
    (h : ∀ o, (∀ operator, o = some operator → s.current.kind.isText = true) →
      Echoes i l m s (k o) (k' o) r) :
    Echoes i l m s (Grammar.binaryOperator? >>= k) (Grammar.binaryOperator? >>= k') r := by
  have hfound : ∀ isName : Bool, Echoes i l m s
      ((if isName then Pure.pure none
        else Pure.pure (BinaryOperator.ofToken? s.current.kind)) >>= k)
      ((if isName then Pure.pure none
        else Pure.pure (BinaryOperator.ofToken? s.current.kind)) >>= k') r := by
    intro isName
    cases isName with
    | true => exact .bindPure (h none nofun)
    | false =>
      refine .bindPure (h _ fun operator hoperator => ?_)
      rw [BinaryOperator.kind_of_ofToken? hoperator]
      exact operator.isText
  rw [Grammar.binaryOperator?, bind_assoc, bind_assoc]
  refine .current ?_
  dsimp only
  rw [bind_assoc, bind_assoc]
  refine .read fun c c' hc => ?_
  rw [hc.allowIn]
  exact hfound _

theorem echoes_operatorRound (hg : g.Follows i n g') (least start : Nat) (left : Operand)
    (hl : l ≤ n + 1) :
    Echoes i l (Round.level 0 l) s (g.operatorRound least start left)
      (g'.operatorRound least (i.start start) (i.operand left))
      (Round.map i.operand i.operand) := by
  refine .binaryOperator? fun found hfound => ?_
  split
  · rename_i operator
    refine .ite (fun _ => .finish rfl (by omega)) fun _ => .advance (hfound operator rfl) ?_
    exact .bind ((hg.binary _).on _ (by omega)) fun right s1 => .made rfl fun _ _ =>
      .again rfl (by omega)
  · exact .finish rfl (by omega)

theorem follows_binaryRule (hg : g.Follows i n g') (hnew : g.MakesAlike i (n + 1) g')
    (least : Nat) :
    Follows i (n + 1) 1 (g.binaryRule least) (g'.binaryRule least) i.operand := by
  intro s l hl
  rw [Grammar.binaryRule_eq, Grammar.binaryRule_eq]
  refine .here (.bind ((follows_unaryRule hg hnew).on s (by omega)) fun o s1 => ?_)
  exact .loop (k := 0) rfl fun left s2 l' hl' => echoes_operatorRound hg least _ left (by omega)

theorem follows_conditional (hg : g.Follows i n g') (hnew : g.MakesAlike i (n + 1) g') :
    Follows i (n + 1) 1 g.conditional g'.conditional i.operand := by
  intro s l hl
  refine .here (.bind ((follows_binaryRule hg hnew 1).on s (by omega)) fun test s1 => ?_)
  refine .ifEat (fun _ => ?_) fun _ => .pure rfl (by omega)
  refine .bind (.withIn (hg.assignment.on _ (by omega))) fun consequent s2 => .expect fun _ => ?_
  exact .bind (hg.assignment.on _ (by omega)) fun alternate s4 => .operand rfl (by omega)

/-! ## Arrow functions -/

theorem follows_arrowBody (hg : g.Follows i n g') (start : Nat) (params : List Node)
    (isAsync : Bool) : Follows i (n + 1) 1 (g.arrowBody start params isAsync)
      (g'.arrowBody (i.start start) (params.map i.node) isAsync) i.node := by
  intro s l hl
  refine .expect fun _ => ?_
  refine .bind (f := Prod.map i.node id) (m := fun _ => l - 1)
    (.inFunction (.ifSees (fun _ => ?_) fun _ => ?_)) ?_
  · exact .bind ((follows_block hg).on _ (by omega)) fun _ _ => .pure rfl (by omega)
  · exact .bind (hg.assignment.on _ (by omega)) fun _ _ => .pure rfl (by omega)
  · exact fun r s2 => .node rfl (by omega)

theorem follows_arrowBehind (hg : g.Follows i n g') (start : Nat) (head : Operand) :
    Follows i (n + 1) 1 (g.arrowBehind start head)
      (g'.arrowBehind (i.start start) (i.operand head)) i.node := by
  intro s l hl
  obtain ⟨n, items⟩ := head
  cases items with
  | none => exact .unexpected
  | some items =>
    refine .current ?_
    rw [Transfer.token_newlineBefore]
    refine .ite (fun _ => .unexpectedThen) fun _ => ?_
    beta_reduce
    extract_lets isAsync isAsync'
    have hasync : isAsync' = isAsync := by
      obtain ⟨id, span, kind⟩ := n
      cases kind <;> rfl
    have hparams : (items.map i.node).mapM (fun item : Node => item.toParameter?) =
        (items.mapM fun item : Node => item.toParameter?).map (List.map i.node) :=
      mapM_map_comm fun item _ => i.node_toParameter? item
    rw [hasync, hparams]
    cases items.mapM fun item : Node => item.toParameter? with
    | some params => exact (follows_arrowBody hg start params isAsync).on s (by omega)
    | none => exact .fail nofun

/-! ## Assignments -/

theorem echoes_yieldExpression (hg : g.Follows i n g') (hk : s.current.kind = .keyword .kwYield)
    (hl : l ≤ n + 1) :
    Echoes i l (fun _ => l - 1) s g.yieldExpression g'.yieldExpression i.node := by
  refine .here (.advance (by rw [hk]; rfl) (.current ?_))
  dsimp only [Transfer.token_kind, Transfer.token_newlineBefore]
  refine .ite (fun _ => .node rfl (by omega)) fun _ => ?_
  refine .bind ((follows_eat _).echoes _) fun delegate s1 => ?_
  exact .bind (hg.assignment.on s1 (by omega)) fun _ _ => .node rfl (by omega)

theorem follows_assignmentTarget (operator : AssignmentOperator) (left : Node) :
    Follows i n 0 (Grammar.assignmentTarget operator left)
      (Grammar.assignmentTarget operator (i.node left)) i.node := by
  intro s l hl
  rw [Grammar.assignmentTarget, Grammar.assignmentTarget, Transfer.node_toTarget?,
    Transfer.node_isSimpleTarget]
  refine .ite (fun _ => ?_) fun _ => .ite (fun _ => .pure rfl (by omega)) fun _ => .fail nofun
  cases left.toTarget? with
  | some target => exact .pure rfl (by omega)
  | none => exact .fail nofun

/-- Whether a token may be the parameter of an arrow function behind `async`. -/
def Token.isParameter (t : Token) : Bool :=
  match t.kind, t.newlineBefore with
  | .identifier _, false => true
  | _, _ => false

/-- Whether an arrow function with a name for its parameter starts at the word `async`. -/
def State.isAsyncArrow (s : State) : Bool :=
  let next := nextToken s.behind
  decide (s.current.kind = .keyword .kwAsync) && (next.1.isParameter &&
    decide ((nextToken next.2).1.kind = .punctuator .arrow))

theorem startsAsyncArrow_eq (c : Context) (s : State) :
    Grammar.startsAsyncArrow c s = .ok (s.isAsyncArrow, s) := by
  rw [State.isAsyncArrow, Token.isParameter]
  show (if decide (s.current.kind = .keyword .kwAsync) = true then _ else _ : Parser Bool) c s = _
  cases decide (s.current.kind = .keyword .kwAsync) with
  | false => rfl
  | true =>
    show (match (nextToken s.behind).1.kind, (nextToken s.behind).1.newlineBefore with
      | .identifier _, false =>
        pure (decide ((nextToken (nextToken s.behind).2).1.kind = .punctuator .arrow))
      | _, _ => pure false : Parser Bool) c s = _
    cases (nextToken s.behind).1.kind <;> cases (nextToken s.behind).1.newlineBefore <;> rfl

theorem Pairing.isAsyncArrow (ht : i.Tracked s) (hclear : i.Clear s) :
    (i.state s).isAsyncArrow = s.isAsyncArrow := by
  by_cases hk : s.current.kind = .keyword .kwAsync
  · have hmark : s.current.kind.isLast = false := by rw [hk]; rfl
    have hnext := i.ahead ht hclear hmark
    show (decide (s.current.kind = _) && ((nextToken (i.cursor s.behind)).1.isParameter &&
      decide ((nextToken (nextToken (i.cursor s.behind)).2).1.kind = _))) = _
    rw [hnext, State.isAsyncArrow]
    show (_ && ((nextToken s.behind).1.isParameter && _)) = _
    cases hparam : (nextToken s.behind).1.isParameter with
    | false => rfl
    | true =>
      have hlast : (nextToken s.behind).1.kind.isLast = false := by
        unfold Token.isParameter at hparam
        split at hparam
        · rename_i name hname _
          rw [hname]
          rfl
        · cases hparam
      show (_ && (true && decide ((nextToken (i.cursor (nextToken s.behind).2)).1.kind = _))) = _
      rw [i.beyond ht hclear hmark hlast]
      rfl
  · have hno : ∀ b : Bool, (decide (s.current.kind = .keyword .kwAsync) && b) = false := by
      simp [hk]
    exact (hno _).trans (hno _).symm

/-- Whether `async` starts an arrow function is asked of the two tokens behind it. -/
theorem Echoes.startsAsyncArrow {γ δ : Type} {r : γ → δ} {m : γ → Nat} {p q : Parser γ}
    {p' q' : Parser δ} (h1 : s.current.kind = .keyword .kwAsync → Echoes i l m s p p' r)
    (h0 : Echoes i l m s q q' r) :
    Echoes i l m s (Grammar.startsAsyncArrow >>= fun b => if b = true then p else q)
      (Grammar.startsAsyncArrow >>= fun b => if b = true then p' else q') r :=
  .ask (f := id) startsAsyncArrow_eq startsAsyncArrow_eq
    (fun ht hclear => i.isAsyncArrow ht hclear)
    (.ite (fun h => h1 (of_decide_eq_true (Bool.and_eq_true_iff.mp h).1)) fun _ => h0)

/-- An assignment, or an arrow function whose parameters are read as an operand. -/
def Grammar.assignmentBehind (g : Grammar) (start : Nat) : Parser Node := do
  let left ← g.conditional
  if ← Parser.sees .arrow then return ← g.arrowBehind start left
  match AssignmentOperator.ofToken? (← Parser.current).kind with
  | none => return left.node
  | some operator =>
    let target ← assignmentTarget operator left.node
    Parser.advance
    let right ← g.assignment
    Parser.node (.assignmentExpression operator target right) start

theorem follows_assignmentBehind (hg : g.Follows i n g') (hnew : g.MakesAlike i (n + 1) g')
    (start : Nat) :
    Follows i (n + 1) 1 (g.assignmentBehind start) (g'.assignmentBehind (i.start start))
      i.node := by
  intro s l hl
  refine .bind ((follows_conditional hg hnew).on s (by omega)) ?_
  refine fun left s1 => .ifSees (fun _ => ?_) fun _ => ?_
  · exact ((follows_arrowBehind hg _ left).on s1 (by omega)).widen (Nat.le_refl _) fun _ =>
      Nat.sub_le _ _
  refine .current ?_
  rw [Transfer.token_kind]
  split
  · exact .pure rfl (by omega)
  · rename_i operator hoperator
    refine .step (P := fun _ s' => s' = s1)
      ((follows_assignmentTarget operator left.node).echoes s1) ?_ ?_
    · intro c
      refine .ite (fun _ => ?_) fun _ => .ite (fun _ => .pure rfl) fun _ => .fail
      split
      · exact .pure rfl
      · exact .fail
    · intro target s2 hs2
      subst hs2
      refine .advance ?_ (.bind (hg.assignment.on _ (by omega)) fun right s3 =>
        .node rfl (by omega))
      rw [AssignmentOperator.kind_of_ofToken? hoperator]
      rfl

theorem follows_assignmentRule (hg : g.Follows i n g') (hnew : g.MakesAlike i (n + 1) g') :
    Follows i (n + 1) 1 g.assignmentRule g'.assignmentRule i.node := by
  intro s l hl
  have hbody : ∀ param isAsync s' l', l' ≤ l → Echoes i l' (fun _ => l - 1) s'
      (g.arrowBody s.current.span.start [param] isAsync)
      (g'.arrowBody (i.start s.current.span.start) [i.node param] isAsync) i.node :=
    fun param isAsync s' l' hl' =>
      ((follows_arrowBody hg _ [param] isAsync).on s' (by omega)).widen (Nat.le_refl _) fun _ =>
        by omega
  refine .here (.seesWord (.read fun c c' hc => ?_))
  rw [hc.inGenerator]
  refine .ite (fun h => ?_) fun _ => .startsAsyncArrow (fun hk => ?_) ?_
  · exact echoes_yieldExpression hg (of_decide_eq_true (Bool.and_eq_true_iff.mp h).1) (by omega)
  · refine .advance (by rw [hk]; rfl) (.bind (follows_bindingName.echoes _) fun param s1 => ?_)
    exact hbody param true s1 _ (by omega)
  refine .atBindingName fun b hb => .andPeek (fun h => ?_) (fun _ => rfl) (fun _ => ?_) ?_
  · rcases hb h with ⟨name, hk⟩ | hk
    · rw [hk]
      rfl
    · rw [hk]
      rfl
  · refine .bind (follows_bindingName.echoes s) fun param s1 => ?_
    exact hbody param false s1 _ (by omega)
  · exact (follows_assignmentBehind hg hnew _).on s (by omega)

end

end EsModule.Syntax
