import EsModule.Proofs.Grammar.Statement
import EsModule.Proofs.Pairing.Expression

/-!
# Rules that follow: statements

A rule that moves over its first token without looking at it is asked what the token is. So is a
rule that moves over two: the second one was looked at in advance.

A statement may start with an expression that is read by a rule of the depth below. So the rule for
statements asks that assignments follow as far in front as it does.
-/

namespace EsModule.Syntax

section

variable {i : Pairing} {n l : Nat} {g g' : Grammar} {s : State}

/-- A node that is made behind the semicolon, if there is one. -/
theorem Echoes.endsWithSemicolon {m : Nat} {k k' : Kind Node} {start : Nat}
    (hk : k' = k.map i.node) (hl : l ≤ m) :
    Echoes i l (fun _ => m) s (Parser.semicolon >>= fun _ => Parser.node k start)
      (Parser.semicolon >>= fun _ => Parser.node k' (i.start start)) i.node :=
  .semicolon fun _ => .node hk (by omega)

/-! ## Variables -/

theorem follows_declarator (hg : g.Follows i n g') :
    Follows i n 1 g.declarator g'.declarator i.node := by
  intro s l hl
  refine .here (.bind (hg.bindingTarget.on s (by omega)) fun target s1 =>
    .ifEat (fun _ => ?_) fun _ => ?_)
  · exact .bind (hg.assignment.on _ (by omega)) fun init s2 => .bindPure (.node rfl (by omega))
  · exact .bindPure (.node rfl (by omega))

theorem variableKind?_isText {kind : TokenKind} {word : VariableKind}
    (h : Grammar.variableKind? kind = some word) : kind.isText = true := by
  cases kind <;> first | rfl | cases h

theorem echoes_declaratorRound (hg : g.Follows i n g') (ds : List Node) (hl : l ≤ n) :
    Echoes i l (Round.level 0 l) s (g.declaratorRound ds) (g'.declaratorRound (ds.map i.node))
      (Round.map (List.map i.node) (List.map i.node)) := by
  refine .ifEat (fun _ => .bind ((follows_declarator hg).on _ (by omega)) fun d s1 => ?_) fun _ =>
    .finish rfl (by omega)
  exact .again (by simp) (by omega)

theorem echoes_variableDeclaration (hg : g.Follows i n g') (hk : s.current.kind.isText = true)
    (kind : VariableKind) (hl : l ≤ n + 1) :
    Echoes i l (fun _ => l - 1) s (g.variableDeclaration kind) (g'.variableDeclaration kind)
      i.node := by
  rw [Grammar.variableDeclaration_eq, Grammar.variableDeclaration_eq]
  refine .here (.advance hk (.bind ((follows_declarator hg).on _ (by omega)) fun first s1 => ?_))
  refine .bind (.loop (f := List.map i.node) (g := List.map i.node) (k := 0) rfl ?_)
    fun ds s2 => .node rfl (by omega)
  exact fun ds s2 l' hl' => echoes_declaratorRound hg ds (by omega)

theorem echoes_variableStatement (hg : g.Follows i n g') (hk : s.current.kind.isText = true)
    (kind : VariableKind) (hl : l ≤ n + 1) :
    Echoes i l (fun _ => l - 1) s (g.variableStatement kind) (g'.variableStatement kind)
      i.node := by
  refine .bind (echoes_variableDeclaration hg hk kind (by omega)) fun declaration s1 => ?_
  refine .semicolon fun s2 => .tracked fun ht => .get (.nodeAt ?_ ?_ (by omega))
  · exact i.node_kind declaration
  · rw [i.span_through ht, Transfer.node_span]
    rfl

/-! ## Simple statements -/

theorem follows_expressionStatement (ha : Follows i n 1 g.assignment g'.assignment i.node) :
    Follows i n 1 g.expressionStatement g'.expressionStatement i.node :=
  fun s _ _ => .here (.bind ((follows_expression ha).on s (by omega)) fun _ _ =>
    .endsWithSemicolon rfl (by omega))

theorem follows_head (hg : g.Follows i n g') : Follows i (n + 1) 1 g.head g'.head i.node := by
  intro s l hl
  refine .expect fun _ => .bind (.withIn
    ((follows_expression hg.assignment).on _ (by omega))) fun e s2 => ?_
  exact .expect fun _ => .pure rfl (by omega)

theorem echoes_returnStatement (hg : g.Follows i n g') (hk : s.current.kind.isText = true)
    (hl : l ≤ n + 1) :
    Echoes i l (fun _ => l - 1) s g.returnStatement g'.returnStatement i.node := by
  refine .here (.advance hk (.current ?_))
  dsimp only [Transfer.token_kind, Transfer.token_newlineBefore]
  refine .ite (fun _ => .bindPure (.endsWithSemicolon rfl (by omega))) fun _ => ?_
  refine .bind ((follows_expression hg.assignment).on _ (by omega)) fun e s1 => .bindPure ?_
  exact .endsWithSemicolon rfl (by omega)

theorem echoes_jumpStatement {kind : Option String → Kind Node}
    (hkind : ∀ label, kind label = (kind label).map i.node)
    (hk : s.current.kind.isText = true) :
    Echoes i l (fun _ => l - 1) s (Grammar.jumpStatement kind) (Grammar.jumpStatement kind)
      i.node := by
  refine .here (.advance hk (.current ?_))
  rw [Transfer.token_kind, Transfer.token_newlineBefore]
  split
  · rename_i label hlabel _
    exact .advance (by rw [hlabel]; rfl) (.bindPure (.endsWithSemicolon (hkind _) (by omega)))
  · exact .bindPure (.endsWithSemicolon (hkind _) (by omega))

theorem echoes_throwStatement (hg : g.Follows i n g') (hk : s.current.kind.isText = true)
    (hl : l ≤ n + 1) :
    Echoes i l (fun _ => l - 1) s g.throwStatement g'.throwStatement i.node := by
  refine .here (.advance hk (.current ?_))
  rw [Transfer.token_newlineBefore]
  refine .ite (fun _ => .failThen nofun) fun _ => ?_
  exact .bind ((follows_expression hg.assignment).on _ (by omega)) fun e s1 =>
    .endsWithSemicolon rfl (by omega)

theorem echoes_labeledStatement (hg : g.Follows i n g') (hk : s.current.kind.isText = true)
    (hnext : s.next.current.kind.isText = true) (label : String) (hl : l ≤ n + 1) :
    Echoes i l (fun _ => l - 1) s (g.labeledStatement label) (g'.labeledStatement label) i.node :=
  .here (.advance hk (.advance hnext (.bind (hg.statement.on _ (by omega)) fun _ _ =>
    .node rfl (by omega))))

/-! ## Choices -/

theorem echoes_ifStatement (hg : g.Follows i n g') (hk : s.current.kind.isText = true)
    (hl : l ≤ n + 1) :
    Echoes i l (fun _ => l - 1) s g.ifStatement g'.ifStatement i.node := by
  refine .here (.advance hk (.bind ((follows_head hg).on _ (by omega)) fun test s1 => ?_))
  refine .bind (hg.statement.on s1 (by omega)) fun consequent s2 =>
    .ifEatWord (fun _ => ?_) fun _ => ?_
  · exact .bind (hg.statement.on _ (by omega)) fun alternate s3 => .bindPure (.node rfl (by omega))
  · exact .bindPure (.node rfl (by omega))

theorem follows_caseRest (hg : g.Follows i n g') (start : Nat) (test : Option Node) :
    Follows i (n + 1) 1 (g.caseRest start test) (g'.caseRest (i.start start) (test.map i.node))
      i.node := by
  intro s l hl
  refine .expect fun _ => ?_
  refine .bind (.listUntil (f := i.node) ((follows_plainItem hg.statement).mono (by omega))) ?_
  exact fun _ _ => .node rfl (by omega)

theorem follows_switchCase (hg : g.Follows i n g') :
    Follows i (n + 1) 1 g.switchCase g'.switchCase i.node := by
  intro s l hl
  rw [Grammar.switchCase_eq, Grammar.switchCase_eq]
  refine .here (.ifEatWord (fun _ => ?_) fun _ => .expectWord fun _ => ?_)
  · refine .bind (.withIn ((follows_expression hg.assignment).on _ (by omega))) fun test s1 =>
      .bindPure ?_
    exact ((follows_caseRest hg _ (some test)).on s1 (by omega)).widen (Nat.le_refl _) fun _ =>
      by omega
  · refine .bindPure (((follows_caseRest hg _ none).on _ (by omega)).widen (Nat.le_refl _) ?_)
    exact fun _ => Nat.sub_le _ _

theorem echoes_switchStatement (hg : g.Follows i n g') (hk : s.current.kind.isText = true)
    (hl : l ≤ n + 1) :
    Echoes i l (fun _ => l - 1) s g.switchStatement g'.switchStatement i.node := by
  rw [Grammar.switchStatement_eq, Grammar.switchStatement_eq]
  refine .here (.advance hk (.bind ((follows_head hg).on _ (by omega)) fun discriminant s1 => ?_))
  refine .expect fun _ => ?_
  refine .bind (.listUntil (f := i.node)
    ((follows_plainItem (follows_switchCase hg)).mono (by omega))) ?_
  exact fun cases s3 => .expect fun _ => .node rfl (by omega)

/-! ## Loops -/

theorem echoes_whileStatement (hg : g.Follows i n g') (hk : s.current.kind.isText = true)
    (hl : l ≤ n + 1) :
    Echoes i l (fun _ => l - 1) s g.whileStatement g'.whileStatement i.node := by
  refine .here (.advance hk (.bind ((follows_head hg).on _ (by omega)) fun test s1 => ?_))
  exact .bind (hg.statement.on s1 (by omega)) fun body s2 => .node rfl (by omega)

theorem echoes_doWhileStatement (hg : g.Follows i n g') (hk : s.current.kind.isText = true)
    (hl : l ≤ n + 1) :
    Echoes i l (fun _ => l - 1) s g.doWhileStatement g'.doWhileStatement i.node := by
  refine .here (.advance hk (.bind (hg.statement.on _ (by omega)) fun body s1 =>
    .expectWord fun _ => ?_))
  refine .bind ((follows_head hg).on _ (by omega)) fun test s2 => ?_
  exact .bind ((follows_eat _).echoes s2) fun _ _ => .node rfl (by omega)

theorem follows_forInit (hg : g.Follows i n g') :
    Follows i n 0 g.forInit g'.forInit (Option.map i.node) := by
  intro s l hl
  refine .current ?_
  dsimp only [Transfer.token_kind]
  refine .ite (fun _ => .pure rfl (by omega)) fun _ => ?_
  split
  · rename_i kind hkind
    refine .bind (m := fun _ => l - 1) (.withIn ?_) fun declaration s1 => .pure rfl (by omega)
    exact echoes_variableDeclaration hg (variableKind?_isText hkind) kind (by omega)
  · refine .bind (.withIn ((follows_expression hg.assignment).on s (by omega))) fun _ _ =>
      .pure rfl (by omega)

theorem follows_forTarget (left : Node) :
    Follows i n 0 (Grammar.forTarget left) (Grammar.forTarget (i.node left)) i.node := by
  intro s l hl
  rw [Grammar.forTarget, Grammar.forTarget, Transfer.node_kind, Transfer.node_toTarget?]
  cases left.toTarget? with
  | some target => cases left.kind <;> exact .pure rfl (by omega)
  | none => cases left.kind <;> first | exact .pure rfl (by omega) | exact .fail nofun

theorem echoes_forEach (hg : g.Follows i n g') (hk : s.current.kind.isText = true) (start : Nat)
    (left : Node) (isOf awaits : Bool) (hl : l ≤ n + 1) :
    Echoes i l (fun _ => l - 1) s (g.forEach start left isOf awaits)
      (g'.forEach (i.start start) (i.node left) isOf awaits) i.node := by
  refine .step (P := fun _ s' => s' = s) ((follows_forTarget left).echoes s) ?_ ?_
  · intro c
    unfold Grammar.forTarget
    split
    · exact .pure rfl
    · exact .pure rfl
    · exact .fail
  intro target s1 hs1
  subst hs1
  refine .advance hk (.bind (f := i.node) (m := fun _ => l - 2) (.withIn ?_) fun right s2 => ?_)
  · exact .ite (fun _ => hg.assignment.on _ (by omega)) fun _ =>
      (follows_expression hg.assignment).on _ (by omega)
  refine .expect fun _ => .bind (hg.statement.on _ (by omega)) fun body s4 => .node ?_ (by omega)
  cases isOf <;> rfl

theorem follows_forPart (hg : g.Follows i n g') (ends : Punctuator) :
    Follows i n 0 (g.forPart ends) (g'.forPart ends) (Option.map i.node) := by
  intro s l hl
  refine .ifSees (fun _ => .pure rfl (by omega)) fun _ => ?_
  exact .bind (.withIn ((follows_expression hg.assignment).on s (by omega))) fun _ _ =>
    .pure rfl (by omega)

/-- A loop with three parts in its head, from the first semicolon on. -/
def Grammar.forRest (g : Grammar) (start : Nat) (init : Option Node) : Parser Node := do
  Parser.expect .semicolon
  let test ← g.forPart .semicolon
  Parser.expect .semicolon
  let update ← g.forPart .rightParen
  Parser.expect .rightParen
  let body ← g.statement
  Parser.node (.forStatement init test update body) start

theorem follows_forRest (hg : g.Follows i n g') (start : Nat) (init : Option Node) :
    Follows i n 1 (g.forRest start init) (g'.forRest (i.start start) (init.map i.node))
      i.node := by
  intro s l hl
  refine .expect fun _ => .bind ((follows_forPart hg _).on _ (by omega)) fun test s1 => ?_
  refine .expect fun _ => .bind ((follows_forPart hg _).on _ (by omega)) fun update s2 => ?_
  exact .expect fun _ => .bind (hg.statement.on _ (by omega)) fun body s3 => .node rfl (by omega)

theorem echoes_forStatement (hg : g.Follows i n g') (hk : s.current.kind.isText = true)
    (hl : l ≤ n + 1) :
    Echoes i l (fun _ => l - 1) s g.forStatement g'.forStatement i.node := by
  refine .here (.advance hk (.bind ((follows_eatWord _).echoes _) fun awaits s1 => ?_))
  refine .expect fun _ => .bind ((follows_forInit hg).on _ (by omega)) fun init s2 => ?_
  refine .seesName (.seesWord ?_)
  have hrest := ((follows_forRest hg s.current.span.start init).on s2 (l := l - 2) (by omega)).widen
    (m := fun _ => l - 1) (l := l - 1 - 0 - 1 - 0) (by omega) fun _ => by omega
  have heach : ∀ left isOf, s2.current.kind.isText = true →
      Echoes i (l - 1 - 0 - 1 - 0) (fun _ => l - 1) s2
        (g.forEach s.current.span.start left isOf awaits)
        (g'.forEach (i.start s.current.span.start) (i.node left) isOf awaits) i.node :=
    fun left isOf htext => (echoes_forEach hg htext _ left isOf awaits (by omega)).widen
      (Nat.le_refl _)
      fun _ => by omega
  cases init with
  | none => exact hrest
  | some left =>
    cases hof : decide (s2.current.kind = .identifier "of") with
    | true =>
      refine heach left true ?_
      rw [of_decide_eq_true hof]
      rfl
    | false =>
      cases hin : decide (s2.current.kind = .keyword .kwIn) with
      | true =>
        refine heach left false ?_
        rw [of_decide_eq_true hin]
        rfl
      | false => exact hrest

/-! ## Handlers -/

theorem echoes_catchClause (hg : g.Follows i n g') (hk : s.current.kind.isText = true)
    (hl : l ≤ n + 1) :
    Echoes i l (fun _ => l - 1) s g.catchClause g'.catchClause i.node := by
  refine .here (.advance hk (.ifEat (fun _ => ?_) fun _ => ?_))
  · refine .bind (hg.bindingTarget.on _ (by omega)) fun param s1 => .expect fun _ => .bindPure ?_
    exact .bind ((follows_block hg).on _ (by omega)) fun body s3 => .node rfl (by omega)
  · exact .bindPure (.bind ((follows_block hg).on _ (by omega)) fun body s1 => .node rfl (by omega))

theorem echoes_tryStatement (hg : g.Follows i n g') (hk : s.current.kind.isText = true)
    (hl : l ≤ n + 1) :
    Echoes i l (fun _ => l - 1) s g.tryStatement g'.tryStatement i.node := by
  refine .here (.advance hk (.bind ((follows_block hg).on _ (by omega)) fun block s1 => ?_))
  refine .seesWord ?_
  extract_lets behind behind'
  have hbehind : ∀ (handler : Option Node) s2 l', l' ≤ l - 1 → Echoes i l' (fun _ => l - 1) s2
      (behind handler) (behind' (handler.map i.node)) i.node := by
    intro handler s2 l' hl'
    have hblock := (follows_block hg).on s2.next (l := l' - 1)
    cases handler <;>
      refine .ifEatWord (fun _ => .bind (hblock (by omega)) fun _ _ => .bindPure ?_) fun _ =>
        .bindPure ?_
    all_goals exact .ite (fun _ => .failThen nofun) fun _ => .node rfl (by omega)
  refine .ite (fun hcatch => ?_) fun _ => .bindPure (hbehind none s1 _ (by omega))
  refine .bind (echoes_catchClause hg ?_ (by omega)) fun handler s2 =>
    .bindPure (hbehind (some handler) s2 _ (by omega))
  rw [of_decide_eq_true hcatch]
  rfl

/-! ## Statements -/

theorem follows_statementRule (hg : g.Follows i n g')
    (ha : Follows i (n + 1) 1 g.assignment g'.assignment i.node) :
    Follows i (n + 1) 1 g.statementRule g'.statementRule i.node := by
  intro s l hl
  refine .here (.startsAsyncFunction (fun hk => ?_) (.current ?_))
  · refine .advance (by rw [hk]; rfl) ?_
    exact ((follows_functionDeclaration hg _ (by nofun)).on _ (by omega)).widen
      (Nat.le_refl _) fun _ => Nat.sub_le _ _
  rw [Transfer.token_kind]
  have htext : ∀ word, s.current.kind = .keyword word → s.current.kind.isText = true := by
    intro word hk
    rw [hk]
    rfl
  split
  · exact (follows_block hg).on s (by omega)
  · rename_i hk
    exact .advance (by rw [hk]; rfl) (.node rfl (by omega))
  · exact echoes_variableStatement hg (htext _ ‹_›) _ (by omega)
  · exact echoes_variableStatement hg (htext _ ‹_›) _ (by omega)
  · exact echoes_variableStatement hg (htext _ ‹_›) _ (by omega)
  · exact (follows_functionDeclaration hg _ (by nofun)).on s (by omega)
  · exact (follows_classRule hg _ (fun _ => rfl) (by nofun)).on s (by omega)
  · exact echoes_ifStatement hg (htext _ ‹_›) (by omega)
  · exact echoes_switchStatement hg (htext _ ‹_›) (by omega)
  · exact echoes_whileStatement hg (htext _ ‹_›) (by omega)
  · exact echoes_doWhileStatement hg (htext _ ‹_›) (by omega)
  · exact echoes_forStatement hg (htext _ ‹_›) (by omega)
  · exact echoes_returnStatement hg (htext _ ‹_›) (by omega)
  · exact echoes_jumpStatement (fun _ => rfl) (htext _ ‹_›)
  · exact echoes_jumpStatement (fun _ => rfl) (htext _ ‹_›)
  · exact echoes_throwStatement hg (htext _ ‹_›) (by omega)
  · exact echoes_tryStatement hg (htext _ ‹_›) (by omega)
  · exact .fail nofun
  · exact .advance (htext _ ‹_›) (.endsWithSemicolon rfl (by omega))
  · rename_i label hk
    refine .peek (by rw [hk]; rfl) (.ite (fun hcolon => ?_) fun _ => ?_)
    · refine echoes_labeledStatement hg (by rw [hk]; rfl) ?_ label (by omega)
      have hnext : s.next.current.kind = .punctuator .colon := hcolon
      rw [hnext]
      rfl
    · exact (follows_expressionStatement ha).on s (by omega)
  · exact (follows_expressionStatement ha).on s (by omega)

end

end EsModule.Syntax
