import EsModule.Proofs.Grammar.Expression
import EsModule.Syntax.Grammar.Statement

/-!
# What rules read: statements

A declaration of variables as a statement is made twice: its node is given up for one whose span
takes in the semicolon, so one number is left out.
-/

namespace EsModule.Syntax

open EsModule.Text

section

variable {g : Grammar}

/-! ## Declarations of variables -/

theorem sound_declarator (hg : g.Sound) : Sound .declarator g.declarator := by
  intro c s hs
  refine .bind (.here (.step (hg.bindingTarget c s hs) ?_))
  rintro target s1 ⟨hm, ht⟩
  refine .bind (.eat (fun _ => .ite (fun _ => ?_) (absurd rfl)) fun _ => .ite nofun fun _ => ?_)
  · refine .step (hg.assignment c _ s1.normal_next) ?_
    rintro init s2 ⟨hi, hd⟩
    refine .bind (.pure (.node fun span => ⟨(hm.next.append hi).node rfl span, .declarator ht ?_⟩))
    rintro i ⟨⟩
    exact hd
  · exact .bind (.pure (.node fun span => ⟨hm.node rfl span, .declarator ht nofun⟩))

theorem ensures_variableDeclaration (hg : g.Sound) {c : Context} {s : State} (hs : s.Normal)
    (kind : VariableKind) :
    Ensures (g.variableDeclaration kind) c s fun n s' =>
      Made s s' [n] ∧ Derives c.inGenerator .variables n := by
  refine .bind (.here (.bind (.advance (.step (sound_declarator hg c _ s.normal_next) ?_))))
  rintro first s1 ⟨hm, hf⟩
  refine .step (P := fun ds s' => Made s s' ds ∧ ds ≠ [] ∧
    ∀ d ∈ ds, Derives c.inGenerator .declarator d) ?_ ?_
  · refine .loop (fun ds s' => Made s s' ds ∧ ds ≠ [] ∧
      ∀ d ∈ ds, Derives c.inGenerator .declarator d) ?_ ?_
    · exact ⟨(Made.start hs).next.append hm, nofun, by simpa using hf⟩
    · rintro ds s2 ⟨hds, hne, hd⟩
      refine .bind (.eat (fun _ => .ite (fun _ => ?_) (absurd rfl)) fun _ =>
        .ite nofun fun _ => .pure ⟨hds, hne, hd⟩)
      refine .step (sound_declarator hg c _ s2.normal_next) ?_
      rintro d s3 ⟨h3, hd3⟩
      exact .pure ⟨hds.next.append h3, by simp, forall_mem_concat hd hd3⟩
  · rintro ds s2 ⟨hds, hne, hd⟩
    exact .node fun span => ⟨hds.node rfl span, .variables hne hd⟩

/-- A node of the same kind takes over the children of a node. -/
theorem Made.again {s s' : State} {n : Node} (h : Made s s' [n]) (span : Span) :
    Made s s'.counted [.mk s'.nextId span n.kind] := by
  have hchildren : Made s s' n.kind.children := by
    refine ⟨h.normal, h.within.sublist ?_⟩
    rw [idsOf_singleton]
    exact List.sublist_cons_self _ _
  exact hchildren.node rfl span

theorem Derives.variables_again {y : Bool} {n : Node} (h : Derives y .variables n) (id : Nat)
    (span : Span) : Derives y .variables (.mk id span n.kind) := by
  cases h
  rename_i hne hd
  exact .variables hne hd

theorem ensures_variableStatement (hg : g.Sound) {c : Context} {s : State} (hs : s.Normal)
    (kind : VariableKind) :
    Ensures (g.variableStatement kind) c s fun n s' =>
      Made s s' [n] ∧ Derives c.inGenerator .statement n := by
  refine .step (ensures_variableDeclaration hg hs kind) ?_
  rintro n s1 ⟨hm, hd⟩
  refine .bind (.semicolon (.bind (.get (.nodeAt ?_))) (.bind (.get (.nodeAt ?_))))
  · exact ⟨hm.next.again _, .variablesStatement (hd.variables_again _ _)⟩
  · exact ⟨hm.again _, .variablesStatement (hd.variables_again _ _)⟩

/-! ## Simple statements -/

theorem ensures_expressionStatement (hg : g.Sound) {c : Context} {s : State} (hs : s.Normal) :
    Ensures g.expressionStatement c s fun n s' =>
      Made s s' [n] ∧ Derives c.inGenerator .statement n := by
  refine .bind (.here (.step (sound_expression hg c s hs) ?_))
  rintro e s1 ⟨hm, hd⟩
  refine .bind (.semicolon (.node fun span => ?_) (.node fun span => ?_))
  · exact ⟨hm.next.node rfl span, .expressionStatement hd⟩
  · exact ⟨hm.node rfl span, .expressionStatement hd⟩

theorem ensures_head (hg : g.Sound) {c : Context} {s : State} :
    Ensures g.head c s fun n s' =>
      Made s s' [n] ∧ Derives c.inGenerator .expression n := by
  refine .bind (.expect fun _ => .step (.withIn (sound_expression hg _ _ s.normal_next)) ?_)
  rintro e s1 ⟨hm, hd⟩
  exact .bind (.expect fun _ => .pure ⟨⟨State.normal_next _, hm.within⟩, hd⟩)

theorem ensures_returnStatement (hg : g.Sound) {c : Context} {s : State} (hs : s.Normal) :
    Ensures g.returnStatement c s fun n s' =>
      Made s s' [n] ∧ Derives c.inGenerator .statement n := by
  have h1 := (Made.start hs).next
  refine .bind (.here (.bind (.advance (.bind (.current ?_)))))
  extract_lets isBare behind
  have hbehind : ∀ argument s1, Made s s1 argument.toList →
      (∀ a, argument = some a → Derives c.inGenerator .expression a) →
      Ensures (behind argument) c s1 fun n s' =>
        Made s s' [n] ∧ Derives c.inGenerator .statement n := by
    intro argument s1 hm hd
    refine .bind (.semicolon (.node fun span => ?_) (.node fun span => ?_))
    · exact ⟨hm.next.node rfl span, .returnStatement hd⟩
    · exact ⟨hm.node rfl span, .returnStatement hd⟩
  refine .ite (fun _ => .bind (.pure (hbehind none _ h1 nofun))) fun _ => ?_
  refine .step (sound_expression hg c _ h1.normal) ?_
  rintro e s2 ⟨h2, hd⟩
  refine .bind (.pure (hbehind (some e) s2 (h1.append h2) ?_))
  rintro e ⟨⟩
  exact hd

theorem ensures_jumpStatement {kind : Option String → Kind Node}
    (hk : ∀ l, (kind l).children = []) {c : Context} {s : State} (hs : s.Normal)
    (hd : ∀ id span label, (∀ l, label = some l → IsOwnName l) →
      Derives c.inGenerator .statement (.mk id span (kind label))) :
    Ensures (Grammar.jumpStatement kind) c s fun n s' =>
      Made s s' [n] ∧ Derives c.inGenerator .statement n := by
  have h1 := (Made.start hs).next
  refine .bind (.here (.bind (.advance (.bind (.current ?_)))))
  extract_lets behind
  have hbehind : ∀ label s1, Made s s1 [] → (∀ l, label = some l → IsOwnName l) →
      Ensures (behind label) c s1 fun n s' =>
        Made s s' [n] ∧ Derives c.inGenerator .statement n := by
    intro label s1 hm hl
    refine .bind (.semicolon (.node fun span => ?_) (.node fun span => ?_))
    · exact ⟨hm.next.node (hk label) span, hd _ _ _ hl⟩
    · exact ⟨hm.node (hk label) span, hd _ _ _ hl⟩
  split
  · rename_i label hkind _
    refine .bind (.advance (.bind (.pure (hbehind (some label) _ h1.next ?_))))
    rintro l ⟨⟩
    exact h1.normal.isOwnName hkind
  · exact .bind (.pure (hbehind none _ h1 nofun))

theorem ensures_throwStatement (hg : g.Sound) {c : Context} {s : State} (hs : s.Normal) :
    Ensures g.throwStatement c s fun n s' =>
      Made s s' [n] ∧ Derives c.inGenerator .statement n := by
  have h1 := (Made.start hs).next
  refine .bind (.here (.bind (.advance (.bind (.current (.ite (fun _ => .bind .fail) fun _ => ?_))))))
  refine .step (sound_expression hg c _ h1.normal) ?_
  rintro e s2 ⟨h2, hd⟩
  have hm := h1.append h2
  refine .bind (.semicolon (.node fun span => ?_) (.node fun span => ?_))
  · exact ⟨hm.next.node rfl span, .throwStatement hd⟩
  · exact ⟨hm.node rfl span, .throwStatement hd⟩

theorem ensures_labeledStatement (hg : g.Sound) {c : Context} {s : State} (hs : s.Normal)
    {label : String} (hl : IsOwnName label) :
    Ensures (g.labeledStatement label) c s fun n s' =>
      Made s s' [n] ∧ Derives c.inGenerator .statement n := by
  have h1 := (Made.start hs).next.next
  refine .bind (.here (.bind (.advance (.bind (.advance (.step (hg.statement c _ h1.normal) ?_))))))
  rintro body s2 ⟨h2, hd⟩
  exact .node fun span => ⟨(h1.append h2).node rfl span, .labeledStatement hl hd⟩

/-! ## Choices -/

theorem ensures_ifStatement (hg : g.Sound) {c : Context} {s : State} (hs : s.Normal) :
    Ensures g.ifStatement c s fun n s' =>
      Made s s' [n] ∧ Derives c.inGenerator .statement n := by
  have h1 := (Made.start hs).next
  refine .bind (.here (.bind (.advance (.step (ensures_head hg) ?_))))
  rintro test s2 ⟨h2, ht⟩
  refine .step (hg.statement c s2 h2.normal) ?_
  rintro consequent s3 ⟨h3, hc⟩
  have hm := (h1.append h2).append h3
  refine .bind (.eatWord (fun _ => .ite (fun _ => ?_) (absurd rfl)) fun _ => .ite nofun fun _ => ?_)
  · refine .step (hg.statement c _ s3.normal_next) ?_
    rintro alternate s4 ⟨h4, ha⟩
    refine .bind (.pure (.node fun span => ⟨(hm.next.append h4).node rfl span, ?_⟩))
    refine .ifStatement ht hc ?_
    rintro a ⟨⟩
    exact ha
  · exact .bind (.pure (.node fun span => ⟨hm.node rfl span, .ifStatement ht hc nofun⟩))

/-- Statements up to a token that ends them. -/
theorem ensures_statements (hg : g.Sound) {c : Context} {s : State} (hs : s.Normal)
    (ends : TokenKind → Bool) :
    Ensures (Parser.listUntil ends (g.statement >>= fun n => Pure.pure ([n], true))) c s
      fun body s' => Made s s' body ∧ ∀ n ∈ body, Derives c.inGenerator .statement n := by
  refine .listUntil _ ⟨.start hs, nofun⟩ (fun _ _ h => h) ?_
  rintro body s1 ⟨hm, hd⟩
  refine .step (hg.statement c s1 hm.normal) ?_
  rintro n s2 ⟨hn, hdn⟩
  exact .pure ⟨hm.append hn, forall_mem_concat hd hdn⟩

theorem sound_switchCase (hg : g.Sound) : Sound .switchCase g.switchCase := by
  intro c s hs
  have h1 := (Made.start hs).next
  refine .bind (.here ?_)
  refine .bind (.eatWord (fun _ => ?_) fun _ => ?_)
  all_goals
    extract_lets behind
    have hbehind : ∀ test s1, Made s s1 test.toList →
        (∀ t, test = some t → Derives c.inGenerator .expression t) →
        Ensures (behind test) c s1 fun n s' =>
          Made s s' [n] ∧ Derives c.inGenerator .switchCase n := by
      intro test s1 hm ht
      refine .bind (.expect fun _ => .step (ensures_statements hg s1.normal_next _) ?_)
      rintro body s2 ⟨h2, hb⟩
      exact .node fun span => ⟨(hm.next.append h2).node rfl span,
        .switchCase ht fun n hn _ => hb n hn⟩
    refine .ite (fun _ => ?_) fun _ => ?_
  · refine .step (.withIn (sound_expression hg _ _ h1.normal)) ?_
    rintro t s2 ⟨h2, ht⟩
    refine .bind (.pure (hbehind (some t) s2 (h1.append h2) ?_))
    rintro t ⟨⟩
    exact ht
  · contradiction
  · contradiction
  · exact .bind (.expectWord fun _ => .bind (.pure (hbehind none _ h1 nofun)))

theorem ensures_switchStatement (hg : g.Sound) {c : Context} {s : State} (hs : s.Normal) :
    Ensures g.switchStatement c s fun n s' =>
      Made s s' [n] ∧ Derives c.inGenerator .statement n := by
  have h1 := (Made.start hs).next
  refine .bind (.here (.bind (.advance (.step (ensures_head hg) ?_))))
  rintro discriminant s2 ⟨h2, hd⟩
  refine .bind (.expect fun _ => ?_)
  refine .step (P := fun cs s' => Made s2 s' cs ∧
    ∀ k ∈ cs, Derives c.inGenerator .switchCase k) ?_ ?_
  · refine .listUntil _ ⟨(Made.start h2.normal).next, nofun⟩ (fun _ _ h => h) ?_
    rintro cs s3 ⟨hm, hk⟩
    refine .step (sound_switchCase hg c s3 hm.normal) ?_
    rintro k s4 ⟨h4, hdk⟩
    exact .pure ⟨hm.append h4, forall_mem_concat hk hdk⟩
  · rintro cs s3 ⟨h3, hk⟩
    exact .bind (.expect fun _ => .node fun span =>
      ⟨((h1.append h2).append h3).next.node rfl span, .switchStatement hd hk⟩)

/-! ## Loops -/

theorem ensures_whileStatement (hg : g.Sound) {c : Context} {s : State} (hs : s.Normal) :
    Ensures g.whileStatement c s fun n s' =>
      Made s s' [n] ∧ Derives c.inGenerator .statement n := by
  have h1 := (Made.start hs).next
  refine .bind (.here (.bind (.advance (.step (ensures_head hg) ?_))))
  rintro test s2 ⟨h2, ht⟩
  refine .step (hg.statement c s2 h2.normal) ?_
  rintro body s3 ⟨h3, hb⟩
  exact .node fun span => ⟨((h1.append h2).append h3).node rfl span, .whileStatement ht hb⟩

theorem ensures_doWhileStatement (hg : g.Sound) {c : Context} {s : State} (hs : s.Normal) :
    Ensures g.doWhileStatement c s fun n s' =>
      Made s s' [n] ∧ Derives c.inGenerator .statement n := by
  have h1 := (Made.start hs).next
  refine .bind (.here (.bind (.advance (.step (hg.statement c _ h1.normal) ?_))))
  rintro body s2 ⟨h2, hb⟩
  refine .bind (.expectWord fun _ => .step (ensures_head hg) ?_)
  rintro test s3 ⟨h3, ht⟩
  have hm := (h1.append h2).next.append h3
  refine .bind (.eat (fun _ => .node fun span => ?_) fun _ => .node fun span => ?_)
  · exact ⟨hm.next.node rfl span, .doWhileStatement hb ht⟩
  · exact ⟨hm.node rfl span, .doWhileStatement hb ht⟩

theorem ensures_forInit (hg : g.Sound) {c : Context} {s : State} (hs : s.Normal) :
    Ensures g.forInit c s fun o s' => Made s s' o.toList ∧
      ∀ n, o = some n → Derives c.inGenerator .loopStart n := by
  refine .bind (.current (.ite (fun _ => .pure ⟨.start hs, nofun⟩) fun _ => ?_))
  split
  · rename_i kind _
    refine .step (.withIn (ensures_variableDeclaration hg hs kind)) ?_
    rintro n s1 ⟨hm, hd⟩
    refine .pure ⟨hm, ?_⟩
    rintro n ⟨⟩
    exact .variablesStart hd
  · refine .step (.withIn (sound_expression hg _ s hs)) ?_
    rintro n s1 ⟨hm, hd⟩
    refine .pure ⟨hm, ?_⟩
    rintro n ⟨⟩
    exact .expressionStart hd

theorem Derives.ne_variables {y : Bool} {n : Node} (h : Derives y .expression n)
    (kind : VariableKind) (ds : List Node) : n.kind ≠ .variableDeclaration kind ds := by
  cases h with
  | identifier h | templateLiteral h => cases h; exact nofun
  | _ => exact nofun

/-- What a loop assigns to is a declaration, or an expression that is read again. -/
theorem ensures_forTarget {y : Bool} {c : Context} {s0 s : State} {left : Node}
    (hm : Made s0 s [left]) (hl : Derives y .loopStart left) :
    Ensures (Grammar.forTarget left) c s fun t s' =>
      s' = s ∧ Made s0 s [t] ∧ Derives y .loopTarget t := by
  cases hl with
  | variablesStart h =>
    have hv := Derives.variablesTarget h
    cases h
    exact .pure ⟨rfl, hm, hv⟩
  | expressionStart h =>
    unfold Grammar.forTarget
    split
    · rename_i hkind
      exact absurd hkind (h.ne_variables _ _)
    · rename_i target htarget _
      obtain ⟨hd, hids⟩ := (settles left).expression h htarget
      exact .pure ⟨rfl, ⟨hm.normal, hids ▸ hm.within⟩, .assignedTarget hd⟩
    · exact .fail

theorem ensures_forEach (hg : g.Sound) {c : Context} {s0 s : State} {left : Node}
    (hm : Made s0 s [left]) (hl : Derives c.inGenerator .loopStart left) (start : Nat)
    (isOf awaits : Bool) :
    Ensures (g.forEach start left isOf awaits) c s fun n s' =>
      Made s0 s' [n] ∧ Derives c.inGenerator .statement n := by
  refine .step (ensures_forTarget hm hl) ?_
  rintro target s1 ⟨rfl, hm, hd⟩
  refine .bind (.advance (.step (P := fun n s' => Made s1.next s' [n] ∧
    Derives c.inGenerator .expression n) (.withIn ?_) ?_))
  · exact .ite (fun _ => hg.assignment _ _ s1.normal_next)
      fun _ => sound_expression hg _ _ s1.normal_next
  rintro right s2 ⟨h2, hr⟩
  refine .bind (.expect fun _ => .step (hg.statement c _ s2.normal_next) ?_)
  rintro body s3 ⟨h3, hb⟩
  have hm := (hm.next.append h2).next.append h3
  cases isOf with
  | true => exact .node fun span => ⟨hm.node rfl span, .forOfStatement hd hr hb⟩
  | false => exact .node fun span => ⟨hm.node rfl span, .forInStatement hd hr hb⟩

theorem ensures_forPart (hg : g.Sound) {c : Context} {s : State} (hs : s.Normal)
    (ends : Punctuator) :
    Ensures (g.forPart ends) c s fun o s' => Made s s' o.toList ∧
      ∀ n, o = some n → Derives c.inGenerator .expression n := by
  refine .bind (.sees (.ite (fun _ => .pure ⟨.start hs, nofun⟩) fun _ => ?_))
  refine .step (.withIn (sound_expression hg _ s hs)) ?_
  rintro n s1 ⟨hm, hd⟩
  refine .pure ⟨hm, ?_⟩
  rintro n ⟨⟩
  exact hd

theorem ensures_forStatement (hg : g.Sound) {c : Context} {s : State} (hs : s.Normal) :
    Ensures g.forStatement c s fun n s' =>
      Made s s' [n] ∧ Derives c.inGenerator .statement n := by
  have h1 := (Made.start hs).next
  refine .bind (.here (.bind (.advance ?_)))
  refine .step (P := fun _ s' => Made s s' []) (.eatWord (fun _ => h1.next) fun _ => h1) ?_
  intro awaits s2 h2
  refine .bind (.expect fun _ => .step (ensures_forInit hg s2.normal_next) ?_)
  rintro init s3 ⟨h3, hi⟩
  have hm := h2.next.append h3
  refine .bind (.seesName (.bind (.seesWord ?_)))
  split
  · exact ensures_forEach hg hm (hi _ rfl) _ _ _
  refine .bind (.expect fun _ => .step (ensures_forPart hg s3.normal_next _) ?_)
  rintro test s4 ⟨h4, ht⟩
  refine .bind (.expect fun _ => .step (ensures_forPart hg s4.normal_next _) ?_)
  rintro update s5 ⟨h5, hu⟩
  refine .bind (.expect fun _ => .step (hg.statement c _ s5.normal_next) ?_)
  rintro body s6 ⟨h6, hb⟩
  have hm := (((hm.next.append h4).next.append h5).next.append h6)
  exact .node fun span => ⟨hm.node rfl span, .forStatement hi ht hu hb⟩

/-! ## Handlers -/

theorem sound_catchClause (hg : g.Sound) : Sound .handler g.catchClause := by
  intro c s hs
  have h1 := (Made.start hs).next
  refine .bind (.here (.bind (.advance ?_)))
  refine .bind (.eat (fun _ => ?_) fun _ => ?_)
  all_goals
    extract_lets behind
    have hbehind : ∀ param s1, Made s s1 param.toList →
        (∀ p, param = some p → Derives c.inGenerator .bound p) →
        Ensures (behind param) c s1 fun n s' =>
          Made s s' [n] ∧ Derives c.inGenerator .handler n := by
      intro param s1 hm hp
      refine .step (sound_block hg c s1 hm.normal) ?_
      rintro body s2 ⟨h2, hb⟩
      exact .node fun span => ⟨(hm.append h2).node rfl span, .catchClause hp hb⟩
    refine .ite (fun _ => ?_) fun _ => ?_
  · refine .step (hg.bindingTarget c _ (State.normal_next _)) ?_
    rintro p s2 ⟨h2, hp⟩
    refine .bind (.expect fun _ => .bind (.pure (hbehind (some p) _ (h1.next.append h2).next ?_)))
    rintro p ⟨⟩
    exact hp
  · contradiction
  · contradiction
  · exact .bind (.pure (hbehind none _ h1 nofun))

theorem ensures_tryStatement (hg : g.Sound) {c : Context} {s : State} (hs : s.Normal) :
    Ensures g.tryStatement c s fun n s' =>
      Made s s' [n] ∧ Derives c.inGenerator .statement n := by
  have h1 := (Made.start hs).next
  refine .bind (.here (.bind (.advance (.step (sound_block hg c _ h1.normal) ?_))))
  rintro block s2 ⟨h2, hb⟩
  refine .bind (.seesWord ?_)
  extract_lets behind
  have hbehind : ∀ handler s3, Made s2 s3 handler.toList →
      (∀ h, handler = some h → Derives c.inGenerator .handler h) →
      Ensures (behind handler) c s3 fun n s' =>
        Made s s' [n] ∧ Derives c.inGenerator .statement n := by
    intro handler s3 h3 hh
    have hm := (h1.append h2).append h3
    refine .bind (.eatWord (fun _ => .ite (fun _ => ?_) (absurd rfl)) fun _ => .ite nofun fun _ => ?_)
    · refine .step (sound_block hg c _ s3.normal_next) ?_
      rintro f s4 ⟨h4, hf⟩
      refine .bind (.pure (.ite (fun _ => .bind .fail) fun _ => .node fun span => ?_))
      refine ⟨(hm.next.append h4).node rfl span, .tryStatement hb hh ?_ (.inr rfl)⟩
      rintro f ⟨⟩
      exact hf
    · refine .bind (.pure (.ite (fun _ => .bind .fail) fun hsome => .node fun span => ?_))
      refine ⟨hm.node (by simp [Kind.children]) span, .tryStatement hb hh nofun (.inl ?_)⟩
      simpa [Option.isSome_iff_ne_none] using hsome
  refine .ite (fun _ => ?_) fun _ => .bind (.pure (hbehind none s2 (.start h2.normal) nofun))
  refine .step (sound_catchClause hg c s2 h2.normal) ?_
  rintro h s3 ⟨h3, hh⟩
  refine .bind (.pure (hbehind (some h) s3 h3 ?_))
  rintro h ⟨⟩
  exact hh

/-! ## Statements -/

/-- A function or a class that has to have a name. -/
theorem ensures_classDeclaration (hg : g.Sound) {c : Context} {s : State} (hs : s.Normal)
    (missing : Option SyntaxFault) (named : Bool) (hnamed : named = true → missing.isSome = true) :
    Ensures (g.classRule .classDeclaration missing) c s fun n s' =>
      Made s s' [n] ∧ Derives c.inGenerator (.declaration named) n := by
  refine (ensures_classRule hg hs (fun _ => rfl) missing).mono ?_
  rintro n s' ⟨hm, id, span, d, rfl, hd, hsome⟩
  exact ⟨hm, .classDeclaration (fun h => hsome (hnamed h)) hd.isName hd.isParent hd.isBody⟩

theorem sound_statementRule (hg : g.Sound) : Sound .statement g.statementRule := by
  intro c s hs
  have h1 := (Made.start hs).next
  refine .bind (.here (.bind (.startsAsyncFunction fun _ _ => .ite (fun _ => ?_) fun _ => ?_)))
  · refine .bind (.advance ?_)
    refine (ensures_functionDeclaration hg h1.normal true _ true fun _ => rfl).mono ?_
    exact fun n s' h => ⟨h1.append h.1, .declarationStatement h.2⟩
  refine .bind (.current ?_)
  split
  · exact (sound_block hg c s hs).mono fun n s' h => ⟨h.1, .blockStatement h.2⟩
  · exact .bind (.advance (.node fun span => ⟨h1.node rfl span, .emptyStatement⟩))
  · exact ensures_variableStatement hg hs _
  · exact ensures_variableStatement hg hs _
  · exact ensures_variableStatement hg hs _
  · refine (ensures_functionDeclaration hg hs false _ true fun _ => rfl).mono ?_
    exact fun n s' h => ⟨h.1, .declarationStatement h.2⟩
  · refine (ensures_classDeclaration hg hs _ true fun _ => rfl).mono ?_
    exact fun n s' h => ⟨h.1, .declarationStatement h.2⟩
  · exact ensures_ifStatement hg hs
  · exact ensures_switchStatement hg hs
  · exact ensures_whileStatement hg hs
  · exact ensures_doWhileStatement hg hs
  · exact ensures_forStatement hg hs
  · exact ensures_returnStatement hg hs
  · exact ensures_jumpStatement (fun _ => rfl) hs fun _ _ _ => .breakStatement
  · exact ensures_jumpStatement (fun _ => rfl) hs fun _ _ _ => .continueStatement
  · exact ensures_throwStatement hg hs
  · exact ensures_tryStatement hg hs
  · exact .fail
  · refine .bind (.advance (.bind (.semicolon (.node fun span => ?_) (.node fun span => ?_))))
    · exact ⟨h1.next.node rfl span, .debuggerStatement⟩
    · exact ⟨h1.node rfl span, .debuggerStatement⟩
  · rename_i label hk
    refine .bind (.peek (.ite (fun _ => ?_) fun _ => ensures_expressionStatement hg hs))
    exact ensures_labeledStatement hg hs (hs.isOwnName hk)
  · exact ensures_expressionStatement hg hs

end

end EsModule.Syntax
