import EsModule.Proofs.Layout.Expression
import EsModule.Proofs.Grammar.Statement

/-!
# Where rules lay their nodes: statements

A statement covers everything from its first token to its last, the semicolon included. A
declaration of variables becomes a statement by a new node that takes over its children.
-/

namespace EsModule.Syntax

open EsModule.Text

section

variable {source : List Char} {g : Grammar} {c : Context} {s s' : State} {ns : List Node}

/-- A node that is made behind the semicolon, if there is one. -/
theorem Laid.endsWithSemicolon (h : Laid source s s' ns) {k : Kind Node} (hk : k.children = ns)
    (hp : k.isPlain = true) :
    Ensures (Parser.semicolon >>= fun _ => Parser.node k s.current.span.start) c s'
      (Spanned source s) := .bind (.semicolon (h.next.spans hk hp) (h.spans hk hp))

/-! ## Variables -/

theorem lays_declarator (hg : g.Lays source) : Lays source g.declarator := by
  intro c s hs
  refine .bind (.here (.step (hg.bindingTarget c s hs) ?_))
  intro target s1 ht
  refine .bind (.eat (fun _ => .ite (fun _ => ?_) (absurd rfl)) fun _ => .ite nofun fun _ => ?_)
  · refine .step (hg.assignment c _ ht.placed.next) ?_
    intro init s2 hi
    exact .bind (.pure ((ht.next.append hi).makes rfl rfl))
  · exact .bind (.pure (ht.makes rfl rfl))

theorem spans_variableDeclaration (hg : g.Lays source) (hs : s.Ready source)
    (kind : VariableKind) :
    Ensures (g.variableDeclaration kind) c s fun n s' => Spanned source s n s' ∧
      ∃ ds, n.kind = .variableDeclaration kind ds ∧ Laid source s s' ds := by
  have h1 := (Begun.refl hs).next
  refine .bind (.here (.bind (.advance (.step (lays_declarator hg c _ h1.placed) ?_))))
  intro first s1 hf
  refine .step (P := fun ds s' => Laid source s s' ds) ?_ ?_
  · refine .loop (fun ds s' => Laid source s s' ds) (h1.append hf) ?_
    intro ds s2 hds
    refine .bind (.eat (fun _ => .ite (fun _ => ?_) (absurd rfl)) fun _ =>
      .ite nofun fun _ => .pure hds)
    refine .step (lays_declarator hg c _ hds.placed.next) ?_
    intro d s3 hd
    exact .pure (hds.next.append hd)
  · intro ds s2 hds
    refine .nodeOf ⟨?_, ds, rfl, hds.counted⟩
    rw [hds.nodeSpan]
    exact ⟨hds.node rfl rfl, rfl⟩

theorem spans_variableStatement (hg : g.Lays source) (kind : VariableKind) :
    Spans source (g.variableStatement kind) := by
  intro c s hs
  refine .step (spans_variableDeclaration hg hs kind) ?_
  intro n s1 h
  obtain ⟨⟨h1, hspan⟩, ds, hkind, hds⟩ := h
  -- the end of the declaration is no later than that of the token that ends the statement
  have hagain : ∀ s2, Laid source s s2 ds → s1.previous.stop ≤ s2.previous.stop →
      Ensures (Parser.nodeAt n.kind (n.span.through s2.previous)) c s2 (Spanned source s) := by
    intro s2 h2 hle
    refine .nodeAt ?_
    have hthrough : n.span.through s2.previous = Laid.whole s s2 := by
      rw [hspan, Span.through, Laid.whole, Laid.whole, Nat.max_eq_left hle]
    rw [hthrough, hkind]
    exact ⟨h2.node rfl rfl, rfl⟩
  have hnext : s1.previous.stop ≤ s1.next.previous.stop :=
    Nat.le_trans h1.placed.previous_le h1.placed.start_le_stop
  exact .bind (.semicolon (.bind (.get (hagain _ hds.next hnext)))
    (.bind (.get (hagain _ hds (Nat.le_refl _)))))

/-! ## Simple statements -/

theorem spans_expressionStatement (hg : g.Lays source) : Spans source g.expressionStatement := by
  intro c s hs
  refine .bind (.here (.step (lays_expression hg c s hs) ?_))
  intro e s1 he
  exact he.endsWithSemicolon rfl rfl

theorem lays_head (hg : g.Lays source) (h : Laid source s s' ns) :
    Ensures g.head c s' fun n s'' => Laid source s s'' (ns ++ [n]) := by
  refine .bind (.expect fun _ => .step (.withIn (lays_expression hg _ _ h.placed.next)) ?_)
  intro e s1 he
  exact .bind (.expect fun _ => .pure (h.next.append he).next)

theorem spans_returnStatement (hg : g.Lays source) : Spans source g.returnStatement := by
  intro c s hs
  have h1 := (Begun.refl hs).next
  refine .bind (.here (.bind (.advance (.bind (.current ?_)))))
  extract_lets isBare behind
  refine .ite (fun _ => .bind (.pure (h1.endsWithSemicolon rfl rfl))) fun _ => ?_
  refine .step (lays_expression hg c _ h1.placed) ?_
  intro e s2 he
  exact .bind (.pure ((h1.append he).endsWithSemicolon rfl rfl))

theorem spans_jumpStatement {kind : Option String → Kind Node} (hk : ∀ l, (kind l).children = [])
    (hp : ∀ l, (kind l).isPlain = true) : Spans source (Grammar.jumpStatement kind) := by
  intro c s hs
  have h1 := (Begun.refl hs).next
  refine .bind (.here (.bind (.advance (.bind (.current ?_)))))
  extract_lets behind
  split
  · exact .bind (.advance (.bind (.pure (h1.next.endsWithSemicolon (hk _) (hp _)))))
  · exact .bind (.pure (h1.endsWithSemicolon (hk _) (hp _)))

theorem spans_throwStatement (hg : g.Lays source) : Spans source g.throwStatement := by
  intro c s hs
  have h1 := (Begun.refl hs).next
  refine .bind (.here (.bind (.advance (.bind (.current (.ite (fun _ => .bind .fail) fun _ => ?_))))))
  refine .step (lays_expression hg c _ h1.placed) ?_
  intro e s2 he
  exact (h1.append he).endsWithSemicolon rfl rfl

theorem spans_labeledStatement (hg : g.Lays source) (label : String) :
    Spans source (g.labeledStatement label) := by
  intro c s hs
  have h1 := (Begun.refl hs).next.next
  refine .bind (.here (.bind (.advance (.bind (.advance (.step (hg.statement c _ h1.placed) ?_))))))
  intro body s2 hb
  exact (h1.append hb.1).spans rfl rfl

/-! ## Choices -/

theorem spans_ifStatement (hg : g.Lays source) : Spans source g.ifStatement := by
  intro c s hs
  have h1 := (Begun.refl hs).next
  refine .bind (.here (.bind (.advance (.step (lays_head hg h1) ?_))))
  intro test s2 h2
  refine .step (hg.statement c s2 h2.placed) ?_
  intro consequent s3 hc
  have h3 := h2.append hc.1
  refine .bind (.eatWord (fun _ => .ite (fun _ => ?_) (absurd rfl)) fun _ => .ite nofun fun _ => ?_)
  · refine .step (hg.statement c _ h3.placed.next) ?_
    intro alternate s4 ha
    exact .bind (.pure ((h3.next.append ha.1).spans rfl rfl))
  · exact .bind (.pure (h3.spans rfl rfl))

theorem lays_switchCase (hg : g.Lays source) : Lays source g.switchCase := by
  intro c s hs
  have h1 := (Begun.refl hs).next
  refine .bind (.here ?_)
  refine .bind (.eatWord (fun _ => ?_) fun _ => ?_)
  all_goals
    extract_lets behind
    have hbehind : ∀ test s1, Laid source s s1 test.toList →
        Ensures (behind test) c s1 fun n s' => Laid source s s' [n] := by
      intro test s1 ht
      refine .bind (.expect fun _ => .step (lays_statements hg _ ht.next) ?_)
      intro body s2 hb
      exact hb.makes rfl rfl
    refine .ite (fun _ => ?_) fun _ => ?_
  · refine .step (.withIn (lays_expression hg _ _ h1.placed)) ?_
    intro t s2 ht
    exact .bind (.pure (hbehind (some t) s2 (h1.append ht)))
  · contradiction
  · contradiction
  · exact .bind (.expectWord fun _ => .bind (.pure (hbehind none _ h1)))

theorem spans_switchStatement (hg : g.Lays source) : Spans source g.switchStatement := by
  intro c s hs
  have h1 := (Begun.refl hs).next
  refine .bind (.here (.bind (.advance (.step (lays_head hg h1) ?_))))
  intro discriminant s2 h2
  refine .bind (.expect fun _ => ?_)
  refine .step (P := fun cs s' => Laid source s s' ([discriminant] ++ cs)) ?_ ?_
  · refine .listUntil _ h2.next (fun _ _ h => h) ?_
    intro cs s3 h3
    refine .step (lays_switchCase hg c s3 h3.placed) ?_
    intro k s4 hk
    exact .pure ((h3.append hk).of_eq (by simp))
  · intro cs s3 h3
    exact .bind (.expect fun _ => h3.next.spans rfl rfl)

/-! ## Loops -/

theorem spans_whileStatement (hg : g.Lays source) : Spans source g.whileStatement := by
  intro c s hs
  have h1 := (Begun.refl hs).next
  refine .bind (.here (.bind (.advance (.step (lays_head hg h1) ?_))))
  intro test s2 h2
  refine .step (hg.statement c s2 h2.placed) ?_
  intro body s3 hb
  exact (h2.append hb.1).spans rfl rfl

theorem spans_doWhileStatement (hg : g.Lays source) : Spans source g.doWhileStatement := by
  intro c s hs
  have h1 := (Begun.refl hs).next
  refine .bind (.here (.bind (.advance (.step (hg.statement c _ h1.placed) ?_))))
  intro body s2 hb
  have h2 := h1.append hb.1
  refine .bind (.expectWord fun _ => .step (lays_head hg h2.next) ?_)
  intro test s3 h3
  exact .bind (.eat (fun _ => h3.next.spans rfl rfl) fun _ => h3.spans rfl rfl)

theorem lays_forInit (hg : g.Lays source) (h : Laid source s s' []) :
    Ensures g.forInit c s' fun o s'' => Laid source s s'' o.toList := by
  refine .bind (.current (.ite (fun _ => .pure h) fun _ => ?_))
  split
  · rename_i kind _
    refine .step (.withIn (spans_variableDeclaration hg h.placed kind)) ?_
    intro n s1 hn
    exact .pure (h.append hn.1.1)
  · refine .step (.withIn (lays_expression hg _ s' h.placed)) ?_
    intro n s1 hn
    exact .pure (h.append hn)

/-- What a loop assigns to lies where it was read. -/
theorem lays_forTarget {left : Node} (h : Laid source s s' [left]) :
    Ensures (Grammar.forTarget left) c s' fun t s'' => Laid source s s'' [t] := by
  unfold Grammar.forTarget
  split
  · exact .pure h
  · rename_i target htarget _
    exact .pure (h.recast (.cons ((recast left false target).1 htarget) .nil))
  · exact .fail

theorem spans_forEach (hg : g.Lays source) {left : Node} (h : Laid source s s' [left])
    (isOf awaits : Bool) :
    Ensures (g.forEach s.current.span.start left isOf awaits) c s' (Spanned source s) := by
  refine .step (lays_forTarget h) ?_
  intro target s1 ht
  refine .bind (.advance (.step (P := fun n s'' => Laid source s1.next s'' [n]) (.withIn ?_) ?_))
  · exact .ite (fun _ => hg.assignment _ _ ht.placed.next)
      fun _ => lays_expression hg _ _ ht.placed.next
  intro right s2 hr
  have h2 := (ht.next.append hr).next
  refine .bind (.expect fun _ => .step (hg.statement c _ h2.placed) ?_)
  intro body s3 hb
  have h3 := h2.append hb.1
  cases isOf with
  | true => exact h3.spans rfl rfl
  | false => exact h3.spans rfl rfl

theorem lays_forPart (hg : g.Lays source) (h : Laid source s s' ns) (ends : Punctuator) :
    Ensures (g.forPart ends) c s' fun o s'' => Laid source s s'' (ns ++ o.toList) := by
  refine .bind (.sees (.ite (fun _ => .pure (h.of_eq (by simp))) fun _ => ?_))
  refine .step (.withIn (lays_expression hg _ s' h.placed)) ?_
  intro n s1 hn
  exact .pure (h.append hn)

theorem spans_forStatement (hg : g.Lays source) : Spans source g.forStatement := by
  intro c s hs
  have h1 := (Begun.refl hs).next
  refine .bind (.here (.bind (.advance ?_)))
  refine .step (P := fun _ s' => Laid source s s' []) (.eatWord (fun _ => h1.next) fun _ => h1) ?_
  intro awaits s2 h2
  refine .bind (.expect fun _ => .step (lays_forInit hg h2.next) ?_)
  intro init s3 h3
  refine .bind (.seesName (.bind (.seesWord ?_)))
  split
  · exact spans_forEach hg h3 _ _
  refine .bind (.expect fun _ => .step (lays_forPart hg h3.next _) ?_)
  intro test s4 h4
  refine .bind (.expect fun _ => .step (lays_forPart hg h4.next _) ?_)
  intro update s5 h5
  refine .bind (.expect fun _ => .step (hg.statement c _ h5.placed.next) ?_)
  intro body s6 hb
  exact (h5.next.append hb.1).spans rfl rfl

/-! ## Handlers -/

theorem lays_catchClause (hg : g.Lays source) : Lays source g.catchClause := by
  intro c s hs
  have h1 := (Begun.refl hs).next
  refine .bind (.here (.bind (.advance ?_)))
  refine .bind (.eat (fun _ => ?_) fun _ => ?_)
  all_goals
    extract_lets behind
    have hbehind : ∀ param s1, Laid source s s1 param.toList →
        Ensures (behind param) c s1 fun n s' => Laid source s s' [n] := by
      intro param s1 hp
      refine .step (spans_block hg c s1 hp.placed) ?_
      intro body s2 hb
      exact (hp.append hb.1).makes rfl rfl
    refine .ite (fun _ => ?_) fun _ => ?_
  · refine .step (hg.bindingTarget c _ h1.placed.next) ?_
    intro p s2 hp
    exact .bind (.expect fun _ => .bind (.pure (hbehind (some p) _ (h1.next.append hp).next)))
  · contradiction
  · contradiction
  · exact .bind (.pure (hbehind none _ h1))

theorem spans_tryStatement (hg : g.Lays source) : Spans source g.tryStatement := by
  intro c s hs
  have h1 := (Begun.refl hs).next
  refine .bind (.here (.bind (.advance (.step (spans_block hg c _ h1.placed) ?_))))
  intro block s2 hb
  have h2 := h1.append hb.1
  refine .bind (.seesWord ?_)
  extract_lets behind
  have hbehind : ∀ handler s3, Laid source s s3 ([block] ++ handler.toList) →
      Ensures (behind handler) c s3 (Spanned source s) := by
    intro handler s3 h3
    refine .bind (.eatWord (fun _ => .ite (fun _ => ?_) (absurd rfl)) fun _ => .ite nofun fun _ => ?_)
    · refine .step (spans_block hg c _ h3.placed.next) ?_
      intro f s4 hf
      exact .bind (.pure (.ite (fun _ => .bind .fail) fun _ =>
        (h3.next.append hf.1).spans rfl rfl))
    · exact .bind (.pure (.ite (fun _ => .bind .fail) fun _ =>
        h3.spans (by simp [Kind.children]) rfl))
  refine .ite (fun _ => ?_) fun _ => .bind (.pure (hbehind none s2 h2))
  refine .step (lays_catchClause hg c s2 h2.placed) ?_
  intro handler s3 hh
  exact .bind (.pure (hbehind (some handler) s3 (h2.append hh)))

/-! ## Statements -/

theorem spans_statementRule (hg : g.Lays source) : Spans source g.statementRule := by
  intro c s hs
  have h1 := (Begun.refl hs).next
  refine .bind (.here (.bind (.startsAsyncFunction fun _ _ => .ite (fun _ => ?_) fun _ => ?_)))
  · exact .bind (.advance (spans_functionDeclaration hg h1.toBegun true _ rfl))
  refine .bind (.current ?_)
  split
  · exact spans_block hg c s hs
  · exact .bind (.advance (h1.spans rfl rfl))
  · exact spans_variableStatement hg _ c s hs
  · exact spans_variableStatement hg _ c s hs
  · exact spans_variableStatement hg _ c s hs
  · exact spans_functionDeclaration hg (.refl hs) false _ rfl
  · exact spans_classRule hg (fun _ => rfl) (fun _ => rfl) _ c s hs
  · exact spans_ifStatement hg c s hs
  · exact spans_switchStatement hg c s hs
  · exact spans_whileStatement hg c s hs
  · exact spans_doWhileStatement hg c s hs
  · exact spans_forStatement hg c s hs
  · exact spans_returnStatement hg c s hs
  · exact spans_jumpStatement (fun _ => rfl) (fun _ => rfl) c s hs
  · exact spans_jumpStatement (fun _ => rfl) (fun _ => rfl) c s hs
  · exact spans_throwStatement hg c s hs
  · exact spans_tryStatement hg c s hs
  · exact .fail
  · exact .bind (.advance (h1.endsWithSemicolon rfl rfl))
  · rename_i label _
    exact .bind (.peek (.ite (fun _ => spans_labeledStatement hg label c s hs)
      fun _ => spans_expressionStatement hg c s hs))
  · exact spans_expressionStatement hg c s hs

end

end EsModule.Syntax
