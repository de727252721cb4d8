import EsModule.Proofs.Layout.Primary
import EsModule.Proofs.Grammar.Expression

/-!
# Where rules lay their nodes: expressions

What is built on an operand starts where the operand starts. The items of an operand that becomes
the head of an arrow function are read again as its parameters, and the operand itself is dropped.
-/

namespace EsModule.Syntax

open EsModule.Text

section

variable {source : List Char} {g : Grammar} {c : Context} {s s' : State} {ns : List Node}

/-- An operand that is built on trees in front of it. -/
theorem Laid.makesOperand (h : Laid source s s' ns) {k : Kind Node} (hk : k.children = ns)
    (hp : k.isPlain = true) :
    Ensures (do return (⟨← Parser.node k s.current.span.start, none⟩ : Operand)) c s'
      fun o s'' => o.Laid source s s'' := lays_operand (h.makes hk hp)

/-! ## Members and calls -/

theorem lays_arguments (hg : g.Lays source) (hs : s.Ready source) :
    Ensures g.arguments c s fun args s' => Laid source s s' args := by
  refine .bind (.expect fun _ => ?_)
  refine .step (P := fun args s' => Laid source s s' args) (.withIn ?_) ?_
  · refine .listUntil _ (Begun.refl hs).next (fun _ _ h => h) ?_
    intro args s1 hargs
    refine .step (lays_spreadOrAssignment hg _ s1 hargs.placed) ?_
    intro a s2 ha
    exact .bind (.eat (fun _ => .pure (hargs.append ha).next) fun _ => .pure (hargs.append ha))
  · intro args s1 hargs
    exact .bind (.expect fun _ => .pure hargs.next)

theorem lays_memberName : Lays source Grammar.memberName := by
  intro c s hs
  refine .bind (.here (.bind (.current ?_)))
  split
  · exact .bind (.advance ((Begun.refl hs).next.makes rfl rfl))
  · refine .step (P := fun name s' => s' = s.next ∧ s.current.kind.name? = some name) ?_ ?_
    · refine .bind (.current ?_)
      split
      · rename_i name hname
        exact .bind (.advance (.pure ⟨rfl, hname⟩))
      · exact .unexpected
    · intro name s' h
      obtain ⟨rfl, hname⟩ := h
      exact hs.makesName hname

theorem lays_computedMember (hg : g.Lays source) (hs : s.Ready source) :
    Ensures g.computedMember c s fun n s' => Laid source s s' [n] := by
  refine .step (.withIn (lays_expression hg _ s hs)) ?_
  intro n s1 hn
  exact .bind (.expect fun _ => .pure hn.next)

theorem lays_optionalSuffix (hg : g.Lays source) {object : Node}
    (h : Laid source s s' [object]) :
    Ensures (g.optionalSuffix object s.current.span.start) c s' fun n s'' =>
      Laid source s s'' [n] := by
  refine .bind (.sees (.ite (fun _ => ?_) fun _ => ?_))
  · refine .step (lays_arguments hg h.placed) ?_
    intro args s1 hargs
    exact (h.append hargs).makes rfl rfl
  refine .bind (.eat (fun _ => .ite (fun _ => ?_) (absurd rfl)) fun _ => .ite nofun fun _ => ?_)
  · refine .step (lays_computedMember hg h.placed.next) ?_
    intro property s1 hp
    exact (h.next.append hp).makes rfl rfl
  · refine .step (lays_memberName c s' h.placed) ?_
    intro property s1 hp
    exact (h.append hp).makes rfl rfl

/-- The arguments of a call lie behind what is called, and alone they lie there too. -/
theorem lays_call (hg : g.Lays source) {callee : Node} (h : Laid source s s' [callee])
    (mayBeHead : Bool) :
    Ensures (g.call callee s.current.span.start mayBeHead) c s' fun o s'' =>
      o.Laid source s s'' := by
  refine .step (lays_arguments hg h.placed) ?_
  intro args s1 hargs
  have hall := h.append hargs
  refine .bind (.nodeOf (.pure ⟨?_, ?_⟩))
  · rw [hall.nodeSpan]
    exact hall.node rfl rfl
  · intro items hitems
    cases mayBeHead with
    | false => cases hitems
    | true =>
      obtain rfl := Option.some.inj hitems
      exact (hall.sublist (List.sublist_append_right _ _)).counted

theorem lays_leftHandSideRule (hg : g.Lays source) : LaysOperand source g.leftHandSideRule := by
  intro c s hs
  refine .bind (.here (.bind (.seesWord (.bind (.seesWord ?_)))))
  extract_lets behind
  have hbehind : ∀ o s1, Operand.Laid source s s1 o →
      Ensures (behind o) c s1 fun o s' => o.Laid source s s' := by
    intro o s1 h
    refine .loop (fun o s' => o.Laid source s s') h fun o s2 h => ?_
    refine .bind (.current ?_)
    split
    · refine .bind (.advance (.step (lays_memberName _ _ h.node.placed.next) ?_))
      intro property s3 hp
      exact .step ((h.node.next.append hp).makes rfl rfl) fun _ _ hn => .pure (.of_node hn)
    · refine .bind (.advance (.step (lays_optionalSuffix hg h.node.next) ?_))
      intro n s3 hn
      exact .pure (.of_node hn)
    · refine .bind (.advance (.step (lays_computedMember hg h.node.placed.next) ?_))
      intro property s3 hp
      exact .step ((h.node.next.append hp).makes rfl rfl) fun _ _ hn => .pure (.of_node hn)
    · refine .bind (.current (.step (lays_call hg h.node _) ?_))
      exact fun o s3 h3 => .pure h3
    · refine .step (lays_template hg c s2 h.node.placed) ?_
      intro quasi s3 hq
      exact .step ((h.node.append hq).makes rfl rfl) fun _ _ hn => .pure (.of_node hn)
    · exact .pure h
  refine .ite (fun _ => ?_) fun _ => ?_
  · refine .step (hg.newExpression c s hs) ?_
    intro n s1 hn
    exact .bind (.pure (hbehind _ _ (.of_node hn)))
  · exact .step (lays_primary hg c s hs) hbehind

theorem lays_newCallee (hg : g.Lays source) : Lays source g.newCallee := by
  intro c s hs
  refine .bind (.here (.bind (.seesWord ?_)))
  extract_lets behind
  have hbehind : ∀ n s1, Laid source s s1 [n] →
      Ensures (behind n) c s1 fun n s' => Laid source s s' [n] := by
    intro n s1 h
    refine .loop (fun n s' => Laid source s s' [n]) h ?_
    intro n s2 hn
    refine .bind (.eat (fun _ => .ite (fun _ => ?_) (absurd rfl)) fun _ => .ite nofun fun _ => ?_)
    · refine .step (lays_memberName _ _ hn.placed.next) ?_
      intro property s3 hp
      exact .step ((hn.next.append hp).makes rfl rfl) fun _ _ h => .pure h
    refine .bind (.eat (fun _ => .ite (fun _ => ?_) (absurd rfl)) fun _ => .ite nofun fun _ => ?_)
    · refine .step (lays_computedMember hg hn.placed.next) ?_
      intro property s3 hp
      exact .step ((hn.next.append hp).makes rfl rfl) fun _ _ h => .pure h
    · exact .pure hn
  refine .ite (fun _ => .step (hg.newExpression c s hs) hbehind) fun _ => ?_
  exact .step (lays_primary hg c s hs) fun o s1 h => .bind (.pure (hbehind _ _ h.node))

theorem lays_newExpressionRule (hg : g.Lays source) : Lays source g.newExpressionRule := by
  intro c s hs
  have h1 := (Begun.refl hs).next
  refine .bind (.here (.bind (.advance (.bind (.eat (fun _ => .ite (fun _ => ?_) (absurd rfl))
    fun _ => .ite nofun fun _ => ?_)))))
  · exact .bind (.expectName fun _ => h1.next.next.makes rfl rfl)
  refine .step (lays_newCallee hg _ _ h1.placed) ?_
  intro callee s2 hc
  have h2 := h1.append hc
  refine .bind (.sees (.ite (fun _ => ?_) fun _ => ?_))
  · refine .step (lays_arguments hg h2.placed) ?_
    intro args s3 hargs
    exact (h2.append hargs).makes rfl rfl
  · exact .bind (.pure (h2.makes rfl rfl))

/-! ## Operators -/

theorem lays_postfixUpdate (hg : g.Lays source) : LaysOperand source g.postfixUpdate := by
  intro c s hs
  refine .bind (.here (.step (lays_leftHandSideRule hg c s hs) fun o s1 h => ?_))
  refine .bind (.current ?_)
  split
  · refine .ite (fun _ => ?_) fun _ => .bind .fail
    exact .bind (.advance (h.node.next.makesOperand rfl rfl))
  · exact .pure h

theorem lays_unaryRule (hg : g.Lays source) : LaysOperand source g.unaryRule := by
  intro c s hs
  have h1 := (Begun.refl hs).next
  refine .bind (.here (.bind (.current ?_)))
  extract_lets kind
  split
  · refine .bind (.advance (.step (hg.unary _ _ h1.placed) fun o s2 h => ?_))
    exact (h1.append h.node).makesOperand rfl rfl
  split
  · refine .bind (.advance (.step (hg.unary _ _ h1.placed) fun o s2 h => ?_))
    refine .ite (fun _ => ?_) fun _ => .bind .fail
    exact (h1.append h.node).makesOperand rfl rfl
  refine .bind (.eatWord (fun _ => .ite (fun _ => ?_) (absurd rfl)) fun _ => .ite nofun fun _ => ?_)
  · refine .step (hg.unary _ _ h1.placed) fun o s2 h => ?_
    exact (h1.append h.node).makesOperand rfl rfl
  · exact lays_postfixUpdate hg c s hs

theorem lays_binaryRule (hg : g.Lays source) (least : Nat) :
    LaysOperand source (g.binaryRule least) := by
  intro c s hs
  refine .bind (.here (.step (lays_unaryRule hg c s hs) fun o s1 h => ?_))
  refine .loop (fun o s' => o.Laid source s s') h fun o s2 h => ?_
  refine .bind (.binaryOperator? fun found _ => ?_)
  split
  · refine .ite (fun _ => .pure h) fun _ => .bind (.advance ?_)
    refine .step (hg.binary _ _ _ h.node.placed.next) fun r s3 hr => ?_
    exact .step ((h.node.next.append hr.node).makes rfl rfl) fun _ _ hn => .pure (.of_node hn)
  · exact .pure h

theorem lays_conditional (hg : g.Lays source) : LaysOperand source g.conditional := by
  intro c s hs
  refine .bind (.here (.step (lays_binaryRule hg 1 c s hs) fun o s1 h => ?_))
  refine .bind (.eat (fun _ => .ite (fun _ => ?_) (absurd rfl)) fun _ => .ite nofun fun _ => .pure h)
  refine .step (.withIn (hg.assignment _ _ h.node.placed.next)) ?_
  intro consequent s2 hc
  have h2 := (h.node.next.append hc).next
  refine .bind (.expect fun _ => .step (hg.assignment _ _ h2.placed) ?_)
  intro alternate s3 ha
  exact (h2.append ha).makesOperand rfl rfl

/-! ## Arrow functions -/

theorem lays_arrowBody (hg : g.Lays source) {params : List Node} (h : Laid source s s' params)
    (isAsync : Bool) :
    Ensures (g.arrowBody s.current.span.start params isAsync) c s' fun n s'' =>
      Laid source s s'' [n] := by
  refine .bind (.expect fun _ => ?_)
  refine .step (P := fun r s'' => Laid source s'.next s'' [r.1]) (.inFunction (.bind (.sees ?_))) ?_
  · refine .ite (fun _ => ?_) fun _ => ?_
    · exact .step ((spans_block hg).lays _ _ h.placed.next) fun _ _ hb => .pure hb
    · exact .step (hg.assignment _ _ h.placed.next) fun _ _ hb => .pure hb
  · intro r s1 hb
    exact (h.next.append hb).makes rfl rfl

theorem lays_arrowBehind (hg : g.Lays source) {head : Operand} (h : head.Laid source s s') :
    Ensures (g.arrowBehind s.current.span.start head) c s' fun n s'' =>
      Laid source s s'' [n] := by
  unfold Grammar.arrowBehind
  split
  · rename_i items hitems
    refine .bind (.current (.ite (fun _ => .bind .unexpected) fun _ => ?_))
    extract_lets isAsync
    split
    · rename_i params hparams
      refine lays_arrowBody hg ((h.items items hitems).recast ?_) _
      exact recast_list (mapM_eq_some.mp hparams) fun n _ t ht => (recast n true t).2.1 ht
    · exact .fail
  · exact .unexpected

/-! ## Assignments -/

theorem lays_yieldExpression (hg : g.Lays source) : Lays source g.yieldExpression := by
  intro c s hs
  have h1 := (Begun.refl hs).next
  refine .bind (.here (.bind (.advance (.bind (.current ?_)))))
  extract_lets isLast
  refine .ite (fun _ => h1.makes rfl rfl) fun _ => ?_
  refine .step (P := fun _ s' => Laid source s s' []) (.eat (fun _ => h1.next) fun _ => h1) ?_
  intro delegate s2 h2
  refine .step (hg.assignment c s2 h2.placed) ?_
  intro argument s3 h3
  exact (h2.append h3).makes rfl rfl

/-- The target of an assignment lies where it was read as an expression. -/
theorem lays_assignmentTarget {left : Node} (h : Laid source s s' [left])
    (operator : AssignmentOperator) :
    Ensures (Grammar.assignmentTarget operator left) c s' fun t s'' =>
      Laid source s s'' [t] := by
  refine .ite (fun _ => ?_) fun _ => .ite (fun _ => .pure h) fun _ => .fail
  split
  · rename_i target htarget
    exact .pure (h.recast (.cons ((recast left false target).1 htarget) .nil))
  · exact .fail

theorem lays_assignmentRule (hg : g.Lays source) : Lays source g.assignmentRule := by
  intro c s hs
  refine .bind (.here (.bind (.seesWord (.bind (.read (.ite (fun _ => ?_) fun _ => ?_))))))
  · exact lays_yieldExpression hg c s hs
  refine .bind (.startsAsyncArrow fun _ => .ite (fun _ => ?_) fun _ => ?_)
  · refine .bind (.advance (.step (lays_bindingName _ _ hs.next) ?_))
    intro param s1 hp
    exact lays_arrowBody hg ((Begun.refl hs).next.append hp) true
  refine .step (P := fun _ s' => s' = s) (.atBindingName (fun _ => rfl) rfl) ?_
  intro b s1 hs1
  subst hs1
  refine .bind (.peek (.ite (fun _ => ?_) fun _ => ?_))
  · refine .step (lays_bindingName _ _ hs) ?_
    intro param s2 hp
    exact lays_arrowBody hg hp false
  refine .step (lays_conditional hg c s1 hs) fun left s2 h => ?_
  refine .bind (.sees (.ite (fun _ => lays_arrowBehind hg h) fun _ => ?_))
  refine .bind (.current ?_)
  split
  · exact .pure h.node
  · rename_i operator _
    refine .step (lays_assignmentTarget h.node operator) ?_
    intro target s3 ht
    refine .bind (.advance (.step (hg.assignment _ _ ht.placed.next) ?_))
    intro right s4 hr
    exact (ht.next.append hr).makes rfl rfl

end

end EsModule.Syntax
