import EsModule.Proofs.Grammar.Reading
import EsModule.Syntax.Grammar.Expression

/-!
# What rules read: expressions

Every rule here starts from an operand and goes on only over tokens that are no arrow, so whatever
it builds on is an expression by then. Where nothing is built the operand is handed on as it is,
and its items with it, until the rule for assignments sees whether an arrow follows.
-/

namespace EsModule.Syntax

open EsModule.Text

section

variable {g : Grammar}

/-! ## Members and calls -/

theorem ensures_arguments (hg : g.Sound) {c : Context} {s : State} (hs : s.Normal) :
    Ensures g.arguments c s fun args s' => Made s s' args ∧
      ∀ a ∈ args, Derives c.inGenerator .argument a := by
  refine .bind (.expect fun _ => ?_)
  refine .step (P := fun args s' => Made s s' args ∧
    ∀ a ∈ args, Derives c.inGenerator .argument a) (.withIn ?_) ?_
  · refine .listUntil _ ⟨(Made.start hs).next, nofun⟩ (fun _ _ h => h) ?_
    rintro args s1 ⟨hm, hd⟩
    refine .step (sound_spreadOrAssignment hg _ s1 hm.normal) ?_
    rintro a s2 ⟨ha, hda⟩
    have hd' := forall_mem_concat hd hda
    exact .bind (.eat (fun _ => .pure ⟨(hm.append ha).next, hd'⟩)
      fun _ => .pure ⟨hm.append ha, hd'⟩)
  · rintro args s1 ⟨hm, hd⟩
    exact .bind (.expect fun _ => .pure ⟨hm.next, hd⟩)

theorem sound_memberName : Sound .memberName Grammar.memberName := by
  intro c s hs
  have hm := (Made.start hs).next
  refine .bind (.here (.bind (.current ?_)))
  split
  · rename_i name hk
    refine .bind (.advance (.node fun span => ⟨hm.node rfl span, ?_⟩))
    exact .privateMember (hs.isPrivateName hk)
  · refine .step (ensures_anyName hs) ?_
    rintro name s1 ⟨rfl, hname⟩
    exact .node fun span => ⟨hm.node rfl span, .namedMember hname⟩

theorem ensures_computedMember (hg : g.Sound) {c : Context} {s : State} (hs : s.Normal) :
    Ensures g.computedMember c s fun n s' =>
      Made s s' [n] ∧ Derives c.inGenerator .expression n := by
  refine .step (.withIn (sound_expression hg _ s hs)) ?_
  rintro n s1 ⟨hm, hd⟩
  exact .bind (.expect fun _ => .pure ⟨hm.next, hd⟩)

theorem ensures_optionalSuffix (hg : g.Sound) {c : Context} {s0 s : State} {object : Node}
    (hm : Made s0 s [object]) (ho : Derives c.inGenerator .expression object) (start : Nat) :
    Ensures (g.optionalSuffix object start) c s fun n s' =>
      Made s0 s' [n] ∧ Derives c.inGenerator .expression n := by
  refine .bind (.sees (.ite (fun _ => ?_) fun _ => ?_))
  · refine .step (ensures_arguments hg hm.normal) ?_
    rintro args s1 ⟨hargs, hd⟩
    exact .node fun span => ⟨(hm.append hargs).node rfl span, .callExpression ho hd⟩
  refine .bind (.eat (fun _ => .ite (fun _ => ?_) (absurd rfl)) fun _ => .ite nofun fun _ => ?_)
  · refine .step (ensures_computedMember hg s.normal_next) ?_
    rintro property s1 ⟨hp, hd⟩
    exact .node fun span => ⟨(hm.next.append hp).node rfl span, .memberExpression ho hd⟩
  · refine .step (sound_memberName c s hm.normal) ?_
    rintro property s1 ⟨hp, hd⟩
    exact .node fun span => ⟨(hm.append hp).node rfl span, .memberExpression ho hd⟩

/-- What a loop over members and calls keeps: the first operand was read, or what was built on it is
an expression. -/
theorem Operand.Read.built {y : Bool} {s s' : State} {n : Node} (hm : Made s s' [n])
    (hd : Derives y .expression n) : Operand.Read y s s' ⟨n, none⟩ := ⟨hm, nofun, fun _ => hd⟩

/-- A call keeps its arguments as items, should it be the head of an arrow function. -/
theorem ensures_call (hg : g.Sound) {c : Context} {s0 s : State} {callee : Node}
    (hm : Made s0 s [callee]) (hc : Derives c.inGenerator .expression callee) (start : Nat)
    (mayBeHead : Bool) :
    Ensures (g.call callee start mayBeHead) c s fun o s' => o.Read c.inGenerator s0 s' := by
  refine .step (ensures_arguments hg hm.normal) ?_
  rintro args s1 ⟨hargs, hd⟩
  refine .bind (.node fun span => .pure ⟨(hm.append hargs).node rfl span, ?_, fun _ => ?_⟩)
  · intro items hitems
    cases mayBeHead with
    | false => cases hitems
    | true =>
      obtain rfl := Option.some.inj hitems
      exact .call rfl hd
  · exact .callExpression hc hd

theorem sound_leftHandSideRule (hg : g.Sound) : SoundOperand g.leftHandSideRule := by
  intro c s hs
  refine .bind (.here (.bind (.seesWord (.bind (.seesWord ?_)))))
  extract_lets behind
  have hbehind : ∀ o s1, Operand.Read c.inGenerator s s1 o →
      Ensures (behind o) c s1 fun o s' => o.Read c.inGenerator s s' := by
    intro o s1 h
    refine .loop (fun o s' => o.Read c.inGenerator s s') h fun o s2 h => ?_
    refine .bind (.current ?_)
    split
    · rename_i hk
      have ho := h.expression (hk ▸ nofun)
      refine .bind (.advance (.step (sound_memberName _ _ s2.normal_next) ?_))
      rintro property s3 ⟨hp, hd⟩
      refine .bind (.node fun span => .pure (.built ?_ (.memberExpression ho hd)))
      exact (h.made.next.append hp).node rfl span
    · rename_i hk
      have ho := h.expression (hk ▸ nofun)
      refine .bind (.advance (.step (ensures_optionalSuffix hg h.made.next ho _) ?_))
      rintro n s3 ⟨hn, hd⟩
      exact .pure (.built hn hd)
    · rename_i hk
      have ho := h.expression (hk ▸ nofun)
      refine .bind (.advance (.step (ensures_computedMember hg s2.normal_next) ?_))
      rintro property s3 ⟨hp, hd⟩
      refine .bind (.node fun span => .pure (.built ?_ (.memberExpression ho hd)))
      exact (h.made.next.append hp).node rfl span
    · rename_i hk
      have ho := h.expression (hk ▸ nofun)
      refine .bind (.current (.step (ensures_call hg h.made ho _ _) ?_))
      exact fun o s3 h3 => .pure h3
    · rename_i hk
      have ho := h.expression (hk ▸ nofun)
      refine .step (sound_template hg c s2 h.made.normal) ?_
      rintro quasi s3 ⟨hq, hd⟩
      refine .bind (.node fun span => .pure (.built ?_ (.taggedTemplate ho hd)))
      exact (h.made.append hq).node rfl span
    · exact .pure h
  refine .ite (fun _ => ?_) fun _ => ?_
  · refine .step (hg.newExpression c s hs) ?_
    rintro n s1 ⟨hm, hd⟩
    exact .bind (.pure (hbehind _ _ ⟨hm, nofun, hd⟩))
  · exact .step (sound_primary hg c s hs) hbehind

/-- What is read behind `new` is an expression unless an arrow follows. -/
theorem ensures_newCallee (hg : g.Sound) {c : Context} {s : State} (hs : s.Normal) :
    Ensures g.newCallee c s fun n s' => Made s s' [n] ∧
      (s'.current.kind ≠ .punctuator .arrow → Derives c.inGenerator .expression n) := by
  refine .bind (.here (.bind (.seesWord ?_)))
  extract_lets behind
  have hbehind : ∀ n s1, Made s s1 [n] ∧
      (s1.current.kind ≠ .punctuator .arrow → Derives c.inGenerator .expression n) →
      Ensures (behind n) c s1 fun n s' => Made s s' [n] ∧
        (s'.current.kind ≠ .punctuator .arrow → Derives c.inGenerator .expression n) := by
    intro n s1 h
    refine .loop (fun n s' => Made s s' [n] ∧
      (s'.current.kind ≠ .punctuator .arrow → Derives c.inGenerator .expression n)) h ?_
    rintro n s2 ⟨hm, hd⟩
    refine .bind (.eat (fun hk => .ite (fun _ => ?_) (absurd rfl)) fun _ => .ite nofun fun _ => ?_)
    · have ho := hd (hk ▸ nofun)
      refine .step (sound_memberName _ _ s2.normal_next) ?_
      rintro property s3 ⟨hp, hdp⟩
      refine .bind (.node fun span => .pure ⟨?_, fun _ => .memberExpression ho hdp⟩)
      exact (hm.next.append hp).node rfl span
    refine .bind (.eat (fun hk => .ite (fun _ => ?_) (absurd rfl)) fun _ => .ite nofun fun _ => ?_)
    · have ho := hd (hk ▸ nofun)
      refine .step (ensures_computedMember hg s2.normal_next) ?_
      rintro property s3 ⟨hp, hdp⟩
      refine .bind (.node fun span => .pure ⟨?_, fun _ => .memberExpression ho hdp⟩)
      exact (hm.next.append hp).node rfl span
    · exact .pure ⟨hm, hd⟩
  refine .ite (fun _ => .step (hg.newExpression c s hs) hbehind) fun _ => ?_
  refine .step (sound_primary hg c s hs) fun o s1 h => ?_
  exact .bind (.pure (hbehind _ _ ⟨h.made, h.expression⟩))

theorem ensures_newExpressionRule (hg : g.Sound) {c : Context} {s : State} (hs : s.Normal) :
    Ensures g.newExpressionRule c s fun n s' => Made s s' [n] ∧
      (s'.current.kind ≠ .punctuator .arrow → Derives c.inGenerator .expression n) := by
  have h1 := (Made.start hs).next
  refine .bind (.here (.bind (.advance (.bind (.eat (fun _ => .ite (fun _ => ?_) (absurd rfl))
    fun _ => .ite nofun fun _ => ?_)))))
  · exact .bind (.expectName fun _ => .node fun span =>
      ⟨h1.next.next.node rfl span, fun _ => .metaProperty⟩)
  refine .step (ensures_newCallee hg h1.normal) ?_
  rintro callee s2 ⟨h2, hd⟩
  have hm := h1.append h2
  refine .bind (.sees ?_)
  refine .ite (fun hk => ?_) fun _ => ?_
  · have hparen := of_decide_eq_true hk
    refine .step (ensures_arguments hg h2.normal) ?_
    rintro args s3 ⟨hargs, hda⟩
    exact .node fun span => ⟨(hm.append hargs).node rfl span,
      fun _ => .newExpression (hd (hparen ▸ nofun)) hda⟩
  · exact .bind (.pure (.node fun span => ⟨hm.node (by simp [Kind.children]) span,
      fun h => .newExpression (hd h) nofun⟩))

/-! ## Operators -/

theorem UpdateOperator.kind_of_ofToken? {kind : TokenKind} {operator : UpdateOperator}
    (h : UpdateOperator.ofToken? kind = some operator) : kind = .punctuator operator.mark := by
  have := List.find?_some h
  simpa [eq_comm] using this

theorem AssignmentOperator.kind_of_ofToken? {kind : TokenKind} {operator : AssignmentOperator}
    (h : AssignmentOperator.ofToken? kind = some operator) : kind = .punctuator operator.mark := by
  have := List.find?_some h
  simpa [eq_comm] using this

theorem BinaryOperator.kind_of_ofToken? {kind : TokenKind} {operator : BinaryOperator}
    (h : BinaryOperator.ofToken? kind = some operator) : kind = operator.token := by
  have := List.find?_some h
  simpa [eq_comm] using this

theorem BinaryOperator.token_ne_arrow (operator : BinaryOperator) :
    operator.token ≠ .punctuator .arrow := by
  cases operator <;> exact nofun

theorem sound_postfixUpdate (hg : g.Sound) : SoundOperand g.postfixUpdate := by
  intro c s hs
  refine .bind (.here (.step (sound_leftHandSideRule hg c s hs) fun o s1 h => ?_))
  refine .bind (.current ?_)
  split
  · rename_i operator hop _
    have ho := h.expression (by
      rw [UpdateOperator.kind_of_ofToken? hop]
      cases operator <;> exact nofun)
    refine .ite (fun htarget => ?_) fun _ => .bind .fail
    refine .bind (.advance (.bind (.node fun span => .pure (.built ?_ ?_))))
    · exact h.made.next.node rfl span
    · exact .updateExpression ho htarget
  · exact .pure h

/-- What an operator in front makes of its operand is an expression unless an arrow follows. -/
theorem Operand.Read.inFront {y : Bool} {s0 s s' : State} {o : Operand} (h0 : Made s0 s [])
    (h : o.Read y s s') {kind : Kind Node} (hk : kind.children = [o.node])
    (hd : ∀ id span, Derives y .expression o.node → Derives y .expression (.mk id span kind))
    (span : Span) : Operand.Read y s0 s'.counted ⟨.mk s'.nextId span kind, none⟩ :=
  ⟨(h0.append h.made).node hk span, nofun, fun harrow => hd _ _ (h.expression harrow)⟩

theorem sound_unaryRule (hg : g.Sound) : SoundOperand g.unaryRule := by
  intro c s hs
  have h1 := (Made.start hs).next
  refine .bind (.here (.bind (.current ?_)))
  extract_lets kind
  split
  · rename_i operator _
    refine .bind (.advance (.step (hg.unary _ _ h1.normal) fun o s2 h => ?_))
    exact .bind (.node fun span => .pure (h.inFront h1 rfl (fun _ _ => .unaryExpression) span))
  split
  · rename_i operator _
    refine .bind (.advance (.step (hg.unary _ _ h1.normal) fun o s2 h => ?_))
    refine .ite (fun htarget => ?_) fun _ => .bind .fail
    exact .bind (.node fun span => .pure
      (h.inFront h1 rfl (fun _ _ hd => .updateExpression hd htarget) span))
  refine .bind (.eatWord (fun _ => .ite (fun _ => ?_) (absurd rfl)) fun _ => .ite nofun fun _ => ?_)
  · refine .step (hg.unary _ _ h1.normal) fun o s2 h => ?_
    exact .bind (.node fun span => .pure (h.inFront h1 rfl (fun _ _ => .awaitExpression) span))
  · exact sound_postfixUpdate hg c s hs

theorem Ensures.binaryOperator? {c : Context} {s : State}
    {Q : Option BinaryOperator → State → Prop}
    (h : ∀ o, (∀ operator, o = some operator → s.current.kind = operator.token) → Q o s) :
    Ensures Grammar.binaryOperator? c s Q := by
  refine .bind (.current (.bind (.read (.ite (fun _ => .pure (h _ nofun)) fun _ => .pure (h _ ?_)))))
  exact fun operator => BinaryOperator.kind_of_ofToken?

theorem sound_binaryRule (hg : g.Sound) (least : Nat) : SoundOperand (g.binaryRule least) := by
  intro c s hs
  refine .bind (.here (.step (sound_unaryRule hg c s hs) fun o s1 h => ?_))
  refine .loop (fun o s' => o.Read c.inGenerator s s') h fun o s2 h => ?_
  refine .bind (.binaryOperator? fun found hfound => ?_)
  split
  · rename_i operator
    have ho := h.expression (by
      rw [hfound operator rfl]
      exact operator.token_ne_arrow)
    refine .ite (fun _ => .pure h) fun _ => .bind (.advance ?_)
    refine .step (hg.binary _ _ _ s2.normal_next) fun r s3 hr => ?_
    refine .bind (.node fun span => .pure ⟨?_, nofun, fun harrow => ?_⟩)
    · exact (h.made.next.append hr.made).node rfl span
    · exact .binaryExpression ho (hr.expression harrow)
  · exact .pure h

theorem sound_conditional (hg : g.Sound) : SoundOperand g.conditional := by
  intro c s hs
  refine .bind (.here (.step (sound_binaryRule hg 1 c s hs) fun o s1 h => ?_))
  refine .bind (.eat (fun hk => .ite (fun _ => ?_) (absurd rfl)) fun _ => .ite nofun fun _ => .pure h)
  have ho := h.expression (hk ▸ nofun)
  refine .step (.withIn (hg.assignment _ _ s1.normal_next)) ?_
  rintro consequent s2 ⟨h2, hc⟩
  refine .bind (.expect fun _ => .step (hg.assignment _ _ s2.normal_next) ?_)
  rintro alternate s3 ⟨h3, ha⟩
  refine .bind (.node fun span => .pure (.built ?_ (.conditionalExpression ho hc ha)))
  exact (((h.made.next.append h2).next).append h3).node rfl span

/-! ## Arrow functions -/

theorem ensures_arrowBody (hg : g.Sound) {c : Context} {s0 s : State} {params : List Node}
    (hm : Made s0 s params) (start : Nat) (isAsync : Bool)
    (hp : ∀ p ∈ params,
      Derives c.inGenerator (if isAsync then .element true else .arrowParameter) p)
    (hr : isAsync = false → RestLast params) :
    Ensures (g.arrowBody start params isAsync) c s fun n s' =>
      Made s0 s' [n] ∧ Derives c.inGenerator .expression n := by
  refine .bind (.expect fun _ => ?_)
  refine .step (P := fun r s' => Made s.next s' [r.1] ∧
    Derives false (if r.2 then .expression else .block) r.1) (.inFunction (.bind (.sees ?_))) ?_
  · refine .ite (fun _ => ?_) fun _ => ?_
    · refine .step (sound_block hg _ _ s.normal_next) ?_
      rintro body s1 ⟨hb, hd⟩
      exact .pure ⟨hb, hd⟩
    · refine .step (hg.assignment _ _ s.normal_next) ?_
      rintro body s1 ⟨hb, hd⟩
      exact .pure ⟨hb, hd⟩
  · rintro ⟨body, isExpression⟩ s1 ⟨hb, hd⟩
    exact .node fun span => ⟨(hm.next.append hb).node rfl span, .arrowFunction hp hr hd⟩

theorem ensures_arrowBehind (hg : g.Sound) {c : Context} {s0 s : State} {head : Operand}
    (h : head.Read c.inGenerator s0 s) (start : Nat) :
    Ensures (g.arrowBehind start head) c s fun n s' =>
      Made s0 s' [n] ∧ Derives c.inGenerator .expression n := by
  unfold Grammar.arrowBehind
  split
  · rename_i items hitems
    refine .bind (.current (.ite (fun _ => .bind .unexpected) fun _ => ?_))
    extract_lets isAsync
    split
    · rename_i params hparams
      obtain ⟨hp, hr, hids⟩ := (h.items items hitems).parameters hparams
      exact ensures_arrowBody hg ⟨h.made.normal, h.made.within.sublist hids⟩ start _ hp hr
    · exact .fail
  · exact .unexpected

theorem Ensures.startsAsyncArrow {c : Context} {s : State} {Q : Bool → State → Prop}
    (h : ∀ b, Q b s) : Ensures Grammar.startsAsyncArrow c s Q := by
  refine .bind (.seesWord (.ite (fun _ => .bind (.get ?_)) fun _ => .pure (h _)))
  dsimp only
  split
  all_goals exact .pure (h _)

/-! ## Assignments -/

theorem ensures_yieldExpression (hg : g.Sound) {c : Context} {s : State} (hs : s.Normal)
    (hgen : c.inGenerator = true) :
    Ensures g.yieldExpression c s fun n s' =>
      Made s s' [n] ∧ Derives c.inGenerator .expression n := by
  have h1 := (Made.start hs).next
  have hbare : ∀ id span, Derives c.inGenerator .expression
      (.mk id span (.yieldExpression none false)) := by
    rw [hgen]
    exact fun _ _ => .bareYield
  refine .bind (.here (.bind (.advance (.bind (.current ?_)))))
  extract_lets isLast
  refine .ite (fun _ => .node fun span => ⟨h1.node rfl span, hbare _ _⟩) fun _ => ?_
  refine .step (P := fun _ s' => Made s s' []) (.eat (fun _ => h1.next) fun _ => h1) ?_
  intro delegate s2 h2
  refine .step (hg.assignment c s2 h2.normal) ?_
  rintro argument s3 ⟨h3, hd⟩
  refine .node fun span => ⟨(h2.append h3).node rfl span, ?_⟩
  rw [hgen] at hd ⊢
  exact .yieldExpression hd

/-- What stands on the left of an assignment, once it was read again. -/
theorem ensures_assignmentTarget {c : Context} {s0 s : State} {left : Node} (hm : Made s0 s [left])
    (hl : Derives c.inGenerator .expression left) (operator : AssignmentOperator) :
    Ensures (Grammar.assignmentTarget operator left) c s fun t s' => s' = s ∧ Made s0 s [t] ∧
      ∀ id span right, Derives c.inGenerator .expression right →
        Derives c.inGenerator .expression (.mk id span (.assignmentExpression operator t right)) := by
  refine .ite (fun hop => ?_) fun hop => .ite (fun hs => ?_) fun _ => .fail
  · subst hop
    split
    · rename_i target htarget
      obtain ⟨hd, hids⟩ := (settles left).expression hl htarget
      exact .pure ⟨rfl, ⟨hm.normal, hids ▸ hm.within⟩, fun _ _ _ => .assignment hd⟩
    · exact .fail
  · exact .pure ⟨rfl, hm, fun _ _ _ => .compoundAssignment hop hl hs⟩

theorem sound_assignmentRule (hg : g.Sound) : Sound .expression g.assignmentRule := by
  intro c s hs
  refine .bind (.here (.bind (.seesWord (.bind (.read (.ite (fun hyield => ?_) fun _ => ?_))))))
  · rw [Bool.and_eq_true] at hyield
    exact ensures_yieldExpression hg hs hyield.2
  refine .bind (.startsAsyncArrow fun _ => .ite (fun _ => ?_) fun _ => ?_)
  · refine .bind (.advance (.step (sound_bindingName _ _ s.normal_next) ?_))
    rintro param s1 ⟨hm, hd⟩
    refine ensures_arrowBody hg ((Made.start hs).next.append hm) _ true ?_ nofun
    intro p hp
    rw [List.mem_singleton.mp hp]
    exact .elementTarget (.targetName hd)
  refine .step (P := fun _ s' => s' = s) (.atBindingName (fun _ => rfl) rfl) ?_
  rintro b s1 rfl
  refine .bind (.peek (.ite (fun _ => ?_) fun _ => ?_))
  · refine .step (sound_bindingName _ _ hs) ?_
    rintro param s2 ⟨hm, hd⟩
    refine ensures_arrowBody hg hm _ false ?_ fun _ => ?_
    · intro p hp
      rw [List.mem_singleton.mp hp]
      exact .arrowTarget (.targetName hd)
    · intro p hp
      cases hp
  refine .step (sound_conditional hg c s1 hs) fun left s2 h => ?_
  refine .bind (.sees (.ite (fun _ => ensures_arrowBehind hg h _) fun hno => ?_))
  have hl := h.expression fun hk => hno (decide_eq_true hk)
  refine .bind (.current ?_)
  split
  · exact .pure ⟨h.made, hl⟩
  · rename_i operator _
    refine .step (ensures_assignmentTarget h.made hl operator) ?_
    rintro target s3 ⟨rfl, hm, hd⟩
    refine .bind (.advance (.step (hg.assignment _ _ s3.normal_next) ?_))
    rintro right s4 ⟨hr, hdr⟩
    exact .node fun span => ⟨(hm.next.append hr).node rfl span, hd _ _ _ hdr⟩

end

end EsModule.Syntax
