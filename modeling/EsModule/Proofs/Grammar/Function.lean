import EsModule.Proofs.Grammar.Target
import EsModule.Syntax.Grammar.Function

/-!
# What rules read: functions and classes

The body of a function decides anew whether `yield` is an operator, so its parts are trees for the
flag of the function and not for that of the place where the function stands. A method that gets or
sets a value is never `async` and never a generator.
-/

namespace EsModule.Syntax

open EsModule.Text

section

variable {g : Grammar}

/-! ## Blocks and parameters -/

theorem ensures_blockBody (hg : g.Sound) {c : Context} {s : State} (hs : s.Normal) :
    Ensures g.blockBody c s fun body s' => Made s s' body ∧
      ∀ n ∈ body, Derives c.inGenerator .statement n := by
  refine .bind (.expect fun _ => ?_)
  refine .step (P := fun body s' => Made s s' body ∧
    ∀ n ∈ body, Derives c.inGenerator .statement n) ?_ ?_
  · refine .listUntil _ ⟨(Made.start hs).next, nofun⟩ (fun _ _ h => h) ?_
    rintro body s1 ⟨hm, hd⟩
    refine .step (hg.statement c s1 hm.normal) ?_
    rintro n s2 ⟨hn, hdn⟩
    exact .pure ⟨hm.append hn, forall_mem_concat hd hdn⟩
  · rintro body s1 ⟨hm, hd⟩
    exact .bind (.expect fun _ => .pure ⟨hm.next, hd⟩)

theorem sound_block (hg : g.Sound) : Sound .block g.block := by
  intro c s hs
  refine .bind (.here (.step (ensures_blockBody hg hs) ?_))
  rintro body s1 ⟨hm, hd⟩
  exact .node fun span => ⟨hm.node rfl span, .block fun n hn _ => hd n hn⟩

theorem ensures_parameters (hg : g.Sound) {c : Context} {s : State} (hs : s.Normal) :
    Ensures g.parameters c s fun ps s' => Made s s' ps ∧
      (∀ p ∈ ps, Derives c.inGenerator .parameter p) ∧ RestLast ps := by
  refine .bind (.expect fun _ => ?_)
  refine .step (P := fun ps s' => Made s s' ps ∧
    (∀ p ∈ ps, Derives c.inGenerator .parameter p) ∧ RestLast ps) ?_ ?_
  · have hend : ∀ ps s', (Made s s' ps ∧ ∀ p ∈ ps, Derives c.inGenerator .boundElement p) →
        Made s s' ps ∧ (∀ p ∈ ps, Derives c.inGenerator .parameter p) ∧ RestLast ps := by
      rintro ps s1 ⟨hm, hd⟩
      exact ⟨hm, fun p hp => .parameter (hd p hp),
        .of_forall fun p hp => (hd p hp).isRest_of_boundElement⟩
    refine .listUntil (fun ps s' => Made s s' ps ∧
      ∀ p ∈ ps, Derives c.inGenerator .boundElement p) ⟨(Made.start hs).next, nofun⟩ hend ?_
    rintro ps s1 ⟨hm, hd⟩
    refine .bind (.here (.bind (.eat (fun _ => .ite (fun _ => ?_) (absurd rfl)) fun _ =>
      .ite nofun fun _ => ?_)))
    · refine .step (ensures_restElement hg.bindingTarget s1.normal_next _) ?_
      rintro n s2 ⟨hn, id, span, argument, rfl, ha⟩
      refine .pure ⟨hm.next.append hn, ?_, ?_⟩
      · exact forall_mem_concat (fun p hp => .parameter (hd p hp)) (.restParameter ha)
      · exact .concat (fun p hp => (hd p hp).isRest_of_boundElement) _
    · refine .step (sound_bindingElement hg c s1 hm.normal) ?_
      rintro n s2 ⟨hn, hdn⟩
      refine .bind (.eat (fun _ => .pure ?_) fun _ => .pure ?_)
      · exact ⟨(hm.append hn).next, forall_mem_concat hd hdn⟩
      · exact hend _ _ ⟨hm.append hn, forall_mem_concat hd hdn⟩
  · rintro ps s1 ⟨hm, hd, hr⟩
    exact .bind (.expect fun _ => .pure ⟨hm.next, hd, hr⟩)

/-! ## Functions -/

/-- What is known of the parameters and the body of a function. -/
structure FunctionParts (isGenerator : Bool) (params : List Node) (body : Node) : Prop where
  /-- Every parameter is one. -/
  isParameter : ∀ p ∈ params, Derives isGenerator .parameter p
  /-- Only the last one takes what is left over. -/
  restLast : RestLast params
  /-- The body is a block. -/
  isBlock : Derives isGenerator .block body

theorem ensures_functionRest (hg : g.Sound) {c : Context} {s : State} (hs : s.Normal)
    (isGenerator : Bool) :
    Ensures (g.functionRest isGenerator) c s fun r s' => Made s s' (r.1 ++ [r.2]) ∧
      FunctionParts isGenerator r.1 r.2 := by
  refine .inFunction (.step (ensures_parameters hg hs) ?_)
  rintro params s1 ⟨hm, hp, hr⟩
  refine .step (sound_block hg _ s1 hm.normal) ?_
  rintro body s2 ⟨hb, hd⟩
  exact .pure ⟨hm.append hb, hp, hr, hd⟩

theorem ensures_optionalName {c : Context} {s : State} (hs : s.Normal)
    (missing : Option SyntaxFault) :
    Ensures (Grammar.optionalName missing) c s fun o s' => Made s s' o.toList ∧
      (∀ n, o = some n → Derives c.inGenerator .name n) ∧
      (missing.isSome = true → o.isSome = true) := by
  refine .step (P := fun _ s' => s' = s) (.atBindingName (fun _ => rfl) rfl) ?_
  rintro b s1 rfl
  refine .ite (fun _ => ?_) fun _ => ?_
  · refine .step (sound_bindingName c s1 hs) ?_
    rintro n s2 ⟨hm, hd⟩
    refine .pure ⟨hm, ?_, fun _ => rfl⟩
    rintro n ⟨⟩
    exact hd
  · cases missing with
    | none => exact .pure ⟨.start hs, nofun, nofun⟩
    | some fault => exact .fail

/-- What is known of a function. -/
structure FunctionFits (y : Bool) (f : Function Node) : Prop
    extends FunctionParts f.isGenerator f.params f.body where
  /-- The name can be bound. -/
  isName : ∀ n, f.name = some n → Derives y .name n

theorem ensures_function (hg : g.Sound) {c : Context} {s : State} (hs : s.Normal)
    (isAsync : Bool) (missing : Option SyntaxFault) :
    Ensures (g.function isAsync missing) c s fun f s' => Made s s' f.children ∧
      FunctionFits c.inGenerator f ∧ (missing.isSome = true → f.name.isSome = true) := by
  refine .bind (.expectWord fun _ => ?_)
  refine .step (P := fun _ s' => Made s s' [])
    (.eat (fun _ => (Made.start hs).next.next) fun _ => (Made.start hs).next) ?_
  rintro isGenerator s1 h1
  refine .step (ensures_optionalName h1.normal missing) ?_
  rintro name s2 ⟨h2, hname, hsome⟩
  refine .step (ensures_functionRest hg h2.normal isGenerator) ?_
  rintro ⟨params, body⟩ s3 ⟨h3, hf⟩
  refine .pure ⟨?_, ⟨hf, hname⟩, hsome⟩
  exact (h1.append h2).append_of_eq h3 (by simp [Function.children])

theorem ensures_functionDeclaration (hg : g.Sound) {c : Context} {s : State} (hs : s.Normal)
    (isAsync : Bool) (missing : Option SyntaxFault) (named : Bool)
    (hnamed : named = true → missing.isSome = true) :
    Ensures (g.functionDeclaration isAsync missing) c s fun n s' => Made s s' [n] ∧
      Derives c.inGenerator (.declaration named) n := by
  have hrest : ∀ start, Ensures (g.function isAsync missing >>= fun f =>
      Parser.node (.functionDeclaration f) start) c s fun n s' =>
        Made s s' [n] ∧ Derives c.inGenerator (.declaration named) n := by
    intro start
    refine .step (ensures_function hg hs isAsync missing) ?_
    rintro f s1 ⟨hm, hf, hsome⟩
    exact .node fun span => ⟨hm.node rfl span, .functionDeclaration (fun h => hsome (hnamed h))
      hf.isName hf.isParameter hf.restLast hf.isBlock⟩
  exact .ite (fun _ => .bind (.get (.bind (.pure (hrest _))))) fun _ => .bind (.here (hrest _))

theorem ensures_method (hg : g.Sound) {c : Context} {s : State} (hs : s.Normal)
    (isAsync isGenerator plain : Bool)
    (hplain : plain = false → isAsync = false ∧ isGenerator = false) :
    Ensures (g.method isAsync isGenerator) c s fun n s' => Made s s' [n] ∧
      Derives c.inGenerator (.method plain) n := by
  refine .bind (.here (.step (ensures_functionRest hg hs isGenerator) ?_))
  rintro ⟨params, body⟩ s1 ⟨hm, hf⟩
  exact .node fun span => ⟨hm.node (by simp [Kind.children, Function.children]) span,
    .method rfl hplain hf.isParameter hf.restLast hf.isBlock⟩

/-! ## Classes -/

theorem Ensures.modifierIsName {c : Context} {s : State} {Q : Bool → State → Prop}
    (h : ∀ b, Q b s) : Ensures Grammar.modifierIsName c s Q := by
  refine .bind (.peek ?_)
  split
  all_goals exact .pure (h _)

/-- What gets or sets a value has no other modifiers. -/
theorem ensures_modifiers {c : Context} {s : State} (hs : s.Normal) :
    Ensures Grammar.modifiers c s fun m s' => Made s s' [] ∧
      (m.accessor ≠ .plain → m.isAsync = false ∧ m.isGenerator = false) := by
  refine .step (P := fun _ s' => Made s s' []) ?_ ?_
  · refine .eatIf ?_ (Made.start hs).next (.start hs)
    exact .bind (.seesWord (.bind (.modifierIsName fun _ => .bind (.peek (.pure rfl)))))
  rintro isAsync s1 h1
  refine .step (P := fun _ s' => Made s s' []) (.eat (fun _ => h1.next) fun _ => h1) ?_
  rintro isGenerator s2 h2
  refine .bind (.modifierIsName fun named => .ite (fun _ => .pure ⟨h2, absurd rfl⟩) fun hnone => ?_)
  have hplain : isAsync = false ∧ isGenerator = false := by
    simp only [Bool.or_eq_true, not_or, Bool.not_eq_true] at hnone
    exact hnone.1
  refine .bind (.eatName (fun _ => .ite (fun _ => .pure ⟨h2.next, fun _ => hplain⟩) (absurd rfl))
    fun _ => .ite nofun fun _ => ?_)
  refine .bind (.eatName (fun _ => .ite (fun _ => .pure ⟨h2.next, fun _ => hplain⟩) (absurd rfl))
    fun _ => .ite nofun fun _ => ?_)
  exact .pure ⟨h2, absurd rfl⟩

theorem sound_classMember (hg : g.Sound) : Sound .classMember g.classMember := by
  intro c s hs
  refine .bind (.here (.step (P := fun _ s' => Made s s' []) ?_ ?_))
  · refine .eatIf ?_ (Made.start hs).next (.start hs)
    exact .bind (.seesWord (.bind (.modifierIsName fun _ => .pure rfl)))
  rintro isStatic s1 h1
  refine .bind (.sees (.ite (fun _ => ?_) fun _ => ?_))
  · refine .step (.inFunction (ensures_blockBody hg h1.normal)) ?_
    rintro body s2 ⟨h2, hd⟩
    exact .node fun span => ⟨(h1.append h2).node rfl span, .staticBlock fun n hn _ => hd n hn⟩
  refine .step (ensures_modifiers h1.normal) ?_
  rintro ⟨isAsync, isGenerator, accessor⟩ s2 ⟨h2, hplain⟩
  refine .step (ensures_propertyKey hg h2.normal) ?_
  rintro ⟨key, computed⟩ s3 ⟨h3, hk, -⟩
  have hm := (h1.append h2).append h3
  refine .bind (.sees (.ite (fun _ => ?_) fun _ => ?_))
  · refine .step (ensures_method hg h3.normal isAsync isGenerator
      (decide (accessor = .plain)) fun h => hplain (of_decide_eq_false h)) ?_
    rintro value s4 ⟨h4, hv⟩
    refine .node fun span => ⟨(hm.append h4).node rfl span, .methodDefinition ?_ hk ?_⟩
    · cases accessor with
      | plain => exact .inr (.inr rfl)
      | getter => exact .inl rfl
      | setter => exact .inr (.inl rfl)
    · cases accessor with
      | plain =>
        have hkind : ∀ kind, kind = Grammar.methodKind .plain key computed isStatic →
            kind ≠ .getter ∧ kind ≠ .setter := by
          rintro kind rfl
          unfold Grammar.methodKind
          dsimp only
          split <;> exact ⟨nofun, nofun⟩
        rwa [decide_eq_true (hkind _ rfl)]
      | getter => exact hv
      | setter => exact hv
  · have hrest : ∀ value s4, Made s3 s4 value.toList →
        (∀ v, value = some v → Derives false .expression v) →
        Ensures (Parser.semicolon >>= fun _ =>
          Parser.node (.propertyDefinition key value computed isStatic) s.current.span.start) c s4
          fun n s' => Made s s' [n] ∧ Derives c.inGenerator .classMember n := by
      intro value s4 h4 hv
      have hm := hm.append h4
      refine .bind (.semicolon (.node fun span => ?_) (.node fun span => ?_))
      · exact ⟨hm.next.node rfl span, .propertyDefinition hk hv⟩
      · exact ⟨hm.node rfl span, .propertyDefinition hk hv⟩
    refine .bind (.eat (fun _ => .ite (fun _ => ?_) (absurd rfl)) fun _ => .ite nofun fun _ => ?_)
    · refine .step (.inFunction (hg.assignment _ _ s3.normal_next)) ?_
      rintro v s4 ⟨h4, hv⟩
      refine .bind (.pure (hrest (some v) s4 ((Made.start h3.normal).next.append h4) ?_))
      rintro v ⟨⟩
      exact hv
    · exact .bind (.pure (hrest none s3 (.start h3.normal) nofun))

/-- The body of a class starts with a brace. -/
theorem ensures_classBody (hg : g.Sound) {c : Context} {s : State} (hs : s.Normal) :
    Ensures g.classBody c s fun n s' => s.current.kind = .punctuator .leftBrace ∧
      Made s s' [n] ∧ Derives c.inGenerator .classBody n := by
  refine .bind (.here (.bind (.expect fun hbrace => ?_)))
  refine .step (P := fun ms s' => Made s s' ms ∧ ∀ m ∈ ms, Derives c.inGenerator .classMember m)
    ?_ ?_
  · refine .listUntil _ ⟨(Made.start hs).next, nofun⟩ (fun _ _ h => h) ?_
    rintro ms s1 ⟨hm, hd⟩
    refine .bind (.eat (fun _ => .ite (fun _ => .pure ?_) (absurd rfl)) fun _ =>
      .ite nofun fun _ => ?_)
    · exact ⟨hm.next.append_of_eq (.start s1.normal_next) (by simp), by simpa using hd⟩
    · refine .step (sound_classMember hg c s1 hm.normal) ?_
      rintro m s2 ⟨hm2, hdm⟩
      exact .pure ⟨hm.append hm2, forall_mem_concat hd hdm⟩
  · rintro ms s1 ⟨hm, hd⟩
    exact .bind (.expect fun _ => .node fun span => 
      ⟨hbrace, hm.next.node rfl span, .classBody hd⟩)

/-- What is known of a class. -/
structure ClassFits (y : Bool) (d : Class Node) : Prop where
  /-- The name can be bound. -/
  isName : ∀ n, d.name = some n → Derives y .name n
  /-- What it extends is an expression. -/
  isParent : ∀ p, d.parent = some p → Derives y .expression p
  /-- Its body is one. -/
  isBody : Derives y .classBody d.body

theorem ensures_classRule (hg : g.Sound) {c : Context} {s : State} (hs : s.Normal)
    {kind : Class Node → Kind Node} (hkind : ∀ d, (kind d).children = d.children)
    (missing : Option SyntaxFault) :
    Ensures (g.classRule kind missing) c s fun n s' => Made s s' [n] ∧
      ∃ id span d, n = .mk id span (kind d) ∧ ClassFits c.inGenerator d ∧
        (missing.isSome = true → d.name.isSome = true) := by
  refine .bind (.here (.bind (.expectWord fun _ => ?_)))
  have h1 := (Made.start hs).next
  refine .step (ensures_optionalName h1.normal missing) ?_
  rintro name s2 ⟨h2, hname, hsome⟩
  have hrest : ∀ parent s3, Made s2 s3 parent.toList → (∀ p, parent = some p →
      s3.current.kind ≠ .punctuator .arrow → Derives c.inGenerator .expression p) →
      Ensures (g.classBody >>= fun body =>
        Parser.node (kind ⟨name, parent, body⟩) s.current.span.start) c s3
        fun n s' => Made s s' [n] ∧ ∃ id span d, n = .mk id span (kind d) ∧
          ClassFits c.inGenerator d ∧ (missing.isSome = true → d.name.isSome = true) := by
    intro parent s3 h3 hp
    -- the body starts with a brace, so no arrow follows what is extended
    refine .step (ensures_classBody hg h3.normal) ?_
    rintro body s4 ⟨hbrace, h4, hb⟩
    refine .node fun span => ⟨?_, _, _, _, rfl, ⟨hname, ?_, hb⟩, hsome⟩
    · exact (((h1.append h2).append h3).append h4).node (by simp [hkind, Class.children]) span
    · intro p hpar
      refine hp p hpar ?_
      rw [hbrace]
      decide
  refine .bind (.eatWord (fun _ => .ite (fun _ => ?_) (absurd rfl)) fun _ =>
    .ite (absurd · Bool.false_ne_true) fun _ => ?_)
  · refine .step (hg.leftHandSide _ _ s2.normal_next) ?_
    intro parent s3 h3
    refine .bind (.pure (hrest _ s3 ((Made.start h2.normal).next.append h3.made) ?_))
    rintro p ⟨⟩
    exact h3.expression
  · exact .bind (.pure (hrest none s2 (.start h2.normal) fun _ h => absurd h (by simp)))

end

end EsModule.Syntax
