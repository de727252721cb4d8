import EsModule.Proofs.Layout.Laid
import EsModule.Proofs.Grammar.Function

/-!
# Where rules lay their nodes: targets, functions and classes

Each rule lays what it reads (`Lays`) if the rules that it calls do. A rule that makes a node from a
place in front of its own start is told of that place by the state there. What may be missing, such
as a name or a value, is laid behind the trees in front of it.
-/

namespace EsModule.Syntax

open EsModule.Text

/-- A rule whose tree lies between the states in front of it and behind it. -/
def Lays (source : List Char) (p : Parser Node) : Prop :=
  ∀ c s, s.Ready source → Ensures p c s fun n s' => Laid source s s' [n]

/-- A rule whose tree covers all between the states in front of it and behind it. -/
def Spans (source : List Char) (p : Parser Node) : Prop :=
  ∀ c s, s.Ready source → Ensures p c s (Spanned source s)

theorem Spans.lays {source : List Char} {p : Parser Node} (h : Spans source p) : Lays source p :=
  fun c s hs => (h c s hs).mono fun _ _ => And.left

/-- An operand that was read between two states, and its items. -/
structure Operand.Laid (source : List Char) (s s' : State) (o : Operand) : Prop where
  /-- The operand lies in between. -/
  node : Syntax.Laid source s s' [o.node]
  /-- So do the items. -/
  items : ∀ items, o.items = some items → Syntax.Laid source s s' items

/-- A rule whose operand lies between the states in front of it and behind it. -/
def LaysOperand (source : List Char) (p : Parser Operand) : Prop :=
  ∀ c s, s.Ready source → Ensures p c s fun o s' => o.Laid source s s'

/-- The rules that are called again lay their trees. -/
structure Grammar.Lays (source : List Char) (g : Grammar) : Prop where
  statement : Spans source g.statement
  assignment : Syntax.Lays source g.assignment
  binary : ∀ least, LaysOperand source (g.binary least)
  unary : LaysOperand source g.unary
  leftHandSide : LaysOperand source g.leftHandSide
  newExpression : Syntax.Lays source g.newExpression
  bindingTarget : Syntax.Lays source g.bindingTarget

section

variable {source : List Char} {g : Grammar} {c : Context} {s s' : State}

/-! ## Names and keys -/

theorem lays_bindingName : Lays source Parser.bindingName := by
  intro c s hs
  refine .bind (.here (.bind (.current ?_)))
  split
  · rename_i name hk
    exact .bind (.pure (.bind (.advance (hs.makesName (by rw [hk]; rfl)))))
  · rename_i hk
    exact .bind (.pure (.bind (.advance (hs.makesName (by rw [hk]; rfl)))))
  · exact .bind (.read (.ite (fun _ => .bind .unexpected) fun _ => .bind .fail))
  · exact .bind .unexpected

theorem lays_expression (hg : g.Lays source) : Lays source g.expression := by
  intro c s hs
  refine .bind (.here (.step (hg.assignment c s hs) ?_))
  intro first s1 hm
  refine .bind (.sees (.ite (fun _ => ?_) fun _ => .pure hm))
  refine .step (P := fun es s' => Laid source s s' es) ?_ ?_
  · refine .loop (fun es s' => Laid source s s' es) hm ?_
    intro es s2 hes
    refine .bind (.eat (fun _ => .ite (fun _ => ?_) (absurd rfl)) fun _ => .ite nofun fun _ => .pure hes)
    refine .step (hg.assignment c s2.next hes.placed.next) ?_
    intro e s3 he
    exact .pure (hes.next.append he)
  · intro es s2 hes
    exact hes.makes rfl rfl

theorem literalKey?_leaf {k : TokenKind} {text : String} {kind : Kind Node}
    (h : Grammar.literalKey? k text = some kind) : kind.children = [] ∧ kind.isPlain = true := by
  unfold Grammar.literalKey? at h
  split at h
  · exact Option.some.inj h ▸ ⟨rfl, rfl⟩
  · exact Option.some.inj h ▸ ⟨rfl, rfl⟩
  · exact Option.some.inj h ▸ ⟨rfl, rfl⟩
  · cases h

/-- A key lies where it was read; what can be written alone is a name that starts there. -/
theorem lays_propertyKey (hg : g.Lays source) (hs : s.Ready source) :
    Ensures g.propertyKey c s fun r s' => Laid source s s' [r.1] ∧ (r.2 = false →
      ((∃ name, s.current.kind = .identifier name) ∨ s.current.kind = .keyword .kwAsync) →
      ∃ id span name, r.1 = .mk id span (.identifier name) ∧
        span.start = s.current.span.start) := by
  have hnext := (Begun.refl hs).next
  refine .bind (.here (.bind (.eat (fun _ => .ite (fun _ => ?_) (absurd rfl)) fun _ =>
    .ite nofun fun _ => ?_)))
  · refine .step (.withIn (hg.assignment _ _ hs.next)) ?_
    intro key s1 hm
    exact .bind (.expect fun _ => .pure ⟨(hnext.append hm).next, nofun⟩)
  · refine .bind (.current (.bind (.currentText ?_)))
    split
    · rename_i literal hk
      obtain ⟨hc, hp⟩ := literalKey?_leaf hk
      refine .bind (.pure (.bind (.advance (.step (hnext.makes hc hp) ?_))))
      intro key s1 hm
      refine .pure ⟨hm, ?_⟩
      intro _ hname
      cases hname with
      | inl hname =>
        obtain ⟨name, hname⟩ := hname
        rw [hname] at hk
        cases hk
      | inr hname =>
        rw [hname] at hk
        cases hk
    · rename_i name _ hk
      refine .bind (.pure (.bind (.advance (.step (hnext.makes rfl rfl) ?_))))
      intro key s1 hm
      refine .pure ⟨hm, ?_⟩
      intro _ hname
      cases hname with
      | inl hname =>
        obtain ⟨name, hname⟩ := hname
        rw [hname] at hk
        cases hk
      | inr hname =>
        rw [hname] at hk
        cases hk
    · rename_i name _ hk _
      refine .bind (.pure (.bind (.advance (.bind (.nodeOf (.pure ⟨?_, ?_⟩))))))
      · rw [hnext.nodeSpan]
        exact hs.name hk
      · exact fun _ _ => ⟨_, _, _, rfl, rfl⟩
    · exact .bind .unexpected

/-- The value of a property that is written as a name alone, beside its key. -/
theorem lays_shorthandValue (hg : g.Lays source) {id : Nat} {span : Span} {name : String}
    (hk : Laid source s s' [.mk id span (.identifier name)])
    (hstart : span.start = s.current.span.start) :
    Ensures (g.shorthandValue (.mk id span (.identifier name))) c s' fun value s'' =>
      Laid source s s'' [.mk id span (.identifier name)] ∧ Laid source s s'' [value] := by
  refine .ite (fun _ => .bind .fail) fun _ => .bind (.nodeAt (.bind (.eat (fun _ => ?_) fun _ => ?_)))
  · refine .ite (fun _ => ?_) (absurd rfl)
    refine .step (hg.assignment _ _ hk.twin.placed.next) ?_
    intro right s1 hr
    have hvalue := hk.twin.next.append hr
    have hkey := (hk.counted.next.append hr).sublist (List.sublist_append_left _ _)
    show Ensures (Parser.node _ span.start) _ _ _
    rw [hstart]
    refine .nodeOf ⟨hkey.counted, ?_⟩
    rw [hvalue.nodeSpan]
    exact hvalue.node rfl rfl
  · exact .ite nofun fun _ => .pure ⟨hk.counted, hk.twin⟩

/-! ## Targets -/

theorem lays_bindingElement (hg : g.Lays source) : Lays source g.bindingElement := by
  intro c s hs
  refine .bind (.here (.step (hg.bindingTarget c s hs) ?_))
  intro left s1 hl
  refine .bind (.eat (fun _ => .ite (fun _ => ?_) (absurd rfl)) fun _ => .ite nofun fun _ => .pure hl)
  refine .step (.withIn (hg.assignment _ _ hl.placed.next)) ?_
  intro right s2 hr
  exact (hl.next.append hr).makes rfl rfl

/-- A rest starts at its dots. -/
theorem lays_restElement {target : Parser Node} (ht : Lays source target) (hs : s.Ready source) :
    Ensures (Grammar.restElement s.current.span.start target) c s.next
      fun n s' => Laid source s s' [n] := by
  refine .step (ht c s.next hs.next) ?_
  intro argument s1 ha
  exact ((Begun.refl hs).next.append ha).makes rfl rfl

theorem lays_arrayPattern (hg : g.Lays source) : Lays source g.arrayPattern := by
  intro c s hs
  refine .bind (.here (.bind (.advance ?_)))
  refine .step (P := fun es s' => Laid source s s' (es.filterMap id)) ?_ ?_
  · refine .listUntil _ (Begun.refl hs).next (fun _ _ h => h) ?_
    intro es s1 hes
    refine .bind (.eat (fun _ => .ite (fun _ => .pure ?_) (absurd rfl)) fun _ =>
      .ite nofun fun _ => .bind (.here ?_))
    · exact hes.next.of_eq (by simp)
    refine .bind (.eat (fun _ => .ite (fun _ => ?_) (absurd rfl)) fun _ => .ite nofun fun _ => ?_)
    · refine .step (lays_restElement hg.bindingTarget hes.placed) ?_
      intro n s2 hn
      exact .pure ((hes.append hn).of_eq (by simp))
    · refine .step (lays_bindingElement hg c s1 hes.placed) ?_
      intro n s2 hn
      have hmore : Laid source s s2 ((es ++ [some n]).filterMap id) :=
        (hes.append hn).of_eq (by simp)
      exact .bind (.commaUnless (.pure hmore.next) (.pure hmore))
  · intro es s1 hes
    exact .bind (.expect fun _ => hes.next.makes rfl rfl)

theorem lays_patternProperty (hg : g.Lays source) (hs : s.Ready source) :
    Ensures (g.patternProperty s.current.span.start) c s fun n s' => Laid source s s' [n] := by
  refine .step (P := fun short s' => s' = s ∧ (short = true →
    (∃ name, s.current.kind = .identifier name) ∨ s.current.kind = .keyword .kwAsync))
    (.atBindingName (fun h => ⟨rfl, fun _ => h⟩) ⟨rfl, nofun⟩) ?_
  intro short s' h
  obtain ⟨rfl, hshort⟩ := h
  refine .step (lays_propertyKey hg hs) ?_
  intro r s2 h
  obtain ⟨key, computed⟩ := r
  obtain ⟨hkey, hplain⟩ := h
  refine .bind (.eat (fun _ => .ite (fun _ => ?_) (absurd rfl)) fun _ => .ite nofun fun _ =>
    .ite (fun hb => ?_) fun _ => .bind .unexpected)
  · refine .step (lays_bindingElement hg c _ hkey.placed.next) ?_
    intro value s3 hv
    exact .bind (.pure ((hkey.next.append hv).makes rfl rfl))
  · rw [Bool.and_eq_true, Bool.not_eq_true'] at hb
    obtain ⟨id, span, name, rfl, hstart⟩ := hplain hb.2 (hshort hb.1)
    refine .step (lays_shorthandValue hg hkey hstart) ?_
    intro value s3 h
    obtain ⟨hk, hv⟩ := h
    exact .bind (.pure (hk.makesShorthand hv _ _ _))

theorem lays_objectPattern (hg : g.Lays source) : Lays source g.objectPattern := by
  intro c s hs
  refine .bind (.here (.bind (.advance ?_)))
  refine .step (P := fun ps s' => Laid source s s' ps) ?_ ?_
  · refine .listUntil _ (Begun.refl hs).next (fun _ _ h => h) ?_
    intro ps s1 hps
    refine .bind (.here (.bind (.eat (fun _ => .ite (fun _ => ?_) (absurd rfl)) fun _ =>
      .ite nofun fun _ => ?_)))
    · refine .step (lays_restElement lays_bindingName hps.placed) ?_
      intro n s2 hn
      exact .pure (hps.append hn)
    · refine .step (lays_patternProperty hg hps.placed) ?_
      intro n s2 hn
      exact .bind (.commaUnless (.pure (hps.append hn).next) (.pure (hps.append hn)))
  · intro ps s1 hps
    exact .bind (.expect fun _ => hps.next.makes rfl rfl)

theorem lays_bindingTargetRule (hg : g.Lays source) : Lays source g.bindingTargetRule := by
  intro c s hs
  refine .bind (.current ?_)
  split
  · exact lays_arrayPattern hg c s hs
  · exact lays_objectPattern hg c s hs
  · exact lays_bindingName c s hs

end

section

variable {source : List Char} {g : Grammar} {c : Context} {s s' : State} {ns : List Node}

/-! ## Blocks and parameters -/

theorem lays_statements (hg : g.Lays source) (ends : TokenKind → Bool)
    (h : Laid source s s' ns) :
    Ensures (Parser.listUntil ends do return ([← g.statement], true)) c s' fun body s'' =>
      Laid source s s'' (ns ++ body) := by
  refine .listUntil _ (h.of_eq (by simp)) (fun _ _ h => h) ?_
  intro body s1 hbody
  refine .step (hg.statement c s1 hbody.placed) ?_
  intro n s2 hn
  exact .pure ((hbody.append hn.1).of_eq (by simp))

theorem lays_blockBody (hg : g.Lays source) (hs : s.Ready source) :
    Ensures g.blockBody c s fun body s' => Laid source s s' body := by
  refine .bind (.expect fun _ => .step (lays_statements hg _ (Begun.refl hs).next) ?_)
  intro body s1 hbody
  exact .bind (.expect fun _ => .pure hbody.next)

theorem spans_block (hg : g.Lays source) : Spans source g.block := by
  intro c s hs
  refine .bind (.here (.step (lays_blockBody hg hs) ?_))
  intro body s1 hbody
  exact hbody.spans rfl rfl

theorem lays_parameters (hg : g.Lays source) (hs : s.Ready source) :
    Ensures g.parameters c s fun ps s' => Laid source s s' ps := by
  refine .bind (.expect fun _ => ?_)
  refine .step (P := fun ps s' => Laid source s s' ps) ?_ ?_
  · refine .listUntil _ (Begun.refl hs).next (fun _ _ h => h) ?_
    intro ps s1 hps
    refine .bind (.here (.bind (.eat (fun _ => .ite (fun _ => ?_) (absurd rfl)) fun _ =>
      .ite nofun fun _ => ?_)))
    · refine .step (lays_restElement hg.bindingTarget hps.placed) ?_
      intro n s2 hn
      exact .pure (hps.append hn)
    · refine .step (lays_bindingElement hg c s1 hps.placed) ?_
      intro n s2 hn
      exact .bind (.eat (fun _ => .pure (hps.append hn).next) fun _ => .pure (hps.append hn))
  · intro ps s1 hps
    exact .bind (.expect fun _ => .pure hps.next)

/-! ## Functions -/

theorem lays_functionRest (hg : g.Lays source) (hs : s.Ready source) (isGenerator : Bool) :
    Ensures (g.functionRest isGenerator) c s fun r s' => Laid source s s' (r.1 ++ [r.2]) := by
  refine .inFunction (.step (lays_parameters hg hs) ?_)
  intro params s1 hparams
  refine .step ((spans_block hg).lays _ s1 hparams.placed) ?_
  intro body s2 hbody
  exact .pure (hparams.append hbody)

theorem lays_optionalName (h : Laid source s s' ns) (missing : Option SyntaxFault) :
    Ensures (Grammar.optionalName missing) c s' fun o s'' =>
      Laid source s s'' (ns ++ o.toList) := by
  refine .step (P := fun _ s'' => s'' = s') (.atBindingName (fun _ => rfl) rfl) ?_
  intro b s1 hs1
  subst hs1
  refine .ite (fun _ => ?_) fun _ => ?_
  · refine .step (lays_bindingName c s1 h.placed) ?_
    intro n s2 hn
    exact .pure (h.append hn)
  · cases missing with
    | none => exact .pure (h.of_eq (by simp))
    | some fault => exact .fail

theorem lays_function (hg : g.Lays source) (hb : Begun source s s') (isAsync : Bool)
    (missing : Option SyntaxFault) :
    Ensures (g.function isAsync missing) c s' fun f s'' => Laid source s s'' f.children := by
  refine .bind (.expectWord fun _ => ?_)
  refine .step (P := fun _ s'' => Laid source s s'' [])
    (.eat (fun _ => hb.next.next) fun _ => hb.next) ?_
  intro isGenerator s1 h1
  refine .step (lays_optionalName h1 missing) ?_
  intro name s2 h2
  refine .step (lays_functionRest hg h2.placed isGenerator) ?_
  intro rest s3 h3
  exact .pure ((h2.append h3).of_eq (by simp [Function.children]))

/-- A function starts at its first word, which may have been moved over. -/
theorem spans_functionDeclaration (hg : g.Lays source) (hb : Begun source s s') (isAsync : Bool)
    (missing : Option SyntaxFault)
    (hstart : (if isAsync then s'.previous.start else s'.current.span.start) =
      s.current.span.start) :
    Ensures (g.functionDeclaration isAsync missing) c s' (Spanned source s) := by
  have hrest : ∀ start, start = s.current.span.start →
      Ensures (g.function isAsync missing >>= fun f =>
        Parser.node (.functionDeclaration f) start) c s' (Spanned source s) := by
    intro start hs
    subst hs
    refine .step (lays_function hg hb isAsync missing) ?_
    intro f s1 hf
    exact hf.spans rfl rfl
  cases isAsync with
  | true => exact .bind (.get (.bind (.pure (hrest _ hstart))))
  | false => exact .bind (.here (hrest _ hstart))

theorem lays_method (hg : g.Lays source) (isAsync isGenerator : Bool) :
    Lays source (g.method isAsync isGenerator) := by
  intro c s hs
  refine .bind (.here (.step (lays_functionRest hg hs isGenerator) ?_))
  intro rest s1 hrest
  exact hrest.makes rfl rfl

/-! ## Classes -/

theorem begun_modifiers (h : Begun source s s') :
    Ensures Grammar.modifiers c s' fun _ s'' => Begun source s s'' := by
  refine .step (P := fun _ s'' => Begun source s s'') ?_ ?_
  · refine .eatIf ?_ h.next.toBegun h
    exact .bind (.seesWord (.bind (.modifierIsName fun _ => .bind (.peek (.pure rfl)))))
  intro isAsync s1 h1
  refine .step (P := fun _ s'' => Begun source s s'')
    (.eat (fun _ => h1.next.toBegun) fun _ => h1) ?_
  intro isGenerator s2 h2
  refine .bind (.modifierIsName fun named => .ite (fun _ => .pure h2) fun _ => ?_)
  refine .bind (.eatName (fun _ => .ite (fun _ => .pure h2.next.toBegun) (absurd rfl))
    fun _ => .ite nofun fun _ => ?_)
  exact .bind (.eatName (fun _ => .ite (fun _ => .pure h2.next.toBegun) (absurd rfl))
    fun _ => .ite nofun fun _ => .pure h2)

theorem lays_classMember (hg : g.Lays source) : Lays source g.classMember := by
  intro c s hs
  refine .bind (.here (.step (P := fun _ s' => Begun source s s') ?_ ?_))
  · refine .eatIf ?_ (Begun.refl hs).next.toBegun (.refl hs)
    exact .bind (.seesWord (.bind (.modifierIsName fun _ => .pure rfl)))
  intro isStatic s1 h1
  refine .bind (.sees (.ite (fun _ => ?_) fun _ => ?_))
  · refine .step (.inFunction (lays_blockBody hg h1.placed)) ?_
    intro body s2 hbody
    exact (h1.laid hbody).makes rfl rfl
  refine .step (begun_modifiers h1) ?_
  intro modifiers s2 h2
  refine .step (lays_propertyKey hg h2.placed) ?_
  intro r s3 hr
  obtain ⟨key, computed⟩ := r
  have hkey := h2.laid hr.1
  refine .bind (.sees (.ite (fun _ => ?_) fun _ => ?_))
  · refine .step (lays_method hg _ _ c s3 hkey.placed) ?_
    intro value s4 hv
    exact (hkey.append hv).makes rfl rfl
  · have hrest : ∀ (value : Option Node) s4, Laid source s s4 ([key] ++ value.toList) →
        Ensures (Parser.semicolon >>= fun _ =>
          Parser.node (.propertyDefinition key value computed isStatic) s.current.span.start) c s4
          fun n s' => Laid source s s' [n] := fun value s4 h4 =>
      .bind (.semicolon (h4.next.makes rfl rfl) (h4.makes rfl rfl))
    refine .bind (.eat (fun _ => .ite (fun _ => ?_) (absurd rfl)) fun _ => .ite nofun fun _ => ?_)
    · refine .step (.inFunction (hg.assignment _ _ hkey.placed.next)) ?_
      intro v s4 hv
      exact .bind (.pure (hrest (some v) s4 (hkey.next.append hv)))
    · exact .bind (.pure (hrest none s3 hkey))

theorem lays_classBody (hg : g.Lays source) : Lays source g.classBody := by
  intro c s hs
  refine .bind (.here (.bind (.expect fun _ => ?_)))
  refine .step (P := fun ms s' => Laid source s s' ms) ?_ ?_
  · refine .listUntil _ (Begun.refl hs).next (fun _ _ h => h) ?_
    intro ms s1 hms
    refine .bind (.eat (fun _ => .ite (fun _ => .pure ?_) (absurd rfl)) fun _ =>
      .ite nofun fun _ => ?_)
    · exact hms.next.of_eq (by simp)
    · refine .step (lays_classMember hg c s1 hms.placed) ?_
      intro m s2 hm
      exact .pure (hms.append hm)
  · intro ms s1 hms
    exact .bind (.expect fun _ => hms.next.makes rfl rfl)

theorem spans_classRule (hg : g.Lays source) {kind : Class Node → Kind Node}
    (hkind : ∀ d, (kind d).children = d.children) (hplain : ∀ d, (kind d).isPlain = true)
    (missing : Option SyntaxFault) : Spans source (g.classRule kind missing) := by
  intro c s hs
  refine .bind (.here (.bind (.expectWord fun _ => ?_)))
  refine .step (lays_optionalName (Begun.refl hs).next missing) ?_
  intro name s2 hname
  have hrest : ∀ (parent : Option Node) s3,
      Laid source s s3 (name.toList ++ parent.toList) →
      Ensures (g.classBody >>= fun body =>
        Parser.node (kind ⟨name, parent, body⟩) s.current.span.start) c s3
        (Spanned source s) := by
    intro parent s3 h3
    refine .step (lays_classBody hg c s3 h3.placed) ?_
    intro body s4 hbody
    exact (h3.append hbody).spans (hkind _) (hplain _)
  refine .bind (.eatWord (fun _ => .ite (fun _ => ?_) (absurd rfl)) fun _ =>
    .ite (absurd · Bool.false_ne_true) fun _ => ?_)
  · refine .step (hg.leftHandSide _ _ hname.placed.next) ?_
    intro parent s3 h3
    exact .bind (.pure (hrest _ s3 (hname.next.append h3.node)))
  · exact .bind (.pure (hrest none s2 (hname.of_eq (by simp))))

end

end EsModule.Syntax
