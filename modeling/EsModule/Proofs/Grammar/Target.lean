import EsModule.Proofs.Grammar.Ensures
import EsModule.Syntax.Grammar.Target

/-!
# What rules read: targets and keys

`Grammar.Sound` says of the rules that are called again that each reads nodes of its nonterminal.
An operand is no expression yet if an arrow follows it, as the parameters in front of the arrow may
be; such an operand never gets past the arrow. What is kept of its items is `Operand.Items`.

Every rule below is proved to read its nonterminal if the rules that it calls do.
-/

namespace EsModule.Syntax

open EsModule.Text

/-- What is known of an item of a list in parentheses: it is an expression, or a rest that only
parameters may have. -/
def IsItem (y : Bool) (n : Node) : Prop :=
  Derives y .expression n ∨ ∃ id span argument,
    n = .mk id span (.restElement argument) ∧ Derives y .bound argument

/-- Where the items of an operand come from. -/
inductive Operand.Items (y : Bool) (n : Node) : List Node → Prop where
  /-- They are the arguments of a call. -/
  | call {callee : Node} {arguments : List Node}
      (hk : n.kind = .callExpression callee arguments false)
      (ha : ∀ a ∈ arguments, Derives y .argument a) : Operand.Items y n arguments
  /-- They are what stands between parentheses. -/
  | list {items : List Node} (hi : ∀ i ∈ items, IsItem y i) (hr : RestLast items)
      (hn : items = [n] ∨ n.kind = .sequenceExpression items) : Operand.Items y n items

/-- What is known of an operand that was read between two states. -/
structure Operand.Read (y : Bool) (s s' : State) (o : Operand) : Prop where
  /-- Its nodes are new. -/
  made : Made s s' [o.node]
  /-- Its items can become parameters. -/
  items : ∀ items, o.items = some items → Operand.Items y o.node items
  /-- It is an expression unless an arrow follows. -/
  expression : s'.current.kind ≠ .punctuator .arrow → Derives y .expression o.node

/-- A rule that reads operands. -/
def SoundOperand (p : Parser Operand) : Prop :=
  ∀ c s, s.Normal → Ensures p c s fun o s' => o.Read c.inGenerator s s'

/-- The rules that are called again read what they should. -/
structure Grammar.Sound (g : Grammar) : Prop where
  statement : Syntax.Sound .statement g.statement
  assignment : Syntax.Sound .expression g.assignment
  binary : ∀ least, SoundOperand (g.binary least)
  unary : SoundOperand g.unary
  leftHandSide : SoundOperand g.leftHandSide
  newExpression : ∀ c s, s.Normal → Ensures g.newExpression c s fun n s' =>
    Made s s' [n] ∧ (s'.current.kind ≠ .punctuator .arrow → Derives c.inGenerator .expression n)
  bindingTarget : Syntax.Sound .bound g.bindingTarget

section

variable {g : Grammar}

theorem sound_expression (hg : g.Sound) : Sound .expression g.expression := by
  intro c s hs
  refine .bind (.here (.step (hg.assignment c s hs) ?_))
  rintro first s1 ⟨hm, hf⟩
  refine .bind (.sees (.ite (fun hcomma => ?_) fun _ => .pure ⟨hm, hf⟩))
  refine .step (P := fun es s' => Made s s' es ∧ 2 ≤ es.length ∧
    ∀ e ∈ es, Derives c.inGenerator .expression e) ?_ ?_
  · -- a comma follows the first expression, so the loop goes round at least once
    refine .loop (fun es s' => Made s s' es ∧ (∀ e ∈ es, Derives c.inGenerator .expression e) ∧
      (2 ≤ es.length ∨ s'.current.kind = .punctuator .comma ∧ es.length = 1)) ?_ ?_
    · exact ⟨hm, by simpa using hf, .inr ⟨of_decide_eq_true hcomma, rfl⟩⟩
    · rintro es s2 ⟨hes, hd, hl⟩
      refine .bind (.eat (fun _ => .ite (fun _ => ?_) (absurd rfl)) fun hno => .ite nofun fun _ => ?_)
      · refine .step (hg.assignment c s2.next s2.normal_next) ?_
        rintro e s3 ⟨he, hde⟩
        refine .pure ⟨hes.next.append he, ?_, .inl ?_⟩
        · intro e' he'
          rcases List.mem_append.mp he' with h | h
          · exact hd e' h
          · rw [List.mem_singleton.mp h]
            exact hde
        · rw [List.length_append]
          rcases hl with hl | ⟨-, hl⟩ <;> simp only [List.length_singleton] <;> omega
      · refine .pure ⟨hes, ?_, hd⟩
        rcases hl with hl | ⟨hl, -⟩
        · exact hl
        · exact absurd hl hno
  · rintro es s2 ⟨hes, hl, hd⟩
    exact .node fun span => ⟨hes.node rfl span, .sequenceExpression hl hd⟩

end

/-! ## Keys -/

/-- The source text of the current token. -/
def State.text (s : State) : String :=
  String.ofList ((skipTrivia s.before).2.textTo s.current.span.stop)

theorem Ensures.currentText {c : Context} {s : State} {Q : String → State → Prop}
    (h : Q s.text s) : Ensures Parser.currentText c s Q := .bind (.get (.pure h))

/-- The text of a token is the text between the places in front of and behind it. -/
theorem State.Normal.toList_text {s : State} (h : s.Normal) {w : List Char}
    (hm : (skipTrivia s.before).2.Moves w s.behind) : s.text.toList = w := by
  rw [State.text, String.toList_ofList, h.tokenHere.2, hm.textTo]

theorem State.Normal.literalKey {s : State} (h : s.Normal) {kind : Kind Node}
    (hk : Grammar.literalKey? s.current.kind s.text = some kind) :
    ∃ v : Literal, kind = .literal v ∧ v.Spelled ∧ v.isKey = true := by
  unfold Grammar.literalKey? at hk
  split at hk
  · rename_i value hv
    obtain ⟨w, hm, hw⟩ := tokenHere_string (hv ▸ h.tokenHere.1)
    refine ⟨_, (Option.some.inj hk).symm, ?_, rfl⟩
    show Spells s.text.toList _
    rwa [h.toList_text hm]
  · rename_i value hv
    obtain ⟨w, hm, hw⟩ := tokenHere_number (hv ▸ h.tokenHere.1)
    refine ⟨_, (Option.some.inj hk).symm, ?_, rfl⟩
    show Spells s.text.toList _
    rwa [h.toList_text hm]
  · rename_i digits hv
    exact ⟨_, (Option.some.inj hk).symm, tokenHere_bigInt (hv ▸ h.tokenHere.1), rfl⟩
  · cases hk

section

variable {g : Grammar}

/-- A key that is written as the name alone was read as a name that can be bound. -/
theorem ensures_propertyKey (hg : g.Sound) {c : Context} {s : State} (hs : s.Normal) :
    Ensures g.propertyKey c s fun r s' => Made s s' [r.1] ∧
      Derives c.inGenerator (.key r.2) r.1 ∧
      (r.2 = false → ((∃ name, s.current.kind = .identifier name) ∨
        s.current.kind = .keyword .kwAsync) →
        ∃ id span name, r.1 = .mk id span (.identifier name) ∧ IsPlainName name) := by
  refine .bind (.here (.bind (.eat (fun _ => .ite (fun _ => ?_) (absurd rfl)) fun _ =>
    .ite nofun fun _ => ?_)))
  · refine .step (.withIn (hg.assignment _ _ s.normal_next)) ?_
    rintro key s1 ⟨hm, hk⟩
    refine .bind (.expect fun _ => .pure ⟨?_, .computedKey hk, nofun⟩)
    exact ((Made.start hs).next.append hm).next
  · have hm := (Made.start hs).next
    refine .bind (.current (.bind (.currentText ?_)))
    split
    · rename_i literal hk
      obtain ⟨v, rfl, hv, hkey⟩ := hs.literalKey hk
      refine .bind (.pure (.bind (.advance (.bind (.node fun span => .pure ⟨hm.node rfl span, ?_⟩)))))
      refine ⟨.literalKey hv hkey, ?_⟩
      rintro - (⟨name, hn⟩ | hn)
      all_goals
        rw [hn] at hk
        cases hk
    · rename_i name _ hk
      refine .bind (.pure (.bind (.advance (.bind (.node fun span => .pure ⟨hm.node rfl span, ?_⟩)))))
      refine ⟨.memberKey (.privateMember (hs.isPrivateName hk)), ?_⟩
      rintro - (⟨name, hn⟩ | hn)
      all_goals
        rw [hn] at hk
        cases hk
    · rename_i name _ hk _
      refine .bind (.pure (.bind (.advance (.bind (.node fun span => .pure ⟨hm.node rfl span, ?_⟩)))))
      refine ⟨.memberKey (.namedMember (hs.isAnyName hk)), ?_⟩
      rintro - (⟨own, hn⟩ | hn)
      · rw [hn] at hk
        obtain rfl := Option.some.inj hk
        exact ⟨_, _, _, rfl, .inr (hs.isOwnName hn)⟩
      · rw [hn] at hk
        obtain rfl := Option.some.inj hk
        exact ⟨_, _, _, rfl, .inl rfl⟩
    · exact .bind .unexpected

theorem ensures_shorthandValue (hg : g.Sound) {c : Context} {s : State} (hs : s.Normal)
    (id : Nat) (span : Span) (name : String) :
    Ensures (g.shorthandValue (.mk id span (.identifier name))) c s fun n s' =>
      Made s s' [n] ∧ Derives c.inGenerator (.shorthand name) n := by
  have hm := (Made.start hs).node (k := .identifier name) rfl span
  refine .ite (fun _ => .bind .fail) fun _ => .bind (.nodeAt (.bind (.eat (fun _ => ?_) fun _ => ?_)))
  · refine .ite (fun _ => ?_) (absurd rfl)
    refine .step (hg.assignment _ _ (State.normal_next _)) ?_
    rintro right s1 ⟨hr, hd⟩
    exact .node fun _ => ⟨(hm.next.append hr).node rfl _, .shorthandDefault hd⟩
  · exact .ite nofun fun _ => .pure ⟨hm, .shorthand⟩

end

/-! ## Targets -/

theorem RestLast.concat {ns : List Node} (h : ∀ n ∈ ns, n.isRest = false) (m : Node) :
    RestLast (ns ++ [m]) := by
  intro n hn
  rw [List.dropLast_concat] at hn
  exact h n hn

theorem RestLast.of_forall {ns : List Node} (h : ∀ n ∈ ns, n.isRest = false) : RestLast ns :=
  fun n hn => h n (List.dropLast_subset ns hn)

theorem RestLastHoles.concat {es : List (Option Node)}
    (h : ∀ e ∈ es, ∀ n, e = some n → n.isRest = false) (e : Option Node) :
    RestLastHoles (es ++ [e]) := by
  intro e' he'
  rw [List.dropLast_concat] at he'
  exact h e' he'

theorem RestLastHoles.of_forall {es : List (Option Node)}
    (h : ∀ e ∈ es, ∀ n, e = some n → n.isRest = false) : RestLastHoles es :=
  fun e he => h e (List.dropLast_subset es he)

theorem Derives.isRest_of_bound {y : Bool} {n : Node} (h : Derives y .bound n) :
    n.isRest = false := by
  cases h with
  | boundName h =>
    cases h
    rfl
  | boundArray | boundObject => rfl

theorem Derives.isRest_of_boundElement {y : Bool} {n : Node} (h : Derives y .boundElement n) :
    n.isRest = false := by
  cases h with
  | boundPlain h => exact h.isRest_of_bound
  | boundDefault => rfl

theorem Derives.isRest_of_expression {y : Bool} {n : Node} (h : Derives y .expression n) :
    n.isRest = false := by
  cases h with
  | identifier h | templateLiteral h =>
    cases h
    rfl
  | _ => rfl

/-- What holds of every item of a list and of the item behind it holds of every item of both. -/
theorem forall_mem_concat {α : Type} {P : α → Prop} {as : List α} {a : α} (h : ∀ x ∈ as, P x)
    (ha : P a) : ∀ x ∈ as ++ [a], P x := by
  intro x hx
  rcases List.mem_append.mp hx with hx | hx
  · exact h x hx
  · rw [List.mem_singleton.mp hx]
    exact ha

theorem Ensures.commaUnless {ends : Punctuator} {c : Context} {s : State}
    {Q : Unit → State → Prop} (h1 : Q () s.next) (h0 : Q () s) :
    Ensures (Grammar.commaUnless ends) c s Q :=
  .bind (.sees (.ite (fun _ => .pure h0) fun _ => .expect fun _ => h1))

/-- What a list rule has made, once the items of one more round are added. -/
theorem Made.append_of_eq {s s' s'' : State} {ns ms l : List Node} (h : Made s s' ns)
    (h' : Made s' s'' ms) (hl : l = ns ++ ms) : Made s s'' l := hl ▸ h.append h'

section

variable {g : Grammar}

theorem sound_bindingElement (hg : g.Sound) : Sound .boundElement g.bindingElement := by
  intro c s hs
  refine .bind (.here (.step (hg.bindingTarget c s hs) ?_))
  rintro left s1 ⟨hm, hl⟩
  refine .bind (.eat (fun _ => .ite (fun _ => ?_) (absurd rfl)) fun _ => .ite nofun fun _ => ?_)
  · refine .step (.withIn (hg.assignment _ _ s1.normal_next)) ?_
    rintro right s2 ⟨hr, hd⟩
    exact .node fun span => ⟨(hm.next.append hr).node rfl span, .boundDefault hl hd⟩
  · exact .pure ⟨hm, .boundPlain hl⟩

/-- A rest reads the target that it is given. -/
theorem ensures_restElement {nt : Nonterminal} {target : Parser Node} (ht : Sound nt target)
    {c : Context} {s : State} (hs : s.Normal) (start : Nat) :
    Ensures (Grammar.restElement start target) c s fun n s' => Made s s' [n] ∧
      ∃ id span argument, n = .mk id span (.restElement argument) ∧
        Derives c.inGenerator nt argument := by
  refine .step (ht c s hs) ?_
  rintro argument s1 ⟨hm, hd⟩
  exact .node fun span => ⟨hm.node rfl span, _, _, _, rfl, hd⟩

theorem ensures_arrayPattern (hg : g.Sound) {c : Context} {s : State} (hs : s.Normal) :
    Ensures g.arrayPattern c s fun n s' => Made s s' [n] ∧ Derives c.inGenerator .bound n := by
  refine .bind (.here (.bind (.advance ?_)))
  refine .step (P := fun es s' => Made s s' (es.filterMap id) ∧
    (∀ e ∈ es, ∀ n, e = some n → Derives c.inGenerator .parameter n) ∧ RestLastHoles es) ?_ ?_
  · refine .listUntil (fun es s' => Made s s' (es.filterMap id) ∧
      ∀ e ∈ es, ∀ n, e = some n → Derives c.inGenerator .boundElement n) ?_ ?_ ?_
    · exact ⟨(Made.start hs).next, nofun⟩
    · rintro es s1 ⟨hm, hd⟩
      exact ⟨hm, fun e he n hn => .parameter (hd e he n hn),
        .of_forall fun e he n hn => (hd e he n hn).isRest_of_boundElement⟩
    · rintro es s1 ⟨hm, hd⟩
      refine .bind (.eat (fun _ => .ite (fun _ => .pure ?_) (absurd rfl)) fun _ =>
        .ite nofun fun _ => .bind (.here ?_))
      · exact ⟨by simpa using hm.next, forall_mem_concat hd nofun⟩
      refine .bind (.eat (fun _ => .ite (fun _ => ?_) (absurd rfl)) fun _ => .ite nofun fun _ => ?_)
      · refine .step (ensures_restElement hg.bindingTarget s1.normal_next _) ?_
        rintro n s2 ⟨hn, id, span, argument, rfl, ha⟩
        refine .pure ⟨hm.next.append_of_eq hn (by simp), ?_, ?_⟩
        · refine forall_mem_concat (fun e he n hn => .parameter (hd e he n hn)) ?_
          rintro n ⟨⟩
          exact .restParameter ha
        · exact .concat (fun e he n hn => (hd e he n hn).isRest_of_boundElement) _
      · refine .step (sound_bindingElement hg c s1 hm.normal) ?_
        rintro n s2 ⟨hn, hdn⟩
        refine .bind (.commaUnless (.pure ?_) (.pure ?_))
        · refine ⟨(hm.append_of_eq hn (by simp)).next, forall_mem_concat hd ?_⟩
          rintro n ⟨⟩
          exact hdn
        · refine ⟨hm.append_of_eq hn (by simp), forall_mem_concat hd ?_⟩
          rintro n ⟨⟩
          exact hdn
  · rintro es s1 ⟨hm, hd, hr⟩
    exact .bind (.expect fun _ => .node fun span => ⟨hm.next.node rfl span, .boundArray hd hr⟩)

theorem ensures_patternProperty (hg : g.Sound) {c : Context} {s : State} (hs : s.Normal)
    (start : Nat) :
    Ensures (g.patternProperty start) c s fun n s' => Made s s' [n] ∧
      Derives c.inGenerator .boundMember n ∧ n.isRest = false := by
  refine .step (P := fun short s' => s' = s ∧ (short = true →
    (∃ name, s.current.kind = .identifier name) ∨ s.current.kind = .keyword .kwAsync))
    (.atBindingName (fun h => ⟨rfl, fun _ => h⟩) ⟨rfl, nofun⟩) ?_
  rintro short s1 ⟨rfl, hshort⟩
  refine .step (ensures_propertyKey hg hs) ?_
  rintro ⟨key, computed⟩ s2 ⟨hm, hk, hplain⟩
  refine .bind (.eat (fun _ => .ite (fun _ => ?_) (absurd rfl)) fun _ => .ite nofun fun _ =>
    .ite (fun hb => ?_) fun _ => .bind .unexpected)
  · refine .step (sound_bindingElement hg c _ (State.normal_next _)) ?_
    rintro value s3 ⟨hv, hd⟩
    exact .bind (.pure (.node fun span =>
      ⟨(hm.next.append hv).node rfl span, .boundMember hk hd, rfl⟩))
  · rw [Bool.and_eq_true, Bool.not_eq_true'] at hb
    obtain ⟨id, span, name, rfl, hname⟩ := hplain hb.2 (hshort hb.1)
    obtain rfl := hb.2
    refine .step (ensures_shorthandValue hg hm.normal id span name) ?_
    rintro value s3 ⟨hv, hd⟩
    exact .bind (.pure (.node fun span =>
      ⟨(hm.append hv).node rfl span, .boundShorthand hname hd, rfl⟩))

theorem ensures_objectPattern (hg : g.Sound) {c : Context} {s : State} (hs : s.Normal) :
    Ensures g.objectPattern c s fun n s' => Made s s' [n] ∧ Derives c.inGenerator .bound n := by
  refine .bind (.here (.bind (.advance ?_)))
  refine .step (P := fun ps s' => Made s s' ps ∧
    (∀ p ∈ ps, Derives c.inGenerator .boundMember p) ∧ RestLast ps) ?_ ?_
  · refine .listUntil (fun ps s' => Made s s' ps ∧
      ∀ p ∈ ps, Derives c.inGenerator .boundMember p ∧ p.isRest = false) ?_ ?_ ?_
    · exact ⟨(Made.start hs).next, nofun⟩
    · rintro ps s1 ⟨hm, hd⟩
      exact ⟨hm, fun p hp => (hd p hp).1, .of_forall fun p hp => (hd p hp).2⟩
    · rintro ps s1 ⟨hm, hd⟩
      refine .bind (.here (.bind (.eat (fun _ => .ite (fun _ => ?_) (absurd rfl)) fun _ =>
        .ite nofun fun _ => ?_)))
      · refine .step (ensures_restElement sound_bindingName s1.normal_next _) ?_
        rintro n s2 ⟨hn, id, span, argument, rfl, ha⟩
        refine .pure ⟨hm.next.append hn, ?_, .concat (fun p hp => (hd p hp).2) _⟩
        exact forall_mem_concat (fun p hp => (hd p hp).1) (.boundRest ha)
      · refine .step (ensures_patternProperty hg hm.normal _) ?_
        rintro n s2 ⟨hn, hdn⟩
        exact .bind (.commaUnless (.pure ⟨(hm.append hn).next, forall_mem_concat hd hdn⟩)
          (.pure ⟨hm.append hn, forall_mem_concat hd hdn⟩))
  · rintro ps s1 ⟨hm, hd, hr⟩
    exact .bind (.expect fun _ => .node fun span => ⟨hm.next.node rfl span, .boundObject hd hr⟩)

theorem sound_bindingTargetRule (hg : g.Sound) : Sound .bound g.bindingTargetRule := by
  intro c s hs
  refine .bind (.current ?_)
  split
  · exact ensures_arrayPattern hg hs
  · exact ensures_objectPattern hg hs
  · exact (sound_bindingName c s hs).mono fun n s' h => ⟨h.1, .boundName h.2⟩

end

end EsModule.Syntax
