import EsModule.Proofs.Pairing.Target

/-!
# Rules that follow: functions and classes

The words in front of a member are told from its name by the token behind them. A rule asks for
that token in any case, but where one looks no further than to the current one the answer does not
matter.
-/

namespace EsModule.Syntax

section

variable {i : Pairing} {n l : Nat} {g g' : Grammar} {s : State}

theorem follows_blockBody (hg : g.Follows i n g') :
    Follows i (n + 1) 1 g.blockBody g'.blockBody (List.map i.node) := by
  intro s l hl
  rw [Grammar.blockBody_eq, Grammar.blockBody_eq]
  refine .expect fun _ => ?_
  refine .bind (.listUntil (f := i.node) ((follows_plainItem hg.statement).mono (by omega))) ?_
  exact fun body s1 => .expect fun _ => .pure rfl (by omega)

theorem follows_block (hg : g.Follows i n g') :
    Follows i (n + 1) 1 g.block g'.block i.node :=
  fun s _ _ => .here (.bind ((follows_blockBody hg).on s (by omega)) fun _ _ =>
    .node rfl (by omega))

theorem follows_parameterItem (hg : g.Follows i n g') :
    Follows i n 1 g.parameterItem g'.parameterItem (Prod.map (List.map i.node) id) := by
  intro s l hl
  refine .here (.ifEat (fun _ => ?_) fun _ => ?_)
  · exact .bind ((follows_restElement hg.bindingTarget _).on _ (by omega)) fun _ _ =>
      .pure rfl (by omega)
  · refine .bind ((follows_bindingElement hg).on s (by omega)) fun param s1 => ?_
    exact .bind ((follows_eat _).echoes s1) fun _ _ => .pure rfl (by omega)

theorem follows_parameters (hg : g.Follows i n g') :
    Follows i (n + 1) 1 g.parameters g'.parameters (List.map i.node) := by
  intro s l hl
  rw [Grammar.parameters_eq, Grammar.parameters_eq]
  refine .expect fun _ => ?_
  refine .bind (.listUntil (f := i.node) ((follows_parameterItem hg).mono (by omega))) ?_
  exact fun params s1 => .expect fun _ => .pure rfl (by omega)

theorem follows_functionRest (hg : g.Follows i n g') (isGenerator : Bool) :
    Follows i (n + 1) 1 (g.functionRest isGenerator) (g'.functionRest isGenerator)
      (Prod.map (List.map i.node) i.node) := by
  intro s l hl
  refine .inFunction (.bind ((follows_parameters hg).on s (by omega)) fun params s1 => ?_)
  exact .bind ((follows_block hg).on s1 (by omega)) fun _ _ => .pure rfl (by omega)

theorem follows_optionalName (missing : Option SyntaxFault)
    (hmissing : ∀ fault ∈ missing, ¬fault.Telling) :
    Follows i n 0 (Grammar.optionalName missing) (Grammar.optionalName missing)
      (Option.map i.node) := by
  intro s l hl
  refine .atBindingName fun b _ => .ite (fun _ => ?_) fun _ => ?_
  · exact .bind (follows_bindingName.echoes s) fun _ _ => .pure rfl (by omega)
  · cases missing with
    | some fault => exact .fail (hmissing fault rfl)
    | none => exact .pure rfl (by omega)

variable {missing : Option SyntaxFault}

theorem follows_function (hg : g.Follows i n g') (isAsync : Bool)
    (hmissing : ∀ fault ∈ missing, ¬fault.Telling) :
    Follows i (n + 1) 1 (g.function isAsync missing) (g'.function isAsync missing)
      (Function.map i.node) := by
  intro s l hl
  refine .expectWord fun _ => .bind ((follows_eat _).echoes _) fun isGenerator s1 => ?_
  refine .bind ((follows_optionalName missing hmissing).echoes s1) fun name s2 => ?_
  exact .bind ((follows_functionRest hg isGenerator).on s2 (by omega)) fun _ _ =>
    .pure rfl (by omega)

theorem follows_functionDeclaration (hg : g.Follows i n g') (isAsync : Bool)
    (hmissing : ∀ fault ∈ missing, ¬fault.Telling) :
    Follows i (n + 1) 1 (g.functionDeclaration isAsync missing)
      (g'.functionDeclaration isAsync missing) i.node := by
  intro s l hl
  have hf := (follows_function hg isAsync hmissing).on s hl
  refine .ite (fun _ => ?_) fun _ => .here (.bind hf fun _ _ => .node rfl (by omega))
  -- the word `async` is the token before
  refine .get (.bindPure (.bind hf fun f s1 => ?_))
  rw [show (i.state s).previous.start = i.start s.previous.start from i.span_start _]
  exact .node rfl (by omega)

theorem follows_method (hg : g.Follows i n g') (isAsync isGenerator : Bool) :
    Follows i (n + 1) 1 (g.method isAsync isGenerator) (g'.method isAsync isGenerator) i.node :=
  fun s _ _ => .here (.bind ((follows_functionRest hg isGenerator).on s (by omega)) fun _ _ =>
    .node rfl (by omega))

/-! ## Members -/

/-- Whether a token of this kind shows that the word in front of it is no modifier. -/
def TokenKind.endsName : TokenKind → Bool
  | .punctuator .leftParen | .punctuator .equal | .punctuator .semicolon | .punctuator .rightBrace
  | .punctuator .comma | .punctuator .colon => true
  | _ => false

theorem modifierIsName_eq (c : Context) (s : State) :
    Grammar.modifierIsName c s = .ok ((nextToken s.behind).1.kind.endsName, s) := by
  show (match (nextToken s.behind).1.kind with
    | .punctuator .leftParen | .punctuator .equal | .punctuator .semicolon
    | .punctuator .rightBrace | .punctuator .comma | .punctuator .colon => pure true
    | _ => pure false : Parser Bool) c s = _
  cases (nextToken s.behind).1.kind with
  | punctuator mark => cases mark <;> rfl
  | _ => rfl

/-- What is asked of the token behind, if it is asked only where one looks further than to the
current token, has the same answer in the second run. -/
theorem Pairing.and_peek (ht : i.Tracked s) (hclear : i.Clear s) (mask : TokenKind → Bool)
    {asked : Token → Bool} (hmask : ∀ k, mask k = true → k.isLast = false)
    (hasked : ∀ t, asked (i.token t) = asked t) :
    (mask (i.state s).current.kind && asked (nextToken (i.state s).behind).1) =
      (mask s.current.kind && asked (nextToken s.behind).1) := by
  show (mask s.current.kind && _) = _
  cases hk : mask s.current.kind with
  | true =>
    have hnext := i.ahead ht hclear (hmask _ hk)
    show asked (nextToken (i.cursor s.behind)).1 = _
    rw [hnext, hasked]
    rfl
  | false => rfl

/-- A rule that comes to an end at once. -/
theorem Echoes.ends {α β : Type} {f : α → β} {m : α → Nat} {p : Parser α} {p' : Parser β} {a : α}
    {b : β} (hp : ∀ c, p c s = .ok (a, s)) (hp' : ∀ c, p' c (i.state s) = .ok (b, i.state s))
    (hb : b = f a) (hl : l ≤ m a) : Echoes i l m s p p' f := by
  intro hs ht c c' _
  rw [hp]
  refine ⟨?_, nofun⟩
  intro a' s' hrun
  obtain ⟨rfl, rfl⟩ := Prod.mk.inj (Except.ok.inj hrun)
  exact ⟨ht, Nat.le_refl _, Nat.lt_of_lt_of_le hs hl, fun hclear => ⟨hclear, by rw [hp', hb]⟩⟩

theorem eatName_of_isLast {name : String} {c : Context} (h : s.current.kind.isLast = true) :
    Parser.eatName name c s = .ok (false, s) := by
  have hk : ¬decide (s.current.kind = .identifier name) = true := by
    intro hk
    rw [of_decide_eq_true hk] at h
    cases h
  show (if decide (s.current.kind = .identifier name) = true then
    Parser.advance >>= fun _ => pure true else pure false : Parser Bool) c s = _
  rw [if_neg hk]
  rfl

/-- The words in front of the key of a member, behind `async` and the star. -/
def Grammar.accessor (isAsync isGenerator : Bool) : Parser Grammar.Modifiers := do
  if isAsync || isGenerator || (← modifierIsName) then return ⟨isAsync, isGenerator, .plain⟩
  if ← Parser.eatName "get" then return ⟨isAsync, isGenerator, .getter⟩
  if ← Parser.eatName "set" then return ⟨isAsync, isGenerator, .setter⟩
  return ⟨isAsync, isGenerator, .plain⟩

theorem accessor_of_isLast {isAsync isGenerator : Bool} {c : Context}
    (h : s.current.kind.isLast = true) :
    Grammar.accessor isAsync isGenerator c s = .ok (⟨isAsync, isGenerator, .plain⟩, s) := by
  show Except.bind (Grammar.modifierIsName c s) _ = _
  rw [modifierIsName_eq]
  show (if _ then _ else _ : Parser Grammar.Modifiers) c s = _
  split
  · rfl
  · show Except.bind (Parser.eatName "get" c s) _ = _
    rw [eatName_of_isLast h]
    show Except.bind (Parser.eatName "set" c s) _ = _
    rw [eatName_of_isLast h]
    rfl

theorem follows_accessor (isAsync isGenerator : Bool) :
    Follows i n 0 (Grammar.accessor isAsync isGenerator) (Grammar.accessor isAsync isGenerator)
      id := by
  intro s l hl
  cases hlast : s.current.kind.isLast with
  | true =>
    -- the answer may be another one in the second run, and does not matter
    exact .ends (fun _ => accessor_of_isLast hlast) (fun _ => accessor_of_isLast hlast) rfl
      (by omega)
  | false =>
    refine .ask (f := id) modifierIsName_eq modifierIsName_eq ?_
      (.ite (fun _ => .pure rfl (by omega)) fun _ =>
        .ifEatName (fun _ => .pure rfl (by omega)) fun _ =>
          .ifEatName (fun _ => .pure rfl (by omega)) fun _ => .pure rfl (by omega))
    intro ht hclear
    have hnext := i.ahead ht hclear hlast
    show (nextToken (i.cursor s.behind)).1.kind.endsName = _
    rw [hnext]
    rfl

/-- A word is moved over if the token behind it says so. -/
theorem Echoes.eatModifier {γ δ : Type} {r : γ → δ} {m : γ → Nat} {k : Bool → Parser γ}
    {k' : Bool → Parser δ} (word : Keyword) (asked : Token → Bool) {test : Parser Bool}
    (htest : ∀ c s, test c s =
      .ok (decide (s.current.kind = .keyword word) && asked (nextToken s.behind).1, s))
    (hasked : ∀ t, asked (i.token t) = asked t)
    (h1 : Echoes i (l - 1) m s.next (k true) (k' true) r)
    (h0 : Echoes i l m s (k false) (k' false) r) :
    Echoes i l m s (Parser.eatIf test >>= k) (Parser.eatIf test >>= k') r := by
  refine .eatIf htest htest (fun ht hclear => ?_) (fun h => ?_) (fun _ => h1) fun _ => h0
  · refine i.and_peek ht hclear (fun k => decide (k = .keyword word)) ?_ hasked
    intro k hk
    rw [of_decide_eq_true hk]
    rfl
  · rw [of_decide_eq_true (Bool.and_eq_true_iff.mp h).1]
    rfl

theorem follows_modifiers : Follows i n 0 Grammar.modifiers Grammar.modifiers id := by
  intro s l hl
  have hrest : ∀ isAsync isGenerator s' l', l' ≤ l → Echoes i l' (fun _ => l - 0) s'
      (Grammar.accessor isAsync isGenerator) (Grammar.accessor isAsync isGenerator) id :=
    fun isAsync isGenerator s' l' hl' =>
      ((follows_accessor isAsync isGenerator).echoes s').widen (Nat.le_refl _) fun _ => hl'
  refine .eatModifier .kwAsync (fun t => !t.kind.endsName && !t.newlineBefore)
    ?_ (fun _ => rfl) ?_ ?_
  · intro c s
    show Except.bind (Grammar.modifierIsName c s) (fun r => .ok
      (decide (s.current.kind = .keyword .kwAsync) && !r.1 &&
        !(nextToken r.2.behind).1.newlineBefore, r.2)) = _
    rw [modifierIsName_eq, ← Bool.and_assoc]
    rfl
  · exact .eat (fun _ => hrest true true _ _ (by omega)) fun _ => hrest true false _ _ (by omega)
  · exact .eat (fun _ => hrest false true _ _ (by omega)) fun _ => hrest false false _ _ (by omega)

/-- A member of a class behind the word `static`, which it may have. -/
def Grammar.memberRest (g : Grammar) (start : Nat) (isStatic : Bool) : Parser Node := do
  if isStatic && (← Parser.sees .leftBrace) then
    let body ← Parser.inFunction false g.blockBody
    return ← Parser.node (.staticBlock body) start
  let modifiers ← modifiers
  let (key, computed) ← g.propertyKey
  if ← Parser.sees .leftParen then
    let value ← g.method modifiers.isAsync modifiers.isGenerator
    let kind := methodKind modifiers.accessor key computed isStatic
    return ← Parser.node (.methodDefinition key value kind computed isStatic) start
  let value ←
    if ← Parser.eat .equal then pure (some (← Parser.inFunction false g.assignment)) else pure none
  Parser.semicolon
  Parser.node (.propertyDefinition key value computed isStatic) start

theorem follows_memberRest (hg : g.Follows i n g') (start : Nat) (isStatic : Bool) :
    Follows i n 1 (g.memberRest start isStatic) (g'.memberRest (i.start start) isStatic)
      i.node := by
  intro s l hl
  refine .sees (.ite (fun _ => ?_) fun _ => ?_)
  · exact .bind (.inFunction ((follows_blockBody hg).on s (by omega))) fun _ _ =>
      .node rfl (by omega)
  · refine .bind (follows_modifiers.echoes s) fun modifiers s1 => ?_
    refine .bind ((follows_propertyKey hg).on s1 (by omega)) ?_
    intro r s2
    obtain ⟨key, computed⟩ := r
    refine .ifSees (fun _ => ?_) fun _ => ?_
    · refine .bind ((follows_method hg _ _).on s2 (by omega)) fun value s3 => .node ?_ (by omega)
      simp [Kind.map, Grammar.methodKind]
    · refine .ifEat (fun _ => ?_) fun _ => ?_
      · refine .bind (.inFunction (hg.assignment.on _ (by omega))) fun value s3 => .bindPure ?_
        exact .semicolon fun _ => .node rfl (by omega)
      · exact .bindPure (.semicolon fun _ => .node rfl (by omega))

theorem follows_classMember (hg : g.Follows i n g') :
    Follows i n 1 g.classMember g'.classMember i.node := by
  intro s l hl
  have hrest : ∀ isStatic s' l', l' ≤ l → Echoes i l' (fun _ => l - 1) s'
      (g.memberRest s.current.span.start isStatic)
      (g'.memberRest (i.start s.current.span.start) isStatic) i.node :=
    fun isStatic s' l' hl' =>
      ((follows_memberRest hg _ isStatic).on s' (by omega)).widen (Nat.le_refl _) fun _ => by omega
  refine .here (.eatModifier .kwStatic (fun t => !t.kind.endsName) ?_
    (fun _ => rfl) (hrest true _ _ (by omega)) (hrest false _ _ (by omega)))
  intro c s
  show Except.bind (Grammar.modifierIsName c s) (fun r => .ok
    (decide (s.current.kind = .keyword .kwStatic) && !r.1, r.2)) = _
  rw [modifierIsName_eq]
  rfl

theorem follows_classItem (hg : g.Follows i n g') :
    Follows i n 1 g.classItem g'.classItem (Prod.map (List.map i.node) id) := by
  intro s l hl
  refine .ifEat (fun _ => .pure rfl (by omega)) fun _ => ?_
  exact .bind ((follows_classMember hg).on s (by omega)) fun _ _ => .pure rfl (by omega)

theorem follows_classBody (hg : g.Follows i n g') :
    Follows i (n + 1) 1 g.classBody g'.classBody i.node := by
  intro s l hl
  rw [Grammar.classBody_eq, Grammar.classBody_eq]
  refine .here (.expect fun _ => ?_)
  refine .bind (.listUntil (f := i.node) ((follows_classItem hg).mono (by omega))) ?_
  exact fun members s1 => .expect fun _ => .node rfl (by omega)

theorem follows_classRule (hg : g.Follows i n g') (kind : Class Node → Kind Node)
    (hkind : ∀ definition, (kind definition).map i.node = kind (definition.map i.node))
    (hmissing : ∀ fault ∈ missing, ¬fault.Telling) :
    Follows i (n + 1) 1 (g.classRule kind missing) (g'.classRule kind missing) i.node := by
  intro s l hl
  refine .here (.expectWord fun _ => ?_)
  refine .bind ((follows_optionalName missing hmissing).echoes _) fun name s1 => ?_
  refine .ifEatWord (fun _ => ?_) fun _ => ?_
  · refine .bind (hg.leftHandSide.on _ (by omega)) fun parent s2 => .bindPure ?_
    refine .bind ((follows_classBody hg).on s2 (by omega)) fun body s3 => .node ?_ (by omega)
    exact (hkind ⟨name, some parent.node, body⟩).symm
  · refine .bindPure (.bind ((follows_classBody hg).on _ (by omega)) fun body s2 =>
      .node ?_ (by omega))
    exact (hkind ⟨name, none, body⟩).symm

end

end EsModule.Syntax
