import EsModule.Proofs.Pairing.Function

/-!
# Rules that follow: operands

A mark that is read again, as a regular expression or as the next chunk of a template, is read again
in the second run.
-/

namespace EsModule.Syntax

section

variable {i : Pairing} {n l : Nat} {g g' : Grammar} {s : State}

theorem follows_spreadOrAssignment (hg : g.Follows i n g') :
    Follows i n 1 g.spreadOrAssignment g'.spreadOrAssignment i.node := by
  intro s l hl
  refine .here (.ifEat (fun _ => ?_) fun _ => hg.assignment.on s (by omega))
  exact .bind (hg.assignment.on _ (by omega)) fun _ _ => .node rfl (by omega)

/-! ## Reading a token again -/

theorem echoes_regExp
    (hk : s.current.kind = .punctuator .slash ∨ s.current.kind = .punctuator .slashEqual) :
    Echoes i l (fun _ => l - 1) s Grammar.regExp Grammar.regExp i.node := by
  have hrescan : ∀ {mark}, ReadsAgain regExpBody rescanRegExp mark →
      s.current.kind = .punctuator mark →
      Echoes i l (fun _ => l - 1) s Grammar.regExp Grammar.regExp i.node := by
    intro mark hr hmark
    refine .here (.rescan hr hmark ?_)
    rw [Transfer.token_kind]
    split
    · rename_i pattern flags hread
      exact .advance (by rw [hread]; rfl) (.node rfl (by omega))
    · exact .unexpected
  exact hk.elim (hrescan .slash) (hrescan .slashEqual)

theorem echoes_templateRound (hg : g.Follows i n g') (r : List Chunk × List Node)
    (hl : l ≤ n + 1) :
    Echoes i l (Round.level 1 l) s (g.templateRound r)
      (g'.templateRound (Prod.map id (List.map i.node) r))
      (Round.map (Prod.map id (List.map i.node)) (Prod.map id (List.map i.node))) := by
  obtain ⟨quasis, expressions⟩ := r
  refine .current ?_
  rw [Transfer.token_kind]
  split
  · rename_i chunk closes hk
    refine .advance (by rw [hk]; rfl) (.ite (fun _ => .finish rfl (by omega)) fun _ => ?_)
    refine .bind (.withIn ((follows_expression hg.assignment).on _ (by omega))) fun e s2 => ?_
    refine .ifSees (fun hbrace => ?_) fun _ => .unexpectedThen
    refine .rescan .rightBrace hbrace ?_
    rw [Transfer.token_kind]
    split
    · rename_i cause hcause
      exact .failAt nofun ⟨rfl, fun _ _ => by rw [hcause]; rfl⟩
    · exact .again (by simp) (by omega)
  · exact .unexpected

theorem follows_template (hg : g.Follows i n g') :
    Follows i (n + 1) 1 g.template g'.template i.node := by
  intro s l hl
  rw [Grammar.template_eq, Grammar.template_eq]
  refine .here (.bind (f := Prod.map id (List.map i.node))
    (.loop (f := Prod.map id (List.map i.node)) (k := 1) rfl ?_) ?_)
  · exact fun r s1 l' hl' => echoes_templateRound hg r (by omega)
  · exact fun r s1 => .node rfl (by omega)

/-! ## Arrays and objects -/

theorem follows_arrayItem (hg : g.Follows i n g') :
    Follows i n 1 g.arrayItem g'.arrayItem (Prod.map (List.map (Option.map i.node)) id) := by
  intro s l hl
  refine .ifEat (fun _ => .pure rfl (by omega)) fun _ => ?_
  refine .bind ((follows_spreadOrAssignment hg).on _ (by omega)) fun element s2 => ?_
  exact .bind ((follows_commaUnless _).echoes s2) fun _ _ => .pure rfl (by omega)

theorem echoes_arrayLiteral (hg : g.Follows i n g')
    (hk : s.current.kind = .punctuator .leftBracket) (hl : l ≤ n + 1) :
    Echoes i l (fun _ => l - 1) s g.arrayLiteral g'.arrayLiteral i.node := by
  rw [Grammar.arrayLiteral_eq, Grammar.arrayLiteral_eq]
  refine .here (.advance (by rw [hk]; rfl) ?_)
  refine .bind (.withIn (.listUntil (f := Option.map i.node)
    ((follows_arrayItem hg).mono (by omega)))) fun elements s1 => ?_
  exact .expect fun _ => .node rfl (by omega)

theorem follows_objectMember (hg : g.Follows i n g') :
    Follows i n 1 g.objectMember g'.objectMember i.node := by
  intro s l hl
  refine .here (.ifEat (fun _ => ?_) fun _ => ?_)
  · exact .bind (hg.assignment.on _ (by omega)) fun _ _ => .node rfl (by omega)
  refine .bind (follows_modifiers.echoes s) fun modifiers s1 => .atBindingName fun short _ => ?_
  refine .bind ((follows_propertyKey hg).on s1 (by omega)) ?_
  intro r s2
  obtain ⟨key, computed⟩ := r
  dsimp only [Prod.map_apply, id_eq]
  refine .sees (.ite (fun _ => ?_) fun _ => .ifEat (fun _ => ?_) fun _ =>
    .ite (fun _ => ?_) fun _ => ?_)
  · exact .bind ((follows_method hg _ _).on s2 (by omega)) fun _ _ => .node rfl (by omega)
  · exact .bind (hg.assignment.on _ (by omega)) fun _ _ => .node rfl (by omega)
  · exact .unexpectedThen
  · exact .bind ((follows_shorthandValue hg key).on s2 (by omega)) fun _ _ => .node rfl (by omega)

theorem follows_objectItem (hg : g.Follows i n g') :
    Follows i n 1 g.objectItem g'.objectItem (Prod.map (List.map i.node) id) := by
  intro s l hl
  refine .bind ((follows_objectMember hg).on _ (by omega)) fun property s2 => ?_
  exact .bind ((follows_commaUnless _).echoes s2) fun _ _ => .pure rfl (by omega)

theorem echoes_objectLiteral (hg : g.Follows i n g')
    (hk : s.current.kind = .punctuator .leftBrace) (hl : l ≤ n + 1) :
    Echoes i l (fun _ => l - 1) s g.objectLiteral g'.objectLiteral i.node := by
  rw [Grammar.objectLiteral_eq, Grammar.objectLiteral_eq]
  refine .here (.advance (by rw [hk]; rfl) ?_)
  refine .bind (.withIn (.listUntil (f := i.node) ((follows_objectItem hg).mono (by omega))))
    fun properties s1 => ?_
  exact .expect fun _ => .node rfl (by omega)

/-! ## Lists in parentheses -/

theorem follows_parenthesizedItem (hg : g.Follows i n g') :
    Follows i n 1 g.parenthesizedItem g'.parenthesizedItem
      (Prod.map (List.map (Prod.map i.node id)) id) := by
  intro s l hl
  refine .here (.ifEat (fun _ => ?_) fun _ => ?_)
  · exact .bind ((follows_restElement hg.bindingTarget _).on _ (by omega)) fun _ _ =>
      .pure rfl (by omega)
  · refine .bind (hg.assignment.on _ (by omega)) fun item s2 => ?_
    exact .eat (fun _ => .sees (.pure rfl (by omega))) fun _ => .sees (.pure rfl (by omega))

theorem follows_parenthesizedItems (hg : g.Follows i n g') :
    Follows i n 0 g.parenthesizedItems g'.parenthesizedItems (List.map (Prod.map i.node id)) := by
  intro s l hl
  rw [Grammar.parenthesizedItems_eq, Grammar.parenthesizedItems_eq]
  exact .withIn (.listUntil ((follows_parenthesizedItem hg).mono hl))

theorem echoes_parenthesized (hg : g.Follows i n g')
    (hk : s.current.kind = .punctuator .leftParen) (hl : l ≤ n + 1) :
    Echoes i l (fun _ => l - 1) s g.parenthesized g'.parenthesized i.operand := by
  refine .here (.advance (by rw [hk]; rfl) ?_)
  refine .bind ((follows_parenthesizedItems hg).on _ (by omega)) fun marked s1 =>
    .expect fun _ => ?_
  generalize s1.next = s2
  have hitems : (marked.map (Prod.map i.node id)).map (·.1) = (marked.map (·.1)).map i.node := by
    simp
  have hmarks : (marked.map (Prod.map i.node id)).any (·.2) = marked.any (·.2) := by
    simp [Function.comp_def]
  have hempty : ((marked.map (·.1)).map i.node).isEmpty = (marked.map (·.1)).isEmpty :=
    List.isEmpty_map
  dsimp only
  rw [hitems, hmarks, hempty]
  generalize marked.map (·.1) = items
  generalize (items.isEmpty || marked.any (·.2)) = needsArrow
  refine .sees (.ite (fun _ => .unexpectedThen) fun _ => ?_)
  -- a single item stands for itself
  have hlist : ∀ items : List Node, Echoes i (l - 1 - 0 - 1) (fun _ => l - 1) s2
      (Parser.node (.sequenceExpression items) s.current.span.start >>= fun n =>
        pure (Operand.mk n (some items)))
      (Parser.node (.sequenceExpression (items.map i.node)) (i.start s.current.span.start) >>=
        fun n => pure (Operand.mk n (some (items.map i.node)))) i.operand :=
    fun items => .made rfl fun _ _ => .pure rfl (by omega)
  match items, needsArrow with
  | [item], false => exact .pure rfl (by omega)
  | [item], true => exact hlist [item]
  | [], _ => exact hlist []
  | item :: item' :: items, _ => exact hlist (item :: item' :: items)

theorem echoes_importExpression (hg : g.Follows i n g')
    (hk : s.current.kind = .keyword .kwImport) (hl : l ≤ n + 1) :
    Echoes i l (fun _ => l - 1) s g.importExpression g'.importExpression i.node := by
  refine .here (.advance (by rw [hk]; rfl) (.ifEat (fun _ => ?_) fun _ => ?_))
  · exact .expectName fun _ => .node rfl (by omega)
  · refine .expect fun _ => .bind (.withIn (hg.assignment.on _ (by omega))) fun source s2 => ?_
    exact .eat (fun _ => .expect fun _ => .node rfl (by omega)) fun _ =>
      .expect fun _ => .node rfl (by omega)

/-! ## Operands -/

theorem atomKind?_isText {kind : TokenKind} {text : String} {atom : Kind Node}
    (h : Grammar.atomKind? kind text = some atom) : kind.isText = true := by
  cases kind <;> first | rfl | cases h

theorem atomKind?_map {kind : TokenKind} {text : String} {atom : Kind Node}
    (h : Grammar.atomKind? kind text = some atom) : atom = atom.map i.node := by
  unfold Grammar.atomKind? at h
  split at h
  all_goals first | exact literalKey?_map h | exact Option.some.inj h ▸ rfl

/-- Whether a function starts behind the word `async` is asked of the token behind it. -/
theorem Echoes.startsAsyncFunction {γ δ : Type} {r : γ → δ} {m : γ → Nat} {p q : Parser γ}
    {p' q' : Parser δ} (h1 : s.current.kind = .keyword .kwAsync → Echoes i l m s p p' r)
    (h0 : Echoes i l m s q q' r) :
    Echoes i l m s (Grammar.startsAsyncFunction >>= fun b => if b = true then p else q)
      (Grammar.startsAsyncFunction >>= fun b => if b = true then p' else q') r := by
  let asked : Token → Bool := fun t =>
    decide (t.kind = .keyword .kwFunction) && !t.newlineBefore
  have hstarts : ∀ c s, Grammar.startsAsyncFunction c s =
      .ok (decide (s.current.kind = .keyword .kwAsync) && asked (nextToken s.behind).1, s) := by
    intro c s
    rw [← Bool.and_assoc]
    rfl
  refine .ask (f := id) hstarts hstarts (fun ht hclear => ?_)
    (.ite (fun h => h1 (of_decide_eq_true (Bool.and_eq_true_iff.mp h).1)) fun _ => h0)
  refine i.and_peek ht hclear (fun k => decide (k = .keyword .kwAsync)) ?_ fun _ => rfl
  intro k hk
  rw [of_decide_eq_true hk]
  rfl

theorem follows_primary (hg : g.Follows i n g') :
    Follows i (n + 1) 1 g.primary g'.primary i.operand := by
  intro s l hl
  refine .here (.startsAsyncFunction (fun hk => ?_) (.current ?_))
  · refine .advance (by rw [hk]; rfl)
      (.bind ((follows_function hg _ (by nofun)).on _ (by omega)) fun f s1 => ?_)
    exact .operand rfl (by omega)
  rw [Transfer.token_kind]
  split
  · exact .bind (echoes_regExp (.inl ‹_›)) fun _ _ => .pure rfl (by omega)
  · exact .bind (echoes_regExp (.inr ‹_›)) fun _ _ => .pure rfl (by omega)
  · exact .bind ((follows_template hg).on _ (by omega)) fun _ _ => .pure rfl (by omega)
  · exact .bind (echoes_arrayLiteral hg ‹_› (by omega)) fun _ _ => .pure rfl (by omega)
  · exact .bind (echoes_objectLiteral hg ‹_› (by omega)) fun _ _ => .pure rfl (by omega)
  · exact echoes_parenthesized hg ‹_› (by omega)
  · exact .bind ((follows_function hg _ (by nofun)).on _ (by omega)) fun f s1 =>
      .operand rfl (by omega)
  · exact .bind ((follows_classRule hg _ (fun _ => rfl) (by nofun)).on _ (by omega)) fun _ _ =>
      .pure rfl (by omega)
  · exact .bind (echoes_importExpression hg ‹_› (by omega)) fun _ _ => .pure rfl (by omega)
  · refine .currentText ?_
    split
    · rename_i atom hatom
      exact .advance (atomKind?_isText hatom) (.operand (atomKind?_map hatom) (by omega))
    · exact .unexpected

end

end EsModule.Syntax
