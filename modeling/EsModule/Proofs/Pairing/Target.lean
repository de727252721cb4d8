import EsModule.Proofs.Pairing.Node

/-!
# Rules that follow: targets

Each rule follows itself (`Follows`) if the rules that it calls do. Rules that move over their first
token without looking at it are asked what it is. A rule that starts with a token of its own calls
others only where less is left, so it follows from one character further in front than they have to.
-/

namespace EsModule.Syntax

/-- The rule for what is made by `new` follows where that word stands. -/
def Grammar.MakesAlike (g : Grammar) (i : Pairing) (n : Nat) (g' : Grammar) : Prop :=
  ∀ s l, l ≤ n → s.current.kind = .keyword .kwNew →
    Echoes i l (fun _ => l - 1) s g.newExpression g'.newExpression i.node

/-- The rules for expressions and targets follow where at most `n` characters are left. -/
structure Grammar.ReadsAlike (g : Grammar) (i : Pairing) (n : Nat) (g' : Grammar) : Prop where
  assignment : Syntax.Follows i n 1 g.assignment g'.assignment i.node
  binary : ∀ least, Syntax.Follows i n 1 (g.binary least) (g'.binary least) i.operand
  unary : Syntax.Follows i n 1 g.unary g'.unary i.operand
  leftHandSide : Syntax.Follows i n 1 g.leftHandSide g'.leftHandSide i.operand
  bindingTarget : Syntax.Follows i n 1 g.bindingTarget g'.bindingTarget i.node

/-- The rules that are called again follow where at most `n` characters are left. -/
structure Grammar.Follows (g : Grammar) (i : Pairing) (n : Nat) (g' : Grammar) : Prop
    extends g.ReadsAlike i n g' where
  statement : Syntax.Follows i n 1 g.statement g'.statement i.node
  newExpression : g.MakesAlike i n g'

theorem Grammar.Follows.mono {i : Pairing} {n n' : Nat} {g g' : Grammar} (h : g.Follows i n g')
    (hn : n' ≤ n) : g.Follows i n' g' where
  assignment := h.assignment.mono hn
  binary := fun least => (h.binary least).mono hn
  unary := h.unary.mono hn
  leftHandSide := h.leftHandSide.mono hn
  bindingTarget := h.bindingTarget.mono hn
  statement := h.statement.mono hn
  newExpression := fun s l hl => h.newExpression s l (Nat.le_trans hl hn)

section

variable {i : Pairing} {n l : Nat} {g g' : Grammar} {s : State}

/-! ## Items of lists -/

section

variable {α β : Type} {p : Parser α} {p' : Parser β} {f : α → β}

theorem follows_plainItem (h : Follows i n 1 p p' f) :
    Follows i n 1 (Grammar.plainItem p) (Grammar.plainItem p') (Prod.map (List.map f) id) :=
  fun s _ _ => .bind (h.on s (by omega)) fun _ _ => .pure rfl (by omega)

theorem follows_entryItem (h : Follows i n 1 p p' f) :
    Follows i n 1 (Grammar.entryItem p) (Grammar.entryItem p') (Prod.map (List.map f) id) :=
  fun s _ _ => .bind (h.on s (by omega)) fun _ s1 =>
    .bind (((follows_eat _).echoes s1).widen (Nat.le_refl _) fun _ => Nat.le_refl _)
      fun _ _ => .pure rfl (by omega)

end

/-! ## Names and keys -/

/-- Whether a name that is bound starts here is a question about the kind of the token. -/
theorem Echoes.atBindingName {γ δ : Type} {r : γ → δ} {m : γ → Nat} {k : Bool → Parser γ}
    {k' : Bool → Parser δ} (h : ∀ b, (b = true → (∃ name, s.current.kind = .identifier name) ∨
      s.current.kind = .keyword .kwAsync) → Echoes i l m s (k b) (k' b) r) :
    Echoes i l m s (Parser.atBindingName >>= k) (Parser.atBindingName >>= k') r := by
  rw [Parser.atBindingName, bind_assoc, bind_assoc]
  refine .current ?_
  rw [Transfer.token_kind]
  split
  · rename_i name hk
    exact .bindPure (h true fun _ => .inl ⟨name, hk⟩)
  · rename_i hk
    exact .bindPure (h true fun _ => .inr hk)
  · exact .bindPure (h false nofun)

theorem follows_bindingName : Follows i n 1 Parser.bindingName Parser.bindingName i.node := by
  intro s l hl
  refine .here (.current ?_)
  rw [Transfer.token_kind]
  split
  · rename_i name hk
    exact .bindPure (.advance (by rw [hk]; rfl) (.node rfl (by omega)))
  · rename_i hk
    exact .bindPure (.advance (by rw [hk]; rfl) (.node rfl (by omega)))
  · refine .read fun c c' hc => ?_
    rw [hc.inGenerator]
    exact .ite (fun _ => .unexpectedThen) fun _ => .failThen nofun
  · exact .unexpectedThen

theorem follows_anyName : Follows i n 1 Parser.anyName Parser.anyName id := by
  intro s l hl
  refine .current ?_
  rw [Transfer.token_kind]
  split
  · rename_i name hk
    refine .advance ?_ (.pure rfl (by omega))
    cases hs : s.current.kind <;> rw [hs] at hk <;> first | rfl | cases hk
  · exact .unexpected

theorem echoes_itemRound (ha : Follows i n 1 g.assignment g'.assignment i.node)
    (items : List Node) (hl : l ≤ n) :
    Echoes i l (Round.level 0 l) s (g.itemRound items) (g'.itemRound (items.map i.node))
      (Round.map (List.map i.node) (List.map i.node)) := by
  refine .ifEat (fun _ => .bind (ha.on _ (by omega)) fun e s3 => ?_) fun _ => .finish rfl (by omega)
  exact .again (by simp) (by omega)

theorem follows_expression (ha : Follows i n 1 g.assignment g'.assignment i.node) :
    Follows i n 1 g.expression g'.expression i.node := by
  intro s l hl
  rw [Grammar.expression_eq, Grammar.expression_eq]
  refine .here (.bind (ha.on s (by omega)) ?_)
  intro first s1
  refine .ifSees (fun _ => ?_) fun _ => .pure rfl (by omega)
  refine .bind (.loop (f := List.map i.node) (g := List.map i.node) (k := 0) rfl ?_)
    fun all s2 => .node rfl (by omega)
  exact fun items s2 l2 hl2 => echoes_itemRound ha items (by omega)

/-- A key is no key only if it stands for no name. -/
theorem literalKey?_isText {kind : TokenKind} {text : String} {key : Kind Node}
    (h : Grammar.literalKey? kind text = some key) : kind.isText = true := by
  cases kind <;> first | rfl | cases h

theorem isText_of_name? {kind : TokenKind} {name : String} (h : kind.name? = some name) :
    kind.isText = true := by
  cases kind <;> first | rfl | cases h

theorem literalKey?_map {kind : TokenKind} {text : String} {key : Kind Node}
    (h : Grammar.literalKey? kind text = some key) : key = key.map i.node := by
  unfold Grammar.literalKey? at h
  split at h
  · exact Option.some.inj h ▸ rfl
  · exact Option.some.inj h ▸ rfl
  · exact Option.some.inj h ▸ rfl
  · cases h

theorem follows_propertyKey (hg : g.Follows i n g') :
    Follows i n 1 g.propertyKey g'.propertyKey (Prod.map i.node id) := by
  intro s l hl
  refine .here (.ifEat (fun _ => ?_) fun _ => ?_)
  · refine .bind (.withIn (hg.assignment.on _ (by omega))) ?_
    intro key s1
    exact .expect fun _ => .pure rfl (by omega)
  · refine .current (.currentText ?_)
    rw [Transfer.token_kind]
    split
    · rename_i literal hk
      refine .bindPure (.advance (literalKey?_isText hk) (.made (literalKey?_map hk) ?_))
      exact fun _ _ => .pure rfl (by omega)
    · rename_i name _ hk
      exact .bindPure (.advance (by rw [hk]; rfl) (.made rfl fun _ _ => .pure rfl (by omega)))
    · rename_i name _ hk _
      exact .bindPure (.advance (isText_of_name? hk) (.made rfl fun _ _ => .pure rfl (by omega)))
    · exact .unexpectedThen

theorem follows_shorthandValue (hg : g.Follows i n g') (key : Node) :
    Follows i n 0 (g.shorthandValue key) (g'.shorthandValue (i.node key)) i.node := by
  intro s l hl
  rw [Grammar.shorthandValue, Grammar.shorthandValue, Transfer.node_name?, Transfer.node_span,
    i.span_start]
  refine .ite (fun _ => .failThen nofun) fun _ => .madeAt rfl rfl fun value s1 => ?_
  refine .ifEat (fun _ => .bind (hg.assignment.on _ (by omega)) fun right s2 => ?_) fun _ =>
    .pure rfl (by omega)
  exact .node rfl (by omega)

/-! ## Targets -/

theorem follows_bindingElement (hg : g.Follows i n g') :
    Follows i n 1 g.bindingElement g'.bindingElement i.node := by
  intro s l hl
  refine .here (.bind (hg.bindingTarget.on s (by omega)) ?_)
  intro left s1
  refine .ifEat (fun _ => .bind (.withIn (hg.assignment.on _ (by omega))) ?_) fun _ =>
    .pure rfl (by omega)
  exact fun right s2 => .node rfl (by omega)

theorem follows_restElement {target target' : Parser Node}
    (ht : Follows i n 1 target target' i.node) (start : Nat) :
    Follows i n 1 (Grammar.restElement start target)
      (Grammar.restElement (i.start start) target') i.node :=
  fun s _ _ => .bind (ht.on s (by omega)) fun _ _ => .node rfl (by omega)

theorem follows_commaUnless (ends : Punctuator) :
    Follows i n 0 (Grammar.commaUnless ends) (Grammar.commaUnless ends) id :=
  fun _ _ _ => .ifSees (fun _ => .pure rfl (by omega)) fun _ =>
    ((follows_expect .comma).echoes _).widen (Nat.le_refl _) fun _ => Nat.sub_le _ _

theorem follows_elementItem (hg : g.Follows i n g') :
    Follows i n 1 g.elementItem g'.elementItem (Prod.map (List.map (Option.map i.node)) id) := by
  intro s l hl
  refine .ifEat (fun _ => .pure rfl (by omega)) fun _ => .here (.ifEat (fun _ => ?_) fun _ => ?_)
  · exact .bind ((follows_restElement hg.bindingTarget _).on _ (by omega)) fun _ _ =>
      .pure rfl (by omega)
  · refine .bind ((follows_bindingElement hg).on _ (by omega)) fun element s2 => ?_
    exact .bind ((follows_commaUnless _).echoes s2) fun _ _ => .pure rfl (by omega)

theorem echoes_arrayPattern (hg : g.Follows i n g')
    (hk : s.current.kind = .punctuator .leftBracket) (hl : l ≤ n + 1) :
    Echoes i l (fun _ => l - 1) s g.arrayPattern g'.arrayPattern i.node := by
  rw [Grammar.arrayPattern_eq, Grammar.arrayPattern_eq]
  refine .here (.advance (by rw [hk]; rfl) ?_)
  refine .bind (.listUntil (f := Option.map i.node)
    ((follows_elementItem hg).mono (by omega))) fun elements s1 => ?_
  exact .expect fun _ => .node rfl (by omega)

theorem follows_patternProperty (hg : g.Follows i n g') (start : Nat) :
    Follows i n 1 (g.patternProperty start) (g'.patternProperty (i.start start)) i.node := by
  intro s l hl
  refine .atBindingName fun short _ => .bind ((follows_propertyKey hg).on s (by omega)) ?_
  intro r s1
  obtain ⟨key, computed⟩ := r
  dsimp only [Prod.map_apply, id_eq]
  refine .ifEat (fun _ => ?_) fun _ => .ite (fun _ => ?_) fun _ => .unexpectedThen
  · refine .bind ((follows_bindingElement hg).on _ (by omega)) fun value s2 => ?_
    exact .bindPure (.node rfl (by omega))
  · refine .bind ((follows_shorthandValue hg key).on _ (by omega)) fun value s2 => ?_
    exact .bindPure (.node rfl (by omega))

theorem follows_propertyItem (hg : g.Follows i n g') :
    Follows i n 1 g.propertyItem g'.propertyItem (Prod.map (List.map i.node) id) := by
  intro s l hl
  refine .here (.ifEat (fun _ => ?_) fun _ => ?_)
  · exact .bind ((follows_restElement follows_bindingName _).echoes _) fun _ _ =>
      .pure rfl (by omega)
  · refine .bind ((follows_patternProperty hg _).on _ (by omega)) fun property s2 => ?_
    exact .bind ((follows_commaUnless _).echoes s2) fun _ _ => .pure rfl (by omega)

theorem echoes_objectPattern (hg : g.Follows i n g')
    (hk : s.current.kind = .punctuator .leftBrace) (hl : l ≤ n + 1) :
    Echoes i l (fun _ => l - 1) s g.objectPattern g'.objectPattern i.node := by
  rw [Grammar.objectPattern_eq, Grammar.objectPattern_eq]
  refine .here (.advance (by rw [hk]; rfl) ?_)
  refine .bind (.listUntil (f := i.node) ((follows_propertyItem hg).mono (by omega)))
    fun properties s1 => ?_
  exact .expect fun _ => .node rfl (by omega)

theorem follows_bindingTargetRule (hg : g.Follows i n g') :
    Follows i (n + 1) 1 g.bindingTargetRule g'.bindingTargetRule i.node := by
  intro s l hl
  refine .current ?_
  rw [Transfer.token_kind]
  split
  · exact echoes_arrayPattern hg ‹_› (by omega)
  · exact echoes_objectPattern hg ‹_› (by omega)
  · exact follows_bindingName.on s hl

end

end EsModule.Syntax
