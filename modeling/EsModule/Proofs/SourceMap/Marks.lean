import EsModule.Proofs.Tree.Nodes
import EsModule.Syntax.Print.Statement

/-!
# Marks belong to nodes

A mark among the printed pieces is always the first piece of how some node is printed: as a
statement, as an expression without parentheses or as a member of a class. `Owned` says so of some
pieces; it is closed under putting pieces together, so it passes from the children of a node to the
node, whatever the role in which the node is printed (`RolesOwned`).
-/

namespace EsModule.Syntax

open Pieces

/-- The ways of printing a node that start with the mark of its span. -/
inductive Node.Prints (n : Node) : Pieces → Prop where
  /-- As a statement. -/
  | statement (l : Layout) : n.Prints (n.roles.statement l)
  /-- As an expression without parentheses. -/
  | bare (l : Layout) : n.Prints (n.roles.bare l)
  /-- As a member of a class. -/
  | member (l : Layout) : n.Prints (n.roles.member l)

/-- Every mark in the pieces is where one of the nodes is printed. -/
def Owned (ns : List Node) (ps : Pieces) : Prop :=
  ∀ (front : Pieces) (offset : Nat) (rest : Pieces), ps = front ++ .mark offset :: rest →
    ∃ n ∈ ns, n.span.isEmpty = false ∧ n.span.start = offset ∧
      ∃ own back : Pieces, .mark offset :: rest = own ++ back ∧ n.Prints own

section

variable {ns : List Node} {p q : Pieces}

theorem Owned.nil : Owned ns [] := by
  intro front offset rest h
  simp at h

theorem owned_say (s : String) : Owned ns (say s) := by
  intro front offset rest h
  cases front <;> simp [say] at h

theorem Owned.append (hp : Owned ns p) (hq : Owned ns q) : Owned ns (p ++ q) := by
  intro front offset rest h
  rcases List.append_eq_append_iff.mp h with ⟨more, rfl, hrest⟩ | ⟨more, hfront, hq'⟩
  · exact hq more offset rest hrest
  · cases more with
    | nil => exact hq [] offset rest (by simpa using hq'.symm)
    | cons piece more =>
      obtain ⟨rfl, rfl⟩ := List.cons.inj hq'
      obtain ⟨n, hn, hspan, hstart, own, back, hown, hprints⟩ := hp front offset more hfront
      exact ⟨n, hn, hspan, hstart, own, back ++ q, by rw [← List.append_assoc, ← hown]; rfl, hprints⟩

theorem Owned.ite {b : Prop} [Decidable b] (hp : Owned ns p) (hq : Owned ns q) :
    Owned ns (if b then p else q) := by
  split
  · exact hp
  · exact hq

theorem Owned.sayIf (b : Bool) (s : String) : Owned ns (sayIf b s) :=
  Owned.ite (owned_say s) .nil

theorem Owned.parenthesized (hp : Owned ns p) : Owned ns (parenthesized p) :=
  ((owned_say _).append hp).append (owned_say _)

theorem Owned.commaList {ps : List Pieces} (h : ∀ p ∈ ps, Owned ns p) : Owned ns (commaList ps) := by
  fun_induction Pieces.commaList ps with
  | case1 => exact .nil
  | case2 p => exact h p List.mem_cons_self
  | case3 p q ps ih =>
    have hrest := ih fun p hp => h p (List.mem_cons_of_mem _ hp)
    exact ((h p List.mem_cons_self).append (owned_say _)).append hrest

theorem Owned.braced {ps : List Pieces} (h : ∀ p ∈ ps, Owned ns p) : Owned ns (braced ps) :=
  ((owned_say _).append (Owned.commaList h)).append (owned_say _)

theorem Owned.flatMap {α : Type} {f : α → Pieces} {xs : List α} (h : ∀ x ∈ xs, Owned ns (f x)) :
    Owned ns (xs.flatMap f) := by
  induction xs with
  | nil => exact .nil
  | cons x xs ih =>
    exact (h x List.mem_cons_self).append (ih fun x hx => h x (List.mem_cons_of_mem _ hx))

theorem owned_indentation (l : Layout) : Owned ns (indentation l) := owned_say _

end

/-- Whatever the role, the marks belong to the nodes. -/
structure RolesOwned (ns : List Node) (r : Roles) : Prop where
  statement : ∀ l, Owned ns (r.statement l)
  expression : ∀ l least, Owned ns (r.expression l least)
  bare : ∀ l, Owned ns (r.bare l)
  loopHead : ∀ l, Owned ns (r.loopHead l)
  declarator : ∀ l, Owned ns (r.declarator l)
  switchCase : ∀ l, Owned ns (r.switchCase l)
  handler : ∀ l, Owned ns (r.handler l)
  classBody : ∀ l, Owned ns (r.classBody l)
  member : ∀ l, Owned ns (r.member l)
  method : ∀ kind key l, Owned ns key → Owned ns (r.method kind key l)

/-- Marks of the children belong to the nodes. -/
abbrev ChildrenOwned (ns : List Node) (cs : List Child) : Prop := ∀ c ∈ cs, RolesOwned ns c.2

/-! ### Parts that several kinds share -/

section

variable {ns : List Node} {l : Layout} {c : Child} {cs : List Child} {o : Option Child}

theorem owned_lines (h : ChildrenOwned ns cs) : Owned ns (lines l cs) := by
  refine Owned.flatMap fun c hc => ?_
  dsimp only
  split
  · exact .nil
  · exact ((owned_indentation l).append ((h c hc).statement l)).append (owned_say _)

theorem owned_block (h : ChildrenOwned ns cs) : Owned ns (block l cs) := by
  unfold block
  split
  · exact owned_say _
  · exact (((owned_say _).append (owned_lines h)).append (owned_indentation l)).append (owned_say _)

theorem owned_nested (h : RolesOwned ns c.2) : Owned ns (nested l c) := by
  unfold nested
  dsimp only
  split
  · exact (owned_say _).append (h.statement l)
  · exact ((owned_say _).append (owned_indentation _)).append (h.statement _)

theorem owned_expressionList (h : ChildrenOwned ns cs) : Owned ns (expressionList l cs) := by
  refine Owned.commaList fun p hp => ?_
  obtain ⟨c, hc, rfl⟩ := List.mem_map.mp hp
  exact (h c hc).expression l _

theorem owned_parameterList (h : ChildrenOwned ns cs) : Owned ns (parameterList l cs) :=
  (owned_expressionList h).parenthesized

theorem owned_guarded {risks : List Opening} {e : Roles} {least : Nat} (h : RolesOwned ns e) :
    Owned ns (guarded risks e l least) :=
  .ite (h.expression l _).parenthesized (h.expression l _)

theorem owned_keyText {computed : Bool} (h : RolesOwned ns c.2) : Owned ns (keyText c computed l) :=
  .ite (((owned_say _).append (h.expression l _)).append (owned_say _)) (h.expression l _)

theorem owned_functionText {f : Function Child} (h : ChildrenOwned ns f.children) :
    Owned ns (functionText f l) := by
  simp only [ChildrenOwned, Function.children, List.forall_mem_append, List.forall_mem_singleton] at h
  obtain ⟨⟨hname, hparams⟩, hbody⟩ := h
  unfold functionText
  dsimp only
  repeat' first | exact owned_say _ | exact Owned.sayIf _ _ | apply Owned.append
  · split
    · rename_i hn
      exact (hname _ (Option.mem_toList.mpr hn)).expression l _
    · exact .nil
  · exact owned_expressionList hparams
  · exact hbody.statement l

theorem owned_methodText {f : Function Child} {kind : PropertyKind} {key : Pieces}
    (h : ChildrenOwned ns f.children) (hkey : Owned ns key) : Owned ns (methodText f kind key l) := by
  simp only [ChildrenOwned, Function.children, List.forall_mem_append, List.forall_mem_singleton] at h
  unfold methodText
  dsimp only
  repeat' first | exact owned_say _ | exact Owned.sayIf _ _ | apply Owned.append
  · split
    · exact .nil
    · exact owned_say _
    · exact owned_say _
  · exact hkey
  · exact owned_expressionList h.1.2
  · exact h.2.statement l

theorem owned_classText {d : Class Child} (h : ChildrenOwned ns d.children) :
    Owned ns (classText d l) := by
  simp only [ChildrenOwned, Class.children, List.forall_mem_append, List.forall_mem_singleton] at h
  obtain ⟨⟨hname, hparent⟩, hbody⟩ := h
  unfold classText
  dsimp only
  repeat' first | exact owned_say _ | apply Owned.append
  · split
    · rename_i hn
      exact ((hname _ (Option.mem_toList.mpr hn)).expression l _).append (owned_say _)
    · exact .nil
  · split
    · rename_i hn
      exact ((owned_say _).append ((hparent _ (Option.mem_toList.mpr hn)).expression l _)).append
        (owned_say _)
    · exact .nil
  · exact hbody.classBody l

/-! ### Expressions -/

theorem owned_templateText {quasis : List Chunk} (h : ChildrenOwned ns cs) :
    Owned ns (templateText l quasis cs) := by
  fun_induction templateText l quasis cs with
  | case1 => exact .nil
  | case2 q qs ih => exact (owned_say _).append (ih h)
  | case3 q qs n r es ih =>
    have hrest := ih fun c hc => h c (List.mem_cons_of_mem _ hc)
    repeat' first | exact owned_say _ | apply Owned.append
    · exact (h _ List.mem_cons_self).expression l _
    · exact hrest

theorem owned_elementsText {es : List (Option Child)} (h : ChildrenOwned ns (es.filterMap id)) :
    Owned ns (elementsText l es) := by
  unfold elementsText
  refine (((owned_say _).append (Owned.commaList fun p hp => ?_)).append (Owned.sayIf _ _)).append
    (owned_say _)
  obtain ⟨e, he, rfl⟩ := List.mem_map.mp hp
  split
  · exact (h _ (List.mem_filterMap.mpr ⟨_, he, rfl⟩)).expression l _
  · exact .nil

theorem owned_membersText (h : ChildrenOwned ns cs) : Owned ns (membersText l cs) := by
  unfold membersText
  split
  · exact owned_say _
  · refine Owned.braced fun p hp => ?_
    obtain ⟨c, hc, rfl⟩ := List.mem_map.mp hp
    exact (h c hc).expression l _

theorem owned_propertyText {key value : Child} {kind : PropertyKind}
    {computed shorthand method : Bool} (hkey : RolesOwned ns key.2) (hvalue : RolesOwned ns value.2) :
    Owned ns (propertyText key value kind computed shorthand method l) := by
  unfold propertyText
  split
  · exact hvalue.method _ _ l (owned_keyText hkey)
  split
  · exact hvalue.expression l _
  · dsimp only
    refine ((owned_keyText hkey).append (owned_say _)).append ?_
    split
    · exact hvalue.bare l
    · exact hvalue.expression l _

theorem owned_operandText {parent : BinaryOperator} {least : Nat} (h : RolesOwned ns c.2) :
    Owned ns (operandText parent l c least) :=
  .ite (h.expression l _).parenthesized (h.expression l _)

theorem owned_arrowBodyText {isExpression : Bool} (h : RolesOwned ns c.2) :
    Owned ns (arrowBodyText c isExpression l) :=
  .ite (owned_guarded h) (h.statement l)

theorem owned_bareText {kind : Kind Child} (h : ChildrenOwned ns kind.children) :
    Owned ns (bareText kind l) := by
  cases kind
  all_goals
    simp only [ChildrenOwned, Kind.children, List.forall_mem_append, List.forall_mem_cons] at h
    simp only [bareText]
  case templateLiteral => exact ((owned_say _).append (owned_templateText h)).append (owned_say _)
  case taggedTemplate => exact (h.1.expression l _).append (h.2.1.expression l _)
  case arrayExpression | arrayPattern => exact owned_elementsText h
  case objectExpression | objectPattern => exact owned_membersText h
  case property => exact owned_propertyText h.1 h.2.1
  case spreadElement | restElement => exact (owned_say _).append (h.1.expression l _)
  case functionExpression => exact owned_functionText h
  case arrowFunction =>
    exact (((Owned.sayIf _ _).append (owned_parameterList h.1)).append (owned_say _)).append
      (owned_arrowBodyText h.2.1)
  case classExpression => exact owned_classText h
  case unaryExpression => exact ((owned_say _).append (Owned.sayIf _ _)).append (h.1.expression l _)
  case updateExpression operator inFront argument =>
    cases inFront
    case false => exact (h.1.expression l _).append (owned_say _)
    case true => exact (owned_say _).append (h.1.expression l _)
  case binaryExpression =>
    exact ((owned_operandText h.1).append (owned_say _)).append (owned_operandText h.2.1)
  case assignmentExpression | assignmentPattern =>
    exact ((h.1.expression l _).append (owned_say _)).append (h.2.1.expression l _)
  case conditionalExpression =>
    exact ((((h.1.expression l _).append (owned_say _)).append (h.2.1.expression l _)).append
      (owned_say _)).append (h.2.2.1.expression l _)
  case callExpression =>
    exact ((h.1.1.expression l _).append (Owned.sayIf _ _)).append
      (owned_expressionList h.2).parenthesized
  case newExpression =>
    exact ((owned_say _).append
      (.ite (h.1.1.expression l _).parenthesized (h.1.1.expression l _))).append
        (owned_expressionList h.2).parenthesized
  case memberExpression =>
    exact ((Owned.ite (h.1.expression l _).parenthesized (h.1.expression l _)).append
      (owned_say _)).append
        (.ite ((h.2.1.expression l _).append (owned_say _)) (h.2.1.expression l _))
  case sequenceExpression => exact owned_expressionList h
  case yieldExpression argument delegate =>
    refine (owned_say _).append ?_
    cases argument
    case none => exact .nil
    case some c => exact (owned_say _).append ((h c (by simp)).expression l _)
  case awaitExpression => exact (owned_say _).append (h.1.expression l _)
  case importExpression => exact (owned_say _).append (h.1.expression l _).parenthesized
  case metaProperty word => cases word <;> exact owned_say _
  all_goals first | exact owned_say _ | exact .nil

/-! ### Statements -/

theorem owned_declarationText {kind : VariableKind} (h : ChildrenOwned ns cs) :
    Owned ns (declarationText kind cs l) := by
  refine (owned_say _).append (Owned.commaList fun p hp => ?_)
  obtain ⟨c, hc, rfl⟩ := List.mem_map.mp hp
  exact (h c hc).declarator l

theorem owned_ifText {test : Child} (ht : RolesOwned ns test.2) (hc : RolesOwned ns c.2)
    (ho : ChildrenOwned ns o.toList) : Owned ns (ifText test c o l) := by
  have hblock : Owned ns (if c.1.isBlock then nested l c else say " " ++ block l [c]) :=
    .ite (owned_nested hc) ((owned_say _).append (owned_block (by simpa [ChildrenOwned] using hc)))
  refine (((owned_say _).append (ht.expression l _)).append (owned_say _)).append ?_
  cases o with
  | none => exact owned_nested hc
  | some alternate =>
    have ha := ho alternate (by simp)
    refine (hblock.append (owned_say _)).append ?_
    split
    · exact (owned_say _).append (ha.statement l)
    · exact owned_nested ha

theorem owned_forPartText (h : ChildrenOwned ns o.toList) : Owned ns (forPartText o l) := by
  cases o with
  | none => exact .nil
  | some c => exact (owned_say _).append ((h c (by simp)).expression l _)

theorem owned_jumpText (word : Keyword) (label : Option String) : Owned ns (jumpText word label) := by
  cases label <;> exact owned_say _

theorem owned_tryText {handler finalizer : Option Child} (hc : RolesOwned ns c.2)
    (hh : ChildrenOwned ns handler.toList) (hf : ChildrenOwned ns finalizer.toList) :
    Owned ns (tryText c handler finalizer l) := by
  refine (((owned_say _).append (hc.statement l)).append ?_).append ?_
  · cases handler with
    | none => exact .nil
    | some d => exact (hh d (by simp)).handler l
  · cases finalizer with
    | none => exact .nil
    | some d => exact (owned_say _).append ((hf d (by simp)).statement l)

theorem owned_addClause {p q : Pieces} (hp : Owned ns p) (hq : Owned ns q) :
    Owned ns (addClause p q) :=
  .ite hq ((hp.append (owned_say _)).append hq)

theorem owned_addImportLead {p : Pieces} (hp : Owned ns p) (kind : Kind Node) :
    Owned ns (addImportLead p kind) := by
  unfold addImportLead
  split
  · exact hp.append (owned_say _)
  · exact owned_addClause hp (owned_say _)
  · exact hp

theorem owned_importText (cs : List Child) (source : String) : Owned ns (importText cs source) := by
  have hlead : ∀ (cs : List Child) (p : Pieces), Owned ns p →
      Owned ns (cs.foldl (fun p c => addImportLead p c.1.kind) p) := by
    intro cs
    induction cs with
    | nil => exact fun p hp => hp
    | cons c cs ih => exact fun p hp => ih _ (owned_addImportLead hp c.1.kind)
  have hnames : Owned ns (braced ((cs.filterMap fun c => importNameText c.1.kind).map say)) := by
    refine Owned.braced fun p hp => ?_
    obtain ⟨name, -, rfl⟩ := List.mem_map.mp hp
    exact owned_say name
  unfold importText
  refine (((owned_say _).append ?_).append (Owned.sayIf _ _)).append (owned_say _)
  split
  · exact hlead cs [] .nil
  · exact owned_addClause (hlead cs [] .nil) hnames

theorem owned_exportSpecifierText (kind : Kind Node) : Owned ns (exportSpecifierText kind) := by
  unfold exportSpecifierText
  split
  · exact (owned_say _).append (Owned.sayIf _ _)
  · exact .nil

theorem owned_exportListText (cs : List Child) (source : Option String) :
    Owned ns (exportListText cs source) := by
  unfold exportListText
  refine (Owned.append ?_ ?_).append (owned_say _)
  · split
    · exact owned_say _
    · refine Owned.braced fun p hp => ?_
      obtain ⟨c, -, rfl⟩ := List.mem_map.mp hp
      exact owned_exportSpecifierText c.1.kind
  · split
    · exact owned_say _
    · exact .nil

theorem owned_exportDefaultText (h : RolesOwned ns c.2) : Owned ns (exportDefaultText c l) := by
  refine (owned_say _).append ?_
  split
  · exact h.statement l
  · exact h.statement l
  · exact (owned_guarded h).append (owned_say _)

theorem owned_statementText {kind : Kind Child} {asExpression : Layout → Pieces}
    (h : ChildrenOwned ns kind.children) (he : ∀ l, Owned ns (asExpression l)) :
    Owned ns (statementText kind asExpression l) := by
  cases kind
  all_goals
    simp only [ChildrenOwned, Kind.children, List.forall_mem_append, List.forall_mem_cons] at h
    simp only [statementText]
  case variableDeclaration => exact (owned_declarationText h).append (owned_say _)
  case functionDeclaration => exact owned_functionText h
  case classDeclaration => exact owned_classText h
  case expressionStatement => exact (owned_guarded h.1).append (owned_say _)
  case blockStatement => exact owned_block h
  case emptyStatement | debuggerStatement => exact owned_say _
  case ifStatement => exact owned_ifText h.1.1 h.1.2.1 h.2
  case switchStatement =>
    repeat' first | exact owned_say _ | apply Owned.append
    · exact h.1.1.expression l _
    · exact Owned.flatMap fun c hc => (h.2 c hc).switchCase _
  case whileStatement =>
    exact (((owned_say _).append (h.1.expression l _)).append (owned_say _)).append (owned_nested h.2.1)
  case doWhileStatement =>
    repeat' first | exact owned_say _ | apply Owned.append
    · exact owned_nested h.1
    · exact .ite (owned_say _) ((owned_say _).append (owned_indentation l))
    · exact h.2.1.expression l _
  case forStatement init _ _ _ =>
    repeat' first | exact owned_say _ | apply Owned.append
    · cases init with
      | none => exact .nil
      | some c => exact (h.1.1.1 c (by simp)).loopHead _
    · exact owned_forPartText h.1.1.2
    · exact owned_forPartText h.1.2
    · exact owned_nested h.2.1
  case forInStatement =>
    repeat' first | exact owned_say _ | apply Owned.append
    · exact h.1.loopHead l
    · exact h.2.1.expression l _
    · exact owned_nested h.2.2.1
  case forOfStatement =>
    repeat' first | exact owned_say _ | apply Owned.append
    · exact h.1.loopHead l
    · exact h.2.1.expression l _
    · exact owned_nested h.2.2.1
  case returnStatement => exact ((owned_say _).append (owned_forPartText h)).append (owned_say _)
  case breakStatement | continueStatement => exact owned_jumpText _ _
  case throwStatement => exact ((owned_say _).append (h.1.expression l _)).append (owned_say _)
  case tryStatement => exact owned_tryText h.1.1.1 h.1.2 h.2
  case labeledStatement => exact (owned_say _).append (owned_nested h.1)
  case importDeclaration => exact owned_importText _ _
  case exportNamedDeclaration declaration specifiers source =>
    cases declaration with
    | none => exact (owned_say _).append (owned_exportListText specifiers source)
    | some c => exact (owned_say _).append ((h.1 c (by simp)).statement l)
  case exportDefaultDeclaration => exact owned_exportDefaultText h.1
  case exportAllDeclaration => exact owned_say _
  case removed => exact .nil
  all_goals exact (he l).append (owned_say _)

theorem owned_switchCaseText (ho : ChildrenOwned ns o.toList) (h : ChildrenOwned ns cs) :
    Owned ns (switchCaseText o cs l) := by
  refine ((owned_indentation l).append ?_).append (owned_lines h)
  cases o with
  | none => exact owned_say _
  | some c => exact ((owned_say _).append ((ho c (by simp)).expression l _)).append (owned_say _)

theorem owned_handlerText (ho : ChildrenOwned ns o.toList) (hc : RolesOwned ns c.2) :
    Owned ns (handlerText o c l) := by
  refine ((owned_say _).append ?_).append (hc.statement l)
  cases o with
  | none => exact .nil
  | some d => exact ((ho d (by simp)).expression l _).parenthesized.append (owned_say _)

theorem owned_classBodyText (h : ChildrenOwned ns cs) : Owned ns (classBodyText cs l) := by
  unfold classBodyText
  split
  · exact owned_say _
  · refine (((owned_say _).append ?_).append (owned_indentation l)).append (owned_say _)
    exact Owned.flatMap fun c hc =>
      ((owned_indentation _).append ((h c hc).member _)).append (owned_say _)

theorem owned_memberText {kind : Kind Child} (h : ChildrenOwned ns kind.children) :
    Owned ns (memberText kind l) := by
  cases kind
  all_goals
    simp only [ChildrenOwned, Kind.children, List.forall_mem_append, List.forall_mem_cons] at h
    simp only [memberText]
  case methodDefinition =>
    exact (Owned.sayIf _ _).append (h.2.1.method _ _ l (owned_keyText h.1))
  case propertyDefinition key value computed isStatic =>
    refine (((Owned.sayIf _ _).append (owned_keyText h.1.1)).append ?_).append (owned_say _)
    cases value with
    | none => exact .nil
    | some c => exact (owned_say _).append ((h.2 c (by simp)).expression l _)
  case staticBlock => exact (owned_say _).append (owned_block h)
  all_goals exact .nil

end

/-! ### All roles together -/

theorem Node.roles_eq (n : Node) :
    n.roles = Roles.ofKind n.span (n.kind.map fun c => (c, c.roles)) :=
  para_eq _ n

/-- The mark of a span is owned by the node whose print starts with it. -/
theorem owned_mark {n : Node} {ns : List Node} {p : Pieces} (hn : n ∈ ns)
    (hprints : n.Prints (mark n.span ++ p)) (hp : Owned ns p) : Owned ns (mark n.span ++ p) := by
  unfold Pieces.mark at hprints ⊢
  split
  · exact hp
  · rename_i hspan
    rw [if_neg hspan] at hprints
    intro front offset rest h
    cases front with
    | nil =>
      obtain ⟨hmark, rfl⟩ := List.cons.inj h
      obtain rfl := Piece.mark.inj hmark
      exact ⟨n, hn, by simpa using hspan, rfl, _, [], (List.append_nil _).symm, hprints⟩
    | cons piece front =>
      obtain ⟨-, h⟩ := List.cons.inj h
      exact hp front offset rest h

theorem owned_wrapped {ns : List Node} {kind : Kind Child} {bare : Layout → Pieces} {l : Layout}
    {least : Nat} (h : ∀ l, Owned ns (bare l)) : Owned ns (wrapped kind bare l least) :=
  Owned.ite (h _).parenthesized (h l)

/-- The roles of a node own their marks if those of its children do. -/
theorem rolesOwned_ofKind {ns : List Node} {n : Node} (hn : n ∈ ns)
    (h : ChildrenOwned ns (n.kind.map fun c => (c, c.roles)).children) : RolesOwned ns n.roles := by
  have hbare : ∀ l, Owned ns (n.roles.bare l) := by
    intro l
    have hprints := Node.Prints.bare (n := n) l
    rw [n.roles_eq] at hprints ⊢
    exact owned_mark hn hprints (owned_bareText h)
  have hexpression : ∀ l least, Owned ns (n.roles.expression l least) := by
    intro l least
    rw [n.roles_eq] at hbare ⊢
    exact owned_wrapped hbare
  refine ⟨?statement, hexpression, hbare, ?loopHead, ?declarator, ?switchCase, ?handler, ?classBody,
    ?member, ?method⟩
  case statement =>
    intro l
    have hprints := Node.Prints.statement (n := n) l
    rw [n.roles_eq] at hprints hexpression ⊢
    exact owned_mark hn hprints (owned_statementText h fun l => hexpression l _)
  case member =>
    intro l
    have hprints := Node.Prints.member (n := n) l
    rw [n.roles_eq] at hprints ⊢
    exact owned_mark hn hprints (owned_memberText h)
  all_goals
    rw [n.roles_eq] at hexpression ⊢
    generalize (n.kind.map fun c => (c, c.roles)) = kind at h hexpression
  case loopHead =>
    intro l
    cases kind
    case variableDeclaration => exact owned_declarationText h
    all_goals exact hexpression l _
  case declarator =>
    intro l
    cases kind
    case variableDeclarator target init =>
      simp only [ChildrenOwned, Kind.children, List.forall_mem_append, List.forall_mem_cons] at h
      cases init with
      | none => exact h.1.1.expression l _
      | some c =>
        exact ((h.1.1.expression l _).append (owned_say _)).append ((h.2 c (by simp)).expression l _)
    all_goals exact .nil
  case switchCase =>
    intro l
    cases kind
    case switchCase =>
      simp only [ChildrenOwned, Kind.children, List.forall_mem_append] at h
      exact owned_switchCaseText h.1 h.2
    all_goals exact .nil
  case handler =>
    intro l
    cases kind
    case catchClause =>
      simp only [ChildrenOwned, Kind.children, List.forall_mem_append, List.forall_mem_cons] at h
      exact owned_handlerText h.1 h.2.1
    all_goals exact .nil
  case classBody =>
    intro l
    cases kind
    case classBody => exact owned_classBodyText h
    all_goals exact owned_say _
  case method =>
    intro accessor key l hkey
    cases kind
    case functionExpression => exact owned_methodText h hkey
    all_goals exact .nil

/-- The marks of a printed node belong to the nodes of its tree, whatever the role. -/
theorem rolesOwned (n : Node) : ∀ {ns : List Node}, n.nodes ⊆ ns → RolesOwned ns n.roles := by
  induction n using Node.induct with
  | h n ih =>
    intro ns hsub
    refine rolesOwned_ofKind (hsub n.mem_nodes_self) ?_
    intro c hc
    rw [Kind.children_map, List.mem_map] at hc
    obtain ⟨child, hchild, rfl⟩ := hc
    exact ih child hchild fun m hm => hsub (Node.mem_nodes_of_child hchild hm)

/-- Every mark of a printed module is where one of its nodes is printed. -/
theorem owned_printed (root : Node) : Owned root.nodes root.printed := by
  unfold Node.printed
  split
  · rename_i body hbody
    refine owned_lines fun c hc => ?_
    obtain ⟨n, hn, rfl⟩ := List.mem_map.mp hc
    exact rolesOwned n fun m hm =>
      Node.mem_nodes_of_child (by rw [hbody]; exact hn) hm
  · exact .nil

/-- A node is printed from the mark of its span on. -/
theorem Node.Prints.starts {n : Node} {own : Pieces} (h : n.Prints own) :
    ∃ rest, own = mark n.span ++ rest := by
  cases h with
  | statement l | bare l | member l =>
    rw [n.roles_eq]
    exact ⟨_, rfl⟩

/-! ### Text behind marks -/

/-- Some text stands behind every mark. -/
def Followed (ps : Pieces) : Prop :=
  ∀ (front : Pieces) (offset : Nat) (rest : Pieces), ps = front ++ .mark offset :: rest →
    ∃ s, .text s ∈ rest ∧ s ≠ ""

theorem Followed.append {p q : Pieces} (hp : Followed p) (hq : Followed q) : Followed (p ++ q) := by
  intro front offset rest h
  rcases List.append_eq_append_iff.mp h with ⟨more, rfl, hrest⟩ | ⟨more, hfront, hq'⟩
  · exact hq more offset rest hrest
  · cases more with
    | nil => exact hq [] offset rest (by simpa using hq'.symm)
    | cons piece more =>
      obtain ⟨rfl, rfl⟩ := List.cons.inj hq'
      obtain ⟨s, hs, hne⟩ := hp front offset more hfront
      exact ⟨s, List.mem_append_left _ hs, hne⟩

theorem followed_say {s : String} (hs : s ≠ "") (p : Pieces) : Followed (p ++ say s) := by
  intro front offset rest h
  rcases List.append_eq_append_iff.mp h with ⟨more, -, hrest⟩ | ⟨more, -, hrest⟩
  · cases more <;> simp [say] at hrest
  · cases more with
    | nil => simp [say] at hrest
    | cons piece more =>
      obtain ⟨-, rfl⟩ := List.cons.inj hrest
      exact ⟨s, by simp [say], hs⟩

theorem followed_lines (l : Layout) (cs : List Child) : Followed (lines l cs) := by
  have hnil : Followed [] := by
    intro front offset rest h
    simp at h
  unfold lines
  induction cs with
  | nil => exact hnil
  | cons c cs ih =>
    rw [List.flatMap_cons]
    refine Followed.append ?_ ih
    dsimp only
    split
    · exact hnil
    · exact followed_say (by decide) _

/-- Behind each mark of a printed module there is text: its line has an end. -/
theorem followed_printed (root : Node) : Followed root.printed := by
  unfold Node.printed
  split
  · exact followed_lines _ _
  · intro front offset rest h
    simp at h

end EsModule.Syntax
