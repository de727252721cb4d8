import EsModule.Proofs.Scope.Declared

/-!
# The scope that a form of declaration demands

Which scope has to hold a declared name is told by the form of the declaration and by the nodes
above it: a variable declared by `var` belongs to the nearest function or static block, what is
declared for a block belongs to the nearest node with a scope that is no class, and parameters and
own names belong to the node itself. `Declares` says this form by form, and `declares_iff` that the
declarations which a node makes when it is visited are these and no others.
-/

namespace EsModule.Scope

open EsModule.Syntax

variable {root n : Node} {items as : List Node}

/-! ## Owners -/

/-- The node whose scope receives what `var` declares below some nodes: the nearest function or
static block, or else the root. -/
def varOwner (root : Node) (as : List Node) : Node :=
  ((scopeOwners as).find? (isFunctionParent ·.kind)).getD root

/-- The node whose scope receives what is declared for a block below some nodes: the nearest one
with a scope that is no class, or else the root. -/
def blockOwner (root : Node) (as : List Node) : Node :=
  ((scopeOwners as).find? (!isClass ·.kind)).getD root

/-- The node whose scope a place means for a node that stands below others. -/
def ownerAt (root n : Node) (as : List Node) : Place → Node
  | .innermost => (scopeOwners (n :: as)).headD root
  | .block => blockOwner root (n :: as)
  | .outerBlock => ((scopeOwners (n :: as)).tail.find? (!isClass ·.kind)).getD root
  | .function => varOwner root (n :: as)

theorem scopeOwners_of_opens (h : opensScope n as.head? = true) :
    scopeOwners (n :: as) = n :: scopeOwners as := by
  rw [scopeOwners, if_pos h]

theorem opensScope_of_kind {kind : Kind Node} {parent : Option Node} (hk : n.kind = kind)
    (h : opensScope (.mk n.id n.span kind) parent = true) : opensScope n parent = true := by
  subst hk
  rwa [n.eq_mk]

theorem scopeOwners_of_not_scopable (h : isScopable n.kind = false) :
    scopeOwners (n :: as) = scopeOwners as := by
  rw [scopeOwners, if_neg]
  unfold opensScope
  generalize n.kind = kind at h ⊢
  cases kind <;> simp_all [isScopable]

/-! ## The forms -/

/-- The identifier under which one name of an import is known. -/
def importedAs? (n : Node) : Option Node :=
  match n.kind with
  | .importSpecifier _ name | .importDefaultSpecifier name | .importNamespaceSpecifier name =>
    some name
  | _ => none

/-- Whether a node of a tree declares a name for the scope of an owner: with which kind of binding,
and by the node of which number. -/
inductive Declares (root n : Node) : Node → BindingKind → String → Nat → Prop where
  | varName {as declarators d target init i x} (hn : root.Ancestors n as)
      (hk : n.kind = .variableDeclaration .varKind declarators) (hd : d ∈ declarators)
      (ht : d.kind = .variableDeclarator target init) (hi : target.Leads i)
      (hx : i.name? = some x) : Declares root n (varOwner root as) .varBinding x d.id
  | letName {as declarators d target init i x} (hn : root.Ancestors n as)
      (hk : n.kind = .variableDeclaration .letKind declarators) (hd : d ∈ declarators)
      (ht : d.kind = .variableDeclarator target init) (hi : target.Leads i)
      (hx : i.name? = some x) : Declares root n (blockOwner root as) .letBinding x d.id
  | constName {as declarators d target init i x} (hn : root.Ancestors n as)
      (hk : n.kind = .variableDeclaration .constKind declarators) (hd : d ∈ declarators)
      (ht : d.kind = .variableDeclarator target init) (hi : target.Leads i)
      (hx : i.name? = some x) : Declares root n (blockOwner root as) .constBinding x d.id
  | functionName {as f i x} (hn : root.Ancestors n as) (hk : n.kind = .functionDeclaration f)
      (hi : f.name = some i) (hx : i.name? = some x) :
      Declares root n (blockOwner root as) .hoisted x n.id
  | className {as c i x} (hn : root.Ancestors n as) (hk : n.kind = .classDeclaration c)
      (hi : c.name = some i) (hx : i.name? = some x) :
      Declares root n (blockOwner root as) .letBinding x n.id
  | importName {specifiers source s i x} (hn : n ∈ root.nodes)
      (hk : n.kind = .importDeclaration specifiers source) (hs : s ∈ specifiers)
      (hi : importedAs? s = some i) (hx : i.name? = some x) : Declares root n root .imported x s.id
  | parameter {p i x} (hn : n ∈ root.nodes) (hp : p ∈ n.parameters) (hi : p.Leads i)
      (hx : i.name? = some x) : Declares root n n .param x i.id
  | caught {target body i x} (hn : n ∈ root.nodes) (hk : n.kind = .catchClause (some target) body)
      (hi : target.Leads i) (hx : i.name? = some x) : Declares root n n .letBinding x n.id
  | ownFunctionName {f i x} (hn : n ∈ root.nodes) (hk : n.kind = .functionExpression f)
      (hi : f.name = some i) (hx : i.name? = some x) : Declares root n n .ownName x n.id
  | ownClassName {c i x} (hn : n ∈ root.nodes) (hk : n.kind = .classExpression c)
      (hi : c.name = some i) (hx : i.name? = some x) : Declares root n n .ownName x n.id

theorem Declares.mem_nodes {owner : Node} {kind : BindingKind} {x : String} {j : Nat}
    (h : Declares root n owner kind x j) : n ∈ root.nodes := by
  cases h <;> first | assumption | exact Node.Ancestors.mem_nodes ‹_›

/-! ## What a node declares -/

theorem mem_declareAll {place : Place} {kind : BindingKind} {ns : List Node} {d : Declaration} :
    d ∈ declareAll place kind n ns ↔
      ∃ i ∈ ns, ∃ x, i.name? = some x ∧ d = ⟨place, kind, x, n.id⟩ := by
  simp only [declareAll, List.mem_filterMap, Option.map_eq_some_iff]
  simp only [eq_comm]

theorem mem_paramNames {params : List Node} {d : Declaration} :
    d ∈ paramNames params ↔ ∃ p ∈ params, ∃ i ∈ p.boundIdentifiers, ∃ x, i.name? = some x ∧
      d = ⟨.innermost, .param, x, i.id⟩ := by
  simp only [paramNames, List.mem_filterMap, List.mem_flatMap, Option.map_eq_some_iff]
  constructor
  · rintro ⟨i, ⟨p, hp, hi⟩, x, hx, rfl⟩
    exact ⟨p, hp, i, hi, x, hx, rfl⟩
  · rintro ⟨p, hp, i, hi, x, hx, rfl⟩
    exact ⟨i, ⟨p, hp, hi⟩, x, hx, rfl⟩

/-- A declared target binds the identifiers to which its patterns lead. -/
theorem mem_boundIdentifiers_iff (ht : ModuleTree root items) (hn : n ∈ root.nodes) {top i : Node}
    (htop : top ∈ declaredTargets n) (hi : i.name?.isSome = true) :
    i ∈ top.boundIdentifiers ↔ top.Leads i := by
  refine ⟨leads_declaredTargets ht hn top htop i, fun hleads => ?_⟩
  have hobject := (passesOn_of_mem_declaredTargets htop).2.2
  exact mem_boundIdentifiers_of_leads ht hn (declaredTargets_subset n htop) hobject hleads hi

/-- A single variable has a target, and binds the identifiers to which the patterns of it lead. -/
theorem exists_target (ht : ModuleTree root items) (hn : n ∈ root.nodes) {d : Node}
    (hd : d ∈ declaratorsOf n) : ∃ target init, d.kind = .variableDeclarator target init ∧
      ∀ i : Node, i.name?.isSome = true → (i ∈ d.boundIdentifiers ↔ target.Leads i) := by
  have hdeclarator := isDeclarator_of_mem ht hn d hd
  have hchild : d ∈ n.kind.children := by
    unfold declaratorsOf at hd
    split at hd
    · rename_i hk
      rw [hk]
      exact hd
    · cases hd
  have hdn := Node.mem_nodes_below hn hchild
  obtain ⟨id, span, kind⟩ := d
  unfold isDeclarator at hdeclarator
  cases kind
  case variableDeclarator target init =>
    refine ⟨target, init, rfl, fun i hi => ?_⟩
    exact mem_boundIdentifiers_iff ht hdn (List.mem_singleton_self target) hi
  all_goals cases hdeclarator

/-- Imports and exports stand right below the root. -/
theorem above_of_isTop (ht : ModuleTree root items) (hn : root.Ancestors n as)
    (htop : n.isTop = true) : n = root ∨ as = [root] := by
  rcases hn.parent with ⟨rfl, -⟩ | ⟨p, bs, rfl, hp, hc⟩
  · exact .inl rfl
  · rcases ht.inside hp.mem_nodes hc with ⟨rfl, -⟩ | hinside
    · rcases hp.parent with ⟨-, rfl⟩ | ⟨q, _, rfl, hq, hr⟩
      · exact .inr rfl
      · exact absurd hr (Node.root_not_child hq.mem_nodes)
    · cases hinside.isTop.symm.trans htop

theorem importedName?_eq_bind (s : Node) : importedName? s =
    (importedAs? s).bind fun i => i.name?.map fun x => ⟨.block, .imported, x, s.id⟩ := by
  unfold importedName? importedAs?
  obtain ⟨id, span, kind⟩ := s
  cases kind <;> rfl

/-! ## The places of declarations -/

theorem ownerAt_of_opens (h : opensScope n as.head? = true) :
    ownerAt root n as .innermost = n ∧ ownerAt root n as .outerBlock = blockOwner root as := by
  simp [ownerAt, scopeOwners_of_opens h, blockOwner]

theorem ownerAt_of_not_scopable (h : isScopable n.kind = false) :
    ownerAt root n as .function = varOwner root as ∧
      ownerAt root n as .block = blockOwner root as := by
  simp [ownerAt, varOwner, blockOwner, scopeOwners_of_not_scopable h]

/-- An import declares its names for the root. -/
theorem ownerAt_import (ht : ModuleTree root items) (hn : root.Ancestors n as)
    {specifiers : List Node} {source : String} (hk : n.kind = .importDeclaration specifiers source) :
    ownerAt root n as .block = root := by
  have has : as = [root] := (above_of_isTop ht hn (by rw [Node.isTop, hk])).resolve_left <| by
    rintro rfl
    cases hk.symm.trans ht.kind
  have hopens : opensScope root none = true := opensScope_of_kind ht.kind rfl
  rw [(ownerAt_of_not_scopable (by rw [hk]; rfl)).2, has]
  simp [blockOwner, scopeOwners, hopens, ht.kind, isClass]

theorem of_mem_declareAll {place : Place} {kind : BindingKind} {ns : List Node} {d : Declaration}
    (h : d ∈ declareAll place kind n ns) : d.place = place ∧ d.kind = kind ∧ d.node = n.id := by
  obtain ⟨i, -, x, -, rfl⟩ := mem_declareAll.mp h
  exact ⟨rfl, rfl, rfl⟩

theorem of_mem_paramNames {params : List Node} {d : Declaration} (h : d ∈ paramNames params) :
    d.place = .innermost ∧ d.kind = .param := by
  obtain ⟨p, -, i, -, x, -, rfl⟩ := mem_paramNames.mp h
  exact ⟨rfl, rfl⟩

theorem of_importedName? {s : Node} {d : Declaration} (h : importedName? s = some d) :
    d.place = .block ∧ d.kind = .imported := by
  rw [(importedName?_eq_some h).1]
  exact ⟨rfl, rfl⟩

/-- Declarations of one kind that a node makes are for one scope. -/
theorem place_unique {d d' : Declaration} (hd : d ∈ declarations n) (hd' : d' ∈ declarations n)
    (hkind : d.kind = d'.kind) : d.place = d'.place := by
  unfold declarations at hd hd'
  generalize n.kind = kind at hd hd'
  cases kind
  all_goals simp only [List.not_mem_nil, List.mem_append, List.mem_flatMap, List.mem_filterMap]
    at hd hd'
  all_goals grind [→ of_mem_declareAll, → of_mem_paramNames, → of_importedName?]

/-- Parameters are declared by functions, for themselves. -/
theorem isFunction_of_param {d : Declaration} (hd : d ∈ declarations n) (hkind : d.kind = .param) :
    isFunction n.kind = true ∧ d.place = .innermost := by
  have hwords : ∀ word, (variableBinding word).2 ≠ .param := by
    rintro (_ | _ | _) <;> nofun
  unfold declarations at hd
  unfold isFunction
  generalize n.kind = kind at hd
  cases kind
  all_goals simp only [List.not_mem_nil, List.mem_append, List.mem_flatMap, List.mem_filterMap] at hd
  all_goals grind [→ of_mem_declareAll, → of_mem_paramNames, → of_importedName?]

theorem not_isDeclarator_of_name? {x : String} (h : n.name? = some x) : isDeclarator n = false := by
  unfold Node.name? at h
  unfold isDeclarator
  generalize n.kind = kind at h
  cases kind <;> first | rfl | cases h

theorem not_isDeclarator_of_isSpecifier (h : n.isSpecifier = true) : isDeclarator n = false := by
  unfold Node.isSpecifier at h
  unfold isDeclarator
  generalize n.kind = kind at h
  cases kind <;> first | rfl | cases h

/-- Whether a node is the one that a declaration which another node makes is for. -/
structure DeclaredFor (n : Node) (d : Declaration) (k : Node) : Prop where
  /-- It is the node that makes the declaration or stands below it. -/
  inside : k ∈ n.nodes
  /-- It has the number that the declaration holds. -/
  id : k.id = d.node
  /-- If it is a single variable, the statement that it belongs to declares it by its word. -/
  word : isDeclarator k = true → k ∈ n.kind.children ∧ ∃ word declarators,
    n.kind = .variableDeclaration word declarators ∧ d.kind = (variableBinding word).2

theorem DeclaredFor.of_not_isDeclarator {d : Declaration} {k : Node} (hk : k ∈ n.nodes)
    (hid : k.id = d.node) (hplain : isDeclarator k = false) : DeclaredFor n d k :=
  ⟨hk, hid, fun h => absurd h (Bool.eq_false_iff.mp hplain)⟩

/-- Each declaration is for a node. -/
theorem exists_declaredFor {d : Declaration} (hd : d ∈ declarations n) : ∃ k, DeclaredFor n d k := by
  have hself : isDeclarator n = false → ∀ {place kind ns}, d ∈ declareAll place kind n ns →
      ∃ k, DeclaredFor n d k := fun hplain _ _ _ hmem =>
    ⟨n, .of_not_isDeclarator n.mem_nodes_self (of_mem_declareAll hmem).2.2.symm hplain⟩
  have hparams : ∀ {params}, params ⊆ n.kind.children → d ∈ paramNames params →
      ∃ k, DeclaredFor n d k := by
    intro params hsub hmem
    obtain ⟨p, hp, i, hi, x, hx, rfl⟩ := mem_paramNames.mp hmem
    have hin := Node.mem_nodes_of_child (hsub hp) (mem_nodes_of_mem_boundIdentifiers hi)
    exact ⟨i, .of_not_isDeclarator hin rfl (not_isDeclarator_of_name? hx)⟩
  have hd' := hd
  unfold declarations at hd'
  split at hd'
  · -- an import
    rename_i specifiers source hk
    obtain ⟨s, hs, hname⟩ := List.mem_filterMap.mp hd'
    obtain ⟨heq, hspecifier, -⟩ := importedName?_eq_some hname
    have hchild : s ∈ n.kind.children := by
      rw [hk]
      exact hs
    have hin := Node.mem_nodes_of_child hchild s.mem_nodes_self
    exact ⟨s, .of_not_isDeclarator hin (by rw [heq]) (not_isDeclarator_of_isSpecifier hspecifier)⟩
  · -- a catch clause
    rename_i hk
    exact hself (by rw [isDeclarator, hk]) hd'
  · -- variables
    rename_i word declarators hk
    obtain ⟨v, hv, hmem⟩ := List.mem_flatMap.mp hd'
    obtain ⟨-, hkind, hnode⟩ := of_mem_declareAll hmem
    have hchild : v ∈ n.kind.children := by
      rw [hk]
      exact hv
    exact ⟨v, Node.mem_nodes_of_child hchild v.mem_nodes_self, hnode.symm,
      fun _ => ⟨hchild, word, declarators, hk, hkind⟩⟩
  · -- a function as a statement
    rename_i f hk
    rcases List.mem_append.mp hd' with hmem | hmem
    · exact hparams (hk ▸ fun p hp => List.mem_append_left _ (List.mem_append_right _ hp)) hmem
    · exact hself (by rw [isDeclarator, hk]) hmem
  · -- a function as an expression
    rename_i f hk
    rcases List.mem_append.mp hd' with hmem | hmem
    · exact hparams (hk ▸ fun p hp => List.mem_append_left _ (List.mem_append_right _ hp)) hmem
    · exact hself (by rw [isDeclarator, hk]) hmem
  · -- a function with an arrow
    rename_i params body isExpression isAsync hk
    exact hparams (hk ▸ fun p hp => List.mem_append_left _ hp) hd'
  · -- a class as a statement
    rename_i hk
    exact hself (by rw [isDeclarator, hk]) hd'
  · -- a class as an expression
    rename_i hk
    exact hself (by rw [isDeclarator, hk]) hd'
  · cases hd'

/-- What a single variable declares is declared by the word of its statement. -/
theorem kind_of_declarator (hd : root.Distinct) (hn : n ∈ root.nodes) {word : VariableKind}
    {declarators : List Node} (hk : n.kind = .variableDeclaration word declarators) {v m : Node}
    (hv : v ∈ declarators) (hvariable : isDeclarator v = true) (hm : m ∈ root.nodes)
    {d : Declaration} (hdeclared : d ∈ declarations m) (hnode : d.node = v.id) :
    d.kind = (variableBinding word).2 := by
  have hchild : v ∈ n.kind.children := by
    rw [hk]
    exact hv
  obtain ⟨k, hfor⟩ := exists_declaredFor hdeclared
  obtain rfl := hd.eq_of_id (Node.mem_nodes_trans hfor.inside hm) (Node.mem_nodes_below hn hchild)
    (hfor.id.trans hnode)
  obtain ⟨hchild', word', declarators', hk', hkind⟩ := hfor.word hvariable
  obtain rfl := hd.parent_unique hn hm hchild hchild'
  obtain ⟨rfl, -⟩ := Kind.variableDeclaration.inj (hk.symm.trans hk')
  exact hkind

/-! ## The declarations of each form -/

variable {d : Declaration}

theorem mem_declarations_of_variables (ht : ModuleTree root items) (hn : n ∈ root.nodes)
    {word : VariableKind} {declarators : List Node}
    (hk : n.kind = .variableDeclaration word declarators) : d ∈ declarations n ↔
      ∃ v ∈ declarators, ∃ target init i x, v.kind = .variableDeclarator target init ∧
        target.Leads i ∧ i.name? = some x ∧
          d = ⟨(variableBinding word).1, (variableBinding word).2, x, v.id⟩ := by
  rw [declarations, hk]
  simp only [List.mem_flatMap, mem_declareAll]
  refine exists_congr fun v => and_congr_right fun hv => ?_
  obtain ⟨target, init, hkind, hleads⟩ := exists_target ht hn (by rw [declaratorsOf, hk]; exact hv)
  constructor
  · rintro ⟨i, hi, x, hx, rfl⟩
    exact ⟨target, init, i, x, hkind, (hleads i (by rw [hx]; rfl)).mp hi, hx, rfl⟩
  · rintro ⟨_, _, i, x, hkind', hi, hx, rfl⟩
    obtain ⟨rfl, rfl⟩ := Kind.variableDeclarator.inj (hkind'.symm.trans hkind)
    exact ⟨i, (hleads i (by rw [hx]; rfl)).mpr hi, x, hx, rfl⟩

theorem mem_declareAll_target (ht : ModuleTree root items) (hn : n ∈ root.nodes) {target : Node}
    (htarget : target ∈ declaredTargets n) {place : Place} {kind : BindingKind} :
    d ∈ declareAll place kind n target.boundIdentifiers ↔
      ∃ i x, target.Leads i ∧ i.name? = some x ∧ d = ⟨place, kind, x, n.id⟩ := by
  rw [mem_declareAll]
  refine exists_congr fun i => ⟨?_, ?_⟩
  · rintro ⟨hi, x, hx, rfl⟩
    exact ⟨x, (mem_boundIdentifiers_iff ht hn htarget (by rw [hx]; rfl)).mp hi, hx, rfl⟩
  · rintro ⟨x, hi, hx, rfl⟩
    exact ⟨(mem_boundIdentifiers_iff ht hn htarget (by rw [hx]; rfl)).mpr hi, x, hx, rfl⟩

theorem mem_paramNames_iff (ht : ModuleTree root items) (hn : n ∈ root.nodes) {params : List Node}
    (hparams : params ⊆ declaredTargets n) : d ∈ paramNames params ↔
      ∃ p ∈ params, ∃ i x, p.Leads i ∧ i.name? = some x ∧ d = ⟨.innermost, .param, x, i.id⟩ := by
  rw [mem_paramNames]
  refine exists_congr fun p => and_congr_right fun hp => exists_congr fun i => ⟨?_, ?_⟩
  · rintro ⟨hi, x, hx, rfl⟩
    exact ⟨x, (mem_boundIdentifiers_iff ht hn (hparams hp) (by rw [hx]; rfl)).mp hi, hx, rfl⟩
  · rintro ⟨x, hi, hx, rfl⟩
    exact ⟨(mem_boundIdentifiers_iff ht hn (hparams hp) (by rw [hx]; rfl)).mpr hi, x, hx, rfl⟩

theorem parameters_subset (n : Node) :
    n.parameters ⊆ declaredTargets n ∧ paramNames n.parameters ⊆ declarations n := by
  unfold Node.parameters declaredTargets declarations
  generalize n.kind = kind
  cases kind <;> simp [paramNames]

/-- What a node declares by its form it declares when it is visited. -/
theorem Declares.mem_declarations {owner : Node} {kind : BindingKind} {x : String} {j : Nat}
    (h : Declares root n owner kind x j) (ht : ModuleTree root items) (hn : root.Ancestors n as) :
    ∃ place, ⟨place, kind, x, j⟩ ∈ declarations n ∧ owner = ownerAt root n as place := by
  cases h with
  | varName hn' hk hd hv hi hx =>
    obtain rfl := hn'.unique ht.distinct hn
    refine ⟨.function, (mem_declarations_of_variables ht hn.mem_nodes hk).mpr
      ⟨_, hd, _, _, _, _, hv, hi, hx, rfl⟩, ?_⟩
    exact (ownerAt_of_not_scopable (by rw [hk]; rfl)).1.symm
  | letName hn' hk hd hv hi hx =>
    obtain rfl := hn'.unique ht.distinct hn
    refine ⟨.block, (mem_declarations_of_variables ht hn.mem_nodes hk).mpr
      ⟨_, hd, _, _, _, _, hv, hi, hx, rfl⟩, ?_⟩
    exact (ownerAt_of_not_scopable (by rw [hk]; rfl)).2.symm
  | constName hn' hk hd hv hi hx =>
    obtain rfl := hn'.unique ht.distinct hn
    refine ⟨.block, (mem_declarations_of_variables ht hn.mem_nodes hk).mpr
      ⟨_, hd, _, _, _, _, hv, hi, hx, rfl⟩, ?_⟩
    exact (ownerAt_of_not_scopable (by rw [hk]; rfl)).2.symm
  | functionName hn' hk hi hx =>
    obtain rfl := hn'.unique ht.distinct hn
    refine ⟨.outerBlock, ?_, (ownerAt_of_opens (opensScope_of_kind hk rfl)).2.symm⟩
    rw [declarations, hk]
    exact List.mem_append_right _ (mem_declareAll.mpr ⟨_, by simp [hi], _, hx, rfl⟩)
  | className hn' hk hi hx =>
    obtain rfl := hn'.unique ht.distinct hn
    refine ⟨.outerBlock, ?_, (ownerAt_of_opens (opensScope_of_kind hk rfl)).2.symm⟩
    rw [declarations, hk]
    exact mem_declareAll.mpr ⟨_, by simp [hi], _, hx, rfl⟩
  | importName _ hk hs hi hx =>
    refine ⟨.block, ?_, ?_⟩
    · rw [declarations, hk]
      exact List.mem_filterMap.mpr ⟨_, hs, by rw [importedName?_eq_bind, hi]; simp [hx]⟩
    · exact (ownerAt_import ht hn hk).symm
  | parameter _ hp hi hx =>
    have hf : isFunction n.kind = true := by
      by_contra hf
      rw [parameters_of_not_function (by simpa using hf)] at hp
      cases hp
    obtain ⟨htargets, hdeclared⟩ := parameters_subset n
    refine ⟨.innermost, hdeclared ?_, (ownerAt_of_opens (opensScope_of_isFunction hf)).1.symm⟩
    exact (mem_paramNames_iff ht hn.mem_nodes htargets).mpr ⟨_, hp, _, _, hi, hx, rfl⟩
  | caught _ hk hi hx =>
    refine ⟨.innermost, ?_, (ownerAt_of_opens (opensScope_of_kind hk rfl)).1.symm⟩
    rw [declarations, hk]
    exact (mem_declareAll_target ht hn.mem_nodes (by simp [declaredTargets, hk])).mpr
      ⟨_, _, hi, hx, rfl⟩
  | ownFunctionName _ hk hi hx =>
    refine ⟨.innermost, ?_, (ownerAt_of_opens (opensScope_of_kind hk rfl)).1.symm⟩
    rw [declarations, hk]
    exact List.mem_append_right _ (mem_declareAll.mpr ⟨_, by simp [hi], _, hx, rfl⟩)
  | ownClassName _ hk hi hx =>
    refine ⟨.innermost, ?_, (ownerAt_of_opens (opensScope_of_kind hk rfl)).1.symm⟩
    rw [declarations, hk]
    exact mem_declareAll.mpr ⟨_, by simp [hi], _, hx, rfl⟩

/-- What a function declares by its parameter list. -/
theorem declares_of_paramNames (ht : ModuleTree root items) (hn : root.Ancestors n as)
    (hf : isFunction n.kind = true) (hd : d ∈ paramNames n.parameters) :
    Declares root n (ownerAt root n as d.place) d.kind d.name d.node := by
  obtain ⟨p, hp, i, x, hi, hx, rfl⟩ :=
    (mem_paramNames_iff ht hn.mem_nodes (parameters_subset n).1).mp hd
  rw [(ownerAt_of_opens (opensScope_of_isFunction hf)).1]
  exact .parameter hn.mem_nodes hp hi hx

/-- What a node declares when it is visited it declares by its form. -/
theorem declares_of_mem (ht : ModuleTree root items) (hn : root.Ancestors n as)
    (hd : d ∈ declarations n) :
    Declares root n (ownerAt root n as d.place) d.kind d.name d.node := by
  have hparams : ∀ {kind}, n.kind = kind → isFunction kind = true → ∀ {params},
      n.parameters = params → d ∈ paramNames params →
        Declares root n (ownerAt root n as d.place) d.kind d.name d.node := by
    rintro _ rfl hf _ rfl hd
    exact declares_of_paramNames ht hn hf hd
  have hd' := hd
  unfold declarations at hd'
  split at hd'
  · -- an import
    rename_i specifiers source hk
    obtain ⟨s, hs, hd'⟩ := List.mem_filterMap.mp hd'
    rw [importedName?_eq_bind, Option.bind_eq_some_iff] at hd'
    obtain ⟨i, hi, hd'⟩ := hd'
    obtain ⟨x, hx, rfl⟩ := Option.map_eq_some_iff.mp hd'
    rw [ownerAt_import ht hn hk]
    exact .importName hn.mem_nodes hk hs hi hx
  · -- a catch clause
    rename_i target body hk
    obtain ⟨i, x, hi, hx, rfl⟩ :=
      (mem_declareAll_target ht hn.mem_nodes (by simp [declaredTargets, hk])).mp hd'
    rw [(ownerAt_of_opens (opensScope_of_kind hk rfl)).1]
    exact .caught hn.mem_nodes hk hi hx
  · -- variables
    rename_i word declarators hk
    obtain ⟨v, hv, target, init, i, x, hvk, hi, hx, rfl⟩ :=
      (mem_declarations_of_variables ht hn.mem_nodes hk).mp hd
    obtain ⟨hvar, hblock⟩ : ownerAt root n as .function = varOwner root as ∧
        ownerAt root n as .block = blockOwner root as :=
      ownerAt_of_not_scopable (by rw [hk]; rfl)
    cases word with
    | varKind => exact hvar ▸ .varName hn hk hv hvk hi hx
    | letKind => exact hblock ▸ .letName hn hk hv hvk hi hx
    | constKind => exact hblock ▸ .constName hn hk hv hvk hi hx
  · -- a function as a statement
    rename_i f hk
    rcases List.mem_append.mp hd' with hd' | hd'
    · exact hparams hk rfl (by rw [Node.parameters, hk]) hd'
    · obtain ⟨i, hi, x, hx, rfl⟩ := mem_declareAll.mp hd'
      rw [(ownerAt_of_opens (opensScope_of_kind hk rfl)).2]
      exact .functionName hn hk (Option.mem_toList.mp hi) hx
  · -- a function as an expression
    rename_i f hk
    rcases List.mem_append.mp hd' with hd' | hd'
    · exact hparams hk rfl (by rw [Node.parameters, hk]) hd'
    · obtain ⟨i, hi, x, hx, rfl⟩ := mem_declareAll.mp hd'
      rw [(ownerAt_of_opens (opensScope_of_kind hk rfl)).1]
      exact .ownFunctionName hn.mem_nodes hk (Option.mem_toList.mp hi) hx
  · -- a function with an arrow
    rename_i params body isExpression isAsync hk
    exact hparams hk rfl (by rw [Node.parameters, hk]) hd'
  · -- a class as a statement
    rename_i c hk
    obtain ⟨i, hi, x, hx, rfl⟩ := mem_declareAll.mp hd'
    rw [(ownerAt_of_opens (opensScope_of_kind hk rfl)).2]
    exact .className hn hk (Option.mem_toList.mp hi) hx
  · -- a class as an expression
    rename_i c hk
    obtain ⟨i, hi, x, hx, rfl⟩ := mem_declareAll.mp hd'
    rw [(ownerAt_of_opens (opensScope_of_kind hk rfl)).1]
    exact .ownClassName hn.mem_nodes hk (Option.mem_toList.mp hi) hx
  · cases hd'

/-- A node makes a declaration for the scope of an owner if its form demands it. -/
theorem declares_iff (ht : ModuleTree root items) (hn : root.Ancestors n as)
    (hd : d ∈ declarations n) {owner : Node} :
    Declares root n owner d.kind d.name d.node ↔ owner = ownerAt root n as d.place := by
  constructor
  · intro h
    obtain ⟨place, hplace, rfl⟩ := h.mem_declarations ht hn
    exact congrArg _ (place_unique hplace hd rfl)
  · rintro rfl
    exact declares_of_mem ht hn hd

end EsModule.Scope
