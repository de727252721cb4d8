import EsModule.Proofs.Scope.Mirror

/-!
# What a module declares

Every declared name is spelled by an identifier of the tree, and every declaration is made by a node
of the tree (`Declaration.Sound`). Imports are declared by the names of the imports among the items,
so they are names of the program's scope (`exists_importedName`).
-/

namespace EsModule.Scope

open EsModule.Syntax

variable {root n i : Node} {items : List Node}

/-! ## Variables -/

/-- Whether a node is a single variable of a declaration. -/
def isDeclarator (n : Node) : Bool :=
  match n.kind with
  | .variableDeclarator .. => true
  | _ => false

/-- The variables of a declaration. -/
def declaratorsOf (n : Node) : List Node :=
  match n.kind with
  | .variableDeclaration _ ds => ds
  | _ => []

theorem isDeclarator_of_derives {y : Bool} {nt : Nonterminal} (h : Derives y nt n) :
    ∀ d ∈ declaratorsOf n, isDeclarator d = true := by
  have hdeclarator : ∀ {y d}, Derives y .declarator d → isDeclarator d = true := by
    intro y d h
    cases h
    rfl
  induction h with
  | «variables» hne h => exact fun d hd => hdeclarator (h d hd)
  | _ => first | assumption | exact fun _ hd => absurd hd List.not_mem_nil

theorem isDeclarator_of_mem (h : ModuleTree root items) (hn : n ∈ root.nodes) :
    ∀ d ∈ declaratorsOf n, isDeclarator d = true := by
  refine h.of_derives (P := fun n => ∀ d ∈ declaratorsOf n, isDeclarator d = true)
    (fun y nt n h => isDeclarator_of_derives h) (fun n hother => ?_) hn
  unfold declaratorsOf
  rcases hother with hk | hname | hremoved
  · rw [hk]
    nofun
  · unfold Node.name? at hname
    split at hname
    · rename_i hk
      rw [hk]
      nofun
    · cases hname
  · rw [n.kind_of_isRemoved hremoved]
    nofun

/-- What a single variable binds is what the declaration declares. -/
theorem boundIdentifiers_subset_declaredIdentifiers {d : Node} (h : ModuleTree root items)
    (hn : n ∈ root.nodes) (hd : d ∈ declaratorsOf n) :
    d.boundIdentifiers ⊆ declaredIdentifiers n := by
  intro i hi
  have hdeclarator := isDeclarator_of_mem h hn d hd
  have hdeclarers : declarers n = declaratorsOf n := by
    obtain ⟨id, span, kind⟩ := n
    cases kind
    case variableDeclaration => rfl
    all_goals cases hd
  rw [declaredIdentifiers, hdeclarers]
  refine List.mem_flatMap.mpr ⟨d, hd, ?_⟩
  obtain ⟨id, span, kind⟩ := d
  unfold isDeclarator at hdeclarator
  cases kind
  case variableDeclarator target init =>
    have htarget : i ∈ targetsOf (.mk id span (.variableDeclarator target init)) :=
      target_eq _ ▸ hi
    exact List.mem_flatMap.mpr ⟨target, List.mem_singleton_self _, htarget⟩
  all_goals cases hdeclarator

/-! ## Declarations -/

/-- Whether a declaration is made by a node of a tree, under the name of an identifier of it. -/
structure Declaration.Sound (root : Node) (d : Declaration) : Prop where
  /-- It declares an import if it is made by a name of an import. -/
  node : ∃ k ∈ root.nodes, k.id = d.node ∧ (d.kind = .imported ↔ k.isSpecifier = true)
  /-- The identifier that spells its name. -/
  name : ∃ k ∈ root.nodes, k.name? = some d.name

theorem isSpecifier_of_name? (h : n.name?.isSome = true) : n.isSpecifier = false := by
  unfold Node.name? at h
  unfold Node.isSpecifier
  generalize n.kind = kind at h
  cases kind <;> first | rfl | cases h

theorem sound_of_declareAll {place : Place} {kind : BindingKind} {ns : List Node} {d : Declaration}
    (hd : d ∈ declareAll place kind n ns) (hn : n ∈ root.nodes) (hns : ns ⊆ root.nodes)
    (hkind : kind ≠ .imported) (hspecifier : n.isSpecifier = false) : d.Sound root := by
  rw [declareAll_eq] at hd
  obtain ⟨⟨j, x⟩, hq, rfl⟩ := List.mem_map.mp hd
  obtain ⟨i, hi, -, hx⟩ := mem_named.mp hq
  exact ⟨⟨n, hn, rfl, by simp [hkind, hspecifier]⟩, ⟨i, hns hi, hx⟩⟩

theorem sound_of_paramNames {params : List Node} {d : Declaration} (hps : params ⊆ root.nodes)
    (hd : d ∈ paramNames params) : d.Sound root := by
  rw [paramNames_eq] at hd
  obtain ⟨⟨j, x⟩, hq, rfl⟩ := List.mem_map.mp hd
  obtain ⟨i, hi, rfl, hx⟩ := mem_named.mp hq
  obtain ⟨p, hp, hi⟩ := List.mem_flatMap.mp hi
  have hroot := Node.mem_nodes_trans (mem_nodes_of_mem_boundIdentifiers hi) (hps hp)
  exact ⟨⟨i, hroot, rfl, by simp [isSpecifier_of_name? (n := i) (by rw [hx]; rfl)]⟩, ⟨i, hroot, hx⟩⟩

theorem sound_of_function {f : Function Node} {place : Place} {kind : BindingKind} {d : Declaration}
    (hd : d ∈ paramNames f.params ++ declareAll place kind n f.name.toList) (hn : n ∈ root.nodes)
    (hf : f.children ⊆ root.nodes) (hkind : kind ≠ .imported) (hspecifier : n.isSpecifier = false) :
    d.Sound root := by
  have hparts : f.name.toList ++ f.params ⊆ root.nodes := fun c hc =>
    hf (List.mem_append_left _ hc)
  rcases List.mem_append.mp hd with hd | hd
  · exact sound_of_paramNames (fun p hp => hparts (List.mem_append_right _ hp)) hd
  · exact sound_of_declareAll hd hn (fun i hi => hparts (List.mem_append_left _ hi)) hkind
      hspecifier

/-- What a name of an import declares. -/
theorem importedName?_eq_some {s : Node} {d : Declaration} (h : importedName? s = some d) :
    d = ⟨.block, .imported, d.name, s.id⟩ ∧ s.isSpecifier = true ∧
      ∃ k ∈ s.kind.children, k.name? = some d.name := by
  unfold importedName? at h
  obtain ⟨id, span, kind⟩ := s
  cases kind
  case importSpecifier imported name =>
    obtain ⟨x, hx, rfl⟩ := Option.map_eq_some_iff.mp h
    exact ⟨rfl, rfl, name, List.mem_singleton_self name, hx⟩
  case importDefaultSpecifier name =>
    obtain ⟨x, hx, rfl⟩ := Option.map_eq_some_iff.mp h
    exact ⟨rfl, rfl, name, List.mem_singleton_self name, hx⟩
  case importNamespaceSpecifier name =>
    obtain ⟨x, hx, rfl⟩ := Option.map_eq_some_iff.mp h
    exact ⟨rfl, rfl, name, List.mem_singleton_self name, hx⟩
  all_goals cases h

/-- What the nodes of a module declare is declared by nodes, under names of identifiers. -/
theorem sound_of_declarations (h : ModuleTree root items) (hn : n ∈ root.nodes) {d : Declaration}
    (hd : d ∈ declarations n) : d.Sound root := by
  have hchild : n.kind.children ⊆ root.nodes := fun _ hc => Node.mem_nodes_below hn hc
  have hbound : ∀ {c}, c ∈ n.kind.children → c.boundIdentifiers ⊆ root.nodes := fun hc i hi =>
    Node.mem_nodes_trans (mem_nodes_of_mem_boundIdentifiers hi) (hchild hc)
  have hdeclarator := isDeclarator_of_mem h hn
  obtain ⟨id, span, kind⟩ := n
  cases kind
  case importDeclaration specifiers source =>
    -- the only declarations that are made by specifiers
    obtain ⟨s, hs, hd⟩ := List.mem_filterMap.mp hd
    obtain ⟨heq, hspecifier, k, hk, hx⟩ := importedName?_eq_some hd
    have hroot := hchild hs
    refine ⟨⟨s, hroot, ?_⟩, ⟨k, Node.mem_nodes_below hroot hk, hx⟩⟩
    rw [heq]
    simp [hspecifier]
  case catchClause param body =>
    cases param with
    | none => cases hd
    | some param => exact sound_of_declareAll hd hn (hbound List.mem_cons_self) nofun rfl
  case variableDeclaration kind ds =>
    -- the node that declares is the single variable, which is no specifier
    obtain ⟨d', hd', hd⟩ := List.mem_flatMap.mp hd
    have hplain : d'.isSpecifier = false := by
      have hd' := hdeclarator d' hd'
      unfold isDeclarator at hd'
      unfold Node.isSpecifier
      generalize d'.kind = kind at hd'
      cases kind <;> first | rfl | cases hd'
    refine sound_of_declareAll hd (hchild hd') (hbound hd') ?_ hplain
    cases kind <;> nofun
  case arrowFunction params body _ _ =>
    exact sound_of_paramNames (fun p hp => hchild (List.mem_append_left _ hp)) hd
  case functionDeclaration f => exact sound_of_function hd hn hchild nofun rfl
  case functionExpression f => exact sound_of_function hd hn hchild nofun rfl
  case classDeclaration c =>
    exact sound_of_declareAll hd hn (fun i hi => hchild (List.mem_append_left _
      (List.mem_append_left _ hi))) nofun rfl
  case classExpression c =>
    exact sound_of_declareAll hd hn (fun i hi => hchild (List.mem_append_left _
      (List.mem_append_left _ hi))) nofun rfl
  all_goals cases hd

theorem sound_of_mem_steps (h : ModuleTree root items) {e : Step} (he : e ∈ moduleSteps root)
    {d : Declaration} (hd : d ∈ e.declares) : d.Sound root := by
  obtain ⟨n, hn, there, next, rfl, -⟩ := exists_of_mem_steps he
  exact sound_of_declarations h hn hd

/-! ## Imports -/

/-- The walk over a module is the one over its items after one another. -/
theorem moduleSteps_root (h : ModuleTree root items) : moduleSteps root =
    Surroundings.step ⟨none, none, [0], []⟩ root 1 ::
      stepsOfAll (items.map fun c => (⟨some root, none, [0], []⟩, c.steps)) 1 := by
  rw [moduleSteps, steps_of_not_opens rfl (by rw [h.kind]; rfl), below_of_not_opens rfl]
  rfl

/-- Every import is declared in the program's scope, by a name of an item. -/
theorem exists_importedName (h : ModuleTree root items) {p : Placement}
    (hp : p ∈ placementsOf root) (hk : p.kind = .imported) :
    p.scope = 0 ∧ ∃ item ∈ items, ∃ specifiers source,
      item.kind = .importDeclaration specifiers source ∧
        ∃ s ∈ specifiers, importedName? s = some ⟨.block, .imported, p.name, p.node⟩ := by
  obtain ⟨e, he, hp⟩ := List.mem_flatMap.mp hp
  obtain ⟨d, hd, rfl⟩ := List.mem_map.mp hp
  have htop : ∀ {n : Node}, d ∈ declarations n → n.isTop = true := by
    intro n hn
    by_contra htop
    exact (declarations_plain (by simpa using htop) d hn).1 hk
  rw [moduleSteps_root h, List.mem_cons] at he
  rcases he with rfl | he
  · change d ∈ declarations root at hd
    rw [declarations, h.kind] at hd
    cases hd
  obtain ⟨_, hc, next, he⟩ := mem_stepsOfAll he
  obtain ⟨item, hitem, rfl⟩ := List.mem_map.mp hc
  change e ∈ item.steps ⟨some root, none, [0], []⟩ next at he
  rw [steps_eq, List.mem_cons] at he
  rcases he with rfl | he
  · change d ∈ declarations item at hd
    have hkind : ∃ specifiers source, item.kind = .importDeclaration specifiers source := by
      have hitem := htop hd
      unfold Node.isTop at hitem
      unfold declarations at hd
      generalize item.kind = kind at hitem hd
      cases kind <;> first | exact ⟨_, _, rfl⟩ | cases hitem; done | cases hd
    obtain ⟨specifiers, source, hkind⟩ := hkind
    have hchain : Surroundings.inside ⟨some root, none, [0], []⟩ item next = [0] :=
      inside_of_not_scopable (by rw [hkind]; rfl)
    rw [declarations, hkind] at hd
    obtain ⟨s, hs, hsd⟩ := List.mem_filterMap.mp hd
    have heq := (importedName?_eq_some hsd).1
    refine ⟨?_, item, hitem, specifiers, source, hkind, s, hs, ?_⟩
    · change placeIn _ (Surroundings.inside _ item next) d.place = 0
      rw [hchain, heq]
      rfl
    · rw [hsd, heq]
  · -- below the items there are no imports
    obtain ⟨_, hc, next', he⟩ := mem_stepsOfAll he
    obtain ⟨⟨isParam, c⟩, hvisited, rfl⟩ := List.mem_map.mp hc
    obtain ⟨n, hn, there, next'', rfl, -⟩ := exists_of_mem_steps he
    have hinside := (h.items item hitem).inside c (mem_of_visited hvisited)
    have hntop : n.isTop = false := by
      rcases Node.eq_root_or_child hn with rfl | ⟨p, hp, hnp⟩
      · exact hinside.isTop
      · exact (inside_nodes hinside.children p hp n hnp).isTop
    cases hntop.symm.trans (htop hd)

/-- What declares an import declares nothing else. -/
theorem imported_of_node (h : ModuleTree root items) {p q : Placement}
    (hp : p ∈ placementsOf root) (hq : q ∈ placementsOf root) (hnode : p.node = q.node)
    (hk : p.kind = .imported) : q.kind = .imported := by
  have hspecifier : ∀ {p}, p ∈ placementsOf root →
      ∃ k ∈ root.nodes, k.id = p.node ∧ (p.kind = .imported ↔ k.isSpecifier = true) := by
    intro p hp
    obtain ⟨e, he, hp⟩ := List.mem_flatMap.mp hp
    obtain ⟨d, hd, rfl⟩ := List.mem_map.mp hp
    exact (sound_of_mem_steps h he hd).node
  obtain ⟨k, hkn, hkid, hkk⟩ := hspecifier hp
  obtain ⟨l, hln, hlid, hll⟩ := hspecifier hq
  obtain rfl := h.distinct.eq_of_id hkn hln (hkid.trans (hnode.trans hlid.symm))
  exact hll.mpr (hkk.mp hk)

end EsModule.Scope
