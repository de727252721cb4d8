import EsModule.Proofs.Compile.Uses

/-!
# What becomes of a node

`Becomes` says it without the patches: a use of an imported name is read through the handle, `import()`
and `import.meta` go to their capabilities, and every other node keeps its number, its place in the
source and its kind, over what becomes of its children. Only the numbers of new nodes are left open.
The rewritten tree is what becomes of the tree of a module (`ModuleForms.becomes`).
-/

namespace EsModule.Compile

open EsModule.Syntax EsModule.Scope EsModule.Text

/-! ## Readings -/

/-- Whether a node is the key of a member known by its name. -/
def IsKey (name : String) (key : Node) : Prop :=
  key.kind = if isIdentifierName name.toList then .identifier name else .literal (.string name none)

/-- Whether a kind is that of the expression by which a name is read. -/
inductive ReadBy : Reading → Kind Node → Prop where
  | «variable» {name} : ReadBy (.variable name) (.identifier name)
  | member {handle name object key} (ho : object.kind = .identifier handle) (hk : IsKey name key) :
      ReadBy (.member handle name)
        (.memberExpression object key (!isIdentifierName name.toList) false)
  | namespaceOf {handle callee argument}
      (hc : callee.kind = .identifier Capability.namespaceOf.name)
      (ha : argument.kind = .identifier handle) :
      ReadBy (.namespaceOf handle) (.callExpression callee [argument] false)

theorem isKey_newKey (id : Nat) (name : String) : IsKey name (newKey id name) := by
  unfold IsKey newKey
  split <;> rfl

/-- The expression that is made for a reading is one that reads. -/
theorem readBy_kind (r : Reading) (s : Nat) : ReadBy r (r.kind s).1 := by
  rw [reading_eq]
  cases r with
  | «variable» name => exact .variable
  | member handle name => exact .member rfl (isKey_newKey s name)
  | namespaceOf handle => exact .namespaceOf rfl rfl

/-! ## What becomes of a node -/

/-- What may become of a node, where some nodes are uses of names that are read in some way. -/
inductive Becomes (uses : Nat → Reading → Prop) : Node → Node → Prop where
  | read {n : Node} {r kind} (hu : uses n.id r) (hr : ReadBy r kind) :
      Becomes uses n (.mk n.id n.span kind)
  | dynamicImport {n source source' callee : Node} (hn : n.kind = .importExpression source)
      (hc : callee.kind = .identifier Capability.dynamicImport.name)
      (h : Becomes uses source source') :
      Becomes uses n (.mk n.id n.span (.callExpression callee [source'] false))
  | importMeta {n : Node} {kind} (hn : n.kind = .metaProperty .importMeta)
      (hr : ReadBy (.member Capability.importMeta.name "meta") kind) :
      Becomes uses n (.mk n.id n.span kind)
  | same {n : Node} {f : Node → Node} (hu : ∀ r, ¬ uses n.id r) (hs : speaks n = false)
      (h : ∀ c ∈ n.kind.children, Becomes uses c (f c)) :
      Becomes uses n (.mk n.id n.span (n.kind.map f))

/-- The rewritten tree of a module is what becomes of the tree. -/
theorem ModuleForms.becomes {root : Node} {items : List Node} {scopes : ScopeTree}
    {forms : List Form} {bound : Nat} (hf : ModuleForms root items scopes forms bound)
    (h : ModuleTree root items) (hc : collect root = .ok scopes) {n : Node} (hn : n ∈ root.nodes) :
    Becomes (UsesImport items scopes) n (rewrite forms n) := by
  induction n using Node.induct with
  | h n ih =>
    have hmk := Node.eq_mk (rewrite forms n)
    rw [id_rewrite, span_rewrite] at hmk
    rw [hmk]
    cases hat : formAt? forms n.id with
    | none =>
      have hnone : ∀ f ∈ forms, f.target ≠ n.id := by
        intro f hfm htarget
        obtain ⟨f', hf'⟩ := exists_formAt? hfm
        rw [htarget, hat] at hf'
        cases hf'
      rw [kind_rewrite_of_none hat]
      refine .same (fun r hr => ?_) ?_ fun c hcn => ih c hcn (Node.mem_nodes_below hn hcn)
      · obtain ⟨f, hfm, htarget⟩ := hf.used n.id r hr
        exact hnone f hfm htarget
      · by_contra hs
        obtain ⟨f, hfm, htarget⟩ := hf.speaking n hn (by simpa using hs)
        exact hnone f hfm htarget
    | some f =>
      obtain ⟨hfm, htarget⟩ := formAt?_eq_some hat
      obtain ⟨fill, hkind, hnews, hold⟩ := hf.fits.filled h.distinct hn hat
      obtain ⟨m, hm, hid, htakes⟩ := hf.takes f hfm
      obtain rfl := h.distinct.eq_of_id hm hn (hid.symm.trans htarget)
      rw [hkind]
      cases htakes with
      | @reading r s hr =>
        have hread : (Form.ofReading m.id r s).kind.map fill = (r.kind s).1 :=
          (Kind.map_congr (g := fun c => c) hnews).trans (Kind.map_id' _)
        rw [hread]
        exact .read ((mem_importUses_iff h hc).mp hr) (readBy_kind r s)
      | @dynamicImport source s hsource =>
        have hchild : source ∈ m.kind.children := by
          rw [hsource]
          exact List.mem_singleton_self source
        have hcallee := hnews _ List.mem_cons_self
        change Becomes _ m (.mk m.id m.span (.callExpression (fill _) [fill source] false))
        rw [hcallee, hold source hchild]
        exact .dynamicImport hsource rfl (ih source hchild (Node.mem_nodes_below hn hchild))
      | @importMeta s hmeta =>
        have hread : (Form.ofMeta m.id s).kind.map fill =
            ((Reading.member Capability.importMeta.name "meta").kind s).1 :=
          (Kind.map_congr (g := fun c => c) hnews).trans (Kind.map_id' _)
        rw [hread]
        exact .importMeta hmeta (readBy_kind _ s)

/-! ## The nodes below -/

/-- Whether a node is a name or a string without source text. -/
def IsLeaf (n : Node) : Prop :=
  (∃ name, n.kind = .identifier name) ∨ ∃ value, n.kind = .literal (.string value none)

theorem IsLeaf.nodes {n : Node} (h : IsLeaf n) : n.nodes = [n] := by
  rw [Node.nodes_eq]
  obtain ⟨_, h⟩ | ⟨_, h⟩ := h <;> rw [h] <;> rfl

theorem IsKey.isLeaf {name : String} {key : Node} (h : IsKey name key) : IsLeaf key := by
  unfold IsKey at h
  split at h
  · exact .inl ⟨_, h⟩
  · exact .inr ⟨_, h⟩

theorem ReadBy.isLeaf {r : Reading} {kind : Kind Node} (h : ReadBy r kind) :
    ∀ c ∈ kind.children, IsLeaf c := by
  cases h with
  | «variable» => nofun
  | member ho hk =>
    simp only [Kind.children, List.mem_cons, List.not_mem_nil, or_false, forall_eq_or_imp, forall_eq]
    exact ⟨.inl ⟨_, ho⟩, hk.isLeaf⟩
  | namespaceOf hc ha =>
    simp only [Kind.children, List.mem_append, List.mem_singleton, or_imp, forall_and, forall_eq]
    exact ⟨.inl ⟨_, hc⟩, .inl ⟨_, ha⟩⟩

namespace Becomes

variable {uses : Nat → Reading → Prop} {n n' : Node}

theorem id (h : Becomes uses n n') : n'.id = n.id := by cases h <;> rfl

/-- What stands below what becomes of a node became of a node there, or is a new leaf. -/
theorem nodes (h : Becomes uses n n') :
    ∀ m' ∈ n'.nodes, (∃ m ∈ n.nodes, Becomes uses m m') ∨ IsLeaf m' := by
  have hleaf : ∀ {c m : Node}, IsLeaf c → m ∈ c.nodes → IsLeaf m := by
    intro c m hc hm
    rw [hc.nodes, List.mem_singleton] at hm
    exact hm ▸ hc
  induction h with
  | @read n r kind hu hr =>
    refine Node.forall_nodes (.inl ⟨n, n.mem_nodes_self, .read hu hr⟩) fun c hc m hm => ?_
    exact .inr (hleaf (hr.isLeaf c hc) hm)
  | @dynamicImport n source source' callee hn hc h ih =>
    refine Node.forall_nodes (.inl ⟨n, n.mem_nodes_self, .dynamicImport hn hc h⟩) fun c hc' m hm => ?_
    change c ∈ [callee, source'] at hc'
    simp only [List.mem_cons, List.not_mem_nil, or_false] at hc'
    rcases hc' with rfl | rfl
    · exact .inr (hleaf (.inl ⟨_, hc⟩) hm)
    · refine (ih m hm).imp_left fun ⟨k, hk, hb⟩ => ⟨k, Node.mem_nodes_of_child ?_ hk, hb⟩
      rw [hn]
      exact List.mem_singleton_self source
  | @importMeta n kind hn hr =>
    refine Node.forall_nodes (.inl ⟨n, n.mem_nodes_self, .importMeta hn hr⟩) fun c hc m hm => ?_
    exact .inr (hleaf (hr.isLeaf c hc) hm)
  | @same n f hu hs h ih =>
    refine Node.forall_nodes (.inl ⟨n, n.mem_nodes_self, .same hu hs h⟩) fun c hc m hm => ?_
    change c ∈ (n.kind.map f).children at hc
    rw [Kind.children_map] at hc
    obtain ⟨d, hd, rfl⟩ := List.mem_map.mp hc
    exact (ih d hd m hm).imp_left fun ⟨k, hk, hb⟩ => ⟨k, Node.mem_nodes_of_child hd hk, hb⟩

end Becomes

/-! ## What becomes of an item -/

/-- What may become of an item. -/
inductive ItemBecomes (uses : Nat → Reading → Prop) : Node → Node → Prop where
  | kept {item item' : Node} (ht : treatment item = .kept) (h : Becomes uses item item') :
      ItemBecomes uses item item'
  | removed {item : Node} (ht : treatment item = .removed) :
      ItemBecomes uses item (.mk item.id item.span .removed)
  | unwrapped {item d d' : Node} (ht : treatment item = .unwrapped d) (h : Becomes uses d d') :
      ItemBecomes uses item (.mk item.id item.span d'.kind)
  | held {item v v' value target d : Node} (ht : treatment item = .held v)
      (h : Becomes uses v v')
      (hvalue : value = if isFunctionOrClass v then v'.withKind (asExpression v'.kind) else v')
      (hname : target.kind = .identifier defaultHolder)
      (hd : d.kind = .variableDeclarator target (some value)) :
      ItemBecomes uses item (.mk item.id item.span (.variableDeclaration .constKind [d]))

section

variable {root : Node} {items : List Node} {scopes : ScopeTree} {forms : List Form} {bound : Nat}

theorem ModuleForms.itemBecomes (hf : ModuleForms root items scopes forms bound)
    (h : ModuleTree root items) (hc : collect root = .ok scopes) {item : Node} (hi : item ∈ items)
    (s : Nat) : ItemBecomes (UsesImport items scopes) item (settle forms item s) := by
  have hroot := h.mem_nodes_item hi
  unfold settle
  cases ht : treatment item with
  | kept => exact .kept ht (hf.becomes h hc hroot)
  | removed => exact .removed ht
  | unwrapped d =>
    have hd := Node.mem_nodes_below hroot (unwrapped_mem_children ht)
    exact .unwrapped ht (hf.becomes h hc hd)
  | held v =>
    have hv := Node.mem_nodes_below hroot (held_mem_children ht)
    exact .held (d := holderNode s (settledValue forms v)) ht (hf.becomes h hc hv) rfl rfl
      rfl

theorem forall₂_settleAll (forms : List Form) {R : Node → Node → Prop} {items : List Node} {s : Nat}
    (h : ∀ item ∈ items, ∀ t, s ≤ t → R item (settle forms item t)) :
    List.Forall₂ R items (settleAll forms items s) := by
  induction items generalizing s with
  | nil => exact .nil
  | cons item items ih =>
    exact .cons (h item List.mem_cons_self s (Nat.le_refl s))
      (ih fun item hi t ht => h item (List.mem_cons_of_mem _ hi) t (Nat.le_of_add_right_le ht))

end

/-! ## What occurs in the items -/

/-- The kinds of the nodes in what becomes of the items of a module. -/
inductive Occurs (uses : Nat → Reading → Prop) (root : Node) : Kind Node → Prop where
  | became {n n' : Node} (hn : n ∈ root.nodes) (htop : n.isTop = false)
      (hspecifier : n.isSpecifier = false) (h : Becomes uses n n') : Occurs uses root n'.kind
  | expression {n n' : Node} (hn : n ∈ root.nodes) (htop : n.isTop = false)
      (hspecifier : n.isSpecifier = false) (h : Becomes uses n n') :
      Occurs uses root (asExpression n'.kind)
  | leaf {n : Node} (h : IsLeaf n) : Occurs uses root n.kind
  | removed : Occurs uses root .removed
  | holder {declarator : Node} : Occurs uses root (.variableDeclaration .constKind [declarator])
  | holds {target value : Node} : Occurs uses root (.variableDeclarator target (some value))

section

variable {uses : Nat → Reading → Prop} {root : Node} {items : List Node}

theorem Becomes.occurs {n n' : Node} (h : Becomes uses n n') (hn : n ∈ root.nodes)
    (hplain : ∀ m ∈ n.nodes, m.isTop = false ∧ m.isSpecifier = false) :
    ∀ m' ∈ n'.nodes, Occurs uses root m'.kind := by
  intro m' hm'
  rcases h.nodes m' hm' with ⟨m, hm, hb⟩ | hleaf
  · obtain ⟨htop, hspecifier⟩ := hplain m hm
    exact .became (Node.mem_nodes_trans hm hn) htop hspecifier hb
  · exact .leaf hleaf

theorem treatment_eq {item d : Node} (h : treatment item = .unwrapped d ∨ treatment item = .held d) :
    (∃ specifiers source, item.kind = .exportNamedDeclaration (some d) specifiers source) ∨
      item.kind = .exportDefaultDeclaration d := by
  unfold treatment at h
  split at h <;> try split at h
  all_goals simp_all

theorem isTop_of_kept {y : Bool} {item : Node} (h : Derives y .item item)
    (ht : treatment item = .kept) : item.isTop = false := by
  cases h with
  | statementItem h => exact h.isTop nofun
  | exportDefaultDeclaration h | exportDefaultValue h =>
    unfold treatment at ht
    dsimp only [Node.kind] at ht
    split at ht <;> cases ht
  | _ => cases ht

/-- What stands in place of an exported item is plain. -/
theorem plain_exported (hm : ModuleTree root items) {item d : Node} (hi : item ∈ items)
    (ht : treatment item = .unwrapped d ∨ treatment item = .held d) :
    ∀ m ∈ d.nodes, m.isTop = false ∧ m.isSpecifier = false := by
  have hd : d ∈ item.kind.children := ht.elim unwrapped_mem_children held_mem_children
  exact ((hm.items item hi).inside d hd).plain
    ((hm.items item hi).isSpecifier_exported (treatment_eq ht))

/-- An item that stays is plain. -/
theorem plain_of_kept {y : Bool} {item : Node} (h : Derives y .item item)
    (ht : treatment item = .kept) : ∀ m ∈ item.nodes, m.isTop = false ∧ m.isSpecifier = false := by
  have htop := isTop_of_kept h ht
  refine Node.forall_nodes ⟨htop, h.isSpecifier rfl⟩ fun c hc => (h.inside c hc).plain ?_
  by_contra hspecifier
  rw [(h.inside c hc).isTop_above (by simpa using hspecifier)] at htop
  cases htop

/-- What occurs in what becomes of an item. -/
theorem ItemBecomes.occurs {item item' : Node} (h : ItemBecomes uses item item')
    (hm : ModuleTree root items) (hi : item ∈ items) :
    ∀ m ∈ item'.nodes, Occurs uses root m.kind := by
  have hroot := hm.mem_nodes_item hi
  have hd := hm.items item hi
  cases h with
  | kept ht h => exact h.occurs hroot (plain_of_kept hd ht)
  | removed =>
    refine Node.forall_nodes .removed ?_
    nofun
  | @unwrapped d d' ht h =>
    have hplain := plain_exported hm hi (.inl ht)
    have hdroot := Node.mem_nodes_below hroot (unwrapped_mem_children ht)
    have hoccurs := h.occurs hdroot hplain
    exact Node.forall_nodes (hoccurs d' d'.mem_nodes_self) fun c hc m hm =>
      hoccurs m (Node.mem_nodes_of_child hc hm)
  | @held v v' value target declarator ht h hvalue hname hdeclarator =>
    have hplain := plain_exported hm hi (.inr ht)
    have hvroot := Node.mem_nodes_below hroot (held_mem_children ht)
    have hoccurs := h.occurs hvroot hplain
    have hvalueOccurs : ∀ m ∈ value.nodes, Occurs uses root m.kind := by
      subst hvalue
      split
      · obtain ⟨htop, hspecifier⟩ := hplain v v.mem_nodes_self
        refine Node.forall_nodes (.expression hvroot htop hspecifier h) fun c hc m hm => ?_
        rw [Node.withKind, Node.kind, children_asExpression] at hc
        exact hoccurs m (Node.mem_nodes_of_child hc hm)
      · exact hoccurs
    refine Node.forall_nodes .holder fun c hc => ?_
    obtain rfl := List.mem_singleton.mp hc
    refine Node.forall_nodes (by rw [hdeclarator]; exact .holds) fun c hc => ?_
    rw [hdeclarator] at hc
    change c ∈ [target, value] at hc
    simp only [List.mem_cons, List.not_mem_nil, or_false] at hc
    rcases hc with rfl | rfl
    · have hleaf : IsLeaf c := .inl ⟨_, hname⟩
      rw [hleaf.nodes]
      intro m hm
      obtain rfl := List.mem_singleton.mp hm
      exact .leaf hleaf
    · exact hvalueOccurs

theorem ReadBy.asExpression {r : Reading} {kind : Kind Node} (h : ReadBy r kind) :
    ReadBy r (Compile.asExpression kind) := by
  cases h with
  | «variable» => exact .variable
  | member ho hk => exact .member ho hk
  | namespaceOf hc ha => exact .namespaceOf hc ha

/-- Where no variable is read in place of another, a name in what becomes of a node is that name. -/
theorem Becomes.eq_of_name? {n n' : Node} (h : Becomes uses n n')
    (hv : ∀ i name, ¬ uses i (.variable name)) (hname : n'.name?.isSome = true) : n' = n := by
  cases h with
  | read hu hr =>
    cases hr with
    | «variable» => exact absurd hu (hv _ _)
    | member | namespaceOf => cases hname
  | dynamicImport => cases hname
  | importMeta hn hr =>
    cases hr
    cases hname
  | same hu hs h =>
    obtain ⟨id, span, kind⟩ := n
    cases kind <;> first | rfl | cases hname

/-- What occurs and holds nothing together is read in some way, or speaks to the loader, or has no
names below it but those of the tree. -/
inductive Inserted (uses : Nat → Reading → Prop) (root : Node) (kind : Kind Node) : Prop where
  | read {i r} (hu : uses i r) (hr : ReadBy r kind)
  | importMeta (hr : ReadBy (.member Capability.importMeta.name "meta") kind)
  | dynamicImport {callee source : Node} (hk : kind = .callExpression callee [source] false)
      (hc : callee.kind = .identifier Capability.dynamicImport.name)
  | old (h : ∀ c ∈ kind.children, c.name?.isSome = true → c ∈ root.nodes)

theorem Becomes.inserted {n n' : Node} (h : Becomes uses n n') (hn : n ∈ root.nodes)
    (hv : ∀ i name, ¬ uses i (.variable name)) : Inserted uses root n'.kind := by
  cases h with
  | read hu hr => exact .read hu hr
  | dynamicImport _ hc => exact .dynamicImport rfl hc
  | importMeta _ hr => exact .importMeta hr
  | @same _ f _ _ h =>
    refine .old fun c hc hname => ?_
    change c ∈ (n.kind.map f).children at hc
    rw [Kind.children_map] at hc
    obtain ⟨d, hd, rfl⟩ := List.mem_map.mp hc
    rw [(h d hd).eq_of_name? hv hname]
    exact Node.mem_nodes_below hn hd

theorem Inserted.asExpression {kind : Kind Node} (h : Inserted uses root kind) :
    Inserted uses root (Compile.asExpression kind) := by
  cases h with
  | read hu hr => exact .read hu hr.asExpression
  | importMeta hr => exact .importMeta hr.asExpression
  | dynamicImport hk hc => exact .dynamicImport (by rw [hk]; rfl) hc
  | old h => exact .old (by rwa [children_asExpression])

theorem Occurs.inserted {kind : Kind Node} (h : Occurs uses root kind)
    (hv : ∀ i name, ¬ uses i (.variable name)) (hholds : ∀ k, kind ≠ .variableDeclaration .constKind k)
    (hholds' : ∀ t v, kind ≠ .variableDeclarator t v) : Inserted uses root kind := by
  cases h with
  | became hn _ _ h => exact h.inserted hn hv
  | expression hn _ _ h => exact (h.inserted hn hv).asExpression
  | leaf h =>
    refine .old fun c hc => ?_
    obtain ⟨_, h⟩ | ⟨_, h⟩ := h <;> rw [h] at hc <;> cases hc
  | removed => exact .old nofun
  | holder => exact absurd rfl (hholds _)
  | holds => exact absurd rfl (hholds' _ _)

end

end EsModule.Compile
