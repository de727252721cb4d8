import EsModule.Proofs.Compile.Elimination
import EsModule.Proofs.Compile.Front
import EsModule.Proofs.Scope.Declared

/-!
# A module in its compiled tree

The nodes of a module are still there in the tree that it is compiled to, but for two kinds: the
function stands for the program, and an exported declaration stands where the item stood that
exports it. `standIn` says so, and `Module.embedding` is the embedding with these nodes.
-/

namespace EsModule.Compile

open EsModule.Syntax EsModule.Scope

/-! ## The nodes that stand for those of a module -/

/-- Whether the declaration with a number takes the place of an item. -/
def isUnwrapped (item : Node) (i : Nat) : Bool :=
  match treatment item with
  | .unwrapped declaration => declaration.id == i
  | _ => false

/-- The number of the node that stands for one of a module in a compiled module with some
function. -/
def standIn (root function : Node) (i : Nat) : Nat :=
  if i = root.id then function.id
  else ((itemsOf root).find? (isUnwrapped · i)).elim i Node.id

section

variable {root function item n d : Node} {items : List Node}

theorem isUnwrapped_iff {i : Nat} :
    isUnwrapped item i = true ↔ ∃ d, treatment item = .unwrapped d ∧ d.id = i := by
  unfold isUnwrapped
  cases treatment item <;> simp

theorem itemsOf_of_moduleTree (h : ModuleTree root items) : itemsOf root = items := by
  rw [itemsOf, h.kind]

theorem ne_root_of_child (h : ModuleTree root items) (hn : n ∈ root.nodes)
    (hd : d ∈ n.kind.children) : d.id ≠ root.id := by
  intro hid
  obtain rfl := h.distinct.eq_of_id (Node.mem_nodes_below hn hd) root.mem_nodes_self hid
  exact Node.root_not_child hn hd

theorem standIn_root : standIn root function root.id = function.id := if_pos rfl

/-- An exported declaration stands in the place of the item. -/
theorem standIn_unwrapped (h : ModuleTree root items) (hi : item ∈ items)
    (ht : treatment item = .unwrapped d) : standIn root function d.id = item.id := by
  have hchild := unwrapped_mem_children ht
  have hroot := h.mem_nodes_item hi
  obtain ⟨other, hother⟩ : ∃ other, items.find? (isUnwrapped · d.id) = some other := by
    rw [← Option.isSome_iff_exists, List.find?_isSome]
    exact ⟨item, hi, isUnwrapped_iff.mpr ⟨d, ht, rfl⟩⟩
  have hmem := h.mem_nodes_item (List.mem_of_find?_eq_some hother)
  obtain ⟨d', ht', hid⟩ := isUnwrapped_iff.mp (List.find?_some (p := (isUnwrapped · d.id)) hother)
  have hchild' := unwrapped_mem_children ht'
  obtain rfl := h.distinct.eq_of_id (Node.mem_nodes_below hmem hchild')
    (Node.mem_nodes_below hroot hchild) hid
  -- no two items export the same declaration, since a node has one parent
  obtain rfl := h.distinct.parent_unique hmem hroot hchild' hchild
  rw [standIn, if_neg (ne_root_of_child h hroot hchild), itemsOf_of_moduleTree h, hother]
  rfl

/-- Any other node stands for itself. -/
theorem standIn_of_not_unwrapped (h : ModuleTree root items) (hn : n ∈ root.nodes)
    (hroot : n ≠ root) (hd : ∀ item ∈ items, treatment item ≠ .unwrapped n) :
    standIn root function n.id = n.id := by
  have hnone : items.find? (isUnwrapped · n.id) = none := by
    rw [List.find?_eq_none]
    intro item hi hunwrapped
    obtain ⟨d, ht, hid⟩ := isUnwrapped_iff.mp hunwrapped
    obtain rfl := h.distinct.eq_of_id
      (Node.mem_nodes_below (h.mem_nodes_item hi) (unwrapped_mem_children ht)) hn hid
    exact hd item hi ht
  rw [standIn, if_neg fun hid => hroot (h.distinct.eq_of_id hn root.mem_nodes_self hid),
    itemsOf_of_moduleTree h, hnone]
  rfl

/-- Whether a node declares variables, a function or a class. -/
def isDeclaration (n : Node) : Bool :=
  match n.kind with
  | .variableDeclaration .. | .functionDeclaration _ | .classDeclaration _ => true
  | _ => false

/-- What takes the place of an item is a declaration. -/
theorem isDeclaration_of_unwrapped {y : Bool} (hd : Derives y .item item)
    (ht : treatment item = .unwrapped d) : isDeclaration d = true := by
  cases hd with
  | exportVariables h =>
    cases ht
    cases h
    rfl
  | exportDeclaration h =>
    cases ht
    cases h <;> rfl
  | exportDefaultDeclaration h =>
    unfold treatment at ht
    dsimp only [Node.kind] at ht
    split at ht <;> cases ht
    cases h <;> rfl
  | exportDefaultValue h =>
    unfold treatment at ht
    dsimp only [Node.kind] at ht
    split at ht <;> cases ht
    rename_i hname
    unfold ownName? at hname
    unfold isDeclaration
    generalize d.kind = kind at hname
    cases kind <;> first | rfl | cases hname
  | statementItem h => cases (treatment_of_isTop_eq_false (h.isTop nofun)).symm.trans ht
  | importItem | exportList | exportAll => cases ht

/-- A declaration is no name, and does not speak to the loader by itself. -/
theorem plain_of_isDeclaration (h : isDeclaration d = true) : d.name? = none ∧ speaks d = false := by
  unfold isDeclaration at h
  unfold Node.name? speaks
  generalize d.kind = kind at h
  cases kind <;> first | exact ⟨rfl, rfl⟩ | cases h

theorem name?_of_unwrapped {y : Bool} (hd : Derives y .item item)
    (ht : treatment item = .unwrapped d) : d.name? = none :=
  (plain_of_isDeclaration (isDeclaration_of_unwrapped hd ht)).1

/-- A declaration that takes the place of an item stands below an item only. -/
theorem isTop_of_unwrapped (h : ModuleTree root items) (hi : item ∈ items)
    (ht : treatment item = .unwrapped d) (hn : n ∈ root.nodes) (hd : d ∈ n.kind.children) :
    n = item ∧ item.isTop = true := by
  refine ⟨h.distinct.parent_unique hn (h.mem_nodes_item hi) hd (unwrapped_mem_children ht), ?_⟩
  by_contra htop
  cases (treatment_of_isTop_eq_false (by simpa using htop)).symm.trans ht

theorem mem_nodes_of_declared {i : Node} (h : ModuleTree root items) (hn : n ∈ root.nodes)
    (hi : i ∈ declaredIdentifiers n) : i ∈ root.nodes := by
  obtain ⟨p, hp, top, htop, hleads⟩ := exists_declarer h hn hi
  exact Node.Leads.mem_nodes hleads (Node.mem_nodes_below hp (declaredTargets_subset p htop))

/-- The items stand below the root only. -/
theorem not_child_of_item {other : Node} (h : ModuleTree root items) (hi : item ∈ items)
    (ho : other ∈ items) : item ∉ other.kind.children := by
  intro hchild
  have hroot : ∀ {n}, n ∈ items → n ∈ root.kind.children := fun hn => by rwa [h.kind]
  obtain rfl := h.distinct.parent_unique (h.mem_nodes_item ho) root.mem_nodes_self hchild (hroot hi)
  exact Node.root_not_child other.mem_nodes_self (hroot ho)

theorem item_ne_root (h : ModuleTree root items) (hi : item ∈ items) : item ≠ root := by
  rintro rfl
  exact Node.root_not_child item.mem_nodes_self (by rwa [h.kind])

end

/-! ## Uses of imported names -/

/-- Whether scopes list a node as one that reads or writes an imported name. -/
def ListsImport (t : ScopeTree) (i : Nat) : Prop :=
  ∃ s x b, t.bindingAt? s x = some b ∧ b.kind = .imported ∧ (i ∈ b.references ∨ i ∈ b.mutations)

theorem exists_importedReading (handle : String) {s : Node} {d : Declaration}
    (h : Scope.importedName? s = some d) : ∃ name r, importedName? handle s = some (name, r) := by
  unfold Scope.importedName? at h
  unfold importedName?
  generalize s.kind = kind at h
  cases kind <;> first | exact ⟨_, _, rfl⟩ | cases h

namespace IsRead

variable {m : Module} {items : List Node} {i : Nat}

/-- A binding that an import makes is the program's, and it is made by a name of an import. -/
theorem exists_specifier (h : IsRead m items) {s : Nat} {x : String} {b : Binding}
    (hb : m.scopes.bindingAt? s x = some b) (hkind : b.kind = .imported) :
    s = 0 ∧ ∃ item ∈ items, ∃ specifiers source, item.kind = .importDeclaration specifiers source ∧
      ∃ s ∈ specifiers, Scope.importedName? s = some ⟨.block, .imported, x, s.id⟩ ∧
        b.node = s.id := by
  obtain ⟨hscope, item, hitem, specifiers, source, hk, s, hs, hname⟩ :=
    exists_importedName h.tree ((collected h.scopes).mem_placementsOf hb) hkind
  have hid : b.node = s.id := congrArg Declaration.node (importedName?_eq_some hname).1
  exact ⟨hscope, item, hitem, specifiers, source, hk, s, hs, hid ▸ hname, hid⟩

/-- There is an expression that reads an imported name. -/
theorem exists_reading (h : IsRead m items) {s : Nat} {x : String} {b : Binding}
    (hb : m.scopes.bindingAt? s x = some b) (hkind : b.kind = .imported) :
    s = 0 ∧ ∃ r, (b.node, r) ∈ importReadings (handleOf (dependencies items)) items := by
  obtain ⟨hscope, item, hitem, specifiers, source, hk, s, hs, hname, hnode⟩ :=
    h.exists_specifier hb hkind
  obtain ⟨name, r, hr⟩ := exists_importedReading (handleOf (dependencies items) source) hname
  exact ⟨hscope, r, mem_importReadings.mpr ⟨item, hitem, specifiers, source, hk, s, hs, hnode.symm,
    name, hr⟩⟩

/-- Every imported name is read in some way. -/
theorem usesImport_iff (h : IsRead m items) :
    (∃ r, UsesImport items m.scopes i r) ↔ ListsImport m.scopes i := by
  constructor
  · rintro ⟨r, name, b, hb, hkind, hi, -⟩
    exact ⟨0, name, b, hb, hkind, hi⟩
  · rintro ⟨s, x, b, hb, hkind, hi⟩
    obtain ⟨rfl, r, hr⟩ := h.exists_reading hb hkind
    exact ⟨r, x, b, hb, hkind, hi, hr⟩

end IsRead

/-! ## The embedding -/

/-- Whether a node of a module is patched as the use of an imported name. -/
def Module.isImportUse (m : Module) (i : Nat) : Bool :=
  (importUses (importReadings (handleOf (dependencies (itemsOf m.root))) (itemsOf m.root))
    m.scopes).any (·.1 == i)

/-- The embedding of a module into a compiled module with some parts. -/
def Module.embedding (m : Module) (p : Parts) (tree : Node) : Embedding where
  opened := openings (p.front tree)
  moved := standIn m.root p.function
  gone := m.isImportUse
  old i := ∃ u ∈ usesIn m.root, u.node = i
  adds := IsSupplied (dependencies (itemsOf m.root))

namespace IsRead

variable {m : Module} {items : List Node} {p : Parts} {tree : Node}

theorem isImportUse_iff (h : IsRead m items) (i : Nat) :
    m.isImportUse i = true ↔ ∃ r, UsesImport items m.scopes i r := by
  simp only [Module.isImportUse, itemsOf_of_moduleTree h.tree, List.any_eq_true, beq_iff_eq,
    Prod.exists, ← mem_importUses_iff h.tree h.scopes]
  constructor
  · rintro ⟨_, r, hr, rfl⟩
    exact ⟨r, hr⟩
  · rintro ⟨r, hr⟩
    exact ⟨i, r, hr, rfl⟩

theorem drops (h : IsRead m items) :
    Drops (UsesImport items m.scopes) m.isImportUse m.root where
  iff := h.isImportUse_iff
  name := by
    intro n hn hgone
    obtain ⟨r, hr⟩ := (h.isImportUse_iff n.id).mp hgone
    obtain ⟨k, hk, hid, hname⟩ := hr.exists_node h.scopes
    exact h.tree.distinct.eq_of_id hk hn hid ▸ hname
  plain := UsesImport.not_variable

theorem moved_of_name? (h : IsRead m items) {n : Node} (hn : n ∈ m.root.nodes)
    (hname : n.name?.isSome = true) : (m.embedding p tree).moved n.id = n.id := by
  refine standIn_of_not_unwrapped h.tree hn ?_ fun item hi ht => ?_
  · rintro rfl
    rw [Node.name?, h.tree.kind] at hname
    cases hname
  · rw [name?_of_unwrapped (h.tree.items item hi) ht] at hname
    cases hname

theorem kept_declared (h : IsRead m items) {n : Node} (hn : n ∈ m.root.nodes) :
    Kept (m.embedding p tree) (declaredIdentifiers n) := by
  intro i hi hname
  refine ⟨?_, h.moved_of_name? (mem_nodes_of_declared h.tree hn hi) hname⟩
  rw [← Bool.not_eq_true]
  -- what is gone is used, and identifiers that declare a name are not
  intro hgone
  obtain ⟨r, hr⟩ := (h.isImportUse_iff i.id).mp hgone
  obtain ⟨u, hu, hid⟩ := hr.exists_use h.scopes
  obtain ⟨e, he, hu⟩ := List.mem_flatMap.mp hu
  exact declared_not_used h.tree hn hi he u hu hid

/-- Imported names are read through capabilities and handles. -/
theorem isSupplied_of_importReadings {i : Nat} {r : Reading} {x : String}
    (hr : (i, r) ∈ importReadings (handleOf (dependencies items)) items) (hx : x ∈ r.names) :
    IsSupplied (dependencies items) x := by
  obtain ⟨item, hi, specifiers, source, hk, s, -, -, name, hname⟩ := mem_importReadings.mp hr
  have hs : source ∈ dependencies items := mem_dependencies hi (by rw [sourceOf?, hk])
  rcases importedName?_eq hname with ⟨rfl, -⟩ | ⟨rfl, -⟩
  · obtain rfl := List.mem_singleton.mp hx
    exact isSupplied_handleOf hs
  · simp only [Reading.names, List.mem_cons, List.not_mem_nil, or_false] at hx
    rcases hx with rfl | rfl
    · exact .inl ⟨.namespaceOf, rfl⟩
    · exact isSupplied_handleOf hs

/-- The embedding leaves the nodes of the items in their places. -/
theorem carriesItems (h : IsRead m items) :
    CarriesItems (m.embedding p tree) (UsesImport items m.scopes) m.root items where
  drops := h.drops
  names := fun n hn hname => h.moved_of_name? hn hname
  below := by
    intro n hn htop c hc
    refine standIn_of_not_unwrapped h.tree (Node.mem_nodes_below hn hc) ?_ fun item hi ht => ?_
    · rintro rfl
      exact Node.root_not_child hn hc
    · obtain ⟨rfl, htop'⟩ := isTop_of_unwrapped h.tree hi ht hn hc
      rw [htop] at htop'
      cases htop'
  declared := fun n hn => h.kept_declared hn
  declarators := by
    intro n hn kind ds hk d hd i hi
    refine h.kept_declared hn i (boundIdentifiers_subset_declaredIdentifiers h.tree hn ?_ hi)
    rw [declaratorsOf, hk]
    exact hd
  kept := by
    intro item hi ht
    refine standIn_of_not_unwrapped h.tree (h.tree.mem_nodes_item hi) (item_ne_root h.tree hi)
      fun other ho ht' => not_child_of_item h.tree hi ho (unwrapped_mem_children ht')
  unwrapped := by
    intro item hi d ht
    refine ⟨standIn_unwrapped h.tree hi ht, ?_⟩
    rintro ⟨u, hu, hid⟩
    obtain ⟨e, he, hu⟩ := List.mem_flatMap.mp hu
    obtain ⟨k, hk, hkid, hname⟩ := exists_node_of_use he hu
    obtain rfl := h.tree.distinct.eq_of_id hk (Node.mem_nodes_below (h.tree.mem_nodes_item hi)
      (unwrapped_mem_children ht)) (hkid.trans hid)
    rw [name?_of_unwrapped (h.tree.items item hi) ht] at hname
    cases hname
  held := by
    intro item hi v ht
    have hroot := h.tree.mem_nodes_item hi
    have hchild := held_mem_children ht
    refine standIn_of_not_unwrapped h.tree (Node.mem_nodes_below hroot hchild) ?_
      fun other ho ht' => ?_
    · rintro rfl
      exact Node.root_not_child hroot hchild
    · obtain ⟨rfl, -⟩ := isTop_of_unwrapped h.tree ho ht' hroot hchild
      cases ht.symm.trans ht'
  readings := by
    rintro i r ⟨_, _, -, -, -, hr⟩ x hx
    change IsSupplied _ x
    rw [h.itemsOf]
    exact isSupplied_of_importReadings hr hx
  capabilities := fun c => .inl ⟨c, rfl⟩

end IsRead

end EsModule.Compile
