import EsModule.Proofs.Compile.Embedded
import EsModule.Proofs.Scope.Placed
import EsModule.Proofs.Scope.Visible

/-!
# The order of the patches of the first stage

The nodes that are patched first come from the lists of several bindings and from a walk over the
tree. No node is met twice (`nodup_targets`): a binding lists a node once, two bindings list no node
in common, since a node has one name, and what speaks to the loader is no identifier. So each node
takes the form of its one patch, whatever the order is, and neither what is unwrapped nor what is
taken out is patched before (`identifiers_commute`).
-/

namespace EsModule.Compile

open EsModule.Syntax EsModule.Scope

/-- The node whose kind a patch changes. -/
def Patch.target : Patch → Nat
  | .replace target _ | .unwrap target _ | .intoExpression target | .remove target => target

/-! ## The nodes that are patched first -/

theorem targets_usePatches {uses : List (Nat × Reading)} {s s1 : Nat} {patches : List Patch}
    (h : Threaded (fun u => do return .replace u.1 (← u.2.kind)) uses s patches s1) :
    patches.map Patch.target = uses.map (·.1) := by
  induction h with
  | nil => rfl
  | @cons u us p ps s s1 s2 h _ ih =>
    have hkind : (p, s1) = (.replace u.1 (u.2.kind s).1, (u.2.kind s).2) := h.symm
    obtain ⟨rfl, -⟩ := Prod.mk.inj hkind
    rw [List.map_cons, List.map_cons, ih]
    rfl

theorem targets_runTimePatches {ns : List Node} {s s1 : Nat} {patches : List (Option Patch)}
    (h : Threaded runTimePatch? ns s patches s1) :
    (patches.filterMap id).map Patch.target = (ns.filter speaks).map Node.id := by
  induction h with
  | nil => rfl
  | @cons n ns p ps s s1 s2 h _ ih =>
    rcases runTimePatch?_eq n s with ⟨heq, hspeaks⟩ | ⟨f, s', heq, hspeaks, htarget, -⟩
    · obtain ⟨rfl, -⟩ := Prod.mk.inj (heq.symm.trans h)
      rw [List.filter_cons_of_neg (by simp [hspeaks])]
      exact ih
    · obtain ⟨rfl, -⟩ := Prod.mk.inj (heq.symm.trans h)
      rw [List.filter_cons_of_pos hspeaks, List.map_cons, ← ih, ← htarget]
      rfl

/-- What speaks to the loader is no name. -/
theorem name?_of_speaks {n : Node} (h : speaks n = true) : n.name? = none := by
  unfold speaks at h
  unfold Node.name?
  split
  · rename_i hk
    rw [hk] at h
    cases h
  · rfl

/-- First the uses of imported names are patched, and then what speaks to the loader. -/
theorem targets_identifiers (root : Node) (items : List Node) (scopes : ScopeTree) :
    (standalonePatches root items scopes).identifiers.map Patch.target =
      (importUses (importReadings (handleOf (dependencies items)) items) scopes).map (·.1) ++
        (root.nodes.filter speaks).map Node.id := by
  rcases h1 : usePatches (importUses (importReadings (handleOf (dependencies items)) items) scopes)
    root.numberBound with ⟨uses, s1⟩
  rcases h2 : root.nodes.mapM runTimePatch? s1 with ⟨runTime, s2⟩
  rcases h3 : items.mapM itemPatches s2 with ⟨staged, s3⟩
  have huses := threaded_mapM (fun u : Nat × Reading => (do return .replace u.1 (← u.2.kind) :
    Supply Patch)) (importUses (importReadings (handleOf (dependencies items)) items) scopes)
    root.numberBound
  have hrunTime := threaded_mapM runTimePatch? root.nodes s1
  rw [← usePatches, h1] at huses
  rw [h2] at hrunTime
  rw [standalonePatches_eq h1 h2 h3]
  change (uses ++ runTime.filterMap id).map Patch.target = _
  rw [List.map_append, targets_usePatches huses, targets_runTimePatches hrunTime]

/-! ## The nodes that a binding lists -/

/-- The nodes that a binding lists, each once. -/
def listed (b : Binding) : List Nat :=
  b.mutations.foldl (fun nodes n => addOnce n nodes) b.references

theorem mem_listed {b : Binding} {i : Nat} : i ∈ listed b ↔ i ∈ b.references ∨ i ∈ b.mutations :=
  mem_foldl_addOnce ..

theorem nodup_foldl_addOnce {ms : List Nat} (ns : List Nat) (h : ms.Nodup) :
    (ns.foldl (fun nodes n => addOnce n nodes) ms).Nodup := by
  induction ns generalizing ms with
  | nil => exact h
  | cons n ns ih => exact ih (ScopeTree.nodup_addOnce h)

/-- The nodes of the uses of imported names, binding by binding. -/
theorem targets_importUses (readings : List (Nat × Reading)) (scopes : ScopeTree) :
    (importUses readings scopes).map Prod.fst =
      ((scopes.scopes[0]?.map (·.bindings)).getD []).flatMap fun (_, b) =>
        if b.kind = .imported ∧ (readings.lookup b.node).isSome then listed b else [] := by
  unfold importUses
  rw [List.map_flatMap]
  congr 1
  funext ⟨x, b⟩
  dsimp only
  split
  · rename_i r hkind hlookup
    rw [if_pos ⟨hkind, by rw [hlookup]; rfl⟩, List.map_map]
    exact List.map_id _
  · rename_i hne
    refine (if_neg ?_).symm
    rintro ⟨hkind, hsome⟩
    obtain ⟨r, hr⟩ := Option.isSome_iff_exists.mp hsome
    exact hne r hkind hr

namespace IsRead

variable {m : Module} {items : List Node}

/-- What a binding lists is a node of the module. -/
theorem exists_node_of_listed (h : IsRead m items) {s i : Nat} {x : String} {b : Binding}
    (hb : m.scopes.bindingAt? s x = some b) (hi : i ∈ listed b) :
    ∃ n ∈ m.root.nodes, n.id = i ∧ n.name? = some x := by
  obtain ⟨u, hu, hid, hx⟩ := exists_use_of_listed h.scopes hb (mem_listed.mp hi)
  obtain ⟨e, he, hu⟩ := List.mem_flatMap.mp hu
  obtain ⟨n, hn, hnid, hname⟩ := exists_node_of_use he hu
  exact ⟨n, hn, hnid.trans hid, hname.trans (congrArg some hx)⟩

/-- Two bindings of different names list no node in common. -/
theorem name_of_listed (h : IsRead m items) {i s s' : Nat} {x x' : String} {b b' : Binding}
    (hb : m.scopes.bindingAt? s x = some b) (hb' : m.scopes.bindingAt? s' x' = some b')
    (hi : i ∈ listed b) (hi' : i ∈ listed b') : x = x' := by
  obtain ⟨n, hn, hid, hx⟩ := h.exists_node_of_listed hb hi
  obtain ⟨n', hn', hid', hx'⟩ := h.exists_node_of_listed hb' hi'
  obtain rfl := h.tree.distinct.eq_of_id hn hn' (hid.trans hid'.symm)
  exact Option.some.inj (hx.symm.trans hx')

/-- A binding lists a node once. -/
theorem nodup_listed (h : IsRead m items) {s : Nat} {x : String} {b : Binding}
    (hb : m.scopes.bindingAt? s x = some b) : (listed b).Nodup :=
  have honce := listsOnce_collect h.scopes
  nodup_foldl_addOnce _ (honce.bindings hb .read)

/-- The uses of imported names are different nodes. -/
theorem nodup_importUses (h : IsRead m items) (readings : List (Nat × Reading)) :
    ((importUses readings m.scopes).map Prod.fst).Nodup := by
  have hkeyed := keyed_collect h.scopes
  rw [targets_importUses, List.nodup_flatMap]
  constructor
  · rintro ⟨x, b⟩ hb
    dsimp only
    split
    · exact h.nodup_listed ((mem_programBindings hkeyed).mp hb)
    · exact List.nodup_nil
  · have hnames : ((m.scopes.scopes[0]?.map (·.bindings)).getD []).Pairwise
        fun e e' => e.1 ≠ e'.1 := by
      cases hscope : m.scopes.scopes[0]? with
      | none => exact .nil
      | some s => exact List.pairwise_map.mp (hkeyed 0 s hscope)
    refine hnames.imp_of_mem ?_
    rintro ⟨x, b⟩ ⟨x', b'⟩ hb hb' hne i hi hi'
    dsimp only at hi hi'
    split at hi
    · split at hi'
      · exact hne (h.name_of_listed ((mem_programBindings hkeyed).mp hb)
          ((mem_programBindings hkeyed).mp hb') hi hi')
      · cases hi'
    · cases hi

end IsRead

/-! ## The names that imports declare -/

/-- A name of an import that is written down declares it. -/
theorem declaration_of_importedName? {handle : String} {s : Node} {name : ImportedName}
    {r : Reading} (h : importedName? handle s = some (name, r))
    (hnames : ∀ c ∈ s.kind.children, c.name?.isSome = true) :
    Scope.importedName? s = some ⟨.block, .imported, name.binding, s.id⟩ := by
  have hdeclared : ∀ {i : Node}, i.name?.isSome = true →
      i.name?.map (fun x => (⟨.block, .imported, x, s.id⟩ : Declaration)) =
        some ⟨.block, .imported, i.name?.getD "", s.id⟩ := by
    intro i hi
    obtain ⟨x, hx⟩ := Option.isSome_iff_exists.mp hi
    rw [hx]
    rfl
  unfold importedName? at h
  unfold Scope.importedName?
  generalize s.kind = kind at h hnames
  cases kind
  case importSpecifier | importDefaultSpecifier | importNamespaceSpecifier =>
    obtain ⟨rfl, -⟩ := Prod.mk.inj (Option.some.inj h)
    exact hdeclared (hnames _ (List.mem_singleton_self _))
  all_goals cases h

namespace IsRead

variable {m : Module} {items : List Node}

/-- No name of the program is a parameter. -/
theorem ne_param (h : IsRead m items) {x : String} {k : BindingKind} {j : Nat}
    (hfirst : firstAt? (placementsOf m.root) 0 x = some (k, j)) : k ≠ .param := by
  have hc := collected h.scopes
  obtain ⟨front, ⟨n, d⟩, back, -, ⟨-, owner, hdeclares, hs⟩, heq, -⟩ := exists_first
    (hc.forall₂_placementsOf h.tree) (fun p e hp => hp.receives_iff hc.toShaped h.tree) hfirst
  rintro rfl
  obtain ⟨hkind, -⟩ := Prod.mk.inj heq
  dsimp only at hkind hdeclares
  rw [← hkind] at hdeclares
  generalize d.node = j' at hdeclares
  cases hdeclares with
  | parameter hn hp _ _ =>
    have hroot : m.root.id = n.id := Option.some.inj (hc.isScopeOf_iff.mp hs)
    obtain rfl := h.tree.distinct.eq_of_id m.root.mem_nodes_self hn hroot
    rw [Node.parameters, h.tree.kind] at hp
    cases hp

/-- What a name of an import declares. -/
theorem importedName?_of_specifier (h : IsRead m items) {item s : Node} {specifiers : List Node}
    {source handle : String} {name : ImportedName} {r : Reading} (hi : item ∈ items)
    (hk : item.kind = .importDeclaration specifiers source) (hs : s ∈ specifiers)
    (hname : importedName? handle s = some (name, r)) :
    Scope.importedName? s = some ⟨.block, .imported, name.binding, s.id⟩ := by
  have hremoved : treatment item = .removed := by rw [treatment, hk]
  exact declaration_of_importedName? hname (specifiers_of_removed (h.tree.items item hi) hremoved s
    (by rw [hk]; exact hs)).2

/-- A name of an import is bound by it. -/
theorem exists_import (h : IsRead m items) {item s : Node} {specifiers : List Node}
    {source handle : String} {name : ImportedName} {r : Reading} (hi : item ∈ items)
    (hk : item.kind = .importDeclaration specifiers source) (hs : s ∈ specifiers)
    (hname : importedName? handle s = some (name, r)) :
    ∃ b, m.scopes.bindingAt? 0 name.binding = some b ∧ b.kind = .imported ∧ b.node = s.id := by
  have hc := collected h.scopes
  have hd : ⟨.block, .imported, name.binding, s.id⟩ ∈ declarations item := by
    rw [declarations, hk]
    exact List.mem_filterMap.mpr ⟨s, hs, h.importedName?_of_specifier hi hk hs hname⟩
  obtain ⟨q, hq, hof⟩ := exists_match (hc.forall₂_placementsOf h.tree).flip (List.mem_flatMap.mpr
    ⟨item, h.tree.mem_nodes_item hi, List.mem_map_of_mem (f := (item, ·)) hd⟩)
  have hkind : q.kind = .imported := hof.kind
  have hscope := (exists_importedName h.tree hq hkind).1
  obtain ⟨⟨k, j⟩, hfirst⟩ := firstAt?_isSome_of_mem hq
  have hallows := collect_iff.mp ⟨_, h.scopes⟩ q hq k j (by rw [Option.none_or, hfirst])
  have hfirst : firstAt? (placementsOf m.root) 0 name.binding = some (k, j) := by
    rwa [hscope, hof.name] at hfirst
  have hdeclared := (hc.declared 0 name.binding).trans hfirst
  obtain ⟨b, hb, heq⟩ := Option.map_eq_some_iff.mp hdeclared
  obtain ⟨rfl, rfl⟩ := Prod.mk.inj heq
  rcases hallows with hnode | hparam | ⟨-, hlexical⟩
  · obtain ⟨p, hp, -, -, heq⟩ := exists_of_firstAt? hfirst
    obtain ⟨hpkind, hpnode⟩ := Prod.mk.inj heq
    refine ⟨b, hb, ?_, hnode.trans hof.node⟩
    rw [hpkind]
    exact imported_of_node h.tree hq hp (hnode.symm.trans hpnode) hkind
  · exact absurd hparam (h.ne_param hfirst)
  · rw [hkind] at hlexical
    cases hlexical

end IsRead

/-- The names that some imports declare, with the specifiers that declare them. -/
def importedAt (handles : String → String) (items : List Node) : List (Nat × String) :=
  items.flatMap fun item =>
    match item.kind with
    | .importDeclaration specifiers source => specifiers.filterMap fun s =>
        (importedName? (handles source) s).map fun (name, _) => (s.id, name.binding)
    | _ => []

theorem importedAt_keys (handles : String → String) (items : List Node) :
    (importedAt handles items).map Prod.fst = (importReadings handles items).map Prod.fst := by
  unfold importedAt importReadings
  rw [List.map_flatMap, List.map_flatMap]
  congr 1
  funext ⟨id, span, kind⟩
  cases kind
  case importDeclaration specifiers source =>
    dsimp only [Node.kind]
    rw [List.map_filterMap, List.map_filterMap]
    simp only [Option.map_map]
    rfl
  all_goals rfl

theorem mem_importedAt {handles : String → String} {items : List Node} {i : Nat} {x : String} :
    (i, x) ∈ importedAt handles items ↔ ∃ item ∈ items, ∃ specifiers source,
      item.kind = .importDeclaration specifiers source ∧ ∃ s ∈ specifiers, s.id = i ∧
        ∃ name r, importedName? (handles source) s = some (name, r) ∧ name.binding = x := by
  rw [importedAt, List.mem_flatMap]
  refine exists_congr fun item => and_congr_right fun _ => ?_
  split
  · rename_i specifiers source hk
    simp only [hk, List.mem_filterMap, Option.map_eq_some_iff, Prod.mk.injEq, Prod.exists,
      Kind.importDeclaration.injEq]
    grind
  · rename_i hk
    constructor
    · nofun
    · rintro ⟨specifiers, source, hk', -⟩
      exact absurd hk' (hk _ _)

/-- The names that the imports of a module declare. -/
def Module.importNames (m : Module) : List String :=
  (m.interface.imports.filter (!·.isExport)).flatMap fun i => i.names.map (·.binding)

/-- The nodes that use an imported name, each once. -/
def Module.usesOf (m : Module) (x : String) : List Nat :=
  match m.scopes.bindingAt? 0 x with
  | some b => if b.kind = .imported then listed b else []
  | none => []

theorem filter_importOf? (handles : String → String) (items : List Node) :
    (items.filterMap (importOf? handles)).filter (!·.isExport) =
      items.filterMap (importOf? handles) := by
  rw [List.filter_eq_self]
  intro i hi
  obtain ⟨item, -, h⟩ := List.mem_filterMap.mp hi
  unfold importOf? at h
  split at h <;> cases h
  rfl

theorem filter_reexportOf? (handles : String → String) (items : List Node) :
    (items.filterMap (reexportOf? handles)).filter (!·.isExport) = [] := by
  rw [List.filter_eq_nil_iff]
  intro i hi
  obtain ⟨item, -, h⟩ := List.mem_filterMap.mp hi
  unfold reexportOf? at h
  split at h <;> cases h <;> simp

namespace IsRead

variable {m : Module} {items : List Node}

theorem importNames_eq (h : IsRead m items) :
    m.importNames = (importedAt (handleOf (dependencies items)) items).map Prod.snd := by
  rw [Module.importNames, h.interface, Interface.ofItems]
  dsimp only
  rw [List.filter_append, filter_importOf?, filter_reexportOf?, List.append_nil, importedAt,
    List.map_flatMap, List.filterMap_eq_flatMap_toList, List.flatMap_assoc]
  congr 1
  funext ⟨id, span, kind⟩
  cases kind
  case importDeclaration specifiers source =>
    change List.flatMap _ [_] = _
    dsimp only [Node.kind]
    rw [List.flatMap_singleton, List.map_filterMap, List.map_filterMap]
    simp only [Option.map_map]
    rfl
  all_goals rfl

/-- No two imports declare a name, since a name has one binding and that has one node. -/
theorem nodup_importNames (h : IsRead m items) : m.importNames.Nodup := by
  have hkeys := nodup_importReadings h.tree (handleOf (dependencies items))
  rw [← importedAt_keys] at hkeys
  rw [h.importNames_eq]
  refine List.pairwise_map.mpr ((List.pairwise_map.mp hkeys).imp_of_mem ?_)
  rintro ⟨i, x⟩ ⟨j, _⟩ hi hj hne rfl
  obtain ⟨item, hitem, specifiers, source, hk, s, hs, rfl, name, r, hname, hx⟩ :=
    mem_importedAt.mp hi
  obtain ⟨item', hitem', specifiers', source', hk', s', hs', rfl, name', r', hname', hx'⟩ :=
    mem_importedAt.mp hj
  obtain ⟨b, hb, -, hnode⟩ := h.exists_import hitem hk hs hname
  obtain ⟨b', hb', -, hnode'⟩ := h.exists_import hitem' hk' hs' hname'
  rw [hx] at hb
  rw [hx'] at hb'
  obtain rfl := Option.some.inj (hb.symm.trans hb')
  exact hne (hnode.symm.trans hnode')

theorem mem_usesOf {x : String} {i : Nat} : i ∈ m.usesOf x ↔
    ∃ b, m.scopes.bindingAt? 0 x = some b ∧ b.kind = .imported ∧ i ∈ listed b := by
  unfold Module.usesOf
  cases m.scopes.bindingAt? 0 x with
  | none => simp
  | some b => simp

theorem nodup_usesOf (h : IsRead m items) (x : String) : (m.usesOf x).Nodup := by
  unfold Module.usesOf
  split
  · rename_i b hb
    split
    · exact h.nodup_listed hb
    · exact List.nodup_nil
  · exact List.nodup_nil

/-- The uses of imported names are those of the names that the imports declare. -/
theorem importUses_perm (h : IsRead m items) :
    ((importUses (importReadings (handleOf (dependencies items)) items) m.scopes).map Prod.fst).Perm
      (m.importNames.flatMap m.usesOf) := by
  refine (List.perm_ext_iff_of_nodup (h.nodup_importUses _) (List.nodup_flatMap.mpr
    ⟨fun x _ => h.nodup_usesOf x, h.nodup_importNames.imp fun hne i hi hi' => ?_⟩)).mpr fun i => ?_
  · obtain ⟨b, hb, -, hi⟩ := mem_usesOf.mp hi
    obtain ⟨b', hb', -, hi'⟩ := mem_usesOf.mp hi'
    exact hne (h.name_of_listed hb hb' hi hi')
  · have hmem : i ∈ (importUses (importReadings (handleOf (dependencies items)) items)
        m.scopes).map Prod.fst ↔ ∃ r, UsesImport items m.scopes i r := by
      simp only [List.mem_map, Prod.exists, ← mem_importUses_iff h.tree h.scopes]
      grind
    rw [hmem, h.usesImport_iff, List.mem_flatMap]
    constructor
    · rintro ⟨_, x, b, hb, hkind, hi⟩
      obtain ⟨rfl, item, hitem, specifiers, source, hk, s, hs, hname, -⟩ :=
        h.exists_specifier hb hkind
      obtain ⟨name, r, hr⟩ := exists_importedReading (handleOf (dependencies items) source) hname
      have hx : name.binding = x := congrArg Declaration.name (Option.some.inj
        ((h.importedName?_of_specifier hitem hk hs hr).symm.trans hname))
      refine ⟨x, ?_, mem_usesOf.mpr ⟨b, hb, hkind, mem_listed.mpr hi⟩⟩
      rw [h.importNames_eq]
      exact List.mem_map.mpr ⟨(s.id, x), mem_importedAt.mpr
        ⟨item, hitem, specifiers, source, hk, s, hs, rfl, name, r, hr, hx⟩, rfl⟩
    · rintro ⟨x, -, hi⟩
      obtain ⟨b, hb, hkind, hi⟩ := mem_usesOf.mp hi
      exact ⟨0, x, b, hb, hkind, mem_listed.mp hi⟩

/-! ### The nodes that are patched first -/

/-- No node is patched first twice. -/
theorem nodup_targets (h : IsRead m items) :
    ((standalonePatches m.root items m.scopes).identifiers.map Patch.target).Nodup := by
  rw [targets_identifiers, List.nodup_append]
  have hspeaks : (m.root.nodes.map Node.id).Nodup := h.tree.distinct
  refine ⟨h.nodup_importUses _, hspeaks.sublist (List.filter_sublist.map _), ?_⟩
  rintro i hi _ hi' rfl
  obtain ⟨⟨_, r⟩, hr, rfl⟩ := List.mem_map.mp hi
  obtain ⟨n, hn, hid⟩ := List.mem_map.mp hi'
  obtain ⟨hn, hspeaks⟩ := List.mem_filter.mp hn
  obtain ⟨k, hk, hkid, hname⟩ := ((mem_importUses_iff h.tree h.scopes).mp hr).exists_node h.scopes
  obtain rfl := h.tree.distinct.eq_of_id hk hn (hkid.trans hid.symm)
  rw [name?_of_speaks hspeaks] at hname
  cases hname

/-- The nodes that are patched first, name by name. -/
theorem targets_perm (h : IsRead m items) :
    ((standalonePatches m.root items m.scopes).identifiers.map Patch.target).Perm
      (m.importNames.flatMap m.usesOf ++ (m.root.nodes.filter speaks).map Node.id) := by
  rw [targets_identifiers]
  exact h.importUses_perm.append_right _

end IsRead

/-! ## The order of the forms -/

section

variable {forms forms' : List Form} {root : Node} {low high : Nat}

theorem formAt?_eq_some_iff (h : (forms.map Form.target).Nodup) {f : Form} {i : Nat} :
    formAt? forms i = some f ↔ f ∈ forms ∧ f.target = i := by
  refine ⟨formAt?_eq_some, ?_⟩
  rintro ⟨hf, rfl⟩
  obtain ⟨g, hg⟩ := exists_formAt? hf
  obtain ⟨hgm, htarget⟩ := formAt?_eq_some hg
  rwa [List.inj_on_of_nodup_map h hgm hf htarget] at hg

/-- Which form a node takes does not depend on the order, if no node has two. -/
theorem formAt?_perm (hp : forms.Perm forms') (h : (forms.map Form.target).Nodup) (i : Nat) :
    formAt? forms i = formAt? forms' i := by
  ext f
  rw [formAt?_eq_some_iff h, formAt?_eq_some_iff ((hp.map _).nodup_iff.mp h), hp.mem_iff]

theorem rewrite_perm (hp : forms.Perm forms') (h : (forms.map Form.target).Nodup) :
    rewrite forms = rewrite forms' := by
  unfold rewrite
  simp only [formAt?_perm hp h]

theorem settleAll_congr (h : rewrite forms = rewrite forms') (items : List Node) (s : Nat) :
    settleAll forms items s = settleAll forms' items s := by
  induction items generalizing s with
  | nil => rfl
  | cons item items ih =>
    have hitem : settle forms item s = settle forms' item s := by
      unfold settle settledValue
      rw [h]
    rw [settleAll, settleAll, hitem, ih]

namespace Fits

theorem perm (h : Fits forms root low high) (hp : forms.Perm forms') :
    Fits forms' root low high where
  old := h.old
  children f hf := h.children f (hp.mem_iff.mpr hf)
  news :=
    have hids := hp.flatMap_right fun f => idsOf f.news
    ⟨h.news.le, hids.nodup_iff.mp h.news.nodup, fun i hi => h.news.mem i (hids.mem_iff.mpr hi)⟩

/-- The patches of the first stage alone make the tree whose nodes have taken their forms. -/
theorem apply_first (h : Fits forms root low high) (hd : root.Distinct) :
    (PatchQueue.mk (forms.map Form.patch) [] []).apply root = rewrite forms root := by
  have htaken := h.taken hd
  have hdistinct : (rewrite forms root).Distinct := by
    unfold Node.Distinct
    rw [← idsOf_eq]
    exact (h.grows_rewrite hd root.mem_nodes_self).nodup
  have hholds := h.holds hd htaken.news root.mem_nodes_self fun n hn => by
    rw [NodeTable.Holds, id_rewrite]
    exact htaken.old n hn
  have hid : (rewrite forms root).id = root.id := id_rewrite root
  rw [PatchQueue.apply, PatchQueue.patches, List.append_nil, List.append_nil, List.foldl_map, ← hid]
  exact NodeTable.tree_eq hdistinct hholds

/-- Forms of different nodes can be taken in any order. -/
theorem apply_perm (h : Fits forms root low high) (hd : root.Distinct) {items : List Node}
    (hk : root.kind = .program items) (hnone : formAt? forms root.id = none)
    (htargets : (forms.map Form.target).Nodup) {order : List Patch}
    (horder : order.Perm (forms.map Form.patch)) :
    (PatchQueue.mk order [] []).apply root =
        (PatchQueue.mk (forms.map Form.patch) [] []).apply root ∧
      (queueOf order items high).apply root =
        (queueOf (forms.map Form.patch) items high).apply root := by
  obtain ⟨forms', rfl, hperm⟩ :=
    (congrFun (congrFun (List.eq_map_comp_perm Form.patch) order) forms).mpr horder
  have hfits := h.perm hperm.symm
  have hrewrite := rewrite_perm hperm.symm htargets
  have hnone' := (formAt?_perm hperm.symm htargets root.id).symm.trans hnone
  constructor
  · rw [hfits.apply_first hd, h.apply_first hd, hrewrite]
  · rw [hfits.apply_queueOf hd hk hnone', h.apply_queueOf hd hk hnone, settleAll_congr hrewrite]

end Fits

end

/-! ## What is patched later -/

/-- The nodes whose kinds a patch changes. -/
def Patch.changed : Patch → List Nat
  | .unwrap target inner => [target, inner]
  | .replace target _ | .intoExpression target | .remove target => [target]

theorem exists_item_of_later {items : List Node} {s : Nat} {p : Stage × Patch}
    (h : p ∈ patchesOfAll items s) : ∃ item ∈ items, ∃ s, p ∈ patchesOf item s := by
  induction items generalizing s with
  | nil => cases h
  | cons item items ih =>
    rcases List.mem_append.mp h with h | h
    · exact ⟨item, List.mem_cons_self, s, h⟩
    · obtain ⟨item', hitem, hp⟩ := ih h
      exact ⟨item', List.mem_cons_of_mem _ hitem, hp⟩

/-- An item that does not stay is no name, and does not speak to the loader by itself. -/
theorem plain_of_treated {item : Node} (h : treatment item ≠ .kept) :
    item.name? = none ∧ speaks item = false := by
  unfold treatment at h
  unfold Node.name? speaks
  generalize item.kind = kind at h
  cases kind <;> first | exact ⟨rfl, rfl⟩ | exact absurd rfl h

theorem isDeclaration_of_isFunctionOrClass {n : Node} (h : isFunctionOrClass n = true) :
    isDeclaration n = true := by
  unfold isFunctionOrClass at h
  unfold isDeclaration
  generalize n.kind = kind at h
  cases kind <;> first | rfl | cases h

/-- What is patched for an item is no name, and does not speak to the loader by itself. -/
theorem plain_of_changed {root item : Node} {items : List Node} (h : ModuleTree root items)
    (hi : item ∈ items) {s : Nat} {p : Stage × Patch} (hp : p ∈ patchesOf item s) {i : Nat}
    (hchanged : i ∈ p.2.changed) :
    ∃ n ∈ root.nodes, n.id = i ∧ n.name? = none ∧ speaks n = false := by
  have hitem := h.mem_nodes_item hi
  unfold patchesOf at hp
  cases ht : treatment item with
  | kept =>
    rw [ht] at hp
    cases hp
  | removed =>
    rw [ht, List.mem_singleton] at hp
    subst hp
    obtain rfl := List.mem_singleton.mp hchanged
    exact ⟨item, hitem, rfl, plain_of_treated (by rw [ht]; nofun)⟩
  | unwrapped d =>
    rw [ht, List.mem_singleton] at hp
    subst hp
    simp only [Patch.changed, List.mem_cons, List.not_mem_nil, or_false] at hchanged
    rcases hchanged with rfl | rfl
    · exact ⟨item, hitem, rfl, plain_of_treated (by rw [ht]; nofun)⟩
    · exact ⟨d, Node.mem_nodes_below hitem (unwrapped_mem_children ht), rfl,
        plain_of_isDeclaration (isDeclaration_of_unwrapped (h.items item hi) ht)⟩
  | held value =>
    rw [ht, List.mem_append, List.mem_singleton] at hp
    rcases hp with hp | rfl
    · split at hp
      · rename_i hvalue
        rw [List.mem_singleton] at hp
        subst hp
        obtain rfl := List.mem_singleton.mp hchanged
        exact ⟨value, Node.mem_nodes_below hitem (held_mem_children ht), rfl,
          plain_of_isDeclaration (isDeclaration_of_isFunctionOrClass hvalue)⟩
      · cases hp
    · obtain rfl := List.mem_singleton.mp hchanged
      exact ⟨item, hitem, rfl, plain_of_treated (by rw [ht]; nofun)⟩

/-! ## The main result -/

/-- Whether a node is an identifier that the scopes resolve to a name of an import. -/
def ResolvesToImport (t : ScopeTree) (n : Node) : Prop :=
  ∃ x b, n.kind = .identifier x ∧ t.bindingAt? 0 x = some b ∧ b.kind = .imported ∧
    (n.id ∈ b.references ∨ n.id ∈ b.mutations)

/-- Whether the patches of the first stage of a module can be applied in any order. -/
structure AnyOrder (m : Module) (q : PatchQueue) : Prop where
  /-- No node is patched twice. -/
  distinct : (q.identifiers.map Patch.target).Nodup
  /-- The patched nodes are the uses of the names that the imports declare, name by name, and those
  that speak to the loader. -/
  listed : (q.identifiers.map Patch.target).Perm
    (m.importNames.flatMap m.usesOf ++ (m.root.nodes.filter speaks).map Node.id)
  /-- Each patch gives another kind to a node of the tree, which is an identifier that is resolved
  to a name of an import, an import at run time, or what the module knows about itself. -/
  resolved : ∀ p ∈ q.identifiers, ∃ n ∈ m.root.nodes, (∃ kind, p = .replace n.id kind) ∧
    (ResolvesToImport m.scopes n ∨ (∃ source, n.kind = .importExpression source) ∨
      n.kind = .metaProperty .importMeta)
  /-- No later patch changes any of these nodes: none is a statement that is taken out or unwrapped,
  and none is the declaration in it. -/
  apart : ∀ p ∈ q.identifiers, ∀ later ∈ q.declarations ++ q.removals, p.target ∉ later.changed
  /-- The patches of the first stage make the same tree in any order. -/
  tree : ∀ order, order.Perm q.identifiers →
    (PatchQueue.mk order [] []).apply m.root = (PatchQueue.mk q.identifiers [] []).apply m.root
  /-- So do those of all stages, if the ones of the first stage are applied in another order. -/
  standalone : ∀ order, order.Perm q.identifiers →
    { q with identifiers := order }.apply m.root = m.standalone

namespace IsRead

variable {m : Module} {items : List Node}

theorem resolvesToImport (h : IsRead m items) {n : Node} (hn : n ∈ m.root.nodes) {r : Reading}
    (hr : UsesImport items m.scopes n.id r) : ResolvesToImport m.scopes n := by
  obtain ⟨x, b, hb, hkind, hi, -⟩ := hr
  obtain ⟨k, hk, hid, hname⟩ := h.exists_node_of_listed hb (mem_listed.mpr hi)
  obtain rfl := h.tree.distinct.eq_of_id hk hn hid
  refine ⟨x, b, ?_, hb, hkind, hi⟩
  unfold Node.name? at hname
  split at hname
  · rename_i hk
    rw [hk, Option.some.inj hname]
  · cases hname

/-- What is patched first is what the scopes resolve to an import, or it speaks to the loader. -/
theorem exists_resolved (h : IsRead m items) {forms : List Form} {bound : Nat}
    (hforms : ModuleForms m.root items m.scopes forms bound) {f : Form} (hf : f ∈ forms) :
    ∃ n ∈ m.root.nodes, f.target = n.id ∧ (ResolvesToImport m.scopes n ∨
      (∃ source, n.kind = .importExpression source) ∨ n.kind = .metaProperty .importMeta) := by
  obtain ⟨n, hn, htarget, htakes⟩ := hforms.takes f hf
  refine ⟨n, hn, htarget, ?_⟩
  cases htakes with
  | reading hr => exact .inl (h.resolvesToImport hn ((mem_importUses_iff h.tree h.scopes).mp hr))
  | dynamicImport hk => exact .inr (.inl ⟨_, hk⟩)
  | importMeta hk => exact .inr (.inr hk)

/-- What is patched first is not patched later. -/
theorem target_not_changed (h : IsRead m items) {forms : List Form} {bound : Nat}
    (hforms : ModuleForms m.root items m.scopes forms bound) {f : Form} (hf : f ∈ forms)
    {later : Patch} (hlater : later ∈ laterPatches items bound) : f.target ∉ later.changed := by
  intro hchanged
  obtain ⟨n, hn, hid, hnamed⟩ := hforms.exists_target h.tree h.scopes hf
  obtain ⟨stage, hlater⟩ : ∃ stage, (stage, later) ∈ patchesOfAll items bound := by
    rcases List.mem_append.mp hlater with hlater | hlater
    · exact ⟨_, of_mem_ofStage hlater⟩
    · exact ⟨_, of_mem_ofStage hlater⟩
  obtain ⟨item, hitem, s, hlater⟩ := exists_item_of_later hlater
  obtain ⟨k, hk, hkid, hname, hspeaks⟩ := plain_of_changed h.tree hitem hlater hchanged
  obtain rfl := h.tree.distinct.eq_of_id hk hn (hkid.trans hid.symm)
  simp [hname, hspeaks] at hnamed

theorem anyOrder (h : IsRead m items) : AnyOrder m (standalonePatches m.root items m.scopes) := by
  obtain ⟨forms, bound, hforms, hqueue⟩ := exists_moduleForms h.tree h.scopes
  have hdistinct := h.nodup_targets
  have hlisted := h.targets_perm
  have hstandalone : m.standalone = (standalonePatches m.root items m.scopes).apply m.root := by
    rw [Module.standalone, h.itemsOf]
  rw [hqueue] at hdistinct hlisted hstandalone ⊢
  have htargets : (forms.map Form.target).Nodup := by
    rwa [queueOf, List.map_map] at hdistinct
  have hperm := fun (order : List Patch) (horder : order.Perm (forms.map Form.patch)) =>
    hforms.fits.apply_perm h.tree.distinct h.tree.kind (hforms.formAt?_root h.tree h.scopes)
      htargets horder
  refine ⟨hdistinct, hlisted, fun p hp => ?_, fun p hp later hlater => ?_,
    fun order horder => (hperm order horder).1,
    fun order horder => (hperm order horder).2.trans hstandalone.symm⟩
  · obtain ⟨f, hf, rfl⟩ := List.mem_map.mp hp
    obtain ⟨n, hn, htarget, hresolved⟩ := h.exists_resolved hforms hf
    exact ⟨n, hn, ⟨f.kind, by rw [Form.patch, htarget]⟩, hresolved⟩
  · obtain ⟨f, hf, rfl⟩ := List.mem_map.mp hp
    exact h.target_not_changed hforms hf hlater

end IsRead

/-- No node is patched first twice, and what is patched first is not patched later. So the patches
of the first stage can be applied in any order. -/
theorem identifiers_commute {source file : String} {m : Module}
    (h : Module.ofSource source file = .ok m) :
    AnyOrder m (standalonePatches m.root (itemsOf m.root) m.scopes) := by
  obtain ⟨-, -, items, hread⟩ := isRead_of_ofSource h
  rw [hread.itemsOf]
  exact hread.anyOrder

/-- Two imported names, one of them used twice, and both ways to speak to the loader. -/
theorem identifiers_commute_mixed : ∃ m, Module.ofSource
    "import {a, b} from 'x'; b(a, import('y'), import.meta); export const c = a;" "test.js" =
      .ok m ∧
    (standalonePatches m.root (itemsOf m.root) m.scopes).identifiers.length = 5 ∧
    AnyOrder m (standalonePatches m.root (itemsOf m.root) m.scopes) := by
  have hlength : (Module.ofSource
      "import {a, b} from 'x'; b(a, import('y'), import.meta); export const c = a;"
      "test.js").toOption.map (fun m =>
        (standalonePatches m.root (itemsOf m.root) m.scopes).identifiers.length) = some 5 := by
    decide +kernel
  obtain ⟨m, hm, hlength⟩ := Option.map_eq_some_iff.mp hlength
  have hm : Module.ofSource
      "import {a, b} from 'x'; b(a, import('y'), import.meta); export const c = a;" "test.js" =
        .ok m := by
    generalize Module.ofSource _ _ = x at hm
    cases x with
    | error e => cases hm
    | ok m' => exact congrArg _ (Option.some.inj hm)
  exact ⟨m, hm, hlength, identifiers_commute hm⟩

end EsModule.Compile
