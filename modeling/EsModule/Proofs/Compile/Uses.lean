import EsModule.Compile.Output
import EsModule.Proofs.Compile.Settled
import EsModule.Proofs.Scope.Names

/-!
# Where a module uses what it imports

The scopes list the nodes that use an imported name, and the items say how each imported name is
read. So every node that is patched first is either an identifier that uses an imported name, or
speaks to the loader at run time, and it is patched to the reading that belongs to it.
-/

namespace EsModule.Compile

open EsModule.Syntax EsModule.Scope

/-! ## Imported names -/

/-- Whether a node uses a name that an import declares, and which expression reads the name. -/
def UsesImport (items : List Node) (scopes : ScopeTree) (i : Nat) (r : Reading) : Prop :=
  ∃ name b, scopes.bindingAt? 0 name = some b ∧ b.kind = .imported ∧
    (i ∈ b.references ∨ i ∈ b.mutations) ∧
    (b.node, r) ∈ importReadings (handleOf (dependencies items)) items

theorem mem_foldl_addOnce {i : Nat} (ns ms : List Nat) :
    i ∈ ns.foldl (fun nodes n => addOnce n nodes) ms ↔ i ∈ ms ∨ i ∈ ns := by
  induction ns generalizing ms with
  | nil => simp
  | cons n ns ih => simp only [List.foldl_cons, ih, mem_addOnce, List.mem_cons]; tauto

/-- The names that a module declares in the program's scope, with their bindings. -/
theorem mem_programBindings {scopes : ScopeTree} (hkeyed : scopes.Keyed) {name : String}
    {b : Binding} : (name, b) ∈ ((scopes.scopes[0]?.map (·.bindings)).getD []) ↔
      scopes.bindingAt? 0 name = some b := by
  unfold ScopeTree.bindingAt? EsModule.Scope.binding?
  cases hscope : scopes.scopes[0]? with
  | none => simp
  | some s => exact ⟨lookup_of_mem (hkeyed 0 s hscope), mem_of_lookup⟩

theorem mem_importUses {readings : List (Nat × Reading)} {scopes : ScopeTree} {i : Nat}
    {r : Reading} (hkeyed : scopes.Keyed) : (i, r) ∈ importUses readings scopes ↔
      ∃ name b, scopes.bindingAt? 0 name = some b ∧ b.kind = .imported ∧
        (i ∈ b.references ∨ i ∈ b.mutations) ∧ readings.lookup b.node = some r := by
  unfold importUses
  rw [List.mem_flatMap]
  constructor
  · rintro ⟨⟨name, b⟩, hb, hi⟩
    refine ⟨name, b, (mem_programBindings hkeyed).mp hb, ?_⟩
    dsimp only at hi
    split at hi
    · rename_i reading hkind hlookup
      obtain ⟨j, hj, heq⟩ := List.mem_map.mp hi
      obtain ⟨rfl, rfl⟩ := Prod.mk.inj heq
      exact ⟨hkind, (mem_foldl_addOnce ..).mp hj, hlookup⟩
    · cases hi
  · rintro ⟨name, b, hb, hkind, hi, hlookup⟩
    refine ⟨(name, b), (mem_programBindings hkeyed).mpr hb, ?_⟩
    dsimp only
    rw [hkind, hlookup]
    exact List.mem_map.mpr ⟨i, (mem_foldl_addOnce ..).mpr hi, rfl⟩

theorem map_id_sublist (ns : List Node) : (ns.map Node.id).Sublist (idsOf ns) := by
  induction ns with
  | nil => exact .slnil
  | cons n ns ih =>
    rw [idsOf_cons, idsOf_singleton]
    exact (ih.trans (List.sublist_append_right _ _)).cons_cons _

theorem importReadings_keys (handles : String → String) (items : List Node) :
    ((importReadings handles items).map (·.1)).Sublist (idsOf items) := by
  induction items with
  | nil => exact .slnil
  | cons item items ih =>
    have hsplit : importReadings handles (item :: items) =
        importReadings handles [item] ++ importReadings handles items := by
      simp [importReadings]
    rw [hsplit, List.map_append, idsOf_cons]
    refine List.Sublist.append ?_ ih
    rw [importReadings, List.flatMap_singleton]
    split
    · rename_i specifiers source hk
      rw [idsOf_singleton, hk, Kind.children]
      refine .cons _ (List.Sublist.trans ?_ (map_id_sublist specifiers))
      generalize handles source = handle
      clear hk
      induction specifiers with
      | nil => exact .slnil
      | cons s specifiers ih =>
        cases hs : importedName? handle s with
        | none => simpa [hs] using ih.cons _
        | some name => simpa [hs] using ih
    · exact List.nil_sublist _

/-- The expressions for imported names are those of the specifiers of imports. -/
theorem mem_importReadings {handles : String → String} {items : List Node} {i : Nat} {r : Reading} :
    (i, r) ∈ importReadings handles items ↔ ∃ item ∈ items, ∃ specifiers source,
      item.kind = .importDeclaration specifiers source ∧ ∃ s ∈ specifiers, s.id = i ∧
        ∃ name, importedName? (handles source) s = some (name, r) := by
  rw [importReadings, List.mem_flatMap]
  refine exists_congr fun item => and_congr_right fun _ => ?_
  split
  · rename_i specifiers source hk
    simp only [hk, List.mem_filterMap, Option.map_eq_some_iff, Prod.mk.injEq, Prod.exists,
      Kind.importDeclaration.injEq, exists_eq_right_right]
    grind
  · rename_i hk
    constructor
    · nofun
    · rintro ⟨specifiers, source, hk', -⟩
      exact absurd hk' (hk _ _)

/-- An imported name is read as a member of its module, or stands for all of it. -/
theorem importedName?_eq {handle : String} {specifier : Node} {name : ImportedName} {r : Reading}
    (h : importedName? handle specifier = some (name, r)) :
    (r = .member handle name.imported ∧ name.required? = some name.imported) ∨
      (r = .namespaceOf handle ∧ name.required? = none) := by
  unfold importedName? at h
  split at h <;> cases h
  · exact .inl ⟨rfl, rfl⟩
  · exact .inl ⟨rfl, rfl⟩
  · exact .inr ⟨rfl, rfl⟩

/-- No imported name is read as a variable. -/
theorem UsesImport.not_variable {items : List Node} {scopes : ScopeTree} (i : Nat) (name : String) :
    ¬ UsesImport items scopes i (.variable name) := by
  rintro ⟨_, _, -, -, -, hr⟩
  obtain ⟨_, _, _, _, _, _, _, _, _, h⟩ := mem_importReadings.mp hr
  rcases importedName?_eq h with ⟨h, -⟩ | ⟨h, -⟩ <;> cases h

/-- No two names of imports are declared by one node. -/
theorem nodup_importReadings {root : Node} {items : List Node} (h : ModuleTree root items)
    (handles : String → String) : ((importReadings handles items).map (·.1)).Nodup := by
  have hnodup : (idsOf [root]).Nodup := by
    rw [idsOf_eq]
    exact h.distinct
  rw [idsOf_singleton, h.kind, List.nodup_cons] at hnodup
  exact hnodup.2.sublist (importReadings_keys handles items)

/-- The uses that are patched are those of imported names. -/
theorem mem_importUses_iff {root : Node} {items : List Node} {scopes : ScopeTree}
    (h : ModuleTree root items) (hc : collect root = .ok scopes) {i : Nat} {r : Reading} :
    (i, r) ∈ importUses (importReadings (handleOf (dependencies items)) items) scopes ↔
      UsesImport items scopes i r := by
  have hkeys := nodup_importReadings h (handleOf (dependencies items))
  rw [mem_importUses (keyed_collect hc)]
  unfold UsesImport
  simp only [show ∀ j, (importReadings (handleOf (dependencies items)) items).lookup j = some r ↔
    (j, r) ∈ importReadings (handleOf (dependencies items)) items from
    fun j => ⟨mem_of_lookup, lookup_of_mem hkeys⟩]

/-- What a binding lists uses its name. -/
theorem exists_use_of_listed {root : Node} {scopes : ScopeTree} (hc : collect root = .ok scopes)
    {s i : Nat} {x : String} {b : Binding} (hb : scopes.bindingAt? s x = some b)
    (hi : i ∈ b.references ∨ i ∈ b.mutations) : ∃ u ∈ usesIn root, u.node = i ∧ u.name = x := by
  rcases hi with hi | hi
  · obtain ⟨u, hu, -, hnode, hname, -⟩ := ((collected hc).references hb i).mp hi
    exact ⟨u, hu, hnode, hname⟩
  · obtain ⟨u, hu, -, hnode, hname, -⟩ := ((collected hc).mutations hb i).mp hi
    exact ⟨u, hu, hnode, hname⟩

theorem UsesImport.exists_use {root : Node} {items : List Node} {scopes : ScopeTree} {i : Nat}
    {r : Reading} (h : UsesImport items scopes i r) (hc : collect root = .ok scopes) :
    ∃ u ∈ usesIn root, u.node = i := by
  obtain ⟨name, b, hb, -, hi, -⟩ := h
  obtain ⟨u, hu, hnode, -⟩ := exists_use_of_listed hc hb hi
  exact ⟨u, hu, hnode⟩

/-- What uses an imported name is an identifier. -/
theorem UsesImport.exists_node {root : Node} {items : List Node} {scopes : ScopeTree} {i : Nat}
    {r : Reading} (h : UsesImport items scopes i r) (hc : collect root = .ok scopes) :
    ∃ n ∈ root.nodes, n.id = i ∧ n.name?.isSome = true := by
  obtain ⟨u, hu, rfl⟩ := h.exists_use hc
  obtain ⟨e, he, hu⟩ := List.mem_flatMap.mp hu
  obtain ⟨n, hn, hid, hname⟩ := exists_node_of_use he hu
  exact ⟨n, hn, hid, by rw [hname]; rfl⟩

/-! ## The forms of a module -/

/-- Whether some forms are those that the nodes of a module take, where new numbers end at a
bound. -/
structure ModuleForms (root : Node) (items : List Node) (scopes : ScopeTree) (forms : List Form)
    (bound : Nat) : Prop where
  /-- The forms are forms of nodes of the module. -/
  fits : Fits forms root root.numberBound bound
  /-- Each of them is one that its node may take. -/
  takes : ∀ f ∈ forms, ∃ n ∈ root.nodes, f.target = n.id ∧
    MayTake (importUses (importReadings (handleOf (dependencies items)) items) scopes) n f
  /-- Every use of an imported name takes a form. -/
  used : ∀ i r, UsesImport items scopes i r → ∃ f ∈ forms, f.target = i
  /-- So does every node that speaks to the loader. -/
  speaking : ∀ n ∈ root.nodes, speaks n = true → ∃ f ∈ forms, f.target = n.id

/-- A form that a node may take has new nodes in front of the children of the node. -/
theorem MayTake.children {uses : List (Nat × Reading)} {n : Node} {f : Form} (h : MayTake uses n f)
    (huses : ∀ r, (n.id, r) ∈ uses → n.kind.children = []) :
    f.kind.children = f.news ++ n.kind.children := by
  cases h with
  | reading h => rw [huses _ h, List.append_nil, Form.ofReading]
  | dynamicImport h =>
    rw [h]
    rfl
  | importMeta h =>
    rw [h]
    exact (List.append_nil _).symm

theorem children_of_name? {n : Node} (h : n.name?.isSome = true) : n.kind.children = [] := by
  unfold Node.name? at h
  split at h
  · rename_i hk
    rw [hk]
    rfl
  · cases h

theorem ofStage_identifier (items : List Node) (s : Nat) :
    ofStage .identifier (patchesOfAll items s) = [] := by
  rw [ofStage, List.filterMap_eq_nil_iff]
  rintro ⟨stage, p⟩ hp
  have hstage : stage ≠ .identifier := by
    induction items generalizing s with
    | nil => cases hp
    | cons item items ih =>
      rcases List.mem_append.mp hp with hp | hp
      · unfold patchesOf at hp
        cases ht : treatment item <;> rw [ht] at hp <;> grind
      · exact ih _ hp
  rw [if_neg hstage]

/-- The patches of a module, if some patches are those of the first stage and numbers are given out
from one on for its items. -/
def queueOf (ps : List Patch) (items : List Node) (s : Nat) : PatchQueue :=
  ⟨ps, ofStage .declaration (patchesOfAll items s), ofStage .removal (patchesOfAll items s)⟩

theorem patches_queueOf (ps : List Patch) (items : List Node) (s : Nat) :
    (queueOf ps items s).patches = ps ++ laterPatches items s :=
  List.append_assoc ..

/-- The patches of all stages make the program of the settled items. -/
theorem Fits.apply_queueOf {forms : List Form} {root : Node} {items : List Node} {low high : Nat}
    (h : Fits forms root low high) (hd : root.Distinct) (hk : root.kind = .program items)
    (hnone : formAt? forms root.id = none) :
    (queueOf (forms.map Form.patch) items high).apply root =
      root.withKind (.program (settleAll forms items high)) := by
  rw [PatchQueue.apply, patches_queueOf]
  exact h.apply_eq hd hk hnone (Nat.le_refl high)

/-- The patches of a module, from what is made for its three stages. -/
theorem standalonePatches_eq {root : Node} {items : List Node} {scopes : ScopeTree}
    {uses : List Patch} {runTime : List (Option Patch)} {staged : List (List (Stage × Patch))}
    {s1 s2 s3 : Nat}
    (h1 : usePatches (importUses (importReadings (handleOf (dependencies items)) items) scopes)
      root.numberBound = (uses, s1))
    (h2 : root.nodes.mapM runTimePatch? s1 = (runTime, s2))
    (h3 : items.mapM itemPatches s2 = (staged, s3)) :
    standalonePatches root items scopes = queueOf (uses ++ runTime.filterMap id) items s2 := by
  have hrun : runTimePatches root s1 = (runTime.filterMap id, s2) := supply_bind h2
  have hqueue : standalonePatches root items scopes = staged.flatten.foldl
      (fun q p => q.push p.2 p.1) ⟨uses ++ runTime.filterMap id, [], []⟩ := by
    unfold standalonePatches
    dsimp only
    rw [supply_bind h1, supply_bind hrun, supply_bind h3]
    rfl
  have hthread := threaded_mapM itemPatches items s2
  rw [h3] at hthread
  rw [hqueue, foldl_push, (threaded_itemPatches hthread).1, ofStage_identifier]
  simp [queueOf]

/-- The patches of the first stage of a module are those of forms. -/
theorem exists_moduleForms {root : Node} {items : List Node} {scopes : ScopeTree}
    (h : ModuleTree root items) (hc : collect root = .ok scopes) :
    ∃ forms bound, ModuleForms root items scopes forms bound ∧
      standalonePatches root items scopes = queueOf (forms.map Form.patch) items bound := by
  have hnode : ∀ {i r}, (i, r) ∈
      importUses (importReadings (handleOf (dependencies items)) items) scopes →
        ∃ n ∈ root.nodes, n.id = i ∧ n.name?.isSome = true :=
    fun hr => ((mem_importUses_iff h hc).mp hr).exists_node hc
  rcases h1 : usePatches (importUses (importReadings (handleOf (dependencies items)) items) scopes)
    root.numberBound with ⟨uses, s1⟩
  rcases h2 : root.nodes.mapM runTimePatch? s1 with ⟨runTime, s2⟩
  rcases h3 : items.mapM itemPatches s2 with ⟨staged, s3⟩
  have hthread1 := threaded_mapM (fun u : Nat × Reading => (do return .replace u.1 (← u.2.kind) :
    Supply Patch)) (importUses (importReadings (handleOf (dependencies items)) items) scopes)
    root.numberBound
  have hthread2 := threaded_mapM runTimePatch? root.nodes s1
  rw [← usePatches, h1] at hthread1
  rw [h2] at hthread2
  obtain ⟨useForms, huses, hwithin, hreads⟩ := exists_useForms hthread1
  obtain ⟨runTimeForms, hrunTime, hwithin', hmay, hall⟩ := exists_runTimeForms hthread2
  have htakes : ∀ f ∈ useForms ++ runTimeForms, ∃ n ∈ root.nodes, f.target = n.id ∧
      MayTake (importUses (importReadings (handleOf (dependencies items)) items) scopes) n f := by
    intro f hf
    rcases List.mem_append.mp hf with hf | hf
    · obtain ⟨⟨i, r⟩, hu, s, rfl⟩ := exists_match hreads.flip hf
      obtain ⟨n, hn, rfl, -⟩ := hnode hu
      exact ⟨n, hn, rfl, .reading hu⟩
    · obtain ⟨n, hn, htarget, -, htakes⟩ := hmay f hf
      exact ⟨n, hn, htarget, htakes _⟩
  refine ⟨useForms ++ runTimeForms, s2, ⟨⟨fun n hn => lt_numberBound hn, fun f hf => ?_, ?_⟩,
    htakes, fun i r hi => ?_, fun n hn hs => ?_⟩, ?_⟩
  · obtain ⟨n, hn, htarget, htake⟩ := htakes f hf
    refine ⟨n, hn, htarget.symm, htake.children fun r hr => ?_⟩
    obtain ⟨m, hm, hid, hname⟩ := hnode hr
    obtain rfl := h.distinct.eq_of_id hm hn hid
    exact children_of_name? hname
  · rw [List.flatMap_append]
    exact hwithin.append hwithin'
  · obtain ⟨f, hf, s, rfl⟩ := exists_match hreads ((mem_importUses_iff h hc).mpr hi)
    exact ⟨_, List.mem_append_left _ hf, rfl⟩
  · obtain ⟨f, hf, htarget⟩ := hall n hn hs
    exact ⟨f, List.mem_append_right _ hf, htarget⟩
  · rw [List.map_append, ← huses, ← hrunTime]
    exact standalonePatches_eq h1 h2 h3

/-- What is patched first is an identifier, or it speaks to the loader. -/
theorem ModuleForms.exists_target {root : Node} {items : List Node} {scopes : ScopeTree}
    {forms : List Form} {bound : Nat} (hf : ModuleForms root items scopes forms bound)
    (h : ModuleTree root items) (hc : collect root = .ok scopes) {f : Form} (hfm : f ∈ forms) :
    ∃ n ∈ root.nodes, n.id = f.target ∧ (n.name?.isSome = true ∨ speaks n = true) := by
  obtain ⟨n, hn, hid, htakes⟩ := hf.takes f hfm
  refine ⟨n, hn, hid.symm, ?_⟩
  cases htakes with
  | reading hr =>
    obtain ⟨k, hk, hid, hname⟩ := ((mem_importUses_iff h hc).mp hr).exists_node hc
    obtain rfl := h.distinct.eq_of_id hk hn hid
    exact .inl hname
  | dynamicImport hk => exact .inr (by rw [speaks, hk])
  | importMeta hk => exact .inr (by rw [speaks, hk])

/-- The program itself takes no form. -/
theorem ModuleForms.formAt?_root {root : Node} {items : List Node} {scopes : ScopeTree}
    {forms : List Form} {bound : Nat} (hf : ModuleForms root items scopes forms bound)
    (h : ModuleTree root items) (hc : collect root = .ok scopes) : formAt? forms root.id = none := by
  by_contra hsome
  obtain ⟨f, hat⟩ := Option.ne_none_iff_exists'.mp hsome
  obtain ⟨hfm, htarget⟩ := formAt?_eq_some hat
  obtain ⟨n, hn, hid, hkind⟩ := hf.exists_target h hc hfm
  obtain rfl := h.distinct.eq_of_id hn root.mem_nodes_self (hid.trans htarget)
  simp [Node.name?, speaks, h.kind] at hkind

end EsModule.Compile
