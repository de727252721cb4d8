import EsModule.Proofs.Compile.Remains

/-!
# Names mean what they meant

The names of a compiled module are resolved as those of the module were. The scopes of the module
are still there, with the scope of the function in the place of the program's, and every name that
is read or written stands for the binding that it stood for, unless it was imported.
-/

namespace EsModule.Compile

open EsModule.Syntax EsModule.Scope

/-! ## Names that compiled modules declare -/

/-- Whether a name is a handle, a capability or the constant of a default export. -/
def IsGeneratedName (x : String) : Prop :=
  (∃ k, x = handleName k) ∨ (∃ c : Capability, x = c.name) ∨ x = defaultHolder

theorem toList_of_isGeneratedName {x : String} (h : IsGeneratedName x) :
    x.toList.take 2 = ['_', '_'] := by
  rcases h with ⟨k, rfl⟩ | ⟨c, rfl⟩ | rfl
  · simp [handleName]
  · cases c <;> rfl
  · rfl

/-- A name that does not start with two underscores is none of these. -/
theorem not_isGeneratedName_of_all {ns : List Node}
    (h : (ns.all fun n => n.name?.all fun x => x.toList.take 2 != ['_', '_']) = true) :
    ∀ n ∈ ns, ∀ x, n.name? = some x → ¬ IsGeneratedName x := by
  intro n hn x hx hname
  have hprefix := List.all_eq_true.mp h n hn
  rw [hx, Option.all_some, toList_of_isGeneratedName hname] at hprefix
  exact absurd hprefix (by decide)

theorem handleName_ne_defaultHolder (k : Nat) : handleName k ≠ defaultHolder := by
  intro h
  have hthird := congrArg (fun s : String => s.toList[2]?) h
  simp [handleName, defaultHolder] at hthird

theorem defaultHolder_ne_name (c : Capability) : defaultHolder ≠ c.name := by
  cases c <;> decide

/-- Whether an item is a default export. -/
def isDefaultExport (item : Node) : Bool :=
  match item.kind with
  | .exportDefaultDeclaration _ => true
  | _ => false

section

variable {uses : Nat → Reading → Prop} {items items' : List Node}

/-- A default export that is held declares the constant that holds it. -/
theorem ItemBecomes.exists_holder {item item' v : Node} (h : ItemBecomes uses item item')
    (ht : treatment item = .held v) : ∃ declarator, DeclaresConstant defaultHolder declarator item' ∧
      holders item item' = [⟨.block, .constBinding, defaultHolder, declarator.id⟩] := by
  cases h with
  | kept ht' | removed ht' | unwrapped ht' => cases ht.symm.trans ht'
  | @held _ _ value target declarator _ _ _ hname hdeclarator =>
    have hconstant : DeclaresConstant defaultHolder declarator
        (.mk item.id item.span (.variableDeclaration .constKind [declarator])) :=
      ⟨target, value, rfl, hdeclarator, hname⟩
    refine ⟨declarator, hconstant, ?_⟩
    rw [holders, ht]
    exact hconstant.declarations

/-- Default exports declare one constant at most. -/
theorem ItemBecomes.names_holders {item item' : Node} (h : ItemBecomes uses item item') :
    (holders item item').map (·.name) = [] ∨
      (holders item item').map (·.name) = [defaultHolder] ∧ isDefaultExport item = true := by
  cases ht : treatment item with
  | kept | removed | unwrapped d =>
    rw [holders, ht]
    exact .inl rfl
  | held v =>
    obtain ⟨declarator, -, hholders⟩ := h.exists_holder ht
    refine .inr ⟨by rw [hholders]; rfl, ?_⟩
    unfold treatment at ht
    unfold isDefaultExport
    split at ht
    case h_5 hk => rw [hk]
    all_goals cases ht

theorem names_holders (h : List.Forall₂ (ItemBecomes uses) items items') :
    ∃ k ≤ items.countP isDefaultExport,
      ((items.zip items').flatMap fun c => holders c.1 c.2).map (·.name) =
        List.replicate k defaultHolder := by
  induction h with
  | nil => exact ⟨0, Nat.le_refl _, rfl⟩
  | @cons item item' items items' h _ ih =>
    obtain ⟨k, hk, hnames⟩ := ih
    rw [List.zip_cons_cons, List.flatMap_cons, List.map_append, hnames, List.countP_cons]
    rcases h.names_holders with hnone | ⟨hone, hdefault⟩
    · exact ⟨k, Nat.le_add_right_of_le hk, by rw [hnone]; rfl⟩
    · exact ⟨k + 1, by rw [if_pos hdefault]; omega, by rw [hone]; rfl⟩

end

/-- The names that a compiled module declares besides those of the module are different. -/
theorem nodup_generated (dependencies : List String) {k : Nat} (hk : k ≤ 1) :
    (Capability.all.map (·.name) ++ dependencies.zipIdx.map (handleName ·.2) ++
      List.replicate k defaultHolder).Nodup := by
  have hhandles : dependencies.zipIdx.map (handleName ·.2) =
      (List.range' 0 dependencies.length).map handleName := by
    rw [← List.zipIdx_map_snd, List.map_map]
    rfl
  rw [hhandles]
  refine List.Nodup.append (List.Nodup.append (by decide) ?_ ?_) ?_ ?_
  · exact List.Nodup.map (fun _ _ => handleName_inj) List.nodup_range'
  · rintro x hx hx'
    obtain ⟨c, -, rfl⟩ := List.mem_map.mp hx
    obtain ⟨j, -, hj⟩ := List.mem_map.mp hx'
    exact handleName_ne_name j c hj
  · exact List.nodup_replicate.mpr hk
  · rintro x hx hx'
    obtain rfl := List.eq_of_mem_replicate hx'
    rcases List.mem_append.mp hx with hx | hx
    · exact absurd hx (by decide)
    · obtain ⟨j, -, hj⟩ := List.mem_map.mp hx
      exact handleName_ne_defaultHolder j hj

/-! ## The module inside the compiled one -/

namespace IsRead

variable {m : Module} {items : List Node} {p : Parts} {tree : Node}
  {exports : List (String × Reading)}

/-- Whether some parts are those of the tree that a module is compiled to. -/
structure Wraps (h : IsRead m items) (p : Parts) (tree : Node) (exports : List (String × Reading)) :
    Prop where
  /-- The parts hang together. -/
  parts : p.Of tree exports (dependencies items)
  /-- The items are those of the tree without imports and exports, -/
  standalone : m.standalone = m.root.withKind (.program p.items)
  /-- which are what became of the items of the module. -/
  items : List.Forall₂ (Renews m items) items p.items
  /-- The nodes of that tree have different numbers, -/
  distinct : m.standalone.Distinct
  /-- and so do the nodes around it, which have new ones. -/
  around : ∃ high, Within m.standalone.numberBound high p.around

theorem exists_wraps (h : IsRead m items) (exports : List (String × Reading)) :
    ∃ p, h.Wraps p (m.compiled exports) exports := by
  obtain ⟨p, hp, hstandalone, hitems, hdistinct, haround⟩ := h.exists_freshParts exports
  exact ⟨p, hp, hstandalone, hitems, hdistinct, haround⟩

namespace Wraps

variable {h : IsRead m items}

theorem le_of_around (hw : h.Wraps p tree exports) {i : Nat} (hi : i ∈ p.around) :
    m.standalone.numberBound ≤ i := by
  obtain ⟨high, hwithin⟩ := hw.around
  exact (hwithin.mem i hi).1

theorem mem_standalone (hw : h.Wraps p tree exports) {item' n : Node} (hi : item' ∈ p.items)
    (hn : n ∈ item'.nodes) : n ∈ m.standalone.nodes := by
  rw [hw.standalone]
  exact Node.mem_nodes_of_child hi hn

/-- The numbers of names that are used are no new ones. -/
theorem lt_of_old (hw : h.Wraps p tree exports) {i : Nat} (hi : (m.embedding p tree).old i) :
    i < m.standalone.numberBound := by
  obtain ⟨u, hu, rfl⟩ := hi
  obtain ⟨n, -, hid, -, item', hi', n', hn', hb⟩ := h.exists_image_of_use hw.items hu
  rw [← hid, ← hb.id]
  exact lt_numberBound (hw.mem_standalone hi' hn')

/-- The walk over what became of the items does what the walk over the items did. -/
theorem mirrored (hw : h.Wraps p tree exports) : (m.embedding p tree).Mirrored (moduleSteps m.root)
    (stepsOfAll (p.items.map fun c => (p.inBody, c.steps)) (1 + openings (p.front tree)))
    ((items.zip p.items).flatMap fun c => holders c.1 c.2) := by
  have hlength := hw.items.length_eq
  have hfst : ∀ {α : Type} (f : Node → α), items.map f =
      (items.zip p.items).map fun c => f c.1 := fun f =>
    (congrArg (List.map f) (List.map_fst_zip hlength.le).symm).trans List.map_map
  have hsnd : ∀ {α : Type} (f : Node → α), p.items.map f =
      (items.zip p.items).map fun c => f c.2 := fun f =>
    (congrArg (List.map f) (List.map_snd_zip hlength.ge).symm).trans List.map_map
  have hbeside : Beside (m.embedding p tree) ⟨some m.root, none, [0], []⟩ p.inBody := by
    refine ⟨⟨m.root, rfl, ?_⟩, ⟨p.block, rfl, ?_⟩, rfl, ⟨[], rfl, nofun⟩, rfl⟩
    · rw [h.tree.kind]
      rfl
    · rw [hw.parts.block]
      rfl
  have hall := Embedding.mirrored_stepsOfAll (items.zip p.items)
    (fun c => (⟨some m.root, none, [0], []⟩, c.1.steps)) (fun c => (p.inBody, c.2.steps))
    (fun c => holders c.1 c.2) (w := m.embedding p tree) (fun c hc next hnext => by
      obtain ⟨item, item'⟩ := c
      obtain ⟨hi, hi'⟩ := List.of_mem_zip hc
      obtain ⟨hbecomes, hids⟩ := (List.forall₂_iff_zip.mp hw.items).2 hc
      refine hbecomes.mirrored h.carriesItems h.tree hi ?_ (fun i hi hold => ?_) hbeside hnext
      · exact hw.distinct.node (hw.mem_standalone hi' item'.mem_nodes_self)
      · -- a number that is used is no new one
        refine (hids i hi).resolve_right fun hbound => ?_
        obtain ⟨u, hu, rfl⟩ := hold
        obtain ⟨e, he, hu⟩ := List.mem_flatMap.mp hu
        obtain ⟨k, hk, hid, -⟩ := exists_node_of_use he hu
        have := lt_numberBound hk
        omega) 1 Nat.one_ne_zero
  rw [moduleSteps_root h.tree]
  refine .lost rfl ?_ ?_ ?_
  · exact usesOf_eq_nil (by rw [Node.name?, h.tree.kind]) (by rw [writes, h.tree.kind])
  · intro d hd
    change d ∈ declarations m.root at hd
    rw [declarations, h.tree.kind] at hd
    cases hd
  · rw [hfst, hsnd]
    exact hall

/-- The names that are declared besides those of the module. -/
theorem made_eq (hw : h.Wraps p tree exports) : ∃ k ≤ items.countP isDefaultExport,
    made (p.front tree) ((items.zip p.items).flatMap fun c => holders c.1 c.2) =
      Capability.all.map (·.name) ++ (dependencies items).zipIdx.map (handleName ·.2) ++
        List.replicate k defaultHolder := by
  obtain ⟨k, hk, hnames⟩ := names_holders (hw.items.imp fun _ _ hr => hr.1)
  exact ⟨k, hk, by rw [made, List.map_append, hw.parts.names_front, hnames]⟩

theorem isGeneratedName_of_mem_made (hw : h.Wraps p tree exports) {x : String}
    (hx : x ∈ made (p.front tree) ((items.zip p.items).flatMap fun c => holders c.1 c.2)) :
    IsGeneratedName x := by
  obtain ⟨k, -, hmade⟩ := hw.made_eq
  rw [hmade, List.mem_append, List.mem_append, List.mem_map, List.mem_map] at hx
  rcases hx with (⟨c, -, rfl⟩ | ⟨d, -, rfl⟩) | hx
  · exact .inr (.inl ⟨c, rfl⟩)
  · exact .inl ⟨d.2, rfl⟩
  · exact .inr (.inr (List.eq_of_mem_replicate hx))

/-- After what stands in front of the items, the walk over the compiled module goes on as that over
the module. -/
theorem continues (hw : h.Wraps p tree exports) :
    (m.embedding p tree).Continues m.root tree (p.front tree)
      (stepsOfAll (p.items.map fun c => (p.inBody, c.steps)) (1 + openings (p.front tree)))
      ((items.zip p.items).flatMap fun c => holders c.1 c.2) where
  walk := hw.parts.moduleSteps_eq
  mirrored := hw.mirrored
  function := by
    have hkinds : kindsOpened (p.front tree) = .function :: kindsOpened p.heads := by
      rw [kindsOpened, hw.parts.scopesOpened_front]
      rfl
    refine ⟨_, hkinds, ?_⟩
    rw [← List.length_cons, ← hkinds, length_kindsOpened]
    rfl

/-- The compiled module holds the module as a whole. -/
theorem whole (hw : h.Wraps p tree exports) (hdefault : items.countP isDefaultExport ≤ 1)
    (hnames : ∀ n ∈ m.root.nodes, ∀ x, n.name? = some x → ¬ IsGeneratedName x) :
    (m.embedding p tree).Whole m.root tree (p.front tree)
      (stepsOfAll (p.items.map fun c => (p.inBody, c.steps)) (1 + openings (p.front tree)))
      ((items.zip p.items).flatMap fun c => holders c.1 c.2) where
  toContinues := hw.continues
  owner := by
    rw [openers, hw.parts.scopesOpened_front]
    exact congrArg some standIn_root.symm
  new := by
    intro e he u hu hold
    exact absurd (hw.lt_of_old hold)
      (Nat.not_lt.mpr (hw.le_of_around (hw.parts.uses_front e he u hu)))
  nodup := by
    obtain ⟨k, hk, hmade⟩ := hw.made_eq
    rw [hmade]
    exact nodup_generated _ (hk.trans hdefault)
  undeclared := by
    intro e he d hd hmem
    obtain ⟨k, hk, hname⟩ := (sound_of_mem_steps h.tree he hd).name
    exact hnames k hk d.name hname (hw.isGeneratedName_of_mem_made hmem)
  unused := by
    intro u hu hmem
    obtain ⟨e, he, hu⟩ := List.mem_flatMap.mp hu
    obtain ⟨k, hk, -, hname⟩ := exists_node_of_use he hu
    exact hnames k hk u.name hname (hw.isGeneratedName_of_mem_made hmem)
  imports := fun q hq q' hq' => imported_of_node h.tree hq hq'
  gone := by
    intro u hu s n htarget hfirst
    have hc := collected h.scopes
    rw [← hc.declared] at hfirst
    obtain ⟨b, hb, heq⟩ := Option.map_eq_some_iff.mp hfirst
    obtain ⟨hkind, -⟩ := Prod.mk.inj heq
    have hlisted := (hc.mem_listed hb u.access u.node).mpr ⟨u, hu, rfl, rfl, rfl, htarget⟩
    refine (h.isImportUse_iff u.node).mpr (h.usesImport_iff.mpr ⟨s, u.name, b, hb, hkind, ?_⟩)
    cases haccess : u.access with
    | read =>
      rw [haccess] at hlisted
      exact .inl hlisted
    | write =>
      rw [haccess] at hlisted
      exact .inr hlisted

end Wraps

end IsRead

/-! ## What names mean in a compiled module -/

/-- Whether the scopes of a module are found among those of a compiled module with some function,
each under a number of its own. -/
structure ScopesMatch (m : Module) (function : Node) (t : ScopeTree) (scopeOf : Nat → Nat) :
    Prop where
  /-- Different scopes have different numbers. -/
  injective : ∀ s s', scopeOf s = scopeOf s' → s = s'
  /-- A scope is that of the node which stands for the one of the module. -/
  node : ∀ s, t.scopes[scopeOf s]?.map (·.node) =
    m.scopes.scopes[s]?.map fun scope => standIn m.root function scope.node
  /-- It has the same kind, but that the program's became that of the function. -/
  kind : ∀ s, s ≠ 0 → t.scopes[scopeOf s]?.map (·.kind) = m.scopes.scopes[s]?.map (·.kind)

/-- Whether an identifier of a module means in a compiled module what it meant. -/
structure KeepsMeaning (m : Module) (function : Node) (t : ScopeTree) (scopeOf : Nat → Nat)
    (n : Node) : Prop where
  /-- A binding that lists it lists it in the same way in the scope that stands for its own. -/
  listed : ∀ s x b access, m.scopes.bindingAt? s x = some b → n.id ∈ b.listed access →
    ∃ b', t.bindingAt? (scopeOf s) x = some b' ∧ b'.kind = b.kind ∧
      b'.node = standIn m.root function b.node ∧ n.id ∈ b'.listed access
  /-- No other binding lists it. -/
  only : ∀ s' x b' access, t.bindingAt? s' x = some b' → n.id ∈ b'.listed access →
    ∃ s b, s' = scopeOf s ∧ m.scopes.bindingAt? s x = some b ∧ b.kind = b'.kind ∧
      n.id ∈ b.listed access
  /-- It is a global if it was one. -/
  global : n.id ∈ t.globals ↔ n.id ∈ m.scopes.globals

/-- Whether compiling a module keeps what its names mean. -/
structure KeepsBindings (m : Module) (lookup : ExportLookup) : Prop where
  /-- An identifier is replaced if it reads or writes an imported name. -/
  replaced : ∀ n ∈ m.root.nodes, n.name?.isSome = true →
    (m.Replaces n ↔ ListsImport m.scopes n.id)
  /-- Any other identifier that is read or written is still there, and means what it meant. -/
  resolved : ∃ (p : Parts) (t : ScopeTree) (scopeOf : Nat → Nat),
    p.Of (m.finalTree lookup) (m.interface.allExports lookup) m.interface.dependencies ∧
    collect (m.finalTree lookup) = .ok t ∧ ScopesMatch m p.function t scopeOf ∧
    ∀ n as x, IsSite m.root n as x → ¬ m.Replaces n →
      n ∈ (m.finalTree lookup).nodes ∧ KeepsMeaning m p.function t scopeOf n

theorem Parts.Of.mem_nodes_item {p : Parts} {tree item n : Node} {exports : List (String × Reading)}
    {dependencies : List String} (hp : p.Of tree exports dependencies) (hi : item ∈ p.items)
    (hn : n ∈ item.nodes) : n ∈ tree.nodes := by
  have hstatement : p.statement ∈ tree.nodes := Node.mem_nodes_below tree.mem_nodes_self (by
    rw [hp.root]
    exact List.mem_singleton_self _)
  have hfunction : p.function ∈ tree.nodes := Node.mem_nodes_below hstatement (by
    rw [hp.statement]
    exact List.mem_singleton_self _)
  have hblock : p.block ∈ tree.nodes := Node.mem_nodes_below hfunction (by
    rw [hp.function]
    exact List.mem_append_right _ (List.mem_singleton_self _))
  refine Node.mem_nodes_trans hn (Node.mem_nodes_below hblock ?_)
  rw [hp.block]
  exact List.mem_append_right _ hi

namespace IsRead.Wraps

variable {m : Module} {items : List Node} {p : Parts} {tree : Node}
  {exports : List (String × Reading)} {h : IsRead m items} {t : ScopeTree} {front steps : List Step}
  {ds : List Declaration}

theorem scopesMatch (hwhole : (m.embedding p tree).Whole m.root tree front steps ds)
    (hscopes : collect m.root = .ok m.scopes) (ht : collect tree = .ok t) :
    ScopesMatch m p.function t (m.embedding p tree).scope where
  injective := fun _ _ => Embedding.scope_inj hwhole.opened_ne_zero
  node := hwhole.node_scope (collected hscopes) (collected ht)
  kind := fun _ hs => hwhole.kind_scope (collected hscopes) (collected ht) hs

theorem keepsMeaning (hwhole : (m.embedding p tree).Whole m.root tree front steps ds)
    (hscopes : collect m.root = .ok m.scopes) (ht : collect tree = .ok t) {n : Node}
    (hold : (m.embedding p tree).old n.id) (hgone : (m.embedding p tree).gone n.id = false) :
    KeepsMeaning m p.function t (m.embedding p tree).scope n := by
  have hc := collect_iff.mp ⟨_, hscopes⟩
  have hcollected := collected hscopes
  have hcollected' := collected ht
  exact ⟨fun s x b access hb hi => hwhole.listed hcollected hcollected' hc hb hi hgone,
    fun s' x b' access hb hi => hwhole.of_listed hcollected hcollected' hc hb hi hold,
    hwhole.globals_iff hcollected hcollected' hc hold hgone⟩

end IsRead.Wraps

/-- Compiling keeps what names mean, if there is one default export at most and no identifier has
the name of a handle, a capability or the constant of a default export. -/
theorem keepsBindings_finalTree {source file : String} {m : Module}
    (hm : Module.ofSource source file = .ok m)
    (hdefault : (itemsOf m.root).countP isDefaultExport ≤ 1)
    (hnames : ∀ n ∈ m.root.nodes, ∀ x, n.name? = some x → ¬ IsGeneratedName x)
    (lookup : ExportLookup) : KeepsBindings m lookup := by
  obtain ⟨-, -, items, h⟩ := isRead_of_ofSource hm
  rw [h.itemsOf] at hdefault
  refine ⟨fun n hn hname => h.replaced_iff hn hname, ?_⟩
  obtain ⟨p, hp⟩ := h.exists_wraps (m.interface.allExports lookup)
  have hwhole := hp.whole hdefault hnames
  obtain ⟨t, ht⟩ := hwhole.exists_collect h.scopes
  have hdependencies : m.interface.dependencies = dependencies items := by
    rw [h.interface]
    rfl
  refine ⟨p, t, _, hdependencies ▸ hp.parts, ht, IsRead.Wraps.scopesMatch hwhole h.scopes ht,
    fun n as x hsite hstays => ?_⟩
  obtain ⟨hplace, hx, access, haccessed⟩ := isSite_iff.mp hsite
  have hname : n.name?.isSome = true := by rw [hx]; rfl
  obtain ⟨u, hu, -, hat⟩ := exists_use_of_site h.tree hplace hx haccessed
  -- the site was not replaced, so it uses no import
  have hgone : m.isImportUse n.id = false := by
    rw [← Bool.not_eq_true, h.isImportUse_iff, h.usesImport_iff]
    exact fun hlisted => hstays ((h.replaced_iff hplace.mem_nodes hname).mpr hlisted)
  refine ⟨?_, IsRead.Wraps.keepsMeaning hwhole h.scopes ht ⟨u, hu, hat.node⟩ hgone⟩
  obtain ⟨k, hk, hkid, -, item', hi', n', hn', hb⟩ := h.exists_image_of_use hp.items hu
  obtain rfl := h.tree.distinct.eq_of_id hk hplace.mem_nodes (hkid.trans hat.node)
  rcases hb.eq_or_read hname with rfl | hr
  · exact hp.parts.mem_nodes_item hi' hn'
  · rw [(h.isImportUse_iff _).mpr hr] at hgone
    cases hgone

/-- Two variables have the name of an import. The block reads its own one. -/
theorem keepsBindings_shadowed : ∃ m,
    Module.ofSource
      "import { a } from 'x'; export let b = a; { let a = b; g(a); } export default a;"
      "test.js" = .ok m ∧
    usesAt m.scopes 0 "a" = some (2, 0) ∧ usesAt m.scopes 1 "a" = some (1, 0) ∧
    KeepsBindings m noExports := by
  have hok : ((Module.ofSource
      "import { a } from 'x'; export let b = a; { let a = b; g(a); } export default a;"
      "test.js").mapError (fun _ => ()) >>= fun m => .ok
        (usesAt m.scopes 0 "a", usesAt m.scopes 1 "a", (itemsOf m.root).countP isDefaultExport,
          m.root.nodes.all fun n => n.name?.all fun x => x.toList.take 2 != ['_', '_'])) =
        .ok (some (2, 0), some (1, 0), 1, true) := by
    decide +kernel
  obtain ⟨m, hm, h⟩ := bind_eq_ok.mp hok
  obtain ⟨houter, h⟩ := Prod.mk.inj (Except.ok.inj h)
  obtain ⟨hinner, h⟩ := Prod.mk.inj h
  obtain ⟨hdefault, hplain⟩ := Prod.mk.inj h
  rw [mapError_eq_ok] at hm
  exact ⟨m, hm, houter, hinner, keepsBindings_finalTree hm hdefault.le
    (not_isGeneratedName_of_all hplain) noExports⟩

end EsModule.Compile
