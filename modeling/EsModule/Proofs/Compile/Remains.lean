import EsModule.Proofs.Compile.Embedded

/-!
# The names that remain

Names that are used stand in items that remain, and so they are still there in the tree without
imports and exports. Each of them stays the name that it was, unless it uses an imported name
(`IsRead.replaced_iff`).
-/

namespace EsModule.Compile

open EsModule.Syntax EsModule.Scope

section

variable {uses : Nat → Reading → Prop} {gone : Nat → Bool} {root n n' k : Node} {items : List Node}

/-- Something becomes of every node below a node, and stands below what becomes of that node. -/
theorem Becomes.exists_image (h : Becomes uses n n') (hd : Drops uses gone root)
    (hn : n ∈ root.nodes) (hk : k ∈ n.nodes) : ∃ k' ∈ n'.nodes, Becomes uses k k' := by
  have hself : ∀ {n n'}, Becomes uses n n' → n.kind.children = [] → k ∈ n.nodes →
      ∃ k' ∈ n'.nodes, Becomes uses k k' := by
    intro n n' h hchildren hk
    rw [Node.nodes_eq, hchildren] at hk
    obtain rfl := List.mem_singleton.mp hk
    exact ⟨n', n'.mem_nodes_self, h⟩
  induction h with
  | @read n r kind hu hr =>
    have hname := hd.name n hn ((hd.iff _).mpr ⟨r, hu⟩)
    exact hself (.read hu hr) (children_of_name? hname) hk
  | @importMeta n kind hmeta hr => exact hself (.importMeta hmeta hr) (by rw [hmeta]; rfl) hk
  | @dynamicImport n source source' callee hsource hc h ih =>
    have hchildren : n.kind.children = [source] := by rw [hsource]; rfl
    rw [Node.nodes_eq, hchildren, List.flatMap_singleton, List.mem_cons] at hk
    rcases hk with rfl | hk
    · exact ⟨_, Node.mem_nodes_self _, .dynamicImport hsource hc h⟩
    · obtain ⟨k', hk', hb⟩ := ih (Node.mem_nodes_below hn (by simp [hchildren])) hk
      refine ⟨k', Node.mem_nodes_of_child ?_ hk', hb⟩
      exact List.mem_cons_of_mem _ (List.mem_singleton_self source')
  | @same n f hu hs h ih =>
    rw [Node.nodes_eq, List.mem_cons, List.mem_flatMap] at hk
    rcases hk with rfl | ⟨c, hc, hk⟩
    · exact ⟨_, Node.mem_nodes_self _, .same hu hs h⟩
    · obtain ⟨k', hk', hb⟩ := ih c hc (Node.mem_nodes_below hn hc) hk
      refine ⟨k', Node.mem_nodes_of_child ?_ hk', hb⟩
      change f c ∈ (n.kind.map f).children
      rw [Kind.children_map]
      exact List.mem_map_of_mem hc

theorem mem_nodes_of_children (hk : k ∈ n.nodes) (hne : k ≠ n)
    (hchildren : n'.kind.children = n.kind.children) : k ∈ n'.nodes := by
  rw [Node.nodes_eq, List.mem_cons] at hk
  rw [Node.nodes_eq, hchildren]
  exact List.mem_cons_of_mem _ (hk.resolve_left hne)

/-- What an item exports has no name besides those of the item. -/
theorem name?_of_treatment {item : Node} (h : treatment item ≠ .kept) : item.name? = none := by
  unfold treatment at h
  unfold Node.name?
  generalize item.kind = kind at h
  cases kind <;> first | rfl | exact absurd rfl h

/-- What becomes of a name below an item that remains stands below what becomes of the item. -/
theorem ItemBecomes.exists_image {item item' : Node} (h : ItemBecomes uses item item')
    (hd : Drops uses gone root) (hm : ModuleTree root items) (hi : item ∈ items)
    (ht : treatment item ≠ .removed) (hk : k ∈ item.nodes) (hname : k.name?.isSome = true) :
    ∃ k' ∈ item'.nodes, Becomes uses k k' := by
  have hroot := hm.mem_nodes_item hi
  -- the item itself is no name, so the name stands below what the item exports
  have hbelow : ∀ {d}, treatment item = .unwrapped d ∨ treatment item = .held d → k ∈ d.nodes := by
    intro d ht
    have hplain : item.name? = none := name?_of_treatment (by rcases ht with ht | ht <;> simp [ht])
    rw [Node.nodes_eq, children_of_exported (hm.items item hi) ht, List.flatMap_singleton,
      List.mem_cons] at hk
    refine hk.resolve_left ?_
    rintro rfl
    rw [hplain] at hname
    cases hname
  -- the image of a node that is not the root of a tree is not the root of the new tree
  have hne : ∀ {d d' k' : Node}, d ∈ root.nodes → k ∈ d.nodes → k ≠ d → Becomes uses d d' →
      Becomes uses k k' → k' ≠ d' := by
    rintro d d' k' hdroot hkd hne hb hbk rfl
    exact hne (hm.distinct.eq_of_id (Node.mem_nodes_trans hkd hdroot) hdroot
      (hbk.id.symm.trans hb.id))
  cases h with
  | kept _ h => exact h.exists_image hd hroot hk
  | removed hremoved => exact absurd hremoved ht
  | @unwrapped d d' hunwrapped h =>
    have hkd := hbelow (.inl hunwrapped)
    have hdroot := Node.mem_nodes_below hroot (unwrapped_mem_children hunwrapped)
    obtain ⟨k', hk', hb⟩ := h.exists_image hd hdroot hkd
    refine ⟨k', mem_nodes_of_children hk' (hne hdroot hkd ?_ h hb) rfl, hb⟩
    rintro rfl
    rw [name?_of_unwrapped (hm.items item hi) hunwrapped] at hname
    cases hname
  | @held v v' value target declarator hheld h hvalue htarget hdeclarator =>
    have hkv := hbelow (.inr hheld)
    have hvroot := Node.mem_nodes_below hroot (held_mem_children hheld)
    obtain ⟨k', hk', hb⟩ := h.exists_image hd hvroot hkv
    have hvaluenodes : k' ∈ value.nodes := by
      rw [hvalue]
      split
      · rename_i hfunction
        refine mem_nodes_of_children hk' (hne hvroot hkv ?_ h hb) ?_
        · rintro rfl
          unfold isFunctionOrClass at hfunction
          unfold Node.name? at hname
          generalize k.kind = kind at hfunction hname
          cases kind <;> first | cases hname; done | cases hfunction
        · rw [Node.withKind, Node.kind, children_asExpression]
      · exact hk'
    refine ⟨k', Node.mem_nodes_of_child (List.mem_singleton_self declarator)
      (Node.mem_nodes_of_child ?_ hvaluenodes), hb⟩
    rw [hdeclarator]
    exact List.mem_cons_of_mem _ (List.mem_singleton_self value)

/-- Names are used in items that remain. -/
theorem exists_item_of_use (h : ModuleTree root items) {u : Use} (hu : u ∈ usesIn root) :
    ∃ item ∈ items, treatment item ≠ .removed ∧
      ∃ k ∈ item.nodes, k.id = u.node ∧ k.name? = some u.name := by
  obtain ⟨e, he, hu⟩ := List.mem_flatMap.mp hu
  rw [moduleSteps_root h, List.mem_cons] at he
  rcases he with rfl | he
  · have hnothing : usesOf root ⟨none, none, [0], []⟩ = [] :=
      usesOf_eq_nil (by rw [Node.name?, h.kind]) (by rw [writes, h.kind])
    change u ∈ usesOf root ⟨none, none, [0], []⟩ at hu
    rw [hnothing] at hu
    cases hu
  · obtain ⟨_, hc, next, he⟩ := mem_stepsOfAll he
    obtain ⟨item, hi, rfl⟩ := List.mem_map.mp hc
    refine ⟨item, hi, fun ht => ?_, exists_node_of_use he hu⟩
    have hlost := (lost_of_removed (h.items item hi) ht _ next e he).2.1
    rw [hlost] at hu
    cases hu

/-- A name stays what it is, unless it is read in another way. -/
theorem Becomes.eq_or_read (h : Becomes uses n n') (hname : n.name?.isSome = true) :
    n' = n ∨ ∃ r, uses n.id r := by
  cases h with
  | read hu hr => exact .inr ⟨_, hu⟩
  | dynamicImport hk =>
    rw [Node.name?, hk] at hname
    cases hname
  | importMeta hk =>
    rw [Node.name?, hk] at hname
    cases hname
  | same =>
    obtain ⟨id, span, kind⟩ := n
    unfold Node.name? at hname
    cases kind
    case identifier => exact .inl rfl
    all_goals cases hname

/-- A name that uses an imported name is no name any longer. -/
theorem Becomes.kind_ne (h : Becomes uses n n') (hd : Drops uses gone root) {r : Reading}
    (hu : uses n.id r) (hname : n.name?.isSome = true) : n'.kind ≠ n.kind := by
  intro hkind
  have hname' : n'.name?.isSome = true := by rwa [Node.name?, hkind]
  cases h with
  | @read _ _ kind hu' hr =>
    have hinert := hr.isInert fun x hx => hd.plain _ x (hx ▸ hu')
    rw [name?_of_isInert (n := .mk n.id n.span kind) hinert] at hname'
    cases hname'
  | dynamicImport => cases hname'
  | @importMeta _ kind hk hr =>
    have hinert := hr.isInert fun _ h => by cases h
    rw [name?_of_isInert (n := .mk n.id n.span kind) hinert] at hname'
    cases hname'
  | same hu' => exact hu' r hu

end

/-! ## Modules that were read -/

/-- Whether a node of a module has another kind in the tree without imports and exports. -/
def Module.Replaces (m : Module) (n : Node) : Prop :=
  ∃ n' ∈ m.standalone.nodes, n'.id = n.id ∧ n'.kind ≠ n.kind

namespace IsRead

variable {m : Module} {items settled : List Node} {n : Node}

/-- Something becomes of every name that is used. -/
theorem exists_image_of_use (h : IsRead m items)
    (hitems : List.Forall₂ (Renews m items) items settled) {u : Use} (hu : u ∈ usesIn m.root) :
    ∃ n ∈ m.root.nodes, n.id = u.node ∧ n.name? = some u.name ∧
      ∃ item' ∈ settled, ∃ n' ∈ item'.nodes, Becomes (UsesImport items m.scopes) n n' := by
  obtain ⟨item, hi, ht, n, hn, hid, hname⟩ := exists_item_of_use h.tree hu
  obtain ⟨item', hi', hbecomes, -⟩ := exists_match hitems hi
  refine ⟨n, Node.mem_nodes_trans hn (h.tree.mem_nodes_item hi), hid, hname, item', hi', ?_⟩
  exact hbecomes.exists_image h.drops h.tree hi ht hn (by rw [hname]; rfl)

/-- A name has another kind in the tree without imports and exports if it reads or writes an
imported name. -/
theorem replaced_iff (h : IsRead m items) (hn : n ∈ m.root.nodes) (hname : n.name?.isSome = true) :
    m.Replaces n ↔ ListsImport m.scopes n.id := by
  obtain ⟨settled, hstandalone, hitems, hdistinct⟩ := h.exists_settled
  have hdrops := h.drops
  rw [← h.usesImport_iff]
  have hitem : ∀ {item' n'}, item' ∈ settled → n' ∈ item'.nodes → n' ∈ m.standalone.nodes := by
    intro item' n' hi' hn'
    rw [hstandalone]
    exact Node.mem_nodes_of_child hi' hn'
  constructor
  · rintro ⟨n', hn', hid, hkind⟩
    rw [hstandalone, Node.nodes_eq, List.mem_cons, List.mem_flatMap] at hn'
    rcases hn' with rfl | ⟨item', hi', hn'⟩
    · obtain rfl := h.tree.distinct.eq_of_id hn m.root.mem_nodes_self hid.symm
      rw [Node.name?, h.tree.kind] at hname
      cases hname
    -- the new node stands in what became of an item, and has the number of a node of this item
    obtain ⟨item, hi, hbecomes, hids⟩ := exists_match hitems.flip hi'
    have hroot := h.tree.mem_nodes_item hi
    have hmem : n ∈ item.nodes := by
      rcases hids n'.id (mem_idsOf_singleton.mpr ⟨n', hn', rfl⟩) with hids | hbound
      · obtain ⟨k, hk, hkid⟩ := mem_idsOf_singleton.mp hids
        exact h.tree.distinct.eq_of_id (Node.mem_nodes_trans hk hroot) hn (hkid.trans hid) ▸ hk
      · have := lt_numberBound hn
        omega
    have ht : treatment item ≠ .removed := by
      intro ht
      cases hbecomes with
      | removed =>
        obtain rfl : n' = _ := by simpa [Node.nodes_eq, Node.kind, Kind.children] using hn'
        obtain rfl := h.tree.distinct.eq_of_id hroot hn hid
        rw [name?_of_treatment (by simp [ht])] at hname
        cases hname
      | kept ht' | unwrapped ht' | held ht' => cases ht.symm.trans ht'
    obtain ⟨k', hk', hb⟩ := hbecomes.exists_image hdrops h.tree hi ht hmem hname
    obtain rfl := hdistinct.eq_of_id (hitem hi' hk') (hitem hi' hn') (hb.id.trans hid.symm)
    rcases hb.eq_or_read hname with rfl | hr
    · exact absurd rfl hkind
    · exact hr
  · rintro ⟨r, hr⟩
    obtain ⟨u, hu, hid⟩ := hr.exists_use h.scopes
    obtain ⟨k, hk, hkid, -, item', hi', n', hn', hb⟩ := h.exists_image_of_use hitems hu
    obtain rfl := h.tree.distinct.eq_of_id hk hn (hkid.trans hid)
    exact ⟨n', hitem hi' hn', hb.id, hb.kind_ne hdrops hr hname⟩

end IsRead

end EsModule.Compile
