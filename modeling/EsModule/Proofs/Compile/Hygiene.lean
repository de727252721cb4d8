import EsModule.Proofs.Compile.Exported

/-!
# Names that compiling makes

New code uses names of its own: the capabilities, the handles of the dependencies, and the constant
of a default export. If no identifier of a module has such a name, nothing but the function of the
capabilities declares one in the compiled module, and each once (`made_apart`). A use of one may stand
at any depth, but all of them stand inside the function, so each means what was made for it.

The names are counted, not chosen by what the module contains. A module that declares one itself
declares it beside the new one or hides it, so the assumption is needed.
-/

namespace EsModule.Scope

open EsModule.Syntax

variable {root n a : Node} {items as : List Node}

/-- A node in whose parameter list another one stands has it below a parameter. -/
theorem mem_nodes_of_parameterOwners (hd : root.Distinct) (hn : root.Ancestors n as)
    (ha : a ∈ parameterOwners n as) : ∃ c ∈ a.parameters, n ∈ c.nodes := by
  induction hn with
  | here => cases ha
  | @child p n as hp hn ih =>
    unfold parameterOwners at ha
    split at ha
    · rename_i hparam
      rcases List.mem_cons.mp ha with rfl | ha
      · obtain ⟨c, hc, hsame⟩ := List.any_eq_true.mp hparam
        have hchild := declaredTargets_subset a ((parameters_subset a).1 hc)
        obtain rfl := hd.eq_of_id (Node.mem_nodes_below hp.mem_nodes hchild) (Node.mem_nodes_below hp.mem_nodes hn)
          (by simpa [same] using hsame)
        exact ⟨c, hc, c.mem_nodes_self⟩
      · obtain ⟨c, hc, hmem⟩ := ih ha
        exact ⟨c, hc, Node.mem_nodes_trans (Node.mem_nodes_below p.mem_nodes_self hn) hmem⟩
    · obtain ⟨c, hc, hmem⟩ := ih ha
      exact ⟨c, hc, Node.mem_nodes_trans (Node.mem_nodes_below p.mem_nodes_self hn) hmem⟩

/-- A function has a scope wherever it stands. -/
theorem mem_scopeOwners (hf : isFunction a.kind = true) (ha : a ∈ as) : a ∈ scopeOwners as := by
  induction as with
  | nil => cases ha
  | cons b as ih =>
    unfold scopeOwners
    rcases List.mem_cons.mp ha with rfl | ha
    · rw [if_pos (opensScope_of_isFunction hf)]
      exact List.mem_cons_self
    · split
      · exact List.mem_cons_of_mem _ (ih ha)
      · exact ih ha

/-- If one scope around a use shows its name and no other scope has it, the use means this scope. -/
theorem targetIn?_eq_some {ps : List Placement} {u : Use} {s : Nat} (hs : s ∈ u.chain)
    (hparams : s ∉ u.params) {d : BindingKind × Nat} (hfirst : firstAt? ps s u.name = some d)
    (hnone : ∀ s', s' ≠ s → firstAt? ps s' u.name = none) : targetIn? ps u = some s := by
  have hseen : ScopeTree.seen u.params s d = some s := by
    rw [ScopeTree.seen, if_neg]
    simp [hparams]
  unfold targetIn?
  generalize u.chain = chain at hs
  induction chain with
  | nil => cases hs
  | cons s' chain ih =>
    rw [List.findSome?_cons]
    by_cases heq : s' = s
    · rw [heq, hfirst, Option.bind_some, hseen]
    · rw [hnone s' heq, Option.bind_none]
      exact ih ((List.mem_cons.mp hs).resolve_left (Ne.symm heq))

end EsModule.Scope

namespace EsModule.Compile

open EsModule.Syntax EsModule.Scope

variable {m : Module} {items : List Node} {p : Parts} {tree : Node}
  {exports : List (String × Reading)}

/-! ## Where names are used -/

namespace Parts.Of

variable {dependencies : List String} {n : Node} {as : List Node}

/-- All nodes but two stand below the function. -/
theorem mem_nodes_function (hp : p.Of tree exports dependencies) (hn : n ∈ tree.nodes)
    (hroot : n ≠ tree) (hstatement : n ≠ p.statement) : n ∈ p.function.nodes := by
  rw [Node.nodes_eq, hp.root] at hn
  have hbelow := (List.mem_cons.mp hn).resolve_left hroot
  simp only [Kind.children, List.flatMap_cons, List.flatMap_nil, List.append_nil] at hbelow
  rw [Node.nodes_eq, hp.statement] at hbelow
  have hbelow := (List.mem_cons.mp hbelow).resolve_left hstatement
  simpa only [Kind.children, List.flatMap_cons, List.flatMap_nil, List.append_nil] using hbelow

/-- Nothing but the parameters themselves stands in the list of parameters. -/
theorem eq_param (hp : p.Of tree exports dependencies) (hd : tree.Distinct)
    (hn : tree.Ancestors n as) (hlisted : p.function ∈ parameterOwners n as) :
    n.name?.isSome = true ∧ as.head? = some p.function := by
  obtain ⟨c, hc, hmem⟩ := mem_nodes_of_parameterOwners hd hn hlisted
  replace hc : c ∈ p.params := by
    rw [Node.parameters, hp.function] at hc
    exact hc
  obtain ⟨k, -, hk⟩ := exists_match hp.params.flip hc
  have hleaf : IsLeaf c := .inl ⟨_, hk⟩
  rw [hleaf.nodes, List.mem_singleton] at hmem
  subst hmem
  have habove : tree.Ancestors n [p.function, p.statement, tree] := by
    refine .child hp.ancestors_function ?_
    rw [hp.function]
    exact List.mem_append_left _ (List.mem_append_right _ hc)
  obtain rfl := hn.unique hd habove
  exact ⟨by rw [Node.name?, hk]; rfl, rfl⟩

/-- What is used in a compiled module is used inside the function, and not in its parameters. -/
theorem inside_function (hp : p.Of tree exports dependencies) (hd : tree.Distinct) {u : Use}
    (hu : u ∈ usesIn tree) : 1 ∈ u.chain ∧ 1 ∉ u.params := by
  obtain ⟨e, he, hu⟩ := List.mem_flatMap.mp hu
  obtain ⟨n, as, here, next, hn, rfl, hl⟩ := exists_located_of_mem hp.root hd he
  have hfunction := hp.ancestors_function
  have hone := hp.openersOf_tree.2
  -- a name that uses itself is read where it stands
  obtain ⟨hchain, hparams, hplace⟩ : u.chain = here.inside n next ∧ u.params = here.params ∧
      (n.name?.isSome = true → ∃ above ∈ as.head?, isRead n above here.grandparent = true) := by
    rcases mem_usesOf.mp hu with ⟨x, above, hx, habove, hread, rfl⟩ | ⟨i, hi, x, hx, rfl⟩
    · exact ⟨rfl, rfl, fun _ => ⟨above, hl.parent ▸ habove, hread⟩⟩
    · refine ⟨rfl, rfl, fun hname => ?_⟩
      rw [writes_of_name? hname] at hi
      cases hi
  have hscopes : scopeOwners (n :: as) ⊆ tree.nodes := fun a ha =>
    (List.mem_cons.mp (scopeOwners_subset _ ha)).elim (fun h => h ▸ hn.mem_nodes)
      (hn.above_mem_nodes a)
  rw [hchain, hparams, Owned.mem_iff hd hl.inside hscopes hfunction.mem_nodes hone,
    Owned.mem_iff hd hl.params (fun a ha => hn.above_mem_nodes a (parameterOwners_subset n as ha))
      hfunction.mem_nodes hone]
  refine ⟨mem_scopeOwners (by rw [hp.function]; rfl) ?_, fun hlisted => ?_⟩
  · have hnothing : ∀ {k : Node}, k.name? = none → writes k = [] → n ≠ k := by
      rintro k hname hwrites rfl
      change u ∈ usesOf n _ at hu
      rw [usesOf_eq_nil hname hwrites] at hu
      cases hu
    have hbelow := hp.mem_nodes_function hn.mem_nodes
      (hnothing (by rw [Node.name?, hp.root]) (by rw [writes, hp.root]))
      (hnothing (by rw [Node.name?, hp.statement]) (by rw [writes, hp.statement]))
    obtain ⟨bs, hpath⟩ := Node.exists_path hbelow [p.statement, tree]
    obtain rfl := hn.unique hd (hfunction.trans hpath)
    exact hpath.eq_or_mem.elim (fun h => h ▸ List.mem_cons_self) (List.mem_cons_of_mem _)
  · obtain ⟨hname, hhead⟩ := hp.eq_param hd hn hlisted
    obtain ⟨above, habove, hread⟩ := hplace hname
    obtain rfl := Option.some.inj (hhead.symm.trans habove)
    -- a function reads none of its parameters
    rw [isRead_eq, isReferenced, hp.function, Bool.and_false] at hread
    cases hread

end Parts.Of

/-! ## What the names mean -/

section

variable (h : IsRead m items)
  (hnames : ∀ n ∈ m.root.nodes, ∀ x, n.name? = some x → ¬ IsGeneratedName x)

include h hnames

/-- The module declares no such name. -/
theorem IsRead.not_declared {q : Placement} (hq : q ∈ placementsOf m.root) :
    ¬ IsGeneratedName q.name := by
  obtain ⟨e, he, hq⟩ := List.mem_flatMap.mp hq
  obtain ⟨d, hd, rfl⟩ := List.mem_map.mp hq
  obtain ⟨k, hk, hname⟩ := (sound_of_mem_steps h.tree he hd).name
  exact hnames k hk d.name hname

/-- If an export is read by such a name, the name is made for the module. -/
theorem ExportedFrom.isMade {exported x : String} {r : Reading}
    (hfrom : ExportedFrom m items exported r) (hx : x ∈ r.names) (hgenerated : IsGeneratedName x) :
    IsMade items x := by
  cases hfrom with
  | @own y b hb hkind =>
    obtain rfl := List.mem_singleton.mp hx
    exact absurd hgenerated (h.not_declared hnames ((collected h.scopes).mem_placementsOf hb))
  | @holder item value hi ht hexported =>
    exact .inr ⟨List.mem_singleton.mp hx, item, hi, value, ht⟩
  | @member source name hs =>
    exact .inl (List.mem_singleton.mp hx ▸ isSupplied_handleOf hs)
  | @namespaceOf source hs =>
    rcases List.mem_pair.mp hx with rfl | rfl
    · exact .inl (.inl ⟨.namespaceOf, rfl⟩)
    · exact .inl (isSupplied_handleOf hs)
  | @unbound item specifiers y hi hk hs hnone =>
    -- the name stands in the list of exports
    obtain rfl := List.mem_singleton.mp hx
    obtain ⟨s, hmem, hpair⟩ := List.mem_filterMap.mp hs
    split at hpair
    · rename_i binding _ hspecifier
      obtain ⟨y, hy, heq⟩ := Option.map_eq_some_iff.mp hpair
      obtain ⟨rfl, -⟩ := Prod.mk.inj heq
      have hitem : s ∈ item.kind.children := by
        rw [hk]
        exact hmem
      have hbinding : binding ∈ s.kind.children := by
        rw [hspecifier]
        exact List.mem_singleton_self _
      have hroot := Node.mem_nodes_below (h.tree.mem_nodes_item hi) hitem
      exact absurd hgenerated (hnames _ (Node.mem_nodes_below hroot hbinding) _ hy)
    · cases hpair

end

/-- Whether the names that are made for a module stay apart from its own. -/
structure MadeApart (p : Parts) (tree : Node) (specifiers : List String) (t : ScopeTree) :
    Prop where
  /-- Only the scope with number one binds such a name, to what was made for it, -/
  bound : ∀ s x b, t.bindingAt? s x = some b → IsGeneratedName x →
    s = 1 ∧ IsMadeFor p specifiers x b.kind b.node
  /-- and this binding lists all uses of the name. -/
  used : ∀ u ∈ usesIn tree, IsGeneratedName u.name → u.node ∉ t.globals ∧
    ∃ b, t.bindingAt? 1 u.name = some b ∧ u.node ∈ b.listed u.access

section

variable {h : IsRead m items} (hw : h.Wraps p tree exports)
  (hnames : ∀ n ∈ m.root.nodes, ∀ x, n.name? = some x → ¬ IsGeneratedName x)

include hw hnames

/-- A name of this sort that is used was made for the module. -/
theorem IsRead.Wraps.isMade_of_use
    (hexports : ∀ exported ∈ exports, ExportedFrom m items exported.1 exported.2) {u : Use}
    (hu : u ∈ usesIn tree) (hx : IsGeneratedName u.name) : IsMade items u.name := by
  rw [usesIn, hw.continues.walk, List.flatMap_append, List.mem_append] at hu
  rcases hu with hu | hu
  · obtain ⟨e, he, hu⟩ := List.mem_flatMap.mp hu
    rcases hw.parts.names_used_front e he u hu with hsupplied | ⟨exported, he, hread⟩
    · exact .inl hsupplied
    · exact (hexports exported he).isMade h hnames hread hx
  · rcases hw.mirrored.uses hu with ⟨v, hv, -, rfl⟩ | ⟨-, hadds⟩
    · obtain ⟨e, he, hv⟩ := List.mem_flatMap.mp hv
      obtain ⟨k, hk, -, hname⟩ := exists_node_of_use he hv
      exact absurd hx (hnames k hk _ hname)
    · exact .inl (h.itemsOf ▸ hadds)

/-- What is declared under such a name is what was made for it. -/
theorem IsRead.Wraps.isMadeFor (hd : tree.Distinct)
    (hdefault : items.countP isDefaultExport ≤ 1) {q : Placement} (hq : q ∈ placementsOf tree)
    (hx : IsGeneratedName q.name) :
    q.scope = 1 ∧ IsMadeFor p (dependencies items) q.name q.kind q.node := by
  rcases hw.continues.of_mem_placementsOf hq with hmade | ⟨q, hold, -, rfl⟩
  · obtain ⟨kind, i, hdeclared, hfor⟩ := hw.exists_placement hd (hw.isMade_of_mem_made hmade)
    have heq := (hw.whole hdefault hnames).eq_of_name hq hdeclared rfl hmade
    rw [heq]
    exact ⟨rfl, hfor⟩
  · have hplain := h.not_declared hnames hold
    exact absurd hx hplain

/-- A use of such a name means the scope with number one. -/
theorem IsRead.Wraps.target_of_made (hd : tree.Distinct)
    (hdefault : items.countP isDefaultExport ≤ 1)
    (hexports : ∀ exported ∈ exports, ExportedFrom m items exported.1 exported.2) {u : Use}
    (hu : u ∈ usesIn tree) (hx : IsGeneratedName u.name) :
    targetIn? (placementsOf tree) u = some 1 := by
  obtain ⟨hchain, hparams⟩ := hw.parts.inside_function hd hu
  obtain ⟨kind, i, hdeclared, -⟩ := hw.exists_placement hd (hw.isMade_of_use hnames hexports hu hx)
  obtain ⟨d, hfirst⟩ := firstAt?_isSome_of_mem hdeclared
  refine targetIn?_eq_some hchain hparams hfirst fun s hs => firstAt?_eq_none.mpr ?_
  intro q hq hscope hname
  exact hs (hscope ▸ (hw.isMadeFor hnames hd hdefault hq (hname ▸ hx)).1)

theorem IsRead.Wraps.madeApart (hd : tree.Distinct) (hdefault : items.countP isDefaultExport ≤ 1)
    (hexports : ∀ exported ∈ exports, ExportedFrom m items exported.1 exported.2) {t : ScopeTree}
    (ht : collect tree = .ok t) : MadeApart p tree (dependencies items) t := by
  have hc := collected ht
  constructor
  · intro s x b hb hx
    exact hw.isMadeFor hnames hd hdefault (hc.mem_placementsOf hb) hx
  · intro u hu hx
    have htarget := hw.target_of_made hnames hd hdefault hexports hu hx
    constructor
    · -- a global is used without meaning anything, but all uses of a node have its name
      intro hglobal
      obtain ⟨v, hv, hid, hnone⟩ := (hc.globals u.node).mp hglobal
      have hname : v.name = u.name := by
        obtain ⟨e, he, hu⟩ := List.mem_flatMap.mp hu
        obtain ⟨f, hf, hv⟩ := List.mem_flatMap.mp hv
        obtain ⟨k, hk, hkid, hkname⟩ := exists_node_of_use he hu
        obtain ⟨l, hl, hlid, hlname⟩ := exists_node_of_use hf hv
        obtain rfl := hd.eq_of_id hl hk (hlid.trans (hid.trans hkid.symm))
        exact Option.some.inj (hlname.symm.trans hkname)
      cases hnone.symm.trans (hw.target_of_made hnames hd hdefault hexports hv (hname ▸ hx))
    · obtain ⟨kind, i, hdeclared, -⟩ :=
        hw.exists_placement hd (hw.isMade_of_use hnames hexports hu hx)
      obtain ⟨b, hb⟩ := hc.exists_bindingAt? hdeclared
      exact ⟨b, hb, (hc.mem_listed hb u.access u.node).mpr ⟨u, hu, rfl, rfl, rfl, htarget⟩⟩

end

/-- Compiling keeps the names that it makes apart, if there is one default export at most and no
identifier has such a name. -/
theorem made_apart {source file : String} {m : Module} (hm : Module.ofSource source file = .ok m)
    (hdefault : (itemsOf m.root).countP isDefaultExport ≤ 1)
    (hnames : ∀ n ∈ m.root.nodes, ∀ x, n.name? = some x → ¬ IsGeneratedName x)
    (lookup : ExportLookup) : ∃ (p : Parts) (t : ScopeTree),
      p.Of (m.finalTree lookup) (m.interface.allExports lookup) m.interface.dependencies ∧
      collect (m.finalTree lookup) = .ok t ∧ t.scopes[1]?.map (·.node) = some p.function.id ∧
      MadeApart p (m.finalTree lookup) m.interface.dependencies t := by
  obtain ⟨-, -, items, h⟩ := isRead_of_ofSource hm
  rw [h.itemsOf] at hdefault
  obtain ⟨p, hw⟩ := h.exists_wraps (m.interface.allExports lookup)
  obtain ⟨t, ht⟩ := (hw.whole hdefault hnames).exists_collect h.scopes
  have hdependencies : m.interface.dependencies = dependencies items := by
    rw [h.interface]
    rfl
  have hexports : ∀ exported ∈ m.interface.allExports lookup,
      ExportedFrom m items exported.1 exported.2 := by
    rw [h.interface]
    exact fun exported he => h.exportedFrom_allExports he
  refine ⟨p, t, hdependencies ▸ hw.parts, ht, ?_, hdependencies ▸ ?_⟩
  · rw [← (collected ht).getElem?_openersOf]
    exact hw.parts.openersOf_tree.2
  · exact hw.madeApart hnames hw.distinct_compiled hdefault hexports ht

end EsModule.Compile
