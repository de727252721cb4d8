import EsModule.Proofs.Compile.Bindings
import EsModule.Proofs.Scope.Placed

/-!
# What the readers of the exports read

A reader of an export is a function in the statement in front of the items. It has a scope of its
own, in which nothing is declared, and around it are the scope of the function of the capabilities
and that of the program. So a name in a reader means what is declared for the function of the
capabilities (`Parts.Of.resolves`), and nothing if the name is declared neither there nor for the
program (`Parts.Of.unresolved`). This holds whatever else is declared for the function.
-/

namespace EsModule.Syntax.Node

variable {n m : Node} {as bs : List Node}

/-- A way down starts at the node, or leads through it. -/
theorem Path.eq_or_mem (h : n.Path as m bs) : m = n ∨ n ∈ bs := by
  induction h with
  | here => exact .inl rfl
  | child _ _ ih =>
    refine .inr (List.mem_cons.mpr ?_)
    exact ih.imp_left Eq.symm

end EsModule.Syntax.Node

namespace EsModule.Scope

open EsModule.Syntax

/-! ## Identifiers that are read below nodes that write nothing -/

section

variable {root n : Node} {items as : List Node} {x : String} {t : ScopeTree}

/-- An identifier that is read is used where it stands. -/
theorem exists_use_of_read (hk : root.kind = .program items) (hd : root.Distinct)
    (hn : root.Ancestors n as) (hx : n.name? = some x) (hread : IsReadBelow n as) :
    ∃ u ∈ usesIn root, u.access = .read ∧ u.At root n as := by
  have hname : n.name?.isSome = true := by rw [hx]; rfl
  obtain ⟨here, next, he, hl⟩ := exists_step hk hd hn
  cases as with
  | nil => cases hread
  | cons p as =>
    refine ⟨⟨n.id, x, .read, here.inside n next, here.params⟩, List.mem_flatMap.mpr ⟨_, he, ?_⟩,
      rfl, hread, rfl, hx, ?_, hl.params⟩
    · refine mem_usesOf.mpr (.inl ⟨x, p, hx, hl.parent, ?_, rfl⟩)
      rw [hl.grandparent]
      exact (isRead_iff hname).mpr hread
    · rw [← scopeOwners_cons_of_name? hname]
      exact hl.inside

/-- If nothing above an identifier writes, the identifier is not used otherwise. -/
theorem at_of_use (hk : root.kind = .program items) (hd : root.Distinct)
    (hn : root.Ancestors n as) (hx : n.name? = some x) (hread : IsReadBelow n as)
    (hquiet : ∀ a ∈ as, writes a = []) {u : Use} (hu : u ∈ usesIn root) (hid : u.node = n.id) :
    u.At root n as := by
  obtain ⟨e, he, hu⟩ := List.mem_flatMap.mp hu
  obtain ⟨m, bs, here, next, hm, rfl, hl⟩ := exists_located_of_mem hk hd he
  rcases mem_usesOf.mp hu with ⟨name, p, hname, -, -, rfl⟩ | ⟨i, hi, name, hname, rfl⟩
  · obtain rfl := hd.eq_of_id hm.mem_nodes hn.mem_nodes hid
    obtain rfl := hm.unique hd hn
    refine ⟨hread, rfl, hname, ?_, hl.params⟩
    rw [← scopeOwners_cons_of_name? (by rw [hx]; rfl : m.name?.isSome = true)]
    exact hl.inside
  · -- what is written stands below the node that writes, and no such node is above the identifier
    exfalso
    obtain ⟨top, htop, hbound⟩ := mem_writes.mp hi
    have hbelow : i ∈ m.nodes := Node.mem_nodes_trans (mem_nodes_of_mem_boundIdentifiers hbound)
      (Node.mem_nodes_below m.mem_nodes_self (writtenTargets_subset m htop))
    obtain rfl := hd.eq_of_id (Node.mem_nodes_trans hbelow hm.mem_nodes) hn.mem_nodes hid
    obtain ⟨cs, hpath⟩ := Node.exists_path hbelow bs
    obtain rfl := Node.Ancestors.unique hd (hm.trans hpath) hn
    have hnothing : writes m = [] := by
      rcases hpath.eq_or_mem with rfl | habove
      · unfold Node.name? at hx
        unfold writes
        split at hx
        · rename_i hkind
          rw [hkind]
        · cases hx
      · exact hquiet m habove
    rw [hnothing] at hi
    cases hi

/-- What is declared in a scope is declared by a node at or below that of the scope, unless the scope
is the program's. -/
theorem exists_declarer_below (hk : root.kind = .program items) (hd : root.Distinct)
    {q : Placement} (hq : q ∈ placementsOf root) {a : Node} (ha : a ∈ root.nodes)
    (hscope : (openersOf root)[q.scope]? = some a.id) (hroot : a ≠ root) :
    ∃ m ∈ a.nodes, declarations m ≠ [] := by
  obtain ⟨e, he, hq⟩ := List.mem_flatMap.mp hq
  obtain ⟨m, bs, here, next, hm, rfl, hl⟩ := exists_located_of_mem hk hd he
  obtain ⟨d, hdeclared, rfl⟩ := List.mem_map.mp hq
  refine ⟨m, ?_, List.ne_nil_of_mem hdeclared⟩
  change (openersOf root)[placeIn (kindsOf root) (here.inside m next) d.place]? = _ at hscope
  have hne : placeIn (kindsOf root) (here.inside m next) d.place ≠ 0 := by
    intro hzero
    rw [hzero] at hscope
    exact hroot (hd.eq_of_id ha root.mem_nodes_self (Option.some.inj hscope).symm)
  -- the scope is one of those around the node, so its node is the node or above it
  obtain ⟨b, hb, hopener⟩ := Owned.exists_owner hl.inside (placeIn_mem hne)
  have hb := scopeOwners_subset _ hb
  obtain rfl : b = a := by
    refine hd.eq_of_id ?_ ha (Option.some.inj (hopener.symm.trans hscope))
    exact (List.mem_cons.mp hb).elim (fun hb => hb ▸ hm.mem_nodes) (hm.above_mem_nodes b)
  rcases List.mem_cons.mp hb with rfl | hb
  · exact b.mem_nodes_self
  · exact hm.mem_nodes_of_above hb

end

end EsModule.Scope

namespace EsModule.Compile

open EsModule.Syntax EsModule.Scope

variable {m : Module} {items : List Node} {p : Parts} {tree : Node}
  {exports : List (String × Reading)} {h : IsRead m items}

/-! ## The nodes above a reader -/

/-- The nodes of a compiled module have different numbers. -/
theorem IsRead.Wraps.distinct_tree (hw : h.Wraps p tree exports) (hid : tree.id = m.root.id) :
    tree.Distinct := by
  have hp := hw.parts
  obtain ⟨high, hwithin⟩ := hw.around
  have hstandalone : (idsOf [m.standalone]).Nodup := (idsOf_eq _).symm ▸ hw.distinct
  have hbound : ∀ i ∈ idsOf [m.standalone], i < m.standalone.numberBound := by
    intro i hi
    obtain ⟨n, hn, rfl⟩ := mem_idsOf_singleton.mp hi
    exact lt_numberBound hn
  have hitems : idsOf [m.standalone] = tree.id :: idsOf p.items := by
    rw [hw.standalone, idsOf_singleton, hid]
    rfl
  rw [hitems] at hstandalone hbound
  have htree : (idsOf [tree]).Perm (tree.id :: (p.around ++ idsOf p.items)) := by
    rw [idsOf_singleton, hp.root]
    refine .cons _ ?_
    change (idsOf [p.statement]).Perm _
    rw [idsOf_singleton, hp.statement]
    refine .cons _ ?_
    change (idsOf [p.function]).Perm _
    rw [idsOf_singleton, hp.function]
    refine .cons _ ?_
    change (idsOf ([] ++ p.params ++ [p.block])).Perm _
    rw [List.nil_append, idsOf_append, idsOf_singleton, hp.block]
    change (idsOf p.params ++ p.block.id :: idsOf ((p.directive :: p.install :: p.imports) ++
      p.items)).Perm (p.block.id :: (idsOf (p.params ++ p.directive :: p.install :: p.imports) ++
        idsOf p.items))
    rw [idsOf_append, idsOf_append, List.append_assoc]
    exact List.perm_middle
  rw [Node.Distinct, ← idsOf_eq, htree.nodup_iff]
  obtain ⟨hroot, hnodup⟩ := List.nodup_cons.mp hstandalone
  have hrootBound := hbound _ List.mem_cons_self
  rw [List.nodup_cons, List.mem_append, not_or]
  refine ⟨⟨fun hmem => ?_, hroot⟩, hwithin.nodup.append hnodup fun i hi hi' => ?_⟩
  · exact absurd hrootBound (Nat.not_lt.mpr (hwithin.mem _ hmem).1)
  · exact absurd (hbound i (List.mem_cons_of_mem _ hi')) (Nat.not_lt.mpr (hwithin.mem i hi).1)

theorem IsRead.Wraps.distinct_compiled (hw : h.Wraps p (m.compiled exports) exports) :
    (m.compiled exports).Distinct := by
  refine hw.distinct_tree ?_
  change m.standalone.id = m.root.id
  rw [hw.standalone]
  rfl

namespace Parts

/-- The nodes above the statements of the function. -/
def aboveBody (p : Parts) (tree : Node) : List Node := [p.block, p.function, p.statement, tree]

/-- The nodes above a reader in a member of the table of exports. -/
def aboveReader (p : Parts) (tree member : Node) : List Node :=
  member :: p.table :: p.installCall :: p.install :: p.aboveBody tree

namespace Of

variable {dependencies : List String} {member key reader n : Node}

theorem ancestors_function (hp : p.Of tree exports dependencies) :
    tree.Ancestors p.function [p.statement, tree] := by
  refine .child (.child .here ?_) ?_
  · rw [hp.root]
    exact List.mem_singleton_self _
  · rw [hp.statement]
    exact List.mem_singleton_self _

theorem ancestors_body (hp : p.Of tree exports dependencies)
    (hn : n ∈ p.directive :: p.install :: p.imports ++ p.items) :
    tree.Ancestors n (p.aboveBody tree) := by
  refine .child (.child hp.ancestors_function ?_) ?_
  · rw [hp.function]
    exact List.mem_append_right _ (List.mem_singleton_self _)
  · rw [hp.block]
    exact hn

theorem path_reader (hp : p.Of tree exports dependencies) (hm : member ∈ p.members)
    (hmember : member.kind = .property key reader .plain false false false) (as : List Node) :
    p.install.Path as reader (member :: p.table :: p.installCall :: p.install :: as) := by
  refine .child (.child (.child (.child .here ?_) ?_) ?_) ?_
  · rw [hp.install]
    exact List.mem_singleton_self _
  · rw [hp.installCall]
    exact List.mem_cons_of_mem _ (List.mem_singleton_self _)
  · rw [hp.table]
    exact hm
  · rw [hmember]
    exact List.mem_cons_of_mem _ (List.mem_singleton_self _)

/-- The function and the program have scopes. -/
theorem scopeOwners_function (hp : p.Of tree exports dependencies) :
    scopeOwners [p.function, p.statement, tree] = [p.function, tree] := by
  rw [scopeOwners_of_opens (opensScope_of_kind hp.function rfl),
    scopeOwners_of_not_scopable (by rw [hp.statement]; rfl),
    scopeOwners_of_opens (opensScope_of_kind hp.root rfl)]
  rfl

/-- The body of the function has no scope besides. -/
theorem scopeOwners_body (hp : p.Of tree exports dependencies) :
    scopeOwners (p.aboveBody tree) = [p.function, tree] := by
  rw [aboveBody, scopeOwners, if_neg, hp.scopeOwners_function]
  simp [opensScope, hp.block, hp.function, isFunction]

/-- A reader has a scope. -/
theorem scopeOwners_reader (hp : p.Of tree exports dependencies) {value : Node}
    (hmember : member.kind = .property key reader .plain false false false)
    (hreader : reader.kind = .arrowFunction [] value true false) :
    scopeOwners (reader :: p.aboveReader tree member) = [reader, p.function, tree] := by
  have hplain : ∀ {k : Kind Node} {n : Node} {as : List Node}, n.kind = k → isScopable k = false →
      scopeOwners (n :: as) = scopeOwners as := by
    rintro _ n as rfl hk
    exact scopeOwners_of_not_scopable hk
  rw [scopeOwners_of_opens (opensScope_of_kind hreader rfl), aboveReader, hplain hmember rfl,
    hplain hp.table rfl, hplain hp.installCall rfl, hplain hp.install rfl, hp.scopeOwners_body]

/-- Nothing in a reader stands in a list of parameters. -/
theorem parameterOwners_reader (hp : p.Of tree exports dependencies) (hd : tree.Distinct)
    {value : Node} (hmember : member.kind = .property key reader .plain false false false)
    (hreader : reader.kind = .arrowFunction [] value true false) :
    parameterOwners n (reader :: p.aboveReader tree member) = [] := by
  -- the body of the function is none of its parameters
  have hbody : p.params.any (same · p.block) = false := by
    rw [List.any_eq_false]
    intro c hc hsame
    have hchild : ∀ {d}, d ∈ p.params ++ [p.block] → d ∈ tree.nodes := by
      intro d hd
      refine Node.mem_nodes_below hp.ancestors_function.mem_nodes ?_
      rw [hp.function]
      exact hd
    obtain rfl := hd.eq_of_id (hchild (List.mem_append_left _ hc))
      (hchild (List.mem_append_right _ (List.mem_singleton_self _))) (by simpa [same] using hsame)
    have hname := (hp.isLeaf_params _ hc).1
    rw [Node.name?, hp.block] at hname
    cases hname
  simp [aboveReader, aboveBody, parameterOwners, Node.parameters, hreader, hmember, hp.table,
    hp.installCall, hp.install, hp.block, hp.function, hp.statement, hp.root, hbody]

/-- Nothing above what a reader gives back writes. -/
theorem writes_reader (hp : p.Of tree exports dependencies) {value : Node}
    (hmember : member.kind = .property key reader .plain false false false)
    (hreader : reader.kind = .arrowFunction [] value true false) :
    ∀ a ∈ reader :: p.aboveReader tree member, writes a = [] := by
  simp [aboveReader, aboveBody, writes, hreader, hmember, hp.table, hp.installCall, hp.install,
    hp.block, hp.function, hp.statement, hp.root]

/-! ## What is declared for the function -/

theorem openersOf_tree (hp : p.Of tree exports dependencies) :
    (openersOf tree)[0]? = some tree.id ∧ (openersOf tree)[1]? = some p.function.id := by
  refine ⟨rfl, ?_⟩
  rw [openersOf, hp.moduleSteps_eq, openers_append, openers, hp.scopesOpened_front]
  rfl

/-- What is declared where only the function is around is declared in its scope. -/
theorem mem_placementsOf (hp : p.Of tree exports dependencies) (hd : tree.Distinct)
    {as : List Node} (hn : tree.Ancestors n as)
    (howners : scopeOwners (n :: as) = [p.function, tree]) {d : Declaration}
    (hdeclared : d ∈ declarations n) (hplace : d.place ≠ .outerBlock) :
    ⟨1, d.kind, d.name, d.node⟩ ∈ placementsOf tree := by
  obtain ⟨here, next, he, hl⟩ := exists_step hp.root hd hn
  have hchain : here.inside n next = [1, 0] := by
    obtain ⟨hprogram, hfunction⟩ := hp.openersOf_tree
    exact Owned.unique hd (howners ▸ hl.inside) (.cons hfunction (.cons hprogram .nil))
  have hkind : (kindsOf tree)[1]? = some ScopeKind.function := by
    rw [kindsOf, hp.moduleSteps_eq, kindsOpened_append, kindsOpened, hp.scopesOpened_front]
    rfl
  have hnearest : ∀ test : ScopeKind → Bool, test .function = true →
      nearest (kindsOf tree) test [1, 0] = 1 := by
    intro test htest
    rw [nearest, List.find?_cons_of_pos (by simpa [hkind] using htest)]
    rfl
  refine List.mem_flatMap.mpr ⟨_, he, List.mem_map.mpr ⟨d, hdeclared, ?_⟩⟩
  have hplaced : placeIn (kindsOf tree) [1, 0] d.place = 1 := by
    cases hd : d.place with
    | innermost => rfl
    | block => exact hnearest _ rfl
    | function => exact hnearest _ rfl
    | outerBlock => exact absurd hd hplace
  change (⟨placeIn (kindsOf tree) (here.inside n next) d.place, d.kind, d.name, d.node⟩ :
    Placement) = _
  rw [hchain, hplaced]

/-- The function declares the capabilities, each by a parameter. -/
theorem exists_param (hp : p.Of tree exports dependencies) {d : Declaration}
    (hd : d ∈ declarations p.function) : ∃ c : Capability, ∃ param ∈ p.params,
      param.kind = .identifier c.name ∧ d = ⟨.innermost, .param, c.name, param.id⟩ := by
  have hparams : declarations p.function = paramNames p.params := by
    rw [declarations, hp.function]
    exact List.append_nil _
  obtain ⟨param, hparam, i, hi, x, hx, rfl⟩ := mem_paramNames.mp (hparams ▸ hd)
  obtain ⟨c, -, hk⟩ := exists_match hp.params.flip hparam
  have hname : param.name? = some c.name := by rw [Node.name?, hk]
  rw [boundIdentifiers_of_name? (by rw [hname]; rfl), List.mem_singleton] at hi
  subst hi
  obtain rfl := Option.some.inj (hx.symm.trans hname)
  exact ⟨c, i, hparam, hk, rfl⟩

/-- Capabilities are parameters, which are declared before anything else. -/
theorem firstAt?_capability (hp : p.Of tree exports dependencies) (c : Capability) :
    ∃ param ∈ p.params, param.kind = .identifier c.name ∧
      firstAt? (placementsOf tree) 1 c.name = some (.param, param.id) := by
  have hplaced : ∃ rest, placementsOf tree =
      (declarations p.function).map (fun d => ⟨1, d.kind, d.name, d.node⟩) ++ rest := by
    have hfunction : (Surroundings.step ⟨some p.statement, some tree, [0], []⟩ p.function 1).placements
        (kindsOf tree) = (declarations p.function).map fun d => ⟨1, d.kind, d.name, d.node⟩ := by
      refine List.map_congr_left fun d hd => ?_
      obtain ⟨c, param, -, -, rfl⟩ := hp.exists_param hd
      simp [Surroundings.step, Surroundings.inside, hp.opens_function, placeIn]
    rw [placementsOf, placements, hp.moduleSteps_eq, Parts.front, List.cons_append, List.flatMap_cons,
      List.cons_append, List.flatMap_cons, List.cons_append, List.flatMap_cons, hfunction]
    simp [Step.placements, Surroundings.step, declarations, hp.root, hp.statement]
  obtain ⟨rest, hplaced⟩ := hplaced
  have hname : c.name ∈ (declarations p.function).map (·.name) := by
    rw [hp.names_params]
    exact List.mem_map_of_mem (by cases c <;> decide)
  obtain ⟨d, hd, hname⟩ := List.mem_map.mp hname
  obtain ⟨held, hheld⟩ := firstAt?_isSome_of_mem (List.mem_map_of_mem
    (f := fun d : Declaration => (⟨1, d.kind, d.name, d.node⟩ : Placement)) hd)
  obtain ⟨q, hq, -, hqname, rfl⟩ := exists_of_firstAt? hheld
  obtain ⟨d', hd', rfl⟩ := List.mem_map.mp hq
  obtain ⟨c', param, hparam, hk, rfl⟩ := hp.exists_param hd'
  have hsame : c'.name = c.name := hqname.trans hname
  refine ⟨param, hparam, hsame ▸ hk, ?_⟩
  rw [hplaced, firstAt?_append, ← hname, hheld, Option.some_or]

/-- The function has no other parameters. -/
theorem name_of_param (hp : p.Of tree exports dependencies) (hd : tree.Distinct) {q : Placement}
    (hq : q ∈ placementsOf tree) (hscope : q.scope = 1) (hkind : q.kind = .param) :
    ∃ c : Capability, q.name = c.name := by
  obtain ⟨e, he, hq⟩ := List.mem_flatMap.mp hq
  obtain ⟨d, hdeclared, rfl⟩ := List.mem_map.mp hq
  obtain ⟨n, as, here, next, hn, rfl, hl⟩ := exists_located_of_mem hp.root hd he
  obtain ⟨hfunction, hplace⟩ := isFunction_of_param hdeclared hkind
  -- the innermost scope is that of the declaring function itself
  have hinside := hl.inside
  rw [scopeOwners_of_opens (opensScope_of_isFunction hfunction)] at hinside
  have hopener : (openersOf tree)[1]? = some n.id := by
    rw [← hscope]
    change (openersOf tree)[placeIn (kindsOf tree) (here.inside n next) d.place]? = _
    rw [hplace]
    generalize here.inside n next = chain at hinside
    cases hinside with
    | cons hhead _ => exact hhead
  obtain rfl := hd.eq_of_id hn.mem_nodes hp.ancestors_function.mem_nodes
    (Option.some.inj (hopener.symm.trans hp.openersOf_tree.2))
  obtain ⟨c, _, -, -, rfl⟩ := hp.exists_param hdeclared
  exact ⟨c, rfl⟩

/-- Constants of the body are declared in the scope of the function. -/
theorem mem_placementsOf_constant (hp : p.Of tree exports dependencies) (hd : tree.Distinct)
    (hn : n ∈ p.imports ++ p.items) {x : String} {declarator : Node}
    (hc : DeclaresConstant x declarator n) :
    ⟨1, .constBinding, x, declarator.id⟩ ∈ placementsOf tree := by
  have hbody : n ∈ p.directive :: p.install :: p.imports ++ p.items :=
    List.mem_cons_of_mem _ (List.mem_cons_of_mem _ hn)
  have hdeclared : ⟨.block, .constBinding, x, declarator.id⟩ ∈ declarations n :=
    hc.declarations ▸ List.mem_singleton_self _
  refine hp.mem_placementsOf hd (hp.ancestors_body hbody) ?_ hdeclared nofun
  obtain ⟨_, _, hk, -⟩ := hc
  rw [scopeOwners_of_not_scopable (by rw [hk]; rfl), hp.scopeOwners_body]

/-- What has the number of its declarator is the constant. -/
theorem kind_of_constant (hp : p.Of tree exports dependencies) (hd : tree.Distinct)
    (hn : n ∈ p.imports ++ p.items) {x : String} {declarator : Node}
    (hc : DeclaresConstant x declarator n) {q : Placement} (hq : q ∈ placementsOf tree)
    (hnode : q.node = declarator.id) : q.kind = .constBinding := by
  obtain ⟨target, value, hk, hv, -⟩ := hc
  obtain ⟨e, he, hq⟩ := List.mem_flatMap.mp hq
  obtain ⟨d, hdeclared, rfl⟩ := List.mem_map.mp hq
  obtain ⟨m, hm, there, next, rfl, -⟩ := exists_of_mem_steps he
  have hbody := hp.ancestors_body (List.mem_cons_of_mem p.directive
    (List.mem_cons_of_mem p.install hn))
  exact kind_of_declarator hd hbody.mem_nodes hk (List.mem_singleton_self _)
    (by rw [isDeclarator, hv]) hm hdeclared hnode

/-- If declarations do not clash, a constant of the body is declared before anything else that has
its name, unless that is the name of a capability. -/
theorem firstAt?_constant (hp : p.Of tree exports dependencies) (hd : tree.Distinct)
    (hcompatible : Compatible (fun _ _ => none) (placementsOf tree))
    (hn : n ∈ p.imports ++ p.items) {x : String} {declarator : Node}
    (hc : DeclaresConstant x declarator n) (hx : ∀ c : Capability, x ≠ c.name) :
    firstAt? (placementsOf tree) 1 x = some (.constBinding, declarator.id) := by
  have hconstant := hp.mem_placementsOf_constant hd hn hc
  obtain ⟨held, hheld⟩ := firstAt?_isSome_of_mem hconstant
  obtain ⟨q, hq, hscope, hname, rfl⟩ := exists_of_firstAt? hheld
  have hnode : q.node = declarator.id := by
    rcases hcompatible _ hconstant q.kind q.node (Option.none_or.trans hheld) with h | h | h
    · exact h
    · obtain ⟨c, hparam⟩ := hp.name_of_param hd hq hscope h
      exact absurd (hname.symm.trans hparam) (hx c)
    · cases h.2
  exact hheld.trans (by rw [hp.kind_of_constant hd hn hc hq hnode, hnode])

end Of

end Parts

/-! ## What a name in a reader means -/

/-- Whether an identifier is read in a reader of an export. -/
structure Parts.Reads (p : Parts) (tree reader n : Node) (x : String) (as : List Node) : Prop where
  /-- The reader stands in the statement that installs the readers. -/
  inside : reader ∈ p.install.nodes
  /-- The identifier stands below these nodes. -/
  place : tree.Ancestors n as
  /-- It spells the name. -/
  name : n.kind = .identifier x
  /-- It is read there. -/
  read : IsReadBelow n as
  /-- Only the reader, the function and the program have scopes. -/
  owners : scopeOwners as = [reader, p.function, tree]
  /-- It stands in no list of parameters. -/
  params : parameterOwners n as = []
  /-- Nothing above it writes. -/
  quiet : ∀ a ∈ as, writes a = []

namespace Parts.Of

variable {dependencies : List String} {member key reader value n : Node} {x : String}
  (hp : p.Of tree exports dependencies) (hd : tree.Distinct) (hm : member ∈ p.members)
  (hmember : member.kind = .property key reader .plain false false false)
  (hreader : reader.kind = .arrowFunction [] value true false)

include hp hm hmember hreader

theorem ancestors_value : tree.Ancestors value (reader :: p.aboveReader tree member) := by
  refine .child ((hp.ancestors_body (by simp)).trans (hp.path_reader hm hmember _)) ?_
  rw [hreader]
  exact List.mem_singleton_self _

include hd

/-- What a reader gives back is read there. -/
theorem reads_value (hvalue : value.kind = .identifier x) :
    p.Reads tree reader value x (reader :: p.aboveReader tree member) where
  inside := (hp.path_reader hm hmember []).mem_nodes
  place := hp.ancestors_value hm hmember hreader
  name := hvalue
  read := ⟨by simp [isReferenced, hreader, same], by simp [hreader]⟩
  owners := hp.scopeOwners_reader hmember hreader
  params := hp.parameterOwners_reader hd hmember hreader
  quiet := hp.writes_reader hmember hreader

/-- So are the names in a member expression or a call that a reader gives back. -/
theorem reads_below (hplain : isScopable value.kind = false) (hquiet : writes value = [])
    (hparams : value.parameters = []) (hn : n ∈ value.kind.children)
    (hname : n.kind = .identifier x) (hread : IsReadBelow n [value, reader]) :
    p.Reads tree reader n x (value :: reader :: p.aboveReader tree member) where
  inside := (hp.path_reader hm hmember []).mem_nodes
  place := .child (hp.ancestors_value hm hmember hreader) hn
  name := hname
  read := hread
  owners := by rw [scopeOwners_of_not_scopable hplain, hp.scopeOwners_reader hmember hreader]
  params := by
    rw [parameterOwners, hparams]
    exact hp.parameterOwners_reader hd hmember hreader
  quiet := List.forall_mem_cons.mpr ⟨hquiet, hp.writes_reader hmember hreader⟩

theorem reads_object {object property : Node} {computed optional : Bool}
    (hvalue : value.kind = .memberExpression object property computed optional)
    (hname : object.kind = .identifier x) :
    p.Reads tree reader object x (value :: reader :: p.aboveReader tree member) := by
  have hchildren : value.kind.children = [object, property] := by rw [hvalue]; rfl
  have hother : same property object = false := by
    have hnodup := (hd.node (hp.ancestors_value hm hmember hreader).mem_nodes).nodup_children
    rw [hchildren, List.map_cons, List.nodup_cons, List.map_singleton, List.mem_singleton] at hnodup
    exact beq_eq_false_iff_ne.mpr fun hid => hnodup.1 hid.symm
  refine hp.reads_below hd hm hmember hreader (by rw [hvalue]; rfl) (by rw [writes, hvalue])
    (by rw [Node.parameters, hvalue]) (by simp [hchildren]) hname ⟨?_, by simp [hvalue]⟩
  rw [isReferenced, hvalue]
  dsimp only
  rw [hother]
  exact beq_self_eq_true object.id

theorem reads_called {callee argument : Node} {optional : Bool}
    (hvalue : value.kind = .callExpression callee [argument] optional)
    (hn : n = callee ∨ n = argument) (hname : n.kind = .identifier x) :
    p.Reads tree reader n x (value :: reader :: p.aboveReader tree member) := by
  have hchildren : value.kind.children = [callee, argument] := by rw [hvalue]; rfl
  refine hp.reads_below hd hm hmember hreader (by rw [hvalue]; rfl) (by rw [writes, hvalue])
    (by rw [Node.parameters, hvalue]) (by simpa [hchildren] using hn) hname ⟨?_, by simp [hvalue]⟩
  rw [isReferenced, hvalue]

end Parts.Of

namespace Parts.Of

variable {dependencies : List String} {reader n : Node} {x : String} {as : List Node}
  (hp : p.Of tree exports dependencies) (hd : tree.Distinct)

include hp hd

/-- Nothing is declared in the scope of a reader. -/
theorem not_placed_reader (hreader : reader ∈ p.install.nodes) {q : Placement}
    (hq : q ∈ placementsOf tree) : (openersOf tree)[q.scope]? ≠ some reader.id := by
  have hinstall := hp.ancestors_body (n := p.install) (by simp)
  have hmem := Node.mem_nodes_trans hreader hinstall.mem_nodes
  intro hscope
  have hroot : reader ≠ tree := by
    rintro rfl
    -- the statement stands below the root, so the root does not stand below the statement
    have hle := Node.length_nodes_le hreader
    have hblock := Node.length_nodes_le (hinstall.above_mem_nodes p.block List.mem_cons_self)
    have hlt : p.install.nodes.length < p.block.nodes.length := by
      refine Node.length_nodes_lt ?_
      rw [hp.block]
      exact List.mem_cons_of_mem _ List.mem_cons_self
    omega
  obtain ⟨m, hm, hdeclares⟩ := exists_declarer_below hp.root hd hq hmem hscope hroot
  exact hdeclares (hp.declarations_install m (Node.mem_nodes_trans hm hreader))

/-- The scopes around an identifier in a reader are one in which nothing is declared, that of the
function and that of the program. -/
theorem chain_of_use (hn : p.Reads tree reader n x as) {u : Use} (hu : u ∈ usesIn tree)
    (hid : u.node = n.id) : u.name = x ∧ u.params = [] ∧
      ∃ s, u.chain = [s, 1, 0] ∧ ∀ q ∈ placementsOf tree, q.scope ≠ s := by
  have hx : n.name? = some x := by rw [Node.name?, hn.name]
  have hat := at_of_use hp.root hd hn.place hx hn.read hn.quiet hu hid
  have hchain := hat.chain
  have hparams := hat.params
  rw [hn.owners] at hchain
  rw [hn.params] at hparams
  obtain ⟨hprogram, hfunction⟩ := hp.openersOf_tree
  refine ⟨Option.some.inj (hat.name.symm.trans hx), List.forall₂_nil_right_iff.mp hparams, ?_⟩
  -- the function has the first scope that the walk opens, so only the reader's number is unknown
  obtain ⟨s, chain, hs, hchain, hu⟩ := List.forall₂_cons_right_iff.mp hchain
  obtain rfl : chain = [1, 0] := Owned.unique hd hchain (.cons hfunction (.cons hprogram .nil))
  exact ⟨s, hu, fun q hq heq => hp.not_placed_reader hd hn.inside hq (heq ▸ hs)⟩

/-- An identifier in a reader means what is declared for the function under its name, -/
theorem resolves (hn : p.Reads tree reader n x as) {u : Use} (hu : u ∈ usesIn tree)
    (hid : u.node = n.id) {q : Placement} (hq : q ∈ placementsOf tree) (hscope : q.scope = 1)
    (hname : q.name = x) : targetIn? (placementsOf tree) u = some 1 := by
  obtain ⟨rfl, hparams, s, hchain, hs⟩ := hp.chain_of_use hd hn hu hid
  have hreader : firstAt? (placementsOf tree) s u.name = none :=
    firstAt?_eq_none.mpr fun q hq heq => absurd heq (hs q hq)
  obtain ⟨d, hfirst⟩ := firstAt?_isSome_of_mem hq
  rw [hscope, hname] at hfirst
  rw [targetIn?, hchain, hparams, List.findSome?_cons, hreader, Option.bind_none,
    List.findSome?_cons, hfirst]
  rfl

/-- and nothing if the name is declared neither there nor for the program. -/
theorem unresolved (hn : p.Reads tree reader n x as) {u : Use} (hu : u ∈ usesIn tree)
    (hid : u.node = n.id)
    (hnone : ∀ q ∈ placementsOf tree, q.name = x → q.scope ≠ 0 ∧ q.scope ≠ 1) :
    targetIn? (placementsOf tree) u = none := by
  obtain ⟨rfl, -, s, hchain, hs⟩ := hp.chain_of_use hd hn hu hid
  rw [targetIn?, hchain, List.findSome?_eq_none_iff]
  intro s' hs'
  have hfirst : firstAt? (placementsOf tree) s' u.name = none := by
    refine firstAt?_eq_none.mpr fun q hq heq hname => ?_
    obtain ⟨hprogram, hfunction⟩ := hnone q hq hname
    simp only [List.mem_cons, List.not_mem_nil, or_false] at hs'
    rcases hs' with rfl | rfl | rfl
    · exact hs q hq heq
    · exact hfunction heq
    · exact hprogram heq
  rw [hfirst]
  rfl

end Parts.Of

end EsModule.Compile
