import EsModule.Proofs.Compile.Items

/-!
# The walk over a compiled module

The walk over a compiled module first comes to what stands in front of the items. There it opens the
scope of the function, declares the capabilities and the handles, and uses new nodes only. Then it
comes to the items.
-/

namespace EsModule.Compile

open EsModule.Syntax EsModule.Scope

/-! ## Trees that declare names at their roots -/

theorem declares_stepsOfAll {α : Type} {as : List α} (g : α → Surroundings × Steps)
    (f : α → List Declaration) (h : ∀ a ∈ as, ∀ next,
      ((g a).2 (g a).1 next).flatMap (·.declares) = f a) (next : Nat) :
    (stepsOfAll (as.map g) next).flatMap (·.declares) = as.flatMap f := by
  induction as generalizing next with
  | nil => rfl
  | cons a as ih =>
    rw [List.map_cons, stepsOfAll, List.flatMap_append, List.flatMap_cons, h a List.mem_cons_self,
      ih fun b hb => h b (List.mem_cons_of_mem _ hb)]

/-- If nothing below a node declares a name, the walk over the node declares what the node does. -/
theorem declares_steps {n : Node}
    (h : ∀ c ∈ n.kind.children, ∀ m ∈ c.nodes, declarations m = []) (here : Surroundings)
    (next : Nat) : (n.steps here next).flatMap (·.declares) = declarations n := by
  rw [steps_eq, List.flatMap_cons]
  refine (congrArg (declarations n ++ ·) (List.flatMap_eq_nil_iff.mpr fun e he => ?_)).trans
    (List.append_nil _)
  obtain ⟨_, hc, next', he⟩ := mem_stepsOfAll he
  obtain ⟨⟨isParam, c⟩, hvisited, rfl⟩ := List.mem_map.mp hc
  obtain ⟨m, hm, there, next'', rfl, -⟩ := exists_of_mem_steps he
  exact h c (mem_of_visited hvisited) m hm

theorem IsLeaf.declarations {n : Node} (h : IsLeaf n) : declarations n = [] := by
  obtain ⟨_, hk⟩ | ⟨_, hk⟩ := h <;> rw [Scope.declarations, hk]

theorem ReadsExport.declarations {exported : String × Reading} {member : Node}
    (h : ReadsExport exported member) : ∀ n ∈ member.nodes, declarations n = [] := by
  refine h.forall_nodes (fun _ hn => hn.declarations)
    (fun _ _ _ hn => by rw [Scope.declarations, hn])
    (fun _ _ hn => by rw [Scope.declarations, hn]; rfl) fun n hn => ?_
  rw [Scope.declarations]
  generalize n.kind = kind at hn
  generalize exported.2 = reading at hn
  cases hn <;> rfl

/-- Whether a statement declares one constant, by a declarator. -/
def DeclaresConstant (x : String) (declarator n : Node) : Prop :=
  ∃ target value : Node, n.kind = .variableDeclaration .constKind [declarator] ∧
    declarator.kind = .variableDeclarator target (some value) ∧ target.kind = .identifier x

theorem DeclaresConstant.declarations {x : String} {declarator n : Node}
    (h : DeclaresConstant x declarator n) :
    declarations n = [⟨.block, .constBinding, x, declarator.id⟩] := by
  obtain ⟨target, value, hn, hd, ht⟩ := h
  have hname : target.name? = some x := by rw [Node.name?, ht]
  have hbound : declarator.boundIdentifiers = [target] := by
    refine (target_eq declarator).trans ?_
    rw [targetsOf, hd]
    exact (name?_of_targetsOf (by rw [hname]; rfl)).1
  rw [Scope.declarations, hn]
  simp [variableBinding, hbound, declareAll_eq, named, hname]

namespace ImportsAs

variable {source handle : String} {n : Node}

/-- A statement that imports a module declares the constant, -/
theorem exists_declarator (h : ImportsAs source handle n) :
    ∃ declarator, DeclaresConstant handle declarator n := by
  obtain ⟨declarator, target, call, _, _, hn, hd, ht, -⟩ := h
  exact ⟨declarator, target, call, hn, hd, ht⟩

theorem names (h : ImportsAs source handle n) : (declarations n).map (·.name) = [handle] := by
  obtain ⟨declarator, hconstant⟩ := h.exists_declarator
  rw [hconstant.declarations]
  rfl

/-- and what stands below it declares nothing. -/
theorem declarations_below (h : ImportsAs source handle n) :
    ∀ c ∈ n.kind.children, ∀ m ∈ c.nodes, declarations m = [] :=
  h.forall_below (fun _ hm => hm.declarations) (fun _ _ _ hm => by rw [declarations, hm])
    fun _ _ _ _ hm _ => by rw [declarations, hm]

end ImportsAs

/-! ## Trees that read some names and write nothing -/

/-- Whether a node writes nothing, and all names that are read below it are of some sort. -/
structure OnlyReads (P : String → Prop) (n : Node) : Prop where
  /-- It writes nothing. -/
  quiet : writes n = []
  /-- What is read below it is of the sort. -/
  read : ∀ c ∈ n.kind.children, ∀ g, isRead c n g = true → ∀ x, c.name? = some x → P x

/-- The walk over a tree of such nodes only uses names of the sort. -/
theorem name_of_use {P : String → Prop} {n : Node} (h : ∀ m ∈ n.nodes, OnlyReads P m)
    {here : Surroundings} {next : Nat}
    (hself : here.reads n = true → ∀ x, n.name? = some x → P x) :
    ∀ e ∈ n.steps here next, ∀ u ∈ e.uses, P u.name := by
  induction n using Node.induct generalizing here next with
  | h n ih =>
    intro e he u hu
    rw [steps_eq, List.mem_cons] at he
    rcases he with rfl | he
    · rcases mem_usesOf.mp hu with ⟨x, p, hx, hp, hread, rfl⟩ | ⟨i, hi, -⟩
      · refine hself ?_ x hx
        unfold Surroundings.reads
        rw [show here.parent = some p from hp]
        exact hread
      · rw [(h n n.mem_nodes_self).quiet] at hi
        cases hi
    · obtain ⟨_, hc, next', he⟩ := mem_stepsOfAll he
      obtain ⟨⟨isParam, c⟩, hvisited, rfl⟩ := List.mem_map.mp hc
      have hchild := mem_of_visited hvisited
      refine ih c hchild (fun m hm => h m (Node.mem_nodes_of_child hchild hm)) ?_ e he u hu
      exact fun hread => (h n n.mem_nodes_self).read c hchild here.parent hread

section

variable {P : String → Prop} {n : Node}

theorem IsLeaf.onlyReads (h : IsLeaf n) : OnlyReads P n := by
  refine ⟨?_, fun c hc => ?_⟩
  · obtain ⟨_, hk⟩ | ⟨_, hk⟩ := h <;> rw [writes, hk]
  · rw [h.children] at hc
    cases hc

/-- A node that writes nothing and has no names below it reads none. -/
theorem onlyReads_of_nameless (hquiet : writes n = [])
    (hnone : ∀ c ∈ n.kind.children, c.name? = none) : OnlyReads P n := by
  refine ⟨hquiet, fun c hc g hread x hx => ?_⟩
  rw [hnone c hc] at hx
  cases hx

theorem ReadBy.onlyReads {r : Reading} (h : ReadBy r n.kind) (hP : ∀ x ∈ r.names, P x) :
    ∀ m ∈ n.nodes, OnlyReads P m := by
  refine Node.forall_nodes ⟨?_, fun c hc g hread x hx => hP x (h.mem_names hc hread hx)⟩
    fun c hc => (h.isLeaf c hc).forall_nodes (h.isLeaf c hc).onlyReads
  unfold writes
  generalize n.kind = kind at h
  cases h <;> rfl

theorem ReadsExport.onlyReads {exported : String × Reading} {member : Node}
    (h : ReadsExport exported member) (hP : ∀ x ∈ exported.2.names, P x) :
    ∀ m ∈ member.nodes, OnlyReads P m := by
  obtain ⟨key, reader, value, hm, hkey, hreader, hvalue⟩ := h
  have hname : reader.name? = none := by rw [Node.name?, hreader]
  refine Node.forall_nodes ⟨by rw [writes, hm], fun c hc g hread x hx => ?_⟩ fun c hc => ?_
  · rw [hm] at hc
    change c ∈ [key, reader] at hc
    simp only [List.mem_cons, List.not_mem_nil, or_false] at hc
    rcases hc with rfl | rfl
    · -- a key that is not computed is not read
      rw [isRead_eq, isReferenced, hm] at hread
      simp [same] at hread
    · rw [hname] at hx
      cases hx
  · rw [hm] at hc
    change c ∈ [key, reader] at hc
    simp only [List.mem_cons, List.not_mem_nil, or_false] at hc
    rcases hc with rfl | rfl
    · exact hkey.isLeaf.forall_nodes hkey.isLeaf.onlyReads
    · refine Node.forall_nodes ⟨by rw [writes, hreader], fun c hc g hread x hx => ?_⟩ fun c hc => ?_
      · rw [hreader] at hc
        obtain rfl := List.mem_singleton.mp hc
        refine hP x ?_
        generalize hk : c.kind = kind at hvalue
        generalize exported.2 = r at hvalue
        rw [Node.name?, hk] at hx
        cases hvalue with
        | «variable» => exact Option.some.inj hx ▸ List.mem_singleton_self _
        | member | namespaceOf => cases hx
      · rw [hreader] at hc
        obtain rfl := List.mem_singleton.mp hc
        exact hvalue.onlyReads hP

theorem ImportsAs.onlyReads {source handle : String} (h : ImportsAs source handle n)
    (hhandle : P handle) (hcapability : P Capability.importModule.name) :
    ∀ m ∈ n.nodes, OnlyReads P m := by
  obtain ⟨declarator, target, call, callee, argument, hn, hd, ht, hk, hc, ha⟩ := h
  have hnodes : n.nodes = [n, declarator, target, call, callee, argument] := by
    have htarget : IsLeaf target := .inl ⟨_, ht⟩
    have hcallee : IsLeaf callee := .inl ⟨_, hc⟩
    have hargument : IsLeaf argument := .inr ⟨_, ha⟩
    rw [Node.nodes_eq n, hn]
    simp [Kind.children, Node.nodes_eq declarator, hd, Node.nodes_eq call, hk, htarget.nodes,
      hcallee.nodes, hargument.nodes]
  intro m hm
  rw [hnodes] at hm
  simp only [List.mem_cons, List.not_mem_nil, or_false] at hm
  rcases hm with rfl | rfl | rfl | rfl | rfl | rfl
  · exact onlyReads_of_nameless (by rw [writes, hn]) (by simp [hn, Kind.children, Node.name?, hd])
  · refine ⟨by rw [writes, hd], fun c hc _ _ x hx => ?_⟩
    rw [hd] at hc
    rcases List.mem_pair.mp hc with rfl | rfl
    · rw [Node.name?, ht] at hx
      exact Option.some.inj hx ▸ hhandle
    · rw [Node.name?, hk] at hx
      cases hx
  · exact IsLeaf.onlyReads (.inl ⟨_, ht⟩)
  · refine ⟨by rw [writes, hk], fun c hc' _ _ x hx => ?_⟩
    rw [hk] at hc'
    rcases List.mem_pair.mp hc' with rfl | rfl
    · rw [Node.name?, hc] at hx
      exact Option.some.inj hx ▸ hcapability
    · rw [Node.name?, ha] at hx
      cases hx
  · exact IsLeaf.onlyReads (.inl ⟨_, hc⟩)
  · exact IsLeaf.onlyReads (.inr ⟨_, ha⟩)

end

/-! ## In front of the items -/

/-- Whether a name is a capability or the handle of one of some dependencies. -/
def IsSupplied (specifiers : List String) (x : String) : Prop :=
  (∃ c : Capability, x = c.name) ∨ ∃ k < specifiers.length, x = handleName k

theorem isSupplied_handleOf {specifiers : List String} {source : String} (h : source ∈ specifiers) :
    IsSupplied specifiers (handleOf specifiers source) :=
  .inr ⟨_, List.idxOf_lt_length_iff.mpr h, rfl⟩

namespace Parts

variable (p : Parts)

/-- What stands around the statements of the function. -/
def inBody : Surroundings := ⟨some p.block, some p.function, [1, 0], []⟩

/-- The steps of the statements in front of the items. -/
def heads : List Step :=
  stepsOfAll ((p.directive :: p.install :: p.imports).map fun c => (p.inBody, c.steps)) 2

/-- The steps of the parameters. -/
def paramSteps : List Step :=
  stepsOfAll (p.params.map fun c => (⟨some p.function, some p.statement, [1, 0], [1]⟩, c.steps)) 2

/-- The steps in front of those of the items. -/
def front (tree : Node) : List Step :=
  Surroundings.step ⟨none, none, [0], []⟩ tree 1 ::
    Surroundings.step ⟨some tree, none, [0], []⟩ p.statement 1 ::
    Surroundings.step ⟨some p.statement, some tree, [0], []⟩ p.function 1 ::
    (p.paramSteps ++
      Surroundings.step ⟨some p.function, some p.statement, [1, 0], []⟩ p.block 2 :: p.heads)

end Parts

namespace Parts.Of

variable {p : Parts} {tree : Node} {exports : List (String × Reading)} {dependencies : List String}

theorem isLeaf_params (hp : p.Of tree exports dependencies) : ∀ c ∈ p.params,
    c.name?.isSome = true ∧ c.kind.children = [] := by
  intro c hc
  obtain ⟨k, -, hk⟩ := exists_match hp.params.flip hc
  rw [Node.name?, hk]
  exact ⟨rfl, rfl⟩

/-- The parameters only stand in the walk. -/
theorem step_of_params (hp : p.Of tree exports dependencies) : ∀ e ∈ p.paramSteps,
    e.scope = none ∧ e.declares = [] := by
  intro e he
  obtain ⟨_, hc, next', he⟩ := mem_stepsOfAll he
  obtain ⟨c, hmem, rfl⟩ := List.mem_map.mp hc
  obtain ⟨hname, hchildren⟩ := hp.isLeaf_params c hmem
  change e ∈ c.steps _ next' at he
  rw [steps_of_leaf hchildren, step_of_name hname, List.mem_singleton] at he
  rw [he]
  exact ⟨rfl, rfl⟩

theorem opens_statement (hp : p.Of tree exports dependencies) :
    Surroundings.opens ⟨some tree, none, [0], []⟩ p.statement = false := by
  unfold Surroundings.opens opensScope
  rw [hp.statement]
  rfl

theorem opens_function (hp : p.Of tree exports dependencies) :
    Surroundings.opens ⟨some p.statement, some tree, [0], []⟩ p.function = true := by
  unfold Surroundings.opens opensScope
  rw [hp.function]
  rfl

theorem opens_block (hp : p.Of tree exports dependencies) :
    Surroundings.opens ⟨some p.function, some p.statement, [1, 0], []⟩ p.block = false := by
  unfold Surroundings.opens opensScope
  simp [hp.block, hp.function, isFunction]

/-- In front of the items the scope of the function is opened first. -/
theorem scopesOpened_front (hp : p.Of tree exports dependencies) :
    scopesOpened (p.front tree) = (.function, p.function.id, [0]) :: scopesOpened p.heads := by
  have hparams : scopesOpened p.paramSteps = [] := by
    refine List.filterMap_eq_nil_iff.mpr fun e he => ?_
    rw [(hp.step_of_params e he).1]
    rfl
  have hscope : ∀ {here n next}, Surroundings.opens here n = false → ∀ es,
      scopesOpened (here.step n next :: es) = scopesOpened es := by
    intro here n next h es
    simp [scopesOpened, Surroundings.step, h]
  have hfunction : ∀ es, scopesOpened
      (Surroundings.step ⟨some p.statement, some tree, [0], []⟩ p.function 1 :: es) =
        (.function, p.function.id, [0]) :: scopesOpened es := by
    intro es
    simp [scopesOpened, Surroundings.step, hp.opens_function, hp.function, scopeKind]
  rw [front, hscope rfl, hscope hp.opens_statement, hfunction, scopesOpened_append, hparams,
    hscope hp.opens_block, List.nil_append]

/-- The walk over a compiled module comes to the items after what stands in front of them. -/
theorem moduleSteps_eq (hp : p.Of tree exports dependencies) : moduleSteps tree =
    p.front tree ++ stepsOfAll (p.items.map fun c => (p.inBody, c.steps))
      (1 + openings (p.front tree)) := by
  have hopenings : openings p.paramSteps = 0 := List.countP_eq_zero.mpr fun e he => by
    rw [(hp.step_of_params e he).1]
    exact Bool.false_ne_true
  have hblock : p.block.steps ⟨some p.function, some p.statement, [1, 0], []⟩ 2 =
      Surroundings.step ⟨some p.function, some p.statement, [1, 0], []⟩ p.block 2 ::
        stepsOfAll ((p.directive :: p.install :: p.imports ++ p.items).map fun c =>
          (p.inBody, c.steps)) 2 := by
    rw [steps_of_not_opens hp.opens_block (by rw [hp.block]; rfl),
      below_of_not_opens hp.opens_block]
    rfl
  have hfunction : p.function.steps ⟨some p.statement, some tree, [0], []⟩ 1 =
      Surroundings.step ⟨some p.statement, some tree, [0], []⟩ p.function 1 :: (p.paramSteps ++
        p.block.steps ⟨some p.function, some p.statement, [1, 0], []⟩ 2) := by
    have hbelow : ∀ isParam, Surroundings.below ⟨some p.statement, some tree, [0], []⟩ p.function 1
        isParam = ⟨some p.function, some p.statement, [1, 0], if isParam then [1] else []⟩ := by
      intro isParam
      simp [Surroundings.below, Surroundings.inside, hp.opens_function]
    have hvisited : visited p.function.kind = p.params.map (true, ·) ++ [(false, p.block)] := by
      rw [hp.function]
      rfl
    rw [steps_eq, stepsBelow, hvisited, hp.opens_function, List.map_append, stepsOfAll_append,
      List.map_map]
    simp only [Function.comp_def, hbelow, if_true]
    rw [paramSteps] at hopenings ⊢
    rw [hopenings]
    exact congrArg _ (congrArg _ (List.append_nil _))
  have hstatement : p.statement.steps ⟨some tree, none, [0], []⟩ 1 =
      Surroundings.step ⟨some tree, none, [0], []⟩ p.statement 1 ::
        p.function.steps ⟨some p.statement, some tree, [0], []⟩ 1 := by
    rw [steps_of_not_opens hp.opens_statement (by rw [hp.statement]; rfl),
      below_of_not_opens hp.opens_statement]
    exact congrArg _ (stepsOfAll_singleton ..)
  have htree : moduleSteps tree = Surroundings.step ⟨none, none, [0], []⟩ tree 1 ::
      p.statement.steps ⟨some tree, none, [0], []⟩ 1 := by
    rw [moduleSteps, steps_of_not_opens rfl (by rw [hp.root]; rfl), below_of_not_opens rfl]
    exact congrArg _ (stepsOfAll_singleton ..)
  -- besides those below the statements, the function's scope is the only one that is opened
  have hfront : 1 + openings (p.front tree) = 2 + openings p.heads := by
    have hlength := congrArg List.length hp.scopesOpened_front
    rw [List.length_cons] at hlength
    rw [← length_kindsOpened, ← length_kindsOpened, kindsOpened, kindsOpened, List.length_map,
      List.length_map]
    omega
  rw [htree, hstatement, hfunction, hblock, List.map_append, stepsOfAll_append, hfront, front,
    heads]
  simp

/-- What uses a name in front of the items stands below a parameter or a statement there. -/
theorem exists_of_use_front (hp : p.Of tree exports dependencies) {e : Step}
    (he : e ∈ p.front tree) {u : Use} (hu : u ∈ e.uses) :
    ∃ c ∈ p.params ++ p.directive :: p.install :: p.imports, ∃ here next,
      Surroundings.reads here c = false ∧ e ∈ c.steps here next := by
  have hnothing : ∀ {n : Node} {here : Surroundings} {next : Nat}, n.name? = none →
      writes n = [] → u ∉ (here.step n next).uses := by
    intro n here next hname hwrites hu
    rw [Surroundings.step, usesOf_eq_nil hname hwrites] at hu
    cases hu
  have hstatements : ∀ c ∈ p.directive :: p.install :: p.imports, c.name? = none := by
    intro c hc
    simp only [List.mem_cons] at hc
    rcases hc with rfl | rfl | hc
    · rw [Node.name?, hp.directive]
    · rw [Node.name?, hp.install]
    · obtain ⟨_, -, _, _, _, _, _, hk, -⟩ := exists_match hp.imports.flip hc
      rw [Node.name?, hk]
  simp only [front, List.mem_cons, List.mem_append] at he
  rcases he with rfl | rfl | rfl | he | rfl | he
  · exact absurd hu (hnothing (by rw [Node.name?, hp.root]) (by rw [writes, hp.root]))
  · exact absurd hu (hnothing (by rw [Node.name?, hp.statement]) (by rw [writes, hp.statement]))
  · exact absurd hu (hnothing (by rw [Node.name?, hp.function]) (by rw [writes, hp.function]))
  · obtain ⟨_, hc, next, he⟩ := mem_stepsOfAll he
    obtain ⟨c, hmem, rfl⟩ := List.mem_map.mp hc
    refine ⟨c, List.mem_append_left _ hmem, _, next, ?_, he⟩
    -- a parameter stands in the list of a function, and is not read there
    simp [Surroundings.reads, isRead_eq, isReferenced, hp.function]
  · exact absurd hu (hnothing (by rw [Node.name?, hp.block]) (by rw [writes, hp.block]))
  · obtain ⟨_, hc, next, he⟩ := mem_stepsOfAll he
    obtain ⟨c, hmem, rfl⟩ := List.mem_map.mp hc
    refine ⟨c, List.mem_append_right _ hmem, _, next, ?_, he⟩
    simp [Surroundings.reads, isRead_eq, inBody, hstatements c hmem]

/-- What is used in front of the items are new nodes. -/
theorem uses_front (hp : p.Of tree exports dependencies) :
    ∀ e ∈ p.front tree, ∀ u ∈ e.uses, u.node ∈ p.around := by
  intro e he u hu
  obtain ⟨c, hc, _, _, -, he⟩ := hp.exists_of_use_front he hu
  -- the nodes in front are new, down to the leaves
  obtain ⟨i, hi, hid, -⟩ := exists_node_of_use he hu
  exact List.mem_append_right _ (mem_idsOf.mpr ⟨c, hc, i, hi, hid⟩)

/-- Their names are capabilities, handles, and what the readers of the exports read. -/
theorem names_used_front (hp : p.Of tree exports dependencies) :
    ∀ e ∈ p.front tree, ∀ u ∈ e.uses, IsSupplied dependencies u.name ∨
      ∃ exported ∈ exports, u.name ∈ exported.2.names := by
  intro e he u hu
  obtain ⟨c, hc, here, next, hread, he⟩ := hp.exists_of_use_front he hu
  refine name_of_use (P := fun x => IsSupplied dependencies x ∨
    ∃ exported ∈ exports, x ∈ exported.2.names) ?_ (by simp [hread]) e he u hu
  simp only [List.mem_append, List.mem_cons] at hc
  rcases hc with hc | rfl | rfl | hc
  · obtain ⟨k, -, hk⟩ := exists_match hp.params.flip hc
    have hleaf : IsLeaf c := .inl ⟨_, hk⟩
    exact hleaf.forall_nodes hleaf.onlyReads
  · refine hp.forall_directive (fun _ hn => hn.onlyReads) (onlyReads_of_nameless ?_ ?_)
    · rw [writes, hp.directive]
    · simp [hp.directive, Kind.children, Node.name?, hp.strict]
  · refine hp.forall_install (fun _ hn => hn.onlyReads) (onlyReads_of_nameless ?_ ?_)
      ⟨?_, fun c hc _ _ x hx => ?_⟩ (onlyReads_of_nameless ?_ fun c hc => ?_)
      fun exported hexported member hm => hm.onlyReads fun x hx => .inr ⟨exported, hexported, hx⟩
    · rw [writes, hp.install]
    · simp [hp.install, Kind.children, Node.name?, hp.installCall]
    · rw [writes, hp.installCall]
    · rw [hp.installCall] at hc
      rcases List.mem_pair.mp hc with rfl | rfl
      · rw [Node.name?, hp.installer] at hx
        exact .inl (.inl ⟨.exportTable, (Option.some.inj hx).symm⟩)
      · rw [Node.name?, hp.table] at hx
        cases hx
    · rw [writes, hp.table]
    · rw [hp.table] at hc
      obtain ⟨_, -, _, _, _, hk, -⟩ := exists_match hp.members.flip hc
      rw [Node.name?, hk]
  · obtain ⟨d, hd, himport⟩ := exists_match hp.imports.flip hc
    refine ImportsAs.onlyReads himport (.inl (.inr ⟨d.2, ?_, rfl⟩)) (.inl (.inl ⟨.importModule, rfl⟩))
    exact List.snd_lt_of_mem_zipIdx hd

/-- The directive and the statement that installs the readers declare nothing. -/
theorem declarations_directive (hp : p.Of tree exports dependencies) :
    ∀ n ∈ p.directive.nodes, declarations n = [] :=
  hp.forall_directive (fun _ hn => hn.declarations) (by rw [declarations, hp.directive])

theorem declarations_install (hp : p.Of tree exports dependencies) :
    ∀ n ∈ p.install.nodes, declarations n = [] :=
  hp.forall_install (fun _ hn => hn.declarations) (by rw [declarations, hp.install])
    (by rw [declarations, hp.installCall]) (by rw [declarations, hp.table])
    fun _ _ _ hread => hread.declarations

theorem names_params (hp : p.Of tree exports dependencies) :
    (declarations p.function).map (·.name) = Capability.all.map (·.name) := by
  have hparams := hp.params
  have hdeclarations : declarations p.function = paramNames p.params := by
    rw [declarations, hp.function]
    exact List.append_nil _
  rw [hdeclarations]
  generalize Capability.all = cs at hparams
  generalize p.params = params at hparams
  induction hparams with
  | nil => rfl
  | @cons c n cs params hn _ ih =>
    have hname : n.name? = some c.name := by rw [Node.name?, hn]
    have hbound : n.boundIdentifiers = [n] := boundIdentifiers_of_name? (by rw [hname]; rfl)
    rw [paramNames_eq] at ih ⊢
    simp [hbound, hname, named] at ih ⊢
    exact ih

/-- The statements in front of the items declare the handles. -/
theorem names_heads (hp : p.Of tree exports dependencies) :
    (p.heads.flatMap (·.declares)).map (·.name) = dependencies.zipIdx.map (handleName ·.2) := by
  have hdirective := hp.declarations_directive
  have hinstall := hp.declarations_install
  have hbelow : ∀ c ∈ p.directive :: p.install :: p.imports, ∀ d ∈ c.kind.children, ∀ m ∈ d.nodes,
      declarations m = [] := by
    intro c hc d hd m hm
    simp only [List.mem_cons] at hc
    rcases hc with rfl | rfl | hc
    · exact hdirective m (Node.mem_nodes_of_child hd hm)
    · exact hinstall m (Node.mem_nodes_of_child hd hm)
    · obtain ⟨_, -, himport⟩ := exists_match hp.imports.flip hc
      exact ImportsAs.declarations_below himport d hd m hm
  have himports := hp.imports
  rw [Parts.heads, declares_stepsOfAll _ declarations fun c hc next =>
    declares_steps (hbelow c hc) p.inBody next, List.flatMap_cons, List.flatMap_cons,
    hdirective _ p.directive.mem_nodes_self, hinstall _ p.install.mem_nodes_self, List.nil_append,
    List.nil_append]
  generalize dependencies.zipIdx = handles at himports
  generalize p.imports = imports at himports
  induction himports with
  | nil => rfl
  | cons hn _ ih =>
    rw [List.flatMap_cons, List.map_append, ImportsAs.names hn, ih]
    rfl

/-- What is declared in front of the items are the capabilities and the handles. -/
theorem names_front (hp : p.Of tree exports dependencies) :
    ((p.front tree).flatMap (·.declares)).map (·.name) =
      Capability.all.map (·.name) ++ dependencies.zipIdx.map (handleName ·.2) := by
  have hparams : p.paramSteps.flatMap (·.declares) = [] :=
    List.flatMap_eq_nil_iff.mpr fun e he => (hp.step_of_params e he).2
  have htree : declarations tree = [] := by rw [declarations, hp.root]
  have hstatement : declarations p.statement = [] := by rw [declarations, hp.statement]
  have hblock : declarations p.block = [] := by rw [declarations, hp.block]
  simp only [front, List.flatMap_cons, List.flatMap_append, hparams, Surroundings.step, htree,
    hstatement, hblock, List.nil_append, List.map_append, hp.names_params, hp.names_heads]

end Parts.Of

end EsModule.Compile
