import EsModule.Proofs.Scope.Placement
import EsModule.Proofs.Tree.Fresh

/-!
# The scopes around a node

Scopes are numbered in the order in which the walk opens them, and a walk carries the numbers of the
scopes around a node. Both can be said of the tree alone: the scopes around a node are those of the
nodes above it that open one (`scopeOwners`), and some of these nodes are functions in whose
parameter lists the node stands (`parameterOwners`). `Located` says that the surroundings of a node
are these, and `steps_located` that the walk comes to every node with such surroundings.
-/

namespace EsModule.Syntax

/-- The parameters of a function. -/
def Node.parameters (n : Node) : List Node :=
  match n.kind with
  | .functionDeclaration f | .functionExpression f => f.params
  | .arrowFunction params _ _ _ => params
  | _ => []

end EsModule.Syntax

namespace EsModule.Scope

open EsModule.Syntax

/-- Those of the nodes above a node that open a scope, from the nearest outwards. -/
def scopeOwners : List Node → List Node
  | [] => []
  | a :: as => if opensScope a as.head? then a :: scopeOwners as else scopeOwners as

/-- Those of the nodes above a node that are functions in whose parameter lists it stands. -/
def parameterOwners (n : Node) : List Node → List Node
  | [] => []
  | a :: as =>
    if a.parameters.any (same · n) then a :: parameterOwners a as else parameterOwners a as

theorem scopeOwners_subset (as : List Node) : scopeOwners as ⊆ as := by
  induction as with
  | nil => exact List.Subset.refl _
  | cons a as ih =>
    unfold scopeOwners
    split
    · exact List.cons_subset_cons a ih
    · exact List.subset_cons_of_subset a ih

theorem parameterOwners_subset (n : Node) (as : List Node) : parameterOwners n as ⊆ as := by
  induction as generalizing n with
  | nil => exact List.Subset.refl _
  | cons a as ih =>
    unfold parameterOwners
    split
    · exact List.cons_subset_cons a (ih a)
    · exact List.subset_cons_of_subset a (ih a)

/-! ## Parameters in the order of the walk -/

theorem visited_of_not_function {α : Type} {kind : Kind α} (h : isFunction kind = false) :
    visited kind = kind.children.map (false, ·) := by
  cases kind <;> first | rfl | cases h

theorem parameters_of_not_function {n : Node} (h : isFunction n.kind = false) :
    n.parameters = [] := by
  unfold Node.parameters
  generalize n.kind = kind at h ⊢
  cases kind <;> first | rfl | cases h

theorem exists_visited {n c : Node} (h : c ∈ n.kind.children) :
    ∃ isParam, (isParam, c) ∈ visited n.kind := by
  cases hf : isFunction n.kind with
  | false =>
    rw [visited_of_not_function hf]
    exact ⟨false, List.mem_map_of_mem h⟩
  | true =>
    generalize n.kind = kind at h hf
    cases kind <;> first | cases hf; done | skip
    all_goals simp_all [visited, Kind.children, Function.children]
    all_goals grind

/-- In the walk a child of a function is taken for a parameter if it is one. -/
theorem eq_any_of_visited (names : List Node) {params : List Node} {body c : Node} {isParam : Bool}
    (hids : ((names ++ params ++ [body]).map Node.id).Nodup)
    (h : (isParam, c) ∈ names.map (false, ·) ++ params.map (true, ·) ++ [(false, body)]) :
    isParam = params.any (same · c) := by
  rw [List.map_append, List.map_append, List.nodup_append, List.nodup_append] at hids
  obtain ⟨⟨-, -, hname⟩, -, hbody⟩ := hids
  have hother : (∀ p ∈ params, p.id ≠ c.id) → params.any (same · c) = false := by
    intro hne
    rw [List.any_eq_false]
    exact fun p hp => by simpa [same] using hne p hp
  simp only [List.mem_append, List.mem_map, List.mem_singleton, Prod.mk.injEq] at h
  rcases h with (⟨a, ha, rfl, rfl⟩ | ⟨a, ha, rfl, rfl⟩) | ⟨rfl, rfl⟩
  · refine (hother fun p hp => ?_).symm
    exact Ne.symm (hname _ (List.mem_map_of_mem ha) _ (List.mem_map_of_mem hp))
  · exact (List.any_eq_true.mpr ⟨a, ha, beq_self_eq_true a.id⟩).symm
  · refine (hother fun p hp => ?_).symm
    exact hbody _ (List.mem_append_right _ (List.mem_map_of_mem hp)) _ (List.mem_singleton_self _)

theorem visited_eq {n c : Node} {isParam : Bool} (hd : n.Distinct)
    (h : (isParam, c) ∈ visited n.kind) : isParam = n.parameters.any (same · c) := by
  cases hf : isFunction n.kind with
  | false =>
    rw [visited_of_not_function hf] at h
    obtain ⟨_, -, heq⟩ := List.mem_map.mp h
    rw [parameters_of_not_function hf, ← (Prod.mk.inj heq).1]
    rfl
  | true =>
    have hids := hd.nodup_children
    unfold Node.parameters
    generalize n.kind = kind at h hids hf ⊢
    cases kind <;> first | cases hf; done | skip
    case functionDeclaration => exact eq_any_of_visited _ hids h
    case functionExpression => exact eq_any_of_visited _ hids h
    case arrowFunction => exact eq_any_of_visited [] hids h

/-! ## Numbers of scopes -/

/-- The nodes that open the scopes which some steps open. -/
def openers (es : List Step) : List Nat := (scopesOpened es).map (·.2.1)

theorem openers_append (es fs : List Step) : openers (es ++ fs) = openers es ++ openers fs := by
  rw [openers, scopesOpened_append, List.map_append]
  rfl

theorem length_openers (es : List Step) : (openers es).length = openings es := by
  rw [openers, List.length_map, ← length_kindsOpened, kindsOpened, List.length_map]

theorem openers_sublist (es : List Step) : (openers es).Sublist (es.map (·.node)) := by
  induction es with
  | nil => exact .slnil
  | cons e es ih =>
    have hsplit : openers (e :: es) = openers [e] ++ openers es := openers_append [e] es
    rw [hsplit, List.map_cons]
    cases h : e.scope with
    | none => simpa [openers, scopesOpened, h] using ih.cons e.node
    | some kind => simpa [openers, scopesOpened, h] using ih

/-- Whether numbers of scopes are those of nodes, by the nodes that open the scopes. -/
def Owned (openedBy : List Nat) : List Nat → List Node → Prop :=
  List.Forall₂ fun s a => openedBy[s]? = some a.id

/-- What stands around a node in the walk, by the nodes above it and the nodes that open scopes. -/
structure Located (openedBy : List Nat) (n : Node) (as : List Node) (here : Surroundings)
    (next : Nat) : Prop where
  /-- The node above it. -/
  parent : here.parent = as.head?
  /-- The node above that one. -/
  grandparent : here.grandparent = as.tail.head?
  /-- The scopes inside of it are those of the node and of the nodes above it. -/
  inside : Owned openedBy (here.inside n next) (scopeOwners (n :: as))
  /-- It stands in the parameter lists of functions above it. -/
  params : Owned openedBy here.params (parameterOwners n as)

theorem isFunction_of_parameters {n c : Node} (h : n.parameters.any (same · c) = true) :
    isFunction n.kind = true := by
  by_contra hf
  rw [parameters_of_not_function (by simpa using hf)] at h
  cases h

theorem opensScope_of_isFunction {n : Node} {parent : Option Node}
    (h : isFunction n.kind = true) : opensScope n parent = true := by
  unfold opensScope
  generalize n.kind = kind at h ⊢
  cases kind <;> first | rfl | cases h

/-- The surroundings of a child. -/
theorem Located.child {openedBy : List Nat} {n c : Node} {as : List Node} {here : Surroundings}
    {next next' : Nat} {isParam : Bool} (h : Located openedBy n as here next) (hd : n.Distinct)
    (hc : (isParam, c) ∈ visited n.kind)
    (hopen : opensScope c (some n) = true → openedBy[next']? = some c.id) :
    Located openedBy c (n :: as) (here.below n next isParam) next' := by
  refine ⟨rfl, h.parent, ?_, ?_⟩
  · have hopens : (here.below n next isParam).opens c = opensScope c (some n) := rfl
    unfold Surroundings.inside
    rw [hopens, scopeOwners, List.head?_cons]
    split
    · rename_i ho
      exact .cons (hopen ho) h.inside
    · exact h.inside
  · have hparam := visited_eq hd hc
    unfold parameterOwners
    rw [← hparam]
    cases isParam with
    | false => exact h.params
    | true =>
      -- the innermost scope inside a function is its own
      have hinside := h.inside
      rw [scopeOwners, if_pos (opensScope_of_isFunction (isFunction_of_parameters hparam.symm))]
        at hinside
      refine .cons ?_ h.params
      cases hchain : here.inside n next with
      | nil =>
        rw [hchain] at hinside
        cases hinside
      | cons s chain =>
        rw [hchain] at hinside
        cases hinside with
        | cons hs _ => exact hs

/-! ## The walk comes to every node -/

theorem exists_split {cs : List (Surroundings × Steps)} {c : Surroundings × Steps} (hc : c ∈ cs)
    (next : Nat) : ∃ es fs, stepsOfAll cs next = es ++ c.2 c.1 (next + openings es) ++ fs := by
  induction cs generalizing next with
  | nil => cases hc
  | cons d cs ih =>
    unfold stepsOfAll
    dsimp only
    rcases List.mem_cons.mp hc with rfl | hc
    · exact ⟨[], _, rfl⟩
    · obtain ⟨es, fs, h⟩ := ih hc (next + openings (d.2 d.1 next))
      refine ⟨d.2 d.1 next ++ es, fs, ?_⟩
      rw [h, openings_append, Nat.add_assoc]
      simp

theorem exists_split_of_mem {cs : List (Surroundings × Steps)} {next : Nat} {e : Step}
    (h : e ∈ stepsOfAll cs next) : ∃ c ∈ cs, ∃ es fs,
      stepsOfAll cs next = es ++ c.2 c.1 (next + openings es) ++ fs ∧
        e ∈ c.2 c.1 (next + openings es) := by
  induction cs generalizing next with
  | nil => cases h
  | cons d cs ih =>
    unfold stepsOfAll at h ⊢
    dsimp only at h ⊢
    rcases List.mem_append.mp h with h | h
    · exact ⟨d, List.mem_cons_self, [], _, rfl, h⟩
    · obtain ⟨c, hc, es, fs, hsplit, h⟩ := ih h
      refine ⟨c, List.mem_cons_of_mem _ hc, d.2 d.1 next ++ es, fs, ?_, ?_⟩
      · rw [hsplit, openings_append, Nat.add_assoc]
        simp
      · rwa [openings_append, ← Nat.add_assoc]

/-- What the steps below a node are made of: the steps of each child, in surroundings of its own. -/
theorem Located.of_split {openedBy pre post : List Nat} {n c : Node} {as : List Node}
    {here : Surroundings} {next : Nat} {isParam : Bool} {es fs : List Step}
    (h : Located openedBy n as here next) (hd : n.Distinct) (hc : (isParam, c) ∈ visited n.kind)
    (hpre : pre.length = next) (hopened : openedBy = pre ++ openers (n.steps here next) ++ post)
    (hsplit : stepsBelow here n next (visited n.kind) =
      es ++ c.steps (here.below n next isParam)
        (next + (if here.opens n then 1 else 0) + openings es) ++ fs) :
    ∃ pre' post' next', pre'.length = next' ∧
      next' = next + (if here.opens n then 1 else 0) + openings es ∧
      openedBy = pre' ++ openers (c.steps (here.below n next isParam) next') ++ post' ∧
      Located openedBy c (n :: as) (here.below n next isParam) next' := by
  obtain ⟨next', hnext⟩ : ∃ next', next' = next + (if here.opens n then 1 else 0) + openings es :=
    ⟨_, rfl⟩
  rw [← hnext] at hsplit
  have hpre' : (pre ++ openers (here.step n next :: es)).length = next' := by
    rw [List.length_append, length_openers, ← List.singleton_append, openings_append,
      openings_step, hpre, hnext, Nat.add_assoc]
  have hopened' : openedBy = pre ++ openers (here.step n next :: es) ++
      openers (c.steps (here.below n next isParam) next') ++ (openers fs ++ post) := by
    rw [hopened, steps_eq, hsplit, ← List.singleton_append, openers_append, openers_append,
      openers_append, ← List.singleton_append (l := es), openers_append]
    simp
  refine ⟨_, _, next', hpre', hnext, hopened', h.child hd hc fun ho => ?_⟩
  have hfirst : openers (c.steps (here.below n next isParam) next') = c.id ::
      openers (stepsBelow (here.below n next isParam) c next' (visited c.kind)) := by
    have hopens : (here.below n next isParam).opens c = true := ho
    rw [steps_eq, ← List.singleton_append, openers_append]
    simp [openers, scopesOpened, Surroundings.step, hopens]
  rw [hopened', hfirst, ← hpre', List.append_assoc, List.getElem?_append_right (Nat.le_refl _),
    Nat.sub_self]
  rfl

/-- The walk over a tree comes to the nodes of the tree, and to each of them. -/
theorem steps_located {openedBy pre post : List Nat} {n : Node} {as : List Node}
    {here : Surroundings} {next : Nat} (h : Located openedBy n as here next) (hd : n.Distinct)
    (hpre : pre.length = next) (hopened : openedBy = pre ++ openers (n.steps here next) ++ post) :
    (∀ e ∈ n.steps here next, ∃ m bs there next', n.Path as m bs ∧ e = there.step m next' ∧
      Located openedBy m bs there next') ∧
    ∀ m bs, n.Path as m bs → ∃ there next', there.step m next' ∈ n.steps here next ∧
      Located openedBy m bs there next' := by
  induction n using Node.induct generalizing as here next pre post with
  | h n ih =>
    constructor
    · intro e he
      rw [steps_eq, List.mem_cons] at he
      rcases he with rfl | he
      · exact ⟨n, as, here, next, .here, rfl, h⟩
      · obtain ⟨_, hc, es, fs, hsplit, he⟩ := exists_split_of_mem he
        obtain ⟨⟨isParam, c⟩, hvisited, rfl⟩ := List.mem_map.mp hc
        obtain ⟨_, _, next', hpre', hnext, hopened', hlocated⟩ :=
          h.of_split hd hvisited hpre hopened hsplit
        have hchild := mem_of_visited hvisited
        obtain ⟨m, bs, there, next2, hpath, he, hm⟩ :=
          (ih c hchild hlocated (hd.child hchild) hpre' hopened').1 e (hnext ▸ he)
        exact ⟨m, bs, there, next2, .of_child hchild hpath, he, hm⟩
    · intro m bs hpath
      rw [steps_eq]
      rcases hpath.eq_or_child with ⟨rfl, rfl⟩ | ⟨c, hchild, hpath⟩
      · exact ⟨here, next, List.mem_cons_self, h⟩
      · obtain ⟨isParam, hvisited⟩ := exists_visited hchild
        obtain ⟨es, fs, hsplit⟩ := exists_split (List.mem_map_of_mem (f := fun c : Bool × Node =>
          (here.below n next c.1, c.2.steps)) hvisited) (next + if here.opens n then 1 else 0)
        obtain ⟨_, _, next', hpre', hnext, hopened', hlocated⟩ :=
          h.of_split hd hvisited hpre hopened hsplit
        obtain ⟨there, next2, he, hm⟩ :=
          (ih c hchild hlocated (hd.child hchild) hpre' hopened').2 m bs hpath
        refine ⟨there, next2, List.mem_cons_of_mem _ ?_, hm⟩
        rw [stepsBelow, hsplit]
        exact List.mem_append_left _ (List.mem_append_right _ (hnext ▸ he))

/-! ## The walk over a module -/

/-- The nodes that open the scopes of a tree. -/
def openersOf (root : Node) : List Nat := root.id :: openers (moduleSteps root)

theorem openersOf_eq (root : Node) : openersOf root =
    [root.id] ++ openers (root.steps ⟨none, none, [0], []⟩ 1) ++ [] :=
  (List.append_nil _).symm

theorem map_node_stepsOfAll (cs : List (Surroundings × Node))
    (h : ∀ c ∈ cs, ∀ next, (c.2.steps c.1 next).map (·.node) = c.2.nodes.map Node.id) (next : Nat) :
    (stepsOfAll (cs.map fun c => (c.1, c.2.steps)) next).map (·.node) =
      (cs.flatMap fun c => c.2.nodes).map Node.id := by
  induction cs generalizing next with
  | nil => rfl
  | cons c cs ih =>
    rw [List.map_cons, stepsOfAll, List.map_append, List.flatMap_cons, List.map_append,
      h c List.mem_cons_self, ih fun d hd => h d (List.mem_cons_of_mem _ hd)]

theorem map_visited {α : Type} (kind : Kind α) : (visited kind).map (·.2) = kind.children := by
  cases kind <;> simp [visited, Kind.children, Function.children, Function.comp_def]

/-- The walk comes to every node once, and to a node before its children. -/
theorem map_node_steps (n : Node) (here : Surroundings) (next : Nat) :
    (n.steps here next).map (·.node) = n.nodes.map Node.id := by
  induction n using Node.induct generalizing here next with
  | h n ih =>
    have hbelow := map_node_stepsOfAll
      ((visited n.kind).map fun c => (here.below n next c.1, c.2)) (fun c hc next => by
        obtain ⟨c, hmem, rfl⟩ := List.mem_map.mp hc
        exact ih c.2 (mem_of_visited hmem) _ next) (next + if here.opens n then 1 else 0)
    rw [steps_eq, Node.nodes_eq, List.map_cons, List.map_cons, ← map_visited, List.flatMap_map]
    rw [List.map_map, List.flatMap_map] at hbelow
    exact congrArg _ hbelow

theorem nodup_openersOf {root : Node} (hd : root.Distinct) : (openersOf root).Nodup := by
  have hnodes := map_node_steps root ⟨none, none, [0], []⟩ 1
  have hsub : (openersOf root).Sublist (root.nodes.map Node.id) := by
    -- the walk does not open the scope of the root, which is there from the start
    have hroot : openersOf root = root.id ::
        openers (stepsBelow ⟨none, none, [0], []⟩ root 1 (visited root.kind)) := by
      rw [openersOf, moduleSteps, steps_eq]
      rfl
    rw [steps_eq, List.map_cons] at hnodes
    rw [← hnodes, hroot]
    exact (openers_sublist _).cons_cons root.id
  exact hd.sublist hsub

/-- The surroundings of the root. -/
theorem located_root {root : Node} {items : List Node} (hk : root.kind = .program items) :
    Located (openersOf root) root [] ⟨none, none, [0], []⟩ 1 := by
  refine ⟨rfl, rfl, ?_, .nil⟩
  have hopen : opensScope root none = true := by
    unfold opensScope
    rw [hk]
    rfl
  unfold scopeOwners
  rw [List.head?_nil, if_pos hopen]
  exact .cons rfl .nil

/-- The walk over a module comes to the nodes of its tree. -/
theorem exists_located_of_mem {root : Node} {items : List Node} (hk : root.kind = .program items)
    (hd : root.Distinct) {e : Step} (he : e ∈ moduleSteps root) :
    ∃ n as here next, root.Ancestors n as ∧ e = here.step n next ∧
      Located (openersOf root) n as here next :=
  (steps_located (located_root hk) hd rfl (openersOf_eq root)).1 e he

/-- The walk over a module comes to every node of its tree. -/
theorem exists_step {root : Node} {items : List Node} (hk : root.kind = .program items)
    (hd : root.Distinct) {n : Node} {as : List Node} (h : root.Ancestors n as) :
    ∃ here next, here.step n next ∈ moduleSteps root ∧
      Located (openersOf root) n as here next :=
  (steps_located (located_root hk) hd rfl (openersOf_eq root)).2 n as h

end EsModule.Scope
