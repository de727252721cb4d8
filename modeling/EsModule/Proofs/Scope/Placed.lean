import EsModule.Proofs.Scope.Forms
import EsModule.Proofs.Scope.Visible

/-!
# Names are bound where their declarations put them

Collecting opens one scope for each node that introduces one, behind the scopes around it. A scope
binds the names that are declared for the node that opened it and no others, and of several
declarations of a name the first one on the way through the tree makes the binding:
`declarations_placed`. Collecting fails just if a later declaration of a name clashes with that
first one: `redeclared_iff`.
-/

namespace EsModule.Scope

open EsModule.Syntax

variable {root n a : Node} {items as : List Node} {t : ScopeTree}

/-- Whether a scope is the one that a node opened. -/
def ScopeTree.IsScopeOf (t : ScopeTree) (s : Nat) (n : Node) : Prop :=
  ∃ sc, t.scopes[s]? = some sc ∧ sc.node = n.id

/-- The declarations of a tree in the order in which they are made: those of a node come before
those of the nodes below it. -/
def registrations (root : Node) : List (Node × Declaration) :=
  root.nodes.flatMap fun n => (declarations n).map (n, ·)

/-- Whether a declaration of a node puts a name into a scope. -/
def ScopeTree.Receives (t : ScopeTree) (root : Node) (s : Nat) (x : String)
    (e : Node × Declaration) : Prop :=
  e.2.name = x ∧ ∃ owner, Declares root e.1 owner e.2.kind x e.2.node ∧ t.IsScopeOf s owner

/-! ## Scopes and the nodes that open them -/

theorem Shaped.isScopeOf_iff (h : Shaped root t) {s : Nat} :
    t.IsScopeOf s n ↔ (openersOf root)[s]? = some n.id := by
  rw [h.getElem?_openersOf, Option.map_eq_some_iff]
  rfl

/-- The scopes around a node are those of the nodes above it, one after the other. -/
theorem scopeOwners_eq_cons {rest : List Node} (hn : root.Ancestors n as)
    (h : scopeOwners as = a :: rest) :
    ∃ bs, root.Ancestors a bs ∧ opensScope a bs.head? = true ∧ rest = scopeOwners bs := by
  induction as generalizing n with
  | nil => cases h
  | cons p as ih =>
    obtain ⟨_, _, heq, hp, -⟩ := hn.parent.resolve_left nofun
    obtain ⟨rfl, rfl⟩ := List.cons.inj heq
    rw [scopeOwners] at h
    split at h
    · rename_i hopens
      obtain ⟨rfl, rfl⟩ := List.cons.inj h
      exact ⟨as, hp, hopens, rfl⟩
    · exact ih hp h

theorem Owned.exists_owner {openedBy chain : List Nat} {owners : List Node} {s : Nat}
    (h : Owned openedBy chain owners) (hs : s ∈ chain) :
    ∃ a ∈ owners, openedBy[s]? = some a.id := by
  induction h with
  | nil => cases hs
  | cons hhead _ ih =>
    rcases List.mem_cons.mp hs with rfl | hs
    · exact ⟨_, List.mem_cons_self, hhead⟩
    · obtain ⟨a, ha, hopener⟩ := ih hs
      exact ⟨a, List.mem_cons_of_mem _ ha, hopener⟩

/-- Each scope that is opened belongs to a step, and the scopes around it were opened before. -/
theorem exists_step_of_scopesOpened {es : List Step} {next j : Nat}
    {shape : ScopeKind × Nat × List Nat} (hes : Numbered es next)
    (hj : (scopesOpened es)[j]? = some shape) :
    ∃ e ∈ es, e.scope.map (·, e.node, e.outer) = some shape ∧ ∀ s ∈ e.chain, s ≤ next + j := by
  induction es generalizing next j with
  | nil => cases hj
  | cons e es ih =>
    obtain ⟨he, hes⟩ := hes
    rw [← List.singleton_append, scopesOpened_append] at hj
    cases hscope : e.scope with
    | none =>
      have hopen : scopesOpened [e] = [] ∧ openings [e] = 0 := by
        simp [scopesOpened, openings, hscope]
      rw [hopen.1, List.nil_append] at hj
      rw [hopen.2] at hes
      obtain ⟨e', he', hshape⟩ := ih hes hj
      exact ⟨e', List.mem_cons_of_mem _ he', hshape⟩
    | some kind =>
      have hopen : scopesOpened [e] = [(kind, e.node, e.outer)] ∧ openings [e] = 1 := by
        simp [scopesOpened, openings, hscope]
      rw [hopen.1, List.singleton_append] at hj
      rw [hopen.2] at hes he
      cases j with
      | zero =>
        obtain rfl := Option.some.inj hj
        exact ⟨e, List.mem_cons_self, by rw [hscope]; rfl, fun s hs => Nat.le_of_lt_succ (he s hs)⟩
      | succ j =>
        obtain ⟨e', he', hshape, hchain⟩ := ih hes hj
        exact ⟨e', List.mem_cons_of_mem _ he', hshape, fun s hs => by have := hchain s hs; omega⟩

/-- What is known of a scope, by the node that opened it and the nodes above. -/
structure ScopeTree.Opened (root : Node) (s : Nat) (sc : Scope) (n : Node) (as : List Node) :
    Prop where
  /-- The nodes above are these. -/
  above : root.Ancestors n as
  /-- The node introduces a scope where it stands. -/
  opens : opensScope n as.head? = true
  /-- It is the node of the scope. -/
  node : sc.node = n.id
  /-- The kind of the scope is that for the node. -/
  kind : sc.kind = scopeKind n.kind
  /-- The scopes around it are those of the nodes above. -/
  enclosing : Owned (openersOf root) sc.enclosing (scopeOwners as)
  /-- They come before it. -/
  before : ∀ p ∈ sc.enclosing, p < s

theorem Shaped.exists_opened (h : Shaped root t) (ht : ModuleTree root items) {s : Nat}
    {sc : Scope} (hs : t.scopes[s]? = some sc) : ∃ n as, ScopeTree.Opened root s sc n as := by
  have hshape := t.getElem?_shapes s
  rw [h.shapes, hs] at hshape
  cases s with
  | zero =>
    obtain ⟨hkind, hnode⟩ := Prod.mk.inj (Option.some.inj hshape)
    obtain ⟨hnode, henclosing⟩ := Prod.mk.inj hnode
    refine ⟨root, [], .here, opensScope_of_kind ht.kind rfl, hnode.symm, ?_, ?_, ?_⟩
    · rw [← hkind, ht.kind]
      rfl
    · exact henclosing ▸ .nil
    · exact henclosing ▸ nofun
  | succ s =>
    have hopener : (openersOf root)[s + 1]? = some sc.node := by
      rw [h.getElem?_openersOf, hs]
      rfl
    obtain ⟨e, he, hscope, hchain⟩ :=
      exists_step_of_scopesOpened (numbered_moduleSteps root) hshape
    obtain ⟨n, as, here, next, hn, rfl, hl⟩ := exists_located_of_mem ht.kind ht.distinct he
    obtain ⟨kind, hkind, hparts⟩ := Option.map_eq_some_iff.mp hscope
    obtain ⟨rfl, hpair⟩ := Prod.mk.inj hparts
    obtain ⟨hnode, henclosing⟩ := Prod.mk.inj hpair
    change n.id = sc.node at hnode
    change here.chain = sc.enclosing at henclosing
    change (if here.opens n then some (scopeKind n.kind) else none) = some sc.kind at hkind
    change ∀ s' ∈ here.inside n next, s' ≤ 1 + s at hchain
    have hopens : here.opens n = true := by
      by_contra hopens
      rw [if_neg hopens] at hkind
      cases hkind
    have hopen : opensScope n as.head? = true := by
      rw [← hl.parent]
      exact (Bool.and_eq_true_iff.mp hopens).2
    have hinside := hl.inside
    rw [scopeOwners_of_opens hopen] at hinside
    rw [if_pos hopens] at hkind
    rw [Surroundings.inside, if_pos hopens] at hinside hchain
    cases hinside with
    | cons hnext hinside =>
      rw [henclosing] at hinside hchain
      refine ⟨n, as, hn, hopen, hnode.symm, (Option.some.inj hkind).symm, hinside, fun p hp => ?_⟩
      have hle := hchain p (List.mem_cons_of_mem _ hp)
      -- a node does not stand above itself, so no scope is among those around it
      have hne : p ≠ s + 1 := by
        rintro rfl
        obtain ⟨a, ha, hsame⟩ := Owned.exists_owner hinside hp
        have ha := scopeOwners_subset as ha
        rw [hopener, ← hnode, Option.some.injEq] at hsame
        obtain rfl := ht.distinct.eq_of_id hn.mem_nodes (hn.above_mem_nodes a ha) hsame
        exact hn.not_above ha
      omega

/-- A node that introduces a scope opened one. -/
theorem Shaped.exists_scope (h : Shaped root t) (ht : ModuleTree root items)
    (hn : root.Ancestors n as) (hopens : opensScope n as.head? = true) :
    ∃ s, t.IsScopeOf s n := by
  obtain ⟨here, next, -, hl⟩ := exists_step ht.kind ht.distinct hn
  have hinside := hl.inside
  rw [scopeOwners_of_opens hopens] at hinside
  generalize here.inside n next = chain at hinside
  cases hinside with
  | cons hs _ => exact ⟨_, h.isScopeOf_iff.mpr hs⟩

/-- The numbers of the scopes of some nodes are determined by the nodes. -/
theorem Owned.unique (hd : root.Distinct) {chain chain' : List Nat} {owners : List Node}
    (h : Owned (openersOf root) chain owners) (h' : Owned (openersOf root) chain' owners) :
    chain = chain' := by
  induction h generalizing chain' with
  | nil =>
    cases h'
    rfl
  | cons hs _ ih =>
    cases h' with
    | cons hs' h' => rw [scope_unique hd hs hs', ih h']

/-- The scopes around a scope are the one right around it and those around that one. -/
theorem Shaped.enclosing_eq (h : Shaped root t) (ht : ModuleTree root items) {s p : Nat}
    {sc : Scope} (hs : t.scopes[s]? = some sc) (hp : sc.enclosing.head? = some p) :
    sc.enclosing = t.chain p := by
  obtain ⟨n, as, hopened⟩ := h.exists_opened ht hs
  obtain ⟨chain, hchain⟩ := List.head?_eq_some_iff.mp hp
  have henclosing := hopened.enclosing
  rw [hchain] at henclosing ⊢
  cases howners : scopeOwners as with
  | nil =>
    rw [howners] at henclosing
    cases henclosing
  | cons a rest =>
    rw [howners] at henclosing
    cases henclosing with
    | cons ha hrest =>
      obtain ⟨bs, habove, -, rfl⟩ := scopeOwners_eq_cons hopened.above howners
      obtain ⟨sc', hsc', hnode⟩ := h.isScopeOf_iff.mpr ha
      obtain ⟨a', bs', hopened'⟩ := h.exists_opened ht hsc'
      obtain rfl := ht.distinct.eq_of_id habove.mem_nodes hopened'.above.mem_nodes
        (hnode.symm.trans hopened'.node)
      obtain rfl := habove.unique ht.distinct hopened'.above
      rw [ScopeTree.chain, hsc', Owned.unique ht.distinct hrest hopened'.enclosing]
      rfl

/-! ## The scope that a place means -/

theorem isFunctionParent_scopeKind (kind : Kind Node) :
    (scopeKind kind).isFunctionParent = isFunctionParent kind := by
  cases kind <;> rfl

theorem isBlockParent_scopeKind (kind : Kind Node) :
    (scopeKind kind).isBlockParent = !isClass kind := by
  cases kind <;> rfl

theorem Shaped.getElem?_kindsOf (h : Shaped root t) (ht : ModuleTree root items) {s : Nat}
    (ha : a ∈ root.nodes) (hs : (openersOf root)[s]? = some a.id) :
    (kindsOf root)[s]? = some (scopeKind a.kind) := by
  have hkinds : kindsOf root = t.kinds := by
    rw [ScopeTree.kinds, h.shapes]
    rfl
  obtain ⟨sc, hsc, hnode⟩ := h.isScopeOf_iff.mpr hs
  obtain ⟨n, as, hopened⟩ := h.exists_opened ht hsc
  obtain rfl := ht.distinct.eq_of_id ha hopened.above.mem_nodes (hnode.symm.trans hopened.node)
  rw [hkinds, t.getElem?_kinds, hsc, Option.map_some, hopened.kind]

/-- The nearest scope with a test is that of the nearest node with it. -/
theorem Shaped.nearest_owned (h : Shaped root t) (ht : ModuleTree root items)
    {test : ScopeKind → Bool} {testKind : Kind Node → Bool}
    (htest : ∀ kind, test (scopeKind kind) = testKind kind) {chain : List Nat} {owners : List Node}
    (hchain : Owned (openersOf root) chain owners) (howners : owners ⊆ root.nodes) :
    (openersOf root)[nearest (kindsOf root) test chain]? =
      some ((owners.find? (testKind ·.kind)).getD root).id := by
  induction hchain with
  | nil => rfl
  | @cons s a chain owners hs _ ih =>
    have hkind := h.getElem?_kindsOf ht (howners List.mem_cons_self) hs
    unfold nearest
    rw [List.find?_cons, List.find?_cons, hkind, Option.any_some, htest]
    cases testKind a.kind with
    | true => exact hs
    | false => exact ih (List.subset_of_cons_subset howners)

/-- The scope that a place means is that of the owner at the place. -/
theorem Shaped.placeIn_owned (h : Shaped root t) (ht : ModuleTree root items)
    (hn : root.Ancestors n as) {chain : List Nat}
    (hchain : Owned (openersOf root) chain (scopeOwners (n :: as))) (place : Place) :
    (openersOf root)[placeIn (kindsOf root) chain place]? = some (ownerAt root n as place).id := by
  have howners : scopeOwners (n :: as) ⊆ root.nodes := List.Subset.trans (scopeOwners_subset _)
    (List.cons_subset.mpr ⟨hn.mem_nodes, hn.above_mem_nodes⟩)
  cases place with
  | innermost =>
    unfold placeIn ownerAt
    generalize scopeOwners (n :: as) = owners at hchain ⊢
    cases hchain with
    | nil => rfl
    | cons hs _ => exact hs
  | block => exact h.nearest_owned ht isBlockParent_scopeKind hchain howners
  | outerBlock =>
    have htail : Owned (openersOf root) chain.tail (scopeOwners (n :: as)).tail := by
      generalize scopeOwners (n :: as) = owners at hchain
      cases hchain with
      | nil => exact .nil
      | cons _ htail => exact htail
    exact h.nearest_owned ht isBlockParent_scopeKind htail fun a ha =>
      howners (List.mem_of_mem_tail ha)
  | function => exact h.nearest_owned ht isFunctionParent_scopeKind hchain howners

/-! ## Declarations in the order in which they are made -/

/-- What is known of a placement, by the declaration that it is for. -/
structure Placement.Of (root : Node) (p : Placement) (e : Node × Declaration) : Prop where
  /-- How the name is declared. -/
  kind : p.kind = e.2.kind
  /-- The declared name. -/
  name : p.name = e.2.name
  /-- What declares it. -/
  node : p.node = e.2.node
  /-- The node makes the declaration, and the scope is that of the owner at its place. -/
  scope : e.2 ∈ declarations e.1 ∧ ∃ as, root.Ancestors e.1 as ∧
    (openersOf root)[p.scope]? = some (ownerAt root e.1 as e.2.place).id

/-- The steps of the walk are those of the nodes in the order of the tree. -/
theorem forall₂_moduleSteps (ht : ModuleTree root items) :
    List.Forall₂ (fun e n => ∃ as here next, root.Ancestors n as ∧ e = here.step n next ∧
      Located (openersOf root) n as here next) (moduleSteps root) root.nodes := by
  have hnodes : (moduleSteps root).map (·.node) = root.nodes.map Node.id := map_node_steps root _ _
  have hlength : (moduleSteps root).length = root.nodes.length := by
    simpa using congrArg List.length hnodes
  refine List.forall₂_iff_get.mpr ⟨hlength, fun i hi hi' => ?_⟩
  obtain ⟨n, as, here, next, hn, he, hl⟩ :=
    exists_located_of_mem ht.kind ht.distinct (List.get_mem (moduleSteps root) ⟨i, hi⟩)
  have hid : n.id = (root.nodes.get ⟨i, hi'⟩).id := by
    have hstep := congrArg (·[i]?) hnodes
    simp only [List.getElem?_map, List.getElem?_eq_getElem hi, List.getElem?_eq_getElem hi',
      Option.map_some, Option.some.injEq] at hstep
    rwa [← List.get_eq_getElem (i := ⟨i, hi⟩), he] at hstep
  obtain rfl := ht.distinct.eq_of_id hn.mem_nodes (List.get_mem _ _) hid
  exact ⟨as, here, next, hn, he, hl⟩

theorem Shaped.forall₂_placementsOf (h : Shaped root t) (ht : ModuleTree root items) :
    List.Forall₂ (Placement.Of root) (placementsOf root) (registrations root) := by
  refine List.rel_flatMap (forall₂_moduleSteps ht) ?_
  rintro _ n ⟨as, here, next, hn, rfl, hl⟩
  unfold Step.placements
  rw [List.forall₂_map_left_iff, List.forall₂_map_right_iff]
  change List.Forall₂ _ (declarations n) (declarations n)
  exact List.forall₂_same.mpr fun d hd => ⟨rfl, rfl, rfl, hd, as, hn, h.placeIn_owned ht hn hl.inside d.place⟩

/-- A placement is in the scope that its declaration puts the name into. -/
theorem Placement.Of.receives_iff {p : Placement} {e : Node × Declaration} {s : Nat} {x : String}
    (hp : p.Of root e) (h : Shaped root t) (ht : ModuleTree root items) :
    t.Receives root s x e ↔ p.scope = s ∧ p.name = x := by
  obtain ⟨hd, as, hn, hscope⟩ := hp.scope
  unfold ScopeTree.Receives
  rw [hp.name, and_comm]
  refine and_congr_left ?_
  rintro rfl
  constructor
  · rintro ⟨owner, hdeclares, hs⟩
    rw [declares_iff ht hn hd] at hdeclares
    exact scope_unique ht.distinct hscope (h.isScopeOf_iff.mp (hdeclares ▸ hs))
  · rintro rfl
    exact ⟨_, (declares_iff ht hn hd).mpr rfl, h.isScopeOf_iff.mpr hscope⟩

/-- The first placement of a name in a scope is for the first declaration that puts it there. -/
theorem exists_first {ps : List Placement} {es : List (Node × Declaration)} {s : Nat} {x : String}
    {received : Node × Declaration → Prop} {first : BindingKind × Nat}
    (hps : List.Forall₂ (Placement.Of root) ps es)
    (hreceived : ∀ (p : Placement) e, p.Of root e → (received e ↔ p.scope = s ∧ p.name = x))
    (hfirst : firstAt? ps s x = some first) :
    ∃ front e back, es = front ++ e :: back ∧ received e ∧ first = (e.2.kind, e.2.node) ∧
      ∀ e' ∈ front, ¬ received e' := by
  induction hps with
  | nil => cases hfirst
  | @cons p e ps es hp _ ih =>
    rw [firstAt?_cons] at hfirst
    split at hfirst
    · rename_i hhere
      obtain rfl := Option.some.inj hfirst
      exact ⟨[], e, es, rfl, (hreceived p e hp).mpr hhere, by rw [hp.kind, hp.node], nofun⟩
    · rename_i hhere
      obtain ⟨front, e', back, rfl, he', hfirst, hfront⟩ := ih hfirst
      refine ⟨e :: front, e', back, rfl, he', hfirst, ?_⟩
      exact List.forall_mem_cons.mpr ⟨mt (hreceived p e hp).mp hhere, hfront⟩

/-! ## The main result -/

/-- Whether the scopes of a tree are those of its nodes, and bind the names that are declared for
these. -/
structure WellPlaced (root : Node) (t : ScopeTree) : Prop where
  /-- A node that introduces a scope has one scope. -/
  unique : ∀ n as, root.Ancestors n as → opensScope n as.head? = true → ∃! s, t.IsScopeOf s n
  /-- Every scope is that of such a node and of the kind for it. The scopes around it, from the
  nearest outwards, are those of the nodes above, and come before it. -/
  opened : ∀ (s : Nat) (sc : Scope), t.scopes[s]? = some sc → ∃ n as, root.Ancestors n as ∧
    opensScope n as.head? = true ∧ sc.node = n.id ∧ sc.kind = scopeKind n.kind ∧
      List.Forall₂ t.IsScopeOf sc.enclosing (scopeOwners as) ∧ ∀ p ∈ sc.enclosing, p < s
  /-- The scopes around a scope are the one right around it and those around that one. -/
  parent : ∀ (s : Nat) (sc : Scope) (p : Nat), t.scopes[s]? = some sc → sc.enclosing.head? = some p →
    sc.enclosing = t.chain p
  /-- A scope binds the names that are declared for its node. -/
  bound : ∀ s x, (∃ b, t.bindingAt? s x = some b) ↔
    ∃ n owner kind j, Declares root n owner kind x j ∧ t.IsScopeOf s owner
  /-- It binds a name by the first declaration that puts the name there. -/
  first : ∀ s x b, t.bindingAt? s x = some b → ∃ front e back,
    registrations root = front ++ e :: back ∧ t.Receives root s x e ∧
      b.kind = e.2.kind ∧ b.node = e.2.node ∧ ∀ e' ∈ front, ¬ t.Receives root s x e'
  /-- No scope has a name twice. -/
  keyed : t.Keyed

/-- Every declared name is bound in the scope that its form demands, and in no other. -/
theorem declarations_placed {source file : String} {root : Node} {t : ScopeTree}
    (hparse : parseModule source file = .ok root) (hcollect : collect root = .ok t) :
    WellPlaced root t := by
  obtain ⟨items, ht⟩ := ModuleTree.of_parseTree (mapError_eq_ok.mp hparse)
  have h := collected hcollect
  have hplaced := h.forall₂_placementsOf ht
  have hfirst : ∀ s x b, t.bindingAt? s x = some b → ∃ front e back,
      registrations root = front ++ e :: back ∧ t.Receives root s x e ∧
        b.kind = e.2.kind ∧ b.node = e.2.node ∧ ∀ e' ∈ front, ¬ t.Receives root s x e' := by
    intro s x b hb
    have hfirst : firstAt? (placementsOf root) s x = some (b.kind, b.node) := by
      rw [← h.declared, ScopeTree.declared?, hb]
      rfl
    obtain ⟨front, e, back, hsplit, he, hb, hfront⟩ :=
      exists_first hplaced (fun p e hp => hp.receives_iff h.toShaped ht) hfirst
    obtain ⟨hkind, hnode⟩ := Prod.mk.inj hb
    exact ⟨front, e, back, hsplit, he, hkind, hnode, hfront⟩
  refine ⟨fun n as hn hopens => ?unique, fun s sc hs => ?opened,
    fun s sc p hs hp => h.enclosing_eq ht hs hp, fun s x => ?bound, hfirst,
    keyed_collect hcollect⟩
  case unique =>
    obtain ⟨s, hs⟩ := h.exists_scope ht hn hopens
    exact ⟨s, hs, fun s' hs' =>
      scope_unique ht.distinct (h.isScopeOf_iff.mp hs') (h.isScopeOf_iff.mp hs)⟩
  case opened =>
    obtain ⟨n, as, hopened⟩ := h.exists_opened ht hs
    exact ⟨n, as, hopened.above, hopened.opens, hopened.node, hopened.kind,
      hopened.enclosing.imp fun p a hp => h.isScopeOf_iff.mpr hp, hopened.before⟩
  case bound =>
    constructor
    · rintro ⟨b, hb⟩
      obtain ⟨front, ⟨n, d⟩, back, -, ⟨rfl, owner, hdeclares, hs⟩, -⟩ := hfirst s x b hb
      exact ⟨n, owner, d.kind, d.node, hdeclares, hs⟩
    · rintro ⟨n, owner, kind, j, hdeclares, hs⟩
      obtain ⟨as, hn⟩ := Node.exists_ancestors hdeclares.mem_nodes
      obtain ⟨place, hd, rfl⟩ := hdeclares.mem_declarations ht hn
      have hmem : (n, ⟨place, kind, x, j⟩) ∈ registrations root :=
        List.mem_flatMap.mpr ⟨n, hn.mem_nodes, List.mem_map_of_mem hd⟩
      obtain ⟨p, hp, hof⟩ := exists_match hplaced.flip hmem
      obtain ⟨rfl, rfl⟩ := (hof.receives_iff h.toShaped ht).mp ⟨rfl, _, hdeclares, hs⟩
      obtain ⟨first, hfirst⟩ := firstAt?_isSome_of_mem hp
      rw [← h.declared] at hfirst
      obtain ⟨b, hb, -⟩ := Option.map_eq_some_iff.mp hfirst
      exact ⟨b, hb⟩

/-- The scopes around each scope, and the names in it with the kinds of their bindings. -/
def boundNames (t : ScopeTree) : List (List Nat × List (String × BindingKind)) :=
  t.scopes.toList.map fun s => (s.enclosing, s.bindings.map fun b => (b.1, b.2.kind))

/-- The names of an import, a class, a function and the parameter of a catch clause, and variables
that belong to a static block, to a method and to a loop. The second declaration of `p` adds
nothing. -/
theorem declarations_placed_class : ∃ root t,
    parseModule ("import {i as j} from 'm'; export default class K " ++
      "{ static { var v; } m([p]) { for (let l;;) var p, q; } } " ++
      "try {} catch ({e}) { const f = function f() {}; }")
      "test.js" = .ok root ∧ collect root = .ok t ∧ WellPlaced root t ∧ boundNames t =
      [([], [("j", .imported), ("K", .letBinding)]), ([0], []), ([1, 0], [("v", .varBinding)]),
        ([1, 0], [("p", .param), ("q", .varBinding)]), ([3, 1, 0], [("l", .letBinding)]),
        ([0], []), ([0], [("e", .letBinding), ("f", .constBinding)]), ([6, 0], [("f", .ownName)])] := by
  have hok : ((parseModule ("import {i as j} from 'm'; export default class K " ++
      "{ static { var v; } m([p]) { for (let l;;) var p, q; } } " ++
      "try {} catch ({e}) { const f = function f() {}; }")
      "test.js").mapError (fun _ => ()) >>= fun root =>
        (collect root).mapError (fun _ => ()) >>= fun t => .ok (boundNames t)) = .ok
      [([], [("j", .imported), ("K", .letBinding)]), ([0], []), ([1, 0], [("v", .varBinding)]),
        ([1, 0], [("p", .param), ("q", .varBinding)]), ([3, 1, 0], [("l", .letBinding)]),
        ([0], []), ([0], [("e", .letBinding), ("f", .constBinding)]), ([6, 0], [("f", .ownName)])] := by
    decide +kernel
  obtain ⟨root, hparse, h⟩ := bind_eq_ok.mp hok
  obtain ⟨t, hcollect, h⟩ := bind_eq_ok.mp h
  rw [mapError_eq_ok] at hparse hcollect
  exact ⟨root, t, hparse, hcollect, declarations_placed hparse hcollect, Except.ok.inj h⟩

/-! ## Names that are declared twice -/

/-- Whether a declaration of a node puts a name into the scope of an owner. -/
def Puts (root owner : Node) (x : String) (e : Node × Declaration) : Prop :=
  e.2.name = x ∧ Declares root e.1 owner e.2.kind x e.2.node

/-- Whether a declaration may not come after the first one of its name: another node makes it, the
first one is not that of a parameter, and one of the two allows no other. -/
def Clashes (first later : Declaration) : Prop :=
  later.node ≠ first.node ∧ first.kind ≠ .param ∧
    (first.kind.isLexical = true ∨ later.kind.isLexical = true)

theorem ownerAt_mem_nodes (hn : root.Ancestors n as) (place : Place) :
    ownerAt root n as place ∈ root.nodes := by
  have howners : scopeOwners (n :: as) ⊆ root.nodes := List.Subset.trans (scopeOwners_subset _)
    (List.cons_subset.mpr ⟨hn.mem_nodes, hn.above_mem_nodes⟩)
  have hroot : root ∈ root.nodes := Node.Ancestors.mem_nodes .here
  have hfind : ∀ {owners : List Node} (p : Node → Bool), owners ⊆ root.nodes →
      (owners.find? p).getD root ∈ root.nodes := by
    intro owners p hsub
    cases hfind : owners.find? p with
    | none => exact hroot
    | some a => exact hsub (List.mem_of_find?_eq_some hfind)
  cases place with
  | innermost =>
    change (scopeOwners (n :: as)).headD root ∈ root.nodes
    generalize scopeOwners (n :: as) = owners at howners ⊢
    cases owners with
    | nil => exact hroot
    | cons a rest => exact howners List.mem_cons_self
  | block => exact hfind _ howners
  | outerBlock => exact hfind _ fun a ha => howners (List.mem_of_mem_tail ha)
  | function => exact hfind _ howners

/-- A placement is in the scope of the owner that its declaration puts the name into. -/
theorem Placement.Of.puts_iff {p : Placement} {e : Node × Declaration} {owner : Node} {s : Nat}
    {x : String} (hp : p.Of root e) (ht : ModuleTree root items) (howner : owner ∈ root.nodes)
    (hs : (openersOf root)[s]? = some owner.id) :
    Puts root owner x e ↔ p.scope = s ∧ p.name = x := by
  obtain ⟨hd, as, hn, hscope⟩ := hp.scope
  unfold Puts
  rw [hp.name, and_comm]
  refine and_congr_left ?_
  rintro rfl
  rw [declares_iff ht hn hd]
  constructor
  · rintro rfl
    exact scope_unique ht.distinct hscope hs
  · rintro rfl
    exact ht.distinct.eq_of_id howner (ownerAt_mem_nodes hn _)
      (Option.some.inj (hs.symm.trans hscope))

/-- The first member of a list that satisfies a property is determined. -/
theorem first_unique {α : Type} {P : α → Prop} {front front' back back' : List α} {a a' : α}
    (h : front ++ a :: back = front' ++ a' :: back') (ha : P a) (ha' : P a')
    (hfront : ∀ b ∈ front, ¬ P b) (hfront' : ∀ b ∈ front', ¬ P b) :
    front = front' ∧ a = a' ∧ back = back' := by
  induction front generalizing front' with
  | nil =>
    cases front' with
    | nil => exact ⟨rfl, List.cons.inj h⟩
    | cons b front' =>
      obtain ⟨rfl, -⟩ := List.cons.inj h
      exact absurd ha (hfront' a List.mem_cons_self)
  | cons b front ih =>
    cases front' with
    | nil =>
      obtain ⟨rfl, -⟩ := List.cons.inj h
      exact absurd ha' (hfront b List.mem_cons_self)
    | cons b' front' =>
      obtain ⟨rfl, htail⟩ := List.cons.inj h
      obtain ⟨rfl, hrest⟩ := ih htail (fun c hc => hfront c (List.mem_cons_of_mem _ hc))
        fun c hc => hfront' c (List.mem_cons_of_mem _ hc)
      exact ⟨rfl, hrest⟩

/-- A placement puts its name into a scope. -/
theorem Placement.Of.exists_puts {p : Placement} {e : Node × Declaration} (hp : p.Of root e)
    (ht : ModuleTree root items) : ∃ owner, Puts root owner p.name e := by
  obtain ⟨hd, as, hn, -⟩ := hp.scope
  rw [hp.name]
  exact ⟨_, rfl, (declares_iff ht hn hd).mpr rfl⟩

/-- What a declaration puts into a scope is held there by the first declaration that puts it
there. -/
theorem Placement.Of.exists_first_put {p : Placement} {later : Node × Declaration} {owner : Node}
    {x : String} (hp : p.Of root later) (ht : ModuleTree root items)
    (hplaced : List.Forall₂ (Placement.Of root) (placementsOf root) (registrations root))
    (hmem : p ∈ placementsOf root) (hputs : Puts root owner x later) :
    ∃ front first back, registrations root = front ++ first :: back ∧ Puts root owner x first ∧
      (∀ e ∈ front, ¬ Puts root owner x e) ∧
        firstAt? (placementsOf root) p.scope p.name = some (first.2.kind, first.2.node) := by
  obtain ⟨hd, as, hn, hscope⟩ := hp.scope
  obtain ⟨rfl, hdeclares⟩ := hputs
  obtain rfl := (declares_iff ht hn hd).mp hdeclares
  rw [← hp.name]
  obtain ⟨held, hheld⟩ := firstAt?_isSome_of_mem hmem
  obtain ⟨front, first, back, hsplit, hfirst, rfl, hfront⟩ := exists_first hplaced
    (fun q e hq => hq.puts_iff ht (ownerAt_mem_nodes hn later.2.place) hscope) hheld
  exact ⟨front, first, back, hsplit, hfirst, hfront, hheld⟩

theorem clashes_iff {first later : Declaration} : Clashes first later ↔
    ¬ (first.node = later.node ∨ first.kind = .param ∨
      first.kind.isLexical = false ∧ later.kind.isLexical = false) := by
  rw [not_or, not_or, not_and_or, Bool.not_eq_false, Bool.not_eq_false, Clashes, ne_comm]

/-- Collecting fails exactly if a name is declared for a scope again by a declaration that clashes
with the first one of the name there. -/
theorem redeclared_iff {source file : String} {root : Node}
    (hparse : parseModule source file = .ok root) :
    (∃ r, collect root = .error r) ↔ ∃ owner x front first back,
      registrations root = front ++ first :: back ∧ Puts root owner x first ∧
        (∀ e ∈ front, ¬ Puts root owner x e) ∧
          ∃ later ∈ back, Puts root owner x later ∧ Clashes first.2 later.2 := by
  obtain ⟨items, ht⟩ := ModuleTree.of_parseTree (mapError_eq_ok.mp hparse)
  obtain ⟨t, hshaped⟩ := exists_shaped root
  have hplaced := hshaped.forall₂_placementsOf ht
  have hfails : (∃ r, collect root = .error r) ↔
      ¬ Compatible (fun _ _ => none) (placementsOf root) := by
    rw [← collect_iff]
    cases collect root <;> simp
  rw [hfails]
  constructor
  · intro hbad
    simp only [Compatible, ScopeTree.Allows, Option.none_or, not_forall] at hbad
    obtain ⟨p, hp, kind, node, hheld, hnot⟩ := hbad
    obtain ⟨later, hlater, hof⟩ := exists_match hplaced hp
    obtain ⟨owner, hagain⟩ := hof.exists_puts ht
    obtain ⟨front, first, back, hsplit, hputs, hfront, hfirst⟩ :=
      hof.exists_first_put ht hplaced hp hagain
    obtain ⟨rfl, rfl⟩ := Prod.mk.inj (Option.some.inj (hfirst.symm.trans hheld))
    rw [hof.kind, hof.node] at hnot
    have hclash := clashes_iff.mpr hnot
    refine ⟨owner, p.name, front, first, back, hsplit, hputs, hfront, later, ?_, hagain, hclash⟩
    -- the later declaration is not among those before the first one, and it is not the first one
    rw [hsplit] at hlater
    rcases List.mem_append.mp hlater with hmem | hmem
    · exact absurd hagain (hfront later hmem)
    · rcases List.mem_cons.mp hmem with rfl | hmem
      · exact absurd rfl hclash.1
      · exact hmem
  · rintro ⟨owner, x, front, first, back, hsplit, hputs, hfront, later, hmem, hagain, hclash⟩ hgood
    have hlater : later ∈ registrations root :=
      hsplit ▸ List.mem_append_right _ (List.mem_cons_of_mem _ hmem)
    obtain ⟨p, hp, hof⟩ := exists_match hplaced.flip hlater
    obtain ⟨front', first', back', hsplit', hputs', hfront', hheld⟩ :=
      hof.exists_first_put ht hplaced hp hagain
    obtain ⟨-, rfl, -⟩ := first_unique (hsplit.symm.trans hsplit') hputs hputs' hfront hfront'
    have hallowed := hgood p hp first.2.kind first.2.node (Option.none_or.trans hheld)
    rw [hof.kind, hof.node] at hallowed
    exact clashes_iff.mp hclash hallowed

end EsModule.Scope
