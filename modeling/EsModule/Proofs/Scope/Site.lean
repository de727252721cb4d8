import EsModule.Proofs.Scope.Around
import EsModule.Proofs.Scope.Bound

/-!
# Where names are used

A name is read where an identifier stands for its value, and written where it is the target of an
assignment, of an update, of `delete` or of a loop over items. The walk notes a read at the
identifier itself and a write at the node that writes. Between that node and the identifier there
are patterns only, which open no scope, so a write is noted with the scopes around the identifier
as well. `exists_site_of_use` and `exists_use_of_site` say that the uses are those of the
identifiers that are read or written, with the scopes around them.
-/

namespace EsModule.Syntax.Node

open EsModule.Scope

/-! ## The names of a target -/

theorem member_eq_target {n : Node} (h : n.isProperty = false) :
    n.bound.member = n.bound.target := by
  rw [bound_eq]
  obtain ⟨id, span, kind⟩ := n
  cases kind <;> first | rfl | cases h

/-- The names of what a pattern passes on to are names of the pattern. -/
theorem mem_bound_of_passesOn {n c i : Node} (hc : c ∈ n.passesOn)
    (hobject : c.isProperty = true → n.isObject = true) (hi : i ∈ c.bound.member) :
    i ∈ n.bound.member := by
  have htarget : n.isObject = false → i ∈ c.bound.target := by
    intro hn
    rwa [← member_eq_target (by grind)]
  rw [bound_eq]
  obtain ⟨id, span, kind⟩ := n
  unfold passesOn at hc
  cases kind
  all_goals simp only [Node.kind, List.not_mem_nil, List.mem_singleton, List.mem_filterMap,
    exists_eq_right] at hc
  case objectPattern properties =>
    refine List.mem_flatMap.mpr ⟨(c, c.bound), ?_, hi⟩
    exact List.mem_map_of_mem (f := fun n => (n, n.bound)) hc
  case arrayPattern elements =>
    refine List.mem_flatMap.mpr ⟨some (c, c.bound), ?_, htarget rfl⟩
    exact List.mem_map_of_mem (f := Option.map fun n => (n, n.bound)) hc
  all_goals
    subst hc
    exact htarget rfl

/-- A target binds the identifiers to which it leads. -/
theorem Leads.mem_bound {n i : Node} (h : n.Leads i) (hname : i.name?.isSome = true)
    (hobjects : ∀ p ∈ n.nodes, ∀ c ∈ p.kind.children, c.isProperty = true → p.isObject = true) :
    i ∈ n.bound.member := by
  induction h using Relation.ReflTransGen.head_induction_on with
  | refl =>
    have hself : i.bound.target = [i] := boundIdentifiers_of_name? hname
    have hplain : i.isProperty = false := by
      unfold name? at hname
      unfold isProperty
      split at hname
      · rename_i hk
        rw [hk]
      · cases hname
    rw [member_eq_target hplain, hself]
    exact List.mem_singleton_self i
  | @head n c hc _ ih =>
    have hchild := n.passesOn_sublist.subset hc
    refine mem_bound_of_passesOn hc (hobjects n n.mem_nodes_self c hchild) (ih fun p hp => ?_)
    exact hobjects p (mem_nodes_of_child hchild hp)

/-- Patterns open no scope and have no parameters. -/
theorem plain_of_passesOn {n c : Node} (hc : c ∈ n.passesOn) (parent : Option Node) :
    opensScope n parent = false ∧ n.parameters = [] := by
  unfold passesOn at hc
  unfold opensScope parameters
  split at hc <;> simp_all [isScopable, isClass, isFunction]

end EsModule.Syntax.Node

namespace EsModule.Scope

open EsModule.Syntax

/-- A node that writes opens a scope or not, but has no parameters. -/
theorem parameters_of_mem_writtenTargets {m top : Node} (h : top ∈ writtenTargets m) :
    m.parameters = [] := by
  unfold writtenTargets at h
  unfold Node.parameters
  split at h <;> simp_all

/-! ## Sites -/

/-- Whether a node is the target of an assignment, of an update, of `delete` or of a loop over
items, or stands where the patterns of such a target lead. -/
def IsWritten (root n : Node) : Prop := ∃ m ∈ root.nodes, ∃ top ∈ writtenTargets m, top.Leads n

/-- Whether a node that stands below some nodes is read as a value. The names in lists of exports
are not. -/
def IsReadBelow (n : Node) : List Node → Prop
  | [] => False
  | p :: as => isReferenced n p as.head? = true ∧
      ∀ binding exported, p.kind ≠ .exportSpecifier binding exported

/-- Whether a node is accessed where it stands below some nodes. -/
def IsAccessed (root n : Node) (as : List Node) : Access → Prop
  | .read => IsReadBelow n as
  | .write => IsWritten root n

theorem isRead_iff {n p : Node} {as : List Node} (hn : n.name?.isSome = true) :
    isRead n p as.head? = true ↔ IsReadBelow n (p :: as) := by
  unfold Node.name? at hn
  unfold IsReadBelow isRead
  generalize n.kind = kind at hn ⊢
  split at hn
  · split <;> simp_all
  · cases hn

/-- Members of objects stand in objects. -/
theorem isObject_of_isProperty {root p c : Node} {items : List Node} (h : ModuleTree root items)
    (hp : p ∈ root.nodes) (hc : c ∈ p.kind.children) (hproperty : c.isProperty = true) :
    p.isObject = true := by
  rcases h.inside hp hc with ⟨-, hitem⟩ | hinside
  · rw [Derives.isProperty (h.items c hitem) rfl] at hproperty
    cases hproperty
  · exact hinside.isObject hproperty

/-- A child of a node that is no object binds the identifiers to which its patterns lead. -/
theorem mem_boundIdentifiers_of_leads {root p top i : Node} {items : List Node}
    (h : ModuleTree root items) (hp : p ∈ root.nodes) (hchild : top ∈ p.kind.children)
    (hobject : p.isObject = false) (hleads : top.Leads i) (hi : i.name?.isSome = true) :
    i ∈ top.boundIdentifiers := by
  have hplain : top.isProperty = false := by
    by_contra hproperty
    rw [isObject_of_isProperty h hp hchild (by simpa using hproperty)] at hobject
    cases hobject
  have hbound := hleads.mem_bound hi fun q hq c hc hproperty =>
    isObject_of_isProperty h (Node.mem_nodes_trans hq (Node.mem_nodes_below hp hchild)) hc hproperty
  rwa [Node.member_eq_target hplain] at hbound

/-- What a node writes is found through its targets. -/
theorem mem_writes_iff {root m i : Node} {items : List Node} (h : ModuleTree root items)
    (hm : m ∈ root.nodes) (hi : i.name?.isSome = true) :
    i ∈ writes m ↔ ∃ top ∈ writtenTargets m, top.Leads i := by
  refine ⟨exists_writer h hm, ?_⟩
  rintro ⟨top, htop, hleads⟩
  have hobject : m.isObject = false := by
    unfold Node.isObject
    unfold writtenTargets at htop
    split <;> simp_all
  exact mem_writes.mpr ⟨top, htop,
    mem_boundIdentifiers_of_leads h hm (writtenTargets_subset m htop) hobject hleads hi⟩

/-- The scopes around a name in a target are those around the target. -/
theorem exists_path_of_leads {n i : Node} (h : n.Leads i) (as : List Node) :
    ∃ bs, n.Path as i bs ∧ scopeOwners bs = scopeOwners as ∧
      parameterOwners i bs = parameterOwners n as := by
  induction h with
  | refl => exact ⟨as, .here, rfl, rfl⟩
  | @tail j i _ hc ih =>
    obtain ⟨bs, hpath, hscopes, hparams⟩ := ih
    obtain ⟨hopens, hparameters⟩ := Node.plain_of_passesOn hc bs.head?
    refine ⟨j :: bs, .child hpath (j.passesOn_sublist.subset hc), ?_, ?_⟩
    · rw [scopeOwners, hopens, ← hscopes]
      rfl
    · rw [parameterOwners, hparameters, ← hparams]
      rfl

/-- An identifier opens no scope. -/
theorem scopeOwners_cons_of_name? {n : Node} (h : n.name?.isSome = true) (as : List Node) :
    scopeOwners (n :: as) = scopeOwners as := by
  unfold Node.name? at h
  split at h
  · rename_i hk
    simp [scopeOwners, opensScope, hk, isScopable, isClass, isFunction]
  · cases h

/-! ## Uses -/

/-- Whether a use is that of an identifier that stands below some nodes. -/
structure Use.At (root : Node) (u : Use) (n : Node) (as : List Node) : Prop where
  /-- The identifier is accessed in this way. -/
  accessed : IsAccessed root n as u.access
  /-- It is known by its number. -/
  node : u.node = n.id
  /-- The name is that of the identifier. -/
  name : n.name? = some u.name
  /-- The scopes are those around the identifier. -/
  chain : Owned (openersOf root) u.chain (scopeOwners as)
  /-- The scopes of the functions are those in whose parameter lists it stands. -/
  params : Owned (openersOf root) u.params (parameterOwners n as)

variable {root n : Node} {items as : List Node} {u : Use}

/-- A use of a located node is that of an identifier. -/
theorem Located.exists_site (h : ModuleTree root items) (hn : root.Ancestors n as)
    {here : Surroundings} {next : Nat} (hl : Located (openersOf root) n as here next)
    (hu : u ∈ (here.step n next).uses) : ∃ i bs, root.Ancestors i bs ∧ u.At root i bs := by
  rcases mem_usesOf.mp hu with ⟨name, p, hname, hp, hread, rfl⟩ | ⟨i, hi, name, hname, rfl⟩
  · refine ⟨n, as, hn, ?_, rfl, hname, ?_, hl.params⟩
    · dsimp only at hp hread
      rw [hl.parent] at hp
      rw [hl.grandparent] at hread
      cases as with
      | nil => cases hp
      | cons q as =>
        obtain rfl := Option.some.inj hp
        exact (isRead_iff (by rw [hname]; rfl)).mp hread
    · rw [← scopeOwners_cons_of_name? (by rw [hname]; rfl : n.name?.isSome = true)]
      exact hl.inside
  · obtain ⟨top, htop, hleads⟩ := exists_writer h hn.mem_nodes hi
    obtain ⟨bs, hpath, hscopes, hparams⟩ := exists_path_of_leads hleads (n :: as)
    refine ⟨i, bs, ?_, ⟨n, hn.mem_nodes, top, htop, hleads⟩, rfl, hname, ?_, ?_⟩
    · exact hn.trans (.of_child (writtenTargets_subset n htop) hpath)
    · rw [hscopes]
      exact hl.inside
    · rw [hparams, parameterOwners, parameters_of_mem_writtenTargets htop]
      exact hl.params

/-- Every use is that of an identifier. -/
theorem exists_site_of_use (h : ModuleTree root items) (hu : u ∈ usesIn root) :
    ∃ n as, root.Ancestors n as ∧ u.At root n as := by
  obtain ⟨e, he, hu⟩ := List.mem_flatMap.mp hu
  obtain ⟨n, as, here, next, hn, rfl, hl⟩ := exists_located_of_mem h.kind h.distinct he
  exact hl.exists_site h hn hu

/-- An identifier that is accessed is used. -/
theorem exists_use_of_site (h : ModuleTree root items) (hn : root.Ancestors n as) {x : String}
    (hx : n.name? = some x) {access : Access} (ha : IsAccessed root n as access) :
    ∃ u ∈ usesIn root, u.access = access ∧ u.At root n as := by
  have hname : n.name?.isSome = true := by rw [hx]; rfl
  -- the step that notes the access
  have hstep : ∃ m bs here next, root.Ancestors m bs ∧ Located (openersOf root) m bs here next ∧
      here.step m next ∈ moduleSteps root ∧
      ∃ u ∈ (here.step m next).uses, u.access = access ∧ u.node = n.id := by
    cases access with
    | read =>
      obtain ⟨here, next, he, hl⟩ := exists_step h.kind h.distinct hn
      refine ⟨n, as, here, next, hn, hl, he, ⟨n.id, x, .read, here.inside n next, here.params⟩,
        mem_usesOf.mpr (.inl ?_), rfl, rfl⟩
      cases as with
      | nil => cases ha
      | cons p as =>
        exact ⟨x, p, hx, hl.parent, by rw [hl.grandparent]; exact (isRead_iff hname).mpr ha, rfl⟩
    | write =>
      obtain ⟨m, hm, htop⟩ := ha
      obtain ⟨bs, hm⟩ := Node.exists_ancestors hm
      obtain ⟨here, next, he, hl⟩ := exists_step h.kind h.distinct hm
      refine ⟨m, bs, here, next, hm, hl, he, ⟨n.id, x, .write, here.inside m next, here.params⟩,
        mem_usesOf.mpr (.inr ⟨n, ?_, x, hx, rfl⟩), rfl, rfl⟩
      exact (mem_writes_iff h hm.mem_nodes hname).mpr htop
  obtain ⟨m, bs, here, next, hm, hl, he, u, hu, rfl, hid⟩ := hstep
  have huse : u ∈ usesIn root := List.mem_flatMap.mpr ⟨_, he, hu⟩
  obtain ⟨i, cs, hi, hat⟩ := hl.exists_site h hm hu
  obtain rfl := h.distinct.eq_of_id hi.mem_nodes hn.mem_nodes (hat.node.symm.trans hid)
  obtain rfl := hi.unique h.distinct hn
  exact ⟨u, huse, rfl, hat⟩

end EsModule.Scope
