import EsModule.Proofs.Scope.Site

/-!
# The binding that a name means

Walking up from an identifier, the scopes that hold its name are those of some of the nodes above
it, and a function in whose parameter list the identifier stands only shows its parameters and its
own name. `ScopeTree.Nearest` is the first binding that is met. Collecting records every identifier
that is read or written with this binding, or as a global if there is none, and records nothing
else: `sites_partitioned`.
-/

namespace EsModule.Scope

open EsModule.Syntax

/-- The nodes that a binding lists for a kind of access. -/
def Binding.listed (b : Binding) : Access → List Nat
  | .read => b.references
  | .write => b.mutations

namespace ScopeTree

/-- Whether the scope that a node opens shows a binding of a name to a place in the parameter lists
of some functions. -/
structure Shows (t : ScopeTree) (listing : List Node) (x : String) (owner : Node) (s : Nat)
    (b : Binding) : Prop where
  /-- The scope is that of the node. -/
  scope : ∃ sc, t.scopes[s]? = some sc ∧ sc.node = owner.id
  /-- It binds the name. -/
  binding : t.bindingAt? s x = some b
  /-- To a parameter list the function shows its parameters and its own name. -/
  visible : owner ∈ listing → b.kind = .param ∨ b.kind = .ownName

/-- Whether a binding is the first one of a name that the scopes of some nodes show, from the
nearest node outwards. -/
inductive Nearest (t : ScopeTree) (listing : List Node) (x : String) (s : Nat) (b : Binding) :
    List Node → Prop where
  | here {owner owners} (h : t.Shows listing x owner s b) : Nearest t listing x s b (owner :: owners)
  | outer {owner owners} (hnone : ∀ s' b', ¬ t.Shows listing x owner s' b')
      (h : Nearest t listing x s b owners) : Nearest t listing x s b (owner :: owners)

/-- Whether no list of uses has a node twice. -/
structure ListsOnce (t : ScopeTree) : Prop where
  /-- A binding lists no use twice. -/
  bindings : ∀ {s x b}, t.bindingAt? s x = some b → ∀ access, (b.listed access).Nodup
  /-- No global is listed twice. -/
  globals : t.globals.Nodup

/-! ## No use twice -/

theorem nodup_addOnce {n : Nat} {ns : List Nat} (h : ns.Nodup) : (addOnce n ns).Nodup := by
  unfold addOnce
  split
  · exact h
  · rename_i hn
    rw [List.contains_iff_mem] at hn
    exact List.nodup_append.mpr ⟨h, List.nodup_singleton n, by grind⟩

theorem Unused.listsOnce {t : ScopeTree} (h : t.Unused) : t.ListsOnce where
  bindings hb access := by cases access <;> simp [Binding.listed, h.bindings hb]
  globals := by simp [h.globals]

theorem ListsOnce.recordUse {t : ScopeTree} (h : t.ListsOnce) (u : Use) :
    (t.recordUse u).ListsOnce := by
  constructor
  · intro s x b hb
    rw [bindingAt?_recordUse, Option.map_eq_some_iff] at hb
    obtain ⟨b, hb, rfl⟩ := hb
    have hold := h.bindings hb
    split
    · rintro (_ | _) <;> cases u.access
      · exact nodup_addOnce (hold .read)
      · exact hold .read
      · exact hold .write
      · exact nodup_addOnce (hold .write)
    · exact hold
  · unfold ScopeTree.recordUse
    split
    · exact h.globals
    · exact h.globals
    · exact nodup_addOnce h.globals

end ScopeTree

theorem listsOnce_collect {root : Node} {t : ScopeTree} (h : collect root = .ok t) :
    t.ListsOnce := by
  obtain ⟨found, hfound, h⟩ := bind_eq_ok.mp h
  obtain rfl := Except.ok.inj h
  rw [findings_eq] at hfound
  have hfold : ∀ (us : List Use) (t : ScopeTree), t.ListsOnce →
      (us.foldl ScopeTree.recordUse t).ListsOnce := by
    intro us
    induction us with
    | nil => exact fun _ ht => ht
    | cons u us ih => exact fun t ht => ih _ (ht.recordUse u)
  rw [← Array.foldl_toList]
  exact hfold _ _ (unused_foldlM_run (unused_ofRoot _) hfound).listsOnce

/-! ## Scopes and their nodes -/

section

variable {root : Node} {items : List Node} {t : ScopeTree}

theorem Shaped.getElem?_openersOf (h : Shaped root t) (s : Nat) :
    (openersOf root)[s]? = t.scopes[s]?.map (·.node) := by
  have hnodes : openersOf root = t.shapes.map (·.2.1) := by
    rw [h.shapes]
    rfl
  rw [hnodes, List.getElem?_map, ScopeTree.getElem?_shapes, Option.map_map]
  rfl

/-- A node opens one scope. -/
theorem scope_unique (hd : root.Distinct) {a : Node} {s s' : Nat}
    (h : (openersOf root)[s]? = some a.id) (h' : (openersOf root)[s']? = some a.id) : s = s' :=
  List.getElem?_inj (List.getElem?_eq_some_iff.mp h).1 (nodup_openersOf hd) |>.mp
    (h.trans h'.symm)

/-- A number of a scope is listed with those of some nodes if its node is one of them. -/
theorem Owned.mem_iff (hd : root.Distinct) {params : List Nat} {listing : List Node} {s : Nat}
    {a : Node} (h : Owned (openersOf root) params listing) (hlisting : listing ⊆ root.nodes)
    (ha : a ∈ root.nodes) (hs : (openersOf root)[s]? = some a.id) : s ∈ params ↔ a ∈ listing := by
  induction h with
  | nil => simp
  | @cons p f params listing hp _ ih =>
    have hhead : s = p ↔ a = f := by
      constructor
      · rintro rfl
        exact hd.eq_of_id ha (hlisting List.mem_cons_self) (Option.some.inj (hs.symm.trans hp))
      · rintro rfl
        exact scope_unique hd hs hp
    rw [List.mem_cons, List.mem_cons, hhead, ih (List.subset_of_cons_subset hlisting)]

/-- What is seen in a scope is what the node of the scope shows. -/
theorem Collected.seen_iff (h : Collected root t) (hd : root.Distinct) {params : List Nat}
    {listing : List Node} {s s' : Nat} {a : Node} {x : String}
    (hs : (openersOf root)[s]? = some a.id) (hparams : s ∈ params ↔ a ∈ listing) :
    (t.declared? s x).bind (ScopeTree.seen params s) = some s' ↔
      ∃ b, t.Shows listing x a s' b := by
  have hseen : ∀ b : Binding, ScopeTree.seen params s (b.kind, b.node) = some s' ↔
      s' = s ∧ (a ∈ listing → b.kind = .param ∨ b.kind = .ownName) := by
    intro b
    have hkind : b.kind.seenByParams = true ↔ b.kind = .param ∨ b.kind = .ownName := by
      cases b.kind <;> decide
    unfold ScopeTree.seen
    rw [← hparams, ← hkind, ← List.contains_iff_mem]
    cases params.contains s <;> cases b.kind.seenByParams <;> simp [eq_comm]
  unfold ScopeTree.declared?
  simp only [Option.bind_eq_some_iff, Option.map_eq_some_iff, exists_exists_and_eq_and, hseen]
  constructor
  · rintro ⟨b, hb, rfl, hvisible⟩
    rw [h.getElem?_openersOf, Option.map_eq_some_iff] at hs
    exact ⟨b, hs, hb, hvisible⟩
  · rintro ⟨b, hscope, hb, hvisible⟩
    rw [← Option.map_eq_some_iff, ← h.getElem?_openersOf] at hscope
    obtain rfl := scope_unique hd hscope hs
    exact ⟨b, hb, rfl, hvisible⟩

/-- The scope that a name resolves to is that of the nearest binding. -/
theorem Collected.findSome?_iff (h : Collected root t) (hd : root.Distinct)
    {chain params : List Nat} {owners listing : List Node} {s : Nat} {x : String}
    (hchain : Owned (openersOf root) chain owners) (howners : owners ⊆ root.nodes)
    (hparams : Owned (openersOf root) params listing) (hlisting : listing ⊆ root.nodes) :
    (chain.findSome? fun s => (t.declared? s x).bind (ScopeTree.seen params s)) = some s ↔
      ∃ b, t.Nearest listing x s b owners := by
  induction hchain with
  | nil =>
    simp only [List.findSome?_nil, reduceCtorEq, false_iff]
    rintro ⟨b, ⟨⟩⟩
  | @cons s1 a chain owners hs _ ih =>
    have hshows : ∀ s', (t.declared? s1 x).bind (ScopeTree.seen params s1) = some s' ↔
        ∃ b, t.Shows listing x a s' b := fun s' =>
      h.seen_iff hd hs (hparams.mem_iff hd hlisting (howners List.mem_cons_self) hs)
    rw [List.findSome?_cons]
    cases hfirst : (t.declared? s1 x).bind (ScopeTree.seen params s1) with
    | none =>
      have hnone : ∀ s' b', ¬ t.Shows listing x a s' b' := fun s' b' hb' => by
        rw [(hshows s').mpr ⟨b', hb'⟩] at hfirst
        cases hfirst
      rw [ih (List.subset_of_cons_subset howners)]
      constructor
      · exact fun ⟨b, hb⟩ => ⟨b, .outer hnone hb⟩
      · rintro ⟨b, hb | ⟨-, hb⟩⟩
        · exact absurd hb (hnone s b)
        · exact ⟨b, hb⟩
    | some s' =>
      have hsome := (hshows s').mp hfirst
      have hs' : ∀ s2, (∃ b, t.Shows listing x a s2 b) ↔ s' = s2 := by
        intro s2
        rw [← hshows, hfirst, Option.some.injEq]
      rw [Option.some.injEq, ← hs']
      constructor
      · exact fun ⟨b, hb⟩ => ⟨b, .here hb⟩
      · rintro ⟨b, hb | ⟨hnone, -⟩⟩
        · exact ⟨b, hb⟩
        · obtain ⟨b', hb'⟩ := hsome
          exact absurd hb' (hnone s' b')

/-- A use resolves to the nearest binding of the name of its identifier. -/
theorem Collected.targetIn?_iff (h : Collected root t) (hd : root.Distinct) {u : Use} {n : Node}
    {as : List Node} {s : Nat} (hn : root.Ancestors n as) (hu : u.At root n as) :
    targetIn? (placementsOf root) u = some s ↔
      ∃ b, t.Nearest (parameterOwners n as) u.name s b (scopeOwners as) := by
  have habove : as ⊆ root.nodes := hn.above_mem_nodes
  unfold targetIn?
  simp only [← h.declared]
  exact h.findSome?_iff hd hu.chain (List.Subset.trans (scopeOwners_subset as) habove) hu.params
    (List.Subset.trans (parameterOwners_subset n as) habove)

/-! ## What is recorded -/

/-- A binding lists the uses that resolve to it. -/
theorem Collected.mem_listed (h : Collected root t) {s : Nat} {x : String} {b : Binding}
    (hb : t.bindingAt? s x = some b) (access : Access) (i : Nat) :
    i ∈ b.listed access ↔ ∃ u ∈ usesIn root,
      u.access = access ∧ u.node = i ∧ u.name = x ∧ targetIn? (placementsOf root) u = some s := by
  cases access with
  | read => exact h.references hb i
  | write => exact h.mutations hb i

/-- A binding lists the identifiers of which it is the nearest binding. -/
theorem Collected.mem_listed_iff (h : Collected root t) (ht : ModuleTree root items) {s : Nat}
    {x : String} {b : Binding} (hb : t.bindingAt? s x = some b) (access : Access) (i : Nat) :
    i ∈ b.listed access ↔ ∃ n as, root.Ancestors n as ∧ n.id = i ∧ n.name? = some x ∧
      IsAccessed root n as access ∧
        ∃ b', t.Nearest (parameterOwners n as) x s b' (scopeOwners as) := by
  rw [h.mem_listed hb]
  constructor
  · rintro ⟨u, hu, rfl, rfl, rfl, htarget⟩
    obtain ⟨n, as, hn, hat⟩ := exists_site_of_use ht hu
    exact ⟨n, as, hn, hat.node.symm, hat.name, hat.accessed,
      (h.targetIn?_iff ht.distinct hn hat).mp htarget⟩
  · rintro ⟨n, as, hn, rfl, hx, haccess, hnearest⟩
    obtain ⟨u, hu, rfl, hat⟩ := exists_use_of_site ht hn hx haccess
    obtain rfl : u.name = x := Option.some.inj (hat.name.symm.trans hx)
    exact ⟨u, hu, rfl, hat.node, rfl, (h.targetIn?_iff ht.distinct hn hat).mpr hnearest⟩

/-- The globals are the identifiers that have no nearest binding. -/
theorem Collected.mem_globals_iff (h : Collected root t) (ht : ModuleTree root items) (i : Nat) :
    i ∈ t.globals ↔ ∃ n as x access, root.Ancestors n as ∧ n.id = i ∧ n.name? = some x ∧
      IsAccessed root n as access ∧
        ∀ s b, ¬ t.Nearest (parameterOwners n as) x s b (scopeOwners as) := by
  have hnone : ∀ {u : Use} {n : Node} {as : List Node}, root.Ancestors n as → u.At root n as →
      (targetIn? (placementsOf root) u = none ↔
        ∀ s b, ¬ t.Nearest (parameterOwners n as) u.name s b (scopeOwners as)) := by
    intro u n as hn hat
    rw [Option.eq_none_iff_forall_ne_some]
    refine forall_congr' fun s => ?_
    rw [ne_eq, h.targetIn?_iff ht.distinct hn hat, not_exists]
  rw [h.globals]
  constructor
  · rintro ⟨u, hu, rfl, htarget⟩
    obtain ⟨n, as, hn, hat⟩ := exists_site_of_use ht hu
    exact ⟨n, as, u.name, u.access, hn, hat.node.symm, hat.name, hat.accessed,
      (hnone hn hat).mp htarget⟩
  · rintro ⟨n, as, x, access, hn, rfl, hx, haccess, hnearest⟩
    obtain ⟨u, hu, -, hat⟩ := exists_use_of_site ht hn hx haccess
    obtain rfl : u.name = x := Option.some.inj (hat.name.symm.trans hx)
    exact ⟨u, hu, hat.node, (hnone hn hat).mpr hnearest⟩

/-- Two nearest bindings of an identifier are in the same scope. -/
theorem Collected.nearest_scope (h : Collected root t) (hd : root.Distinct) {listing : List Node}
    {x : String} {s s' : Nat} {b b' : Binding} {owners : List Node}
    (hb : t.Nearest listing x s b owners) (hb' : t.Nearest listing x s' b' owners) : s = s' := by
  have hscope : ∀ {owner : Node} {s : Nat} {b : Binding}, t.Shows listing x owner s b →
      (openersOf root)[s]? = some owner.id := by
    intro owner s b hshows
    rw [h.getElem?_openersOf, Option.map_eq_some_iff]
    exact hshows.scope
  induction hb with
  | here hshows =>
    rcases hb' with hshows' | ⟨hnone, -⟩
    · exact scope_unique hd (hscope hshows) (hscope hshows')
    · exact absurd hshows (hnone s b)
  | outer hnone _ ih =>
    rcases hb' with hshows' | ⟨-, hb'⟩
    · exact absurd hshows' (hnone s' b')
    · exact ih hb'

theorem ScopeTree.Nearest.bindingAt? {listing : List Node} {x : String} {s : Nat} {b : Binding}
    {owners : List Node} (h : t.Nearest listing x s b owners) : t.bindingAt? s x = some b := by
  induction h with
  | here hshows => exact hshows.binding
  | outer _ _ ih => exact ih

/-! ## Where an identifier is recorded -/

/-- Whether an identifier that stands below some nodes is recorded. -/
structure IsSite (root n : Node) (as : List Node) (x : String) : Prop where
  /-- It stands below these nodes in the tree. -/
  place : root.Ancestors n as
  /-- It spells the name. -/
  name : n.name? = some x
  /-- It is read or written. -/
  accessed : IsReadBelow n as ∨ IsWritten root n

variable {n : Node} {as : List Node} {x : String}

theorem isSite_iff : IsSite root n as x ↔
    root.Ancestors n as ∧ n.name? = some x ∧ ∃ access, IsAccessed root n as access := by
  constructor
  · rintro ⟨hn, hx, ha | ha⟩
    · exact ⟨hn, hx, .read, ha⟩
    · exact ⟨hn, hx, .write, ha⟩
  · rintro ⟨hn, hx, _ | _, ha⟩
    · exact ⟨hn, hx, .inl ha⟩
    · exact ⟨hn, hx, .inr ha⟩

/-- A node is known by its number, with all that is said of it. -/
theorem IsSite.eq_of_id (h : IsSite root n as x) (hd : root.Distinct) {n' : Node} {as' : List Node}
    {y : String} (hn : root.Ancestors n' as') (hy : n'.name? = some y) (hid : n'.id = n.id) :
    n' = n ∧ as' = as ∧ y = x := by
  obtain rfl := hd.eq_of_id hn.mem_nodes h.place.mem_nodes hid
  exact ⟨rfl, hn.unique hd h.place, Option.some.inj (hy.symm.trans h.name)⟩

/-- A binding lists an identifier if it is the nearest one of the name and the identifier makes the
access. -/
theorem Collected.listed_iff (h : Collected root t) (ht : ModuleTree root items)
    (hsite : IsSite root n as x) {s : Nat} {y : String} {b : Binding}
    (hb : t.bindingAt? s y = some b) (access : Access) :
    n.id ∈ b.listed access ↔ y = x ∧ IsAccessed root n as access ∧
      ∃ b', t.Nearest (parameterOwners n as) x s b' (scopeOwners as) := by
  rw [h.mem_listed_iff ht hb]
  constructor
  · rintro ⟨n', as', hn', hid, hy, ha, hnearest⟩
    obtain ⟨rfl, rfl, rfl⟩ := hsite.eq_of_id ht.distinct hn' hy hid
    exact ⟨rfl, ha, hnearest⟩
  · rintro ⟨rfl, ha, hnearest⟩
    exact ⟨n, as, hsite.place, rfl, hsite.name, ha, hnearest⟩

/-- An identifier is a global if its name has no nearest binding. -/
theorem Collected.global_iff (h : Collected root t) (ht : ModuleTree root items)
    (hsite : IsSite root n as x) : n.id ∈ t.globals ↔
      ∀ s b, ¬ t.Nearest (parameterOwners n as) x s b (scopeOwners as) := by
  rw [h.mem_globals_iff ht]
  constructor
  · rintro ⟨n', as', y, access, hn', hid, hy, -, hnone⟩
    obtain ⟨rfl, rfl, rfl⟩ := hsite.eq_of_id ht.distinct hn' hy hid
    exact hnone
  · intro hnone
    obtain ⟨hn, hx, access, ha⟩ := isSite_iff.mp hsite
    exact ⟨n, as, x, access, hn, rfl, hx, ha, hnone⟩

end

/-- Whether every identifier that is read or written is recorded in one place, with the nearest
binding of its name or as a global, and nothing else is recorded. -/
structure Partitioned (root : Node) (t : ScopeTree) : Prop where
  /-- An identifier whose name has a nearest binding is listed there, for what is done with it, and
  is recorded nowhere else. -/
  bound : ∀ n as x s b, IsSite root n as x →
    t.Nearest (parameterOwners n as) x s b (scopeOwners as) →
      t.bindingAt? s x = some b ∧ (n.id ∈ b.references ↔ IsReadBelow n as) ∧
      (n.id ∈ b.mutations ↔ IsWritten root n) ∧ n.id ∉ t.globals ∧
      ∀ s' y b', t.bindingAt? s' y = some b' → n.id ∈ b'.references ∨ n.id ∈ b'.mutations →
        s' = s ∧ y = x
  /-- Any other identifier is a global, and no binding lists it. -/
  unbound : ∀ n as x, IsSite root n as x →
    (∀ s b, ¬ t.Nearest (parameterOwners n as) x s b (scopeOwners as)) →
      n.id ∈ t.globals ∧
      ∀ s y b, t.bindingAt? s y = some b → n.id ∉ b.references ∧ n.id ∉ b.mutations
  /-- Only these identifiers are recorded. -/
  only : ∀ i, i ∈ t.globals ∨
      (∃ s y b, t.bindingAt? s y = some b ∧ (i ∈ b.references ∨ i ∈ b.mutations)) →
    ∃ n as x, IsSite root n as x ∧ n.id = i
  /-- No list has a node twice. -/
  once : t.ListsOnce
  /-- No scope has a name twice. -/
  keyed : t.Keyed

/-- Collecting records every use in one place. -/
theorem sites_partitioned {source file : String} {root : Node} {t : ScopeTree}
    (hparse : parseModule source file = .ok root) (hcollect : collect root = .ok t) :
    Partitioned root t := by
  obtain ⟨items, ht⟩ := ModuleTree.of_parseTree (mapError_eq_ok.mp hparse)
  have hc := collected hcollect
  refine ⟨fun n as x s b hsite hnearest => ?_, fun n as x hsite hnone => ?_, fun i hi => ?_,
    listsOnce_collect hcollect, keyed_collect hcollect⟩
  · have hb := hnearest.bindingAt?
    have haccess : ∀ access, n.id ∈ b.listed access ↔ IsAccessed root n as access := fun access =>
      (hc.listed_iff ht hsite hb access).trans
        ⟨fun h => h.2.1, fun ha => ⟨rfl, ha, b, hnearest⟩⟩
    have hother : ∀ s' y b' access, t.bindingAt? s' y = some b' → n.id ∈ b'.listed access →
        s' = s ∧ y = x := by
      intro s' y b' access hb' hmem
      obtain ⟨rfl, -, b2, hnearest'⟩ := (hc.listed_iff ht hsite hb' access).mp hmem
      exact ⟨hc.nearest_scope ht.distinct hnearest' hnearest, rfl⟩
    refine ⟨hb, haccess .read, haccess .write, fun hglobal => ?_, fun s' y b' hb' hmem => ?_⟩
    · exact (hc.global_iff ht hsite).mp hglobal s b hnearest
    · exact hmem.elim (hother s' y b' .read hb') (hother s' y b' .write hb')
  · have hunlisted : ∀ s y b access, t.bindingAt? s y = some b → n.id ∉ b.listed access := by
      intro s y b access hb hmem
      obtain ⟨-, -, b', hnearest⟩ := (hc.listed_iff ht hsite hb access).mp hmem
      exact hnone s b' hnearest
    exact ⟨(hc.global_iff ht hsite).mpr hnone, fun s y b hb =>
      ⟨hunlisted s y b .read hb, hunlisted s y b .write hb⟩⟩
  · have hlisted : ∀ s y b access, t.bindingAt? s y = some b → i ∈ b.listed access →
        ∃ n as x, IsSite root n as x ∧ n.id = i := by
      intro s y b access hb hmem
      obtain ⟨n, as, hn, hid, hx, ha, -⟩ := (hc.mem_listed_iff ht hb access i).mp hmem
      exact ⟨n, as, y, isSite_iff.mpr ⟨hn, hx, access, ha⟩, hid⟩
    rcases hi with hi | ⟨s, y, b, hb, hi | hi⟩
    · obtain ⟨n, as, x, access, hn, hid, hx, ha, -⟩ := (hc.mem_globals_iff ht i).mp hi
      exact ⟨n, as, x, isSite_iff.mpr ⟨hn, hx, access, ha⟩, hid⟩
    · exact hlisted s y b .read hb hi
    · exact hlisted s y b .write hb hi

/-- How many identifiers read and write a variable of a scope. -/
def usesAt (t : ScopeTree) (s : Nat) (x : String) : Option (Nat × Nat) :=
  (t.bindingAt? s x).map fun b => (b.references.length, b.mutations.length)

/-- A default reads the outer one of two variables, and the body writes the inner one. -/
theorem sites_partitioned_default : ∃ root t,
    parseModule "let c; function f(a = c) { var c; c = a; g; }" "test.js" = .ok root ∧
      collect root = .ok t ∧ Partitioned root t ∧ usesAt t 0 "c" = some (1, 0) ∧
      usesAt t 1 "c" = some (0, 1) ∧ t.globals.length = 1 := by
  have hok : ((parseModule "let c; function f(a = c) { var c; c = a; g; }" "test.js").mapError
      (fun _ => ()) >>= fun root => (collect root).mapError (fun _ => ()) >>= fun t =>
        .ok (usesAt t 0 "c", usesAt t 1 "c", t.globals.length)) =
          .ok (some (1, 0), some (0, 1), 1) := by
    decide +kernel
  obtain ⟨root, hparse, h⟩ := bind_eq_ok.mp hok
  obtain ⟨t, hcollect, h⟩ := bind_eq_ok.mp h
  rw [mapError_eq_ok] at hparse hcollect
  obtain ⟨houter, h⟩ := Prod.mk.inj (Except.ok.inj h)
  obtain ⟨hinner, hglobals⟩ := Prod.mk.inj h
  exact ⟨root, t, hparse, hcollect, sites_partitioned hparse hcollect, houter, hinner, hglobals⟩

end EsModule.Scope
