import EsModule.Proofs.Compile.Wrapped
import EsModule.Proofs.Scope.Mirror

/-!
# The walk over what became of a node

A node that stays has its kind over what became of its children, so the walk over it does what it
did. A use of an imported name becomes an expression with new nodes, which opens nothing and
declares nothing: only the use is gone. `import()` and `import.meta` become expressions of the same
sort. `Becomes.mirrored` puts this together by induction on what becomes of a node. The steps know
nodes by their numbers, so it takes two more facts, which the induction carries along: the nodes of
the module keep their numbers (`Carries`), and no number below what becomes of a node is an old one
unless it was below the node (`Grown`).
-/

namespace EsModule.Compile

open EsModule.Syntax EsModule.Scope

/-! ## Names -/

/-- Whether the nodes that are gone are those that use an imported name. -/
structure Drops (uses : Nat → Reading → Prop) (gone : Nat → Bool) (root : Node) : Prop where
  /-- What is gone is a use. -/
  iff : ∀ i, gone i = true ↔ ∃ r, uses i r
  /-- Uses are identifiers. -/
  name : ∀ n ∈ root.nodes, gone n.id = true → n.name?.isSome = true
  /-- They are not read as variables. -/
  plain : ∀ i x, ¬ uses i (.variable x)

theorem ReadBy.isInert {r : Reading} {kind : Kind Node} (h : ReadBy r kind)
    (hr : ∀ x, r ≠ .variable x) : isInert kind = true := by
  cases h with
  | «variable» => exact absurd rfl (hr _)
  | member => rfl
  | namespaceOf => rfl

theorem name?_of_isInert {n : Node} (h : isInert n.kind = true) : n.name? = none := by
  unfold Node.name?
  generalize n.kind = kind at h
  cases kind <;> first | rfl | cases h

section

variable {root n n' : Node} {uses : Nat → Reading → Prop} {gone : Nat → Bool}

/-- What a node binds is told by its children. If it stays, it binds what is left of what these
bind. -/
theorem thinned_same {f : Node → Node} (hkept : gone n.id = false)
    (hchild : ∀ c ∈ n.kind.children, Thinned gone [c] [f c] ∧
      Thinned gone c.bound.target (f c).bound.target ∧
      Thinned gone c.bound.member (f c).bound.member) :
    Thinned gone [n] [.mk n.id n.span (n.kind.map f)] ∧
      Thinned gone n.bound.target (Node.mk n.id n.span (n.kind.map f)).bound.target ∧
      Thinned gone n.bound.member (Node.mk n.id n.span (n.kind.map f)).bound.member := by
  have hself : Thinned gone [n] [.mk n.id n.span (n.kind.map f)] := by
    have hname : Node.name? (.mk n.id n.span (n.kind.map f)) = n.name? := by
      obtain ⟨id, span, kind⟩ := n
      cases kind <;> rfl
    unfold Thinned named
    rw [List.filterMap_cons, List.filterMap_cons, hname]
    cases n.name? with
    | none => rfl
    | some x =>
      change [(n.id, x)] = [(n.id, x)].filter fun q => !gone q.1
      simp [hkept]
  have htarget : Thinned gone (targetsOf n) (targetsOf (.mk n.id n.span (n.kind.map f))) := by
    obtain ⟨id, span, kind⟩ := n
    cases kind
    case identifier => exact hself
    case objectPattern => exact .flatMap fun a ha => (hchild a ha).2.2
    case arrayPattern =>
      exact .holes fun a ha => (hchild a (List.mem_filterMap.mpr ⟨some a, ha, rfl⟩)).2.1
    case restElement => exact (hchild _ (List.mem_singleton_self _)).2.1
    case assignmentPattern => exact (hchild _ List.mem_cons_self).2.1
    case variableDeclaration => exact .flatMap fun a ha => (hchild a ha).2.1
    case variableDeclarator => exact (hchild _ List.mem_cons_self).2.1
    case functionDeclaration =>
      refine .option fun a ha => (hchild a ?_).1
      simp [Node.kind, Kind.children, Function.children, ha]
    case classDeclaration =>
      refine .option fun a ha => (hchild a ?_).1
      simp [Node.kind, Kind.children, Class.children, ha]
    all_goals rfl
  rw [← target_eq, ← target_eq] at htarget
  refine ⟨hself, htarget, ?_⟩
  rw [member_eq n, member_eq]
  obtain ⟨id, span, kind⟩ := n
  cases kind
  case property => exact (hchild _ (List.mem_cons_of_mem _ (List.mem_singleton_self _))).2.1
  all_goals exact htarget

/-- What a rewritten node binds is what the node bound, without the uses of imported names. -/
theorem Becomes.thinned {n n' : Node} (h : Becomes uses n n') (hd : Drops uses gone root)
    (hn : n ∈ root.nodes) : Thinned gone [n] [n'] ∧ Thinned gone n.bound.target n'.bound.target ∧
      Thinned gone n.bound.member n'.bound.member := by
  induction h with
  | @read n r kind hu hr =>
    -- the name goes
    have hgone : gone n.id = true := (hd.iff _).mpr ⟨r, hu⟩
    have hname := hd.name n hn hgone
    have hnothing : Thinned gone [n] [] := by
      obtain ⟨x, hx⟩ := Option.isSome_iff_exists.mp hname
      simp [Thinned, named, hx, hgone]
    obtain ⟨htarget, hmember⟩ := name?_of_targetsOf hname
    rw [htarget, hmember]
    cases hr with
    | «variable» => exact absurd hu (hd.plain _ _)
    | member => exact ⟨hnothing, hnothing, hnothing⟩
    | namespaceOf => exact ⟨hnothing, hnothing, hnothing⟩
  | @dynamicImport n source source' callee hk hc h ih =>
    obtain ⟨id, span, kind⟩ := n
    obtain rfl : kind = _ := hk
    exact ⟨rfl, rfl, rfl⟩
  | @importMeta n kind hk hr =>
    obtain ⟨id, span, kind⟩ := n
    obtain rfl : kind = _ := hk
    cases hr
    exact ⟨rfl, rfl, rfl⟩
  | @same n f hu hs h ih =>
    have hchild := fun c hc => ih c hc (Node.mem_nodes_below hn hc)
    have hkept : gone n.id = false := by
      rw [← Bool.not_eq_true, hd.iff]
      exact not_exists.mpr hu
    exact thinned_same hkept hchild

/-! ## Numbers -/

theorem Becomes.idsOf_subset (h : Becomes uses n n') (hd : Drops uses gone root)
    (hn : n ∈ root.nodes) : idsOf [n] ⊆ idsOf [n'] := by
  induction h with
  | @read n r kind hu hr =>
    have hname := hd.name n hn ((hd.iff _).mpr ⟨r, hu⟩)
    rw [idsOf_singleton, idsOf_singleton, children_of_name? hname]
    exact List.cons_subset_cons _ (List.nil_subset _)
  | @dynamicImport n source source' callee hk hc h ih =>
    have hchild : source ∈ n.kind.children := by
      rw [hk]
      exact List.mem_singleton_self source
    rw [idsOf_singleton, idsOf_singleton, hk]
    refine List.cons_subset_cons _ ?_
    change idsOf [source] ⊆ idsOf [callee, source']
    rw [idsOf_cons callee]
    exact List.subset_append_of_subset_right _ (ih (Node.mem_nodes_below hn hchild))
  | @importMeta n kind hk hr =>
    rw [idsOf_singleton, idsOf_singleton, hk]
    exact List.cons_subset_cons _ (List.nil_subset _)
  | @same n f hu hs h ih =>
    rw [idsOf_singleton, idsOf_singleton]
    refine List.cons_subset_cons _ ?_
    change _ ⊆ idsOf (n.kind.map f).children
    rw [Kind.children_map]
    intro i hi
    obtain ⟨c, hc, m, hm, rfl⟩ := mem_idsOf.mp hi
    have hsub := ih c hc (Node.mem_nodes_below hn hc)
      (mem_idsOf.mpr ⟨c, List.mem_singleton_self c, m, hm, rfl⟩)
    obtain ⟨_, hc', m', hm', hid⟩ := mem_idsOf.mp hsub
    obtain rfl := List.mem_singleton.mp hc'
    exact mem_idsOf.mpr ⟨f c, List.mem_map_of_mem hc, m', hm', hid⟩

/-- Whether a tree took the place of another one, and no number below its root is an old one that is
not below the root of the other. -/
structure Grown (old : Nat → Prop) (n n' : Node) : Prop where
  /-- The nodes of the other tree have different numbers, -/
  before : n.Distinct
  /-- and so have the new ones. -/
  after : n'.Distinct
  /-- Old numbers are those of the other tree. -/
  mem : ∀ i ∈ idsOf n'.kind.children, old i → i ∈ idsOf n.kind.children

theorem mem_idsOf_singleton {i : Nat} : i ∈ idsOf [n] ↔ ∃ m ∈ n.nodes, m.id = i := by
  simp [mem_idsOf]

theorem id_not_mem_below (h : n.Distinct) : n.id ∉ idsOf n.kind.children := by
  have hnodup : (idsOf [n]).Nodup := by
    rw [idsOf_eq]
    exact h
  rw [idsOf_singleton, List.nodup_cons] at hnodup
  exact hnodup.1

namespace Grown

variable {old : Nat → Prop} {f : Node → Node}

/-- An old number below a child is one of the child that it took the place of. -/
theorem exists_child (h : Grown old n n')
    (hf : ∀ c ∈ n.kind.children, f c ∈ n'.kind.children ∧ idsOf [c] ⊆ idsOf [f c]) {c' : Node}
    (hc' : c' ∈ n'.kind.children) {i : Nat} (hi : i ∈ idsOf [c']) (hold : old i) :
    ∃ c ∈ n.kind.children, c' = f c ∧ i ∈ idsOf [c] := by
  obtain ⟨k, hk, rfl⟩ := mem_idsOf_singleton.mp hi
  obtain ⟨c, hc, m, hm, hid⟩ := mem_idsOf.mp (h.mem k.id (mem_idsOf.mpr ⟨c', hc', k, hk, rfl⟩) hold)
  have hkc : k.id ∈ idsOf [c] := mem_idsOf_singleton.mpr ⟨m, hm, hid⟩
  obtain ⟨hfc, hsub⟩ := hf c hc
  -- the number is below the child of the new tree too, and it is there only once
  obtain ⟨l, hl, hlid⟩ := mem_idsOf_singleton.mp (hsub hkc)
  obtain rfl := h.after.eq_of_id (Node.mem_nodes_of_child hc' hk) (Node.mem_nodes_of_child hfc hl)
    hlid.symm
  exact ⟨c, hc, h.after.eq_child hc' hfc hk hl, hkc⟩

theorem child (h : Grown old n n')
    (hf : ∀ c ∈ n.kind.children, f c ∈ n'.kind.children ∧ idsOf [c] ⊆ idsOf [f c]) {c : Node}
    (hc : c ∈ n.kind.children) (hids : ∀ c ∈ n.kind.children, (f c).id = c.id) :
    Grown old c (f c) where
  before := h.before.child hc
  after := h.after.child (hf c hc).1
  mem := by
    intro i hi hold
    have hself : i ∈ idsOf [f c] := by
      rw [idsOf_singleton]
      exact List.mem_cons_of_mem _ hi
    obtain ⟨d, hd, heq, hmem⟩ := h.exists_child hf (hf c hc).1 hself hold
    have hid : c.id = d.id := by rw [← hids c hc, heq, hids d hd]
    obtain rfl := h.before.eq_of_id (Node.mem_nodes_of_child hc c.mem_nodes_self)
      (Node.mem_nodes_of_child hd d.mem_nodes_self) hid
    rw [idsOf_singleton, List.mem_cons] at hmem
    refine hmem.resolve_left ?_
    rintro rfl
    rw [← hids c hc] at hi
    exact id_not_mem_below (h.after.child (hf c hc).1) hi

end Grown

/-! ## The walk -/

/-- What becomes of a node opens a scope and declares variables as the node does. -/
theorem Becomes.plain (h : Becomes uses n n') (hd : Drops uses gone root) (hn : n ∈ root.nodes) :
    (∀ parent, opensScope n' parent = opensScope n parent) ∧
      isVariableDeclaration n' = isVariableDeclaration n := by
  have hinert : ∀ {m m' : Node}, isInert m'.kind = true →
      isInert m.kind = true ∨ m.name?.isSome = true →
      (∀ parent, opensScope m' parent = opensScope m parent) ∧
        isVariableDeclaration m' = isVariableDeclaration m := by
    intro m m' hm' hm
    obtain ⟨hscope', hvariable'⟩ := plain_of_isInert hm'
    obtain ⟨hscope, hvariable⟩ := hm.elim plain_of_isInert plain_of_name?
    exact ⟨fun parent => (hscope' parent).trans (hscope parent).symm,
      hvariable'.trans hvariable.symm⟩
  cases h with
  | @read _ r kind hu hr =>
    have hr' := hr.isInert fun x hx => hd.plain _ x (hx ▸ hu)
    exact hinert hr' (.inr (hd.name n hn ((hd.iff _).mpr ⟨r, hu⟩)))
  | dynamicImport hk => exact hinert rfl (.inl (by rw [hk]; rfl))
  | importMeta hk hr => exact hinert (hr.isInert nofun) (.inl (by rw [hk]; rfl))
  | same => exact ⟨opensScope_map rfl, isVariableDeclaration_map rfl⟩

/-- The names that the expression for a reading reads. -/
def Reading.names : Reading → List String
  | .variable name => [name]
  | .member handle _ => [handle]
  | .namespaceOf handle => [Capability.namespaceOf.name, handle]

/-- They are all that is read below it. The key of a member is not. -/
theorem ReadBy.mem_names {r : Reading} {n c : Node} {g : Option Node} {x : String}
    (h : ReadBy r n.kind) (hc : c ∈ n.kind.children) (hread : isRead c n g = true)
    (hx : c.name? = some x) : x ∈ r.names := by
  generalize hk : n.kind = kind at h hc
  cases h with
  | «variable» => cases hc
  | @member handle name object key ho hkey =>
    change c ∈ [object, key] at hc
    simp only [List.mem_cons, List.not_mem_nil, or_false] at hc
    rcases hc with rfl | rfl
    · rw [Node.name?, ho] at hx
      obtain rfl := Option.some.inj hx
      exact List.mem_singleton_self _
    · unfold IsKey at hkey
      split at hkey
      · rename_i hname
        have hkeyed : isReferenced c n g = false := by
          rw [isReferenced, hk]
          simp [same, hname]
        rw [isRead_eq, hkeyed, Bool.and_false] at hread
        cases hread
      · rw [Node.name?, hkey] at hx
        cases hx
  | @namespaceOf handle callee argument hcallee hargument =>
    change c ∈ [callee, argument] at hc
    simp only [List.mem_cons, List.not_mem_nil, or_false] at hc
    rcases hc with rfl | rfl
    · rw [Node.name?, hcallee] at hx
      obtain rfl := Option.some.inj hx
      exact List.mem_cons_self
    · rw [Node.name?, hargument] at hx
      obtain rfl := Option.some.inj hx
      exact List.mem_cons_of_mem _ (List.mem_singleton_self _)

/-- Whether an embedding leaves the names of a module in their places. -/
structure Carries (w : Embedding) (uses : Nat → Reading → Prop) (root : Node) : Prop where
  /-- What is gone are the uses of imported names. -/
  drops : Drops uses w.gone root
  /-- Names have the numbers that they had. -/
  names : ∀ n ∈ root.nodes, n.name?.isSome = true → w.moved n.id = n.id
  /-- So have the nodes below the items. -/
  below : ∀ n ∈ root.nodes, n.isTop = false → ∀ c ∈ n.kind.children, w.moved c.id = c.id
  /-- Declared names are kept. -/
  declared : ∀ n ∈ root.nodes, Kept w (declaredIdentifiers n)
  /-- So are those of single variables. -/
  declarators : ∀ n ∈ root.nodes, ∀ kind ds, n.kind = .variableDeclaration kind ds →
    ∀ d ∈ ds, Kept w d.boundIdentifiers
  /-- Imported names are read by names that are used besides, -/
  readings : ∀ i r, uses i r → ∀ x ∈ r.names, w.adds x
  /-- and so are the capabilities. -/
  capabilities : ∀ c : Capability, w.adds c.name

variable {w : Embedding}

theorem Becomes.renamed {c c' : Node} (h : Becomes uses c c') (hw : Carries w uses root)
    (hn : n ∈ root.nodes) (htop : n.isTop = false) (hc : c ∈ n.kind.children) :
    Renamed w c c' := by
  have hroot := Node.mem_nodes_below hn hc
  obtain ⟨hself, hbound, -⟩ := h.thinned hw.drops hroot
  exact ⟨h.id, hw.below n hn htop c hc, hself, hbound, (h.plain hw.drops hroot).2⟩

theorem IsLeaf.children (h : IsLeaf n) : n.kind.children = [] := by
  obtain ⟨_, hk⟩ | ⟨_, hk⟩ := h <;> rw [hk] <;> rfl

/-- Whether a node is a leaf that is no use in the module, below some node. -/
structure IsNew (w : Embedding) (above n : Node) : Prop where
  /-- It is a leaf. -/
  leaf : IsLeaf n
  /-- It is new. -/
  new : ¬ w.old n.id
  /-- If it is read there, its name is one of those that are used besides. -/
  read : ∀ g, isRead n above g = true → ∀ x, n.name? = some x → w.adds x

theorem IsNew.mirrored {above : Node} (h : IsNew w above n) (here : Surroundings)
    (hparent : here.parent = some above) (next : Nat) : w.Mirrored [] (n.steps here next) [] := by
  rw [steps_of_leaf h.leaf.children]
  refine Embedding.Mirrored.of_new fun e he => ?_
  obtain rfl := List.mem_singleton.mp he
  obtain ⟨x, hk⟩ | ⟨_, hk⟩ := h.leaf
  · have hname : n.name? = some x := by rw [Node.name?, hk]
    have hsome : n.name?.isSome = true := by rw [hname]; rfl
    rw [step_of_name hsome]
    refine ⟨rfl, rfl, fun u hu => ⟨?_, ?_⟩⟩
    · rw [node_of_mem_usesOf hsome hu]
      exact h.new
    · -- a leaf writes nothing, so it is read
      rcases mem_usesOf.mp hu with ⟨y, p, hy, hp, hread, rfl⟩ | ⟨i, hi, -⟩
      · obtain rfl := Option.some.inj (hparent.symm.trans hp)
        exact h.read _ hread y hy
      · rw [writes_of_name? hsome] at hi
        cases hi
  · rw [step_of_isInert (by rw [hk]; rfl)]
    exact ⟨rfl, rfl, fun _ hu => absurd hu List.not_mem_nil⟩

theorem mirrored_leaves {above : Node} (place : Bool → Surroundings)
    (hplace : ∀ isParam, (place isParam).parent = some above) {cs : List (Bool × Node)}
    (h : ∀ c ∈ cs, IsNew w above c.2) (next : Nat) :
    w.Mirrored [] (stepsOfAll (cs.map fun (isParam, c) => (place isParam, c.steps)) next) [] := by
  induction cs generalizing next with
  | nil => exact .nil
  | cons c cs ih =>
    have hc := h c List.mem_cons_self
    exact (hc.mirrored _ (hplace c.1) _).append (ih (fun d hd => h d (List.mem_cons_of_mem _ hd)) _)

theorem Becomes.thinned_moved (h : Becomes uses n n') (hw : Carries w uses root)
    (hn : n ∈ root.nodes) {n'' : Node} (hkind : n''.kind = n'.kind) (hid : n''.id = w.moved n.id) :
    Thinned w.gone [n] [n''] := by
  have hsame : named [n''] = named [n'] := by
    have hname : n''.name? = n'.name? := by
      unfold Node.name?
      rw [hkind]
    cases hx : n'.name? with
    | none => simp [named, hname, hx]
    | some x =>
      obtain rfl := h.eq_of_name? hw.drops.plain (by rw [hx]; rfl)
      simp [named, hname, hx, hid, hw.names n' hn (by rw [hx]; rfl)]
  unfold Thinned
  rw [hsame]
  exact (h.thinned hw.drops hn).1

/-- A node that becomes one with new leaves below does nothing any longer. -/
theorem mirrored_read {n'' : Node} {here here' : Surroundings} (hm : w.Matches here here' n n'')
    (hid : n''.id = w.moved n.id) (hinert : isInert n''.kind = true)
    (hn : isInert n.kind = true ∨ n.name?.isSome = true ∧ w.gone n.id = true)
    (hchildren : n.kind.children = [])
    (hleaves : ∀ c ∈ n''.kind.children, IsNew w n'' c) (next next' : Nat) :
    w.Mirrored (n.steps here next) (n''.steps here' next') [] := by
  rw [steps_eq, steps_eq, visited_eq_nil hchildren]
  exact .both (hm.mirrors_inert hid hinert hn _ _)
    (mirrored_leaves _ (fun _ => rfl) (fun c hc => hleaves c.2 (mem_of_visited hc)) _)

/-- Where the source of an import at run time stands in the call that the import becomes. -/
theorem below_call {n'' source source' callee : Node} {here here' : Surroundings}
    (hm : w.Matches here here' n n'') (hk : n.kind = .importExpression source)
    (hk'' : n''.kind = .callExpression callee [source'] false) {next : Nat} (hnext : next ≠ 0)
    (hopens : opensScope source' (some n'') = opensScope source (some n''))
    (hname : source'.name?.isSome = true → source' = source) :
    w.Matches (here.below n next false) (here'.below n'' (next + w.opened) false) source
      source' := by
  refine hm.below hnext false (hopens.trans (opensScope_congr ?_)) (fun h => ?_) ?_
  · rw [hk, hk'']
    rfl
  · rw [hname h, isRead_eq, isRead_eq, isReferenced, isReferenced, hk, hk'']
    rfl
  · rw [isObjectPattern, isObjectPattern, hk, hk'']

/-- An import at run time becomes a call with the same source. -/
theorem mirrored_call {n'' source source' callee : Node} {here here' : Surroundings}
    (hm : w.Matches here here' n n'') (hid : n''.id = w.moved n.id)
    (hk : n.kind = .importExpression source)
    (hk'' : n''.kind = .callExpression callee [source'] false) (hnew : IsNew w n'' callee)
    {next next' : Nat}
    (h : w.Mirrored (source.steps (here.below n next false) next)
      (source'.steps (here'.below n'' next' false) next') []) :
    w.Mirrored (n.steps here next) (n''.steps here' next') [] := by
  have hinert : isInert n.kind = true := by
    rw [hk]
    rfl
  have hinert'' : isInert n''.kind = true := by
    rw [hk'']
    rfl
  have hcallee := hnew.mirrored (here'.below n'' next' false) rfl next'
  rw [steps_of_not_opens (opens_of_isInert hinert) (show _ = [source].map _ by rw [hk]; rfl),
    List.map_singleton, stepsOfAll_singleton, steps_of_not_opens (opens_of_isInert hinert'')
      (show _ = [callee, source'].map _ by rw [hk'']; rfl)]
  refine .both (hm.mirrors_inert hid hinert'' (.inl hinert) _ _) (hcallee.append ?_)
  rwa [hcallee.openings, List.map_singleton, stepsOfAll_singleton]

/-- What stands below a node that took the place of a leaf is new. -/
theorem Grown.new_below {old : Nat → Prop} (h : Grown old n n') (hchildren : n.kind.children = []) :
    ∀ c ∈ n'.kind.children, ¬ old c.id := by
  intro c hc hold
  obtain ⟨d, hd, -⟩ := h.exists_child (f := fun _ => c) (by simp [hchildren]) hc (id_mem_idsOf c)
    hold
  rw [hchildren] at hd
  cases hd

theorem Becomes.mirrored_dynamicImport {n'' source source' callee : Node}
    (h : Becomes uses source source') (hw : Carries w uses root) (hn : n ∈ root.nodes)
    (hk : n.kind = .importExpression source)
    (hkind : n''.kind = .callExpression callee [source'] false)
    (hcallee : callee.kind = .identifier Capability.dynamicImport.name) (hg : Grown w.old n n'')
    (hid : n''.id = w.moved n.id) {here here' : Surroundings} (hm : w.Matches here here' n n'')
    {next : Nat} (hnext : next ≠ 0)
    (hbelow : ∀ {here here' : Surroundings}, Grown w.old source source' →
      w.Matches here here' source source' →
      w.Mirrored (source.steps here next) (source'.steps here' (next + w.opened)) []) :
    w.Mirrored (n.steps here next) (n''.steps here' (next + w.opened)) [] := by
  have hchildren : n.kind.children = [source] := by
    rw [hk]
    rfl
  have hchildren' : n''.kind.children = [callee, source'] := by
    rw [hkind]
    rfl
  have hsource : source ∈ n.kind.children := hchildren ▸ List.mem_singleton_self source
  have hroot := Node.mem_nodes_below hn hsource
  have hf : ∀ c ∈ n.kind.children, source' ∈ n''.kind.children ∧ idsOf [c] ⊆ idsOf [source'] := by
    rw [hchildren, hchildren']
    intro c hc
    obtain rfl := List.mem_singleton.mp hc
    exact ⟨by simp, h.idsOf_subset hw.drops hroot⟩
  have hgrown : Grown w.old source source' :=
    hg.child (f := fun _ => source') hf hsource fun c hc => by
      rw [hchildren, List.mem_singleton] at hc
      rw [hc, h.id]
  -- else it would be the source, but the two stand beside each other
  have hold : ¬ w.old callee.id := by
    intro hold
    obtain ⟨_, -, heq, -⟩ := hg.exists_child (f := fun _ => source') hf (by simp [hchildren'])
      (id_mem_idsOf callee) hold
    have hnodup := hg.after.nodup_children
    simp [hchildren', heq] at hnodup
  have hplace := below_call hm hk hkind hnext ((h.plain hw.drops hroot).1 _) fun hname =>
    h.eq_of_name? hw.drops.plain hname
  refine mirrored_call hm hid hk hkind ⟨.inl ⟨_, hcallee⟩, hold, fun g _ x hx => ?_⟩
    (hbelow hgrown hplace)
  rw [Node.name?, hcallee] at hx
  exact Option.some.inj hx ▸ hw.capabilities .dynamicImport

theorem Becomes.mirrored_same {n'' : Node} {f : Node → Node} (hu : ∀ r, ¬ uses n.id r)
    (hs : speaks n = false) (h : ∀ c ∈ n.kind.children, Becomes uses c (f c))
    (hw : Carries w uses root) (hn : n ∈ root.nodes) (htop : n.isTop = false)
    (hkind : n''.kind = n.kind.map f) (hg : Grown w.old n n'') (hid : n''.id = w.moved n.id)
    {here here' : Surroundings} (hm : w.Matches here here' n n'') {next : Nat} (hnext : next ≠ 0)
    (hbelow : ∀ c ∈ n.kind.children, ∀ {here here' : Surroundings} {next : Nat},
      Grown w.old c (f c) → w.Matches here here' c (f c) → next ≠ 0 →
      w.Mirrored (c.steps here next) ((f c).steps here' (next + w.opened)) []) :
    w.Mirrored (n.steps here next) (n''.steps here' (next + w.opened)) [] := by
  have hrenamed : ∀ c ∈ n.kind.children, Renamed w c (f c) := fun c hc =>
    (h c hc).renamed hw hn htop hc
  have hshape : Reshaped w f n n'' := ⟨hkind, hid, hrenamed⟩
  have hself := (Becomes.same hu hs h).thinned_moved hw hn hkind hid
  have hstep := hm.mirrors hnext hid (fun _ => by rw [hkind]; exact scopeKind_map _ _) htop
    (hshape.declarations htop (hw.declared n hn) (hw.declarators n hn)) hself hshape.writes
  have hf : ∀ c ∈ n.kind.children, f c ∈ n''.kind.children ∧ idsOf [c] ⊆ idsOf [f c] := by
    intro c hc
    rw [hkind, Kind.children_map]
    exact ⟨List.mem_map_of_mem hc, (h c hc).idsOf_subset hw.drops (Node.mem_nodes_below hn hc)⟩
  refine Embedding.mirrored_steps hnext hstep hm.opens (f := f) ?_ fun c hc isParam next' hnext' => ?_
  · rw [hkind]
    exact visited_map f n.kind
  · refine hbelow c hc (hg.child hf hc fun c hc => (hrenamed c hc).id)
      (hm.below hnext isParam ?_ ?_ ?_) hnext'
    · rw [opensScope_map_parent hkind]
      exact ((h c hc).plain hw.drops (Node.mem_nodes_below hn hc)).1 _
    · intro hname
      rw [(h c hc).eq_of_name? hw.drops.plain hname, isRead_congr hm.pattern]
      exact isRead_map hkind (fun c hc => (hrenamed c hc).id) _
    · exact isObjectPattern_map hkind

/-- The walk over what becomes of a node does what the walk over the node did. -/
theorem Becomes.mirrored (h : Becomes uses n n') (hw : Carries w uses root) (hn : n ∈ root.nodes)
    (hplain : ∀ m ∈ n.nodes, m.isTop = false) {n'' : Node} (hg : Grown w.old n n'')
    (hkind : n''.kind = n'.kind) (hid : n''.id = w.moved n.id) {here here' : Surroundings}
    (hm : w.Matches here here' n n'') {next : Nat} (hnext : next ≠ 0) :
    w.Mirrored (n.steps here next) (n''.steps here' (next + w.opened)) [] := by
  have htop : n.isTop = false := hplain n n.mem_nodes_self
  induction h generalizing n'' here here' next with
  | @read n r kind hu hr =>
    have hgone : w.gone n.id = true := (hw.drops.iff _).mpr ⟨r, hu⟩
    have hname := hw.drops.name n hn hgone
    have hchildren := children_of_name? hname
    have hinert := hr.isInert fun x hx => hw.drops.plain _ x (hx ▸ hu)
    rw [← show n''.kind = kind from hkind] at hinert hr
    refine mirrored_read hm hid hinert (.inr ⟨hname, hgone⟩) hchildren (fun c hc => ?_) _ _
    exact ⟨hr.isLeaf c hc, hg.new_below hchildren c hc, fun g hread x hx =>
      hw.readings n.id r hu x (hr.mem_names hc hread hx)⟩
  | @importMeta n kind hk hr =>
    have hchildren : n.kind.children = [] := by
      rw [hk]
      rfl
    have hinert := hr.isInert nofun
    rw [← show n''.kind = kind from hkind] at hinert hr
    refine mirrored_read hm hid hinert (.inl (by rw [hk]; rfl)) hchildren (fun c hc => ?_) _ _
    refine ⟨hr.isLeaf c hc, hg.new_below hchildren c hc, fun g hread x hx => ?_⟩
    obtain rfl := List.mem_singleton.mp (hr.mem_names hc hread hx)
    exact hw.capabilities .importMeta
  | @dynamicImport n source source' callee hk hcallee h ih =>
    have hsource : source ∈ n.kind.children := by
      rw [hk]
      exact List.mem_singleton_self source
    have hplain' := fun m hm => hplain m (Node.mem_nodes_of_child hsource hm)
    refine h.mirrored_dynamicImport hw hn hk hkind hcallee hg hid hm hnext
      fun hgrown hplace => ?_
    exact ih (Node.mem_nodes_below hn hsource) hplain' hgrown rfl
      (h.id.trans (hw.below n hn htop source hsource).symm) hplace hnext
      (hplain' source source.mem_nodes_self)
  | @same n f hu hs h ih =>
    refine Becomes.mirrored_same hu hs h hw hn htop hkind hg hid hm hnext
      fun c hc _ _ _ hgrown hplace hnext' => ?_
    have hrenamed := (h c hc).renamed hw hn htop hc
    have hplain' := fun m hm => hplain m (Node.mem_nodes_of_child hc hm)
    exact ih c hc (Node.mem_nodes_below hn hc) hplain' hgrown rfl
      (hrenamed.id.trans hrenamed.stay.symm) hplace hnext' (hplain' c c.mem_nodes_self)

end

end EsModule.Compile
