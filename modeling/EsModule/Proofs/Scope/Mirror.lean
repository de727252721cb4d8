import EsModule.Proofs.Scope.Names

/-!
# The walk over a rewritten node

The walk asks a node for little: whether it opens a scope where it stands, what it declares, what it
writes, and whether it is read as a value. Rewriting keeps all of this but for names that are gone.
`Embedding.Matches` says that two places in two walks mean the same, and then the steps there mirror
each other (`Embedding.Matches.mirrors`), and so do the steps of the children
(`Embedding.mirrored_steps`).

Of the nodes above it a name only sees the nearest two, and of the second no more than whether it is
an object pattern. This is why a tree may be moved to another place at all (`steps_congr`).
-/

namespace EsModule.Scope

open EsModule.Syntax

/-- Whether a node takes an object apart. -/
def isObjectPattern (n : Node) : Bool :=
  match n.kind with
  | .objectPattern _ => true
  | _ => false

/-- Whether a node is read as a value where it stands. -/
def Surroundings.reads (here : Surroundings) (n : Node) : Bool :=
  here.parent.any fun parent => isRead n parent here.grandparent

/-- Whether a kind is one name of a list of exports. -/
def isExportSpecifier {α : Type} (kind : Kind α) : Bool :=
  match kind with
  | .exportSpecifier .. => true
  | _ => false

theorem isRead_eq (n p : Node) (g : Option Node) :
    isRead n p g = (n.name?.isSome && !isExportSpecifier p.kind && isReferenced n p g) := by
  unfold isRead Node.name? isExportSpecifier
  generalize n.kind = kind
  generalize p.kind = above
  cases kind
  case identifier => cases above <;> rfl
  all_goals rfl

theorem isReferenced_member {n p key value : Node} {kind : PropertyKind}
    {computed shorthand method : Bool}
    (hp : p.kind = .property key value kind computed shorthand method) (g : Option Node) :
    isReferenced n p g = if same key n then computed else !g.any isObjectPattern := by
  rw [isReferenced, hp]
  rcases g with _ | ⟨id, span, above⟩
  · rfl
  · cases above <;> rfl

/-- Of the node above its parent a name knows only whether it takes an object apart. -/
theorem isRead_congr {n p : Node} {g g' : Option Node}
    (hg : g'.any isObjectPattern = g.any isObjectPattern) : isRead n p g' = isRead n p g := by
  rw [isRead_eq, isRead_eq]
  cases hp : p.kind
  case property => rw [isReferenced_member hp, isReferenced_member hp, hg]
  case exportSpecifier => simp [isExportSpecifier]
  all_goals rw [isReferenced, isReferenced, hp]

/-- A name is read below a node whose children were replaced if it was read there before. -/
theorem isRead_map {n p p' : Node} {f : Node → Node} (hp : p'.kind = p.kind.map f)
    (hids : ∀ c ∈ p.kind.children, (f c).id = c.id) (g : Option Node) :
    isRead n p' g = isRead n p g := by
  have hsame : ∀ c ∈ p.kind.children, same (f c) n = same c n := by
    intro c hc
    rw [same, hids c hc, same]
  rw [isRead_eq, isRead_eq]
  unfold isReferenced isExportSpecifier
  rw [hp]
  generalize p.kind = kind at hsame
  cases kind
  all_goals
    simp only [Kind.children, Function.children, Class.children, List.mem_append, List.mem_cons,
      List.not_mem_nil, or_false, forall_eq_or_imp, forall_eq, Option.mem_toList] at hsame
  case variableDeclarator target init => cases init <;> simp_all [Kind.map]
  case classDeclaration c => cases h : c.parent <;> simp_all [Kind.map, Class.map]
  case classExpression c => cases h : c.parent <;> simp_all [Kind.map, Class.map]
  all_goals first | rfl | simp [Kind.map, hsame]

/-! ## Kinds over other children -/

section

variable {c n n' p p' : Node} {f : Node → Node}

/-- Whether the block of a node shares the scope of the node. -/
def sharesScope {α : Type} (kind : Kind α) : Bool :=
  match kind with
  | .catchClause .. => true
  | kind => isFunction kind

theorem opensScope_block {statements : List Node} (hc : c.kind = .blockStatement statements)
    (p : Node) : opensScope c (some p) = !sharesScope p.kind := by
  obtain ⟨id, span, kind⟩ := c
  obtain rfl : kind = _ := hc
  obtain ⟨id', span', above⟩ := p
  cases above <;> rfl

theorem opensScope_congr (h : sharesScope p'.kind = sharesScope p.kind) :
    opensScope c (some p') = opensScope c (some p) := by
  obtain ⟨id, span, kind⟩ := c
  cases kind
  case blockStatement => rw [opensScope_block rfl, opensScope_block rfl, h]
  all_goals rfl

theorem opensScope_of_not_shares (h : sharesScope p.kind = false) :
    opensScope c (some p) = isScopable c.kind := by
  obtain ⟨id, span, kind⟩ := c
  cases kind
  case blockStatement =>
    rw [opensScope_block rfl, h]
    rfl
  all_goals rfl

theorem opensScope_none : opensScope c none = isScopable c.kind := by
  unfold opensScope
  cases c.kind <;> rfl

theorem opensScope_map_parent (h : p'.kind = p.kind.map f) :
    opensScope c (some p') = opensScope c (some p) := by
  refine opensScope_congr ?_
  rw [h]
  cases p.kind <;> rfl

theorem opensScope_map (h : n'.kind = n.kind.map f) (parent : Option Node) :
    opensScope n' parent = opensScope n parent := by
  unfold opensScope
  rw [h]
  generalize n.kind = kind
  cases kind
  case blockStatement => cases parent <;> rfl
  all_goals rfl

theorem scopeKind_map (kind : Kind Node) (f : Node → Node) :
    scopeKind (kind.map f) = scopeKind kind := by
  cases kind <;> rfl

theorem isVariableDeclaration_map (h : n'.kind = n.kind.map f) :
    isVariableDeclaration n' = isVariableDeclaration n := by
  unfold isVariableDeclaration
  rw [h]
  cases n.kind <;> rfl

theorem isObjectPattern_map (h : n'.kind = n.kind.map f) :
    isObjectPattern n' = isObjectPattern n := by
  unfold isObjectPattern
  rw [h]
  cases n.kind <;> rfl

end

/-! ## What a step does -/

/-- What is true of declarations that are no imports, by the place that receives them. -/
def Declaration.Plain (n : Node) (d : Declaration) : Prop :=
  d.kind ≠ .imported ∧ (d.place = .outerBlock → ∀ parent, opensScope n parent = true)

theorem plain_of_declareAll {place : Place} {kind : BindingKind} {n m : Node} {ns : List Node}
    {d : Declaration} (h : d ∈ declareAll place kind m ns) (hkind : kind ≠ .imported)
    (hplace : place = .outerBlock → ∀ parent, opensScope n parent = true) : d.Plain n := by
  rw [declareAll_eq] at h
  obtain ⟨q, -, rfl⟩ := List.mem_map.mp h
  exact ⟨hkind, hplace⟩

theorem plain_of_paramNames {n : Node} {params : List Node} {d : Declaration}
    (h : d ∈ paramNames params) : d.Plain n := by
  rw [paramNames_eq] at h
  obtain ⟨q, -, rfl⟩ := List.mem_map.mp h
  exact ⟨nofun, nofun⟩

/-- What is no import declares none, and what declares a name outside itself opens a scope. -/
theorem declarations_plain {n : Node} (htop : n.isTop = false) :
    ∀ d ∈ declarations n, d.Plain n := by
  intro d hd
  obtain ⟨id, span, kind⟩ := n
  cases kind
  case importDeclaration => cases htop
  case catchClause param body =>
    cases param with
    | none => cases hd
    | some param => exact plain_of_declareAll hd nofun nofun
  case variableDeclaration kind ds =>
    obtain ⟨d', -, hd⟩ := List.mem_flatMap.mp hd
    refine plain_of_declareAll hd ?_ ?_ <;> cases kind <;> nofun
  case arrowFunction => exact plain_of_paramNames hd
  -- the own name of a function or a class is declared by a node that opens a scope
  case functionDeclaration =>
    exact (List.mem_append.mp hd).elim plain_of_paramNames
      fun hd => plain_of_declareAll hd nofun fun _ _ => rfl
  case functionExpression =>
    exact (List.mem_append.mp hd).elim plain_of_paramNames
      fun hd => plain_of_declareAll hd nofun fun _ _ => rfl
  case classDeclaration => exact plain_of_declareAll hd nofun fun _ _ => rfl
  case classExpression => exact plain_of_declareAll hd nofun fun _ _ => rfl
  all_goals cases hd

/-- Whether nodes of a kind open no scope, declare nothing and use nothing by themselves. -/
def isInert : Kind Node → Bool
  | .expressionStatement _ | .literal _ | .callExpression .. | .memberExpression ..
  | .objectExpression _ | .property .. | .importExpression _ | .metaProperty _
  | .variableDeclarator .. | .removed | .exportNamedDeclaration .. | .exportDefaultDeclaration _
  | .exportAllDeclaration .. | .importSpecifier .. | .importDefaultSpecifier _
  | .importNamespaceSpecifier _ | .exportSpecifier .. => true
  | _ => false

section

variable {n : Node} {here : Surroundings} {next : Nat}

theorem inside_of_not_scopable (h : isScopable n.kind = false) :
    here.inside n next = here.chain := by
  have hopens : opensScope n here.parent = false := by
    unfold opensScope
    generalize n.kind = kind at h
    cases kind <;> first | rfl | cases h
  rw [Surroundings.inside, Surroundings.opens, hopens, Bool.and_false]
  rfl

theorem usesOf_eq_nil (hname : n.name? = none) (hwrites : writes n = []) : usesOf n here = [] := by
  simp [usesOf, hname, hwrites]

theorem plain_of_isInert (h : isInert n.kind = true) :
    (∀ parent, opensScope n parent = false) ∧ isVariableDeclaration n = false := by
  unfold opensScope isVariableDeclaration
  generalize n.kind = kind at h
  cases kind <;> first | exact ⟨fun _ => rfl, rfl⟩ | cases h

theorem plain_of_name? (h : n.name?.isSome = true) :
    (∀ parent, opensScope n parent = false) ∧ isVariableDeclaration n = false := by
  unfold opensScope isVariableDeclaration
  unfold Node.name? at h
  generalize n.kind = kind at h
  cases kind <;> first | exact ⟨fun _ => rfl, rfl⟩ | cases h

theorem opens_of_isInert (h : isInert n.kind = true) : here.opens n = false := by
  rw [Surroundings.opens, (plain_of_isInert h).1, Bool.and_false]

theorem step_of_isInert (h : isInert n.kind = true) : here.step n next =
    ⟨n.id, none, here.chain, here.chain, here.params, none, [], []⟩ := by
  have hopens : here.opens n = false := opens_of_isInert h
  have hquiet : label? n = none ∧ declarations n = [] ∧ writes n = [] ∧ n.name? = none := by
    unfold label? declarations writes Node.name?
    generalize n.kind = kind at h
    cases kind <;> first | cases h; done | exact ⟨rfl, rfl, rfl, rfl⟩
  obtain ⟨hlabel, hdeclares, hwrites, hname⟩ := hquiet
  simp [Surroundings.step, Surroundings.inside, usesOf_eq_nil hname hwrites, hopens, hlabel,
    hdeclares]

theorem step_of_name (h : n.name?.isSome = true) : here.step n next =
    ⟨n.id, none, here.chain, here.chain, here.params, none, [], usesOf n here⟩ := by
  have hopens : here.opens n = false := by
    rw [Surroundings.opens, (plain_of_name? h).1, Bool.and_false]
  have hquiet : label? n = none ∧ declarations n = [] := by
    unfold label? declarations
    unfold Node.name? at h
    generalize n.kind = kind at h
    cases kind <;> first | cases h; done | exact ⟨rfl, rfl⟩
  simp [Surroundings.step, Surroundings.inside, hopens, hquiet]

theorem writes_of_name? (h : n.name?.isSome = true) : writes n = [] := by
  unfold writes
  unfold Node.name? at h
  generalize n.kind = kind at h
  cases kind <;> first | rfl | cases h

theorem node_of_mem_usesOf (h : n.name?.isSome = true) {u : Use} (hu : u ∈ usesOf n here) :
    u.node = n.id := by
  rcases mem_usesOf.mp hu with ⟨x, p, -, -, -, rfl⟩ | ⟨i, hi, -⟩
  · rfl
  · rw [writes_of_name? h] at hi
    cases hi

/-- What a node uses is the node itself or what it writes. -/
theorem mem_usesOf_iff {u : Use} : u ∈ usesOf n here ↔
    (here.reads n = true ∧ ∃ q ∈ named [n], u = ⟨q.1, q.2, .read, here.chain, here.params⟩) ∨
      ∃ q ∈ named (writes n), u = ⟨q.1, q.2, .write, here.chain, here.params⟩ := by
  rw [mem_usesOf]
  unfold Surroundings.reads
  simp only [Prod.exists, mem_named, List.mem_singleton, exists_eq_left, Option.any_eq_true]
  refine or_congr ?_ ?_
  · constructor
    · rintro ⟨x, p, hx, hp, hread, rfl⟩
      exact ⟨⟨p, hp, hread⟩, n.id, x, ⟨rfl, hx⟩, rfl⟩
    · rintro ⟨⟨p, hp, hread⟩, _, x, ⟨rfl, hx⟩, rfl⟩
      exact ⟨x, p, hx, hp, hread, rfl⟩
  · constructor
    · rintro ⟨i, hi, x, hx, rfl⟩
      exact ⟨i.id, x, ⟨i, hi, rfl, hx⟩, rfl⟩
    · rintro ⟨_, x, ⟨i, hi, rfl, hx⟩, rfl⟩
      exact ⟨i, hi, x, hx, rfl⟩

end

/-! ## Places in the two walks -/

/-- Whether a node stands in the other walk as one does in the walk over the module. -/
structure Embedding.Matches (w : Embedding) (here here' : Surroundings) (n n' : Node) : Prop where
  /-- There is a node above it. -/
  parent : here.parent.isSome = true
  /-- The scopes around it stand for those in the module. -/
  chain : here'.chain = w.chain here.chain
  /-- The last of them is the program's. -/
  rooted : Rooted here.chain
  /-- The functions in whose parameter lists it stands are the same. -/
  params : here'.params = here.params.map w.scope
  /-- It opens a scope if the other one does. -/
  opens : here'.opens n' = here.opens n
  /-- A name is read if the other one is. -/
  reads : n'.name?.isSome = true → here'.reads n' = here.reads n
  /-- It stands in an object pattern if the other one does. -/
  pattern : here'.parent.any isObjectPattern = here.parent.any isObjectPattern

namespace Embedding.Matches

variable {w : Embedding} {here here' : Surroundings} {n n' : Node} {next : Nat}

theorem inside (h : w.Matches here here' n n') (hnext : next ≠ 0) :
    here'.inside n' (next + w.opened) = w.chain (here.inside n next) := by
  unfold Surroundings.inside
  rw [h.opens, h.chain]
  split
  · rw [Embedding.chain, Embedding.chain, List.map_cons, Embedding.scope, if_neg hnext]
    rfl
  · rfl

theorem rooted_inside (h : w.Matches here here' n n') (hnext : next ≠ 0) :
    Rooted (here.inside n next) := by
  unfold Surroundings.inside
  obtain ⟨cs, hchain, hcs⟩ := h.rooted
  split
  · exact ⟨next :: cs, by rw [hchain]; rfl, by simp [hcs, Ne.symm hnext]⟩
  · exact h.rooted

/-- The step of a node in the other walk does what the step in the walk over the module does. -/
theorem mirrors (h : w.Matches here here' n n') (hnext : next ≠ 0) (hid : n'.id = w.moved n.id)
    (hscope : here.opens n = true → scopeKind n'.kind = scopeKind n.kind)
    (htop : n.isTop = false) (hdeclares : declarations n' = (declarations n).map w.declaration)
    (hself : Thinned w.gone [n] [n'])
    (hwrites : Thinned w.gone (writes n) (writes n')) :
    w.Mirrors (here.step n next) (here'.step n' (next + w.opened)) where
  node := hid
  scope := by
    change (if _ then _ else _) = if _ then _ else _
    rw [h.opens]
    split
    · rename_i hopens
      rw [hscope hopens]
    · rfl
  rooted := h.rooted_inside hnext
  outside := by
    intro d hd hplace
    have hopens : here.opens n = true := by
      unfold Surroundings.opens
      rw [h.parent, (declarations_plain htop d hd).2 hplace]
      rfl
    change Rooted (here.inside n next).tail
    rw [Surroundings.inside, if_pos hopens]
    exact h.rooted
  chain := h.inside hnext
  declares := hdeclares
  plain := fun d hd => (declarations_plain htop d hd).1
  uses := by
    have hmem : ∀ {ns ms : List Node}, Thinned w.gone ns ms → ∀ q,
        q ∈ named ms ↔ q ∈ named ns ∧ w.gone q.1 = false := by
      intro ns ms hthin q
      rw [hthin, List.mem_filter, Bool.not_eq_true']
    -- what is read is asked of names only, since the kinds of other nodes may differ
    have hreads : ∀ q ∈ named [n'], here'.reads n' = here.reads n := by
      intro q hq
      obtain ⟨m, hm, -, hx⟩ := mem_named.mp hq
      rw [List.mem_singleton] at hm
      exact h.reads (by rw [← hm, hx]; rfl)
    intro u'
    change u' ∈ usesOf n' _ ↔ ∃ u ∈ usesOf n _, _
    simp only [mem_usesOf_iff, h.inside hnext, h.params]
    constructor
    · rintro (⟨hread, q, hq, rfl⟩ | ⟨q, hq, rfl⟩)
      · obtain ⟨hn, hgone⟩ := (hmem hself q).mp hq
        exact ⟨_, .inl ⟨(hreads q hq).symm.trans hread, q, hn, rfl⟩, hgone, rfl⟩
      · obtain ⟨hn, hgone⟩ := (hmem hwrites q).mp hq
        exact ⟨_, .inr ⟨q, hn, rfl⟩, hgone, rfl⟩
    · rintro ⟨_, ⟨hread, q, hq, rfl⟩ | ⟨q, hq, rfl⟩, hgone, rfl⟩
      · have hq' := (hmem hself q).mpr ⟨hq, hgone⟩
        exact .inl ⟨(hreads q hq').trans hread, q, hq', rfl⟩
      · exact .inr ⟨q, (hmem hwrites q).mpr ⟨hq, hgone⟩, rfl⟩

/-- An inert node does nothing, and no more does an inert node or a name that is gone. -/
theorem mirrors_inert (h : w.Matches here here' n n') (hid : n'.id = w.moved n.id)
    (hn' : isInert n'.kind = true)
    (hn : isInert n.kind = true ∨ n.name?.isSome = true ∧ w.gone n.id = true) (next next' : Nat) :
    w.Mirrors (here.step n next) (here'.step n' next') := by
  obtain ⟨uses, hstep, huses⟩ : ∃ uses, here.step n next =
      ⟨n.id, none, here.chain, here.chain, here.params, none, [], uses⟩ ∧
        ∀ u ∈ uses, w.gone u.node = true := by
    rcases hn with hn | ⟨hname, hgone⟩
    · exact ⟨[], step_of_isInert hn, nofun⟩
    · refine ⟨_, step_of_name hname, fun u hu => ?_⟩
      rw [node_of_mem_usesOf hname hu, hgone]
  rw [hstep, step_of_isInert hn']
  refine ⟨hid, rfl, h.rooted, nofun, h.chain, rfl, nofun, fun u' => ⟨nofun, ?_⟩⟩
  rintro ⟨u, hu, hgone, -⟩
  rw [huses u hu] at hgone
  cases hgone

/-- The children of a node stand in the other walk as those in the walk over the module do. -/
theorem below (h : w.Matches here here' n n') (hnext : next ≠ 0) {c c' : Node} (isParam : Bool)
    (hopens : opensScope c' (some n') = opensScope c (some n))
    (hreads : c'.name?.isSome = true → isRead c' n' here'.parent = isRead c n here.parent)
    (hpattern : isObjectPattern n' = isObjectPattern n) :
    w.Matches (here.below n next isParam) (here'.below n' (next + w.opened) isParam) c c' where
  parent := rfl
  chain := h.inside hnext
  rooted := h.rooted_inside hnext
  params := by
    unfold Surroundings.below
    dsimp only
    rw [h.inside hnext, h.params]
    split
    · obtain ⟨cs, hchain, -⟩ := h.rooted_inside hnext
      rw [hchain]
      cases cs <;> rfl
    · rfl
  opens := hopens
  reads := hreads
  pattern := hpattern

end Embedding.Matches

/-! ## Steps below a node -/

namespace Embedding

variable {w : Embedding}

theorem Mirrored.of_new {es : List Step}
    (h : ∀ e ∈ es, e.scope = none ∧ e.declares = [] ∧
      ∀ u ∈ e.uses, ¬ w.old u.node ∧ w.adds u.name) :
    w.Mirrored [] es [] := by
  induction es with
  | nil => exact .nil
  | cons e es ih =>
    obtain ⟨hscope, hdeclares, huses⟩ := h e List.mem_cons_self
    have hadded := Mirrored.added hscope huses (ih fun e he => h e (List.mem_cons_of_mem _ he))
    rwa [hdeclares] at hadded

/-- Where trees that stand side by side do the same, the walks over all of them do. -/
theorem mirrored_stepsOfAll {α : Type} (as : List α) (g g' : α → Surroundings × Steps)
    (ds : α → List Declaration) (h : ∀ a ∈ as, ∀ next, next ≠ 0 →
      w.Mirrored ((g a).2 (g a).1 next) ((g' a).2 (g' a).1 (next + w.opened)) (ds a))
    (next : Nat) (hnext : next ≠ 0) : w.Mirrored (stepsOfAll (as.map g) next)
      (stepsOfAll (as.map g') (next + w.opened)) (as.flatMap ds) := by
  induction as generalizing next with
  | nil => exact .nil
  | cons a as ih =>
    have hhead := h a List.mem_cons_self next hnext
    have htail := ih (fun b hb => h b (List.mem_cons_of_mem _ hb))
      (next + openings ((g a).2 (g a).1 next)) (by omega)
    rw [Nat.add_right_comm] at htail
    refine hhead.append ?_
    -- the scopes below the first tree are as many in both walks, so the next ones start in step
    rw [hhead.openings]
    exact htail

/-- A node does the same in both walks if it does so by itself and its children do. -/
theorem mirrored_steps {here here' : Surroundings} {n n' : Node} {next : Nat} {f : Node → Node}
    (hnext : next ≠ 0) (hstep : w.Mirrors (here.step n next) (here'.step n' (next + w.opened)))
    (hopens : here'.opens n' = here.opens n)
    (hvisited : visited n'.kind = (visited n.kind).map fun (isParam, c) => (isParam, f c))
    (hchildren : ∀ c ∈ n.kind.children, ∀ isParam next', next' ≠ 0 →
      w.Mirrored (c.steps (here.below n next isParam) next')
        ((f c).steps (here'.below n' (next + w.opened) isParam) (next' + w.opened)) []) :
    w.Mirrored (n.steps here next) (n'.steps here' (next + w.opened)) [] := by
  have hbelow := mirrored_stepsOfAll (visited n.kind)
    (fun c => (here.below n next c.1, c.2.steps))
    (fun c => (here'.below n' (next + w.opened) c.1, (f c.2).steps)) (fun _ => [])
    (fun c hc next' hnext' => hchildren c.2 (mem_of_visited hc) c.1 next' hnext')
    (next + if here.opens n then 1 else 0) (by omega)
  rw [List.flatMap_eq_nil_iff.mpr fun _ _ => rfl, Nat.add_right_comm] at hbelow
  rw [steps_eq, steps_eq]
  refine .both hstep ?_
  unfold stepsBelow
  rw [hvisited, List.map_map, hopens]
  exact hbelow

end Embedding

/-! ## Steps that stay the same -/

theorem stepsOfAll_append (cs ds : List (Surroundings × Steps)) (next : Nat) :
    stepsOfAll (cs ++ ds) next =
      stepsOfAll cs next ++ stepsOfAll ds (next + openings (stepsOfAll cs next)) := by
  induction cs generalizing next with
  | nil => rfl
  | cons c cs ih =>
    simp only [List.cons_append, stepsOfAll, ih, openings_append, List.append_assoc, Nat.add_assoc]

theorem visited_eq_nil {n : Node} (h : n.kind.children = []) : visited n.kind = [] := by
  rw [← List.map_eq_nil_iff, map_visited, h]

theorem steps_of_leaf {n : Node} (h : n.kind.children = []) (here : Surroundings) (next : Nat) :
    n.steps here next = [here.step n next] := by
  rw [steps_eq, visited_eq_nil h]
  rfl

theorem stepsOfAll_singleton (here : Surroundings) (steps : Steps) (next : Nat) :
    stepsOfAll [(here, steps)] next = steps here next := List.append_nil _

theorem below_of_not_opens {here : Surroundings} {n : Node} {next : Nat}
    (hopens : here.opens n = false) :
    here.below n next false = ⟨some n, here.parent, here.chain, here.params⟩ := by
  simp [Surroundings.below, Surroundings.inside, hopens]

theorem steps_of_not_opens {here : Surroundings} {n : Node} {next : Nat} {cs : List Node}
    (hopens : here.opens n = false) (hvisited : visited n.kind = cs.map (false, ·)) :
    n.steps here next = here.step n next ::
      stepsOfAll (cs.map fun c => (here.below n next false, c.steps)) next := by
  rw [steps_eq, stepsBelow, hvisited, List.map_map, hopens]
  rfl

theorem step_congr {here here' : Surroundings} {n : Node} (hchain : here'.chain = here.chain)
    (hparams : here'.params = here.params) (hopens : here'.opens n = here.opens n)
    (hreads : here'.reads n = here.reads n) (next : Nat) :
    here'.step n next = here.step n next := by
  have huses : ∀ chain, usesOf n { here' with chain } = usesOf n { here with chain } := by
    intro chain
    unfold Surroundings.reads at hreads
    simp only [usesOf, hreads, hparams]
  unfold Surroundings.step Surroundings.inside
  rw [hopens, hchain, huses, hparams]

theorem stepsOfAll_congr {α : Type} {as : List α} {g g' : α → Surroundings × Steps}
    (h : ∀ a ∈ as, ∀ next, (g' a).2 (g' a).1 next = (g a).2 (g a).1 next) (next : Nat) :
    stepsOfAll (as.map g') next = stepsOfAll (as.map g) next := by
  induction as generalizing next with
  | nil => rfl
  | cons a as ih =>
    have htail := ih fun b hb => h b (List.mem_cons_of_mem _ hb)
    simp only [List.map_cons, stepsOfAll, h a List.mem_cons_self, htail]

/-- The steps of a tree depend on the two nodes above it only as far as its root is concerned. -/
theorem steps_congr {here here' : Surroundings} {n : Node} (hchain : here'.chain = here.chain)
    (hparams : here'.params = here.params) (hopens : here'.opens n = here.opens n)
    (hreads : here'.reads n = here.reads n)
    (hpattern : here'.parent.any isObjectPattern = here.parent.any isObjectPattern) (next : Nat) :
    n.steps here' next = n.steps here next := by
  induction n using Node.induct generalizing here here' next with
  | h n ih =>
    have hinside : here'.inside n next = here.inside n next := by
      rw [Surroundings.inside, Surroundings.inside, hopens, hchain]
    rw [steps_eq, steps_eq, step_congr hchain hparams hopens hreads, stepsBelow, stepsBelow, hopens]
    refine congrArg _ (stepsOfAll_congr (fun c hc next' => ?_) _)
    have hbelow : (here'.below n next c.1).params = (here.below n next c.1).params := by
      simp only [Surroundings.below, hinside, hparams]
    have hchain' : (here'.below n next c.1).chain = (here.below n next c.1).chain := hinside
    exact ih c.2 (mem_of_visited hc) hchain' hbelow rfl (isRead_congr hpattern) rfl next'

end EsModule.Scope
