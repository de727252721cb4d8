import EsModule.Proofs.Compile.Mirror

/-!
# The walk over what became of the items

An item that stays is walked over as before. One that is taken out did nothing but declare imports,
so it may be left out. What is exported is walked over in the place of the item: below an export it
stood in the program's scope already, since exports open none. A default value goes below a new
constant, where it opens a scope and is read just as it was below the export.

The steps of the items so mirror each other (`ItemBecomes.mirrored`), and the only new declarations
are those of the constants (`holders`).
-/

namespace EsModule.Compile

open EsModule.Syntax EsModule.Scope

variable {w : Embedding}

/-! ## Nodes that are neutral to what stands below -/

/-- Whether below some node another one is read as a value, opens a scope and passes names on as it
would anywhere. -/
structure Neutral (above n : Node) : Prop where
  /-- It opens a scope if its kind may. -/
  opens : opensScope n (some above) = isScopable n.kind
  /-- It is read if it is a name. -/
  reads : ∀ g, isRead n above g = n.name?.isSome
  /-- The node above it takes no object apart. -/
  pattern : isObjectPattern above = false

/-- Whether statements and exported values stand below nodes of a kind. -/
def holdsStatements (kind : Kind Node) : Bool :=
  match kind with
  | .program _ | .blockStatement _ | .exportNamedDeclaration .. | .exportDefaultDeclaration _ =>
    true
  | _ => false

theorem neutral_of_holdsStatements {above : Node} (h : holdsStatements above.kind = true)
    (n : Node) : Neutral above n := by
  refine ⟨opensScope_of_not_shares ?_, fun g => ?_, ?_⟩
  · generalize above.kind = kind at h
    cases kind <;> first | rfl | cases h
  · rw [isRead_eq]
    unfold isReferenced isExportSpecifier
    generalize above.kind = kind at h
    cases kind <;> first | (simp; done) | cases h
  · unfold isObjectPattern
    generalize above.kind = kind at h
    cases kind <;> first | rfl | cases h

theorem neutral_of_declarator {above target value n : Node}
    (h : above.kind = .variableDeclarator target (some value)) (hid : value.id = n.id) :
    Neutral above n := by
  refine ⟨opensScope_of_not_shares (by rw [h]; rfl), fun g => ?_, ?_⟩
  · rw [isRead_eq, isReferenced, h]
    simp [isExportSpecifier, same, hid]
  · rw [isObjectPattern, h]

theorem Neutral.matches {above above' n n' : Node} (h : Neutral above n) (h' : Neutral above' n')
    {here here' : Surroundings} (hparent : here.parent = some above)
    (hparent' : here'.parent = some above') (hchain : here'.chain = w.chain here.chain)
    (hrooted : Rooted here.chain) (hparams : here'.params = here.params.map w.scope)
    (hscope : isScopable n'.kind = isScopable n.kind)
    (hname : n'.name?.isSome = true → n.name?.isSome = true) : w.Matches here here' n n' where
  parent := by rw [hparent]; rfl
  chain := hchain
  rooted := hrooted
  params := hparams
  opens := by
    unfold Surroundings.opens
    rw [hparent, hparent', h.opens, h'.opens, hscope]
    rfl
  reads := by
    intro hn
    unfold Surroundings.reads
    rw [hparent, hparent', Option.any_some, Option.any_some, h.reads, h'.reads, hn, hname hn]
  pattern := by
    rw [hparent, hparent', Option.any_some, Option.any_some, h.pattern, h'.pattern]

/-! ## Functions and classes as expressions -/

/-- Nodes that do the same by themselves and to what stands below have the same steps. -/
theorem steps_eq_steps {n n' : Node} {here : Surroundings} {next : Nat}
    (hstep : here.step n' next = here.step n next) (hopens : here.opens n' = here.opens n)
    (hvisited : visited n'.kind = visited n.kind)
    (hbelow : ∀ c, opensScope c (some n') = opensScope c (some n) ∧
      ∀ g, isRead c n' g = isRead c n g)
    (hpattern : isObjectPattern n' = isObjectPattern n) :
    n'.steps here next = n.steps here next := by
  have hinside : here.inside n' next = here.inside n next := by
    rw [Surroundings.inside, Surroundings.inside, hopens]
  rw [steps_eq, steps_eq, hstep, stepsBelow, stepsBelow, hopens, hvisited]
  -- the children are the same trees, but they see another node above them
  refine congrArg _ (stepsOfAll_congr (fun c _ next' => ?_) _)
  have hparams : (here.below n' next c.1).params = (here.below n next c.1).params := by
    simp only [Surroundings.below, hinside]
  have hchain : (here.below n' next c.1).chain = (here.below n next c.1).chain := hinside
  exact steps_congr hchain hparams (hbelow c.2).1 ((hbelow c.2).2 _) hpattern next'

/-- The walk over a function or a class without a name is the same if it is an expression. -/
theorem steps_asExpression {n : Node} (hname : ownName? n = none) (here : Surroundings)
    (next : Nat) : (n.withKind (asExpression n.kind)).steps here next = n.steps here next := by
  obtain ⟨id, span, kind⟩ := n
  cases kind
  case functionDeclaration g =>
    obtain ⟨name, params, body, isAsync, isGenerator⟩ := g
    obtain rfl : name = none := Option.map_eq_none_iff.mp hname
    refine steps_eq_steps ?_ rfl rfl (fun c => ⟨?_, fun g => ?_⟩) rfl
    · unfold Surroundings.step
      rw [usesOf_eq_nil rfl rfl, usesOf_eq_nil rfl rfl]
      rfl
    · exact opensScope_congr rfl
    · rw [isRead_eq, isRead_eq]
      rfl
  case classDeclaration c =>
    obtain ⟨name, parent, body⟩ := c
    obtain rfl : name = none := Option.map_eq_none_iff.mp hname
    refine steps_eq_steps ?_ rfl rfl (fun c => ⟨?_, fun g => ?_⟩) rfl
    · unfold Surroundings.step
      rw [usesOf_eq_nil rfl rfl, usesOf_eq_nil rfl rfl]
      rfl
    · exact opensScope_congr rfl
    · rw [isRead_eq, isRead_eq]
      rfl
  all_goals rfl

/-! ## Items that are taken out -/

theorem mirrored_of_lost {es : List Step}
    (h : ∀ e ∈ es, e.scope = none ∧ e.uses = [] ∧ ∀ d ∈ e.declares, d.kind = .imported) :
    w.Mirrored es [] [] := by
  induction es with
  | nil => exact .nil
  | cons e es ih =>
    obtain ⟨hscope, huses, himports⟩ := h e List.mem_cons_self
    exact .lost hscope huses himports (ih fun e he => h e (List.mem_cons_of_mem _ he))

section

variable {root item n : Node} {items : List Node}

theorem treatment_of_isTop_eq_false (h : item.isTop = false) : treatment item = .kept := by
  unfold Node.isTop at h
  unfold treatment
  generalize item.kind = kind at h
  cases kind <;> first | rfl | cases h

theorem name?_of_derives {y : Bool} (h : Derives y .name n) : n.name?.isSome = true := by
  cases h
  rfl

/-- Below an item that is taken out there are specifiers, and below these there are names. -/
theorem specifiers_of_removed {y : Bool} (hd : Derives y .item item)
    (ht : treatment item = .removed) : ∀ s ∈ item.kind.children,
      s.isSpecifier = true ∧ ∀ c ∈ s.kind.children, c.name?.isSome = true := by
  cases hd with
  | importItem hc h =>
    intro s hs
    cases h s hs with
    | importSpecifier h | importDefaultSpecifier h | importNamespaceSpecifier h =>
      refine ⟨rfl, fun c hc => ?_⟩
      obtain rfl := List.mem_singleton.mp hc
      exact name?_of_derives h
  | exportList h =>
    intro s hs
    cases h s hs with
    | exportSpecifier =>
      refine ⟨rfl, fun c hc => ?_⟩
      obtain rfl := List.mem_singleton.mp hc
      rfl
  | exportAll => nofun
  | statementItem h => cases (treatment_of_isTop_eq_false (h.isTop nofun)).symm.trans ht
  | exportVariables | exportDeclaration => cases ht
  | exportDefaultDeclaration | exportDefaultValue =>
    unfold treatment at ht
    dsimp only [Node.kind] at ht
    split at ht <;> cases ht

/-- What is listed in imports and exports does nothing but declare imports. -/
theorem step_of_listed (h : treatment n = .removed ∨ n.isSpecifier = true) (here : Surroundings)
    (next : Nat) : (here.step n next).scope = none ∧ (here.step n next).uses = [] ∧
      ∀ d ∈ (here.step n next).declares, d.kind = .imported := by
  have hkind : isInert n.kind = true ∨
      ∃ specifiers source, n.kind = .importDeclaration specifiers source := by
    unfold treatment Node.isSpecifier at h
    generalize n.kind = kind at h
    cases kind
    case importDeclaration => exact .inr ⟨_, _, rfl⟩
    all_goals first | exact .inl rfl | rcases h with h | h <;> cases h
  rcases hkind with hinert | ⟨specifiers, source, hk⟩
  · rw [step_of_isInert hinert]
    exact ⟨rfl, rfl, nofun⟩
  · refine ⟨?_, ?_, fun d hd => ?_⟩
    · simp [Surroundings.step, Surroundings.opens, opensScope, hk, isScopable, isClass, isFunction]
    · exact usesOf_eq_nil (by rw [Node.name?, hk]) (by rw [writes, hk])
    · change d ∈ declarations n at hd
      rw [declarations, hk] at hd
      obtain ⟨s, -, hs⟩ := List.mem_filterMap.mp hd
      unfold Scope.importedName? at hs
      split at hs
      all_goals first
        | cases hs
        | obtain ⟨x, -, rfl⟩ := Option.map_eq_some_iff.mp hs
          rfl

theorem isRead_of_isSpecifier {p : Node} (h : p.isSpecifier = true) (g : Option Node) :
    isRead n p g = false := by
  rw [isRead_eq]
  unfold isReferenced isExportSpecifier
  unfold Node.isSpecifier at h
  generalize p.kind = kind at h
  cases kind <;> first | simp; done | cases h

theorem lost_of_removed {y : Bool} (hd : Derives y .item item) (ht : treatment item = .removed)
    (here : Surroundings) (next : Nat) : ∀ e ∈ item.steps here next,
      e.scope = none ∧ e.uses = [] ∧ ∀ d ∈ e.declares, d.kind = .imported := by
  have hspecifiers := specifiers_of_removed hd ht
  intro e he
  obtain ⟨m, hm, there, next', rfl, hstands⟩ := exists_of_mem_steps he
  cases hstands with
  | root hm => exact hm ▸ step_of_listed (.inl ht) there next'
  | child hm => exact step_of_listed (.inr (hspecifiers m hm).1) there next'
  | @below p g hg hpg hm hparent hgp =>
    -- names stand below specifiers, and nothing stands below names
    have hp : p ∈ item.kind.children := by
      rw [Node.nodes_eq, List.mem_cons, List.mem_flatMap] at hg
      rcases hg with rfl | ⟨s, hs, hg⟩
      · exact hpg
      · have hnames := (hspecifiers s hs).2
        rw [Node.nodes_eq, List.mem_cons, List.mem_flatMap] at hg
        rcases hg with rfl | ⟨c, hc, hg⟩
        · rw [children_of_name? (hnames p hpg)] at hm
          cases hm
        · rw [Node.nodes_eq, children_of_name? (hnames c hc)] at hg
          obtain rfl := List.mem_singleton.mp hg
          rw [children_of_name? (hnames g hc)] at hpg
          cases hpg
    obtain ⟨hspecifier, hnames⟩ := hspecifiers p hp
    have hname := hnames m hm
    rw [step_of_name hname]
    refine ⟨rfl, ?_, nofun⟩
    rw [List.eq_nil_iff_forall_not_mem]
    intro u hu
    rcases mem_usesOf.mp hu with ⟨x, q, -, hq, hread, -⟩ | ⟨i, hi, -⟩
    · obtain rfl := Option.some.inj (hparent.symm.trans hq)
      rw [isRead_of_isSpecifier hspecifier] at hread
      cases hread
    · rw [writes_of_name? hname] at hi
      cases hi

/-! ## Items -/

/-- Whether two places are those of statements of a module and of the function that runs it. -/
structure Beside (w : Embedding) (here here' : Surroundings) : Prop where
  /-- What stands above the statement of the module. -/
  above : ∃ above, here.parent = some above ∧ holdsStatements above.kind = true
  /-- What stands above the other one. -/
  above' : ∃ above, here'.parent = some above ∧ holdsStatements above.kind = true
  /-- The scopes around it stand for those in the module. -/
  chain : here'.chain = w.chain here.chain
  /-- The last of them is the program's. -/
  rooted : Rooted here.chain
  /-- The functions in whose parameter lists it stands are the same. -/
  params : here'.params = here.params.map w.scope

theorem Beside.matches {here here' : Surroundings} (h : Beside w here here') {n n' : Node}
    (hscope : isScopable n'.kind = isScopable n.kind)
    (hname : n'.name?.isSome = true → n.name?.isSome = true) : w.Matches here here' n n' := by
  obtain ⟨above, hparent, hholds⟩ := h.above
  obtain ⟨above', hparent', hholds'⟩ := h.above'
  exact (neutral_of_holdsStatements hholds n).matches (neutral_of_holdsStatements hholds' n')
    hparent hparent' h.chain h.rooted h.params hscope hname

/-- Whether an embedding leaves the nodes of the items in their places, but for the declarations
that take the place of the items that export them. -/
structure CarriesItems (w : Embedding) (uses : Nat → Reading → Prop) (root : Node)
    (items : List Node) : Prop extends Carries w uses root where
  /-- An item that stays. -/
  kept : ∀ item ∈ items, treatment item = .kept → w.moved item.id = item.id
  /-- A declaration that takes the place of an item. -/
  unwrapped : ∀ item ∈ items, ∀ d, treatment item = .unwrapped d →
    w.moved d.id = item.id ∧ ¬ w.old d.id
  /-- A value that is held by a constant. -/
  held : ∀ item ∈ items, ∀ v, treatment item = .held v → w.moved v.id = v.id

/-- The declarations that take the place of an item whose value is held by a constant. -/
def holders (item item' : Node) : List Declaration :=
  match treatment item with
  | .held _ => declarations item'
  | _ => []

variable {uses : Nat → Reading → Prop} {item' d : Node}

theorem kind_of_exported {y : Bool} (hd : Derives y .item item)
    (ht : treatment item = .unwrapped d ∨ treatment item = .held d) :
    visited item.kind = [(false, d)] ∧ isInert item.kind = true ∧
      holdsStatements item.kind = true := by
  have hk := treatment_eq ht
  cases hd with
  | exportVariables | exportDeclaration | exportDefaultDeclaration | exportDefaultValue =>
    obtain ⟨specifiers, source, hk⟩ | hk := hk <;> cases hk
    exact ⟨rfl, rfl, rfl⟩
  | statementItem h =>
    have htop := h.isTop nofun
    unfold Node.isTop at htop
    obtain ⟨specifiers, source, hk⟩ | hk := hk <;> rw [hk] at htop <;> cases htop
  | importItem | exportList | exportAll =>
    obtain ⟨specifiers, source, hk⟩ | hk := hk <;> cases hk

theorem children_of_exported {y : Bool} (hd : Derives y .item item)
    (ht : treatment item = .unwrapped d ∨ treatment item = .held d) : item.kind.children = [d] := by
  rw [← map_visited, (kind_of_exported hd ht).1]
  rfl

theorem Becomes.matches {n' n'' : Node} (h : Becomes uses n n') (hw : Carries w uses root)
    (hn : n ∈ root.nodes) (hkind : n''.kind = n'.kind) {here here' : Surroundings}
    (hb : Beside w here here') : w.Matches here here' n n'' := by
  refine hb.matches ?_ fun hname => ?_
  · rw [hkind, ← opensScope_none, ← opensScope_none]
    exact (h.plain hw.drops hn).1 none
  · have hname' : n'.name?.isSome = true := by
      rwa [Node.name?, hkind] at hname
    rwa [← h.eq_of_name? hw.drops.plain hname']

/-- The walk comes to what is exported as it comes to the item. -/
theorem exported_steps {y : Bool} (hd : Derives y .item item)
    (ht : treatment item = .unwrapped d ∨ treatment item = .held d) {here here' : Surroundings}
    (hb : Beside w here here') (next : Nat) :
    Beside w (here.below item next false) here' ∧
      ∀ es' ds, w.Mirrored (d.steps (here.below item next false) next) es' ds →
        w.Mirrored (item.steps here next) es' ds := by
  obtain ⟨hvisited, hinert, hholds⟩ := kind_of_exported hd ht
  have hopens : here.opens item = false := opens_of_isInert hinert
  have hinside : here.inside item next = here.chain := by
    rw [Surroundings.inside, hopens]
    rfl
  refine ⟨⟨⟨item, rfl, hholds⟩, hb.above', ?_, ?_, hb.params⟩, fun es' ds h => ?_⟩
  · exact hb.chain.trans (congrArg w.chain hinside.symm)
  · change Rooted (here.inside item next)
    rw [hinside]
    exact hb.rooted
  · rw [steps_of_not_opens hopens (show _ = [d].map _ from hvisited), step_of_isInert hinert]
    refine .lost rfl rfl (fun _ hd => absurd hd List.not_mem_nil) ?_
    rwa [List.map_singleton, stepsOfAll_singleton]

/-- Around a value that is held by a constant there are new nodes only. -/
theorem mirrored_holder {target value : Node}
    (hk : item'.kind = .variableDeclaration .constKind [d])
    (hd : d.kind = .variableDeclarator target (some value)) (hnew : IsNew w d target)
    {here' : Surroundings} {next' : Nat} {es : List Step}
    (h : w.Mirrored es
      (value.steps ((here'.below item' next' false).below d next' false) next') []) :
    w.Mirrored es (item'.steps here' next') (declarations item') := by
  have hopens : here'.opens item' = false := by
    unfold Surroundings.opens opensScope
    rw [hk]
    exact Bool.and_false _
  have hinert : isInert d.kind = true := by
    rw [hd]
    rfl
  have htarget := hnew.mirrored ((here'.below item' next' false).below d next' false) rfl next'
  have hdeclarator : w.Mirrored es (d.steps (here'.below item' next' false) next') [] := by
    rw [steps_of_not_opens (opens_of_isInert hinert) (show _ = [target, value].map _ by
      rw [hd]; rfl), step_of_isInert hinert]
    refine .added rfl (fun _ hu => absurd hu List.not_mem_nil) (htarget.append ?_)
    rwa [htarget.openings, List.map_singleton, stepsOfAll_singleton]
  have hscope : (here'.step item' next').scope = none := by
    rw [Surroundings.step, hopens]
    rfl
  have huses : (here'.step item' next').uses = [] :=
    usesOf_eq_nil (by rw [Node.name?, hk]) (by rw [writes, hk])
  rw [steps_of_not_opens hopens (show _ = [d].map _ by rw [hk]; rfl), List.map_singleton,
    stepsOfAll_singleton, ← List.append_nil (declarations item')]
  refine .added hscope (fun u hu => ?_) hdeclarator
  rw [huses] at hu
  cases hu

theorem Becomes.ownName? {n' : Node} (h : Becomes uses n n') (hd : Drops uses w.gone root)
    (hname : ownName? n = none) : Compile.ownName? n' = none := by
  have hinert : ∀ {m : Node}, isInert m.kind = true → Compile.ownName? m = none := by
    intro m hm
    unfold Compile.ownName?
    generalize m.kind = kind at hm
    cases kind <;> first | rfl | cases hm
  cases h with
  | @read _ r kind hu hr => exact hinert (hr.isInert fun x hx => hd.plain _ x (hx ▸ hu))
  | dynamicImport => rfl
  | importMeta _ hr => exact hinert (hr.isInert nofun)
  | same =>
    obtain ⟨id, span, kind⟩ := n
    cases kind
    case functionDeclaration g _ _ _ =>
      have hg : g.name = none := Option.map_eq_none_iff.mp hname
      simp [Compile.ownName?, Node.kind, Kind.map, Function.map, hg]
    case classDeclaration c _ _ _ =>
      have hc : c.name = none := Option.map_eq_none_iff.mp hname
      simp [Compile.ownName?, Node.kind, Kind.map, Class.map, hc]
    all_goals rfl

theorem ownName?_of_held {v : Node} (ht : treatment item = .held v) : ownName? v = none := by
  unfold treatment at ht
  split at ht <;> try split at ht
  all_goals simp_all

/-- The walk over a value that is held by a constant. -/
theorem Becomes.mirrored_held {v v' value target : Node} (h : Becomes uses v v')
    (hw : CarriesItems w uses root items) (hm : ModuleTree root items) (hi : item ∈ items)
    (ht : treatment item = .held v)
    (hvalue : value = if isFunctionOrClass v then v'.withKind (asExpression v'.kind) else v')
    (hk : item'.kind = .variableDeclaration .constKind [d])
    (hd : d.kind = .variableDeclarator target (some value)) (hg : Grown w.old v v')
    {here here' : Surroundings} (hb : Beside w here here') {next : Nat} (hnext : next ≠ 0) :
    w.Mirrored (v.steps here next) (value.steps ((here'.below item' (next + w.opened) false).below d
      (next + w.opened) false) (next + w.opened)) [] := by
  have hvroot := Node.mem_nodes_below (hm.mem_nodes_item hi) (held_mem_children ht)
  have hsteps : ∀ there next', value.steps there next' = v'.steps there next' := by
    intro there next'
    rw [hvalue]
    split
    · exact steps_asExpression (h.ownName? hw.drops (ownName?_of_held ht)) there next'
    · rfl
  have hid : value.id = v'.id := by
    rw [hvalue]
    split <;> rfl
  have hchain :
      ((here'.below item' (next + w.opened) false).below d (next + w.opened) false).chain =
        here'.chain :=
    (inside_of_not_scopable (by rw [hd]; rfl)).trans (inside_of_not_scopable (by rw [hk]; rfl))
  obtain ⟨above, hparent, hholds⟩ := hb.above
  have hplace : w.Matches here ((here'.below item' (next + w.opened) false).below d
      (next + w.opened) false) v v' := by
    refine (neutral_of_holdsStatements hholds v).matches (neutral_of_declarator hd hid) hparent rfl
      (hchain.trans hb.chain) hb.rooted hb.params ?_ fun hname => ?_
    · rw [← opensScope_none, ← opensScope_none]
      exact (h.plain hw.drops hvroot).1 none
    · rwa [← h.eq_of_name? hw.drops.plain hname]
  rw [hsteps]
  exact h.mirrored hw.toCarries hvroot (fun m hmem => (plain_exported hm hi (.inr ht) m hmem).1) hg
    rfl (h.id.trans (hw.held item hi v ht).symm) hplace hnext

/-- The name of a new constant is not read. -/
theorem isRead_held {value target : Node} (hd : d.Distinct)
    (hk : d.kind = .variableDeclarator target (some value)) (g : Option Node) :
    isRead target d g = false := by
  have hnodup := hd.nodup_children
  rw [hk] at hnodup
  have hne : ¬ value.id = target.id := fun hid => by simp [Kind.children, hid] at hnodup
  rw [isRead_eq, isReferenced, hk]
  simp [same, hne]

/-- Below a new constant the name of the constant is no old one, and old numbers stand in the value
only. -/
theorem grown_held {v v' value target : Node} (hd : d.Distinct)
    (hchildren : d.kind.children = [target, value]) (hids : idsOf [value] = idsOf [v'])
    (hv : v.Distinct) (hself : v'.id = v.id) (hsub : idsOf [v] ⊆ idsOf [v'])
    (hold : ∀ i ∈ idsOf d.kind.children, w.old i → i ∈ idsOf [v]) :
    ¬ w.old target.id ∧ Grown w.old v v' := by
  have hvalue : value ∈ d.kind.children := by simp [hchildren]
  have htarget : target ∈ d.kind.children := by simp [hchildren]
  have hne : target.id ≠ value.id := by
    have hnodup := hd.nodup_children
    simpa [hchildren] using hnodup
  have hv' : v'.Distinct := by
    have hvalued := hd.child hvalue
    unfold Node.Distinct at hvalued ⊢
    rwa [← idsOf_eq, ← hids, idsOf_eq]
  refine ⟨fun htold => ?_, hv, hv', fun i hi hiold => ?_⟩
  · -- else it would stand below the value too
    have hmem := hsub (hold target.id
      (mem_idsOf.mpr ⟨target, htarget, target, target.mem_nodes_self, rfl⟩) htold)
    rw [← hids] at hmem
    obtain ⟨k, hk, hid⟩ := mem_idsOf_singleton.mp hmem
    obtain rfl := hd.eq_of_id (Node.mem_nodes_of_child hvalue hk)
      (Node.mem_nodes_of_child htarget target.mem_nodes_self) hid
    exact hne (congrArg Node.id (hd.eq_child htarget hvalue k.mem_nodes_self hk))
  · have hvalueid : i ∈ idsOf [value] := by
      rw [hids, idsOf_singleton]
      exact List.mem_cons_of_mem _ hi
    have hmem := hold i (mem_idsOf.mpr ⟨value, hvalue, mem_idsOf_singleton.mp hvalueid⟩) hiold
    rw [idsOf_singleton, List.mem_cons] at hmem
    refine hmem.resolve_left ?_
    rintro rfl
    exact id_not_mem_below hv' (hself ▸ hi)

theorem ItemBecomes.mirrored (h : ItemBecomes uses item item') (hw : CarriesItems w uses root items)
    (hm : ModuleTree root items) (hi : item ∈ items) (hdistinct : item'.Distinct)
    (hnew : ∀ i ∈ idsOf [item'], w.old i → i ∈ idsOf [item]) {here here' : Surroundings}
    (hb : Beside w here here') {next : Nat} (hnext : next ≠ 0) :
    w.Mirrored (item.steps here next) (item'.steps here' (next + w.opened))
      (holders item item') := by
  have hroot := hm.mem_nodes_item hi
  have hd := hm.items item hi
  have hitem := hm.distinct.node hroot
  have hself : item'.id = item.id := by cases h <;> first | rfl | (rename_i h; exact h.id)
  -- an old number below the root of the new item is one below the root of the item
  have hbelow : ∀ i ∈ idsOf item'.kind.children, w.old i → i ∈ idsOf item.kind.children := by
    intro i hi hold
    have hmem := hnew i (by rw [idsOf_singleton]; exact List.mem_cons_of_mem _ hi) hold
    rw [idsOf_singleton, List.mem_cons] at hmem
    refine hmem.resolve_left ?_
    rintro rfl
    exact id_not_mem_below hdistinct (hself ▸ hi)
  unfold holders
  cases h with
  | kept ht h =>
    rw [ht]
    exact h.mirrored hw.toCarries hroot (fun m hmem => (plain_of_kept hd ht m hmem).1)
      ⟨hitem, hdistinct, hbelow⟩ rfl (hself.trans (hw.kept item hi ht).symm)
      (h.matches hw.toCarries hroot rfl hb) hnext
  | removed ht =>
    -- the item did nothing but declare imports, and what is left of it does nothing
    rw [ht]
    have hgone : w.Mirrored []
        ((Node.mk item.id item.span .removed).steps here' (next + w.opened)) [] := by
      rw [steps_eq, step_of_isInert rfl]
      exact .added rfl nofun .nil
    have hboth := (mirrored_of_lost (lost_of_removed hd ht here next)).append hgone
    rwa [List.append_nil] at hboth
  | @unwrapped d d' ht h =>
    rw [ht]
    have hdroot := Node.mem_nodes_below hroot (unwrapped_mem_children ht)
    obtain ⟨hmoved, hold⟩ := hw.unwrapped item hi d ht
    obtain ⟨hbeside, hsteps⟩ := exported_steps hd (.inl ht) hb next
    refine hsteps _ _ (h.mirrored hw.toCarries hdroot
      (fun m hmem => (plain_exported hm hi (.inl ht) m hmem).1)
      ⟨hm.distinct.node hdroot, hdistinct, fun i hi hold' => ?_⟩ rfl hmoved.symm
      (h.matches hw.toCarries hdroot (show (Node.mk item.id item.span d'.kind).kind = _ from rfl)
        hbeside) hnext)
    have hmem := hbelow i hi hold'
    rw [children_of_exported hd (.inl ht), idsOf_singleton, List.mem_cons] at hmem
    exact hmem.resolve_left fun heq => hold (heq ▸ hold')
  | @held v v' value target d ht h hvalue hname hdeclarator =>
    rw [ht]
    have hvroot := Node.mem_nodes_below hroot (held_mem_children ht)
    obtain ⟨hbeside, hsteps⟩ := exported_steps hd (.inr ht) hb next
    have hids : idsOf [value] = idsOf [v'] := by
      rw [hvalue]
      split
      · rw [idsOf_singleton, idsOf_singleton, Node.withKind, Node.kind, children_asExpression]
        rfl
      · rfl
    have hdd : d.Distinct := hdistinct.child (List.mem_singleton_self d)
    obtain ⟨hold, hgrown⟩ := grown_held hdd (by rw [hdeclarator]; rfl) hids
      (hm.distinct.node hvroot) h.id (h.idsOf_subset hw.drops hvroot) fun i hi hold => by
        rw [← children_of_exported hd (.inr ht)]
        refine hbelow i ?_ hold
        change i ∈ idsOf [d]
        rw [idsOf_singleton]
        exact List.mem_cons_of_mem _ hi
    have hnew : IsNew w d target := ⟨.inl ⟨_, hname⟩, hold, fun g hread =>
      Bool.noConfusion ((isRead_held hdd hdeclarator g).symm.trans hread)⟩
    exact hsteps _ _ (mirrored_holder rfl hdeclarator hnew
      (h.mirrored_held hw hm hi ht hvalue rfl hdeclarator hgrown hbeside hnext))

end

end EsModule.Compile
