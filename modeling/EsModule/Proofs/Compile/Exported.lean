import EsModule.Proofs.Compile.ExportTable
import EsModule.Proofs.Compile.Linking
import EsModule.Proofs.Compile.Readers
import EsModule.Proofs.Scope.Placed

/-!
# What the exports of a compiled module denote

A reader of an export gives back a variable of the module, the constant of a default export, or a
member or the namespace of a handle, and each of these names is listed by the binding that this very
declaration makes in the compiled module (`exports_denote`). A variable that has the name of a
capability shares the binding of the parameter. The only other names are those that a list of exports
takes from the module and that the module does not declare. They are not looked up when the module is
compiled, so the reader names a global then (`export_of_global`), or what was made for the module
under this name.
-/

namespace EsModule.Compile

open EsModule.Syntax EsModule.Scope EsModule.SourceMap

variable {m : Module} {items : List Node}

/-! ## What exports are read from -/

/-- What the expression that reads an export is, by what the module declares and imports. -/
inductive ExportedFrom (m : Module) (items : List Node) (exported : String) : Reading → Prop where
  | own {x b} (hb : m.scopes.bindingAt? 0 x = some b) (hkind : b.kind ≠ .imported) :
      ExportedFrom m items exported (.variable x)
  | holder {item value} (hi : item ∈ items) (ht : treatment item = .held value)
      (hexported : exported = defaultExport) :
      ExportedFrom m items exported (.variable defaultHolder)
  | member {source name} (hs : source ∈ dependencies items) :
      ExportedFrom m items exported (.member (handleOf (dependencies items) source) name)
  | namespaceOf {source} (hs : source ∈ dependencies items) :
      ExportedFrom m items exported (.namespaceOf (handleOf (dependencies items) source))
  | unbound {item specifiers x} (hi : item ∈ items)
      (hk : item.kind = .exportNamedDeclaration none specifiers none)
      (hs : (x, exported) ∈ exportPairs specifiers) (hnone : m.scopes.bindingAt? 0 x = none) :
      ExportedFrom m items exported (.variable x)

/-- The own name of a function or a class is that of an identifier which it binds. -/
theorem exists_ownName {y : Bool} {nt : Nonterminal} {n : Node} (h : Derives y nt n) :
    ∀ x, ownName? n = some x → ∃ i ∈ targetsOf n, i.name? = some x := by
  induction h with
  | @functionDeclaration y named id span f hnamed hn hp hr hb ihn ihp ihb =>
    intro x hx
    obtain ⟨i, hi, rfl⟩ := Option.map_eq_some_iff.mp hx
    refine ⟨i, Option.mem_toList.mpr hi, ?_⟩
    cases hn i hi
    rfl
  | @classDeclaration y named id span c hnamed hn hp hb ihn ihp ihb =>
    intro x hx
    obtain ⟨i, hi, rfl⟩ := Option.map_eq_some_iff.mp hx
    refine ⟨i, Option.mem_toList.mpr hi, ?_⟩
    cases hn i hi
    rfl
  | _ => first | assumption | exact fun _ hx => nomatch hx

namespace IsRead

variable (h : IsRead m items)

include h

/-- A declaration of the program that is no import makes or shares a binding that is no import. -/
theorem exists_binding {q : Placement} (hq : q ∈ placementsOf m.root) (hscope : q.scope = 0)
    (hkind : q.kind ≠ .imported) :
    ∃ b, m.scopes.bindingAt? 0 q.name = some b ∧ b.kind ≠ .imported := by
  have hc := collect_iff.mp ⟨_, h.scopes⟩
  obtain ⟨d, hd⟩ := firstAt?_isSome_of_mem (p := q)
    (List.mem_filter.mpr ⟨hq, decide_eq_true hkind⟩ :
      q ∈ (placementsOf m.root).filter (·.kind ≠ .imported))
  rw [firstAt?_not_imported hc fun p hp q hq => imported_of_node h.tree hp hq,
    Option.filter_eq_some_iff, hscope, ← (collected h.scopes).declared] at hd
  obtain ⟨hdeclared, hplain⟩ := hd
  obtain ⟨b, hb, rfl⟩ := Option.map_eq_some_iff.mp hdeclared
  exact ⟨b, hb, by simpa using hplain⟩

/-- What a node right below an item declares for its surroundings is declared in the program's
scope. -/
theorem exists_binding_of_declared {item n : Node} (hi : item ∈ items)
    (hn : n ∈ item.kind.children) {d : Declaration} (hd : d ∈ declarations n)
    (howner : ownerAt m.root n [item, m.root] d.place = m.root) (hkind : d.kind ≠ .imported) :
    ∃ b, m.scopes.bindingAt? 0 d.name = some b ∧ b.kind ≠ .imported := by
  have habove : m.root.Ancestors n [item, m.root] := by
    refine .child (.child .here ?_) hn
    rw [h.tree.kind]
    exact hi
  obtain ⟨q, hq, hof⟩ := exists_match ((collected h.scopes).forall₂_placementsOf h.tree).flip
    (a := (n, d)) (List.mem_flatMap.mpr ⟨n, habove.mem_nodes, List.mem_map_of_mem hd⟩)
  obtain ⟨-, as, has, hscope⟩ := hof.scope
  obtain rfl := has.unique h.tree.distinct habove
  rw [howner] at hscope
  have hname : q.name = d.name := hof.name
  rw [← hname]
  exact h.exists_binding hq (scope_unique h.tree.distinct hscope rfl) (by rw [hof.kind]; exact hkind)

/-- An exported declaration binds its names in the program's scope. -/
theorem exists_binding_of_bound {item n i : Node} {x : String} (hi : item ∈ items)
    (hn : n ∈ item.kind.children) (hplain : isScopable item.kind = false)
    (hform : isDeclaration n = true) (hbound : i ∈ n.boundIdentifiers) (hx : i.name? = some x) :
    ∃ b, m.scopes.bindingAt? 0 x = some b ∧ b.kind ≠ .imported := by
  have howners : scopeOwners [item, m.root] = [m.root] := by
    rw [scopeOwners_of_not_scopable hplain,
      scopeOwners_of_opens (opensScope_of_kind h.tree.kind rfl)]
    rfl
  -- the program is the only node around the item that has a scope
  have hfind : ∀ test : Node → Bool, ([m.root].find? test).getD m.root = m.root := by
    intro test
    rw [List.find?_singleton]
    split <;> rfl
  have hvar : varOwner m.root [item, m.root] = m.root := by rw [varOwner, howners, hfind]
  have hblock : blockOwner m.root [item, m.root] = m.root := by rw [blockOwner, howners, hfind]
  have hdeclared := fun d hd howner hkind =>
    h.exists_binding_of_declared hi hn (d := d) hd howner hkind
  replace hbound : i ∈ targetsOf n := target_eq n ▸ hbound
  cases hk : n.kind with
  | variableDeclaration word declarators =>
    rw [targetsOf, hk] at hbound
    obtain ⟨v, hv, hbound⟩ := List.mem_flatMap.mp hbound
    obtain ⟨hfunction, houter⟩ : ownerAt m.root n [item, m.root] .function =
        varOwner m.root [item, m.root] ∧
        ownerAt m.root n [item, m.root] .block = blockOwner m.root [item, m.root] :=
      ownerAt_of_not_scopable (by rw [hk]; rfl)
    refine hdeclared ⟨(variableBinding word).1, (variableBinding word).2, x, v.id⟩ ?_ ?_ ?_
    · rw [declarations, hk]
      exact List.mem_flatMap.mpr ⟨v, hv, mem_declareAll.mpr ⟨i, hbound, x, hx, rfl⟩⟩
    · cases word
      · exact hfunction.trans hvar
      · exact houter.trans hblock
      · exact houter.trans hblock
    · cases word <;> simp [variableBinding]
  | functionDeclaration f =>
    rw [targetsOf, hk] at hbound
    refine hdeclared ⟨.outerBlock, .hoisted, x, n.id⟩ ?_ ?_ (by simp)
    · rw [declarations, hk]
      exact List.mem_append_right _ (mem_declareAll.mpr ⟨i, hbound, x, hx, rfl⟩)
    · exact (ownerAt_of_opens (opensScope_of_kind hk rfl)).2.trans hblock
  | classDeclaration c =>
    rw [targetsOf, hk] at hbound
    refine hdeclared ⟨.outerBlock, .letBinding, x, n.id⟩ ?_ ?_ (by simp)
    · rw [declarations, hk]
      exact mem_declareAll.mpr ⟨i, hbound, x, hx, rfl⟩
    · exact (ownerAt_of_opens (opensScope_of_kind hk rfl)).2.trans hblock
  | _ => simp [isDeclaration, hk] at hform

omit h in
/-- Imported names are read through the handles of dependencies. -/
theorem exportedFrom_importReadings {exported : String} {i : Nat} {r : Reading}
    (hr : (i, r) ∈ importReadings (handleOf (dependencies items)) items) :
    ExportedFrom m items exported r := by
  obtain ⟨item, hi, specifiers, source, hk, s, -, -, name, hname⟩ := mem_importReadings.mp hr
  have hs : source ∈ dependencies items := mem_dependencies hi (by rw [sourceOf?, hk])
  rcases importedName?_eq hname with ⟨rfl, -⟩ | ⟨rfl, -⟩
  · exact .member hs
  · exact .namespaceOf hs

/-- A name that a list of exports takes from the module is an imported one, one of the module's own,
or none. -/
theorem exportedFrom_list {item : Node} {specifiers : List Node} {x exported : String}
    (hi : item ∈ items) (hk : item.kind = .exportNamedDeclaration none specifiers none)
    (hs : (x, exported) ∈ exportPairs specifiers) :
    ExportedFrom m items exported ((importedReading?
      (importReadings (handleOf (dependencies items)) items) m.scopes x).getD (.variable x)) := by
  have hreading : importedReading? (importReadings (handleOf (dependencies items)) items) m.scopes x =
      (m.scopes.bindingAt? 0 x).bind fun b => if b.kind = .imported then
        (importReadings (handleOf (dependencies items)) items).lookup b.node else none := by
    unfold importedReading? ScopeTree.bindingAt?
    cases m.scopes.scopes[0]? <;> rfl
  rw [hreading]
  cases hb : m.scopes.bindingAt? 0 x with
  | none => exact .unbound hi hk hs hb
  | some b =>
    rw [Option.bind_some]
    by_cases hkind : b.kind = .imported
    · rw [if_pos hkind]
      cases hlookup : (importReadings (handleOf (dependencies items)) items).lookup b.node with
      | some r => exact exportedFrom_importReadings (mem_of_lookup hlookup)
      | none =>
        obtain ⟨-, r, hr⟩ := h.exists_reading hb hkind
        simpa using List.lookup_eq_none_iff.mp hlookup _ hr
    · rw [if_neg hkind]
      exact .own hb hkind

/-- A declaration that is exported with the item exports variables of the program. -/
theorem exportedFrom_unwrapped {item declaration i : Node} {x : String} (hi : item ∈ items)
    (ht : treatment item = .unwrapped declaration) (hbound : i ∈ declaration.boundIdentifiers)
    (hx : i.name? = some x) (exported : String) : ExportedFrom m items exported (.variable x) := by
  have hplain : isScopable item.kind = false := by
    unfold treatment at ht
    split at ht <;> first | (cases ht; done) | (rename_i hk; rw [hk]; rfl)
  obtain ⟨b, hb, hkind⟩ := h.exists_binding_of_bound hi (unwrapped_mem_children ht) hplain
    (isDeclaration_of_unwrapped (h.tree.items item hi) ht) hbound hx
  exact .own hb hkind

/-- The default export is a function or a class with its name, or what is held. -/
theorem exportedFrom_default {item declaration : Node} (hi : item ∈ items)
    (hk : item.kind = .exportDefaultDeclaration declaration) : ExportedFrom m items defaultExport
      (.variable ((ownName? declaration).getD defaultHolder)) := by
  cases hown : ownName? declaration with
  | none =>
    have ht : treatment item = .held declaration := by
      rw [treatment, hk]
      simp [hown]
    exact .holder hi ht rfl
  | some x =>
    have ht : treatment item = .unwrapped declaration := by
      rw [treatment, hk]
      simp [hown]
    obtain ⟨i, hbound, hx⟩ : ∃ i ∈ targetsOf declaration, i.name? = some x := by
      have hderives := h.tree.items item hi
      cases hderives with
      | exportDefaultDeclaration hd | exportDefaultValue hd =>
        cases hk
        exact exists_ownName hd x hown
      | statementItem hd =>
        have htop := hd.isTop nofun
        rw [Node.isTop, hk] at htop
        cases htop
      | importItem | exportList | exportVariables | exportDeclaration | exportAll => cases hk
    exact h.exportedFrom_unwrapped hi ht
      (show i ∈ declaration.bound.target from (target_eq declaration).symm ▸ hbound) hx _

/-- What an item exports itself. -/
theorem exportedFrom_explicit {item : Node} (hi : item ∈ items) {exported : String × Reading}
    (he : exported ∈ explicitExports (handleOf (dependencies items)) (importedReading?
      (importReadings (handleOf (dependencies items)) items) m.scopes) item) :
    ExportedFrom m items exported.1 exported.2 := by
  unfold explicitExports at he
  split at he
  · -- the names of a declaration
    rename_i declaration _ _ hk
    obtain ⟨i, hbound, he⟩ := List.mem_filterMap.mp he
    obtain ⟨x, hx, rfl⟩ := Option.map_eq_some_iff.mp he
    exact h.exportedFrom_unwrapped hi (by rw [treatment, hk]) hbound hx x
  · -- names of another module
    rename_i specifiers source hk
    obtain ⟨⟨name, asName⟩, -, rfl⟩ := List.mem_map.mp he
    exact .member (mem_dependencies hi (by rw [sourceOf?, hk]))
  · rename_i specifiers hk
    obtain ⟨⟨x, asName⟩, hpair, rfl⟩ := List.mem_map.mp he
    exact h.exportedFrom_list hi hk hpair
  · rename_i declaration hk
    obtain rfl := List.mem_singleton.mp he
    exact h.exportedFrom_default hi hk
  · cases he

theorem exportedFrom_allExports {lookup : ExportLookup} {exported : String × Reading}
    (he : exported ∈ (Interface.ofItems items m.scopes).allExports lookup) :
    ExportedFrom m items exported.1 exported.2 := by
  rcases List.mem_append.mp he with he | he
  · obtain ⟨item, hi, he⟩ := List.mem_flatMap.mp (mem_firstOfEach he)
    exact h.exportedFrom_explicit hi he
  · obtain ⟨source, hs, hreading | ⟨names, name, -, -, hreading⟩⟩ := reading_of_starExports he
    · exact hreading ▸ .namespaceOf hs
    · exact hreading ▸ .member hs

end IsRead

/-! ## Names that are made -/

/-- Whether a name is one that compiling makes for a module with some items. -/
def IsMade (items : List Node) (x : String) : Prop :=
  IsSupplied (dependencies items) x ∨
    x = defaultHolder ∧ ∃ item ∈ items, ∃ value, treatment item = .held value

theorem IsMade.isGeneratedName {x : String} (h : IsMade items x) : IsGeneratedName x := by
  rcases h with (⟨c, rfl⟩ | ⟨k, -, rfl⟩) | ⟨rfl, -⟩
  · exact .inr (.inl ⟨c, rfl⟩)
  · exact .inl ⟨k, rfl⟩
  · exact .inr (.inr rfl)

/-- What a name that is made for a module is bound to. -/
inductive IsMadeFor (p : Parts) (specifiers : List String) : String → BindingKind → Nat → Prop where
  /-- A capability is a parameter of the function. -/
  | capability {c : Capability} {param} (hparam : param ∈ p.params)
      (hname : param.kind = .identifier c.name) : IsMadeFor p specifiers c.name .param param.id
  /-- The handle of a dependency is the constant into which the dependency is imported. -/
  | handle {k source statement declarator} (hk : specifiers[k]? = some source)
      (hs : statement ∈ p.imports) (himport : ImportsAs source (handleName k) statement)
      (hconstant : DeclaresConstant (handleName k) declarator statement) :
      IsMadeFor p specifiers (handleName k) .constBinding declarator.id
  /-- The last one is the constant that holds what a default export evaluates to. -/
  | holder {statement declarator} (hs : statement ∈ p.items)
      (hconstant : DeclaresConstant defaultHolder declarator statement) :
      IsMadeFor p specifiers defaultHolder .constBinding declarator.id

/-- What is made is a constant of the body, but for the capabilities. -/
theorem IsMadeFor.constant {p : Parts} {specifiers : List String} {x : String}
    {kind : BindingKind} {i : Nat} (h : IsMadeFor p specifiers x kind i)
    (hx : ∀ c : Capability, x ≠ c.name) : kind = .constBinding ∧
      ∃ statement ∈ p.imports ++ p.items, ∃ declarator : Node,
        DeclaresConstant x declarator statement ∧ i = declarator.id := by
  cases h with
  | @capability c => exact absurd rfl (hx c)
  | handle hk hs himport hconstant =>
    exact ⟨rfl, _, List.mem_append_left _ hs, _, hconstant, rfl⟩
  | holder hs hconstant => exact ⟨rfl, _, List.mem_append_right _ hs, _, hconstant, rfl⟩

/-! ## What the readers give back -/

/-- Whether an identifier is read and means what a node declares for the function of a compiled
module. -/
structure Means (tree n : Node) (x : String) (kind : BindingKind) (node : Nat) : Prop where
  /-- It spells the name. -/
  name : n.kind = .identifier x
  /-- It is read, -/
  read : ∃ u ∈ usesIn tree, u.node = n.id ∧ u.access = .read
  /-- the node declares the name in the scope of the function, -/
  declared : ⟨1, kind, x, node⟩ ∈ placementsOf tree
  /-- and the nearest scope that has the name is that one. -/
  target : ∀ u ∈ usesIn tree, u.node = n.id → targetIn? (placementsOf tree) u = some 1
  /-- So it is no global, if no declarations clash, but a reference of the binding that the node
  makes. -/
  recorded : ∀ t, collect tree = .ok t → n.id ∉ t.globals ∧
    ∃ b, t.bindingAt? 1 x = some b ∧ b.kind = kind ∧ b.node = node ∧ n.id ∈ b.references

/-- Whether an identifier is read and means nothing that is declared. -/
structure IsGlobal (tree n : Node) : Prop where
  /-- It is read, -/
  read : ∃ u ∈ usesIn tree, u.node = n.id ∧ u.access = .read
  /-- and no scope around it has its name. -/
  target : ∀ u ∈ usesIn tree, u.node = n.id → targetIn? (placementsOf tree) u = none
  /-- So it is recorded as a global, if no declarations clash. -/
  recorded : ∀ t, collect tree = .ok t → n.id ∈ t.globals

/-- Whether an identifier means the constant into which a module is imported. -/
def IsHandle (p : Parts) (tree n : Node) (source : String) : Prop :=
  ∃ statement ∈ p.imports, ∃ handle declarator, ImportsAs source handle statement ∧
    DeclaresConstant handle declarator statement ∧
    Means tree n handle .constBinding declarator.id

/-- What the value of an export is. -/
inductive Denotes (m : Module) (p : Parts) (tree : Node) (exported : String) (value : Node) :
    Prop where
  /-- A variable that the program declares. -/
  | own {x b} (hb : m.scopes.bindingAt? 0 x = some b) (hkind : b.kind ≠ .imported)
      (hplain : ∀ c : Capability, x ≠ c.name)
      (hvalue : Means tree value x b.kind (standIn m.root p.function b.node))
  /-- A variable of the program that has the name of a capability. The parameter of this name is
  declared before it in the same scope, so both share the binding of the parameter. -/
  | capability {c : Capability} {b param} (hb : m.scopes.bindingAt? 0 c.name = some b)
      (hkind : b.kind ≠ .imported)
      (hdeclared : ⟨1, b.kind, c.name, standIn m.root p.function b.node⟩ ∈ placementsOf tree)
      (hparam : param ∈ p.params) (hvalue : Means tree value c.name .param param.id)
  /-- The constant that holds what a default export evaluates to. -/
  | holder {statement declarator} (hexported : exported = defaultExport)
      (hs : statement ∈ p.items) (hconstant : DeclaresConstant defaultHolder declarator statement)
      (hvalue : Means tree value defaultHolder .constBinding declarator.id)
  /-- A member of another module. -/
  | member {source object key computed} (hs : source ∈ m.interface.dependencies)
      (hvalue : value.kind = .memberExpression object key computed false)
      (hobject : IsHandle p tree object source)
  /-- The namespace of another module. -/
  | namespaceOf {source callee argument param} (hs : source ∈ m.interface.dependencies)
      (hvalue : value.kind = .callExpression callee [argument] false) (hparam : param ∈ p.params)
      (hcallee : Means tree callee Capability.namespaceOf.name .param param.id)
      (hargument : IsHandle p tree argument source)
  /-- A global, if a list exports a name that the program does not declare, -/
  | unbound {item specifiers x} (hi : item ∈ itemsOf m.root)
      (hlist : item.kind = .exportNamedDeclaration none specifiers none)
      (hs : (x, exported) ∈ exportPairs specifiers) (hnone : m.scopes.bindingAt? 0 x = none)
      (hvalue : value.kind = .identifier x) (hglobal : IsGlobal tree value)
  /-- or else what was made for the module under this name. -/
  | inserted {item specifiers x kind node} (hi : item ∈ itemsOf m.root)
      (hlist : item.kind = .exportNamedDeclaration none specifiers none)
      (hs : (x, exported) ∈ exportPairs specifiers) (hnone : m.scopes.bindingAt? 0 x = none)
      (hmade : IsMadeFor p m.interface.dependencies x kind node)
      (hvalue : Means tree value x kind node)

section

variable {p : Parts} {tree reader n : Node} {exports : List (String × Reading)}
  {dependencies : List String} {x : String} {as : List Node}

/-- An identifier in a reader means what declares its name for the function first. -/
theorem Parts.Of.means (hp : p.Of tree exports dependencies) (hd : tree.Distinct)
    (hn : p.Reads tree reader n x as) {kind : BindingKind} {j : Nat}
    (hq : ⟨1, kind, x, j⟩ ∈ placementsOf tree)
    (hfirst : Compatible (fun _ _ => none) (placementsOf tree) →
      firstAt? (placementsOf tree) 1 x = some (kind, j)) : Means tree n x kind j := by
  have hx : n.name? = some x := by rw [Node.name?, hn.name]
  obtain ⟨u, hu, haccess, hat⟩ := exists_use_of_read hp.root hd hn.place hx hn.read
  -- a global resolves to nothing and a reference to the scope, so one fact decides both
  have htarget : ∀ u ∈ usesIn tree, u.node = n.id → targetIn? (placementsOf tree) u = some 1 :=
    fun u hu hid => hp.resolves hd hn hu hid hq rfl rfl
  refine ⟨hn.name, ⟨u, hu, hat.node, haccess⟩, hq, htarget, fun t ht => ⟨fun hglobal => ?_, ?_⟩⟩
  · obtain ⟨u, hu, hid, hnone⟩ := ((collected ht).globals n.id).mp hglobal
    cases (htarget u hu hid).symm.trans hnone
  · obtain ⟨b, hb⟩ := (collected ht).exists_bindingAt? hq
    obtain ⟨hkind, hnode⟩ := Prod.mk.inj (Option.some.inj
      (((collected ht).firstAt? hb).symm.trans (hfirst (collect_iff.mp ⟨t, ht⟩))))
    refine ⟨b, hb, hkind, hnode,
      ((collected ht).references hb n.id).mpr ⟨u, hu, haccess, hat.node, ?_, ?_⟩⟩
    · exact Option.some.inj (hat.name.symm.trans hx)
    · exact htarget u hu hat.node

/-- One that spells a capability means its parameter. -/
theorem Parts.Of.exists_means_capability (hp : p.Of tree exports dependencies) (hd : tree.Distinct)
    {c : Capability} (hn : p.Reads tree reader n c.name as) :
    ∃ param ∈ p.params, param.kind = .identifier c.name ∧
      Means tree n c.name .param param.id := by
  obtain ⟨param, hparam, hname, hfirst⟩ := hp.firstAt?_capability c
  exact ⟨param, hparam, hname, hp.means hd hn (mem_of_firstAt? hfirst) fun _ => hfirst⟩

/-- It means nothing if the name is declared neither there nor for the program. -/
theorem Parts.Of.isGlobal (hp : p.Of tree exports dependencies) (hd : tree.Distinct)
    (hn : p.Reads tree reader n x as)
    (hnone : ∀ q ∈ placementsOf tree, q.name = x → q.scope ≠ 0 ∧ q.scope ≠ 1) :
    IsGlobal tree n := by
  have hx : n.name? = some x := by rw [Node.name?, hn.name]
  obtain ⟨u, hu, haccess, hat⟩ := exists_use_of_read hp.root hd hn.place hx hn.read
  have htarget : ∀ u ∈ usesIn tree, u.node = n.id → targetIn? (placementsOf tree) u = none :=
    fun u hu hid => hp.unresolved hd hn hu hid hnone
  exact ⟨⟨u, hu, hat.node, haccess⟩, htarget, fun t ht =>
    ((collected ht).globals n.id).mpr ⟨u, hu, hat.node, htarget u hu hat.node⟩⟩

/-- A dependency is imported into its handle, which is a constant of the function. -/
theorem Parts.Of.isHandle (hp : p.Of tree exports dependencies) (hd : tree.Distinct)
    {source : String} (hs : source ∈ dependencies)
    (hn : p.Reads tree reader n (handleOf dependencies source) as) : IsHandle p tree n source := by
  have hindex : (source, dependencies.idxOf source) ∈ dependencies.zipIdx := by
    rw [List.mk_mem_zipIdx_iff_getElem?,
      List.getElem?_eq_getElem (List.idxOf_lt_length_iff.mpr hs), List.getElem_idxOf]
  obtain ⟨statement, hstatement, himport⟩ := exists_match hp.imports hindex
  obtain ⟨declarator, hconstant⟩ := himport.exists_declarator
  have hbody : statement ∈ p.imports ++ p.items := List.mem_append_left _ hstatement
  exact ⟨statement, hstatement, _, declarator, himport, hconstant,
    hp.means hd hn (hp.mem_placementsOf_constant hd hbody hconstant) fun hcompatible =>
      hp.firstAt?_constant hd hcompatible hbody hconstant (handleName_ne_name _)⟩

end

namespace IsRead.Wraps

variable {h : IsRead m items} {p : Parts} {tree : Node} {exports : List (String × Reading)}
  (hw : h.Wraps p tree exports)

include hw

/-- What the program declares is declared for the function. -/
theorem placement_of_binding {x : String} {b : Binding} (hb : m.scopes.bindingAt? 0 x = some b)
    (hkind : b.kind ≠ .imported) :
    ⟨1, b.kind, x, standIn m.root p.function b.node⟩ ∈ placementsOf tree := by
  have hq := (collected h.scopes).mem_placementsOf hb
  exact hw.continues.mem_placementsOf hq hkind

/-- A default export without a name is held by a constant of the function. -/
theorem placement_of_held (hd : tree.Distinct) {item value : Node} (hi : item ∈ items)
    (ht : treatment item = .held value) : ∃ statement ∈ p.items, ∃ declarator,
      DeclaresConstant defaultHolder declarator statement ∧
      ⟨1, .constBinding, defaultHolder, declarator.id⟩ ∈ placementsOf tree := by
  obtain ⟨item', hc⟩ : ∃ item', (item, item') ∈ items.zip p.items := by
    have hfst := List.map_fst_zip hw.items.length_eq.le
    rw [← hfst] at hi
    obtain ⟨⟨_, item'⟩, hc, rfl⟩ := List.mem_map.mp hi
    exact ⟨item', hc⟩
  obtain ⟨-, hi'⟩ := List.of_mem_zip hc
  obtain ⟨hbecomes, -⟩ := (List.forall₂_iff_zip.mp hw.items).2 hc
  obtain ⟨declarator, hconstant, -⟩ := hbecomes.exists_holder ht
  exact ⟨_, hi', declarator, hconstant,
    hw.parts.mem_placementsOf_constant hd (List.mem_append_right _ hi') hconstant⟩

/-- The names that are declared besides those of the module are made for it. -/
theorem isMade_of_mem_made {x : String}
    (hx : x ∈ made (p.front tree) ((items.zip p.items).flatMap fun c => holders c.1 c.2)) :
    IsMade items x := by
  rw [made, List.map_append, hw.parts.names_front, List.mem_append, List.mem_append] at hx
  rcases hx with (hx | hx) | hx
  · obtain ⟨c, -, rfl⟩ := List.mem_map.mp hx
    exact .inl (.inl ⟨c, rfl⟩)
  · obtain ⟨d, hd, rfl⟩ := List.mem_map.mp hx
    exact .inl (.inr ⟨d.2, List.snd_lt_of_mem_zipIdx hd, rfl⟩)
  · obtain ⟨d, hd, rfl⟩ := List.mem_map.mp hx
    obtain ⟨⟨item, item'⟩, hc, hd⟩ := List.mem_flatMap.mp hd
    have hbecomes := ((List.forall₂_iff_zip.mp hw.items).2 hc).1
    cases ht : treatment item with
    | kept | removed | unwrapped =>
      simp [holders, ht] at hd
    | held value =>
      obtain ⟨declarator, -, hholders⟩ := hbecomes.exists_holder ht
      dsimp only at hd
      rw [hholders, List.mem_singleton] at hd
      exact .inr ⟨hd ▸ rfl, item, (List.of_mem_zip hc).1, value, ht⟩

/-- The function declares each name that is made. -/
theorem exists_placement (hd : tree.Distinct) {x : String} (hx : IsMade items x) :
    ∃ kind i, ⟨1, kind, x, i⟩ ∈ placementsOf tree ∧ IsMadeFor p (dependencies items) x kind i := by
  have hp := hw.parts
  rcases hx with (⟨c, rfl⟩ | ⟨k, hk, rfl⟩) | ⟨rfl, item, hi, value, ht⟩
  · obtain ⟨param, hparam, hk, hfirst⟩ := hp.firstAt?_capability c
    exact ⟨_, _, mem_of_firstAt? hfirst, .capability hparam hk⟩
  · have hindex := List.getElem?_eq_getElem hk
    obtain ⟨statement, hs, himport⟩ :=
      exists_match hp.imports (List.mk_mem_zipIdx_iff_getElem?.mpr hindex)
    obtain ⟨declarator, hconstant⟩ := himport.exists_declarator
    exact ⟨_, _, hp.mem_placementsOf_constant hd (List.mem_append_left _ hs) hconstant,
      .handle hindex hs himport hconstant⟩
  · obtain ⟨statement, hs, declarator, hconstant, hdeclared⟩ := hw.placement_of_held hd hi ht
    exact ⟨_, _, hdeclared, .holder hs hconstant⟩

/-- What spells a name that is made means what was made. -/
theorem exists_means_made (hd : tree.Distinct) {reader n : Node} {x : String} {as : List Node}
    (hn : p.Reads tree reader n x as) (hx : IsMade items x) :
    ∃ kind i, IsMadeFor p (dependencies items) x kind i ∧ Means tree n x kind i := by
  by_cases hcapability : ∃ c : Capability, x = c.name
  · obtain ⟨c, rfl⟩ := hcapability
    obtain ⟨param, hparam, hname, hmeans⟩ := hw.parts.exists_means_capability hd hn
    exact ⟨_, _, .capability hparam hname, hmeans⟩
  · rw [not_exists] at hcapability
    obtain ⟨kind, i, hdeclared, hfor⟩ := hw.exists_placement hd hx
    obtain ⟨rfl, statement, hs, declarator, hconstant, rfl⟩ := hfor.constant hcapability
    exact ⟨_, _, hfor, hw.parts.means hd hn hdeclared fun hcompatible =>
      hw.parts.firstAt?_constant hd hcompatible hs hconstant hcapability⟩

/-- If declarations do not clash, a variable of the program is declared for the function before
anything else that has its name, unless that is the name of a capability. -/
theorem firstAt?_own (hd : tree.Distinct)
    (hcompatible : Compatible (fun _ _ => none) (placementsOf tree)) {x : String} {b : Binding}
    (hb : m.scopes.bindingAt? 0 x = some b) (hkind : b.kind ≠ .imported)
    (hx : ∀ c : Capability, x ≠ c.name) : firstAt? (placementsOf tree) 1 x =
      some (b.kind, standIn m.root p.function b.node) := by
  by_cases hmade : x ∈ made (p.front tree) ((items.zip p.items).flatMap fun c => holders c.1 c.2)
  · -- beside a constant stands nothing else, so the variable is the constant
    obtain ⟨kind, i, -, hfor⟩ := hw.exists_placement hd (hw.isMade_of_mem_made hmade)
    obtain ⟨-, statement, hs, declarator, hconstant, -⟩ := hfor.constant hx
    have hfirst := hw.parts.firstAt?_constant hd hcompatible hs hconstant hx
    have hown := hw.placement_of_binding hb hkind
    have hnode : declarator.id = standIn m.root p.function b.node := by
      rcases hcompatible _ hown _ _ (Option.none_or.trans hfirst) with h | h | h
      · exact h
      · cases h
      · cases h.1
    rw [hfirst, hnode, ← hw.parts.kind_of_constant hd hs hconstant hown hnode.symm]
  · have hfirst := hw.continues.firstAt?_placements (collect_iff.mp ⟨_, h.scopes⟩)
      (fun q hq q' hq' => imported_of_node h.tree hq hq') hmade 0
    rw [(collected h.scopes).firstAt? hb, Option.filter_some, if_pos (by simpa using hkind)] at hfirst
    exact hfirst

/-- A name that the program does not declare and that is not made is declared neither for the
function nor for the program of the compiled module. -/
theorem not_placed {x : String} (hnone : m.scopes.bindingAt? 0 x = none) (hx : ¬ IsMade items x)
    {q : Placement} (hq : q ∈ placementsOf tree) (hname : q.name = x) :
    q.scope ≠ 0 ∧ q.scope ≠ 1 := by
  rcases hw.continues.of_mem_placementsOf hq with hmade | ⟨q, hold, hkind, rfl⟩
  · exact absurd (hw.isMade_of_mem_made (hname ▸ hmade)) hx
  · refine ⟨Embedding.scope_ne_zero q.scope, fun hscope => ?_⟩
    -- the scope of the function stands for that of the program, and for no other one
    have hprogram : q.scope = 0 := Embedding.scope_inj hw.continues.opened_ne_zero hscope
    obtain ⟨b, hb, -⟩ := h.exists_binding hold hprogram hkind
    obtain rfl : q.name = x := hname
    cases hnone.symm.trans hb

/-- What the reader of an export gives back is what the export is read from. -/
theorem denotes (hd : tree.Distinct) {exported : String} {r : Reading}
    (hfrom : ExportedFrom m items exported r) {member key reader value : Node}
    (hm : member ∈ p.members) (hmember : member.kind = .property key reader .plain false false false)
    (hreader : reader.kind = .arrowFunction [] value true false) (hread : ReadBy r value.kind) :
    Denotes m p tree exported value := by
  have hp := hw.parts
  have hdependencies : m.interface.dependencies = dependencies items := by
    rw [h.interface]
    rfl
  have hvariable : ∀ {x}, ReadBy (.variable x) value.kind → value.kind = .identifier x := by
    intro x hread
    generalize value.kind = kind at hread
    cases hread
    rfl
  cases hfrom with
  | @own x b hb hkind =>
    have hdeclared := hw.placement_of_binding hb hkind
    have hreads := hp.reads_value hd hm hmember hreader (hvariable hread)
    by_cases hx : ∃ c : Capability, x = c.name
    · obtain ⟨c, rfl⟩ := hx
      obtain ⟨param, hparam, -, hvalue⟩ := hp.exists_means_capability hd hreads
      exact .capability hb hkind hdeclared hparam hvalue
    · rw [not_exists] at hx
      exact .own hb hkind hx (hp.means hd hreads hdeclared fun hcompatible =>
        hw.firstAt?_own hd hcompatible hb hkind hx)
  | @holder item v hi ht hexported =>
    obtain ⟨statement, hs, declarator, hconstant, hdeclared⟩ := hw.placement_of_held hd hi ht
    have hreads := hp.reads_value hd hm hmember hreader (hvariable hread)
    exact .holder hexported hs hconstant (hp.means hd hreads hdeclared fun hcompatible =>
      hp.firstAt?_constant hd hcompatible (List.mem_append_right _ hs) hconstant
        defaultHolder_ne_name)
  | @member source name hs =>
    generalize hkind : value.kind = kind at hread
    cases hread with
    | member ho hkey =>
      exact .member (hdependencies ▸ hs) hkind
        (hp.isHandle hd hs (hp.reads_object hd hm hmember hreader hkind ho))
  | @namespaceOf source hs =>
    generalize hkind : value.kind = kind at hread
    cases hread with
    | namespaceOf hcallee hargument =>
      obtain ⟨param, hparam, -, hmeans⟩ := hp.exists_means_capability hd
        (hp.reads_called hd hm hmember hreader hkind (.inl rfl) hcallee)
      exact .namespaceOf (hdependencies ▸ hs) hkind hparam hmeans
        (hp.isHandle hd hs (hp.reads_called hd hm hmember hreader hkind (.inr rfl) hargument))
  | @unbound item specifiers x hi hlist hs hnone =>
    have hreads := hp.reads_value hd hm hmember hreader (hvariable hread)
    rw [← h.itemsOf] at hi
    by_cases hx : IsMade items x
    · obtain ⟨kind, i, hmade, hmeans⟩ := hw.exists_means_made hd hreads hx
      exact .inserted hi hlist hs hnone (hdependencies ▸ hmade) hmeans
    · exact .unbound hi hlist hs hnone (hvariable hread)
        (hp.isGlobal hd hreads fun q hq hname => hw.not_placed hnone hx hq hname)

end IsRead.Wraps

/-! ## The table of exports -/

/-- Whether a member of a table of exports reads what an export is. -/
def IsDenoted (m : Module) (p : Parts) (tree : Node) (exported : String) (member : Node) : Prop :=
  ∃ key reader value : Node, member.kind = .property key reader .plain false false false ∧
    IsKey exported key ∧ reader.kind = .arrowFunction [] value true false ∧
    Denotes m p tree exported value

/-- What is known of the values in the table of exports of a compiled module. -/
structure ExportsDenote (m : Module) (lookup : ExportLookup) (out : Output) : Prop where
  /-- The code is the final tree in print. -/
  code : out.code = (generate (m.finalTree lookup) m.source m.file).code
  /-- In this tree the function has the scope with number one, and the members of the table of exports
  read what the exports are. -/
  denoted : ∃ p : Parts, p.Of (m.finalTree lookup) (m.interface.allExports lookup)
      m.interface.dependencies ∧ (openersOf (m.finalTree lookup))[1]? = some p.function.id ∧
    List.Forall₂ (IsDenoted m p (m.finalTree lookup)) out.exports p.members

/-- The readers of the exports of a module are as `ExportsDenote` says. -/
theorem exports_denote {source file : String} {m : Module} {lookup : ExportLookup} {out : Output}
    (hm : Module.ofSource source file = .ok m) (ho : m.output lookup = .ok out) :
    ExportsDenote m lookup out := by
  obtain ⟨-, -, items, h⟩ := isRead_of_ofSource hm
  obtain ⟨-, rfl⟩ := output_eq_ok.mp ho
  obtain ⟨p, hw⟩ := h.exists_wraps (m.interface.allExports lookup)
  have hdependencies : m.interface.dependencies = dependencies items := by
    rw [h.interface]
    rfl
  have hp := hw.parts
  refine ⟨by dsimp only, p, hdependencies ▸ hp, hp.openersOf_tree.2, ?_⟩
  dsimp only
  rw [List.forall₂_map_left_iff, List.forall₂_iff_zip]
  refine ⟨hp.members.length_eq, fun {e member} hmem => ?_⟩
  obtain ⟨he, hmember⟩ := List.of_mem_zip hmem
  obtain ⟨key, reader, value, hk, hkey, hreader, hread⟩ :=
    (List.forall₂_iff_zip.mp hp.members).2 hmem
  rw [h.interface] at he
  exact ⟨key, reader, value, hk, hkey, hreader,
    hw.denotes hw.distinct_compiled (h.exportedFrom_allExports he) hmember hk hreader hread⟩

/-- Own variables, imported names and a default export, whose names do not clash. -/
theorem exports_denote_mixed : ∃ m out t,
    Module.ofSource "import a, * as n from 'x'; export { a, n, b as c }; let b; export default 1;"
      "test.js" = .ok m ∧ m.output noExports = .ok out ∧
      collect (m.finalTree noExports) = .ok t ∧ ExportsDenote m noExports out := by
  have hok : ((Module.ofSource
      "import a, * as n from 'x'; export { a, n, b as c }; let b; export default 1;"
      "test.js") >>= fun m => m.output noExports >>= fun _ => .ok
        (collect (m.finalTree noExports)).toBool) = .ok true := by
    decide +kernel
  obtain ⟨m, hm, hok⟩ := bind_eq_ok.mp hok
  obtain ⟨out, ho, hok⟩ := bind_eq_ok.mp hok
  cases ht : collect (m.finalTree noExports) with
  | error =>
    rw [ht] at hok
    cases hok
  | ok t => exact ⟨m, out, t, hm, ho, ht, exports_denote hm ho⟩

/-- The name of a capability is read twice here, by the statement that installs the readers and by the
reader of the export. Both uses belong to the parameter. -/
example : (Module.ofSource "export var __VIRTUAL_EXPORT__ = 1;" "test.js" >>= fun m =>
    m.output noExports >>= fun _ => .ok ((collect (m.finalTree noExports)).toOption.bind fun t =>
      (t.bindingAt? 1 "__VIRTUAL_EXPORT__").map fun b => (b.kind, b.references.length))) =
    .ok (some (.param, 2)) := by
  decide +kernel

/-- A list may export a name that nothing declares. The reader then names a global. -/
theorem export_of_global : ∃ (m : Module) (out : Output) (p : Parts) (t : ScopeTree),
    Module.ofSource "export { x };" "test.js" = .ok m ∧ m.output noExports = .ok out ∧
      p.Of (m.finalTree noExports) (m.interface.allExports noExports) m.interface.dependencies ∧
      collect (m.finalTree noExports) = .ok t ∧
      ∃ member ∈ p.members, ∃ key reader value : Node,
        member.kind = .property key reader .plain false false false ∧ IsKey "x" key ∧
        reader.kind = .arrowFunction [] value true false ∧ value.kind = .identifier "x" ∧
        value.id ∈ t.globals := by
  have hok : (Module.ofSource "export { x };" "test.js" >>= fun m => m.output noExports >>=
      fun _ => .ok (m.interface.allExports noExports, (m.scopes.bindingAt? 0 "x").isNone,
        (collect (m.finalTree noExports)).toBool)) = .ok ([("x", .variable "x")], true, true) := by
    decide +kernel
  obtain ⟨m, hm, hok⟩ := bind_eq_ok.mp hok
  obtain ⟨out, ho, hok⟩ := bind_eq_ok.mp hok
  obtain ⟨hexports, hok⟩ := Prod.mk.inj (Except.ok.inj hok)
  obtain ⟨hnone, hok⟩ := Prod.mk.inj hok
  obtain ⟨-, -, items, h⟩ := isRead_of_ofSource hm
  obtain ⟨p, hw⟩ := h.exists_wraps (m.interface.allExports noExports)
  have hdependencies : m.interface.dependencies = dependencies items := by
    rw [h.interface]
    rfl
  have hp := hw.parts
  have hmembers := hp.members
  rw [hexports] at hmembers
  obtain ⟨member, hmember, key, reader, value, hk, hkey, hreader, hread⟩ :=
    exists_match hmembers (List.mem_singleton_self _)
  have hvalue : value.kind = .identifier "x" := by
    generalize value.kind = kind at hread
    cases hread
    rfl
  have hx : ¬ IsMade items "x" := fun hx =>
    absurd (toList_of_isGeneratedName hx.isGeneratedName) (by decide)
  have hglobal : IsGlobal (m.finalTree noExports) value :=
    hp.isGlobal hw.distinct_compiled
      (hp.reads_value hw.distinct_compiled hmember hk hreader hvalue) fun q hq hname =>
        hw.not_placed (Option.isNone_iff_eq_none.mp hnone) hx hq hname
  cases ht : collect (m.finalTree noExports) with
  | error =>
    rw [ht] at hok
    cases hok
  | ok t =>
    exact ⟨m, out, p, t, hm, ho, hdependencies ▸ hp, ht, member, hmember, key, reader, value, hk,
      hkey, hreader, hvalue, hglobal.recorded t ht⟩

end EsModule.Compile
