import EsModule.Proofs.Compile.Elimination

/-!
# Imports that the other modules have

Compiling stops at the first name that an import or an export from another module requires and that
the other module is known not to have. If it does not stop and all dependencies are known, then every
member that new code reads of a handle is an export of the module behind the handle: the required
names were checked, and names of exports of everything come out of the other module's list.
-/

namespace EsModule.Compile

open EsModule.Syntax EsModule.Scope EsModule.SourceMap EsModule.Text

/-! ## Required names -/

/-- The export that one name of an import requires. A namespace requires none. -/
def requiredName? (specifier : Node) : Option String :=
  match specifier.kind with
  | .importSpecifier imported _ => some imported
  | .importDefaultSpecifier _ => some defaultExport
  | _ => none

/-- The name that one name of a list of exports takes from where the list is exported. -/
def localName? (specifier : Node) : Option String :=
  match specifier.kind with
  | .exportSpecifier binding _ => binding.name?
  | _ => none

/-- What an import requires of other modules. -/
def importedNames (item : Node) : List (String × String) :=
  match item.kind with
  | .importDeclaration specifiers source => (specifiers.filterMap requiredName?).map (source, ·)
  | _ => []

/-- What an export from another module requires of it. -/
def reexportedNames (item : Node) : List (String × String) :=
  match item.kind with
  | .exportNamedDeclaration none specifiers (some source) =>
    (specifiers.filterMap localName?).map (source, ·)
  | _ => []

/-- The names that items require, each with the other module: those of imports come first. -/
def requiredNames (items : List Node) : List (String × String) :=
  items.flatMap importedNames ++ items.flatMap reexportedNames

/-- Whether a module is known not to have an export. -/
def IsAbsent (lookup : ExportLookup) (required : String × String) : Prop :=
  ∃ names, lookup required.1 = some names ∧ required.2 ∉ names

/-- The same as a test. -/
def isAbsent (lookup : ExportLookup) (required : String × String) : Bool :=
  (lookup required.1).any (required.2 ∉ ·)

theorem isAbsent_iff {lookup : ExportLookup} {required : String × String} :
    isAbsent lookup required = true ↔ IsAbsent lookup required := by
  unfold isAbsent IsAbsent
  cases lookup required.1 <;> simp

/-- What a statement requires, each name with the other module. -/
def Import.required (i : Import) : List (String × String) :=
  (i.names.filterMap (·.required?)).map (i.specifier, ·)

theorem findSome?_filter {α β : Type} (f : α → Option β) (p : β → Bool) (l : List α) :
    l.findSome? (fun a => (f a).filter p) = (l.filterMap f).find? p := by
  induction l with
  | nil => rfl
  | cons a l ih =>
    rw [List.findSome?_cons, List.filterMap_cons, ih]
    cases f a with
    | none => rfl
    | some b =>
      rw [List.find?_cons, Option.filter_some]
      cases p b <;> rfl

theorem missing?_eq (lookup : ExportLookup) (i : Import) :
    (i.missing? lookup).map (i.specifier, ·) = i.required.find? (isAbsent lookup) := by
  rw [Import.required, List.find?_map]
  congr 1
  unfold Import.missing?
  cases hlookup : lookup i.specifier with
  | none =>
    have hnone : isAbsent lookup ∘ (i.specifier, ·) = fun _ => false := by
      funext name
      simp [isAbsent, hlookup]
    rw [hnone, List.find?_eq_none.mpr (by simp)]
    rfl
  | some available =>
    have hsome : isAbsent lookup ∘ (i.specifier, ·) = fun name => decide (name ∉ available) := by
      funext name
      simp [isAbsent, hlookup]
    rw [hsome, ← findSome?_filter]
    rfl

/-- The check of imports stops at the first required name that is absent. -/
theorem checkImports_eq (lookup : ExportLookup) (file : String) (imports : List Import) :
    checkImports lookup file imports =
      match (imports.flatMap Import.required).find? (isAbsent lookup) with
      | some (target, name) => .error (.missingExport file target name)
      | none => .ok () := by
  have hfirst : (imports.flatMap Import.required).find? (isAbsent lookup) =
      (imports.findSome? fun i => (i.missing? lookup).map (i, ·)).map
        fun missing => (missing.1.specifier, missing.2) := by
    rw [List.find?_flatMap, List.map_findSome?]
    simp only [← missing?_eq, Option.map_map, Function.comp_def]
  unfold checkImports
  rw [hfirst]
  cases imports.findSome? fun i => (i.missing? lookup).map (i, ·) <;> rfl

theorem required?_importedName? (handle : String) (specifier : Node) :
    ((importedName? handle specifier).map (·.1)).bind (·.required?) = requiredName? specifier := by
  unfold importedName? requiredName?
  cases specifier.kind <;> rfl

theorem map_exportPairs_local (specifiers : List Node) :
    (exportPairs specifiers).map (·.1) = specifiers.filterMap localName? := by
  rw [exportPairs, List.map_filterMap]
  refine List.filterMap_congr fun s _ => ?_
  unfold localName?
  cases s.kind <;> simp [Function.comp_def]

/-- The statements that name other modules require what the items require, in the same order. -/
theorem required_imports (items : List Node) (scopes : ScopeTree) :
    (Interface.ofItems items scopes).imports.flatMap Import.required = requiredNames items := by
  have hflatMap : ∀ (f : Node → Option Import) (g : Node → List (String × String)),
      (∀ item, ((f item).map Import.required).getD [] = g item) →
      (items.filterMap f).flatMap Import.required = items.flatMap g := by
    intro f g hfg
    induction items with
    | nil => rfl
    | cons item items ih =>
      rw [List.flatMap_cons, ← hfg item, ← ih, List.filterMap_cons]
      cases f item <;> rfl
  unfold Interface.ofItems requiredNames
  dsimp only
  rw [List.flatMap_append]
  congr 1
  · refine hflatMap _ _ fun item => ?_
    unfold importOf? importedNames
    cases item.kind
    case importDeclaration specifiers source =>
      simp only [Option.map_some, Option.getD_some, Import.required, List.filterMap_filterMap,
        required?_importedName?]
    all_goals rfl
  · refine hflatMap _ _ fun item => ?_
    unfold reexportOf? reexportedNames
    cases item.kind
    case exportNamedDeclaration declaration specifiers source =>
      cases declaration <;> cases source <;> try rfl
      simp [Import.required, ImportedName.required?, List.filterMap_map, Function.comp_def,
        ← map_exportPairs_local]
    case exportAllDeclaration asName source => cases asName <;> rfl
    all_goals rfl

/-! ## Reads of handles -/

/-- Whether a reading reads members of dependencies only, and members that they export. -/
def Linked (lookup : ExportLookup) (specifiers : List String) (r : Reading) : Prop :=
  ∀ handle name, r = .member handle name → ∃ source ∈ specifiers,
    handle = handleOf specifiers source ∧ ∃ names, lookup source = some names ∧ name ∈ names

theorem linked_variable {lookup : ExportLookup} {specifiers : List String} {name : String} :
    Linked lookup specifiers (.variable name) := by
  intro _ _ h
  cases h

theorem linked_namespaceOf {lookup : ExportLookup} {specifiers : List String} {handle : String} :
    Linked lookup specifiers (.namespaceOf handle) := by
  intro _ _ h
  cases h

/-- Whether all exports of all dependencies are known, and no required name is absent. -/
structure Checked (lookup : ExportLookup) (items : List Node) : Prop where
  /-- The exports of the dependencies are known. -/
  known : ∀ source ∈ dependencies items, ∃ names, lookup source = some names
  /-- No name is absent. -/
  present : ∀ required ∈ requiredNames items, ¬ IsAbsent lookup required

/-- What exports of everything provide is the namespace of a dependency or one of its exports. -/
theorem reading_of_starExports {lookup : ExportLookup} {items : List Node}
    {explicit : List (String × Reading)} {exported : String × Reading}
    (he : exported ∈ starExports lookup
      (items.filterMap (starExport? (handleOf (dependencies items)))) explicit) :
    ∃ source ∈ dependencies items,
      exported.2 = .namespaceOf (handleOf (dependencies items) source) ∨
      ∃ names name, lookup source = some names ∧ name ∈ names ∧
        exported.2 = .member (handleOf (dependencies items) source) name := by
  obtain ⟨star, hstar, he⟩ := List.mem_flatMap.mp he
  obtain ⟨name, hname, he⟩ := List.mem_filterMap.mp he
  obtain ⟨item, hi, hitem⟩ := List.mem_filterMap.mp hstar
  have hk : item.kind = .exportAllDeclaration star.asName star.specifier ∧
      star.handle = handleOf (dependencies items) star.specifier := by
    unfold starExport? at hitem
    split at hitem
    · rename_i hk
      cases hitem
      exact ⟨hk, rfl⟩
    · cases hitem
  have hreading : exported.2 = star.reading name := by
    split at he
    · cases he
      rfl
    · cases he
  refine ⟨star.specifier, mem_dependencies hi (by rw [sourceOf?, hk.1]), ?_⟩
  rw [hreading, ← hk.2]
  unfold StarExport.reading
  unfold StarExport.offers at hname
  cases hasName : star.asName with
  | some asName => exact .inl rfl
  | none =>
    rw [hasName] at hname
    obtain ⟨hmem, -⟩ := List.mem_filter.mp hname
    cases hlookup : lookup star.specifier with
    | none => simp [hlookup] at hmem
    | some names => exact .inr ⟨names, name, rfl, by simpa [hlookup] using hmem, rfl⟩

theorem linked_starExports {lookup : ExportLookup} {items : List Node}
    {explicit : List (String × Reading)} {exported : String × Reading}
    (he : exported ∈ starExports lookup
      (items.filterMap (starExport? (handleOf (dependencies items)))) explicit) :
    Linked lookup (dependencies items) exported.2 := by
  obtain ⟨source, hs, hreading | ⟨names, name, hnames, hname, hreading⟩⟩ := reading_of_starExports he
  · exact hreading ▸ linked_namespaceOf
  · intro handle name' hr
    obtain ⟨rfl, rfl⟩ := Reading.member.inj (hreading.symm.trans hr)
    exact ⟨source, hs, rfl, names, hnames, hname⟩

namespace Checked

variable {lookup : ExportLookup} {items : List Node}

/-- A required name of a module that an item names is linked. -/
theorem linked (h : Checked lookup items) {item : Node} (hi : item ∈ items) {source name : String}
    (hsource : sourceOf? item = some source) (hrequired : (source, name) ∈ requiredNames items) :
    Linked lookup (dependencies items) (.member (handleOf (dependencies items) source) name) := by
  intro handle name' hr
  obtain ⟨rfl, rfl⟩ := Reading.member.inj hr
  have hmem : source ∈ dependencies items := mem_dependencies hi hsource
  obtain ⟨names, hnames⟩ := h.known source hmem
  refine ⟨source, hmem, rfl, names, hnames, ?_⟩
  by_contra habsent
  exact h.present _ hrequired ⟨names, hnames, habsent⟩

/-- Imported names are read by linked readings. -/
theorem linked_importReadings (h : Checked lookup items) {i : Nat} {r : Reading}
    (hr : (i, r) ∈ importReadings (handleOf (dependencies items)) items) :
    Linked lookup (dependencies items) r := by
  obtain ⟨item, hi, specifiers, source, hk, s, hs, -, name, hname⟩ := mem_importReadings.mp hr
  have hrequired := required?_importedName? (handleOf (dependencies items) source) s
  rw [hname, Option.map_some, Option.bind_some] at hrequired
  rcases importedName?_eq hname with ⟨rfl, hsome⟩ | ⟨rfl, -⟩
  · refine h.linked hi (by rw [sourceOf?, hk]) (List.mem_append_left _ ?_)
    refine List.mem_flatMap.mpr ⟨item, hi, ?_⟩
    rw [importedNames, hk]
    exact List.mem_map_of_mem (List.mem_filterMap.mpr ⟨s, hs, hrequired.symm.trans hsome⟩)
  · exact linked_namespaceOf

theorem linked_importedReading? (h : Checked lookup items) {scopes : ScopeTree} {name : String}
    {r : Reading} (hr : importedReading? (importReadings (handleOf (dependencies items)) items) scopes
      name = some r) : Linked lookup (dependencies items) r := by
  unfold importedReading? at hr
  obtain ⟨program, -, hr⟩ := Option.bind_eq_some_iff.mp hr
  obtain ⟨binding, -, hr⟩ := Option.bind_eq_some_iff.mp hr
  split at hr
  · exact h.linked_importReadings (mem_of_lookup hr)
  · cases hr

/-- What an item exports itself is read by linked readings. -/
theorem linked_explicitExports (h : Checked lookup items) {scopes : ScopeTree} {item : Node}
    (hi : item ∈ items) {exported : String × Reading}
    (he : exported ∈ explicitExports (handleOf (dependencies items)) (importedReading?
      (importReadings (handleOf (dependencies items)) items) scopes) item) :
    Linked lookup (dependencies items) exported.2 := by
  unfold explicitExports at he
  split at he
  · obtain ⟨n, -, he⟩ := List.mem_filterMap.mp he
    obtain ⟨name, -, rfl⟩ := Option.map_eq_some_iff.mp he
    exact linked_variable
  · rename_i specifiers source hk
    obtain ⟨⟨name, asName⟩, hpair, rfl⟩ := List.mem_map.mp he
    refine h.linked hi (by rw [sourceOf?, hk]) (List.mem_append_right _ ?_)
    refine List.mem_flatMap.mpr ⟨item, hi, ?_⟩
    rw [reexportedNames, hk]
    dsimp only
    rw [← map_exportPairs_local]
    exact List.mem_map_of_mem (List.mem_map_of_mem hpair)
  · obtain ⟨⟨name, asName⟩, -, rfl⟩ := List.mem_map.mp he
    dsimp only
    cases hr : importedReading? (importReadings (handleOf (dependencies items)) items) scopes name with
    | none => exact linked_variable
    | some r => exact h.linked_importedReading? hr
  · obtain rfl := List.mem_singleton.mp he
    exact linked_variable
  · cases he

theorem linked_allExports (h : Checked lookup items) {scopes : ScopeTree}
    {exported : String × Reading}
    (he : exported ∈ (Interface.ofItems items scopes).allExports lookup) :
    Linked lookup (dependencies items) exported.2 := by
  rcases List.mem_append.mp he with he | he
  · obtain ⟨item, hi, he⟩ := List.mem_flatMap.mp (mem_firstOfEach he)
    exact h.linked_explicitExports hi he
  · exact linked_starExports he

end Checked

/-- Whether a node reads a member of a variable, named by an identifier that is no node of the tree
of a module. -/
def ReadsMember (root : Node) (object : String) (n key : Node) (computed : Bool) : Prop :=
  ∃ node optional, n.kind = .memberExpression node key computed optional ∧
    node.name? = some object ∧ node ∉ root.nodes

/-- Whether a key, computed or not, is that of an export that the module behind a handle has. -/
def IsExportKey (lookup : ExportLookup) (specifiers : List String) (k : Nat) (key : Node)
    (computed : Bool) : Prop :=
  ∃ source names name, specifiers[k]? = some source ∧ lookup source = some names ∧ name ∈ names ∧
    IsKey name key ∧ computed = !isIdentifierName name.toList

theorem Linked.isExportKey {lookup : ExportLookup} {specifiers : List String} {r : Reading}
    (h : Linked lookup specifiers r) {kind : Kind Node} (hr : ReadBy r kind) {node key : Node}
    {computed optional : Bool} (hk : kind = .memberExpression node key computed optional) {k : Nat}
    (hname : node.name? = some (handleName k)) : IsExportKey lookup specifiers k key computed := by
  subst hk
  cases hr with
  | @member handle name _ _ ho hkey =>
    obtain ⟨source, hsource, hhandle, names, hnames, hmem⟩ := h handle name rfl
    rw [Node.name?, ho] at hname
    have hindex := handleName_inj (hhandle.symm.trans (Option.some.inj hname))
    refine ⟨source, names, name, ?_, hnames, hmem, hkey, rfl⟩
    rw [← hindex, List.getElem?_eq_getElem (List.idxOf_lt_length_iff.mpr hsource),
      List.getElem_idxOf]

/-- What is known of the check of the imports of a module with some items. -/
structure ImportCheck (m : Module) (items : List Node) (lookup : ExportLookup) : Prop where
  /-- Compiling fails if some required name is absent. -/
  fails : (∃ importer target name, m.output lookup = .error (.missingExport importer target name)) ↔
    ∃ required ∈ requiredNames items, IsAbsent lookup required
  /-- It fails with the first such name. -/
  first : ∀ e, m.output lookup = .error e → ∃ before target name after,
    e = .missingExport m.file target name ∧
    requiredNames items = before ++ (target, name) :: after ∧
    IsAbsent lookup (target, name) ∧ ∀ required ∈ before, ¬ IsAbsent lookup required
  /-- Otherwise the final tree is printed, -/
  printed : ∀ out, m.output lookup = .ok out →
    out.code = (generate (m.finalTree lookup) m.source m.file).code
  /-- and if the exports of all dependencies are known, then every member that new code reads of a
  handle is an export of the module behind the handle. -/
  linked : ∀ out, m.output lookup = .ok out →
    (∀ source ∈ m.interface.dependencies, ∃ names, lookup source = some names) →
    ∀ n ∈ (m.finalTree lookup).nodes, ∀ k key computed,
      ReadsMember m.root (handleName k) n key computed →
      IsExportKey lookup m.interface.dependencies k key computed

/-- The result of compiling, by the first required name that is absent. -/
theorem IsRead.output_eq {m : Module} {items : List Node} (h : IsRead m items)
    (lookup : ExportLookup) : m.output lookup =
      match (requiredNames items).find? (isAbsent lookup) with
      | some (target, name) => .error (.missingExport m.file target name)
      | none => .ok ⟨(generate (m.finalTree lookup) m.source m.file).code,
        (generate (m.finalTree lookup) m.source m.file).map,
        (m.interface.allExports lookup).map (·.1)⟩ := by
  have houtput : m.output lookup = (checkImports lookup m.file m.interface.imports).bind fun _ =>
      .ok ⟨(generate (m.finalTree lookup) m.source m.file).code,
        (generate (m.finalTree lookup) m.source m.file).map,
        (m.interface.allExports lookup).map (·.1)⟩ := rfl
  rw [houtput, checkImports_eq, h.interface, required_imports]
  cases (requiredNames items).find? (isAbsent lookup) <;> rfl

theorem IsRead.isExportKey {m : Module} {items : List Node} (h : IsRead m items)
    {lookup : ExportLookup} (hc : Checked lookup items) {n : Node}
    (hn : n ∈ (m.finalTree lookup).nodes) {k : Nat} {key : Node} {computed : Bool}
    (hr : ReadsMember m.root (handleName k) n key computed) :
    IsExportKey lookup (dependencies items) k key computed := by
  obtain ⟨p, hp, hitems⟩ := h.exists_finalParts lookup
  obtain ⟨node, optional, hk, hname, hnew⟩ := hr
  cases hp.partOf h.tree hitems n hn with
  | frame hf =>
    rw [hk] at hf
    cases hf
  | install hi =>
    rw [hi, hp.installCall] at hk
    cases hk
  | reading he hread =>
    rw [h.interface] at he
    exact (hc.linked_allExports he).isExportKey hread hk hname
  | importCall _ _ hcall => cases hk.symm.trans hcall
  | item ho =>
    have hinserted := ho.inserted UsesImport.not_variable
      (fun _ hk' => by cases hk.symm.trans hk') fun _ _ hk' => by cases hk.symm.trans hk'
    cases hinserted with
    | read hu hread =>
      obtain ⟨_, _, -, -, -, hr⟩ := hu
      exact (hc.linked_importReadings hr).isExportKey hread hk hname
    | importMeta hread =>
      rw [hk] at hread
      cases hread with
      | member ho =>
        rw [Node.name?, ho] at hname
        exact absurd (Option.some.inj hname).symm (handleName_ne_name k _)
    | dynamicImport hcall => cases hk.symm.trans hcall
    | old hold =>
      refine absurd (hold node ?_ (by rw [hname]; rfl)) hnew
      rw [hk]
      exact List.mem_cons_self

/-- Imports are checked exactly, and code whose imports were checked reads exports that exist. -/
theorem importCheck_output {source file : String} {m : Module}
    (hm : Module.ofSource source file = .ok m) (lookup : ExportLookup) :
    ∃ items, m.root.kind = .program items ∧ ImportCheck m items lookup := by
  obtain ⟨-, -, items, hread⟩ := isRead_of_ofSource hm
  have houtput := hread.output_eq lookup
  have hdependencies : m.interface.dependencies = dependencies items := by
    rw [hread.interface]
    rfl
  refine ⟨items, hread.tree.kind, ?_⟩
  cases hfind : (requiredNames items).find? (isAbsent lookup) with
  | some required =>
    obtain ⟨target, name⟩ := required
    rw [hfind] at houtput
    dsimp only at houtput
    have habsent := isAbsent_iff.mp (List.find?_some hfind)
    have hmem := List.mem_of_find?_eq_some hfind
    refine ⟨⟨fun _ => ⟨_, hmem, habsent⟩, fun _ => ⟨_, _, _, houtput⟩⟩, fun e he => ?_, ?_, ?_⟩
    · obtain ⟨-, before, after, hsplit, hbefore⟩ := List.find?_eq_some_iff_append.mp hfind
      rw [houtput] at he
      refine ⟨before, target, name, after, (Except.error.inj he).symm, hsplit, habsent, ?_⟩
      intro required hr hra
      have hfalse := hbefore required hr
      rw [isAbsent_iff.mpr hra] at hfalse
      cases hfalse
    · intro out ho
      cases houtput.symm.trans ho
    · intro out ho
      cases houtput.symm.trans ho
  | none =>
    rw [hfind] at houtput
    dsimp only at houtput
    have hpresent : ∀ required ∈ requiredNames items, ¬ IsAbsent lookup required := by
      intro required hr habsent
      exact List.find?_eq_none.mp hfind required hr (isAbsent_iff.mpr habsent)
    refine ⟨⟨?_, fun ⟨required, hr, ha⟩ => absurd ha (hpresent required hr)⟩, ?_, ?_, ?_⟩
    · rintro ⟨_, _, _, he⟩
      cases houtput.symm.trans he
    · intro e he
      cases houtput.symm.trans he
    · intro out ho
      obtain rfl := Except.ok.inj (houtput.symm.trans ho)
      dsimp only
    · intro out _ hknown n hn k key computed hr
      rw [hdependencies] at hknown ⊢
      exact hread.isExportKey ⟨hknown, hpresent⟩ hn hr

/-- Of two names that are required, one is there. -/
theorem importCheck_output_pair : ∃ m items,
    Module.ofSource "import {a, b} from 'x'; export * from 'x'; a;" "test.js" = .ok m ∧
      m.root.kind = .program items ∧ ImportCheck m items fun _ => some ["a"] := by
  have hok : (Module.ofSource "import {a, b} from 'x'; export * from 'x'; a;" "test.js").isOk =
      true := by
    decide +kernel
  obtain ⟨m, hm⟩ := exists_of_isOk hok
  obtain ⟨items, hitems, hcheck⟩ := importCheck_output hm fun _ => some ["a"]
  exact ⟨m, items, hm, hitems, hcheck⟩

end EsModule.Compile

/-!
## The export list of a module

Whether a module compiles, and to which export list, depends on what is known of its dependencies
only. It compiles exactly if no name that it requires is known to be missing.
-/

namespace EsModule.Compile.Module

/-- The export list of a module, where the exports of other modules are looked up: the names that
its items export themselves, each where it comes first, and then the names that its exports of
everything provide. One under a name of its own provides that name, whatever is known of the other
module; any other one provides nothing if nothing is known. -/
def exportList (m : Module) (lookup : ExportLookup) : List String :=
  ((itemsOf m.root).flatMap exportedNames).eraseDups ++ providedNames lookup (itemsOf m.root)

/-- Whether no name that a module requires is known to be missing. -/
def Links (m : Module) (lookup : ExportLookup) : Prop :=
  ∀ required ∈ requiredNames (itemsOf m.root), ¬ IsAbsent lookup required

variable {m : Module} {lookup lookup' : ExportLookup}

/-- Every module of which a name is required is a dependency. -/
theorem required_mem {required : String × String}
    (h : required ∈ requiredNames (itemsOf m.root)) : required.1 ∈ m.interface.dependencies := by
  rcases List.mem_append.mp h with h | h
  · obtain ⟨item, hi, h⟩ := List.mem_flatMap.mp h
    unfold importedNames at h
    split at h
    · rename_i hk
      obtain ⟨name, -, rfl⟩ := List.mem_map.mp h
      exact Compile.mem_dependencies hi (by rw [sourceOf?, hk])
    · cases h
  · obtain ⟨item, hi, h⟩ := List.mem_flatMap.mp h
    unfold reexportedNames at h
    split at h
    · rename_i hk
      obtain ⟨name, -, rfl⟩ := List.mem_map.mp h
      exact Compile.mem_dependencies hi (by rw [sourceOf?, hk])
    · cases h

/-- Every module of which everything is exported is a dependency. -/
theorem exportAll_mem {entry : Option String × String} (h : entry ∈ exportAlls (itemsOf m.root)) :
    entry.2 ∈ m.interface.dependencies := by
  obtain ⟨item, hi, hentry⟩ := List.mem_filterMap.mp h
  split at hentry
  · rename_i hk
    cases hentry
    exact Compile.mem_dependencies hi (by rw [sourceOf?, hk])
  · cases hentry

/-- The export list depends on what is known of the dependencies only. -/
theorem exportList_congr (h : ∀ s ∈ m.interface.dependencies, lookup s = lookup' s) :
    m.exportList lookup = m.exportList lookup' := by
  have hoffers : (exportAlls (itemsOf m.root)).flatMap (offeredBy lookup) =
      (exportAlls (itemsOf m.root)).flatMap (offeredBy lookup') := by
    refine List.flatMap_congr fun entry hentry => ?_
    unfold offeredBy
    rw [h _ (exportAll_mem hentry)]
  unfold exportList providedNames
  rw [hoffers]

theorem links_congr (h : ∀ s ∈ m.interface.dependencies, lookup s = lookup' s) :
    m.Links lookup ↔ m.Links lookup' := by
  refine forall₂_congr fun required hrequired => ?_
  unfold IsAbsent
  rw [h _ (required_mem hrequired)]

/-- A module that was read compiles, to its export list, exactly if it links. -/
theorem output_of_ofSource {source file : String} (hm : Module.ofSource source file = .ok m)
    (lookup : ExportLookup) :
    (m.Links lookup ∧ ∃ out, m.output lookup = .ok out ∧ out.exports = m.exportList lookup) ∨
      (¬ m.Links lookup ∧ ∃ e, m.output lookup = .error e) := by
  obtain ⟨-, -, items, hread⟩ := isRead_of_ofSource hm
  obtain rfl : itemsOf m.root = items := by
    rw [itemsOf, hread.tree.kind]
  have houtput := hread.output_eq lookup
  have hfind := List.find?_eq_none (l := requiredNames (itemsOf m.root)) (p := isAbsent lookup)
  have hlinks : m.Links lookup ↔
      (requiredNames (itemsOf m.root)).find? (isAbsent lookup) = none := by
    rw [hfind]
    exact forall₂_congr fun _ _ => not_congr isAbsent_iff.symm
  cases hmissing : (requiredNames (itemsOf m.root)).find? (isAbsent lookup) with
  | none =>
    rw [hmissing] at houtput
    refine .inl ⟨hlinks.mpr hmissing, _, houtput, ?_⟩
    exact names_allExports hread.tree.items m.scopes lookup
  | some required =>
    rw [hmissing] at houtput
    refine .inr ⟨fun h => ?_, _, houtput⟩
    rw [hlinks.mp h] at hmissing
    cases hmissing

end EsModule.Compile.Module
