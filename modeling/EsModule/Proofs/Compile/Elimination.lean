import EsModule.Proofs.Compile.ExportTable
import Std.Data.String.ToNat

/-!
# No imports and no exports are left

The final tree is the function of the capabilities over what became of the items, and everything in
it that is new is known. So no statement and no expression of the module system is left anywhere in
it, and each other module is imported once, into the handle with its place among the dependencies.
-/

namespace EsModule.Compile

open EsModule.Syntax EsModule.Scope EsModule.SourceMap

/-! ## Handles -/

theorem handleName_inj {j k : Nat} (h : handleName j = handleName k) : j = k := by
  unfold handleName at h
  rw [String.append_left_inj, String.append_right_inj] at h
  exact Nat.repr_inj.mp h

/-- No handle has the name of a capability. -/
theorem handleName_ne_name (k : Nat) (c : Capability) : handleName k ≠ c.name := by
  intro h
  have hthird := congrArg (fun s : String => s.toList[2]?) h
  cases c <;> simp [handleName, Capability.name] at hthird

/-- The handles of two dependencies are the same if the dependencies are. -/
theorem handleOf_inj {specifiers : List String} {s t : String} (hs : s ∈ specifiers)
    (h : handleOf specifiers s = handleOf specifiers t) : s = t :=
  (List.idxOf_inj hs).mp (handleName_inj h)

/-- A statement that names another module has the handle of one of the dependencies. -/
theorem handle_of_mem_imports {items : List Node} {scopes : ScopeTree} {i : Import}
    (h : i ∈ (Interface.ofItems items scopes).imports) :
    i.specifier ∈ dependencies items ∧ i.handle = handleOf (dependencies items) i.specifier := by
  rcases List.mem_append.mp h with h | h
  · obtain ⟨item, hmem, hi⟩ := List.mem_filterMap.mp h
    unfold importOf? at hi
    split at hi
    · rename_i hk
      cases hi
      exact ⟨mem_dependencies hmem (by rw [sourceOf?, hk]), rfl⟩
    · cases hi
  · obtain ⟨item, hmem, hi⟩ := List.mem_filterMap.mp h
    unfold reexportOf? at hi
    split at hi
    · rename_i hk
      cases hi
      exact ⟨mem_dependencies hmem (by rw [sourceOf?, hk]), rfl⟩
    · rename_i hk
      cases hi
      exact ⟨mem_dependencies hmem (by rw [sourceOf?, hk]), rfl⟩
    · cases hi

/-! ## The module system in a tree -/

/-- Whether a kind is an import or an export, a part of one, or an expression that speaks to the
loader. -/
def isModuleSyntax {α : Type} (kind : Kind α) : Bool :=
  match kind with
  | .importDeclaration .. | .importSpecifier .. | .importDefaultSpecifier _
  | .importNamespaceSpecifier _ | .exportNamedDeclaration .. | .exportSpecifier ..
  | .exportDefaultDeclaration _ | .exportAllDeclaration .. | .importExpression _
  | .metaProperty .importMeta => true
  | _ => false

theorem isModuleSyntax_map {α β : Type} (f : α → β) (kind : Kind α) :
    isModuleSyntax (kind.map f) = isModuleSyntax kind := by
  cases kind
  case metaProperty which => cases which <;> rfl
  all_goals rfl

theorem isModuleSyntax_asExpression {α : Type} (kind : Kind α) :
    isModuleSyntax (asExpression kind) = isModuleSyntax kind := by
  cases kind <;> rfl

theorem isModuleSyntax_of_plain {n : Node} (htop : n.isTop = false)
    (hspecifier : n.isSpecifier = false) (hs : speaks n = false) :
    isModuleSyntax n.kind = false := by
  obtain ⟨id, span, kind⟩ := n
  cases kind
  case metaProperty which =>
    cases which
    · rfl
    · cases hs
  all_goals first | rfl | (cases htop; done) | (cases hspecifier; done) | cases hs

theorem ReadBy.isModuleSyntax {r : Reading} {kind : Kind Node} (h : ReadBy r kind) :
    Compile.isModuleSyntax kind = false := by
  cases h <;> rfl

theorem Becomes.isModuleSyntax {uses : Nat → Reading → Prop} {n n' : Node} (h : Becomes uses n n')
    (htop : n.isTop = false) (hspecifier : n.isSpecifier = false) :
    Compile.isModuleSyntax n'.kind = false := by
  cases h with
  | read _ hr => exact hr.isModuleSyntax
  | dynamicImport => rfl
  | importMeta _ hr => exact hr.isModuleSyntax
  | same _ hs =>
    exact (isModuleSyntax_map _ _).trans (isModuleSyntax_of_plain htop hspecifier hs)

theorem Occurs.isModuleSyntax {uses : Nat → Reading → Prop} {root : Node} {kind : Kind Node}
    (h : Occurs uses root kind) : Compile.isModuleSyntax kind = false := by
  cases h with
  | became _ htop hspecifier h => exact h.isModuleSyntax htop hspecifier
  | expression _ htop hspecifier h =>
    rw [isModuleSyntax_asExpression]
    exact h.isModuleSyntax htop hspecifier
  | leaf h => obtain ⟨_, h⟩ | ⟨_, h⟩ := h <;> rw [h] <;> rfl
  | removed | holder | holds => rfl

/-- No part of a compiled module belongs to the module system. -/
theorem PartOf.isModuleSyntax {p : Parts} {tree : Node} {exports : List (String × Reading)}
    {dependencies : List String} {uses : Nat → Reading → Prop} {root n : Node}
    (hp : p.Of tree exports dependencies) (h : PartOf p exports uses root n) :
    Compile.isModuleSyntax n.kind = false := by
  cases h with
  | frame h =>
    unfold isFrame at h
    unfold Compile.isModuleSyntax
    split at h <;> simp_all
  | install h =>
    rw [h, hp.installCall]
    rfl
  | reading _ h => exact h.isModuleSyntax
  | importCall _ _ hk =>
    rw [hk]
    rfl
  | item h => exact h.isModuleSyntax

/-! ## Compiled modules -/

/-- What is known of the final tree of a module with some items. -/
structure Eliminated (m : Module) (items : List Node) (lookup : ExportLookup) (p : Parts) : Prop where
  /-- The tree is the function of the capabilities over its parts. -/
  parts : p.Of (m.finalTree lookup) (m.interface.allExports lookup) m.interface.dependencies
  /-- The dependencies are the modules that statements name, in the order of their first
  occurrences. -/
  dependencies : m.interface.dependencies = (items.filterMap sourceOf?).eraseDups
  /-- None of them is listed twice. -/
  nodup : m.interface.dependencies.Nodup
  /-- Two statements share a handle if they name the same module. -/
  handles : ∀ i ∈ m.interface.imports, ∀ j ∈ m.interface.imports,
    i.handle = j.handle ↔ i.specifier = j.specifier
  /-- The items are in their order, and each became what an item becomes. -/
  items : List.Forall₂ (ItemBecomes (UsesImport items m.scopes)) items p.items
  /-- Readers are installed once and modules are imported by the statements for them, but for calls
  that the module itself makes. -/
  calls : ∀ n ∈ (m.finalTree lookup).nodes, ∀ c, CallsInserted m.root c n → CalledAt p c n
  /-- Nothing of the module system is left. -/
  plain : ∀ n ∈ (m.finalTree lookup).nodes, isModuleSyntax n.kind = false

/-- Compiling leaves nothing of the module system and changes nothing else. -/
theorem eliminated_output {source file : String} {m : Module} {lookup : ExportLookup} {out : Output}
    (hm : Module.ofSource source file = .ok m) (ho : m.output lookup = .ok out) :
    out.code = (generate (m.finalTree lookup) source file).code ∧
      ∃ items p, m.root.kind = .program items ∧ Eliminated m items lookup p := by
  obtain ⟨rfl, rfl, items, hread⟩ := isRead_of_ofSource hm
  obtain ⟨-, rfl⟩ := output_eq_ok.mp ho
  obtain ⟨p, hp, hitems⟩ := hread.exists_finalParts lookup
  have hdependencies : m.interface.dependencies = dependencies items := by
    rw [hread.interface]
    rfl
  rw [← hdependencies] at hp
  refine ⟨by dsimp only, items, p, hread.tree.kind, hp, ?_, ?_, ?_, hitems, ?_, ?_⟩
  · rw [hdependencies, dependencies_eq]
  · rw [hdependencies, dependencies_eq]
    exact nodup_eraseDups _
  · intro i hi j hj
    rw [hread.interface] at hi hj
    obtain ⟨hi, hih⟩ := handle_of_mem_imports hi
    obtain ⟨-, hjh⟩ := handle_of_mem_imports hj
    rw [hih, hjh]
    exact ⟨handleOf_inj hi, congrArg _⟩
  · intro n hn c hcalls
    exact hp.calls hread hitems hn hcalls
  · intro n hn
    exact (hp.partOf hread.tree hitems n hn).isModuleSyntax hp

/-- An import, two exports and both ways to speak to the loader. -/
theorem eliminated_output_mixed : ∃ m out,
    Module.ofSource "import {a} from 'x'; export * from 'y'; export default () => a; import(import.meta);"
      "test.js" = .ok m ∧
    m.output noExports = .ok out ∧ out.code = (generate (m.finalTree noExports)
      "import {a} from 'x'; export * from 'y'; export default () => a; import(import.meta);"
      "test.js").code ∧
    ∃ items p, m.root.kind = .program items ∧ Eliminated m items noExports p := by
  have hok : (Module.ofSource
      "import {a} from 'x'; export * from 'y'; export default () => a; import(import.meta);"
      "test.js" >>= fun m => m.output noExports).isOk = true := by
    decide +kernel
  obtain ⟨out, h⟩ := exists_of_isOk hok
  obtain ⟨m, hm, ho⟩ := bind_eq_ok.mp h
  exact ⟨m, out, hm, ho, eliminated_output hm ho⟩

end EsModule.Compile
