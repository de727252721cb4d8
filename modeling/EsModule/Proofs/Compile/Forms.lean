import EsModule.Compile.Standalone
import EsModule.Proofs.Compile.Rewrite

/-!
# The forms that nodes take in a compiled module

A use of an imported name becomes a reading, and so do `import.meta` and `import()`. All new nodes
come out of one supply of numbers, so the patches for them are forms that fit the tree of the module.
-/

namespace EsModule.Compile

open EsModule.Syntax EsModule.Text

/-! ## Making nodes one after the other -/

/-- Results that are made one after the other, each from the number that the one before it left. -/
inductive Threaded {α β : Type} (f : α → Supply β) : List α → Nat → List β → Nat → Prop where
  | nil {s} : Threaded f [] s [] s
  | cons {a as b bs s s1 s2} (h : f a s = (b, s1)) (hs : Threaded f as s1 bs s2) :
      Threaded f (a :: as) s (b :: bs) s2

theorem threaded_mapM {α β : Type} (f : α → Supply β) (as : List α) (s : Nat) :
    Threaded f as s ((as.mapM f) s).1 ((as.mapM f) s).2 := by
  induction as generalizing s with
  | nil => exact .nil
  | cons a as ih =>
    rw [List.mapM_cons]
    exact .cons rfl (ih _)

theorem supply_bind {α β : Type} {x : Supply α} {g : α → Supply β} {s s1 : Nat} {a : α}
    (h : x s = (a, s1)) : (x >>= g) s = g a s1 := by
  change (let (a, s) := x s; g a s) = g a s1
  rw [h]

/-- The node of a new identifier. -/
def nameNode (id : Nat) (name : String) : Node := .mk id ⟨0, 0⟩ (.identifier name)

/-- The node of a new key. -/
def newKey (id : Nat) (name : String) : Node :=
  if isIdentifierName name.toList then nameNode id name
  else .mk id ⟨0, 0⟩ (.literal (.string name none))

theorem keyNode_eq (name : String) (s : Nat) : keyNode name s = (newKey s name, s + 1) := by
  unfold keyNode newKey
  split <;> rfl

theorem memberKind_eq (object name : String) (s : Nat) : memberKind object name s =
    (.memberExpression (nameNode (s + 1) object) (newKey s name) (!isIdentifierName name.toList)
      false, s + 2) :=
  (supply_bind (keyNode_eq name s)).trans rfl

theorem reading_eq (r : Reading) (s : Nat) : r.kind s =
    match r with
    | .variable name => (.identifier name, s)
    | .member handle name => (.memberExpression (nameNode (s + 1) handle) (newKey s name)
        (!isIdentifierName name.toList) false, s + 2)
    | .namespaceOf handle => (.callExpression (nameNode (s + 1) Capability.namespaceOf.name)
        [nameNode s handle] false, s + 2) := by
  cases r with
  | «variable» name => rfl
  | member handle name => exact memberKind_eq handle name s
  | namespaceOf handle => rfl

/-! ## The forms -/

/-- The form of a use of an imported name, if numbers are given out from one on. -/
def Form.ofReading (node : Nat) (r : Reading) (s : Nat) : Form :=
  ⟨node, (r.kind s).1.children, (r.kind s).1⟩

/-- The form of an import at run time. -/
def Form.ofImport (node : Nat) (source : Node) (s : Nat) : Form :=
  ⟨node, [nameNode s Capability.dynamicImport.name],
    .callExpression (nameNode s Capability.dynamicImport.name) [source] false⟩

/-- The form of what a module knows about itself. -/
def Form.ofMeta (node s : Nat) : Form := .ofReading node (.member Capability.importMeta.name "meta") s

/-- Which form a node may take. -/
inductive MayTake (uses : List (Nat × Reading)) (n : Node) : Form → Prop where
  | reading {r s} (h : (n.id, r) ∈ uses) : MayTake uses n (.ofReading n.id r s)
  | dynamicImport {source s} (h : n.kind = .importExpression source) :
      MayTake uses n (.ofImport n.id source s)
  | importMeta {s} (h : n.kind = .metaProperty .importMeta) : MayTake uses n (.ofMeta n.id s)

theorem idsOf_leaf {n : Node} (h : n.kind.children = []) : idsOf [n] = [n.id] := by
  rw [idsOf_singleton, h]
  rfl

theorem children_newKey (id : Nat) (name : String) : (newKey id name).kind.children = [] := by
  unfold newKey
  split <;> rfl

theorem id_newKey (id : Nat) (name : String) : (newKey id name).id = id := by
  unfold newKey
  split <;> rfl

theorem within_pair (s : Nat) : Within s (s + 2) [s + 1, s] := by
  refine ⟨by omega, by simp, ?_⟩
  intro i hi
  simp only [List.mem_cons, List.not_mem_nil, or_false] at hi
  omega

theorem within_nameNode (s : Nat) (name : String) : Within s (s + 1) (idsOf [nameNode s name]) := by
  rw [idsOf_leaf rfl]
  exact (Within.nil (Nat.le_refl s)).cons

theorem within_ofReading (node : Nat) (r : Reading) (s : Nat) :
    Within s (r.kind s).2 (idsOf (Form.ofReading node r s).news) := by
  unfold Form.ofReading
  rw [reading_eq]
  cases r with
  | «variable» name => exact .nil (Nat.le_refl s)
  | member handle name =>
    dsimp only [Kind.children]
    rw [idsOf_cons, idsOf_leaf rfl, idsOf_leaf (children_newKey ..), id_newKey]
    exact within_pair s
  | namespaceOf handle => exact within_pair s

theorem exists_useForms {uses : List (Nat × Reading)} {s s1 : Nat} {patches : List Patch}
    (h : Threaded (fun u => do return .replace u.1 (← u.2.kind)) uses s patches s1) :
    ∃ forms : List Form, patches = forms.map Form.patch ∧
      Within s s1 (forms.flatMap fun f => idsOf f.news) ∧
      List.Forall₂ (fun u f => ∃ s, f = .ofReading u.1 u.2 s) uses forms := by
  induction h with
  | nil => exact ⟨[], rfl, .nil (Nat.le_refl _), .nil⟩
  | @cons u us p ps s s1 s2 h hs ih =>
    obtain ⟨forms, rfl, hwithin, hforms⟩ := ih
    have hkind : (p, s1) = (.replace u.1 (u.2.kind s).1, (u.2.kind s).2) := h.symm
    obtain ⟨rfl, rfl⟩ := Prod.mk.inj hkind
    refine ⟨.ofReading u.1 u.2 s :: forms, rfl, ?_, .cons ⟨s, rfl⟩ hforms⟩
    rw [List.flatMap_cons]
    exact (within_ofReading u.1 u.2 s).append hwithin

/-- Whether a node speaks to the loader at run time. -/
def speaks (n : Node) : Bool :=
  match n.kind with
  | .importExpression _ | .metaProperty .importMeta => true
  | _ => false

theorem runTimePatch?_eq (n : Node) (s : Nat) :
    (runTimePatch? n s = (none, s) ∧ speaks n = false) ∨
    ∃ f s1, runTimePatch? n s = (some f.patch, s1) ∧ speaks n = true ∧ f.target = n.id ∧
      Within s s1 (idsOf f.news) ∧ ∀ uses, MayTake uses n f := by
  obtain ⟨id, span, kind⟩ := n
  cases kind
  case importExpression source =>
    refine .inr ⟨.ofImport id source s, s + 1, rfl, rfl, rfl, ?_, fun uses => .dynamicImport rfl⟩
    exact within_nameNode s _
  case metaProperty which =>
    cases which
    · exact .inl ⟨rfl, rfl⟩
    · refine .inr ⟨.ofMeta id s, s + 2, ?_, rfl, rfl, ?_, fun uses => .importMeta rfl⟩
      · refine (supply_bind (memberKind_eq ..)).trans ?_
        unfold Form.ofMeta Form.ofReading Form.patch
        rw [reading_eq]
        rfl
      · have hwithin := within_ofReading id (.member Capability.importMeta.name "meta") s
        rw [reading_eq] at hwithin
        exact hwithin
  all_goals exact .inl ⟨rfl, rfl⟩

theorem exists_runTimeForms {ns : List Node} {s s1 : Nat} {patches : List (Option Patch)}
    (h : Threaded runTimePatch? ns s patches s1) :
    ∃ forms : List Form, patches.filterMap id = forms.map Form.patch ∧
      Within s s1 (forms.flatMap fun f => idsOf f.news) ∧
      (∀ f ∈ forms, ∃ n ∈ ns, f.target = n.id ∧ speaks n = true ∧ ∀ uses, MayTake uses n f) ∧
      ∀ n ∈ ns, speaks n = true → ∃ f ∈ forms, f.target = n.id := by
  induction h with
  | nil => exact ⟨[], rfl, .nil (Nat.le_refl _), nofun, nofun⟩
  | @cons n ns p ps s s1 s2 h hs ih =>
    obtain ⟨forms, hforms, hwithin, hmay, hall⟩ := ih
    rcases runTimePatch?_eq n s with ⟨heq, hspeaks⟩ | ⟨f, s', heq, hspeaks, htarget, hids, htakes⟩
    · obtain ⟨rfl, rfl⟩ := Prod.mk.inj (heq.symm.trans h)
      refine ⟨forms, hforms, hwithin, fun f hf => ?_, fun m hm hsm => ?_⟩
      · obtain ⟨m, hm, hrest⟩ := hmay f hf
        exact ⟨m, List.mem_cons_of_mem _ hm, hrest⟩
      · rcases List.mem_cons.mp hm with rfl | hm
        · rw [hspeaks] at hsm
          cases hsm
        · exact hall m hm hsm
    · obtain ⟨rfl, rfl⟩ := Prod.mk.inj (heq.symm.trans h)
      refine ⟨f :: forms, congrArg (f.patch :: ·) hforms, hids.append hwithin, fun g hg => ?_,
        fun m hm hsm => ?_⟩
      · rcases List.mem_cons.mp hg with rfl | hg
        · exact ⟨n, List.mem_cons_self, htarget, hspeaks, htakes⟩
        · obtain ⟨m, hm, hrest⟩ := hmay g hg
          exact ⟨m, List.mem_cons_of_mem _ hm, hrest⟩
      · rcases List.mem_cons.mp hm with rfl | hm
        · exact ⟨f, List.mem_cons_self, htarget⟩
        · obtain ⟨g, hg, hgm⟩ := hall m hm hsm
          exact ⟨g, List.mem_cons_of_mem _ hg, hgm⟩

/-!
## What becomes of the items of a module

An item is kept, is taken out, gives way to the declaration that it exports, or becomes a constant
that holds its default value. `settle` says what each item is in the end, and `patchesOfAll` which
patches make it so, stage by stage.
-/

/-! ### One item -/

/-- What is done with an item. -/
inductive Treatment where
  /-- It stays. -/
  | kept
  /-- It is taken out. -/
  | removed
  /-- What it exports takes its place. -/
  | unwrapped (declaration : Node)
  /-- A constant takes its place. -/
  | held (value : Node)

/-- What is done with an item. -/
def treatment (item : Node) : Treatment :=
  match item.kind with
  | .importDeclaration .. | .exportAllDeclaration .. | .exportNamedDeclaration none _ _ => .removed
  | .exportNamedDeclaration (some declaration) _ _ => .unwrapped declaration
  | .exportDefaultDeclaration declaration =>
    if (ownName? declaration).isSome then .unwrapped declaration else .held declaration
  | _ => .kept

/-- How many numbers an item takes. -/
def spent (item : Node) : Nat :=
  match treatment item with
  | .held _ => 2
  | _ => 0

/-- The constant that holds a default value. -/
def holderNode (s : Nat) (value : Node) : Node :=
  .mk (s + 1) ⟨0, 0⟩ (.variableDeclarator (nameNode s defaultHolder) (some value))

/-- The declaration of the constant that holds a default value. -/
def holderKind (s : Nat) (value : Node) : Kind Node :=
  .variableDeclaration .constKind [holderNode s value]

/-- The patches for an item, if numbers are given out from one on. -/
def patchesOf (item : Node) (s : Nat) : List (Stage × Patch) :=
  match treatment item with
  | .kept => []
  | .removed => [(.removal, .remove item.id)]
  | .unwrapped declaration => [(.declaration, .unwrap item.id declaration.id)]
  | .held value =>
    (if isFunctionOrClass value then [(.declaration, .intoExpression value.id)] else []) ++
      [(.declaration, .replace item.id (holderKind s value))]

theorem constant_eq (name : String) (value : Node) (s : Nat) : Supply.constant name value s =
    (.variableDeclaration .constKind
      [.mk (s + 1) ⟨0, 0⟩ (.variableDeclarator (nameNode s name) (some value))], s + 2) :=
  rfl

theorem itemPatches_eq (item : Node) (s : Nat) :
    itemPatches item s = (patchesOf item s, s + spent item) := by
  obtain ⟨id, span, kind⟩ := item
  cases kind
  case exportNamedDeclaration declaration _ _ => cases declaration <;> rfl
  case exportDefaultDeclaration declaration =>
    unfold itemPatches patchesOf spent treatment
    dsimp only [Node.kind]
    by_cases h : (ownName? declaration).isSome = true
    · rw [if_pos h, if_pos h]
      rfl
    · rw [if_neg h, if_neg h]
      exact (supply_bind (constant_eq ..)).trans rfl
  all_goals rfl

/-- What a default value is in the constant that holds it: of a function or a class, the
expression. -/
def settledValue (forms : List Form) (value : Node) : Node :=
  if isFunctionOrClass value then
    (rewrite forms value).withKind (asExpression (rewrite forms value).kind)
  else rewrite forms value

/-- What an item is in the end. -/
def settle (forms : List Form) (item : Node) (s : Nat) : Node :=
  match treatment item with
  | .kept => rewrite forms item
  | .removed => .mk item.id item.span .removed
  | .unwrapped declaration => .mk item.id item.span (rewrite forms declaration).kind
  | .held value => .mk item.id item.span (holderKind s (settledValue forms value))

/-! ### All items -/

/-- The patches for some items. -/
def patchesOfAll : List Node → Nat → List (Stage × Patch)
  | [], _ => []
  | item :: items, s => patchesOf item s ++ patchesOfAll items (s + spent item)

/-- What some items are in the end. -/
def settleAll (forms : List Form) : List Node → Nat → List Node
  | [], _ => []
  | item :: items, s => settle forms item s :: settleAll forms items (s + spent item)

/-- How many numbers some items take. -/
def spentAll : List Node → Nat
  | [] => 0
  | item :: items => spent item + spentAll items

theorem threaded_itemPatches {items : List Node} {s s1 : Nat} {ps : List (List (Stage × Patch))}
    (h : Threaded itemPatches items s ps s1) :
    ps.flatten = patchesOfAll items s ∧ s1 = s + spentAll items := by
  induction h with
  | nil => exact ⟨rfl, rfl⟩
  | @cons item items p ps s s1 s2 h hs ih =>
    obtain ⟨hps, rfl⟩ := ih
    obtain ⟨rfl, rfl⟩ := Prod.mk.inj ((itemPatches_eq item s).symm.trans h)
    refine ⟨?_, ?_⟩
    · rw [List.flatten_cons, hps]
      rfl
    · simp [spentAll, Nat.add_assoc]

theorem patchesOfAll_append (as bs : List Node) (s : Nat) :
    patchesOfAll (as ++ bs) s = patchesOfAll as s ++ patchesOfAll bs (s + spentAll as) := by
  induction as generalizing s with
  | nil => rfl
  | cons a as ih =>
    rw [List.cons_append, patchesOfAll, patchesOfAll, ih, List.append_assoc, Nat.add_assoc]
    rfl

/-- The patches of one stage. -/
def ofStage (stage : Stage) (staged : List (Stage × Patch)) : List Patch :=
  staged.filterMap fun p => if p.1 = stage then some p.2 else none

theorem ofStage_append (stage : Stage) (ps qs : List (Stage × Patch)) :
    ofStage stage (ps ++ qs) = ofStage stage ps ++ ofStage stage qs :=
  List.filterMap_append

theorem foldl_push (staged : List (Stage × Patch)) (q : PatchQueue) :
    staged.foldl (fun q p => q.push p.2 p.1) q =
      ⟨q.identifiers ++ ofStage .identifier staged, q.declarations ++ ofStage .declaration staged,
        q.removals ++ ofStage .removal staged⟩ := by
  induction staged generalizing q with
  | nil => simp [ofStage]
  | cons p ps ih =>
    obtain ⟨stage, patch⟩ := p
    rw [List.foldl_cons, ih]
    cases stage <;> simp [PatchQueue.push, ofStage]

end EsModule.Compile
