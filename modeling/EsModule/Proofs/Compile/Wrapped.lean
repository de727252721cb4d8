import EsModule.Proofs.Compile.Becomes
import EsModule.Proofs.Compile.Interface

/-!
# The tree of a compiled module

A compiled module is one function of the capabilities. Its body installs the readers of the exports,
imports the other modules into the handles, and goes on with what became of the items. `Parts` names
the nodes of which this tree consists, and `Parts.Of` says how they hang together.
-/

namespace EsModule.Compile

open EsModule.Syntax EsModule.Scope EsModule.Text

/-! ## Modules that were read -/

/-- Whether a module was read from a text: its tree is that of a module with some items, whose names
are resolved. -/
structure IsRead (m : Module) (items : List Node) : Prop where
  /-- The tree. -/
  tree : ModuleTree m.root items
  /-- The scopes. -/
  scopes : collect m.root = .ok m.scopes

theorem isRead_of_ofSource {source file : String} {m : Module}
    (h : Module.ofSource source file = .ok m) :
    m.source = source ∧ m.file = file ∧ ∃ items, IsRead m items := by
  obtain ⟨root, hroot, h⟩ := bind_eq_ok.mp h
  obtain ⟨scopes, hscopes, h⟩ := bind_eq_ok.mp h
  obtain rfl := Except.ok.inj h
  rw [mapError_eq_ok] at hroot hscopes
  obtain ⟨items, hitems⟩ := ModuleTree.of_parseTree (mapError_eq_ok.mp hroot)
  exact ⟨rfl, rfl, items, hitems, hscopes⟩

namespace IsRead

variable {m : Module} {items : List Node}

theorem itemsOf (h : IsRead m items) : Compile.itemsOf m.root = items := by
  rw [Compile.itemsOf, h.tree.kind]

theorem interface (h : IsRead m items) : m.interface = .ofItems items m.scopes := by
  rw [Module.interface, h.itemsOf]

/-- What became of an item has the numbers of the item and new ones. -/
def Renews (m : Module) (items : List Node) (item item' : Node) : Prop :=
  ItemBecomes (UsesImport items m.scopes) item item' ∧
    ∀ i ∈ idsOf [item'], i ∈ idsOf [item] ∨ m.root.numberBound ≤ i

/-- The tree without imports and exports is the program of what became of the items, and its nodes
have different numbers. -/
theorem exists_settled (h : IsRead m items) : ∃ settled,
    m.standalone = m.root.withKind (.program settled) ∧
    List.Forall₂ (Renews m items) items settled ∧ m.standalone.Distinct := by
  obtain ⟨forms, bound, hforms, hqueue⟩ := exists_moduleForms h.tree h.scopes
  have hnone := hforms.formAt?_root h.tree h.scopes
  have happly : m.standalone = m.root.withKind (.program (settleAll forms items bound)) := by
    rw [Module.standalone, h.itemsOf, hqueue]
    exact hforms.fits.apply_queueOf h.tree.distinct h.tree.kind hnone
  refine ⟨settleAll forms items bound, happly, forall₂_settleAll forms fun item hi s hs => ?_, ?_⟩
  · refine ⟨hforms.itemBecomes h.tree h.scopes hi s, fun i hmem => ?_⟩
    have hlow := hforms.fits.news.le
    rcases (hforms.fits.idsOf_settle h.tree.distinct (h.tree.mem_nodes_item hi)
      (Nat.le_trans hlow hs) hs).2 i hmem with ho | ⟨-, ho⟩ | ⟨ho, -⟩
    · exact .inl ho
    · exact .inr (hforms.fits.newsAt_bounds ho).1
    · exact .inr (Nat.le_trans (Nat.le_trans hlow hs) ho)
  · rw [happly]
    exact hforms.fits.distinct_settleAll h.tree.distinct h.tree.kind (Nat.le_refl bound)

end IsRead

/-! ## The statements around the items -/

/-- Whether a statement imports a module into a constant. -/
def ImportsAs (source handle : String) (n : Node) : Prop :=
  ∃ declarator target call callee argument : Node,
    n.kind = .variableDeclaration .constKind [declarator] ∧
    declarator.kind = .variableDeclarator target (some call) ∧
    target.kind = .identifier handle ∧
    call.kind = .callExpression callee [argument] false ∧
    callee.kind = .identifier Capability.importModule.name ∧
    argument.kind = .literal (.string source none)

/-- Whether a member of a table of exports reads an export by a function without parameters. -/
def ReadsExport (exported : String × Reading) (member : Node) : Prop :=
  ∃ key reader value : Node,
    member.kind = .property key reader .plain false false false ∧
    IsKey exported.1 key ∧
    reader.kind = .arrowFunction [] value true false ∧
    ReadBy exported.2 value.kind

theorem Threaded.forall₂ {α β : Type} {f : α → Supply β} {as : List α} {bs : List β} {s s1 : Nat}
    (h : Threaded f as s bs s1) : List.Forall₂ (fun a b => ∃ s, b = (f a s).1) as bs := by
  induction h with
  | nil => exact .nil
  | cons h _ ih => exact .cons ⟨_, by rw [h]⟩ ih

theorem exportMember_eq (name : String) {r : Reading} {s s1 : Nat} {kind : Kind Node}
    (h : r.kind s = (kind, s1)) : exportMember name r s =
      (.mk (s1 + 3) ⟨0, 0⟩ (.property (newKey (s1 + 1) name)
        (.mk (s1 + 2) ⟨0, 0⟩ (.arrowFunction [] (.mk s1 ⟨0, 0⟩ kind) true false)) .plain false false
          false), s1 + 4) := by
  have hnode : r.node s = (.mk s1 ⟨0, 0⟩ kind, s1 + 1) := supply_bind h
  unfold exportMember
  rw [supply_bind hnode, supply_bind (keyNode_eq ..)]
  rfl

theorem readsExport_exportMember (name : String) (r : Reading) (s : Nat) :
    ReadsExport (name, r) (exportMember name r s).1 := by
  rcases hkind : r.kind s with ⟨kind, s1⟩
  have hread := readBy_kind r s
  rw [hkind] at hread
  rw [exportMember_eq name hkind]
  exact ⟨_, _, _, rfl, isKey_newKey .., rfl, hread⟩

/-- Whether making a node gives out the numbers of its nodes, from the first one on. -/
def GivesOut {α : Type} (f : α → Supply Node) : Prop :=
  ∀ a s, Within s (f a s).2 (idsOf [(f a s).1])

theorem Threaded.givesOut {α : Type} {f : α → Supply Node} (hf : GivesOut f) {as : List α}
    {bs : List Node} {s s1 : Nat} (h : Threaded f as s bs s1) : Within s s1 (idsOf bs) := by
  induction h with
  | nil => exact .nil (Nat.le_refl _)
  | @cons a as b bs s s1 s2 h _ ih =>
    have hfirst := hf a s
    rw [h] at hfirst
    rw [idsOf_cons]
    exact hfirst.append ih

theorem givesOut_exportMember :
    GivesOut fun e : String × Reading => exportMember e.1 e.2 := by
  rintro ⟨name, r⟩ s
  rcases hkind : r.kind s with ⟨kind, s1⟩
  have hwithin := within_ofReading 0 r s
  unfold Form.ofReading at hwithin
  rw [hkind] at hwithin
  dsimp only at hwithin ⊢
  rw [exportMember_eq name hkind]
  have hids : idsOf [.mk (s1 + 3) ⟨0, 0⟩ (.property (newKey (s1 + 1) name)
      (.mk (s1 + 2) ⟨0, 0⟩ (.arrowFunction [] (.mk s1 ⟨0, 0⟩ kind) true false)) .plain false false
        false)] = [s1 + 3, s1 + 1, s1 + 2] ++ (s1 :: idsOf kind.children) := by
    rw [idsOf_singleton]
    change (s1 + 3) :: idsOf [newKey (s1 + 1) name, _] = _
    rw [idsOf_cons, idsOf_leaf (children_newKey ..), id_newKey, idsOf_singleton]
    change (s1 + 3) :: ([s1 + 1] ++ ((s1 + 2) :: idsOf [.mk s1 ⟨0, 0⟩ kind])) = _
    rw [idsOf_singleton]
    rfl
  rw [hids]
  refine Within.prepend ⟨by dsimp only; omega, by simp, fun i hi => ?_⟩ hwithin.cons
  simp only [List.mem_cons, List.not_mem_nil, or_false] at hi
  dsimp only
  omega

theorem importsAs_importStatement (source handle : String) (s : Nat) :
    ImportsAs source handle (importStatement source handle s).1 :=
  ⟨_, _, _, _, _, rfl, rfl, rfl, rfl, rfl, rfl⟩

theorem givesOut_importStatement (handle : String → String) :
    GivesOut fun source => importStatement source (handle source) := by
  intro source s
  have hids : idsOf [(importStatement source (handle source) s).1] =
      [s + 5, s + 4, s + 3, s + 2, s + 1, s] := rfl
  have hnext : (importStatement source (handle source) s).2 = s + 6 := rfl
  dsimp only
  rw [hids, hnext]
  refine ⟨by omega, by simp, fun i hi => ?_⟩
  simp only [List.mem_cons, List.not_mem_nil, or_false] at hi
  omega

/-! ## The parts of the tree -/

/-- The nodes of which the tree of a compiled module consists. -/
structure Parts where
  /-- The only statement of the program. -/
  statement : Node
  /-- The function of the capabilities. -/
  function : Node
  /-- Its parameters. -/
  params : List Node
  /-- Its body. -/
  block : Node
  /-- The statement that makes it strict. -/
  directive : Node
  /-- The text of that statement. -/
  strict : Node
  /-- The statement that installs the readers of the exports. -/
  install : Node
  /-- The call that installs them. -/
  installCall : Node
  /-- The capability that is called. -/
  installer : Node
  /-- The table of the exports. -/
  table : Node
  /-- The readers of the exports. -/
  members : List Node
  /-- The statements that import other modules. -/
  imports : List Node
  /-- What became of the items. -/
  items : List Node

/-- Whether some parts are those of the tree of a compiled module with some exports and some
dependencies. -/
structure Parts.Of (p : Parts) (root : Node) (exports : List (String × Reading))
    (dependencies : List String) : Prop where
  /-- The program is one statement. -/
  root : root.kind = .program [p.statement]
  /-- The statement is an expression, -/
  statement : p.statement.kind = .expressionStatement p.function
  /-- and the expression is a function without a name. -/
  function : p.function.kind = .functionExpression ⟨none, p.params, p.block, false, false⟩
  /-- Its parameters are the capabilities in their order. -/
  params : List.Forall₂ (fun (c : Capability) n => n.kind = .identifier c.name) Capability.all p.params
  /-- Its body. -/
  block : p.block.kind = .blockStatement (p.directive :: p.install :: p.imports ++ p.items)
  /-- The first statement is a directive. -/
  directive : p.directive.kind = .expressionStatement p.strict
  /-- The directive makes the function strict. -/
  strict : p.strict.kind = .literal (.string "use strict" none)
  /-- The second statement is a call, -/
  install : p.install.kind = .expressionStatement p.installCall
  /-- with one argument. -/
  installCall : p.installCall.kind = .callExpression p.installer [p.table] false
  /-- It calls the capability that installs readers. -/
  installer : p.installer.kind = .identifier Capability.exportTable.name
  /-- The argument is an object -/
  table : p.table.kind = .objectExpression p.members
  /-- whose members read the exports. -/
  members : List.Forall₂ ReadsExport exports p.members
  /-- The other modules are imported in their order, into handles that are counted from zero. -/
  imports : List.Forall₂ (fun (d : String × Nat) n => ImportsAs d.1 (handleName d.2) n)
    dependencies.zipIdx p.imports

/-- The statement that installs readers, if numbers are given out from one on. -/
def installNode (s : Nat) (members : List Node) : Node :=
  .mk (s + 3) ⟨0, 0⟩ (.expressionStatement (.mk (s + 2) ⟨0, 0⟩ (.callExpression
    (nameNode (s + 1) Capability.exportTable.name) [.mk s ⟨0, 0⟩ (.objectExpression members)] false)))

theorem installStatement_eq {exports : List (String × Reading)} {members : List Node} {s s1 : Nat}
    (h : exports.mapM (fun e => exportMember e.1 e.2) s = (members, s1)) :
    installStatement exports s = (installNode s1 members, s1 + 4) :=
  (supply_bind h).trans rfl

/-- The function of the capabilities, from its body. -/
theorem wrapper_eq (body : List Node) (s : Nat) : (wrapper body s).1 =
    .mk (s + 9) ⟨0, 0⟩ (.expressionStatement (.mk (s + 8) ⟨0, 0⟩ (.functionExpression
      ⟨none, [nameNode (s + 2) Capability.importModule.name,
        nameNode (s + 3) Capability.exportTable.name, nameNode (s + 4) Capability.namespaceOf.name,
        nameNode (s + 5) Capability.importMeta.name, nameNode (s + 6) Capability.dynamicImport.name],
        .mk (s + 7) ⟨0, 0⟩ (.blockStatement (.mk (s + 1) ⟨0, 0⟩ (.expressionStatement
          (.mk s ⟨0, 0⟩ (.literal (.string "use strict" none)))) :: body)), false, false⟩))) :=
  rfl

/-- Each dependency is imported into the handle with its place in the list. -/
theorem forall₂_imports {specifiers : List String} (hnodup : specifiers.Nodup) {imports : List Node}
    (h : List.Forall₂ (fun source n => ImportsAs source (handleOf specifiers source) n) specifiers
      imports) :
    List.Forall₂ (fun (d : String × Nat) n => ImportsAs d.1 (handleName d.2) n) specifiers.zipIdx
      imports := by
  rw [List.forall₂_iff_get] at h ⊢
  refine ⟨List.length_zipIdx.trans h.1, fun i hi hi' => ?_⟩
  rw [List.length_zipIdx] at hi
  have himport := h.2 i hi hi'
  simp only [List.get_eq_getElem, handleOf, hnodup.idxOf_getElem] at himport
  simpa using himport

/-- The numbers of the nodes around the items. -/
def Parts.around (p : Parts) : List Nat :=
  [p.statement.id, p.function.id, p.block.id] ++
    idsOf (p.params ++ p.directive :: p.install :: p.imports)

namespace IsRead

variable {m : Module} {items : List Node}

/-- The tree of a compiled module has its parts. Its items are those of the tree without imports and
exports, and all nodes around them are new and have different numbers. -/
theorem exists_freshParts (h : IsRead m items) (exports : List (String × Reading)) :
    ∃ p : Parts, p.Of (m.compiled exports) exports (dependencies items) ∧
      m.standalone = m.root.withKind (.program p.items) ∧
      List.Forall₂ (Renews m items) items p.items ∧ m.standalone.Distinct ∧
      ∃ high, Within m.standalone.numberBound high p.around := by
  obtain ⟨settled, hstandalone, hsettled, hdistinct⟩ := h.exists_settled
  have hspecifiers : m.interface.dependencies = dependencies items := by
    rw [h.interface]
    rfl
  have hitems : Compile.itemsOf m.standalone = settled := by
    rw [hstandalone]
    rfl
  rcases hmembers : exports.mapM (fun e => exportMember e.1 e.2) m.standalone.numberBound with
    ⟨members, s1⟩
  rcases himports : (dependencies items).mapM
    (fun s => importStatement s (handleOf (dependencies items) s)) (s1 + 4) with ⟨imports, s2⟩
  have hthread := threaded_mapM (fun e : String × Reading => exportMember e.1 e.2) exports
    m.standalone.numberBound
  have hthread' := threaded_mapM (fun s => importStatement s (handleOf (dependencies items) s))
    (dependencies items) (s1 + 4)
  rw [hmembers] at hthread
  rw [himports] at hthread'
  have hroot : (m.compiled exports).kind =
      .program [(wrapper (installNode s1 members :: imports ++ settled) s2).1] := by
    unfold Module.compiled
    dsimp only
    rw [hspecifiers, hitems, supply_bind (installStatement_eq hmembers), supply_bind himports]
    rfl
  rw [wrapper_eq] at hroot
  have hnodup : (dependencies items).Nodup := by
    rw [dependencies_eq]
    exact nodup_eraseDups _
  refine ⟨⟨_, _, _, _, _, _, _, _, _, _, members, imports, settled⟩,
    ⟨hroot, rfl, rfl, ?_, rfl, rfl, rfl, rfl, rfl, rfl, rfl, ?_, ?_⟩, hstandalone, hsettled,
    hdistinct, s2 + 10, ?_⟩
  · exact .cons rfl (.cons rfl (.cons rfl (.cons rfl (.cons rfl .nil))))
  · refine hthread.forall₂.imp ?_
    rintro ⟨name, r⟩ _ ⟨s, rfl⟩
    exact readsExport_exportMember name r s
  · refine forall₂_imports hnodup (hthread'.forall₂.imp ?_)
    rintro source _ ⟨s, rfl⟩
    exact importsAs_importStatement source _ s
  · have hinstall : idsOf [installNode s1 members] =
        [s1 + 3, s1 + 2, s1 + 1, s1] ++ idsOf members := by
      simp [idsOf, installNode, Node.nodes_eq, Node.id, Node.kind, Kind.children, nameNode]
    change Within _ _ ([s2 + 9, s2 + 8, s2 + 7, s2 + 2, s2 + 3, s2 + 4, s2 + 5, s2 + 6, s2 + 1, s2] ++
      idsOf (installNode s1 members :: imports))
    rw [idsOf_cons (installNode s1 members), hinstall]
    have hmembers := hthread.givesOut givesOut_exportMember
    have himports := hthread'.givesOut (givesOut_importStatement _)
    have htable : Within m.standalone.numberBound (s1 + 4)
        ([s1 + 3, s1 + 2, s1 + 1, s1] ++ idsOf members) := by
      refine Within.prepend ⟨by omega, by simp, fun i hi => ?_⟩ hmembers
      simp only [List.mem_cons, List.not_mem_nil, or_false] at hi
      omega
    have hfunction : Within s2 (s2 + 10) [s2 + 9, s2 + 8, s2 + 7, s2 + 2, s2 + 3, s2 + 4, s2 + 5,
        s2 + 6, s2 + 1, s2] := by
      refine ⟨by omega, by simp, fun i hi => ?_⟩
      simp only [List.mem_cons, List.not_mem_nil, or_false] at hi
      omega
    exact hfunction.prepend (htable.append himports)

/-- The tree of a compiled module has its parts, and its items are what became of the items. -/
theorem exists_parts (h : IsRead m items) (exports : List (String × Reading)) :
    ∃ p : Parts, p.Of (m.compiled exports) exports (dependencies items) ∧
      List.Forall₂ (ItemBecomes (UsesImport items m.scopes)) items p.items := by
  obtain ⟨p, hp, -, hitems, -⟩ := h.exists_freshParts exports
  exact ⟨p, hp, hitems.imp fun _ _ hr => hr.1⟩

end IsRead

/-! ## The nodes of the tree -/

/-- Whether a kind is one that holds the parts of a compiled module together. -/
def isFrame (kind : Kind Node) : Bool :=
  match kind with
  | .program _ | .expressionStatement _ | .functionExpression _ | .blockStatement _
  | .objectExpression _ | .property .. | .arrowFunction .. | .variableDeclaration ..
  | .variableDeclarator .. | .identifier _ | .literal _ => true
  | _ => false

/-- What a node of the tree of a compiled module is. -/
inductive PartOf (p : Parts) (exports : List (String × Reading)) (uses : Nat → Reading → Prop)
    (root n : Node) : Prop where
  | frame (h : isFrame n.kind = true)
  | install (h : n = p.installCall)
  | reading {exported : String × Reading} (he : exported ∈ exports) (h : ReadBy exported.2 n.kind)
  | importCall {statement callee argument : Node} (hs : statement ∈ p.imports)
      (hn : n ∈ statement.nodes) (hk : n.kind = .callExpression callee [argument] false)
      (hc : callee.kind = .identifier Capability.importModule.name)
  | item (h : Occurs uses root n.kind)

theorem IsLeaf.isFrame {n : Node} (h : IsLeaf n) : Compile.isFrame n.kind = true := by
  obtain ⟨_, h⟩ | ⟨_, h⟩ := h <;> rw [h] <;> rfl

section

variable {P : Node → Prop}

theorem IsLeaf.forall_nodes {n : Node} (h : IsLeaf n) (hP : P n) : ∀ m ∈ n.nodes, P m := by
  rw [h.nodes]
  intro m hm
  obtain rfl := List.mem_singleton.mp hm
  exact hP

/-- What holds of the kinds of nodes that a reader of an export is made of holds of its nodes. -/
theorem ReadsExport.forall_nodes {exported : String × Reading} {member : Node}
    (h : ReadsExport exported member) (hleaf : ∀ n, IsLeaf n → P n)
    (hmember : ∀ n key reader, n.kind = .property key reader .plain false false false → P n)
    (hreader : ∀ n value, n.kind = .arrowFunction [] value true false → P n)
    (hvalue : ∀ n, ReadBy exported.2 n.kind → P n) : ∀ n ∈ member.nodes, P n := by
  obtain ⟨key, reader, value, hm, hk, hr, hv⟩ := h
  refine Node.forall_nodes (hmember member _ _ hm) fun c hc => ?_
  rw [hm] at hc
  change c ∈ [key, reader] at hc
  simp only [List.mem_cons, List.not_mem_nil, or_false] at hc
  rcases hc with rfl | rfl
  · exact hk.isLeaf.forall_nodes (hleaf _ hk.isLeaf)
  · refine Node.forall_nodes (hreader c _ hr) fun c hc => ?_
    rw [hr] at hc
    obtain rfl := List.mem_singleton.mp hc
    exact Node.forall_nodes (hvalue c hv) fun c hc =>
      (hv.isLeaf c hc).forall_nodes (hleaf c (hv.isLeaf c hc))

/-- What holds of the kinds of nodes that the import of a module is made of holds of all nodes below
the statement. -/
theorem ImportsAs.forall_below {source handle : String} {n : Node} (h : ImportsAs source handle n)
    (hleaf : ∀ m, IsLeaf m → P m)
    (hdeclarator : ∀ m target call, m.kind = .variableDeclarator target (some call) → P m)
    (hcall : ∀ m callee argument, m ∈ n.nodes → m.kind = .callExpression callee [argument] false →
      callee.kind = .identifier Capability.importModule.name → P m) :
    ∀ c ∈ n.kind.children, ∀ m ∈ c.nodes, P m := by
  obtain ⟨declarator, target, call, callee, argument, hn, hd, ht, hk, hc, ha⟩ := h
  have hdn : declarator ∈ n.nodes := Node.mem_nodes_below n.mem_nodes_self (by
    rw [hn]
    exact List.mem_singleton_self _)
  have hcn : call ∈ n.nodes := Node.mem_nodes_below hdn (by
    rw [hd]
    exact List.mem_cons_of_mem _ (List.mem_singleton_self _))
  have hname : ∀ {m : Node} {name}, m.kind = .identifier name → ∀ k ∈ m.nodes, P k := fun hm =>
    IsLeaf.forall_nodes (.inl ⟨_, hm⟩) (hleaf _ (.inl ⟨_, hm⟩))
  intro c hc'
  rw [hn] at hc'
  obtain rfl := List.mem_singleton.mp hc'
  refine Node.forall_nodes (hdeclarator c _ _ hd) fun c hc' => ?_
  rw [hd] at hc'
  change c ∈ [target, call] at hc'
  simp only [List.mem_cons, List.not_mem_nil, or_false] at hc'
  rcases hc' with rfl | rfl
  · exact hname ht
  · refine Node.forall_nodes (hcall c _ _ hcn hk hc) fun d hd => ?_
    rw [hk] at hd
    change d ∈ [callee, argument] at hd
    simp only [List.mem_cons, List.not_mem_nil, or_false] at hd
    rcases hd with rfl | rfl
    · exact hname hc
    · exact IsLeaf.forall_nodes (.inr ⟨_, ha⟩) (hleaf _ (.inr ⟨_, ha⟩))

namespace Parts.Of

variable {p : Parts} {tree : Node} {exports : List (String × Reading)} {dependencies : List String}

/-- What holds of the kinds of nodes that the statement with the readers is made of holds of its
nodes. -/
theorem forall_install (hp : p.Of tree exports dependencies) (hleaf : ∀ n, IsLeaf n → P n)
    (hinstall : P p.install) (hcall : P p.installCall) (htable : P p.table)
    (hmembers : ∀ exported ∈ exports, ∀ member, ReadsExport exported member →
      ∀ n ∈ member.nodes, P n) : ∀ n ∈ p.install.nodes, P n := by
  refine Node.forall_nodes hinstall fun c hc => ?_
  rw [hp.install] at hc
  obtain rfl := List.mem_singleton.mp hc
  refine Node.forall_nodes hcall fun c hc => ?_
  rw [hp.installCall] at hc
  change c ∈ [p.installer, p.table] at hc
  simp only [List.mem_cons, List.not_mem_nil, or_false] at hc
  rcases hc with rfl | rfl
  · exact IsLeaf.forall_nodes (.inl ⟨_, hp.installer⟩) (hleaf _ (.inl ⟨_, hp.installer⟩))
  · refine Node.forall_nodes htable fun c hc => ?_
    rw [hp.table] at hc
    obtain ⟨exported, he, hread⟩ := exists_match hp.members.flip hc
    exact hmembers exported he c hread

/-- The directive is one text in a statement. -/
theorem forall_directive (hp : p.Of tree exports dependencies) (hleaf : ∀ n, IsLeaf n → P n)
    (hdirective : P p.directive) : ∀ n ∈ p.directive.nodes, P n := by
  refine Node.forall_nodes hdirective fun c hc => ?_
  rw [hp.directive] at hc
  obtain rfl := List.mem_singleton.mp hc
  exact IsLeaf.forall_nodes (.inr ⟨_, hp.strict⟩) (hleaf _ (.inr ⟨_, hp.strict⟩))

end Parts.Of

end

section

variable {p : Parts} {exports : List (String × Reading)} {uses : Nat → Reading → Prop} {root : Node}

theorem IsLeaf.partOf {n : Node} (h : IsLeaf n) : PartOf p exports uses root n := .frame h.isFrame

theorem ReadsExport.partOf {exported : String × Reading} {member : Node}
    (h : ReadsExport exported member) (he : exported ∈ exports) :
    ∀ n ∈ member.nodes, PartOf p exports uses root n :=
  h.forall_nodes (fun _ hn => hn.partOf) (fun _ _ _ hn => .frame (by rw [hn]; rfl))
    (fun _ _ hn => .frame (by rw [hn]; rfl)) fun _ hn => .reading he hn

theorem ImportsAs.partOf {source handle : String} {n : Node} (h : ImportsAs source handle n)
    (hs : n ∈ p.imports) : ∀ m ∈ n.nodes, PartOf p exports uses root m := by
  refine Node.forall_nodes (.frame ?_) (h.forall_below (fun _ hm => hm.partOf)
    (fun _ _ _ hm => .frame (by rw [hm]; rfl)) fun _ _ _ hmem hm hc => .importCall hs hmem hm hc)
  obtain ⟨_, _, _, _, _, hn, -⟩ := h
  rw [hn]
  rfl

namespace Parts.Of

variable {tree : Node} {dependencies : List String}

theorem install_partOf (hp : p.Of tree exports dependencies) :
    ∀ n ∈ p.install.nodes, PartOf p exports uses root n :=
  hp.forall_install (fun _ hn => hn.partOf) (.frame (by rw [hp.install]; rfl)) (.install rfl)
    (.frame (by rw [hp.table]; rfl)) fun _ he _ hread => hread.partOf he

/-- Every node of the tree of a compiled module is a part of it. -/
theorem partOf {items : List Node} (hp : p.Of tree exports dependencies)
    (hm : ModuleTree root items) (hitems : List.Forall₂ (ItemBecomes uses) items p.items) :
    ∀ n ∈ tree.nodes, PartOf p exports uses root n := by
  have hbody : ∀ c ∈ p.directive :: p.install :: p.imports ++ p.items, ∀ n ∈ c.nodes,
      PartOf p exports uses root n := by
    intro c hc
    simp only [List.cons_append, List.mem_cons, List.mem_append] at hc
    rcases hc with rfl | rfl | hc | hc
    · exact hp.forall_directive (fun _ hn => hn.partOf) (.frame (by rw [hp.directive]; rfl))
    · exact hp.install_partOf
    · obtain ⟨d, -, himport⟩ := exists_match hp.imports.flip hc
      exact ImportsAs.partOf himport hc
    · obtain ⟨item, hi, hbecomes⟩ := exists_match hitems.flip hc
      exact fun n hn => .item (hbecomes.occurs hm hi n hn)
  refine Node.forall_nodes (.frame (by rw [hp.root]; rfl)) fun c hc => ?_
  rw [hp.root] at hc
  obtain rfl := List.mem_singleton.mp hc
  refine Node.forall_nodes (.frame (by rw [hp.statement]; rfl)) fun c hc => ?_
  rw [hp.statement] at hc
  obtain rfl := List.mem_singleton.mp hc
  refine Node.forall_nodes (.frame (by rw [hp.function]; rfl)) fun c hc => ?_
  rw [hp.function] at hc
  change c ∈ [] ++ p.params ++ [p.block] at hc
  rw [List.nil_append, List.mem_append, List.mem_singleton] at hc
  rcases hc with hc | rfl
  · obtain ⟨c', -, hname⟩ := exists_match hp.params.flip hc
    have hleaf : IsLeaf c := .inl ⟨_, hname⟩
    exact hleaf.forall_nodes hleaf.partOf
  · refine Node.forall_nodes (.frame (by rw [hp.block]; rfl)) fun c hc => ?_
    rw [hp.block] at hc
    exact hbody c hc

end Parts.Of

end

/-! ## Calls of capabilities -/

/-- Whether a node calls a capability, named by an identifier that is no node of the tree of a
module. -/
def CallsInserted (root : Node) (c : Capability) (n : Node) : Prop :=
  ∃ callee arguments optional, n.kind = .callExpression callee arguments optional ∧
    callee.name? = some c.name ∧ callee ∉ root.nodes

theorem Capability.name_inj {c d : Capability} (h : c.name = d.name) : c = d := by
  cases c <;> cases d <;> first | rfl | exact absurd h (by decide)

/-- Where a capability is called. -/
structure CalledAt (p : Parts) (c : Capability) (n : Node) : Prop where
  /-- The readers of the exports are installed by one call. -/
  installs : c = .exportTable → n = p.installCall
  /-- Modules are imported by the statements in front of the items. -/
  imports : c = .importModule → ∃ statement ∈ p.imports, n ∈ statement.nodes

theorem calledAt_of_ne {p : Parts} {c d : Capability} {n callee : Node}
    (hname : callee.name? = some c.name) (hc : callee.kind = .identifier d.name)
    (hd : d = .namespaceOf ∨ d = .dynamicImport) : CalledAt p c n := by
  rw [Node.name?, hc] at hname
  obtain rfl := Capability.name_inj (Option.some.inj hname)
  rcases hd with rfl | rfl <;> exact ⟨(absurd · (by decide)), (absurd · (by decide))⟩

theorem calledAt_of_readBy {p : Parts} {c : Capability} {n callee : Node} {r : Reading}
    {arguments : List Node} {optional : Bool} (hr : ReadBy r n.kind)
    (hk : n.kind = .callExpression callee arguments optional) (hname : callee.name? = some c.name) :
    CalledAt p c n := by
  rw [hk] at hr
  cases hr with
  | namespaceOf hc => exact calledAt_of_ne hname hc (.inl rfl)

/-- Capabilities are called where they are meant to be, but for what the module itself calls by
their names. -/
theorem Parts.Of.calls {p : Parts} {m : Module} {items : List Node} {tree : Node}
    {exports : List (String × Reading)} {dependencies : List String}
    (hp : p.Of tree exports dependencies) (hm : IsRead m items)
    (hitems : List.Forall₂ (ItemBecomes (UsesImport items m.scopes)) items p.items) {n : Node}
    {c : Capability} (hn : n ∈ tree.nodes) (hcalls : CallsInserted m.root c n) : CalledAt p c n := by
  obtain ⟨callee, arguments, optional, hk, hname, hnew⟩ := hcalls
  have hsame : ∀ {callee' : Node} {arguments' optional'},
      n.kind = .callExpression callee' arguments' optional' → callee = callee' :=
    fun hk' => (Kind.callExpression.inj (hk.symm.trans hk')).1
  cases hp.partOf hm.tree hitems n hn with
  | frame h =>
    rw [hk] at h
    cases h
  | install h =>
    obtain rfl := hsame (h ▸ hp.installCall)
    rw [Node.name?, hp.installer] at hname
    obtain rfl := Capability.name_inj (Option.some.inj hname)
    exact ⟨fun _ => h, (absurd · (by decide))⟩
  | reading _ h => exact calledAt_of_readBy h hk hname
  | importCall hs hns hk' hc =>
    obtain rfl := hsame hk'
    rw [Node.name?, hc] at hname
    obtain rfl := Capability.name_inj (Option.some.inj hname)
    exact ⟨(absurd · (by decide)), fun _ => ⟨_, hs, hns⟩⟩
  | item h =>
    have hinserted := h.inserted UsesImport.not_variable (fun _ hk' => by cases hk.symm.trans hk')
      fun _ _ hk' => by cases hk.symm.trans hk'
    cases hinserted with
    | read _ hr => exact calledAt_of_readBy hr hk hname
    | importMeta hr => exact calledAt_of_readBy hr hk hname
    | dynamicImport hk' hc =>
      obtain rfl := hsame hk'
      exact calledAt_of_ne hname hc (.inr rfl)
    | old h =>
      refine absurd (h callee ?_ (by rw [hname]; rfl)) hnew
      rw [hk]
      exact List.mem_cons_self

end EsModule.Compile
