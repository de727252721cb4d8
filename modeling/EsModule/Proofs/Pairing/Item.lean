import EsModule.Proofs.Grammar.Item
import EsModule.Proofs.Pairing.Statement

/-!
# Rules that follow: imports, exports and modules

The name of an import or export may be written as a string, so its node has the span of the token
before.

Rules of two depths follow each other as far as both depths reach (`follows_ofDepth`). From one
character to the next at most two rules are called without moving over a token, so a depth of twice
the characters that are left is never used up.
-/

namespace EsModule.Syntax

section

variable {i : Pairing} {n l : Nat} {g g' : Grammar} {s : State}

/-! ## Imports -/

theorem follows_moduleSpecifier :
    Follows i n 1 Grammar.moduleSpecifier Grammar.moduleSpecifier id := by
  intro s l hl
  refine .current ?_
  rw [Transfer.token_kind]
  split
  · rename_i value hk
    exact .advance (by rw [hk]; rfl) (.pure rfl (by omega))
  · exact .unexpected

theorem follows_exportName : Follows i n 1 Grammar.exportName Grammar.exportName id := by
  intro s l hl
  refine .current ?_
  rw [Transfer.token_kind]
  split
  · rename_i value hk
    exact .advance (by rw [hk]; rfl) (.pure rfl (by omega))
  · exact follows_anyName.on s hl

/-- A node that is made behind the name of another module. -/
theorem Echoes.endsWithModule {k k' : String → Kind Node} {start m : Nat}
    (hk : ∀ module, k' module = (k module).map i.node) (hl : l - 1 ≤ m) :
    Echoes i l (fun _ => m) s
      (Parser.expectName "from" >>= fun _ => Grammar.moduleSpecifier >>= fun module =>
        Parser.semicolon >>= fun _ => Parser.node (k module) start)
      (Parser.expectName "from" >>= fun _ => Grammar.moduleSpecifier >>= fun module =>
        Parser.semicolon >>= fun _ => Parser.node (k' module) (i.start start)) i.node :=
  .expectName fun _ => .bind (follows_moduleSpecifier.echoes _) fun module _ =>
    .endsWithSemicolon (hk module) (by omega)

theorem follows_importEnd (start : Nat) (specifiers : List Node) :
    Follows i n 1 (Grammar.importEnd start specifiers)
      (Grammar.importEnd (i.start start) (specifiers.map i.node)) i.node :=
  fun _ _ _ => .endsWithModule (fun _ => rfl) (by omega)

theorem follows_importSpecifier :
    Follows i n 1 Grammar.importSpecifier Grammar.importSpecifier i.node := by
  intro s l hl
  refine .here (.atBindingName fun short _ => ?_)
  refine .bind (follows_exportName.echoes s) fun imported s1 => ?_
  refine .ifEatName (fun _ => ?_) fun _ => .ite (fun _ => .get ?_) fun _ => .failThen nofun
  · exact .bind (follows_bindingName.echoes _) fun binding s2 => .node rfl (by omega)
  · exact .madeAt rfl rfl fun binding s2 => .node rfl (by omega)

theorem follows_importDefaultSpecifier :
    Follows i n 1 Grammar.importDefaultSpecifier Grammar.importDefaultSpecifier i.node :=
  fun s _ _ => .here (.bind (follows_bindingName.echoes s) fun _ _ => .node rfl (by omega))

theorem follows_importList :
    Follows i n 1 Grammar.importList Grammar.importList (List.map i.node) := by
  intro s l hl
  rw [Grammar.importList_eq]
  refine .here (.ifEat (fun _ => ?_) fun _ => .ifEat (fun _ => ?_) fun _ => .unexpected)
  · refine .expectName fun _ => .bind (follows_bindingName.echoes _) fun binding s1 => ?_
    exact .made rfl fun _ _ => .pure rfl (by omega)
  · refine .bind (.listUntil (f := i.node) (follows_entryItem follows_importSpecifier))
      fun specifiers s1 => ?_
    exact .expect fun _ => .pure rfl (by omega)

theorem echoes_importDeclaration (hk : s.current.kind = .keyword .kwImport) :
    Echoes i l (fun _ => l - 1) s Grammar.importDeclaration Grammar.importDeclaration i.node := by
  have hend : ∀ specifiers s' l', l' ≤ l → Echoes i l' (fun _ => l - 1) s'
      (Grammar.importEnd s.current.span.start specifiers)
      (Grammar.importEnd (i.start s.current.span.start) (specifiers.map i.node)) i.node :=
    fun specifiers s' l' hl' => ((follows_importEnd _ specifiers).echoes s').widen (Nat.le_refl _)
      fun _ => by omega
  refine .here (.advance (by rw [hk]; rfl) (.current ?_))
  rw [Transfer.token_kind]
  split
  · rename_i source hsource
    exact .advance (by rw [hsource]; rfl) (.endsWithSemicolon rfl (by omega))
  refine .atBindingName fun b _ => .ite (fun _ => ?_) fun _ => ?_
  · refine .bind (follows_importDefaultSpecifier.echoes _) fun first s1 => ?_
    refine .ifEat (fun _ => ?_) fun _ => hend [first] s1 _ (by omega)
    exact .bind (follows_importList.echoes _) fun more s2 => hend (first :: more) s2 _ (by omega)
  · exact .bind (follows_importList.echoes _) fun specifiers s1 => hend specifiers s1 _ (by omega)

/-! ## Exports -/

theorem echoes_exportedDeclaration {declaration declaration' : Parser Node} {m : Nat} (start : Nat)
    (h : Echoes i l (fun _ => m) s declaration declaration' i.node) :
    Echoes i l (fun _ => m) s (Grammar.exportedDeclaration start declaration)
      (Grammar.exportedDeclaration (i.start start) declaration') i.node :=
  .bind h fun _ _ => .node rfl (by omega)

theorem echoes_exportAll (hk : s.current.kind.isText = true) (start : Nat) :
    Echoes i l (fun _ => l - 1) s (Grammar.exportAll start) (Grammar.exportAll (i.start start))
      i.node := by
  refine .advance hk (.ifEatName (fun _ => ?_) fun _ =>
    .bindPure (.endsWithModule (fun _ => rfl) (by omega)))
  refine .bind (follows_exportName.echoes _) fun _ _ => ?_
  exact .bindPure (.endsWithModule (fun _ => rfl) (by omega))

theorem echoes_exportDefault (hg : g.Follows i n g') (hk : s.current.kind.isText = true)
    (start : Nat) (hl : l ≤ n + 1) :
    Echoes i l (fun _ => l - 1) s (g.exportDefault start) (g'.exportDefault (i.start start))
      i.node := by
  have hbehind : ∀ declaration s1 l', l' ≤ l - 1 → Echoes i l' (fun _ => l - 1) s1
      (Parser.node (.exportDefaultDeclaration declaration) start)
      (Parser.node (.exportDefaultDeclaration (i.node declaration)) (i.start start)) i.node :=
    fun declaration s1 l' hl' => .node rfl (by omega)
  refine .advance hk (.startsAsyncFunction (fun hasync => ?_) (.current ?_))
  · refine .advance (by rw [hasync]; rfl) ?_
    refine .bind ((follows_functionDeclaration hg _ (by nofun)).on _ (by omega)) ?_
    intro declaration s1
    exact hbehind declaration s1 _ (by omega)
  rw [Transfer.token_kind]
  split
  · refine .bind ((follows_functionDeclaration hg _ (by nofun)).on _ (by omega)) ?_
    intro declaration s1
    exact hbehind declaration s1 _ (by omega)
  · refine .bind ((follows_classRule hg _ (fun _ => rfl) (by nofun)).on _ (by omega)) ?_
    intro declaration s1
    exact hbehind declaration s1 _ (by omega)
  · refine .bind (.withIn (hg.assignment.on _ (by omega))) fun e s1 =>
      .semicolon fun s2 => .bindPure ?_
    exact hbehind e s2 _ (by omega)

theorem follows_exportSpecifier :
    Follows i n 1 Grammar.exportSpecifier Grammar.exportSpecifier (Prod.map i.node id) := by
  intro s l hl
  refine .here (.atBindingName fun plain _ => ?_)
  refine .bind (follows_exportName.echoes s) fun name s1 => .get ?_
  refine .madeAt rfl rfl fun binding s2 => .ifEatName (fun _ => ?_) fun _ => ?_
  · refine .bind (follows_exportName.echoes _) fun exported s3 => .made rfl fun _ _ =>
      .pure rfl (by omega)
  · exact .bindPure (.made rfl fun _ _ => .pure rfl (by omega))

theorem echoes_exportList (hk : s.current.kind.isText = true) (start : Nat) :
    Echoes i l (fun _ => l - 1) s (Grammar.exportList start) (Grammar.exportList (i.start start))
      i.node := by
  rw [Grammar.exportList_eq, Grammar.exportList_eq]
  refine .advance hk (.bind (.listUntil (f := Prod.map i.node id)
    (follows_entryItem follows_exportSpecifier)) fun marked s1 => ?_)
  have hnames : (marked.map (Prod.map i.node id)).map (fun m => m.1) =
      (marked.map fun m => m.1).map i.node := by
    simp
  have hfound : (marked.map (Prod.map i.node id)).findSome? (fun m => m.2) =
      marked.findSome? fun m => m.2 := List.findSome?_map
  rw [hnames, hfound]
  refine .expect fun _ => .ifEatName (fun _ => ?_) fun _ => ?_
  · refine .bind (follows_moduleSpecifier.echoes _) fun source s3 => .bindPure ?_
    exact .endsWithSemicolon rfl (by omega)
  · split
    · exact .failThen nofun
    · exact .bindPure (.endsWithSemicolon rfl (by omega))

theorem echoes_exportDeclaration (hg : g.Follows i n g') (hk : s.current.kind.isText = true)
    (hl : l ≤ n + 1) :
    Echoes i l (fun _ => l - 1) s g.exportDeclaration g'.exportDeclaration i.node := by
  refine .here (.advance hk (.current ?_))
  dsimp only [Transfer.token_kind]
  split
  · rename_i kind hkind
    refine echoes_exportedDeclaration _ ?_
    refine .bind (echoes_variableDeclaration hg (variableKind?_isText hkind) kind (by omega)) ?_
    exact fun declaration s1 => .semicolon fun _ => .pure rfl (by omega)
  have hfunction : ∀ isAsync s' l', l' ≤ l - 1 → Echoes i l' (fun _ => l - 1) s'
      (g.functionDeclaration isAsync (some .missingFunctionName))
      (g'.functionDeclaration isAsync (some .missingFunctionName)) i.node := by
    intro isAsync s' l' hl'
    exact ((follows_functionDeclaration hg isAsync (by nofun)).on s' (by omega)).widen
      (Nat.le_refl _) fun _ => by omega
  refine .andPeek (fun h => ?_) (fun _ => rfl) (fun h => ?_) ?_
  · rw [of_decide_eq_true h]
    rfl
  · refine .advance (by rw [of_decide_eq_true h]; rfl) (echoes_exportedDeclaration _ ?_)
    exact hfunction true _ _ (by omega)
  have htext : ∀ kind, s.next.current.kind = kind → kind.isText = true →
      s.next.current.kind.isText = true := by
    intro kind h hkind
    rw [h, hkind]
  have hthen : ∀ {p p' : Parser Node},
      Echoes i (l - 1) (fun _ => l - 1 - 1) s.next p p' i.node →
      Echoes i (l - 1) (fun _ => l - 1) s.next p p' i.node :=
    fun h => h.widen (Nat.le_refl _) fun _ => Nat.sub_le _ _
  split
  · exact hthen (echoes_exportAll (htext _ ‹_› rfl) _)
  · exact hthen (echoes_exportList (htext _ ‹_› rfl) _)
  · exact hthen (echoes_exportDefault hg (htext _ ‹_› rfl) _ (by omega))
  · exact echoes_exportedDeclaration _ (hfunction false _ _ (by omega))
  · refine hthen (echoes_exportedDeclaration _ ?_)
    exact (follows_classRule hg _ (fun _ => rfl) (by nofun)).on _ (by omega)
  · exact .unexpected

/-! ## Modules -/

theorem follows_moduleItem (hg : g.Follows i n g') :
    Follows i n 1 g.moduleItem g'.moduleItem i.node := by
  intro s l hl
  refine .current ?_
  rw [Transfer.token_kind]
  split
  · rename_i hk
    refine .peek (by rw [hk]; rfl) ?_
    dsimp only [Transfer.token_kind]
    exact .ite (fun _ => hg.statement.on s (by omega)) fun _ => echoes_importDeclaration hk
  · rename_i hk
    exact echoes_exportDeclaration hg (by rw [hk]; rfl) (by omega)
  · exact hg.statement.on s (by omega)

theorem follows_moduleBody (hg : g.Follows i n g') :
    Follows i n 0 g.moduleBody g'.moduleBody (List.map i.node) := by
  intro s l hl
  rw [Grammar.moduleBody_eq, Grammar.moduleBody_eq]
  exact .listUntil ((follows_plainItem (follows_moduleItem hg)).mono hl)

end

/-! ## Depths -/

/-- Rules of the depths `d` and `d'` go along with each other where they call each other no more
than `x` deep. Rules of one depth always do. -/
structure Pairing.Reaches (i : Pairing) (x d d' : Nat) : Prop where
  second : d = d' ∨ x ≤ d'
  exact : i.exact → d = d' ∨ x ≤ d
  deep : i.deep → x ≤ d

section

variable {i : Pairing} {x y d d' n : Nat}

theorem Pairing.Reaches.mono (h : i.Reaches x d d') (hy : y ≤ x) : i.Reaches y d d' :=
  ⟨h.second.imp_right (Nat.le_trans hy), fun he => (h.exact he).imp_right (Nat.le_trans hy),
    fun hd => Nat.le_trans hy (h.deep hd)⟩

theorem Pairing.Reaches.below (h : i.Reaches x (d + 1) (d' + 1)) (hy : y + 1 ≤ x) :
    i.Reaches y d d' := by
  obtain ⟨h1, h2, h3⟩ := h
  refine ⟨?_, fun he => ?_, fun hd => ?_⟩
  · omega
  · have := h2 he
    omega
  · have := h3 hd
    omega

/-- Nothing starts where no character is left. -/
theorem Echoes.empty {α β : Type} {f : α → β} {m : α → Nat} {s : State} {p : Parser α}
    {p' : Parser β} : Echoes i 0 m s p p' f := fun hs => absurd hs (Nat.not_lt_zero _)

theorem follows_empty {α β : Type} {f : α → β} {k : Nat} {p : Parser α} {p' : Parser β} :
    Follows i 0 k p p' f := fun _ _ hl hs => absurd hs (by omega)

/-- At depth zero nothing can be read. -/
theorem Pairing.Reaches.stops {α β : Type} {f : α → β} {k : Nat} {p' : Parser β}
    (h : i.Reaches x 0 d') (hx : 0 < x) (hp : d' = 0 → p' = Parser.fail .nestingBound) :
    Follows i n k (Parser.fail .nestingBound) p' f := by
  intro s l _ _ ht c c' _
  refine ⟨nofun, ?_⟩
  intro e he
  obtain rfl : _ = e := Except.error.inj he
  refine ⟨fun hdeep => absurd (h.deep hdeep) (by omega), fun hexact => ?_,
    s, ht, rfl, fun _ h => absurd rfl h⟩
  have hd : d' = 0 := by
    have := h.exact hexact
    omega
  rw [hp hd, (i.same hexact ht).2]
  rfl

theorem makesAlike_empty {g g' : Grammar} : g.MakesAlike i 0 g' :=
  fun s l hl _ => follows_empty (k := 1) s l hl

theorem readsAlike_empty {g g' : Grammar} : g.ReadsAlike i 0 g' :=
  ⟨follows_empty, fun _ => follows_empty, follows_empty, follows_empty, follows_empty⟩

/-- Behind the word `new` nothing is left. -/
theorem makesAlike_last {g g' : Grammar} {s : State} {l : Nat} (hl : l ≤ 1)
    (hk : s.current.kind = .keyword .kwNew) :
    Echoes i l (fun _ => l - 1) s g.newExpressionRule g'.newExpressionRule i.node :=
  .here (.advance (by rw [hk]; rfl) (.widen .empty (by omega) fun _ => Nat.le_refl _))

/-- The rules of two depths, one after the other as they call each other without moving over a
token: what is made by `new`, then expressions and targets, and then statements. -/
theorem follows_ofDepth_each (i : Pairing) (d d' n : Nat) :
    (i.Reaches (2 * n - 1) d d' → (Grammar.ofDepth d).MakesAlike i n (Grammar.ofDepth d')) ∧
    (i.Reaches (2 * n) d d' → (Grammar.ofDepth d).ReadsAlike i n (Grammar.ofDepth d')) ∧
    (i.Reaches (2 * n + 1) d d' → Follows i n 1 (Grammar.ofDepth d).statement
      (Grammar.ofDepth d').statement i.node) := by
  induction d generalizing d' n with
  | zero =>
    have hstop : ∀ {α β : Type} {x : Nat} (p : Grammar → Parser β) {f : α → β},
        i.Reaches x 0 d' → 0 < x → p (Grammar.ofDepth 0) = Parser.fail .nestingBound →
        Follows i n 1 (Parser.fail .nestingBound) (p (Grammar.ofDepth d')) f :=
      fun p f h hx hp => h.stops hx fun hd => hd ▸ hp
    cases n with
    | zero =>
      exact ⟨fun _ => makesAlike_empty, fun _ => readsAlike_empty,
        fun h => hstop Grammar.statement h (by omega) rfl⟩
    | succ n =>
      refine ⟨fun h s l hl _ => hstop Grammar.newExpression h (by omega) rfl s l hl, fun h => ?_,
        fun h => hstop Grammar.statement h (by omega) rfl⟩
      exact ⟨hstop Grammar.assignment h (by omega) rfl,
        fun least => hstop (fun g => g.binary least) h (by omega) rfl,
        hstop Grammar.unary h (by omega) rfl, hstop Grammar.leftHandSide h (by omega) rfl,
        hstop Grammar.bindingTarget h (by omega) rfl⟩
  | succ d ih =>
    cases d' with
    | zero =>
      -- nothing is left if the second depth is none
      have hnone : ∀ {x : Nat}, i.Reaches x (d + 1) 0 → x = 0 := fun h =>
        Nat.le_zero.mp (h.second.resolve_left (Nat.succ_ne_zero d))
      refine ⟨fun h => ?_, fun h => ?_, fun h => absurd (hnone h) (by omega)⟩
      · obtain rfl : n = 0 := by
          have := hnone h
          omega
        exact makesAlike_empty
      · obtain rfl : n = 0 := by
          have := hnone h
          omega
        exact readsAlike_empty
    | succ d' =>
      have hall : ∀ n, i.Reaches (2 * n + 1) d d' →
          (Grammar.ofDepth d).Follows i n (Grammar.ofDepth d') :=
        fun n h => ⟨(ih d' n).2.1 (h.mono (by omega)), (ih d' n).2.2 h,
          (ih d' n).1 (h.mono (by omega))⟩
      have hnew : ∀ n, i.Reaches (2 * n - 1) d d' →
          (Grammar.ofDepth d).MakesAlike i n (Grammar.ofDepth d') := fun n => (ih d' n).1
      refine ⟨fun h => ?_, fun h => ?_, fun h => ?_⟩
      · match n with
        | 0 => exact makesAlike_empty
        | 1 => exact fun s l hl hk => makesAlike_last hl hk
        | n + 2 =>
          exact fun s l hl hk => makesAlike_newExpressionRule (hall n (h.below (by omega)))
            (hnew (n + 1) (h.below (by omega))) hl hk
      · cases n with
        | zero => exact readsAlike_empty
        | succ n =>
          have hg := hall n (h.below (by omega))
          have hn := hnew (n + 1) (h.below (by omega))
          exact ⟨follows_assignmentRule hg hn, follows_binaryRule hg hn, follows_unaryRule hg hn,
            follows_leftHandSideRule hg hn, follows_bindingTargetRule hg⟩
      · cases n with
        | zero => exact follows_empty
        | succ n =>
          exact follows_statementRule (hall n (h.below (by omega)))
            ((ih d' (n + 1)).2.1 (h.below (by omega))).assignment

/-- The rules of two depths that reach from a statement on. -/
theorem follows_ofDepth (h : i.Reaches (2 * n + 1) d d') :
    (Grammar.ofDepth d).Follows i n (Grammar.ofDepth d') :=
  ⟨(follows_ofDepth_each i d d' n).2.1 (h.mono (by omega)), (follows_ofDepth_each i d d' n).2.2 h,
    (follows_ofDepth_each i d d' n).1 (h.mono (by omega))⟩

end

end EsModule.Syntax
