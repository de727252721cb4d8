import EsModule.Proofs.Layout.Tree
import EsModule.Proofs.Pairing.Item

/-!
# Reading comes to an end

Rules call each other down to a depth, and repetitions have so many rounds. For every source both
bounds are never reached (`ReadingEnds.bounded`), and greater ones give nothing else
(`ReadingEnds.settled`).

The cause is that the reader moves on. Each round of a repetition makes the token to look at start
further behind (`ReadingEnds.rounds`). And a rule calls others only where the token starts further
behind, or where it starts itself if they have a lower rank, so on each way from a rule back to
itself the token moves on. That is said without a look into the rules: rules over two grammars do
the same in a state if the grammars agree in all states where the rules may be called
(`ReadingEnds.calls`).

All of it is read off from a run beside itself (`Pairing.beside`).
-/

namespace EsModule.Syntax

open EsModule.Text

/-! ## The states of a reader -/

/-- The states that a reader gets to in a source. -/
inductive State.Reached (source : List Char) : State → Prop where
  /-- It starts in front of the first token. -/
  | start : Reached source (State.start source)
  /-- It moves over a token that is some text. -/
  | next {s : State} (h : Reached source s) (hk : s.current.kind.isText = true) :
      Reached source s.next
  /-- It makes a node. -/
  | counted {s : State} (h : Reached source s) : Reached source s.counted
  /-- It reads a mark again, as the start of a longer token. -/
  | rescanned {s : State} {f : Cursor → TokenKind × Cursor} {rule : Nat → Cursor → Token × Cursor}
      {mark : Punctuator} (h : Reached source s) (hr : Rescans f rule)
      (hk : s.current.kind = .punctuator mark) : Reached source (s.rescanned rule)

namespace State.Reached

variable {source : List Char} {s : State}

theorem placed (h : s.Reached source) : s.Placed source := by
  induction h with
  | start => exact State.placed_start source
  | next _ _ ih => exact ih.next
  | counted _ ih => exact ih.counted
  | rescanned _ hr hk ih => exact ih.readAgain hr hk

theorem text (h : s.Reached source) (hk : s.current.kind.isText = true) :
    s.current.span.start < s.current.span.stop := by
  induction h with
  | start => exact nextToken_lt hk
  | next => exact nextToken_lt hk
  | counted _ ih => exact ih hk
  | rescanned h hr hmark => exact h.placed.readAgain_lt hr hmark

end State.Reached

/-! ## A run beside itself -/

/-- Nothing is changed. -/
def Transfer.same : Transfer := ⟨id, id, id, id, id⟩

@[simp] theorem Transfer.node_same : same.node = id := by
  funext n
  induction n using Node.induct with
  | h n ih =>
    obtain ⟨id, span, kind⟩ := n
    have hkind : kind.map same.node = kind := (Kind.map_congr ih).trans (Kind.map_id' kind)
    rw [node_mk, hkind]
    rfl

@[simp] theorem Transfer.operand_same : same.operand = id := by
  funext o
  obtain ⟨n, items⟩ := o
  simp [operand]

/-- A run in a source beside another one in the same source. -/
def Pairing.beside (source : List Char) (deep : Prop) : Pairing where
  toTransfer := .same
  deep := deep
  exact := True
  source := source
  Tracked := State.Reached source
  Clear := fun _ => True
  placed := State.Reached.placed
  text := State.Reached.text
  counted := .counted
  of_counted := fun _ _ => ⟨trivial, rfl⟩
  next := .next
  of_next := fun _ _ _ => ⟨trivial, rfl⟩
  rescanned := fun h hr hk => .rescanned h hr.rescans hk
  of_rescanned := fun _ _ _ _ => ⟨trivial, rfl⟩
  ahead := fun _ _ _ => rfl
  beyond := fun _ _ _ _ => rfl
  textOf := fun _ _ => rfl
  span_start := fun _ => rfl
  span_max := fun _ _ => rfl
  span_through := fun _ _ => rfl
  same := fun _ _ _ => ⟨trivial, rfl⟩

/-- Two rules do the same in a state, where repetitions may have rounds enough. -/
def Agree {α : Type} (s : State) (p p' : Parser α) : Prop :=
  ∀ c : Context, s.left < c.bound → p c s = p' c s

section

variable {source : List Char} {deep : Prop} {s : State} {α : Type} {p p' : Parser α} {l n : Nat}
  {m : α → Nat} {f : α → α}

/-- The second run does what the first one does, whatever its bound is. -/
theorem Echoes.same (h : Echoes (.beside source deep) l m s p p' f) (hf : f = id)
    (hs : s.Reached source) (hl : s.left < l) {c c' : Context} (hc : c.Suits s c') :
    p c s = p' c' s := by
  obtain ⟨hok, herror⟩ := h hl hs c c' hc
  cases hp : p c s with
  | ok r =>
    have hrun := ((hok r.1 r.2 hp).2.2.2 trivial).2
    rw [hf] at hrun
    exact hrun.symm
  | error e => exact ((herror e hp).2.1 trivial).symm

/-- What goes along with a rule still does so if another rule does the same. -/
theorem Echoes.of_agree (h : Echoes (.beside source deep) l m s p p f)
    (hp : s.Reached source → s.left < l → Agree s p p') :
    Echoes (.beside source deep) l m s p p' f := by
  intro hl hs c c' hc
  have hsame : p c' s = p' c' s := hp hs hl c' hc.bound'
  obtain ⟨hok, herror⟩ := h hl hs c c' hc
  exact ⟨fun a s' hrun => hsame ▸ hok a s' hrun, fun e he => hsame ▸ herror e he⟩

end

/-! ## Repetitions -/

namespace Grammar

/-- The items of the lists that rules read. -/
inductive IsItem (g : Grammar) : {α : Type} → Parser (List α × Bool) → Prop where
  | element : IsItem g g.elementItem
  | property : IsItem g g.propertyItem
  | statement : IsItem g (plainItem g.statement)
  | parameter : IsItem g g.parameterItem
  | classMember : IsItem g g.classItem
  | array : IsItem g g.arrayItem
  | object : IsItem g g.objectItem
  | parenthesized : IsItem g g.parenthesizedItem
  | argument : IsItem g (entryItem g.spreadOrAssignment)
  | switchCase : IsItem g (plainItem g.switchCase)
  | importSpecifier : IsItem g (entryItem importSpecifier)
  | exportSpecifier : IsItem g (entryItem exportSpecifier)
  | moduleItem : IsItem g (plainItem g.moduleItem)

/-- The rounds of all repetitions. -/
inductive IsRound (g : Grammar) : {α β : Type} → (α → Parser (Round α β)) → Prop where
  | item : IsRound g g.itemRound
  | template : IsRound g g.templateRound
  | member (start : Nat) (startsAsync : Bool) : IsRound g (g.memberRound start startsAsync)
  | callee (start : Nat) : IsRound g (g.calleeRound start)
  | operator (least start : Nat) : IsRound g (g.operatorRound least start)
  | declarator : IsRound g g.declaratorRound
  | list {α : Type} (ends : TokenKind → Bool) {item : Parser (List α × Bool)}
      (h : IsItem g item) : IsRound g (listRound ends item)

variable {i : Pairing} {n : Nat} {g g' : Grammar}

theorem IsItem.follows (hg : g.Follows i n g) {α : Type} {item : Parser (List α × Bool)}
    (h : g.IsItem item) :
    ∃ f : α → α, Syntax.Follows i n 1 item item (Prod.map (List.map f) id) := by
  cases h with
  | element => exact ⟨_, follows_elementItem hg⟩
  | property => exact ⟨_, follows_propertyItem hg⟩
  | statement => exact ⟨_, follows_plainItem hg.statement⟩
  | parameter => exact ⟨_, follows_parameterItem hg⟩
  | classMember => exact ⟨_, follows_classItem hg⟩
  | array => exact ⟨_, follows_arrayItem hg⟩
  | object => exact ⟨_, follows_objectItem hg⟩
  | parenthesized => exact ⟨_, follows_parenthesizedItem hg⟩
  | argument => exact ⟨_, follows_entryItem (follows_spreadOrAssignment hg)⟩
  | switchCase => exact ⟨_, follows_plainItem ((follows_switchCase hg).mono (Nat.le_succ n))⟩
  | importSpecifier => exact ⟨_, follows_entryItem follows_importSpecifier⟩
  | exportSpecifier => exact ⟨_, follows_entryItem follows_exportSpecifier⟩
  | moduleItem => exact ⟨_, follows_plainItem (follows_moduleItem hg)⟩

/-- A round goes along with one of the second run, and moves over a token if it goes on. -/
theorem IsRound.echoes (hg : g.Follows i n g) {α β : Type} {step : α → Parser (Round α β)}
    (h : g.IsRound step) : ∃ (k : Nat) (f : α → α) (f' : β → β) (step' : α → Parser (Round α β)),
      ∀ a s l, l ≤ n →
        Echoes i l (Round.level k l) s (step a) (step' (f a)) (Round.map f f') := by
  cases h with
  | item => exact ⟨0, _, _, _, fun items _ _ _ => echoes_itemRound hg.assignment items (by omega)⟩
  | template => exact ⟨1, _, _, _, fun r _ _ _ => echoes_templateRound hg r (by omega)⟩
  | member start startsAsync =>
    exact ⟨0, _, _, _, fun operand _ _ _ =>
      echoes_memberRound hg start startsAsync operand (by omega)⟩
  | callee start => exact ⟨0, _, _, _, fun callee _ _ _ =>
    echoes_calleeRound hg start callee (by omega)⟩
  | operator least start =>
    exact ⟨0, _, _, _, fun left _ _ _ => echoes_operatorRound hg least start left (by omega)⟩
  | declarator => exact ⟨0, _, _, _, fun ds _ _ _ => echoes_declaratorRound hg ds (by omega)⟩
  | list ends h =>
    obtain ⟨f, hf⟩ := h.follows hg
    exact ⟨0, _, _, _, fun items _ _ hl => .listRound (hf.mono hl) items⟩

end Grammar

section

variable {source : List Char} {s s' : State}

theorem reaches_beside {deep : Prop} (x d : Nat) (h : deep → x ≤ d) :
    (Pairing.beside source deep).Reaches x d d := ⟨.inl rfl, fun _ => .inl rfl, h⟩

/-- At any depth the rules go along with themselves. -/
theorem follows_beside (source : List Char) (n d : Nat) :
    (Grammar.ofDepth d).Follows (.beside source False) n (Grammar.ofDepth d) :=
  follows_ofDepth (reaches_beside _ _ nofun)

theorem Grammar.IsRound.moves {d : Nat} {α β : Type} {step : α → Parser (Round α β)}
    (h : (Grammar.ofDepth d).IsRound step) (hs : s.Reached source) {c : Context}
    (hc : s.left < c.bound) {a a' : α} (hrun : step a c s = .ok (.again a', s')) :
    s'.Reached source ∧ s.current.span.start < s'.current.span.start := by
  obtain ⟨k, f, f', step', hechoes⟩ := h.echoes (follows_beside source (s.left + 1) d)
  obtain ⟨hs', -, hleft, -⟩ := (hechoes a s _ (Nat.le_refl _) (Nat.lt_succ_self _) hs c c
    ⟨rfl, rfl, hc, hc⟩).1 _ _ hrun
  exact ⟨hs', (State.Placed.start_lt_iff (State.Reached.placed hs) (State.Reached.placed hs')).mpr
    hleft⟩

end

/-! ## Calls -/

namespace Grammar

/-- The rules of the depth above. -/
def above (g : Grammar) : Grammar where
  statement := g.statementRule
  assignment := g.assignmentRule
  binary := g.binaryRule
  unary := g.unaryRule
  leftHandSide := g.leftHandSideRule
  newExpression := g.newExpressionRule
  bindingTarget := g.bindingTargetRule

/-- The rules of two grammars whose rank is below `rank` do the same in a state. The rule for what
is made by `new` has the rank zero, and is only asked for where that word stands. Those for
expressions and targets have the rank one, and the one for statements two. -/
structure AgreesAt (g g' : Grammar) (rank : Nat) (s : State) : Prop where
  newExpression : 0 < rank → s.current.kind = .keyword .kwNew →
    Agree s g.newExpression g'.newExpression
  assignment : 1 < rank → Agree s g.assignment g'.assignment
  binary : 1 < rank → ∀ least, Agree s (g.binary least) (g'.binary least)
  unary : 1 < rank → Agree s g.unary g'.unary
  leftHandSide : 1 < rank → Agree s g.leftHandSide g'.leftHandSide
  bindingTarget : 1 < rank → Agree s g.bindingTarget g'.bindingTarget
  statement : 2 < rank → Agree s g.statement g'.statement

variable {source : List Char} {d n : Nat} {g' : Grammar} {s : State}

/-- Grammars that agree where less than `n` characters are left go along with each other there. -/
theorem follows_of_agreesAt
    (h : ∀ s, s.Reached source → s.left < n → (ofDepth d).AgreesAt g' 3 s) :
    (ofDepth d).Follows (.beside source False) n g' := by
  have hg := follows_beside source n d
  have hat : ∀ {s : State} {l : Nat}, l ≤ n → s.Reached source → s.left < l →
      (ofDepth d).AgreesAt g' 3 s := fun hl hs hlt => h _ hs (Nat.lt_of_lt_of_le hlt hl)
  exact {
    assignment := fun s l hl => (hg.assignment s l hl).of_agree
      fun hs hlt => (hat hl hs hlt).assignment (by decide)
    binary := fun least s l hl => (hg.binary least s l hl).of_agree
      fun hs hlt => (hat hl hs hlt).binary (by decide) least
    unary := fun s l hl => (hg.unary s l hl).of_agree
      fun hs hlt => (hat hl hs hlt).unary (by decide)
    leftHandSide := fun s l hl => (hg.leftHandSide s l hl).of_agree
      fun hs hlt => (hat hl hs hlt).leftHandSide (by decide)
    bindingTarget := fun s l hl => (hg.bindingTarget s l hl).of_agree
      fun hs hlt => (hat hl hs hlt).bindingTarget (by decide)
    statement := fun s l hl => (hg.statement s l hl).of_agree
      fun hs hlt => (hat hl hs hlt).statement (by decide)
    newExpression := fun s l hl hk => (hg.newExpression s l hl hk).of_agree
      fun hs hlt => (hat hl hs hlt).newExpression (by decide) hk }

/-- The rules of the depth above do the same in a state if the rules below do so where the token
starts further behind, and those of a lower rank where it starts itself. -/
theorem above_agreesAt {rank : Nat} (hs : s.Reached source)
    (hlater : ∀ s' : State, s'.Reached source → s.current.span.start < s'.current.span.start →
      (ofDepth d).AgreesAt g' 3 s')
    (hhere : ∀ s' : State, s'.Reached source → s'.current.span.start = s.current.span.start →
      (ofDepth d).AgreesAt g' rank s') :
    (ofDepth d).above.AgreesAt g'.above (rank + 1) s := by
  have hbehind : ∀ s' : State, s'.Reached source → s'.left < s.left →
      (ofDepth d).AgreesAt g' 3 s' := fun s' hs' hlt =>
    hlater s' hs' ((State.Placed.start_lt_iff hs.placed hs'.placed).mpr hlt)
  -- where the token does not start further behind, it starts at the same offset
  have hat : ∀ s' : State, s'.Reached source → s'.left < s.left + 1 → s'.left < s.left ∨
      (ofDepth d).AgreesAt g' rank s' := by
    intro s' hs' hlt
    refine (Nat.lt_or_eq_of_le (Nat.le_of_lt_succ hlt)).imp_right fun heq => hhere s' hs' ?_
    have h1 := State.Placed.start_lt_iff hs.placed hs'.placed
    have h2 := State.Placed.start_lt_iff hs'.placed hs.placed
    omega
  have hg := follows_of_agreesAt hbehind
  have hself := follows_beside source (s.left + 1) d
  -- only these two are called where a rule starts, each by rules of a higher rank
  have hnew : 0 < rank → (ofDepth d).MakesAlike (.beside source False) (s.left + 1) g' := by
    intro hrank s' l hl hk
    refine (hself.newExpression s' l hl hk).of_agree fun hs' hlt => ?_
    rcases hat s' hs' (by omega) with hlt | h
    · exact (hbehind s' hs' hlt).newExpression (by decide) hk
    · exact h.newExpression hrank hk
  have hassignment : 1 < rank → Syntax.Follows (.beside source False) (s.left + 1) 1
      (ofDepth d).assignment g'.assignment (Pairing.beside source False).node := by
    intro hrank s' l hl
    refine (hself.assignment s' l hl).of_agree fun hs' hlt => ?_
    rcases hat s' hs' (by omega) with hlt | h
    · exact (hbehind s' hs' hlt).assignment (by decide)
    · exact h.assignment hrank
  have hnode : (Pairing.beside source False).node = id := Transfer.node_same
  have hoperand : (Pairing.beside source False).operand = id := Transfer.operand_same
  have hrun : ∀ {α : Type} {p p' : Parser α} {f : α → α}, f = id →
      Syntax.Follows (.beside source False) (s.left + 1) 1 p p' f → Agree s p p' :=
    fun hf h c hc => (h.echoes s).same hf hs (Nat.lt_succ_self _) ⟨rfl, rfl, hc, hc⟩
  have hmake : s.current.kind = .keyword .kwNew →
      Echoes (.beside source False) (s.left + 1) (fun _ => s.left) s (ofDepth d).newExpressionRule
        g'.newExpressionRule (Pairing.beside source False).node := by
    intro hk
    -- behind the word a callee is read, or the source has ended
    cases hn : s.left with
    | zero => exact makesAlike_last (Nat.le_refl 1) hk
    | succ n =>
      rw [hn] at hg
      exact makesAlike_newExpressionRule (hg.mono (Nat.le_succ n)) hg.newExpression
        (Nat.le_refl _) hk
  exact {
    newExpression := fun _ hk c hc => (hmake hk).same hnode hs (Nat.lt_succ_self _)
      ⟨rfl, rfl, hc, hc⟩
    assignment := fun hrank => hrun hnode (follows_assignmentRule hg (hnew (by omega)))
    binary := fun hrank least => hrun hoperand (follows_binaryRule hg (hnew (by omega)) least)
    unary := fun hrank => hrun hoperand (follows_unaryRule hg (hnew (by omega)))
    leftHandSide := fun hrank => hrun hoperand (follows_leftHandSideRule hg (hnew (by omega)))
    bindingTarget := fun hrank => hrun hnode (follows_bindingTargetRule hg)
    statement := fun hrank => hrun hnode (follows_statementRule hg (hassignment (by omega))) }

end Grammar

/-! ## The end -/

/-- What it means that reading a source comes to an end. -/
structure ParsingEnds (source : String) : Prop where
  /-- There is a tree or a syntax error. It is never the one for rules that call each other too deep
  or repetitions with too many rounds. -/
  result : ∀ file, (∃ root, parseModule source file = .ok root) ∨
    ∃ failure : Failure, failure.fault ≠ .nestingBound ∧ parseModule source file =
      .error (.atOffset source.toList failure.offset file failure.fault.message)
  /-- Greater bounds give nothing else. -/
  settled : ∀ {depth bound : Nat}, depthBound source.toList ≤ depth →
    source.toList.length + 2 ≤ bound →
    (Grammar.ofDepth depth).moduleBody ⟨true, false, bound⟩ (State.start source.toList) =
      readModule source.toList
  /-- A round of a repetition fails, or is the last one, or moves on. -/
  rounds : ∀ {depth : Nat} {α β : Type} {step : α → Parser (Round α β)} {a a' : α} {c : Context}
    {s s' : State}, (Grammar.ofDepth depth).IsRound step → s.Reached source.toList →
    s.left < c.bound → step a c s = .ok (.again a', s') →
    s'.Reached source.toList ∧ s.current.span.start < s'.current.span.start
  /-- A rule calls others only where the token starts further behind, and, where it starts itself,
  only those of a lower rank. -/
  calls : ∀ {depth rank : Nat} {g' : Grammar} {s : State}, s.Reached source.toList →
    (∀ s' : State, s'.Reached source.toList → s.current.span.start < s'.current.span.start →
      (Grammar.ofDepth depth).AgreesAt g' 3 s') →
    (∀ s' : State, s'.Reached source.toList → s'.current.span.start = s.current.span.start →
      (Grammar.ofDepth depth).AgreesAt g' rank s') →
    (Grammar.ofDepth depth).above.AgreesAt g'.above (rank + 1) s

/-- A module is read alike with greater bounds, and never fails because of them. -/
theorem echoes_moduleBody (source : List Char) {depth bound : Nat}
    (hdepth : depthBound source ≤ depth) (hbound : source.length + 2 ≤ bound) :
    (Grammar.ofDepth depth).moduleBody ⟨true, false, bound⟩ (State.start source) =
        readModule source ∧
      ∀ e, readModule source = .error e → e.fault ≠ .nestingBound := by
  have hreaches : (Pairing.beside source True).Reaches (2 * (source.length + 1) + 1)
      (depthBound source) depth := by
    refine ⟨.inr ?_, fun _ => .inr ?_, fun _ => ?_⟩ <;>
      · unfold depthBound at *
        omega
  have hplaced := State.placed_start source
  have hlt : (State.start source).left < source.length + 1 := Nat.lt_succ_of_le hplaced.left_le
  have hsuits : Context.Suits (State.start source) ⟨true, false, source.length + 2⟩
      ⟨true, false, bound⟩ := hplaced.suits (by omega) (by omega)
  have hechoes := (follows_moduleBody (follows_ofDepth hreaches)).echoes (State.start source)
  have hnodes : List.map (Pairing.beside source True).node = id :=
    (congrArg List.map Transfer.node_same).trans (funext List.map_id)
  refine ⟨(hechoes.same hnodes .start hlt hsuits).symm, fun e he => ?_⟩
  exact ((hechoes hlt .start _ _ hsuits).2 e he).1 trivial

/-- **Reading comes to an end for every source.** -/
theorem parsing_ends (source : String) : ParsingEnds source where
  result := by
    intro file
    rw [parseModule, parseTree, parseItems_eq]
    have hbounded := (echoes_moduleBody source.toList (Nat.le_refl _) (Nat.le_refl _)).2
    cases hread : readModule source.toList with
    | ok r => exact .inl ⟨_, rfl⟩
    | error e => exact .inr ⟨e, hbounded e hread, rfl⟩
  settled := fun hdepth hbound => (echoes_moduleBody _ hdepth hbound).1
  rounds := fun h hs hc hrun => h.moves hs hc hrun
  calls := fun hs hlater hhere => Grammar.above_agreesAt hs hlater hhere

end EsModule.Syntax
