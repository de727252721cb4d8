import EsModule.Proofs.Printing.Clause
import EsModule.Proofs.Printing.Operation

/-!
# Printed statements are clauses

`Node.IsNesting` says which trees are statements made of operator expressions, blocks, choices,
loops and labels, nested in any way. In print the first statement of a choice with an `else` is put
in braces, so what is printed is not the tree itself but `Node.braced` of it. The text of each such
statement is a clause that stands for that tree (`Node.IsNesting.writes`).

No statement ends in a way that what follows could continue, so statements are written by pieces
whatever stands behind them. Between them there are only ends of lines and spaces.
-/

namespace EsModule.Syntax

open EsModule.Text Pieces

/-! ## The trees -/

/-- The trees of nested statements. -/
inductive Node.IsNesting : Node → Prop where
  | expression {id span e} (h : e.IsOperation) : IsNesting (.mk id span (.expressionStatement e))
  | empty {id span} : IsNesting (.mk id span .emptyStatement)
  | block {id span body} (h : ∀ n ∈ body, IsNesting n) :
      IsNesting (.mk id span (.blockStatement body))
  | ifThen {id span test consequent} (ht : test.IsOperation) (hc : IsNesting consequent) :
      IsNesting (.mk id span (.ifStatement test consequent none))
  | ifElse {id span test consequent alternate} (ht : test.IsOperation)
      (hc : IsNesting consequent) (ha : IsNesting alternate) :
      IsNesting (.mk id span (.ifStatement test consequent (some alternate)))
  | whileLoop {id span test body} (ht : test.IsOperation) (hb : IsNesting body) :
      IsNesting (.mk id span (.whileStatement test body))
  | doWhile {id span test body} (ht : test.IsOperation) (hb : IsNesting body) :
      IsNesting (.mk id span (.doWhileStatement body test))
  | forLoop {id span} {init test update : Option Node} {body}
      (hi : ∀ e ∈ init, e.IsOperation) (ht : ∀ e ∈ test, e.IsOperation)
      (hu : ∀ e ∈ update, e.IsOperation) (hb : IsNesting body) :
      IsNesting (.mk id span (.forStatement init test update body))
  | labeled {id span label body} (hl : IsOwnName label) (hb : IsNesting body) :
      IsNesting (.mk id span (.labeledStatement label body))

/-- A statement as a block: itself, or a block with the statement in it. -/
def Node.inBlock (n : Node) : Node :=
  if n.isBlock then n else .mk 0 ⟨0, 0⟩ (.blockStatement [n])

/-- With a block as the first statement if there is an `else`. -/
def Kind.braced : Kind Node → Kind Node
  | .ifStatement test consequent (some alternate) =>
    .ifStatement test consequent.inBlock (some alternate)
  | kind => kind

/-- The tree with the first statement of each choice that has an `else` in a block. -/
def Node.braced : Node → Node := Node.fold fun id span kind => .mk id span kind.braced

theorem Node.braced_mk (id : Nat) (span : Span) (kind : Kind Node) :
    (Node.mk id span kind).braced = .mk id span (kind.map Node.braced).braced := by
  rw [braced, fold, para_eq, Kind.map_map]
  rfl

theorem Node.isBlock_inBlock (n : Node) : n.inBlock.isBlock = true := by
  unfold inBlock
  split
  · assumption
  · rfl

theorem Node.isBlock_braced (n : Node) : n.braced.isBlock = n.isBlock := by
  obtain ⟨id, span, kind⟩ := n
  rw [braced_mk]
  cases kind with
  | ifStatement test consequent alternate => cases alternate <;> rfl
  | _ => rfl

/-- Operator expressions hold no statements. -/
theorem Node.IsOperation.braced {e : Node} (h : e.IsOperation) : e.braced = e := by
  have hlist : ∀ es : List Node, (∀ e ∈ es, e.braced = e) → es.map Node.braced = es := by
    intro es hes
    exact (List.map_congr_left hes).trans (List.map_id es)
  induction h with
  | name => exact Node.braced_mk ..
  | member _ _ ih | computed _ _ ih => simp only [Node.braced_mk, Kind.map, Kind.braced, *]
  | call _ _ ih iha => simp only [Node.braced_mk, Kind.map, Kind.braced, ih, hlist _ iha]
  | sequence _ _ ih => simp only [Node.braced_mk, Kind.map, Kind.braced, hlist _ ih]
  | unary | update | binary | conditional | assignment =>
    simp only [Node.braced_mk, Kind.map, Kind.braced, *]

/-- In front of an operator expression stands nothing that a statement could start with. -/
theorem Node.IsOperation.opening {e : Node} (h : e.IsOperation) : e.roles.opening = .plain := by
  have hkind : ∀ e : Node, e.roles.opening = (e.kind.map fun c => (c, c.roles)).opening := by
    intro e
    rw [Node.roles_eq]
    rfl
  induction h with
  | name | unary => exact hkind _
  | member _ _ ih | computed _ _ ih _ | call _ _ ih _ | binary _ _ ih _ | conditional _ _ _ ih _ _
  | assignment _ _ _ ih _ => exact (hkind _).trans ih
  | @update _ _ _ inFront _ _ _ ih =>
    cases inFront
    · exact (hkind _).trans ih
    · exact hkind _
  | @sequence _ _ expressions hlen _ ih =>
    cases expressions with
    | nil => cases hlen
    | cons e es => exact (hkind _).trans (ih e List.mem_cons_self)

/-- An operator expression declares nothing, so in the head of a loop it is printed as elsewhere. -/
theorem Node.IsOperation.loopHead {e : Node} (h : e.IsOperation) (l : Layout) :
    e.roles.loopHead l = e.roles.expression l Tightness.sequence := by
  rw [Node.roles_eq]
  cases h <;> rfl

theorem Node.IsNesting.not_isRemoved {n : Node} (h : n.IsNesting) : n.isRemoved = false := by
  cases h <;> rfl

/-! ## Writing -/

theorem chars_indentation (l : Layout) :
    (indentation l).chars = List.replicate (2 * l.indent) ' ' := by
  rw [indentation, chars_say, String.toList_ofList]

namespace Writes

variable {t u : List Char} {xs ys : List Lexeme} {B : List Char → Prop}

/-- An expression between parentheses, behind a word and a space. -/
theorem headed (word : Keyword) (h : Writes t xs NameEnds) :
    Writes (word.text.toList ++ ' ' :: '(' :: (t ++ [')'])) (.word word :: inParens xs) B := by
  have hparens : Writes (' ' :: '(' :: (t ++ [')'])) (inParens xs) B := h.parens.space
  exact (Writes.word word).append hparens fun r _ => nameEnds_space _

/-- Behind the body of a loop its test stands on the same line if the body is a block. -/
theorem gap {x : Lexeme} (h : Writes t (x :: xs) B) (l : Layout) (isBlock : Bool)
    (hx : x.joined = false) :
    Writes ((if isBlock then say " " else say "\n" ++ indentation l).chars ++ t) (x :: xs) B := by
  split
  · exact (chars_say " ").symm ▸ h.space
  · rw [chars_append, chars_indentation]
    exact (h.spaces _).newline hx

theorem of_eq (h : Writes t xs B) (ht : u = t) : Writes u xs B := ht ▸ h

/-- A semicolon behind an expression. -/
theorem ended (h : Writes t xs NameEnds) : Writes (t ++ [';']) (xs ++ [.mark .semicolon]) B := by
  have hmark : Writes [';'] [.mark .semicolon] Anything := closed rfl
  refine (h.append hmark fun r _ => ?_).mono fun _ _ => trivial
  exact nameEnds_cons (by decide) r

end Writes

/-! ## Statements in their places -/

/-- Where a bare `in` is no risk, the statement is printed as a clause for its braced tree, whatever
stands behind it. -/
def WritesClause (n : Node) : Prop :=
  ∀ l : Layout, l.noIn = false →
    ∃ xs, Clause xs n.braced ∧ Writes (n.roles.statement l).chars xs Anything

theorem chars_statement (id : Nat) (span : Span) (kind : Kind Node) (l : Layout) :
    ((Node.mk id span kind).roles.statement l).chars =
      (statementText (kind.map fun c => (c, c.roles))
        (fun l => (Node.mk id span kind).roles.expression l Tightness.sequence) l).chars := by
  rw [Node.roles_eq]
  exact (chars_append _ _).trans (by rw [chars_mark]; rfl)

theorem chars_nested (l : Layout) (n : Node) :
    (nested l (n, n.roles)).chars =
      if n.isBlock then ' ' :: (n.roles.statement l).chars
      else '\n' :: (List.replicate (2 * l.deeper.indent) ' ' ++
        (n.roles.statement l.deeper).chars) := by
  rw [nested]
  split <;> simp [chars_indentation]

/-- No statement is read as a part of the word in front of it. -/
theorem nameEnds_nested (l : Layout) (n : Node) (r : List Char) :
    NameEnds ((nested l (n, n.roles)).chars ++ r) := by
  rw [chars_nested]
  split
  · exact nameEnds_space _
  · exact nameEnds_cons (by decide) _

/-- A statement behind the head that it belongs to. -/
theorem WritesClause.nested {n : Node} (h : WritesClause n) {l : Layout} (hl : l.noIn = false) :
    ∃ xs, Clause xs n.braced ∧ Writes (nested l (n, n.roles)).chars xs Anything := by
  rw [chars_nested]
  split
  · obtain ⟨xs, hc, hw⟩ := h l hl
    obtain ⟨x, xs, rfl, -⟩ := hc.begins
    exact ⟨_, hc, hw.space⟩
  · obtain ⟨xs, hc, hw⟩ := h l.deeper hl
    obtain ⟨x, xs, rfl, -, hx⟩ := hc.begins
    exact ⟨_, hc, (hw.spaces _).newline hx⟩

/-- A list of statements may stand on a line of its own if what follows it may. -/
theorem joined_flatMap {items : List (List Lexeme × Node)} (hitems : ∀ p ∈ items, Clause p.1 p.2)
    {x : Lexeme} (hx : x.joined = false) (ys : List Lexeme) :
    ∃ y ys', items.flatMap (·.1) ++ x :: ys = y :: ys' ∧ y.joined = false := by
  cases items with
  | nil => exact ⟨x, ys, rfl, hx⟩
  | cons p items =>
    obtain ⟨y, ys', hp, -, hj⟩ := (hitems p List.mem_cons_self).begins
    exact ⟨y, ys' ++ items.flatMap (·.1) ++ x :: ys, by simp [hp], hj⟩

/-- Statements on lines of their own are written in front of what may stand on a line of its own. -/
theorem writes_lines {body : List Node} (hremoved : ∀ n ∈ body, n.isRemoved = false)
    (h : ∀ n ∈ body, WritesClause n) {l : Layout} (hl : l.noIn = false) :
    ∃ items : List (List Lexeme × Node), (∀ p ∈ items, Clause p.1 p.2) ∧
      items.map (·.2) = body.map Node.braced ∧
      ∀ {u : List Char} {x : Lexeme} {ys : List Lexeme} {B : List Char → Prop},
        x.joined = false → Writes u (x :: ys) B →
        Writes ((lines l (body.map fun c => (c, c.roles))).chars ++ u)
          (items.flatMap (·.1) ++ x :: ys) B := by
  induction body with
  | nil => exact ⟨[], List.forall_mem_nil _, rfl, fun _ hu => hu⟩
  | cons n body ih =>
    obtain ⟨xs, hc, hw⟩ := h n List.mem_cons_self l hl
    obtain ⟨items, hitems, hnodes, hrest⟩ := ih
      (fun m hm => hremoved m (List.mem_cons_of_mem _ hm))
      (fun m hm => h m (List.mem_cons_of_mem _ hm))
    refine ⟨(xs, n.braced) :: items, List.forall_mem_cons.mpr ⟨hc, hitems⟩,
      congrArg (n.braced :: ·) hnodes, fun {u x ys B} hx hu => ?_⟩
    have htext : (lines l ((n :: body).map fun c => (c, c.roles))).chars =
        List.replicate (2 * l.indent) ' ' ++ (n.roles.statement l).chars ++
          '\n' :: (lines l (body.map fun c => (c, c.roles))).chars := by
      simp [lines, hremoved n List.mem_cons_self, chars_indentation]
    rw [htext, List.append_assoc, List.append_assoc, List.flatMap_cons, List.append_assoc]
    obtain ⟨y, ys', hy, hj⟩ := joined_flatMap hitems hx ys
    have hbehind := hrest hx hu
    rw [hy] at hbehind ⊢
    obtain ⟨z, zs, rfl, -⟩ := hc.begins
    exact (hw.append (hbehind.newline hj) fun _ _ => trivial).spaces _

/-! ## Each form of statement -/

theorem chars_block_nil (l : Layout) : (block l []).chars = ['\x7b', '\x7d'] := by
  simp [block, emptyBraces, openBrace, closeBrace]

theorem chars_block_cons {n : Node} (hn : n.isRemoved = false) (body : List Node) (l : Layout) :
    (block l ((n :: body).map fun c => (c, c.roles))).chars = '\x7b' :: '\n' ::
      ((lines ⟨l.indent + 1, false⟩ ((n :: body).map fun c => (c, c.roles))).chars ++
        (List.replicate (2 * l.indent) ' ' ++ ['\x7d'])) := by
  simp [block, hn, openBrace, closeBrace, chars_indentation]

theorem writes_block {body : List Node} (hremoved : ∀ n ∈ body, n.isRemoved = false)
    (h : ∀ n ∈ body, WritesClause n) (l : Layout) :
    ∃ items : List (List Lexeme × Node), (∀ p ∈ items, Clause p.1 p.2) ∧
      items.map (·.2) = body.map Node.braced ∧
      Writes (block l (body.map fun c => (c, c.roles))).chars (inBraces (items.flatMap (·.1)))
        Anything := by
  have hopen : Writes ['\x7b'] [.mark .leftBrace] Anything := .closed rfl
  have hclose : Writes ['\x7d'] [.mark .rightBrace] Anything := .closed rfl
  cases body with
  | nil =>
    refine ⟨[], List.forall_mem_nil _, rfl, ?_⟩
    rw [List.map_nil, chars_block_nil]
    exact hopen.append hclose fun _ _ => trivial
  | cons n body =>
    obtain ⟨items, hitems, hnodes, hw⟩ := writes_lines hremoved h (l := ⟨l.indent + 1, false⟩) rfl
    refine ⟨items, hitems, hnodes, ?_⟩
    have hbody := hw rfl (hclose.spaces (2 * l.indent))
    rw [chars_block_cons (hremoved n List.mem_cons_self)]
    obtain ⟨y, ys, hy, hj⟩ := joined_flatMap hitems (x := .mark .rightBrace) rfl []
    rw [hy] at hbody
    rw [inBraces, hy]
    exact hopen.append (hbody.newline hj) fun _ _ => trivial

namespace WritesClause

variable {id : Nat} {span : Span}

theorem of_kind {kind : Kind Node} (h : ∀ (l : Layout) (asExpression : Layout → Pieces),
      l.noIn = false → ∃ xs, Clause xs (.mk id span (kind.map Node.braced).braced) ∧
        Writes (statementText (kind.map fun c => (c, c.roles)) asExpression l).chars xs Anything) :
    WritesClause (.mk id span kind) := by
  intro l hl
  rw [Node.braced_mk, chars_statement]
  exact h l _ hl

theorem expression {e : Node} (h : e.IsOperation) :
    WritesClause (.mk id span (.expressionStatement e)) := by
  refine of_kind fun l _ hl => ?_
  obtain ⟨k, xs, -, -, hp, hw⟩ := h.prints l Tightness.sequence (by decide)
  rw [hl] at hp
  have hguarded : guarded [.object, .objectPattern, .declaration] e.roles l Tightness.sequence =
      e.roles.expression l Tightness.sequence := by
    rw [guarded, h.opening]
    rfl
  refine ⟨xs ++ [Lexeme.mark .semicolon], .expression (h.braced.symm ▸ hp), ?_⟩
  simpa [Kind.map, statementText, hguarded] using hw.ended

theorem empty : WritesClause (.mk id span .emptyStatement) := by
  refine of_kind fun l _ _ => ⟨[.mark .semicolon], .empty, ?_⟩
  simp only [Kind.map, statementText, chars_say]
  exact .closed rfl

theorem block {body : List Node} (hremoved : ∀ n ∈ body, n.isRemoved = false)
    (h : ∀ n ∈ body, WritesClause n) : WritesClause (.mk id span (.blockStatement body)) := by
  refine of_kind fun l _ _ => ?_
  obtain ⟨items, hitems, hnodes, hw⟩ := writes_block hremoved h l
  simp only [Kind.map, Kind.braced, statementText, ← hnodes]
  exact ⟨_, .block hitems, hw⟩

/-- A statement between its head and an `else` is put in a block. -/
theorem beforeElse {n : Node} (hremoved : n.isRemoved = false) (h : WritesClause n) {l : Layout}
    (hl : l.noIn = false) :
    ∃ xs, Clause xs n.braced.inBlock ∧
      Writes (if n.isBlock then Syntax.nested l (n, n.roles)
        else say " " ++ Syntax.block l [(n, n.roles)]).chars xs Anything := by
  unfold Node.inBlock
  rw [Node.isBlock_braced]
  split
  · exact h.nested hl
  · have hremoved' : ∀ m ∈ [n], m.isRemoved = false := by simpa using hremoved
    obtain ⟨items, hitems, hnodes, hw⟩ := writes_block hremoved' (by simpa using h) l
    refine ⟨inBraces (items.flatMap (·.1)), ?_, ?_⟩
    · rw [show [n.braced] = items.map (·.2) from hnodes.symm]
      exact .block hitems
    · rw [chars_append]
      exact hw.space

theorem exists_phrase {e : Node} (h : e.IsOperation) {l : Layout} (hl : l.noIn = false) :
    ∃ k xs, Phrase k false xs e.braced ∧
      Writes (e.roles.expression l Tightness.sequence).chars xs NameEnds := by
  obtain ⟨k, xs, -, -, hp, hw⟩ := h.prints l Tightness.sequence (by decide)
  rw [hl] at hp
  exact ⟨k, xs, h.braced.symm ▸ hp, hw⟩

theorem ifThen {test consequent : Node} (ht : test.IsOperation) (hc : WritesClause consequent) :
    WritesClause (.mk id span (.ifStatement test consequent none)) := by
  refine of_kind fun l _ hl => ?_
  obtain ⟨k, xs, hp, hw⟩ := exists_phrase ht hl
  obtain ⟨ys, hc, hwc⟩ := hc.nested hl
  refine ⟨.word .kwIf :: (inParens xs ++ ys), .ifThen hp hc, ?_⟩
  have hhead : Writes _ (.word .kwIf :: inParens xs) Anything := hw.headed .kwIf
  simpa [Kind.map, statementText, ifText, Keyword.text] using hhead.append hwc fun _ _ => trivial

/-- The text of a statement behind an `else`, where a choice stands on the same line. -/
def elseText (l : Layout) (n : Node) : Pieces :=
  match n.kind with
  | .ifStatement .. => say " " ++ n.roles.statement l
  | _ => Syntax.nested l (n, n.roles)

theorem ifText_else (test consequent : Child) (n : Node) (l : Layout) :
    ifText test consequent (some (n, n.roles)) l =
      say "if (" ++ test.2.expression l Tightness.sequence ++ say ")" ++
        ((if consequent.1.isBlock then Syntax.nested l consequent
            else say " " ++ Syntax.block l [consequent]) ++ say " else" ++ elseText l n) :=
  rfl

theorem behindElse {n : Node} (h : WritesClause n) {l : Layout} (hl : l.noIn = false) :
    ∃ xs, Clause xs n.braced ∧
      Writes ("else".toList ++ (elseText l n).chars) (.word .kwElse :: xs) Anything := by
  have hword := Writes.word .kwElse
  unfold elseText
  split
  · obtain ⟨xs, hc, hw⟩ := h l hl
    obtain ⟨x, xs, rfl, -⟩ := hc.begins
    refine ⟨_, hc, hword.append ?_ fun r _ => ?_⟩
    · exact (chars_append _ _).symm ▸ hw.space
    · exact (chars_append _ _).symm ▸ nameEnds_space _
  · obtain ⟨xs, hc, hw⟩ := h.nested hl
    exact ⟨_, hc, hword.append hw fun r _ => nameEnds_nested l n r⟩

theorem ifElse {test consequent alternate : Node} (ht : test.IsOperation)
    (hremoved : consequent.isRemoved = false) (hc : WritesClause consequent)
    (ha : WritesClause alternate) :
    WritesClause (.mk id span (.ifStatement test consequent (some alternate))) := by
  refine of_kind fun l _ hl => ?_
  obtain ⟨k, xs, hp, hw⟩ := exists_phrase ht hl
  obtain ⟨ys, hc, hwc⟩ := hc.beforeElse hremoved hl
  obtain ⟨zs, ha, hwa⟩ := ha.behindElse hl
  refine ⟨.word .kwIf :: (inParens xs ++ (ys ++ .word .kwElse :: zs)),
    .ifElse hp hc consequent.braced.isBlock_inBlock ha, ?_⟩
  have hhead : Writes _ (.word .kwIf :: inParens xs) Anything := hw.headed .kwIf
  have hrest := hwc.append hwa.space fun _ _ => trivial
  simpa [Kind.map, statementText, ifText_else, Keyword.text] using
    hhead.append hrest fun _ _ => trivial

theorem whileLoop {test body : Node} (ht : test.IsOperation) (hb : WritesClause body) :
    WritesClause (.mk id span (.whileStatement test body)) := by
  refine of_kind fun l _ hl => ?_
  obtain ⟨k, xs, hp, hw⟩ := exists_phrase ht hl
  obtain ⟨ys, hc, hwc⟩ := hb.nested hl
  refine ⟨.word .kwWhile :: (inParens xs ++ ys), .whileLoop hp hc, ?_⟩
  have hhead : Writes _ (.word .kwWhile :: inParens xs) Anything := hw.headed .kwWhile
  simpa [Kind.map, statementText, Keyword.text] using hhead.append hwc fun _ _ => trivial

theorem doWhile {test body : Node} (ht : test.IsOperation) (hb : WritesClause body) :
    WritesClause (.mk id span (.doWhileStatement body test)) := by
  refine of_kind fun l _ hl => ?_
  obtain ⟨k, xs, hp, hw⟩ := exists_phrase ht hl
  obtain ⟨ys, hc, hwc⟩ := hb.nested hl
  refine ⟨.word .kwDo :: (ys ++ Lexeme.word .kwWhile :: (inParens xs ++ [Lexeme.mark .semicolon])),
    .doWhile hp hc, ?_⟩
  have hhead : Writes _ (.word .kwWhile :: inParens xs) Anything := hw.headed .kwWhile
  have hmark : Writes [';'] [.mark .semicolon] Anything := .closed rfl
  have hend := hhead.append hmark fun _ _ => trivial
  have hdo := (Writes.word .kwDo).append hwc fun r _ => nameEnds_nested l body r
  have hgap := hend.gap l body.isBlock rfl
  simpa [Kind.map, statementText, Keyword.text] using hdo.append hgap fun _ _ => trivial

theorem labeled {label : String} {body : Node} (h : IsOwnName label) (hb : WritesClause body) :
    WritesClause (.mk id span (.labeledStatement label body)) := by
  refine of_kind fun l _ hl => ?_
  obtain ⟨ys, hc, hwc⟩ := hb.nested hl
  refine ⟨.name label :: .mark .colon :: ys, .labeled hc, ?_⟩
  have hcolon : Writes [':'] [.mark .colon] Anything := .closed rfl
  have hlabel := (Writes.name h).append hcolon fun r _ => nameEnds_cons (by decide) r
  simpa [Kind.map, statementText] using hlabel.append hwc fun _ _ => trivial

/-- The part of a loop's head in front of a mark is written, if the expression in it is. -/
theorem part {e : Option Node} (h : ∀ n, e = some n → n.IsOperation) {noIn : Bool}
    {text : Node → List Char} (mark : Punctuator) (hmark : mark.isClosed = true)
    (hname : ∀ r, NameEnds (mark.text.toList ++ r))
    (hwrites : ∀ n, e = some n → ∃ k xs, Phrase k noIn xs n ∧ Writes (text n) xs NameEnds) :
    ∃ part : Option Part, (∀ p ∈ part, Phrase p.level noIn p.lexemes p.node) ∧
      part.map (·.node) = e.map Node.braced ∧
      Writes ((e.map text).getD [] ++ mark.text.toList) (Part.optional part ++ [.mark mark])
        Anything := by
  have hclosed : Writes mark.text.toList [.mark mark] Anything := .closed hmark
  cases e with
  | none => exact ⟨none, nofun, rfl, hclosed⟩
  | some e =>
    obtain ⟨k, xs, hp, hw⟩ := hwrites e rfl
    refine ⟨some ⟨k, xs, e⟩, ?_, ?_, hw.append hclosed fun r _ => hname r⟩
    · rintro p hp'
      obtain rfl := Option.some.inj hp'
      exact hp
    · exact congrArg some (h e rfl).braced.symm

/-- A part of the head of a loop behind a semicolon. -/
theorem laterPart {e : Option Node} (h : ∀ n, e = some n → n.IsOperation) {l : Layout}
    (hl : l.noIn = false) (mark : Punctuator) (hmark : mark.isClosed = true)
    (hname : ∀ r, NameEnds (mark.text.toList ++ r)) :
    ∃ part : Option Part, (∀ p ∈ part, Phrase p.level false p.lexemes p.node) ∧
      part.map (·.node) = e.map Node.braced ∧
      Writes ((forPartText (e.map fun c => (c, c.roles)) l).chars ++ mark.text.toList)
        (Part.optional part ++ [.mark mark]) Anything := by
  obtain ⟨part, hp, hnode, hw⟩ := WritesClause.part h mark hmark hname (fun e he => by
    obtain ⟨k, xs, -, -, hp, hw⟩ := (h e he).prints l Tightness.sequence (by decide)
    obtain ⟨x, xs, rfl, -⟩ := hp.starts.opens
    exact ⟨k, _, hl ▸ hp, hw.space⟩)
  refine ⟨part, hp, hnode, hw.of_eq ?_⟩
  cases e <;> simp [forPartText]

/-- The first part of the head of a loop, in which a bare `in` is a risk. -/
theorem firstPart {e : Option Node} (h : ∀ n, e = some n → n.IsOperation) (l : Layout) :
    ∃ part : Option Part, (∀ p ∈ part, Phrase p.level true p.lexemes p.node) ∧
      part.map (·.node) = e.map Node.braced ∧
      Writes ((match e with
        | some n => n.roles.loopHead { l with noIn := true }
        | none => []).chars ++ [';']) (Part.optional part ++ [.mark .semicolon]) Anything := by
  obtain ⟨part, hp, hnode, hw⟩ := WritesClause.part h .semicolon rfl
    (fun r => nameEnds_cons (by decide) r) (fun e he => by
      obtain ⟨k, xs, -, -, hp, hw⟩ :=
        (h e he).prints { l with noIn := true } Tightness.sequence (by decide)
      exact ⟨k, _, hp, hw⟩)
  refine ⟨part, hp, hnode, hw.of_eq ?_⟩
  cases e with
  | none => rfl
  | some e =>
    have hhead := (h e rfl).loopHead { l with noIn := true }
    simp [hhead]
    rfl

theorem forLoop {init test update : Option Node} {body : Node}
    (hi : ∀ n, init = some n → n.IsOperation) (ht : ∀ n, test = some n → n.IsOperation)
    (hu : ∀ n, update = some n → n.IsOperation) (hb : WritesClause body) :
    WritesClause (.mk id span (.forStatement init test update body)) := by
  refine of_kind fun l _ hl => ?_
  obtain ⟨i, hpi, hni, hwi⟩ := firstPart hi l
  obtain ⟨t, hpt, hnt, hwt⟩ := laterPart ht hl .semicolon rfl
    fun r => nameEnds_cons (by decide) r
  obtain ⟨u, hpu, hnu, hwu⟩ := laterPart hu hl .rightParen rfl
    fun r => nameEnds_cons (by decide) r
  obtain ⟨ys, hc, hwc⟩ := hb.nested hl
  refine ⟨.word .kwFor :: .mark .leftParen :: (Part.optional i ++ .mark .semicolon ::
    (Part.optional t ++ .mark .semicolon :: (Part.optional u ++ .mark .rightParen :: ys))), ?_, ?_⟩
  · simp only [Kind.map, Kind.braced, ← hni, ← hnt, ← hnu]
    exact .forLoop hpi hpt hpu hc
  · have hfor : Writes (Keyword.kwFor.text.toList ++ [' ', '('])
        [.word .kwFor, .mark .leftParen] Anything := by
      have hparen : Writes ['('] [.mark .leftParen] Anything := .closed rfl
      exact (Writes.word .kwFor).append hparen.space fun r _ => nameEnds_space _
    have hhead := hfor.append (hwi.append (hwt.append (hwu.append hwc fun _ _ => trivial)
      fun _ _ => trivial) fun _ _ => trivial) fun _ _ => trivial
    rw [show .word .kwFor :: .mark .leftParen :: (Part.optional i ++ .mark .semicolon ::
      (Part.optional t ++ .mark .semicolon :: (Part.optional u ++ .mark .rightParen :: ys))) =
      [Lexeme.word .kwFor, .mark .leftParen] ++ (Part.optional i ++ [.mark .semicolon] ++
        (Part.optional t ++ [.mark .semicolon] ++ (Part.optional u ++ [.mark .rightParen] ++ ys)))
      by simp]
    refine hhead.of_eq ?_
    simp [Kind.map, statementText, Keyword.text]
    cases init <;> rfl

end WritesClause

/-- **A nested statement is printed as a clause for its braced tree.** -/
theorem Node.IsNesting.writes {n : Node} (h : n.IsNesting) : WritesClause n := by
  induction h with
  | expression h => exact .expression h
  | empty => exact .empty
  | block h ih => exact .block (fun n hn => (h n hn).not_isRemoved) ih
  | ifThen ht _ ih => exact .ifThen ht ih
  | ifElse ht hc _ ihc iha => exact .ifElse ht hc.not_isRemoved ihc iha
  | whileLoop ht _ ih => exact .whileLoop ht ih
  | doWhile ht _ ih => exact .doWhile ht ih
  | forLoop hi ht hu _ ih => exact .forLoop hi ht hu ih
  | labeled hl _ ih => exact .labeled hl ih

end EsModule.Syntax
