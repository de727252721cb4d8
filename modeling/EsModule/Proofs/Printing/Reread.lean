import EsModule.Proofs.Printing.Statement
import EsModule.Proofs.Spacing.Parse

/-!
# Printed modules are read back

What is printed for a module of nested statements is read as the same tree, but for numbers and
spans, once the first statement of each choice with an `else` stands in a block
(`Node.rereadAs_braced`). For an operator expression nothing at all changes, as a statement of its
own and in the head of a loop, where an `in` could be misread (`Node.IsOperation.rereadAs_self`).

The trees need not be ones that any source is read as. The reader has room for what is printed,
since it reads no more tokens than there are characters.
-/

namespace EsModule.Syntax

open EsModule.Text Pieces

/-! ## Modules of nested statements -/

/-- The items of a module that are nested statements are read up to the end of the source. -/
theorem gives_moduleBody {items : List (List Lexeme × Node)} (hitems : ∀ p ∈ items, Clause p.1 p.2)
    {d : Nat} {c : Context} {s : State} (hroom : Room d c false (items.flatMap (·.1)))
    (hs : s.Faces (items.flatMap (·.1) ++ [.of .eof])) :
    Gives (Grammar.ofDepth (d + 1)).moduleBody c s fun ns _ =>
      ns.map Node.shape = (items.map (·.2)).map Node.shape := by
  have hbegins : ∀ p ∈ items, Begins p.1 := fun p hp => (hitems p hp).begins
  refine .mono (gives_statements (x := .of .eof) rfl nofun ?_ hbegins ?_ hroom.bound hs) ?_
  · intro kind hk
    exact decide_eq_false (TokenKind.ne_of_begins hk rfl)
  · intro p hp s rest hs hbehind
    have hroomp := hroom.shorter ((length_flatMap_of_begins hbegins).1 p hp)
    have hkind : s.current.kind.begins = true := by
      obtain ⟨x, xs, hx, hb, -⟩ := hbegins p hp
      rw [hx] at hs
      exact hs.kind ▸ hb
    have hread := (hitems p hp).reads.gives hroomp hs hbehind
    refine .step (P := Stands p.2 rest) (.bind (.current ?_)) fun n s' hn => .pure ⟨n, rfl, hn⟩
    split
    case h_3 => exact hread
    all_goals
      rename_i hk
      rw [hk] at hkind
      cases hkind
  · exact fun ns _ h => h.1

/-- No source that starts with a token of the grammar starts with `#!`. -/
theorem firstCursor_of_reads {source : List Char} {x : Lexeme} {xs : List Lexeme} {c : Cursor}
    (h : Reads ⟨0, source⟩ (x :: xs) c) (hx : ∀ cause, x.kind ≠ .invalid cause) :
    firstCursor source = ⟨0, source⟩ := by
  unfold firstCursor
  split
  · have hkind := h.1.1
    rw [nextToken_eq, skipTrivia_of_none (skipOne?_of_head (by decide) (by decide) (by decide)),
      tokenHere_sign] at hkind
    exact absurd hkind.symm (hx _)
  · rfl

/-- What is printed for nested statements is read as their braced trees. -/
theorem readModule_printed {body : List Node} (h : ∀ n ∈ body, n.IsNesting) (id : Nat)
    (span : Span) :
    ∃ items s, readModule (Node.mk id span (.program body)).printed.chars = .ok (items, s) ∧
      items.map Node.shape = (body.map Node.braced).map Node.shape := by
  obtain ⟨items, hitems, hnodes, hw⟩ := writes_lines (fun n hn => (h n hn).not_isRemoved)
    (fun n hn => (h n hn).writes) (l := .top) rfl
  have hreads := hw rfl .eof 0 [] rfl
  rw [List.append_nil, List.append_nil] at hreads
  generalize hsource : (Node.mk id span (.program body)).printed.chars = source
  have hlines : (lines .top (body.map fun c => (c, c.roles))).chars = source := hsource
  rw [hlines] at hreads
  have hfirst : firstCursor source = ⟨0, source⟩ := by
    cases items with
    | nil => exact firstCursor_of_reads hreads nofun
    | cons p items =>
      obtain ⟨x, xs, hx, hb, -⟩ := (hitems p List.mem_cons_self).begins
      rw [List.flatMap_cons, hx] at hreads
      exact firstCursor_of_reads hreads fun _ => TokenKind.ne_of_begins hb rfl
  have hlength : (items.flatMap (·.1)).length ≤ source.length := by
    obtain ⟨c, hfront, -⟩ := hreads.split
    have hle := hfront.length_le fun x hx => by
      obtain ⟨p, hp, hx⟩ := List.mem_flatMap.mp hx
      exact (hitems p hp).ne_eof x hx
    exact Nat.le_trans (Nat.le_add_right _ _) hle
  have hroom : Room (depthBound source - 1) ⟨true, false, source.length + 2⟩ false
      (items.flatMap (·.1)) := ⟨by unfold depthBound; omega, by simp only; omega, fun _ => rfl⟩
  obtain ⟨ns, s, hread, hns⟩ := gives_moduleBody hitems hroom (.start (hfirst ▸ hreads))
  exact ⟨ns, s, hread, hnodes ▸ hns⟩

/-! ## Trees in print -/

/-- What is printed for the tree, whatever source the map is made for, is read as a tree that is
`expected` but for numbers and spans. -/
def Node.RereadAs (root expected : Node) : Prop :=
  ∀ source file file' : String, ∃ tree,
    parseModule (SourceMap.generate root source file).code file' = .ok tree ∧
      tree.shape = expected.shape

theorem rereadAs_of_nesting {body : List Node} (h : ∀ n ∈ body, n.IsNesting) (id : Nat)
    (span : Span) :
    (Node.mk id span (.program body)).RereadAs (.mk id span (.program (body.map Node.braced))) := by
  intro source file file'
  obtain ⟨items, s, hread, hitems⟩ := readModule_printed h id span
  refine ⟨_, parseModule_eq_ok.mpr ⟨items, s, hread, rfl⟩, Node.shape_congr ?_⟩
  rw [Kind.map, Kind.map, hitems]

/-- The places of an expression `e`: a statement of its own, or the first part of the head of a loop
that has no other part and no body. -/
inductive Node.StandsIn (e : Node) : Node → Prop where
  | statement {id span} : StandsIn e (.mk id span (.expressionStatement e))
  | loopHead {id span id' span'} : StandsIn e
      (.mk id span (.forStatement (some e) none none (.mk id' span' .emptyStatement)))

/-- **Operator expressions are read back as they are**: no operand is drawn into another operator,
and no operator into another token. -/
theorem Node.IsOperation.rereadAs_self {e n : Node} (h : e.IsOperation) (hn : e.StandsIn n)
    (id : Nat) (span : Span) :
    (Node.mk id span (.program [n])).RereadAs (.mk id span (.program [n])) := by
  have hself : n.braced = n ∧ n.IsNesting := by
    cases hn with
    | statement =>
      refine ⟨?_, .expression h⟩
      simp only [Node.braced_mk, Kind.map, Kind.braced, h.braced]
    | loopHead =>
      refine ⟨?_, .forLoop ?_ (by simp) (by simp) .empty⟩
      · simp only [Node.braced_mk, Kind.map, Kind.braced, Option.map_some, Option.map_none,
          h.braced]
      · rintro e' he
        obtain rfl := Option.some.inj he
        exact h
  have hbody : ∀ m ∈ [n], m.IsNesting := List.forall_mem_singleton.mpr hself.2
  have hreread := rereadAs_of_nesting hbody id span
  rwa [List.map_singleton, hself.1] at hreread

/-- The negated base of a power and an `in` in the head of a loop. -/
theorem Node.rereadAs_self_power :
    let a : Node := .mk 1 ⟨0, 0⟩ (.identifier "a")
    let negated : Node := .mk 2 ⟨0, 0⟩ (.unaryExpression .minus a)
    let power : Node := .mk 3 ⟨0, 0⟩ (.binaryExpression .exponent negated a)
    let e : Node := .mk 4 ⟨0, 0⟩ (.binaryExpression .isIn power a)
    let head : Node := .mk 5 ⟨0, 0⟩
      (.forStatement (some e) none none (.mk 6 ⟨0, 0⟩ .emptyStatement))
    e.IsOperation ∧ e.StandsIn head ∧
      (Node.mk 0 ⟨0, 0⟩ (.program [head])).RereadAs (.mk 0 ⟨0, 0⟩ (.program [head])) := by
  intro a negated power e head
  have ha : a.IsOperation := .name ⟨by decide, by decide⟩
  have he : e.IsOperation := .binary (.binary (.unary ha) ha) ha
  exact ⟨he, .loopHead, he.rereadAs_self .loopHead 0 ⟨0, 0⟩⟩

/-- **Nested statements are read back** with the first statement of each choice that has an `else`
in a block: each `else` goes to its own choice, and no other statement is moved. -/
theorem Node.rereadAs_braced {body : List Node} (h : ∀ n ∈ body, n.IsNesting) (id : Nat)
    (span : Span) :
    (Node.mk id span (.program body)).RereadAs (Node.mk id span (.program body)).braced := by
  rw [Node.braced_mk]
  exact rereadAs_of_nesting h id span

/-- A choice without an `else` inside one that has an `else`. -/
theorem Node.rereadAs_braced_choices :
    let a : Node := .mk 1 ⟨0, 0⟩ (.identifier "a")
    let inner : Node := .mk 2 ⟨0, 0⟩ (.ifStatement a (.mk 3 ⟨0, 0⟩ .emptyStatement) none)
    let outer : Node := .mk 4 ⟨0, 0⟩
      (.ifStatement a inner (some (.mk 5 ⟨0, 0⟩ .emptyStatement)))
    (∀ n ∈ [outer], n.IsNesting) ∧
      (Node.mk 0 ⟨0, 0⟩ (.program [outer])).RereadAs
        (Node.mk 0 ⟨0, 0⟩ (.program [outer])).braced := by
  intro a inner outer
  have ha : a.IsOperation := .name ⟨by decide, by decide⟩
  have houter : ∀ n ∈ [outer], n.IsNesting :=
    List.forall_mem_singleton.mpr (.ifElse ha (.ifThen ha .empty) .empty)
  exact ⟨houter, Node.rereadAs_braced houter 0 ⟨0, 0⟩⟩

/-- What stands between such choices in print. -/
example : (Node.mk 0 ⟨0, 0⟩ (.program [.mk 4 ⟨0, 0⟩ (.ifStatement
    (.mk 1 ⟨0, 0⟩ (.identifier "a"))
    (.mk 2 ⟨0, 0⟩ (.ifStatement (.mk 1 ⟨0, 0⟩ (.identifier "a"))
      (.mk 3 ⟨0, 0⟩ .emptyStatement) none))
    (some (.mk 5 ⟨0, 0⟩ .emptyStatement)))])).printed.text =
      "if (a) \x7b\n  if (a)\n    ;\n\x7d else\n  ;\n" := by decide +kernel

end EsModule.Syntax
