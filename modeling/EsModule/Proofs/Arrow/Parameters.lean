import EsModule.Proofs.Arrow.Cover
import EsModule.Proofs.Arrow.Passage

/-!
# Arrow functions have the parameters of functions

A text that is the list of parameters of a function is the one of an arrow function, too, and the
trees of the parameters are the same (`parseModule_arrow`).

The run on the declaration of the function is taken apart up to the list. From there on the run on
the arrow function goes along with it (`Passage.pairing`), by the same rules. These are covered by
the rules for a list in parentheses (`covers_parameters`), and from the list on the run on the arrow
function is put together.
-/

namespace EsModule.Syntax

open EsModule.Text EsModule.Syntax.Parser

/-! ## The gap in front of a body -/

/-- In front of what ends no line a part of a gap is a single character, or it is a comment that is
closed. -/
theorem Skipped.eq_nil_of_append {r u : List Char} {x : Char} (h : Skipped r (u ++ [x]))
    (hr : ∃ ch, r.head? = some ch ∧ isLineTerminator ch = false) (hx : x ≠ '/') :
    u = [] ∧ (isBlank x = true ∨ isLineTerminator x = true) := by
  obtain ⟨ch, hhead, hch⟩ := hr
  generalize hv : u ++ [x] = v at h
  cases h with
  | blank h =>
    obtain ⟨rfl, hx⟩ := List.append_eq_singleton_iff.mp hv |>.resolve_right (by simp)
    obtain rfl := List.singleton_inj.mp hx
    exact ⟨rfl, .inl h⟩
  | lineEnd h =>
    obtain ⟨rfl, hx⟩ := List.append_eq_singleton_iff.mp hv |>.resolve_right (by simp)
    obtain rfl := List.singleton_inj.mp hx
    exact ⟨rfl, .inr h⟩
  | lineComment _ hr =>
    rw [hr ch hhead] at hch
    cases hch
  | @blockComment body _ =>
    have hlast : u ++ [x] = ('/' :: '*' :: body ++ ['*']) ++ ['/'] := by simpa using hv
    exact absurd (List.append_inj_right' hlast rfl) (by simpa using hx)
  | unclosed _ hr =>
    rw [hr] at hhead
    cases hhead

/-- In front of a brace no gap ends with a bracket and a space. -/
theorem Trivia.ne_append_close {r w : List Char} (h : Trivia r w) (hr : r.head? = some '\x7b')
    (u : List Char) : w ≠ u ++ [')', ' '] := by
  induction h generalizing u with
  | nil => simp
  | @cons v w hv hw ih =>
    intro heq
    rcases List.append_eq_append_iff.mp heq with ⟨u', -, hw⟩ | ⟨back, rfl, hback⟩
    · exact ih u' hw
    · match back, hback with
      | [], hback => exact ih [] hback.symm
      | [x], hback =>
        obtain ⟨rfl, rfl⟩ : ')' = x ∧ [' '] = w := by simpa using hback
        obtain ⟨-, hx⟩ := hv.eq_nil_of_append ⟨' ', rfl, by decide⟩ (by decide)
        revert hx
        decide
      | [x, y], hback =>
        obtain ⟨rfl, rfl, rfl⟩ : ')' = x ∧ ' ' = y ∧ [] = w := by simpa using hback
        have hv : Skipped r ((u ++ [')']) ++ [' ']) := by simpa using hv
        have hnil := (hv.eq_nil_of_append ⟨_, hr, by decide⟩ (by decide)).1
        simp at hnil

/-- So if a gap that follows a bracket ends with a space behind a bracket, it is that space. -/
theorem Trivia.eq_of_close {r read gap body : List Char} (h : Trivia r gap)
    (hr : r.head? = some '\x7b') (heq : read ++ [')'] ++ gap = body ++ [')'] ++ [' ']) :
    read = body ∧ gap = [' '] := by
  -- the last two characters are taken off one by one
  rcases List.eq_nil_or_concat' gap with rfl | ⟨front, ch, rfl⟩
  · rw [List.append_nil] at heq
    exact absurd (List.append_inj_right' heq rfl) (by decide)
  rw [← List.append_assoc] at heq
  obtain ⟨hbody, hch⟩ := List.append_inj' heq rfl
  obtain rfl := List.singleton_inj.mp hch
  rcases List.eq_nil_or_concat' front with rfl | ⟨front, ch, rfl⟩
  · rw [List.append_nil] at hbody
    exact ⟨List.append_cancel_right hbody, rfl⟩
  · rw [← List.append_assoc] at hbody
    obtain rfl := List.singleton_inj.mp (List.append_inj_right' hbody rfl)
    exact absurd (by simp) (h.ne_append_close hr front)

namespace Passage

/-- A text that ends with a bracket ends where a brace follows behind a single space. -/
theorem behind_eq {i : Passage} {front rest : List Char} (hbody : i.body = front ++ [')'])
    (htail : i.tail = ' ' :: '\x7b' :: rest) {s : State} (hs : s.Placed i.source)
    (hk : s.current.kind = .punctuator .rightParen)
    (hstart : s.next.current.span.start = i.limit + 1) : s.behind = ⟨i.limit, i.tail⟩ := by
  obtain ⟨gap, hgap, htrivia, -⟩ := skipTrivia_moves s.behind
  have hsource : i.source = i.head ++ i.body ++ [' '] ++ '\x7b' :: rest := by
    rw [source, htail]
    simp only [List.append_assoc, List.cons_append, List.nil_append]
  have hlimit : i.limit + 1 = byteSize (i.head ++ i.body ++ [' ']) := by
    rw [limit, byteSize_append (i.head ++ i.body)]
    rfl
  have hfirst : (skipTrivia s.behind).2 = ⟨i.limit + 1, '\x7b' :: rest⟩ := by
    have hat := (at_of_moves hs.behind_at hgap).eq_seek
    have hpos : (skipTrivia s.behind).2.pos = i.limit + 1 := by
      rw [← hstart]
      exact congrArg Span.start (State.nextToken_span s.behind).symm
    rw [hat, hpos, hsource, hlimit, Cursor.seek_append]
  rw [hfirst] at hgap htrivia
  obtain ⟨read, hread, -⟩ := hs.start_at
  have hmark : (skipTrivia s.before).2.rest = [')'] ++ s.behind.rest := (hs.mark hk).rest
  have hall : read ++ [')'] ++ gap = i.head ++ front ++ [')'] ++ [' '] := by
    refine (List.append_left_inj ('\x7b' :: rest)).mp ?_
    rw [List.append_assoc, ← hgap.rest, List.append_assoc, ← hmark, ← hread, hsource, hbody]
    simp only [List.append_assoc]
  -- so the bracket that was read is the last one in front of the brace
  obtain ⟨-, rfl⟩ := htrivia.eq_of_close rfl hall
  have hend : s.behind.pos = i.limit := (Nat.add_right_cancel hgap.pos).symm
  have hrest : s.behind.rest = ' ' :: '\x7b' :: rest := hgap.rest
  rw [← hend, htail, ← hrest]

end Passage

/-! ## The function -/

section

variable {g : Grammar} {c : Context} {s : State}

/-- The first item is read where the items start. -/
theorem ensures_moduleBody_first : Ensures g.moduleBody c s fun ns _ =>
    ∀ n rest, ns = n :: rest → ∃ s', g.moduleItem c s = .ok (n, s') := by
  rw [Grammar.moduleBody_eq]
  refine .listUntil (fun ns s' => (ns = [] ∧ s' = s) ∨
    ∃ n rest, ns = n :: rest ∧ ∃ s', g.moduleItem c s = .ok (n, s')) (.inl ⟨rfl, rfl⟩) ?_ ?_
  · rintro ns s' (⟨rfl, -⟩ | ⟨n, rest, rfl, h⟩)
    · exact nofun
    · rintro _ _ ⟨⟩
      exact h
  · rintro ns s' h
    refine .step Ensures.self fun n s'' hrun => .pure (.inr ?_)
    rcases h with ⟨rfl, rfl⟩ | ⟨m, rest, rfl, h⟩
    · exact ⟨n, [], rfl, s'', hrun⟩
    · exact ⟨m, rest ++ [n], rfl, h⟩

/-- What is read of a function behind its name: its parameters up to the bracket that closes their
list, and behind that its body. -/
structure ReadsFunction (g : Grammar) (c : Context) (s : State) (F : Function Node) (s' : State) :
    Prop where
  opens : s.current.kind = .punctuator .leftParen
  params : listUntil (· = .punctuator .rightParen) g.parameterItem
    { c with allowIn := true, inGenerator := false } s.next = .ok (F.params, s')
  closes : s'.current.kind = .punctuator .rightParen
  body : F.body.span.start = s'.next.current.span.start

theorem ensures_block_start : Ensures g.block c s fun n _ => n.span.start = s.current.span.start :=
  .bind (.here (.bind fun _ _ _ => .made rfl))

/-- A plain function that has a name. -/
theorem ensures_namedFunction {name : String} {missing : Option SyntaxFault}
    (hname : s.next.current.kind = .identifier name) :
    Ensures (g.functionDeclaration false missing) c s fun n _ => ∃ F s',
      n.kind = .functionDeclaration F ∧ ReadsFunction g c s.next.next.counted F s' := by
  -- the name is one token
  have hbinding : Ensures (Grammar.optionalName missing) c s.next fun _ s' =>
      s' = s.next.next.counted := by
    refine .bind (.bind (.current ?_))
    rw [hname]
    refine .pure (.ite (fun _ => .bind (.bind (.here (.bind (.current ?_))))) (absurd rfl))
    rw [hname]
    exact .bind (.pure (.bind (.advance (.made (.pure rfl)))))
  refine .bind (.here (.step (P := fun F _ => ∃ s', ReadsFunction g c s.next.next.counted F s') ?_
    fun F _ ⟨s', h⟩ => .made ⟨F, s', rfl, h⟩))
  refine .bind (.expectWord fun _ => .bind (.eat (fun hstar => ?_) fun _ => ?_))
  · rw [hname] at hstar
    cases hstar
  refine .step hbinding ?_
  rintro name _ rfl
  refine .bind (.inFunction ?_)
  rw [Grammar.parameters_eq]
  refine .bind (.bind (.expect fun hopens => ?_))
  refine .step Ensures.self fun params s1 hrun => .bind (.expect fun hcloses => .pure ?_)
  refine .step ensures_block_start fun body s2 hbody => .pure (.pure ?_)
  exact ⟨s1, hopens, hrun, hcloses, hbody⟩

theorem ensures_functionItem {d : Nat} {name : String}
    (hk : s.current.kind = .keyword .kwFunction) (hname : s.next.current.kind = .identifier name) :
    Ensures (Grammar.ofDepth (d + 1)).moduleItem c s fun n _ => ∃ F s',
      n.kind = .functionDeclaration F ∧
        ReadsFunction (Grammar.ofDepth d) c s.next.next.counted F s' := by
  have hstatement : Ensures (Grammar.ofDepth d).statementRule c s fun n _ => ∃ F s',
      n.kind = .functionDeclaration F ∧
        ReadsFunction (Grammar.ofDepth d) c s.next.next.counted F s' := by
    refine .bind (.here (.step (P := fun b s' => b = false ∧ s = s') ?_ ?_))
    · refine .bind (.peek (.bind (.seesWord (.pure ⟨?_, rfl⟩))))
      rw [hk]
      rfl
    rintro _ _ ⟨rfl, rfl⟩
    refine .ite nofun fun _ => .bind (.current ?_)
    rw [hk]
    exact ensures_namedFunction hname
  refine .bind (.current ?_)
  rw [hk]
  exact hstatement

end

/-! ## The arrow function -/

theorem Gives.inFunction {α : Type} {isGenerator : Bool} {p : Parser α} {c : Context} {s : State}
    {Q : α → State → Prop}
    (h : Gives p { c with allowIn := true, inGenerator := isGenerator } s Q) :
    Gives (Parser.inFunction isGenerator p) c s Q := h

section

variable {g : Grammar} {c : Context} {s s1 : State} {marked : List (Node × Bool)}
  {params : List Node} {rest : List Lexeme}

/-- What becomes a parameter is no call. -/
theorem Node.not_call_of_toParameter? {n t : Node} (h : n.toParameter? = some t) :
    ∀ callee arguments optional, n.kind ≠ .callExpression callee arguments optional := by
  intro callee arguments optional hk
  obtain ⟨id, span, kind⟩ := n
  obtain rfl : kind = _ := hk
  cases h

/-- Says of an operand that the list of parameters of a plain arrow function was read as it. -/
structure Operand.Heads (o : Operand) (params : List Node) : Prop where
  items : ∃ items, o.items = some items ∧ items.mapM (·.toParameter?) = some params
  plain : ∀ callee arguments optional, o.node.kind ≠ .callExpression callee arguments optional

/-- In front of an arrow every list in parentheses is read. -/
theorem gives_parenthesized (hk : s.current.kind = .punctuator .leftParen)
    (hitems : g.parenthesizedItems c s.next = .ok (marked, s1))
    (hparams : (marked.map (·.1)).mapM (·.toParameter?) = some params)
    (hs1 : s1.Faces (.mark .rightParen :: ⟨.punctuator .arrow, true⟩ :: rest)) :
    Gives g.primary c s fun o s' => s'.Faces (⟨.punctuator .arrow, true⟩ :: rest) ∧
      o.Heads params := by
  refine .bind (.here (.bind (.startsAsyncFunction (by rw [hk]; exact nofun) ?_)))
  refine .iteFalse nofun (.bind (.current ?_))
  rw [hk]
  refine .bind (.here (.bind (.advance (.bind ⟨_, _, hitems, .bind (.expect hs1.kind ?_)⟩))))
  refine .bind (.sees (.iteFalse ?_ ?_))
  · rw [hs1.next.kind]
    simp
  split
  · rename_i item heq _
    have hitem := hparams
    rw [heq] at hitem
    cases mapM_eq_some.mp hitem with
    | cons ht _ => exact .pure ⟨hs1.next, ⟨_, rfl, hparams⟩, Node.not_call_of_toParameter? ht⟩
  · exact .bind (.node fun span => .pure ⟨hs1.next.counted, ⟨_, rfl, hparams⟩, nofun⟩)

/-- From the arrow on the function is read. -/
theorem gives_arrowBehind {start : Nat} {o : Operand} {Q : Node → State → Prop}
    (ho : o.Heads params) (hs : s.Faces (⟨.punctuator .arrow, true⟩ :: rest))
    (h : Gives (g.arrowBody start params false) c s Q) :
    Gives (g.arrowBehind start o) c s Q := by
  obtain ⟨⟨items, hitems, hparams⟩, hplain⟩ := ho
  obtain ⟨hfits, -⟩ := hs
  have hline := hfits.2 rfl
  unfold Grammar.arrowBehind
  rw [hitems]
  refine .bind (.current (.iteFalse (by rw [hline]; exact nofun) ?_))
  rw [hparams]
  dsimp only
  split
  · exact absurd ‹_› (hplain _ _ _)
  · exact h

/-- A number at the end of a statement. -/
theorem gives_number {value : Number.Binary64} (hc : 0 < c.bound)
    (hs : s.Faces (.of (.number value) :: .mark .semicolon :: rest)) :
    Gives g.assignmentRule c s fun _ s' => s'.Faces (.mark .semicolon :: rest) := by
  have hk := hs.kind
  rw [Lexeme.kind_of] at hk
  refine gives_choice (by rw [hk]; exact nofun) (by rw [hk]; exact nofun) (by rw [hk]; exact nofun)
    (gives_conditional (by rw [hk]; rfl) hc ?_)
  refine .bind (.here (.bind (.startsAsyncFunction (by rw [hk]; exact nofun) ?_)))
  refine .iteFalse nofun (.bind (.current ?_))
  rw [hk]
  refine .bind (.bind (.get (.pure (.bind (.advance (.bind (.node fun span => .pure ?_)))))))
  have hs' : s.next.counted.Faces (.mark .semicolon :: rest) := hs.next.counted
  refine ⟨by rw [hs'.kind]; rfl, .bind (.sees (.iteFalse ?_ (.bind (.current ?_))))⟩
  · rw [hs'.kind]
    simp
  · rw [hs'.kind]
    exact .pure hs'

/-- An arrow function that gives a number is read from its list of parameters on. -/
theorem gives_arrow {d : Nat} {value : Number.Binary64} (hc : 0 < c.bound)
    (hk : s.current.kind = .punctuator .leftParen)
    (hitems : (Grammar.ofDepth (d + 1)).parenthesizedItems c s.next = .ok (marked, s1))
    (hparams : (marked.map (·.1)).mapM (·.toParameter?) = some params)
    (hs1 : s1.Faces (.mark .rightParen :: ⟨.punctuator .arrow, true⟩ :: .of (.number value) ::
      .mark .semicolon :: rest)) :
    Gives (Grammar.ofDepth (d + 1)).assignmentRule c s fun e s' =>
      (∃ body, e.kind = .arrowFunction params body true false) ∧
        s'.Faces (.mark .semicolon :: rest) := by
  refine gives_choice (by rw [hk]; exact nofun) (by rw [hk]; exact nofun) (by rw [hk]; exact nofun)
    (gives_conditional (by rw [hk]; rfl) hc ((gives_parenthesized hk hitems hparams hs1).mono ?_))
  rintro o s2 ⟨hs2, ho⟩
  refine ⟨by rw [hs2.kind]; rfl, .bind (.sees (.iteTrue (decide_eq_true hs2.kind) ?_))⟩
  refine gives_arrowBehind ho hs2 (.bind (.expect hs2.kind ?_))
  have hbrace : ¬ decide (s2.next.current.kind = .punctuator .leftBrace) = true := by
    rw [hs2.next.kind]
    simp
  refine .step (P := fun r s' => r.2 = true ∧ s'.Faces (.mark .semicolon :: rest)) ?_ ?_
  · refine .inFunction (.bind (.sees (.iteFalse hbrace (.step ?_ fun _ _ h => .pure ⟨rfl, h⟩))))
    exact gives_number hc hs2.next
  · rintro ⟨body, _⟩ s3 ⟨rfl, hs3⟩
    exact .node fun span => ⟨⟨body, rfl⟩, hs3.counted⟩

/-- So is a module that has nothing else. -/
theorem gives_arrowModule {d : Nat} {value : Number.Binary64} (hc : 1 < c.bound)
    (hk : s.current.kind = .punctuator .leftParen)
    (hitems : (Grammar.ofDepth (d + 1)).parenthesizedItems c s.next = .ok (marked, s1))
    (hparams : (marked.map (·.1)).mapM (·.toParameter?) = some params)
    (hs1 : s1.Faces [.mark .rightParen, ⟨.punctuator .arrow, true⟩, .of (.number value),
      .mark .semicolon, .of .eof]) :
    Gives (Grammar.ofDepth (d + 3)).moduleBody c s fun items _ => ∃ n e body, items = [n] ∧
      n.kind = .expressionStatement e ∧ e.kind = .arrowFunction params body true false := by
  have hexpression : Gives (Grammar.ofDepth (d + 2)).expression c s fun e s' =>
      (∃ body, e.kind = .arrowFunction params body true false) ∧
        s'.Faces [.mark .semicolon, .of .eof] := by
    have harrow : Gives (Grammar.ofDepth (d + 2)).assignment c s _ :=
      gives_arrow (by omega) hk hitems hparams hs1
    refine .bind (.here (.step harrow fun e s' he => ?_))
    refine .bind (.sees (.iteFalse ?_ (.pure he)))
    rw [he.2.kind]
    simp
  have hstatement : Gives (Grammar.ofDepth (d + 3)).moduleItem c s fun n s' =>
      (∃ e body, n.kind = .expressionStatement e ∧
        e.kind = .arrowFunction params body true false) ∧ s'.current.kind = .eof := by
    refine .bind (.current ?_)
    rw [hk]
    refine .bind (.here (.bind (.startsAsyncFunction (by rw [hk]; exact nofun) ?_)))
    refine .iteFalse nofun (.bind (.current ?_))
    rw [hk]
    refine .bind (.here (.step hexpression ?_))
    rintro e s2 ⟨⟨body, he⟩, hs2⟩
    refine .bind (.semicolon hs2.kind (.node fun span => ⟨⟨e, body, rfl, he⟩, ?_⟩))
    exact hs2.next.counted.kind
  obtain ⟨bound, hbound⟩ : ∃ b, c.bound = b + 2 := ⟨c.bound - 2, by omega⟩
  rw [Grammar.moduleBody_eq]
  refine .loop (hbound ▸ .round (.bind (.current (.iteFalse (by simp [hk]) ?_))))
  refine .bind (.bind (hstatement.mono ?_))
  rintro n s2 ⟨⟨e, body, hn, he⟩, heof⟩
  refine .pure (.iteTrue rfl (.pure (.round (.bind (.current (.iteTrue ?_ (.pure ?_)))))))
  · exact decide_eq_true heof
  · exact ⟨n, e, body, rfl, hn, he⟩

end

/-! ## The two sources -/

/-- The declaration of a function that has a text for its list of parameters. -/
def functionSource (text : String) : String := "function f(" ++ text ++ ") \x7b\x7d"

/-- Where the body starts, if a program is one function. -/
def bodyStart : Except SyntaxError Node → Nat
  | .ok (.mk _ _ (.program [.mk _ _ (.functionDeclaration F)])) => F.body.span.start
  | _ => 0

/-- A statement of an arrow function that has the text for its list of parameters. -/
def arrowSource (text : String) : String := "(" ++ text ++ ") => 0;"

/-- The list in both sources, with its parentheses. -/
def Passage.ofParameters (text : List Char) : Passage where
  head := "function f".toList
  body := '(' :: text ++ [')']
  tail := " \x7b\x7d".toList
  tail' := " => 0;".toList
  tokens := 2
  nodes := 1
  space := rfl
  space' := rfl

theorem toList_functionSource (text : String) :
    (functionSource text).toList = (Passage.ofParameters text.toList).source := by
  have hhead : "function f(".toList = "function f".toList ++ ['('] := by decide
  have htail : ") \x7b\x7d".toList = [')'] ++ " \x7b\x7d".toList := by decide
  unfold functionSource Passage.source Passage.ofParameters
  simp only [String.toList_append, hhead, htail, List.append_assoc, List.cons_append,
    List.nil_append]

theorem toList_arrowSource (text : String) :
    (arrowSource text).toList = (Passage.ofParameters text.toList).other := by
  have hhead : "(".toList = ['('] := by decide
  have htail : ") => 0;".toList = [')'] ++ " => 0;".toList := by decide
  unfold arrowSource Passage.other Passage.ofParameters
  simp only [String.toList_append, hhead, htail, List.append_assoc, List.cons_append,
    List.nil_append]

theorem Passage.limit_ofParameters (text : String) :
    (ofParameters text.toList).limit + 1 = byteSize ("function f(" ++ text ++ ") ").toList := by
  have hhead : "function f(".toList = "function f".toList ++ ['('] := by decide
  have htail : ") ".toList = [')'] ++ [' '] := by decide
  have hspace : byteSize [' '] = 1 := by decide
  rw [← hspace]
  unfold limit ofParameters
  simp only [String.toList_append, hhead, htail, ← byteSize_append, List.append_assoc,
    List.cons_append, List.nil_append]

namespace Passage

variable (text : List Char)

/-- What is read in front of the list. -/
theorem reads_function : Reads ⟨0, (ofParameters text).source⟩
    [.word .kwFunction, .name "f"] ⟨10, (ofParameters text).body ++ (ofParameters text).tail⟩ := by
  have hname : Writes "f".toList [.name "f"] NameEnds := .name ⟨by decide, by decide⟩
  exact (Writes.word .kwFunction).append hname.space (fun r _ => nameEnds_space _) 0 _
    (nameEnds_cons (by decide) _)

/-- The second source starts with the list. -/
theorem opens_other : (State.start (ofParameters text).other).current.kind =
    .punctuator .leftParen := by
  have hopen : Writes "(".toList [.mark .leftParen] Anything := .closed (by decide)
  exact (hopen 0 (text ++ [')'] ++ (ofParameters text).tail') trivial).1.1

/-- What is read behind the list. -/
theorem reads_arrow (pos : Nat) : ∃ value c, Reads ⟨pos, (ofParameters text).tail'⟩
    [⟨.punctuator .arrow, true⟩, .of (.number value), .mark .semicolon, .of .eof] c := by
  obtain ⟨value, hzero⟩ : ∃ value, IsToken ['0'] (.number value) [';'] :=
    ⟨_, fun pos => skipOne?_of_head (by decide) (by decide) (by decide), fun pos => rfl⟩
  have hnumber : Writes ['0'] [.of (.number value)] (· = [';']) := .token fun r hr => hr ▸ hzero
  have harrow : Writes "=>".toList [⟨.punctuator .arrow, true⟩] Anything := .closed (by decide)
  have hsemicolon : Writes ";".toList [.mark .semicolon] Anything := .closed (by decide)
  have hend := hnumber.space.append (hsemicolon.append .eof fun _ _ => trivial)
    (fun r (hr : r = []) => by rw [hr]; rfl)
  exact ⟨value, _, (harrow.space.append hend fun _ _ => trivial) pos [] rfl⟩

/-! ## Both runs -/

/-- The state of the first run in front of the list. -/
def listState (text : List Char) : State :=
  (State.start (ofParameters text).source).next.next.counted

theorem start_function : (State.start (ofParameters text).source).Faces
    [.word .kwFunction, .name "f"] ∧
      (State.start (ofParameters text).source).next.behind =
        ⟨10, (ofParameters text).body ++ (ofParameters text).tail⟩ := by
  have hfirst : firstCursor (ofParameters text).source = ⟨0, (ofParameters text).source⟩ := rfl
  have hreads := hfirst ▸ reads_function text
  exact ⟨.start hreads, hreads.2.2⟩

theorem place_ofParameters : (ofParameters text).place = 10 := by
  show byteSize "function f".toList = 10
  decide

theorem reached_listState : (listState text).Reached (ofParameters text).source := by
  have hfaces := (start_function text).1
  refine .counted (.next (.next .start ?_) ?_)
  · rw [hfaces.kind]
    rfl
  · rw [hfaces.next.kind]
    rfl

theorem before_listState : (listState text).before =
    ⟨10, (ofParameters text).body ++ (ofParameters text).tail⟩ := (start_function text).2

theorem tracked_listState : (ofParameters text).Tracked (listState text) := by
  refine ⟨(reached_listState text).placed, (reached_listState text).text, ?_, ?_, ?_⟩
  · exact Nat.le_of_eq (by rw [place_ofParameters, before_listState])
  · exact Nat.le_succ 1
  · exact Nat.le_refl 2

theorem state_listState (hclear : (ofParameters text).Clear (listState text)) :
    (ofParameters text).transfer.state (listState text) =
      State.start (ofParameters text).other := by
  refine state_start (tracked_listState text) hclear rfl ?_ ?_ rfl rfl rfl
  · rw [place_ofParameters, before_listState]
  · have hname : (State.start (ofParameters text).source).next.Placed (ofParameters text).source :=
      (State.Reached.placed .start).next
    have hstop := hname.start_le_stop
    rw [congrArg Span.stop hname.span, (start_function text).2] at hstop
    rw [place_ofParameters]
    exact hstop

theorem length_ofParameters : (ofParameters text).body.length = text.length + 2 ∧
    (ofParameters text).source.length = text.length + 15 ∧
    (ofParameters text).other.length = text.length + 8 := by
  have hbody : (ofParameters text).body.length = text.length + 2 :=
    congrArg Nat.succ List.length_append
  have hhead : (ofParameters text).head.length = 10 := rfl
  have htail : (ofParameters text).tail.length = 3 := rfl
  have htail' : (ofParameters text).tail'.length = 6 := rfl
  simp only [source, other, List.length_append]
  omega

theorem left_listState : (listState text).left ≤ text.length + 5 := by
  have hle := length_skipTrivia (listState text).before
  have hbody := (length_ofParameters text).1
  have htail : (ofParameters text).tail.length = 3 := rfl
  rw [congrArg Cursor.rest (before_listState text), List.length_append] at hle
  show (skipTrivia (listState text).before).2.rest.length ≤ _
  omega

/-- Where the function has its list of parameters, the second run reads the same list. -/
theorem reads_list (d' : Nat) (c' : Context) {d : Nat} {c : Context} {F : Function Node}
    {s : State} (h : ReadsFunction (Grammar.ofDepth d) c (listState text) F s)
    (hstart : F.body.span.start = (ofParameters text).limit + 1)
    (hd : 2 * (text.length + 5) + 1 ≤ d') (hc : text.length + 5 ≤ c.bound)
    (hc' : text.length + 5 ≤ c'.bound) (hin : c'.allowIn = true) (hgen : c'.inGenerator = false) :
    s.behind = ⟨(ofParameters text).limit, (ofParameters text).tail⟩ ∧
      listUntil (· = .punctuator .rightParen) (Grammar.ofDepth d').parameterItem c'
          (State.start (ofParameters text).other).next =
        .ok (F.params.map (ofParameters text).transfer.node,
          (ofParameters text).transfer.state s) := by
  have hleft := left_listState text
  have htext : (listState text).current.kind.isText = true := by rw [h.opens]; rfl
  have hnext := (reached_listState text).next_lt htext
  -- what is left behind the bracket fits the bounds of both runs
  have hreaches : (ofParameters text).pairing.Reaches (2 * (text.length + 5) + 1) d d' :=
    ⟨.inr hd, nofun, nofun⟩
  have hlist : Echoes (ofParameters text).pairing (text.length + 5) (fun _ => text.length + 5)
      (listState text).next
      (listUntil (· = .punctuator .rightParen) (Grammar.ofDepth d).parameterItem)
      (listUntil (· = .punctuator .rightParen) (Grammar.ofDepth d').parameterItem) _ :=
    .listUntil (follows_parameterItem (follows_ofDepth hreaches))
  have hsuits : Context.Suits (listState text).next { c with allowIn := true, inGenerator := false }
      c' := ⟨hin, hgen, by dsimp only; omega, by omega⟩
  obtain ⟨htracked, -, -, hechoes⟩ :=
    (hlist (by omega) (tracked_listState text).next _ _ hsuits).1 _ _ h.params
  have hbehind := behind_eq rfl rfl htracked.toPlaced h.closes (h.body.symm.trans hstart)
  -- the list ends inside the passage, so no token of it was cut off
  have hclear : (ofParameters text).Clear s :=
    .last (by rw [h.closes]; exact nofun) (Nat.le_of_eq (congrArg Cursor.pos hbehind))
      (by rw [h.closes]; rfl)
  obtain ⟨hclear', hrun⟩ := hechoes hclear
  have hopen : (ofParameters text).Clear (listState text) :=
    .more (by rw [h.opens]; exact nofun) hclear'
  have hbegin : (ofParameters text).pairing.state (listState text).next =
      (State.start (ofParameters text).other).next := by
    rw [← state_listState text hopen]
    exact (tracked_listState text).state_next hclear'
  rw [hbegin] at hrun
  exact ⟨hbehind, hrun⟩

/-- Behind the list the second run stands in front of the arrow. -/
theorem faces_arrow {s : State} (hk : s.current.kind = .punctuator .rightParen)
    (hbehind : s.behind = ⟨(ofParameters text).limit, (ofParameters text).tail⟩) :
    ∃ value, ((ofParameters text).transfer.state s).Faces [.mark .rightParen,
      ⟨.punctuator .arrow, true⟩, .of (.number value), .mark .semicolon, .of .eof] := by
  have hcursor : (ofParameters text).transfer.cursor s.behind =
      ⟨byteSize (ofParameters text).body, (ofParameters text).tail'⟩ := by
    have hlimit : (ofParameters text).limit - (ofParameters text).place =
        byteSize (ofParameters text).body := by
      rw [limit, place, byteSize_append, Nat.add_sub_cancel_left]
    rw [hbehind]
    show Cursor.seek _ ((ofParameters text).limit - (ofParameters text).place) = _
    rw [hlimit, other, Cursor.seek_append]
  obtain ⟨value, c, hreads⟩ := reads_arrow text (byteSize (ofParameters text).body)
  refine ⟨value, ⟨hk, fun h => by cases h⟩, c, ?_⟩
  show Reads ((ofParameters text).transfer.cursor s.behind) _ c
  rw [hcursor]
  exact hreads

end Passage

/-- Other numbers and spans leave the shape of a tree. -/
theorem Transfer.shape_node (i : Transfer) (n : Node) : (i.node n).shape = n.shape := by
  induction n using Node.induct with
  | h n ih =>
    obtain ⟨id, span, kind⟩ := n
    rw [node_mk, Node.shape_mk, Node.shape_mk, Kind.map_map]
    exact congrArg _ (Kind.map_congr ih)

/-- **The list of parameters of a function is one of an arrow function**, and its trees are the same
but for numbers and spans: an arrow function has the parameters that the function has, although they
are read as expressions first. That the body starts behind the bracket and the space says that the
text is all that stands between the parentheses. -/
theorem parseModule_arrow (text file : String) {tree n : Node} {F : Function Node}
    (h : parseModule (functionSource text) file = .ok tree) (htree : tree.kind = .program [n])
    (hn : n.kind = .functionDeclaration F)
    (hbody : F.body.span.start = byteSize ("function f(" ++ text ++ ") ").toList) :
    ∃ tree' n' e params body, parseModule (arrowSource text) file = .ok tree' ∧
      tree'.kind = .program [n'] ∧ n'.kind = .expressionStatement e ∧
      e.kind = .arrowFunction params body true false ∧
      params.map Node.shape = F.params.map Node.shape := by
  rw [parseModule_eq_ok, toList_functionSource] at h
  obtain ⟨items, s, hread, rfl⟩ := h
  obtain rfl : items = [n] := Kind.program.inj htree
  obtain ⟨-, hsource, hother⟩ := Passage.length_ofParameters text.toList
  obtain ⟨s1, hitem⟩ := ensures_moduleBody_first _ _ hread n [] rfl
  have hfaces := (Passage.start_function text.toList).1
  obtain ⟨F', s2, hF, hfunction⟩ := ensures_functionItem hfaces.kind hfaces.next.kind _ _ hitem
  obtain rfl : F' = F := Kind.functionDeclaration.inj (hF.symm.trans hn)
  have hstart := hbody.trans (Passage.limit_ofParameters text).symm
  -- the list of the first run is read in the second one, and covered there
  obtain ⟨hbehind, hlist⟩ := Passage.reads_list _
    (2 * (Passage.ofParameters text.toList).other.length + 2)
    ⟨true, false, (Passage.ofParameters text.toList).other.length + 2⟩ hfunction hstart
    (by omega) (by dsimp only; omega) (by dsimp only; omega) rfl rfl
  obtain ⟨value, hs2⟩ := Passage.faces_arrow _ hfunction.closes hbehind
  have hopens := Passage.opens_other text.toList
  generalize (Passage.ofParameters text.toList).transfer.state s2 = s' at hlist hs2
  generalize hsecond : (Passage.ofParameters text.toList).other = second at hlist hother hopens
  have hreached : (State.start second).next.Reached second := .next .start (by rw [hopens]; rfl)
  have hleft := State.Placed.left_le hreached.placed
  obtain ⟨marked, _, hitems, rfl, hparams⟩ := covers_parameters second
    (n := second.length + 1) (by omega) _ _ hreached (by omega) (by dsimp only; omega) rfl _ _ hlist
    (decide_eq_true hs2.kind)
  obtain ⟨items, s3, hmodule, n', e, body, rfl, hn', he⟩ :=
    gives_arrowModule (d := 2 * second.length + 1) (by dsimp only; omega) hopens hitems hparams hs2
  refine ⟨_, n', e, _, body, parseModule_eq_ok.mpr ⟨[n'], s3, ?_, rfl⟩, rfl, hn', he, ?_⟩
  · rw [toList_arrowSource, hsecond]
    exact hmodule
  · rw [List.map_map]
    exact List.map_congr_left fun m _ => Transfer.shape_node _ m

/-- Names that are words elsewhere, defaults inside patterns, holes, rest elements and keys. -/
theorem parseModule_arrow_patterns :
    let text := "async, \x7bget, set: [a = 1, , ...b] = c, [d]: \x7be = 2\x7d\x7d = f, ...[g]"
    ∃ tree n F, parseModule (functionSource text) "test.js" = .ok tree ∧
      tree.kind = .program [n] ∧ n.kind = .functionDeclaration F ∧
      F.body.span.start = byteSize ("function f(" ++ text ++ ") ").toList ∧
      ∃ tree' n' e params body, parseModule (arrowSource text) "test.js" = .ok tree' ∧
        tree'.kind = .program [n'] ∧ n'.kind = .expressionStatement e ∧
        e.kind = .arrowFunction params body true false ∧
        params.map Node.shape = F.params.map Node.shape := by
  intro text
  have hread : bodyStart (parseModule (functionSource text) "test.js") =
      byteSize ("function f(" ++ text ++ ") ").toList := by decide +kernel
  have hpos : byteSize ("function f(" ++ text ++ ") ").toList ≠ 0 := by decide +kernel
  unfold bodyStart at hread
  split at hread
  · rename_i h
    exact ⟨_, _, _, h, rfl, rfl, hread, parseModule_arrow text "test.js" h rfl rfl hread⟩
  · exact absurd hread.symm hpos

end EsModule.Syntax
