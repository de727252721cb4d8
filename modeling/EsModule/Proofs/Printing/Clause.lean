import EsModule.Proofs.Printing.Member

/-!
# The grammar of nested statements

`Clause` is the grammar of the statements that are made of operator expressions, blocks, choices,
loops and labels, as lists of lexemes together with the trees that they stand for. It says of a
choice with an `else` that its first statement is a block. So no `else` can be drawn into a choice
inside that statement, and every statement is read as the tree it stands for in front of anything
but an `else` (`Clause.reads`). Behind a block even an `else` may stand.
-/

namespace EsModule.Syntax

open EsModule.Syntax.Parser

/-! ## Clauses -/

/-- Lexemes between braces. -/
def inBraces (xs : List Lexeme) : List Lexeme := .mark .leftBrace :: (xs ++ [.mark .rightBrace])

theorem length_inBraces (xs : List Lexeme) : (inBraces xs).length = xs.length + 2 := by
  rw [inBraces, List.length_cons, List.length_append, List.length_singleton]

/-- The lexemes of an expression that may be missing. -/
def Part.optional : Option Part → List Lexeme
  | some p => p.lexemes
  | none => []

/-- A statement of this grammar. -/
inductive Clause : List Lexeme → Node → Prop where
  | expression {k xs e id span} (h : Phrase k false xs e) :
      Clause (xs ++ [.mark .semicolon]) (.mk id span (.expressionStatement e))
  | empty {id span} : Clause [.mark .semicolon] (.mk id span .emptyStatement)
  | block {id span} {items : List (List Lexeme × Node)} (h : ∀ p ∈ items, Clause p.1 p.2) :
      Clause (inBraces (items.flatMap (·.1))) (.mk id span (.blockStatement (items.map (·.2))))
  | ifThen {k xs ys test consequent id span} (ht : Phrase k false xs test)
      (hc : Clause ys consequent) :
      Clause (.word .kwIf :: (inParens xs ++ ys))
        (.mk id span (.ifStatement test consequent none))
  | ifElse {k xs ys zs test consequent alternate id span} (ht : Phrase k false xs test)
      (hc : Clause ys consequent) (hblock : consequent.isBlock = true)
      (ha : Clause zs alternate) :
      Clause (.word .kwIf :: (inParens xs ++ (ys ++ .word .kwElse :: zs)))
        (.mk id span (.ifStatement test consequent (some alternate)))
  | whileLoop {k xs ys test body id span} (ht : Phrase k false xs test) (hb : Clause ys body) :
      Clause (.word .kwWhile :: (inParens xs ++ ys)) (.mk id span (.whileStatement test body))
  | doWhile {k xs ys test body id span} (ht : Phrase k false xs test) (hb : Clause ys body) :
      Clause (.word .kwDo :: (ys ++ .word .kwWhile :: (inParens xs ++ [.mark .semicolon])))
        (.mk id span (.doWhileStatement body test))
  | forLoop {init test update : Option Part} {ys body id span}
      (hi : ∀ p ∈ init, Phrase p.level true p.lexemes p.node)
      (ht : ∀ p ∈ test, Phrase p.level false p.lexemes p.node)
      (hu : ∀ p ∈ update, Phrase p.level false p.lexemes p.node) (hb : Clause ys body) :
      Clause (.word .kwFor :: .mark .leftParen :: (Part.optional init ++ .mark .semicolon ::
          (Part.optional test ++ .mark .semicolon ::
            (Part.optional update ++ .mark .rightParen :: ys))))
        (.mk id span (.forStatement (init.map (·.node)) (test.map (·.node)) (update.map (·.node))
          body))
  | labeled {ys label body id span} (hb : Clause ys body) :
      Clause (.name label :: .mark .colon :: ys) (.mk id span (.labeledStatement label body))

/-! ## The front of a statement -/

/-- Whether a statement of this grammar may start with a token of this kind. -/
def TokenKind.begins (kind : TokenKind) : Bool :=
  match kind with
  | .punctuator .semicolon | .punctuator .leftBrace | .keyword .kwIf | .keyword .kwWhile
  | .keyword .kwDo | .keyword .kwFor => true
  | _ => kind.opens

theorem TokenKind.begins_of_opens {kind : TokenKind} (h : kind.opens = true) :
    kind.begins = true := by
  unfold begins
  split <;> first | rfl | exact h

theorem TokenKind.ne_of_begins {kind kind' : TokenKind} (h : kind.begins = true)
    (h' : kind'.begins = false) : kind ≠ kind' := by
  rintro rfl
  rw [h'] at h
  cases h

/-- The lexemes start like a statement, and may stand on a line of their own. -/
def Begins (xs : List Lexeme) : Prop :=
  ∃ x rest, xs = x :: rest ∧ x.kind.begins = true ∧ x.joined = false

theorem Clause.begins {xs : List Lexeme} {n : Node} (h : Clause xs n) : Begins xs := by
  cases h with
  | expression h =>
    obtain ⟨x, rest, rfl, hx⟩ := h.starts.opens
    exact ⟨x, _, rfl, TokenKind.begins_of_opens hx, h.starts.apart x rest rfl⟩
  | _ => exact ⟨_, _, rfl, rfl, rfl⟩

/-- The end of the source is no part of a statement. -/
theorem Clause.ne_eof {xs : List Lexeme} {n : Node} (h : Clause xs n) :
    ∀ x ∈ xs, x.kind ≠ .eof := by
  have hpart : ∀ (noIn : Bool) (part : Option Part),
      (∀ p ∈ part, Phrase p.level noIn p.lexemes p.node) →
      ∀ x ∈ Part.optional part, x.kind ≠ .eof := by
    rintro noIn (_ | p) hp
    · exact List.forall_mem_nil _
    · exact (hp p rfl).ne_eof
  induction h with
  | expression h =>
    have hphrase := h.ne_eof
    simp_all [or_imp]
  | empty => simp
  | @block _ _ items _ ih =>
    have hitems : ∀ x ∈ items.flatMap (·.1), x.kind ≠ .eof := by
      intro x hx
      obtain ⟨p, hp, hx⟩ := List.mem_flatMap.mp hx
      exact ih p hp x hx
    refine List.forall_mem_cons.mpr ⟨nofun, List.forall_mem_append.mpr ⟨hitems, ?_⟩⟩
    exact List.forall_mem_singleton.mpr nofun
  | ifThen ht | ifElse ht | whileLoop ht | doWhile ht =>
    have htest := ht.ne_eof
    simp_all [inParens, or_imp]
  | forLoop hi ht hu =>
    have hinit := hpart _ _ hi
    have htest := hpart _ _ ht
    have hupdate := hpart _ _ hu
    simp_all [or_imp]
  | labeled => simp_all

/-! ## Statements are read -/

/-- What may stand behind a statement: not an `else`, unless the statement is a block. -/
def Behind (n : Node) (rest : List Lexeme) : Prop :=
  n.isBlock = true ∨ ∃ x xs, rest = x :: xs ∧ x.kind ≠ .keyword .kwElse

theorem Behind.cons {n : Node} {x : Lexeme} (h : x.kind ≠ .keyword .kwElse) (xs : List Lexeme) :
    Behind n (x :: xs) := .inr ⟨x, xs, rfl, h⟩

/-- The lexemes are read as a statement. -/
def ReadsStatement (xs : List Lexeme) (n : Node) : Prop :=
  ∀ d c s rest, Room d c false xs → s.Faces (xs ++ rest) → Behind n rest →
    Gives (Grammar.ofDepth d).statementRule c s (Stands n rest)

section

variable {g : Grammar} {c : Context} {s : State} {xs ys zs rest : List Lexeme} {e n : Node}
  {id : Nat} {span : Span} {k d : Nat}

/-- A phrase is read one level below by the rule for expressions. -/
theorem Phrase.gives_expression {noIn : Bool} (h : Phrase k noIn xs e) (hroom : Room d c noIn xs)
    (hs : s.Faces (xs ++ rest)) (hf : Spares Tightness.sequence rest) :
    Gives (Grammar.ofDepth (d + 1)).expression c s (Stands e rest) :=
  h.readable.items.expression hroom hs hf

theorem Phrase.gives_head (h : Phrase k false xs e) (hroom : Room d c false xs)
    (hs : s.Faces (inParens xs ++ rest)) :
    Gives (Grammar.ofDepth (d + 1)).head c s (Stands e rest) := by
  rw [inParens_append] at hs
  have hexpression := h.gives_expression (hroom.bracketed false) hs.next (.cons (by decide) rest)
  refine .bind (.expect hs.kind (.step (.withIn hexpression) fun n s1 hn => ?_))
  exact .bind (.expect hn.2.kind (.pure ⟨hn.1, hn.2.next⟩))

/-- An expression as a statement is read as one: it is no label, and starts with no word that a
statement starts with. -/
theorem Phrase.readsStatement (h : Phrase k false xs e) :
    ReadsStatement (xs ++ [.mark .semicolon]) (.mk id span (.expressionStatement e)) := by
  intro d c s rest hroom hs _
  obtain ⟨d, rfl, hbelow⟩ := hroom.below (by simp)
  have hroom' := hbelow xs (by simp)
  rw [List.append_assoc, List.singleton_append] at hs
  have hopens := h.starts.opens_current hs
  have hasync : s.current.kind ≠ .keyword .kwAsync := TokenKind.ne_of_opens hopens rfl
  have hlabel : (nextToken s.behind).1.kind ≠ .punctuator .colon :=
    h.starts.peek_ne rfl hs (by simp)
  have hexpression : Gives (Grammar.ofDepth (d + 1)).expressionStatement c s
      (Stands (.mk id span (.expressionStatement e)) rest) := by
    refine .bind (.here (.step (h.gives_expression hroom' hs (.cons (by decide) rest)) ?_))
    intro n s1 hn
    refine .bind (.semicolon hn.2.kind (.node fun span => ⟨?_, hn.2.next.counted⟩))
    exact Node.shape_congr (by simp only [Kind.map, hn.1])
  refine .bind (.here (.bind (.startsAsyncFunction hasync (.iteFalse Bool.false_ne_true
    (.bind (.current ?_))))))
  split
  case h_20 => exact .bind (.peek (.iteFalse hlabel hexpression))
  case h_21 => exact hexpression
  all_goals
    rename_i hk
    rw [hk] at hopens
    cases hopens

theorem ReadsStatement.gives (h : ReadsStatement xs n) (hroom : Room d c false xs)
    (hs : s.Faces (xs ++ rest)) (hb : Behind n rest) :
    Gives (Grammar.ofDepth (d + 1)).statement c s (Stands n rest) :=
  h d c s rest hroom hs hb

theorem readsStatement_empty :
    ReadsStatement [.mark .semicolon] (.mk id span .emptyStatement) := by
  intro d c s rest _ hs _
  have hkind : s.current.kind = .punctuator .semicolon := hs.kind
  have hasync : s.current.kind ≠ .keyword .kwAsync := hkind ▸ nofun
  refine .bind (.here (.bind (.startsAsyncFunction hasync (.iteFalse nofun (.bind (.current ?_))))))
  rw [hkind]
  exact .bind (.advance (.node fun span => ⟨Node.shape_congr rfl, hs.next.counted⟩))

/-! ### Lists of statements -/

/-- Each statement of a list takes no more lexemes than the list, and at least one of them. -/
theorem length_flatMap_of_begins {items : List (List Lexeme × Node)}
    (hbegins : ∀ p ∈ items, Begins p.1) :
    (∀ p ∈ items, p.1.length ≤ (items.flatMap (·.1)).length) ∧
      items.length ≤ (items.flatMap (·.1)).length := by
  induction items with
  | nil => exact ⟨List.forall_mem_nil _, Nat.le_refl _⟩
  | cons p items ih =>
    obtain ⟨hall, hcount⟩ := ih fun q hq => hbegins q (List.mem_cons_of_mem _ hq)
    obtain ⟨x, rest, hp, -⟩ := hbegins p List.mem_cons_self
    rw [List.flatMap_cons, List.length_append, List.length_cons]
    refine ⟨List.forall_mem_cons.mpr ⟨Nat.le_add_right _ _, fun q hq => ?_⟩, ?_⟩
    · exact Nat.le_trans (hall q hq) (Nat.le_add_left _ _)
    · rw [hp, List.length_cons]
      omega

/-- The loop over a list of statements reads them all, if `item` reads each of them. -/
theorem gives_statementRounds {ends : TokenKind → Bool} {item : Parser (List Node × Bool)}
    {items : List (List Lexeme × Node)} {x : Lexeme} (hends : ends x.kind = true)
    (hx : x.kind ≠ .keyword .kwElse)
    (hgoes : ∀ kind : TokenKind, kind.begins = true → ends kind = false)
    (hbegins : ∀ p ∈ items, Begins p.1)
    (hitem : ∀ p ∈ items, ∀ s rest, s.Faces (p.1 ++ rest) → Behind p.2 rest →
      Gives item c s fun r s' => ∃ n, r = ([n], true) ∧ Stands p.2 rest n s')
    (acc : List Node) (s : State) (bound : Nat) (hbound : items.length < bound)
    (hs : s.Faces (items.flatMap (·.1) ++ x :: rest)) :
    Gives (loopWithin (Grammar.listRound ends item) bound acc) c s fun ns s' =>
      ∃ ms : List Node, ms.map Node.shape = (items.map (·.2)).map Node.shape ∧ ns = acc ++ ms ∧
        s'.Faces (x :: rest) := by
  induction items generalizing acc s bound with
  | nil =>
    obtain ⟨bound, rfl⟩ : ∃ b, bound = b + 1 := ⟨bound - 1, by omega⟩
    have hkind : ends s.current.kind = true := hs.kind ▸ hends
    exact .round (.bind (.current (.iteTrue hkind (.pure ⟨[], rfl, by simp, hs⟩))))
  | cons p items ih =>
    obtain ⟨bound, rfl⟩ : ∃ b, bound = b + 1 := ⟨bound - 1, by omega⟩
    rw [List.flatMap_cons, List.append_assoc] at hs
    have hbehind : Behind p.2 (items.flatMap (·.1) ++ x :: rest) := by
      cases items with
      | nil => exact .cons hx rest
      | cons q items =>
        obtain ⟨y, ys, hq, hy, -⟩ := hbegins q (by simp)
        rw [List.flatMap_cons, hq]
        exact .cons (TokenKind.ne_of_begins hy rfl) _
    have hkind : ends s.current.kind = false := by
      obtain ⟨y, ys, hp, hy, -⟩ := hbegins p List.mem_cons_self
      rw [hp] at hs
      exact hs.kind ▸ hgoes _ hy
    have hread := hitem p List.mem_cons_self s _ hs hbehind
    refine .round (.bind (.current (.iteFalse (by simp [hkind]) (.step hread ?_))))
    rintro r s1 ⟨n, rfl, hn⟩
    refine .iteTrue rfl (.pure ((ih (fun q hq => hbegins q (List.mem_cons_of_mem _ hq))
      (fun q hq => hitem q (List.mem_cons_of_mem _ hq)) _ s1 bound
      (Nat.lt_of_succ_lt_succ hbound) hn.2).mono ?_))
    rintro ns s2 ⟨ms, hms, rfl, hs2⟩
    exact ⟨n :: ms, congrArg₂ List.cons hn.1 hms, by simp, hs2⟩

/-- Statements are read one behind the other up to a token that ends them. -/
theorem gives_statements {ends : TokenKind → Bool} {item : Parser (List Node × Bool)}
    {items : List (List Lexeme × Node)} {x : Lexeme} (hends : ends x.kind = true)
    (hx : x.kind ≠ .keyword .kwElse)
    (hgoes : ∀ kind : TokenKind, kind.begins = true → ends kind = false)
    (hbegins : ∀ p ∈ items, Begins p.1)
    (hitem : ∀ p ∈ items, ∀ s rest, s.Faces (p.1 ++ rest) → Behind p.2 rest →
      Gives item c s fun r s' => ∃ n, r = ([n], true) ∧ Stands p.2 rest n s')
    (hbound : (items.flatMap (·.1)).length < c.bound)
    (hs : s.Faces (items.flatMap (·.1) ++ x :: rest)) :
    Gives (listUntil ends item) c s fun ns s' =>
      ns.map Node.shape = (items.map (·.2)).map Node.shape ∧ s'.Faces (x :: rest) := by
  have hcount := (length_flatMap_of_begins hbegins).2
  rw [Grammar.listUntil_eq]
  refine .loop ((gives_statementRounds hends hx hgoes hbegins hitem [] s c.bound (by omega) hs).mono
    ?_)
  rintro ns s' ⟨ms, hms, rfl, hs'⟩
  exact ⟨hms, hs'⟩

theorem readsStatement_block {items : List (List Lexeme × Node)}
    (hbegins : ∀ p ∈ items, Begins p.1)
    (h : ∀ p ∈ items, ReadsStatement p.1 p.2) :
    ReadsStatement (inBraces (items.flatMap (·.1)))
      (.mk id span (.blockStatement (items.map (·.2)))) := by
  intro d c s rest hroom hs _
  obtain ⟨d, rfl, hbelow⟩ := hroom.below (List.cons_ne_nil _ _)
  have hroom' := hbelow (items.flatMap (·.1)) (by rw [length_inBraces]; omega)
  have hkind : s.current.kind = .punctuator .leftBrace := hs.kind
  have hasync : s.current.kind ≠ .keyword .kwAsync := hkind ▸ nofun
  have hnext : s.next.Faces (items.flatMap (·.1) ++ .mark .rightBrace :: rest) := by
    simpa [inBraces] using hs.next
  refine .bind (.here (.bind (.startsAsyncFunction hasync (.iteFalse nofun (.bind (.current ?_))))))
  rw [hkind]
  refine .bind (.here (.bind (.bind (.expect hkind (.step
    (gives_statements (x := .mark .rightBrace) rfl nofun ?_ hbegins ?_ hroom'.bound hnext) ?_)))))
  · intro kind hk
    have hbrace : kind ≠ .punctuator .rightBrace := TokenKind.ne_of_begins hk rfl
    have heof : kind ≠ .eof := TokenKind.ne_of_begins hk rfl
    simp [hbrace, heof]
  · intro p hp s rest hs hbehind
    have hroomp := hroom'.shorter ((length_flatMap_of_begins hbegins).1 p hp)
    refine .step ((h p hp).gives hroomp hs hbehind) fun n s1 hn => ?_
    exact .pure ⟨n, rfl, hn⟩
  · rintro ns s1 ⟨hns, hs1⟩
    refine .bind (.expect hs1.kind (.pure (.node fun span => ⟨?_, hs1.next.counted⟩)))
    exact Node.shape_congr (by rw [Kind.map, Kind.map, hns])

/-! ### Choices and loops -/

theorem ReadsStatement.ifThen {test consequent : Node} (ht : Phrase k false xs test)
    (hc : ReadsStatement ys consequent) :
    ReadsStatement (.word .kwIf :: (inParens xs ++ ys))
      (.mk id span (.ifStatement test consequent none)) := by
  intro d c s rest hroom hs hbehind
  obtain ⟨d, rfl, hbelow⟩ := hroom.below (List.cons_ne_nil _ _)
  obtain ⟨x, rest, rfl, hx⟩ : ∃ x xs, rest = x :: xs ∧ x.kind ≠ .keyword .kwElse :=
    hbehind.resolve_left nofun
  have hkind : s.current.kind = .keyword .kwIf := hs.kind
  have hasync : s.current.kind ≠ .keyword .kwAsync := hkind ▸ nofun
  have hnext : s.next.Faces (inParens xs ++ (ys ++ x :: rest)) := by simpa using hs.next
  refine .bind (.here (.bind (.startsAsyncFunction hasync (.iteFalse nofun (.bind (.current ?_))))))
  rw [hkind]
  simp only [List.length_cons, List.length_append, length_inParens] at hbelow
  have hroomt := hbelow xs (by omega)
  have hroomc := hbelow ys (by omega)
  refine .bind (.here (.bind (.advance (.step (ht.gives_head hroomt hnext) fun m s1 hm => ?_))))
  refine .step (hc.gives hroomc hm.2 (.cons hx rest)) fun n s2 hn => ?_
  refine .bind (.eatWordNot (hn.2.kind ▸ hx) (.iteFalse nofun (.bind (.pure (.node ?_)))))
  exact fun span => ⟨Node.shape_congr (by simp [Kind.map, hm.1, hn.1]), hn.2.counted⟩

/-- The `else` behind the first statement belongs to this choice, as that statement is a block. -/
theorem ReadsStatement.ifElse {test consequent alternate : Node} (ht : Phrase k false xs test)
    (hc : ReadsStatement ys consequent) (hblock : consequent.isBlock = true)
    (ha : ReadsStatement zs alternate) :
    ReadsStatement (.word .kwIf :: (inParens xs ++ (ys ++ .word .kwElse :: zs)))
      (.mk id span (.ifStatement test consequent (some alternate))) := by
  intro d c s rest hroom hs hbehind
  obtain ⟨d, rfl, hbelow⟩ := hroom.below (List.cons_ne_nil _ _)
  simp only [List.length_cons, List.length_append, length_inParens] at hbelow
  have hroomt := hbelow xs (by omega)
  have hroomc := hbelow ys (by omega)
  have hrooma := hbelow zs (by omega)
  have hkind : s.current.kind = .keyword .kwIf := hs.kind
  have hasync : s.current.kind ≠ .keyword .kwAsync := hkind ▸ nofun
  have hnext : s.next.Faces (inParens xs ++ (ys ++ .word .kwElse :: (zs ++ rest))) := by
    simpa using hs.next
  refine .bind (.here (.bind (.startsAsyncFunction hasync (.iteFalse nofun (.bind (.current ?_))))))
  rw [hkind]
  refine .bind (.here (.bind (.advance (.step (ht.gives_head hroomt hnext) fun m s1 hm => ?_))))
  refine .step (hc.gives hroomc hm.2 (.inl hblock)) fun n s2 hn => ?_
  refine .bind (.eatWord hn.2.kind (.iteTrue rfl ?_))
  refine .step (ha.gives hrooma hn.2.next (hbehind.imp_left nofun)) fun n' s3 hn' => ?_
  refine .bind (.pure (.node fun span => ⟨Node.shape_congr ?_, hn'.2.counted⟩))
  simp [Kind.map, hm.1, hn.1, hn'.1]

theorem ReadsStatement.whileLoop {test body : Node} (ht : Phrase k false xs test)
    (hb : ReadsStatement ys body) :
    ReadsStatement (.word .kwWhile :: (inParens xs ++ ys))
      (.mk id span (.whileStatement test body)) := by
  intro d c s rest hroom hs hbehind
  obtain ⟨d, rfl, hbelow⟩ := hroom.below (List.cons_ne_nil _ _)
  simp only [List.length_cons, List.length_append, length_inParens] at hbelow
  have hroomt := hbelow xs (by omega)
  have hroomb := hbelow ys (by omega)
  have hkind : s.current.kind = .keyword .kwWhile := hs.kind
  have hasync : s.current.kind ≠ .keyword .kwAsync := hkind ▸ nofun
  have hnext : s.next.Faces (inParens xs ++ (ys ++ rest)) := by simpa using hs.next
  refine .bind (.here (.bind (.startsAsyncFunction hasync (.iteFalse nofun (.bind (.current ?_))))))
  rw [hkind]
  refine .bind (.here (.bind (.advance (.step (ht.gives_head hroomt hnext) fun m s1 hm => ?_))))
  refine .step (hb.gives hroomb hm.2 (hbehind.imp_left nofun)) fun n s2 hn => ?_
  refine .node fun span => ⟨Node.shape_congr ?_, hn.2.counted⟩
  simp [Kind.map, hm.1, hn.1]

theorem ReadsStatement.doWhile {test body : Node} (ht : Phrase k false xs test)
    (hb : ReadsStatement ys body) :
    ReadsStatement (.word .kwDo :: (ys ++ .word .kwWhile :: (inParens xs ++ [.mark .semicolon])))
      (.mk id span (.doWhileStatement body test)) := by
  intro d c s rest hroom hs _
  obtain ⟨d, rfl, hbelow⟩ := hroom.below (List.cons_ne_nil _ _)
  simp only [List.length_cons, List.length_append, length_inParens, List.length_nil] at hbelow
  have hroomt := hbelow xs (by omega)
  have hroomb := hbelow ys (by omega)
  have hkind : s.current.kind = .keyword .kwDo := hs.kind
  have hasync : s.current.kind ≠ .keyword .kwAsync := hkind ▸ nofun
  have hnext : s.next.Faces
      (ys ++ .word .kwWhile :: (inParens xs ++ .mark .semicolon :: rest)) := by
    simpa using hs.next
  refine .bind (.here (.bind (.startsAsyncFunction hasync (.iteFalse nofun (.bind (.current ?_))))))
  rw [hkind]
  refine .bind (.here (.bind (.advance (.step (hb.gives hroomb hnext ?_) ?_))))
  · exact .cons (x := .word .kwWhile) nofun _
  intro n s1 hn
  refine .bind (.expectWord hn.2.kind (.step (ht.gives_head hroomt hn.2.next) fun m s2 hm => ?_))
  refine .bind (.eat hm.2.kind (.node fun span => ⟨Node.shape_congr ?_, hm.2.next.counted⟩))
  simp [Kind.map, hm.1, hn.1]

theorem ReadsStatement.labeled {label : String} {body : Node} (hb : ReadsStatement ys body) :
    ReadsStatement (.name label :: .mark .colon :: ys)
      (.mk id span (.labeledStatement label body)) := by
  intro d c s rest hroom hs hbehind
  obtain ⟨d, rfl, hbelow⟩ := hroom.below (List.cons_ne_nil _ _)
  simp only [List.length_cons] at hbelow
  have hroomb := hbelow ys (by omega)
  have hkind : s.current.kind = .identifier label := hs.kind
  have hasync : s.current.kind ≠ .keyword .kwAsync := hkind ▸ nofun
  have hcolon : (nextToken s.behind).1.kind = .punctuator .colon := hs.peek
  refine .bind (.here (.bind (.startsAsyncFunction hasync (.iteFalse nofun (.bind (.current ?_))))))
  rw [hkind]
  refine .bind (.peek (.iteTrue hcolon (.bind (.here (.bind (.advance (.bind (.advance ?_))))))))
  refine .step (hb.gives hroomb hs.next.next (hbehind.imp_left nofun)) fun n s1 hn => ?_
  refine .node fun span => ⟨Node.shape_congr ?_, hn.2.counted⟩
  simp [Kind.map, hn.1]

/-! ### Loops with three parts -/

/-- A part of the head of a loop is read up to the mark behind it. -/
theorem gives_forPart {part : Option Part}
    (hp : ∀ p ∈ part, Phrase p.level false p.lexemes p.node) {ends : Punctuator}
    (hends : (TokenKind.punctuator ends).opens = false)
    (hdemand : (TokenKind.punctuator ends).demand = Tightness.sequence)
    (hroom : Room d c false (Part.optional part))
    (hs : s.Faces (Part.optional part ++ .mark ends :: rest)) :
    Gives ((Grammar.ofDepth (d + 1)).forPart ends) c s fun n s' =>
      n.map Node.shape = (part.map (·.node)).map Node.shape ∧ s'.Faces (.mark ends :: rest) := by
  cases part with
  | none => exact .bind (.sees (.iteTrue (decide_eq_true hs.kind) (.pure ⟨rfl, hs⟩)))
  | some p =>
    have hphrase := hp p rfl
    have hne := TokenKind.ne_of_opens (hphrase.starts.opens_current hs) hends
    have hexpression := hphrase.gives_expression (hroom.bracketed false) hs
      (.cons (Nat.le_of_eq hdemand) rest)
    refine .bind (.sees (.iteFalse (by simp [hne]) (.step (.withIn hexpression) ?_)))
    exact fun n s1 hn => .pure ⟨congrArg some hn.1, hn.2⟩

/-- The first part is read without `in` as an operator. -/
theorem gives_forInit {part : Option Part}
    (hp : ∀ p ∈ part, Phrase p.level true p.lexemes p.node)
    (hroom : Room d c false (Part.optional part))
    (hs : s.Faces (Part.optional part ++ .mark .semicolon :: rest)) :
    Gives (Grammar.ofDepth (d + 1)).forInit c s fun n s' =>
      n.map Node.shape = (part.map (·.node)).map Node.shape ∧
        s'.Faces (.mark .semicolon :: rest) := by
  cases part with
  | none => exact .bind (.current (.iteTrue hs.kind (.pure ⟨rfl, hs⟩)))
  | some p =>
    have hphrase := hp p rfl
    have hopens := hphrase.starts.opens_current hs
    have hne : s.current.kind ≠ .punctuator .semicolon := TokenKind.ne_of_opens hopens rfl
    have hvariable : Grammar.variableKind? s.current.kind = none := by
      unfold Grammar.variableKind?
      split
      case h_4 => rfl
      all_goals
        rename_i hk
        rw [hk] at hopens
        cases hopens
    have hexpression := hphrase.gives_expression
      (c := { c with allowIn := false }) ⟨hroom.depth, hroom.bound, nofun⟩ hs
      (.cons (by decide) rest)
    refine .bind (.current (.iteFalse hne ?_))
    rw [hvariable]
    exact .step (.withIn hexpression) fun n s1 hn => .pure ⟨congrArg some hn.1, hn.2⟩

theorem ReadsStatement.forLoop {init test update : Option Part} {body : Node}
    (hi : ∀ p ∈ init, Phrase p.level true p.lexemes p.node)
    (ht : ∀ p ∈ test, Phrase p.level false p.lexemes p.node)
    (hu : ∀ p ∈ update, Phrase p.level false p.lexemes p.node) (hb : ReadsStatement ys body) :
    ReadsStatement (.word .kwFor :: .mark .leftParen :: (Part.optional init ++ .mark .semicolon ::
        (Part.optional test ++ .mark .semicolon ::
          (Part.optional update ++ .mark .rightParen :: ys))))
      (.mk id span (.forStatement (init.map (·.node)) (test.map (·.node)) (update.map (·.node))
        body)) := by
  intro d c s rest hroom hs hbehind
  obtain ⟨d, rfl, hbelow⟩ := hroom.below (List.cons_ne_nil _ _)
  simp only [List.length_cons, List.length_append] at hbelow
  have hroomi := hbelow (Part.optional init) (by omega)
  have hroomt := hbelow (Part.optional test) (by omega)
  have hroomu := hbelow (Part.optional update) (by omega)
  have hroomb := hbelow ys (by omega)
  have hkind : s.current.kind = .keyword .kwFor := hs.kind
  have hasync : s.current.kind ≠ .keyword .kwAsync := hkind ▸ nofun
  have hparen : s.next.current.kind = .punctuator .leftParen := hs.next.kind
  have hawait : s.next.current.kind ≠ .keyword .kwAwait := hparen ▸ nofun
  have hnext : s.next.next.Faces (Part.optional init ++ .mark .semicolon ::
      (Part.optional test ++ .mark .semicolon ::
        (Part.optional update ++ .mark .rightParen :: (ys ++ rest)))) := by
    simpa using hs.next.next
  refine .bind (.here (.bind (.startsAsyncFunction hasync (.iteFalse nofun (.bind (.current ?_))))))
  rw [hkind]
  refine .bind (.here (.bind (.advance (.bind (.eatWordNot hawait (.bind (.expect hparen ?_)))))))
  refine .step (gives_forInit hi hroomi hnext) fun i s1 hi' => ?_
  have hsemicolon : s1.current.kind = .punctuator .semicolon := hi'.2.kind
  refine .bind (.seesName (.bind (.seesWord ?_)))
  rw [hsemicolon]
  split
  case h_1 hname => cases hname
  refine .bind (.expect hsemicolon (.step (gives_forPart ht rfl rfl hroomt hi'.2.next) ?_))
  intro t s2 ht'
  refine .bind (.expect ht'.2.kind (.step (gives_forPart hu rfl rfl hroomu ht'.2.next) ?_))
  intro u s3 hu'
  refine .bind (.expect hu'.2.kind ?_)
  refine .step (hb.gives hroomb hu'.2.next (hbehind.imp_left nofun)) fun n s4 hn => ?_
  refine .node fun span => ⟨Node.shape_congr ?_, hn.2.counted⟩
  rw [Kind.map, Kind.map, hi'.1, ht'.1, hu'.1, hn.1]

/-! ### The theorem -/

/-- **Statements are read as the trees that they stand for**, in front of anything but an `else`. -/
theorem Clause.reads (h : Clause xs n) : ReadsStatement xs n := by
  induction h with
  | expression h => exact h.readsStatement
  | empty => exact readsStatement_empty
  | block h ih => exact readsStatement_block (fun p hp => (h p hp).begins) ih
  | ifThen ht _ ih => exact .ifThen ht ih
  | ifElse ht _ hblock _ ihc iha => exact .ifElse ht ihc hblock iha
  | whileLoop ht _ ih => exact .whileLoop ht ih
  | doWhile ht _ ih => exact .doWhile ht ih
  | forLoop hi ht hu _ ih => exact .forLoop hi ht hu ih
  | labeled _ ih => exact ih.labeled

end

end EsModule.Syntax
