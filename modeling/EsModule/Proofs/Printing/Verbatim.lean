import EsModule.Proofs.Grammar.Inside
import EsModule.Proofs.Layout.Tree
import EsModule.Proofs.Lexis.Delimiter
import EsModule.Proofs.Printing.Operation

/-!
# Literals that are their text

The tree keeps regular expressions, templates and BigInts as they are written. So what is printed
for them is read again as the same tokens: a regular expression from its first mark on, and each
chunk of a template from the brace that ends the substitution in front of it.
-/

namespace EsModule.Syntax

open EsModule.Text Pieces

/-! ## Reading again -/

/-- The token at a place, read a second time from its first character on by another rule. -/
def rereadToken (rule : Nat → Cursor → Token × Cursor) (c : Cursor) : Token × Cursor :=
  rule (nextToken c).1.span.start (skipTrivia c).2.advance

/-- Whether a text is read as a regular expression in front of another text: its first mark is an
operator by itself, and is then read again. -/
structure ReadsRegExp (text : List Char) (pattern flags : String) (r : List Char) : Prop where
  /-- The mark is a slash, perhaps with an equals sign behind it. -/
  mark : ∀ pos, (nextToken ⟨pos, text ++ r⟩).1.kind = .punctuator .slash ∨
    (nextToken ⟨pos, text ++ r⟩).1.kind = .punctuator .slashEqual
  /-- From the slash on, the whole text is the regular expression. -/
  again : ∀ pos, rereadToken rescanRegExp ⟨pos, text ++ r⟩ =
    (⟨.regExp pattern flags, ⟨pos, pos + byteSize text⟩, false⟩, ⟨pos + byteSize text, r⟩)

/-- Whether chunks are read from a token on, up to some place, with substitutions between them: what
follows each substitution is a brace, and is then read again as the next chunk. -/
inductive ReadsChunks (stop : Cursor) : Token × Cursor → List Chunk → List (List Char) → Prop where
  | last {token chunk} (h : token.kind = .template chunk true) :
      ReadsChunks stop (token, stop) [chunk] []
  | more {token behind brace chunk chunks substitution substitutions}
      (h : token.kind = .template chunk false) (hs : behind.Moves substitution brace)
      (hb : (nextToken brace).1.kind = .punctuator .rightBrace)
      (hmore : ReadsChunks stop (rereadToken rescanTemplate brace) chunks substitutions) :
      ReadsChunks stop (token, behind) (chunk :: chunks) (substitution :: substitutions)

theorem nextToken_mark (mark : Punctuator) {r : List Char} (h : MarkEnds mark r) (pos : Nat) :
    (nextToken ⟨pos, mark.text.toList ++ r⟩).1.kind = .punctuator mark := by
  rw [(isToken_punctuator h).nextToken pos]

theorem rereadToken_of_skipOne? {rule : Nat → Cursor → Token × Cursor} {pos : Nat} {ch : Char}
    {cs : List Char} (h : skipOne? ⟨pos, ch :: cs⟩ = none) :
    rereadToken rule ⟨pos, ch :: cs⟩ = rule pos ⟨pos + ch.utf8Size, cs⟩ := by
  rw [rereadToken, nextToken_eq, skipTrivia_of_none h, Cursor.advance_cons]

/-! ## What is printed -/

theorem chars_bare (n : Node) (l : Layout) :
    (n.roles.bare l).chars = (bareText (n.kind.map fun c => (c, c.roles)) l).chars := by
  rw [Node.roles_eq]
  exact (chars_append _ _).trans (by rw [chars_mark, List.nil_append])

theorem chars_regExp {n : Node} {pattern flags : String}
    (h : n.kind = .literal (.regExp pattern flags)) (l : Layout) :
    (n.roles.bare l).chars = '/' :: (pattern.toList ++ '/' :: flags.toList) := by
  rw [chars_bare, h]
  simp [Kind.map, bareText, literalText]

theorem chars_bigInt {n : Node} {digits : String} (h : n.kind = .literal (.bigInt digits))
    (l : Layout) : (n.roles.bare l).chars = digits.toList ++ ['n'] := by
  rw [chars_bare, h]
  simp [Kind.map, bareText, literalText]

/-- The text of a template behind the mark that opens it, with the given substitutions. -/
def templateChars : List Chunk → List (List Char) → List Char
  | [], _ => ['`']
  | q :: qs, [] => q.raw.toList ++ templateChars qs []
  | q :: qs, e :: es => q.raw.toList ++ chunkEnd false ++ e ++ '}' :: templateChars qs es

theorem chars_templateText (l : Layout) (quasis : List Chunk) (expressions : List Child) :
    (templateText l quasis expressions).chars ++ ['`'] = templateChars quasis
      (expressions.map fun e => (e.2.expression l Tightness.sequence).chars) := by
  have hdollar : ("$" ++ openBrace).toList = chunkEnd false := rfl
  have hclose : closeBrace.toList = ['}'] := rfl
  fun_induction templateText l quasis expressions with
  | case1 => rw [chars_nil, templateChars, List.nil_append]
  | case2 q qs ih =>
    rw [chars_append, chars_say, List.append_assoc, ih]
    rfl
  | case3 q qs n e es ih =>
    rw [List.map_cons, templateChars, ← ih]
    simp only [chars_append, chars_say, hdollar, hclose, List.append_assoc, List.cons_append,
      List.nil_append]

theorem chars_template {n : Node} {quasis : List Chunk} {expressions : List Node}
    (h : n.kind = .templateLiteral quasis expressions) (l : Layout) :
    (n.roles.bare l).chars = '`' :: templateChars quasis
      (expressions.map fun e => (e.roles.expression l Tightness.sequence).chars) := by
  have hback : "`".toList = ['`'] := rfl
  have hmap : (Kind.templateLiteral quasis expressions).map (fun c => (c, c.roles)) =
      .templateLiteral quasis (expressions.map fun c => (c, c.roles)) := rfl
  have hchars := chars_templateText l quasis (expressions.map fun c => (c, c.roles))
  rw [List.map_map] at hchars
  rw [chars_bare, h, hmap, bareText, chars_append, chars_append, chars_say, hback,
    List.append_assoc, hchars]
  rfl

/-! ## Tokens of printed literals -/

theorem Punctuator.eq_of_extendedBy_slash {ch : Char} (h : slash.extendedBy ch = true) :
    ch = '=' := by
  obtain ⟨p, -, hp⟩ := List.any_eq_true.mp h
  obtain ⟨more, hmore⟩ := List.isPrefixOf_iff_prefix.mp hp
  cases p <;> simp_all [Punctuator.text]

/-- A regular expression is read again in front of what does not go on with its flags. -/
theorem IsRegExp.reads {pattern flags : String} (h : IsRegExp pattern flags) {r : List Char}
    (hr : NameEnds r) :
    ReadsRegExp ('/' :: (pattern.toList ++ '/' :: flags.toList)) pattern flags r := by
  obtain ⟨ch, hch, hslash, hstar⟩ := h.head
  obtain ⟨p, hp⟩ := List.head?_eq_some_iff.mp hch
  have hcomment : ∀ cs, (ch :: cs).head? ≠ some '/' ∧ (ch :: cs).head? ≠ some '*' := by
    intro cs
    exact ⟨fun heq => hslash (Option.some.inj heq), fun heq => hstar (Option.some.inj heq)⟩
  refine ⟨fun pos => ?_, fun pos => ?_⟩
  · rw [hp]
    by_cases heq : ch = '='
    · subst heq
      exact .inr (nextToken_mark .slashEqual (markEnds_of_isClosed rfl _) pos)
    · refine .inl (nextToken_mark .slash ⟨?_, fun _ => hcomment _, ?_⟩ pos)
      · intro d hd
        obtain rfl : ch = d := Option.some.inj hd
        rw [← Bool.not_eq_true]
        exact fun hext => heq (Punctuator.eq_of_extendedBy_slash hext)
      · rintro (hmark | hmark) <;> cases hmark
  · have hstart : skipOne? ⟨pos, '/' :: (pattern.toList ++ '/' :: flags.toList ++ r)⟩ = none :=
      skipOne?_of_slash (hp ▸ hcomment _)
    have htake := takes_regExpBody h.body h.flags hr (pos + '/'.utf8Size)
    rw [List.cons_append, rereadToken_of_skipOne? hstart, rescanRegExp, htake, byteSize_cons,
      Nat.add_assoc]

/-- The first chunk of a template is read as the others are. -/
theorem nextToken_backquote (pos : Nat) (cs : List Char) :
    nextToken ⟨pos, '`' :: cs⟩ = rescanTemplate pos ⟨pos + '`'.utf8Size, cs⟩ := by
  have hstart : skipOne? ⟨pos, '`' :: cs⟩ = none :=
    skipOne?_of_head (by decide) (by decide) (by decide)
  rw [nextToken_eq, skipTrivia_of_none hstart]
  rfl

theorem rescanTemplate_of_takes {w r : List Char} {kind : TokenKind}
    (h : Takes templateChunk w kind r) (start pos : Nat) :
    rescanTemplate start ⟨pos, w ++ r⟩ =
      (⟨kind, ⟨start, pos + byteSize w⟩, false⟩, ⟨pos + byteSize w, r⟩) := by
  rw [rescanTemplate, h pos]

/-- Behind a substitution the brace is read, and then the next chunk from there. -/
theorem rereadToken_brace (rule : Nat → Cursor → Token × Cursor) (pos : Nat) (cs : List Char) :
    (nextToken ⟨pos, '}' :: cs⟩).1.kind = .punctuator .rightBrace ∧
      rereadToken rule ⟨pos, '}' :: cs⟩ = rule pos ⟨pos + '}'.utf8Size, cs⟩ :=
  ⟨nextToken_mark .rightBrace (markEnds_of_isClosed rfl _) pos,
    rereadToken_of_skipOne? (skipOne?_of_head (by decide) (by decide) (by decide))⟩

/-- The chunks of a template are read again, and end where its text does. -/
theorem TemplateChunks.reads {quasis : List Chunk} {n : Nat} (h : TemplateChunks quasis n)
    {substitutions : List (List Char)} (hn : substitutions.length = n) {start pos stop : Nat}
    (hstop : stop = pos + byteSize (templateChars quasis substitutions)) (r : List Char) :
    ReadsChunks ⟨stop, r⟩ (rescanTemplate start ⟨pos, templateChars quasis substitutions ++ r⟩)
      quasis substitutions := by
  induction h generalizing substitutions start pos with
  | last h =>
    obtain rfl := List.eq_nil_of_length_eq_zero hn
    have htoken := rescanTemplate_of_takes (h r) start pos
    rw [chunkEnd, if_pos rfl] at htoken
    rw [templateChars, templateChars] at hstop ⊢
    rw [htoken, ← hstop]
    exact .last rfl
  | @more chunk chunks n h ht ih =>
    cases substitutions with
    | nil => cases hn
    | cons e es =>
    rw [templateChars] at hstop ⊢
    have hbehind := h (e ++ '}' :: (templateChars chunks es ++ r))
    have htoken := rescanTemplate_of_takes hbehind start pos
    obtain ⟨hbrace, hreread⟩ := rereadToken_brace rescanTemplate
      (pos + byteSize (chunk.raw.toList ++ chunkEnd false) + byteSize e)
      (templateChars chunks es ++ r)
    rw [List.append_assoc _ e, List.append_assoc, List.append_assoc e, List.cons_append, htoken]
    refine .more rfl ⟨rfl, rfl⟩ hbrace (hreread ▸ ih (Nat.succ.inj hn) ?_)
    rw [hstop, byteSize_append, byteSize_append, byteSize_cons]
    omega

/-! ## Literals of a tree -/

/-- A regular expression is kept as it is written. -/
structure KeptRegExp (source : List Char) (n : Node) (pattern flags : String) : Prop where
  /-- The source has it where the node is. -/
  written : n.span.Covers source ('/' :: pattern.toList ++ '/' :: flags.toList)
  /-- No line ends in its pattern. -/
  oneLine : ∀ ch ∈ pattern.toList, isLineTerminator ch = false
  /-- A slash in the pattern is escaped or in a class. -/
  slashes : ∀ u v, pattern.toList = u ++ '/' :: v → Escaped u ∨ InClass u
  /-- What is printed is read again, in front of what does not go on with its flags. -/
  reread : ∀ l r, NameEnds r → ReadsRegExp (n.roles.bare l).chars pattern flags r

/-- A template is kept as it is written, but for its substitutions. -/
structure KeptTemplate (source : List Char) (n : Node) (quasis : List Chunk)
    (expressions : List Node) : Prop where
  /-- The source has its chunks where the node is, each of them between its delimiters. -/
  written : n.span.CoversTemplate source quasis (expressions.map Node.span)
  /-- What could end a chunk is escaped in it. -/
  ends : ∀ q ∈ quasis, ∀ u v, q.raw.toList = u ++ v → StartsEnd v → Escaped u
  /-- What is printed is read again, up to its end, with the substitutions as they are printed. -/
  reread : ∀ l r pos, ReadsChunks ⟨pos + byteSize (n.roles.bare l).chars, r⟩
    (nextToken ⟨pos, (n.roles.bare l).chars ++ r⟩) quasis
    (expressions.map fun e => (e.roles.expression l Tightness.sequence).chars)

/-- A BigInt is printed as a token with its digits, in front of what does not go on with it. -/
def KeptBigInt (n : Node) (digits : String) : Prop :=
  ∀ l r pos, NameEnds r → nextToken ⟨pos, (n.roles.bare l).chars ++ r⟩ =
    (⟨.bigInt digits, ⟨pos, pos + byteSize (n.roles.bare l).chars⟩, false⟩,
      ⟨pos + byteSize (n.roles.bare l).chars, r⟩)

namespace Node

/-- Whether a node is read from its spelling, if it is a literal or a template. -/
def LiteralSpelled (n : Node) : Prop :=
  match n.kind with
  | .literal value => value.Spelled
  | .templateLiteral quasis expressions => TemplateChunks quasis expressions.length
  | _ => True

/-- Whether what a tree says of a literal is what is written. -/
def KeepsLiteral (source : List Char) (n : Node) : Prop :=
  match n.kind with
  | .literal (.regExp pattern flags) => KeptRegExp source n pattern flags
  | .literal (.bigInt digits) => KeptBigInt n digits
  | .templateLiteral quasis expressions => KeptTemplate source n quasis expressions
  | _ => True

end Node

theorem Derives.literalSpelled {y : Bool} {nt : Nonterminal} {n : Node} (h : Derives y nt n) :
    n.LiteralSpelled := by
  induction h with
  | literal h | literalKey h => exact h
  | template hq => exact hq
  | _ => first | assumption | trivial

theorem ModuleTree.literalSpelled {root : Node} {items : List Node} (h : ModuleTree root items) :
    ∀ n ∈ root.nodes, n.LiteralSpelled := by
  intro n hn
  refine h.of_derives (fun y nt n h => h.literalSpelled) ?_ hn
  intro n hother
  unfold Node.LiteralSpelled
  rcases hother with hk | hname | hremoved
  · rw [hk]
    trivial
  · unfold Node.name? at hname
    split at hname
    · rename_i hk
      rw [hk]
      trivial
    · cases hname
  · rw [n.kind_of_isRemoved hremoved]
    trivial

theorem keptRegExp {source : List Char} {n : Node} {pattern flags : String}
    (hk : n.kind = .literal (.regExp pattern flags)) (hv : n.Verbatim source)
    (hs : n.LiteralSpelled) : KeptRegExp source n pattern flags := by
  have hspelled : IsRegExp pattern flags := by rwa [Node.LiteralSpelled, hk] at hs
  refine ⟨?written, noLineEnd_of_splitRegExp hspelled.body, ?slashes, ?reread⟩
  case written =>
    rwa [Node.Verbatim, hk] at hv
  case slashes =>
    intro u v hslash
    exact slash_of_splitRegExp (p := []) hspelled.body not_escaped_nil nofun hslash
  case reread =>
    intro l r hr
    rw [chars_regExp hk]
    exact hspelled.reads hr

theorem TemplateChunks.endsEscaped {quasis : List Chunk} {n : Nat} (h : TemplateChunks quasis n) :
    ∀ q ∈ quasis, EndsEscaped q.raw.toList := by
  have hchunk : ∀ {chunk : Chunk} {closes : Bool}, chunk.Spelled closes →
      EndsEscaped chunk.raw.toList := fun h => endsEscaped_of_templateChunk (h [] 0)
  induction h with
  | last h => exact List.forall_mem_singleton.mpr (hchunk h)
  | more h _ ih => exact List.forall_mem_cons.mpr ⟨hchunk h, ih⟩

theorem keptTemplate {source : List Char} {n : Node} {quasis : List Chunk} {expressions : List Node}
    (hk : n.kind = .templateLiteral quasis expressions) (hv : n.Verbatim source)
    (hs : n.LiteralSpelled) : KeptTemplate source n quasis expressions := by
  have hspelled : TemplateChunks quasis expressions.length := by
    rwa [Node.LiteralSpelled, hk] at hs
  refine ⟨?written, ?ends, ?reread⟩
  case written =>
    rwa [Node.Verbatim, hk] at hv
  case ends =>
    intro q hq u v heq hend
    exact hspelled.endsEscaped q hq [] u v not_escaped_nil heq hend
  case reread =>
    intro l r pos
    rw [chars_template hk, List.cons_append, nextToken_backquote]
    exact hspelled.reads (by rw [List.length_map]) (by rw [byteSize_cons, Nat.add_assoc]) r

theorem keptBigInt {n : Node} {digits : String} (hk : n.kind = .literal (.bigInt digits))
    (hs : n.LiteralSpelled) : KeptBigInt n digits := by
  intro l r pos hr
  have hspelled : Spells (digits.toList ++ ['n']) (.bigInt digits) := by
    rwa [Node.LiteralSpelled, hk] at hs
  rw [chars_bigInt hk]
  have hall : (digits.toList ++ ['n']).all isNumeral = false := by
    rw [List.all_append]
    exact Bool.and_false _
  exact (hspelled r fun ch hch => ⟨hr ch hch, fun _ => hall⟩).nextToken pos

/-- Regular expressions, templates and BigInts are kept in the tree of an accepted source. -/
theorem literals_kept {source file : String} {root : Node}
    (h : parseModule source file = .ok root) :
    ∀ n ∈ root.nodes, n.KeepsLiteral source.toList := by
  intro n hn
  have htree := parseTree_of_parseModule h
  obtain ⟨items, hmodule⟩ := ModuleTree.of_parseTree htree
  have hverbatim := verbatim_of_parseTree htree n hn
  have hspelled := hmodule.literalSpelled n hn
  unfold Node.KeepsLiteral
  split
  · exact keptRegExp ‹_› hverbatim hspelled
  · exact keptBigInt ‹_› hspelled
  · exact keptTemplate ‹_› hverbatim hspelled
  · trivial

/-- A class with a slash in it, an escaped slash, an escape that is none in front of a substitution,
an escaped delimiter, and digits of a radix. -/
theorem literals_kept_escapes : ∃ root,
    parseModule "x = [/[/\\]]\\//gu, f`\\u$\x7bb\x7d\\`c`, 0x1Fn];" "test.js" = .ok root ∧
    ∀ n ∈ root.nodes,
      n.KeepsLiteral "x = [/[/\\]]\\//gu, f`\\u$\x7bb\x7d\\`c`, 0x1Fn];".toList := by
  have hok : (parseModule "x = [/[/\\]]\\//gu, f`\\u$\x7bb\x7d\\`c`, 0x1Fn];"
      "test.js").isOk = true := by decide +kernel
  cases h : parseModule "x = [/[/\\]]\\//gu, f`\\u$\x7bb\x7d\\`c`, 0x1Fn];" "test.js" with
  | ok root => exact ⟨root, rfl, literals_kept h⟩
  | error e =>
    rw [h] at hok
    cases hok

end EsModule.Syntax
